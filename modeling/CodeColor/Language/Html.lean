import CodeColor.Grammar.Rule
import CodeColor.Language.Lexeme

/-! The grammar of HTML. -/

namespace CodeColor.Language.Html

open Pattern

def attributeTail : CharSet := CharSet.alphanumeric.or (.among ['-'])

def tag : Pattern :=
  exactly "<" ++ optional (exactly "/") ++ one .letter ++ many .alphanumeric ||| exactly ">"

def attributeStart : Pattern :=
  one .blank ++ one .letter ++ many attributeTail ++ exactly "="

def grammar : Grammar :=
  [⟨"comment", Lexeme.enclosedComment "<!--" "-->", .comment⟩,
    ⟨"tag", tag, .tag⟩,
    ⟨"attribute", attributeStart, .attributeName⟩,
    ⟨"string", Lexeme.plainString, .string⟩]

end CodeColor.Language.Html
