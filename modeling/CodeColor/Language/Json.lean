import CodeColor.Grammar.Rule
import CodeColor.Language.Lexeme

/-! The grammar of JSON. -/

namespace CodeColor.Language.Json

open Pattern

def key : Pattern :=
  exactly "\"" ++ oneOrMore (.except ['"']) ++ exactly "\"" ++ ahead (many .blank ++ exactly ":")

def punctuationCharacter : CharSet := .among ['{', '}', '[', ']', ':', ',']

def grammar : Grammar :=
  [⟨"key", key, .property⟩,
    ⟨"string", Lexeme.escapedString '"', .string⟩,
    ⟨"number", optional (exactly "-") ++ Lexeme.number, .number⟩,
    ⟨"keyword", wholeWord ["true", "false", "null"], .keyword⟩,
    ⟨"punctuation", one punctuationCharacter, .punctuation⟩]

end CodeColor.Language.Json
