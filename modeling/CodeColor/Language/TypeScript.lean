import CodeColor.Grammar.Extension
import CodeColor.Language.JavaScript

/-! The grammar of TypeScript: that of JavaScript with more keywords and a rule for type names. -/

namespace CodeColor.Language.TypeScript

open Pattern

def furtherKeywords : List String :=
  ["interface", "type", "namespace", "enum", "as", "implements", "readonly", "private", "protected",
    "public", "static"]

def keywords : List String := JavaScript.keywords ++ furtherKeywords

def typeName : Pattern :=
  boundary ++ one .upper ++ many JavaScript.identifierCharacter ++ boundary

def extension : Extension where
  replace := [("keyword", ⟨"keyword", wholeWord keywords, .keyword⟩)]
  insertAfter := [("keyword", [⟨"type", typeName, .className⟩])]

def grammar : Grammar := extension.applyTo JavaScript.grammar

end CodeColor.Language.TypeScript
