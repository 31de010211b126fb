import CodeColor.Grammar.Rule
import CodeColor.Language.Lexeme

/-! The grammar of JavaScript. -/

namespace CodeColor.Language.JavaScript

open Pattern

def keywords : List String :=
  ["async", "await", "break", "case", "catch", "class", "const", "continue", "debugger", "default",
    "delete", "do", "else", "export", "extends", "false", "finally", "for", "function", "if", "import",
    "in", "instanceof", "new", "null", "return", "super", "switch", "this", "throw", "true", "try",
    "typeof", "var", "void", "while", "with", "yield", "let"]

def identifierHead : CharSet := CharSet.letter.or (.among ['_', '$'])

def identifierCharacter : CharSet := CharSet.alphanumeric.or (.among ['_', '$'])

/-- A comment to the end of the line, or one between its two marks. -/
def comment : Pattern :=
  exactly "//" ++ many .inLine ||| Lexeme.enclosedComment "/*" "*/"

def string : Pattern :=
  Lexeme.escapedString '"' ||| Lexeme.escapedString '\x27' ||| Lexeme.escapedString '\x60'

def call : Pattern :=
  boundary ++ one identifierHead ++ many identifierCharacter ++ ahead (many .blank ++ exactly "(")

def operatorCharacter : CharSet :=
  .among ['+', '-', '*', '/', '%', '=', '<', '>', '!', '&', '|', '^', '~', '?', ':']

def punctuationCharacter : CharSet :=
  .among ['{', '}', '[', ']', '(', ')', ';', ',', '.']

def grammar : Grammar :=
  [⟨"comment", comment, .comment⟩,
    ⟨"string", string, .string⟩,
    ⟨"keyword", wholeWord keywords, .keyword⟩,
    ⟨"function", call, .function⟩,
    ⟨"number", Lexeme.number, .number⟩,
    ⟨"operator", oneOrMore operatorCharacter, .operator⟩,
    ⟨"punctuation", one punctuationCharacter, .punctuation⟩]

end CodeColor.Language.JavaScript
