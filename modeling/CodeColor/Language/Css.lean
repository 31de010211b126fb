import CodeColor.Grammar.Rule
import CodeColor.Language.Lexeme

/-! The grammar of CSS. -/

namespace CodeColor.Language.Css

open Pattern

def selectorCharacter : CharSet := CharSet.alphanumeric.or (.among ['_', '.', '-', '#', ':'])

def propertyCharacter : CharSet := CharSet.letter.or (.among ['-'])

/-- The units of length and share, in the order in which they are tried. -/
def units : List String := ["%", "px", "em", "rem", "vh", "vw", "pt", "ex", "cm", "mm", "in"]

/-- A whole selector up to the brace that opens its block. -/
def selector : Pattern :=
  guard (.notAfter selectorCharacter) ++ oneOrMore selectorCharacter ++ many .blank ++ exactly "\x7b"

def property : Pattern :=
  guard (.notAfter propertyCharacter) ++ oneOrMore propertyCharacter ++ many .blank ++ exactly ":"

/-- What follows a colon, up to a semicolon or a closing brace. The colon is taken along unless another
rule has claimed it. -/
def value : Pattern :=
  (exactly ":" ||| guard (.after (.among [':']))) ++ oneOrMore (.except [';', '}'])

def measure : Pattern :=
  boundary ++ oneOrMore .digit ++ anyWord units ++ guard (.notBefore .word)

def grammar : Grammar :=
  [⟨"comment", Lexeme.enclosedComment "/*" "*/", .comment⟩,
    ⟨"selector", selector, .selector⟩,
    ⟨"property", property, .property⟩,
    ⟨"value", value, .value⟩,
    ⟨"unit", measure, .number⟩,
    ⟨"string", Lexeme.plainString, .string⟩]

end CodeColor.Language.Css
