import CodeColor.Pattern.Basic

/-! Patterns that several languages share. -/

namespace CodeColor.Language.Lexeme

open Pattern

def quoted (quote : Char) : Pattern :=
  literal [quote] ++ many (.except [quote]) ++ literal [quote]

def plainString : Pattern :=
  quoted '"' ||| quoted '\x27'

/-- Text between two equal quotes, where a backslash takes the next character with it. -/
def escapedString (quote : Char) : Pattern :=
  literal [quote] ++ quotedBody quote ++ literal [quote]

/-- A comment from its opener to the nearest closer, or to the end where there is no closer. -/
def enclosedComment (opener closer : String) : Pattern :=
  exactly opener ++ few .any ++ (exactly closer ||| guard .stretchEnd)

def number : Pattern :=
  boundary ++ oneOrMore .digit ++ optional (exactly "." ++ oneOrMore .digit) ++ boundary

end CodeColor.Language.Lexeme
