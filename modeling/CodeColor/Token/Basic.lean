import CodeColor.Token.TokenType

/-! Tokens, and places in a text by line and column. -/

namespace CodeColor

structure Position where
  line : Nat
  column : Nat
  deriving DecidableEq, Repr

namespace Position

def start : Position := ⟨1, 1⟩

/-- The place after one more character; only a line feed starts a line. -/
def next (position : Position) (c : Char) : Position :=
  if c = '\n' then ⟨position.line + 1, 1⟩ else ⟨position.line, position.column + 1⟩

def past (position : Position) (text : List Char) : Position :=
  text.foldl next position

theorem past_append (position : Position) (first second : List Char) :
    position.past (first ++ second) = (position.past first).past second :=
  List.foldl_append

end Position

/-- A piece of source text, its type, and the place where it starts. -/
structure Token where
  type : TokenType
  value : String
  line : Nat
  column : Nat
  deriving DecidableEq, Repr

end CodeColor
