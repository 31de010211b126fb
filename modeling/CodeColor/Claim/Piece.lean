import CodeColor.Token.TokenType

/-! A text cut into pieces, each claimed for a token type or still free. -/

namespace CodeColor

/-- A stretch of text and the type it is claimed for, if any. -/
structure Piece where
  text : List Char
  type? : Option TokenType
  deriving DecidableEq, Repr

structure Span where
  start : Nat
  stop : Nat
  type? : Option TokenType
  deriving DecidableEq, Repr

namespace Piece

def source (pieces : List Piece) : List Char :=
  pieces.flatMap Piece.text

/-- Free text in front of `done`; no text makes no piece. -/
def free (held : List Char) (done : List Piece) : List Piece :=
  if held.isEmpty then done else ⟨held, none⟩ :: done

/-- The spans of the pieces, in front of which `done` covers the text up to `offset`. -/
def spansFrom (done : List Span) (offset : Nat) : List Piece → List Span
  | [] => done.reverse
  | piece :: pieces =>
    let stop := offset + piece.text.length
    spansFrom (⟨offset, stop, piece.type?⟩ :: done) stop pieces

def spans (pieces : List Piece) : List Span :=
  spansFrom [] 0 pieces

end Piece

end CodeColor
