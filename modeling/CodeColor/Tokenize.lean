import CodeColor.Claim.Basic
import CodeColor.Token.Basic

/-! Source text as a list of tokens. -/

namespace CodeColor

/-- The token type of a piece; what is free, or claimed for a type without a name, is plain text. -/
def Piece.tokenType (piece : Piece) : TokenType :=
  match piece.type? with
  | none => .text
  | some type => if type.name = "" then .text else type

namespace Token

/-- The tokens of the pieces, the first of which starts at the position, after those of `done`. -/
def placeFrom (done : List Token) (position : Position) : List Piece → List Token
  | [] => done.reverse
  | piece :: pieces =>
    placeFrom
      (⟨piece.tokenType, String.ofList piece.text, position.line, position.column⟩ :: done)
      (position.past piece.text) pieces

def ofPieces (pieces : List Piece) : List Token :=
  placeFrom [] .start pieces

end Token

/-- The tokens of the code by the grammar. Empty code has none; a grammar without rules makes one token
of plain text. -/
def Grammar.tokenize (grammar : Grammar) (code : String) : List Token :=
  if code = "" then [] else Token.ofPieces (grammar.claim code.toList)

end CodeColor
