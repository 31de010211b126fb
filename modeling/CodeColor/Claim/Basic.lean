import CodeColor.Claim.Piece
import CodeColor.Grammar.Rule

/-!
Claiming text rule by rule. Each rule in turn searches the pieces that are still free, from left to
right, and takes its leftmost matches out of them. A search looks back at the whole text before it, and
sees the end of its piece as the end of the text.
-/

namespace CodeColor

namespace Rule

/-- Cuts the rule's matches out of a free stretch. The pieces go in front of `done`, the last one first;
`held` is free text whose piece is not complete, last character first; `owed` counts the characters of
the last match that are still to be passed. -/
def cut (rule : Rule) (done : List Piece) (before held : List Char) (owed : Nat) :
    List Char → List Piece
  | [] => Piece.free held.reverse done
  | c :: after =>
    match owed with
    | owed + 1 => cut rule done (c :: before) held owed after
    | 0 =>
      match rule.pattern.matchLength? before (c :: after) with
      | none => cut rule done (c :: before) (c :: held) 0 after
      | some length =>
        let claimed := ⟨(c :: after).take length, some rule.type⟩
        cut rule (claimed :: Piece.free held.reverse done) (c :: before) [] (length - 1) after

/-- Lets the rule claim text in each free piece. The pieces go in front of `done`, the last one first. -/
def claimFrom (rule : Rule) (done : List Piece) (before : List Char) : List Piece → List Piece
  | [] => done.reverse
  | piece :: pieces =>
    let finished := match piece.type? with
      | some _ => piece :: done
      | none => rule.cut done before [] 0 piece.text
    claimFrom rule finished (piece.text.reverse ++ before) pieces

def claim (rule : Rule) (pieces : List Piece) : List Piece :=
  rule.claimFrom [] [] pieces

end Rule

def Grammar.claim (grammar : Grammar) (text : List Char) : List Piece :=
  grammar.foldl (fun pieces rule => rule.claim pieces) [⟨text, none⟩]

end CodeColor
