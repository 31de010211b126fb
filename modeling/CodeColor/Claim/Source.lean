import CodeColor.Claim.Basic
import CodeColor.Pattern.Reach

/-!
Claiming neither loses nor adds text.

Main statement: `Grammar.source_claim`. The pieces of a text make up the text.
-/

namespace CodeColor

namespace Piece

theorem source_append (first second : List Piece) :
    source (first ++ second) = source first ++ source second :=
  List.flatMap_append

theorem source_cons (piece : Piece) (pieces : List Piece) :
    source (piece :: pieces) = piece.text ++ source pieces :=
  List.flatMap_cons

theorem free_eq_append (held : List Char) (done : List Piece) : free held done = free held [] ++ done := by
  unfold free
  split <;> rfl

end Piece

namespace Rule

theorem cut_eq_append (rule : Rule) (done : List Piece) (before held : List Char) (owed : Nat)
    (after : List Char) :
    rule.cut done before held owed after = rule.cut [] before held owed after ++ done := by
  induction after generalizing done before held owed with
  | nil => exact Piece.free_eq_append ..
  | cons c after ih =>
    cases owed with
    | succ owed => simp only [cut, ih done]
    | zero =>
      simp only [cut]
      split
      · exact ih ..
      · rw [ih, ih (_ :: Piece.free _ []), Piece.free_eq_append _ done]
        simp

theorem source_cut (rule : Rule) (before held : List Char) (owed : Nat) (after : List Char)
    (enough : owed ≤ after.length) :
    Piece.source (rule.cut [] before held owed after).reverse = held.reverse ++ after.drop owed := by
  induction after generalizing before held owed with
  | nil =>
    simp only [cut, List.drop_nil, List.append_nil]
    unfold Piece.free
    split <;> simp_all [Piece.source]
  | cons c after ih =>
    cases owed with
    | succ owed =>
      simp only [cut, List.drop_succ_cons]
      exact ih _ _ _ (by simpa using enough)
    | zero =>
      simp only [cut, List.drop_zero]
      split
      · rw [ih _ _ _ (Nat.zero_le _)]
        simp
      · next length found =>
        have positive := Pattern.matchLength?_pos found
        have bounded := Pattern.matchLength?_le found
        obtain ⟨length, rfl⟩ : ∃ shorter, length = shorter + 1 := ⟨length - 1, by omega⟩
        rw [cut_eq_append, List.reverse_append, Piece.source_append, Nat.add_sub_cancel,
          ih _ _ _ (by simpa using bounded), List.reverse_cons, Piece.source_append]
        have held_text : Piece.source (Piece.free held.reverse []).reverse = held.reverse := by
          unfold Piece.free
          split <;> simp_all [Piece.source]
        rw [held_text]
        simp [Piece.source]

theorem source_claimFrom (rule : Rule) (done : List Piece) (before : List Char) (pieces : List Piece) :
    Piece.source (rule.claimFrom done before pieces) =
      Piece.source done.reverse ++ Piece.source pieces := by
  induction pieces generalizing done before with
  | nil => simp [claimFrom, Piece.source]
  | cons piece pieces ih =>
    rw [claimFrom, ih, Piece.source_cons]
    split
    · rw [List.reverse_cons, Piece.source_append]
      simp [Piece.source]
    · rw [cut_eq_append, List.reverse_append, Piece.source_append,
        source_cut _ _ _ _ _ (Nat.zero_le _)]
      simp

theorem source_claim (rule : Rule) (pieces : List Piece) :
    Piece.source (rule.claim pieces) = Piece.source pieces := by
  rw [claim, source_claimFrom]
  rfl

end Rule

theorem Grammar.source_foldl (rules : Grammar) (pieces : List Piece) :
    Piece.source (rules.foldl (fun pieces rule => rule.claim pieces) pieces) = Piece.source pieces := by
  induction rules generalizing pieces with
  | nil => rfl
  | cons rule rules ih => rw [List.foldl_cons, ih, Rule.source_claim]

theorem Grammar.source_claim (grammar : Grammar) (text : List Char) :
    Piece.source (grammar.claim text) = text := by
  rw [claim, source_foldl]
  simp [Piece.source]

end CodeColor
