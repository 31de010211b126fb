import CodeColor.Proofs.Claim.Matches
import CodeColor.Proofs.Claim.Partition

/-!
Rows of pieces that are the same. In a tidy row the claimed pieces say what is free, so two tidy rows of one text are
the same if the same pieces are claimed in them, at the same places.

Main statements: `Piece.Tidy.eq_of_stands`, and `Rule.claimFrom_claimFrom`, by which two rules that come one after the
other can be compared with one rule.
-/

namespace CodeColor

namespace Piece

variable {piece first : Piece} {pieces others : List Piece} {before text other : List Char} {type : TokenType}

theorem stands_cons_iff :
    piece.Stands before (first :: pieces) ↔
      before = [] ∧ piece = first ∨ ∃ rest, before = first.text ++ rest ∧ piece.Stands rest pieces := by
  constructor
  · intro stands
    cases stands with
    | here => exact .inl ⟨rfl, rfl⟩
    | @behind rest _ _ further => exact .inr ⟨rest, rfl, further⟩
  · rintro (⟨rfl, rfl⟩ | ⟨rest, rfl, further⟩)
    · exact .here
    · exact .behind first further

theorem stands_tail_iff (some_text : first.text ≠ []) :
    piece.Stands (first.text ++ before) (first :: pieces) ↔ piece.Stands before pieces := by
  rw [stands_cons_iff]
  constructor
  · rintro (⟨empty, -⟩ | ⟨rest, same, further⟩)
    · exact absurd (List.append_eq_nil_iff.1 empty).1 some_text
    · rwa [List.append_cancel_left same]
  · exact fun further => .inr ⟨before, rfl, further⟩

namespace Tidy

theorem eq_nil (tidy : Tidy pieces) (empty : source pieces = []) : pieces = [] := by
  cases pieces with
  | nil => rfl
  | cons piece pieces =>
    rw [source_cons] at empty
    exact absurd (List.append_eq_nil_iff.1 empty).1 (tidy.some_text piece List.mem_cons_self)

theorem eq_first (tidy : Tidy (first :: pieces)) (stands : piece.Stands [] (first :: pieces)) : piece = first := by
  rcases stands_cons_iff.1 stands with ⟨-, same⟩ | ⟨rest, empty, -⟩
  · exact same
  · exact absurd (List.append_eq_nil_iff.1 empty.symm).1 (tidy.some_text first List.mem_cons_self)

theorem free_prefix (tidy : Tidy (⟨text, none⟩ :: pieces))
    (same : source (⟨text, none⟩ :: pieces) = source (⟨other, none⟩ :: others))
    (claimed : ∀ next type before, Stands ⟨next, some type⟩ before (⟨text, none⟩ :: pieces) →
      Stands ⟨next, some type⟩ before (⟨other, none⟩ :: others)) : other <+: text := by
  rcases tidy.behind_free with rfl | ⟨next, type, later, rfl⟩
  · rw [source_cons, source_cons, source_nil, List.append_nil] at same
    exact ⟨source others, same.symm⟩
  · have placed := claimed next type _ (.behind ⟨text, none⟩ .here)
    rw [List.append_nil, stands_cons_iff] at placed
    rcases placed with ⟨-, wrong⟩ | ⟨rest, split, -⟩
    · cases wrong
    · exact ⟨rest, split.symm⟩

theorem eq_of_stands (tidy : Tidy pieces) (also : Tidy others) (same : source pieces = source others)
    (claimed : ∀ text type before, Stands ⟨text, some type⟩ before pieces ↔ Stands ⟨text, some type⟩ before others) :
    pieces = others := by
  induction pieces generalizing others with
  | nil => exact (also.eq_nil same.symm).symm
  | cons piece pieces ih =>
    cases others with
    | nil => exact tidy.eq_nil same
    | cons other others =>
      obtain rfl : piece = other := by
        obtain ⟨text, type?⟩ := piece
        obtain ⟨second, other?⟩ := other
        cases type? with
        | some type => exact also.eq_first ((claimed text type []).1 .here)
        | none =>
          cases other? with
          | some type => exact (tidy.eq_first ((claimed second type []).2 .here)).symm
          | none =>
            have left := tidy.free_prefix same fun next type before => (claimed next type before).1
            have right := also.free_prefix same.symm fun next type before => (claimed next type before).2
            rw [right.eq_of_length_le left.length_le]
      have some_text := tidy.some_text piece List.mem_cons_self
      rw [source_cons, source_cons] at same
      rw [ih tidy.tail also.tail (List.append_cancel_left same) fun text type before => ?_]
      have moved := claimed text type (piece.text ++ before)
      rwa [stands_tail_iff some_text, stands_tail_iff some_text] at moved

end Tidy

end Piece

namespace Rule

open Piece

theorem claimFrom_append (rule : Rule) (before : List Char) (first second : List Piece) :
    rule.claimFrom [] before (first ++ second) =
      rule.claimFrom [] before first ++ rule.claimFrom [] ((source first).reverse ++ before) second := by
  induction first generalizing before with
  | nil => rfl
  | cons piece first ih =>
    rw [List.cons_append, claimFrom_cons, claimFrom_cons, ih, source_cons, List.append_assoc, List.reverse_append,
      List.append_assoc]

theorem claimFrom_claimFrom {first second rule : Rule}
    (each : ∀ before text, second.claimFrom [] before (first.divide before ⟨text, none⟩) =
      rule.divide before ⟨text, none⟩) (before : List Char) (pieces : List Piece) :
    second.claimFrom [] before (first.claimFrom [] before pieces) = rule.claimFrom [] before pieces := by
  induction pieces generalizing before with
  | nil => rfl
  | cons piece pieces ih =>
    have here : second.claimFrom [] before (first.divide before piece) = rule.divide before piece := by
      obtain ⟨text, type?⟩ := piece
      cases type? with
      | some type => rfl
      | none => exact each before text
    rw [claimFrom_cons, claimFrom_append, source_divide, here, ih, claimFrom_cons]

theorem Cuts.stands_iff {rule : Rule} (apart : rule.Apart) {before after text start : List Char} {pieces : List Piece}
    {type : TokenType} (cuts : rule.Cuts before after pieces) :
    Stands ⟨text, some type⟩ start pieces ↔ type = rule.type ∧ ∃ rest, after = start ++ (text ++ rest) ∧
      rule.Matches (start.reverse ++ before) text rest := by
  constructor
  · exact cuts.matched_of_stands
  · rintro ⟨rfl, rest, whole, matched⟩
    exact cuts.stands_of_matched apart whole matched

end Rule

end CodeColor
