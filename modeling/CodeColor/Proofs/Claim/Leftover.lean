import CodeColor.Proofs.Claim.Matches

/-!
What a first rule leaves to the others: text in which none of its matches starts.

Main statements: `Grammar.misses_first` and `Grammar.matched_first`.
-/

namespace CodeColor

namespace Rule

theorem Misses.inside {rule : Rule} {before left text right rest : List Char}
    (missed : rule.Misses before (left ++ (text ++ right)) rest) :
    rule.Misses (left.reverse ++ before) text (right ++ rest) :=
  (misses_append.1 (misses_append.1 missed).2).1

namespace Cuts

variable {rule : Rule} {before after : List Char} {pieces : List Piece}

theorem misses_of_stands (cuts : rule.Cuts before after pieces) {gap start : List Char}
    (stands : Piece.Stands ⟨gap, none⟩ start pieces) :
    ∃ rest, after = start ++ (gap ++ rest) ∧ rule.Misses (start.reverse ++ before) gap rest := by
  have free : ∀ {held start : List Char}, Piece.Stands ⟨gap, none⟩ start (Piece.free held []) →
      start = [] ∧ gap = held := by
    intro held start stands
    cases held with
    | nil => cases stands
    | cons c held =>
      cases stands with
      | here => exact ⟨rfl, rfl⟩
      | behind _ further => cases further
  induction cuts generalizing start with
  | rest missed =>
    obtain ⟨rfl, rfl⟩ := free stands
    exact ⟨[], by rw [List.append_nil]; rfl, missed⟩
  | @found before held claimed rest pieces missed some_text matched onward ih =>
    rcases stands.of_append with inside | ⟨further, rfl, outside⟩
    · obtain ⟨rfl, rfl⟩ := free inside
      exact ⟨claimed ++ rest, rfl, missed⟩
    · cases outside with
      | behind _ stands =>
        obtain ⟨more, split, missed⟩ := ih stands
        refine ⟨more, ?_, ?_⟩
        · rw [split, Piece.source_free]
          simp
        · rw [Piece.source_free]
          simpa using missed

end Cuts

theorem misses_of_stands_claimFrom {rule : Rule} {before gap start : List Char} {pieces : List Piece}
    (stands : Piece.Stands ⟨gap, none⟩ start (rule.claimFrom [] before pieces)) :
    ∃ rest, rule.Misses (start.reverse ++ before) gap rest := by
  rcases exists_divide_of_stands stands with ⟨claimed, -⟩ | ⟨outer, left, free, rfl, -, inside⟩
  · exact absurd rfl claimed
  · obtain ⟨rest, -, missed⟩ := (rule.cuts_cut _ free).misses_of_stands inside
    refine ⟨rest, ?_⟩
    rwa [List.reverse_append, List.append_assoc]

end Rule

namespace Grammar

theorem claim_single (rule : Rule) (text : List Char) :
    Grammar.claim [rule] text = (rule.cut [] [] [] 0 text).reverse := by
  have division := rule.claimFrom_cons [] ⟨text, none⟩ []
  rwa [Rule.claimFrom, List.reverse_nil, List.append_nil] at division

theorem cuts_single (rule : Rule) (text : List Char) : rule.Cuts [] text (Grammar.claim [rule] text) := by
  rw [claim_single]
  exact rule.cuts_cut [] text

variable (rule : Rule) {others : Grammar} {text claimed before : List Char} {type : TokenType}

theorem misses_first (other : type ≠ rule.type)
    (stands : Piece.Stands ⟨claimed, some type⟩ before (Grammar.claim (rule :: others) text)) :
    ∃ rest, text = before ++ (claimed ++ rest) ∧ rule.Misses before.reverse claimed rest := by
  have cuts := cuts_single rule text
  rcases (refines_claim_append [rule] others text).origin stands with earlier | ⟨-, start, left, right, rfl, gap⟩
  · exact absurd (cuts.type_eq earlier.mem rfl) other
  · obtain ⟨rest, split, missed⟩ := cuts.misses_of_stands gap
    refine ⟨right ++ rest, by simp [split], ?_⟩
    have inside := missed.inside
    rwa [List.append_nil, ← List.reverse_append] at inside

theorem matched_first (only : type ∉ others.map Rule.type)
    (stands : Piece.Stands ⟨claimed, some type⟩ before (Grammar.claim (rule :: others) text)) :
    ∃ before after, rule.pattern.matchLength? before (claimed ++ after) = some claimed.length := by
  rcases (refines_claim_append [rule] others text).origin stands with earlier | ⟨later, -⟩
  · obtain ⟨-, rest, -, matched⟩ := (cuts_single rule text).matched_of_stands earlier
    exact ⟨_, rest, matched.length⟩
  · exact absurd later only

end Grammar

end CodeColor
