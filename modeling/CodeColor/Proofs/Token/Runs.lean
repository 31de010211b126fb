import CodeColor.Proofs.Claim.Extent

/-!
Tokens that are the maximal runs of some property of places.

Main statement: `Runs.mem_iff`.
-/

namespace CodeColor

def Within (extent : Nat × Nat) (place : Nat) : Prop :=
  extent.1 ≤ place ∧ place < extent.2

/-- The property holds throughout the stretch, and neither right before it nor right behind. -/
structure MaximalRun (holds : Nat → Prop) (extent : Nat × Nat) : Prop where
  some_place : extent.1 < extent.2
  inside : ∀ place, Within extent place → holds place
  before : ∀ place, place + 1 = extent.1 → ¬ holds place
  behind : ¬ holds extent.2

section

variable {holds : Nat → Prop} {first second : Nat × Nat} {place : Nat}

theorem MaximalRun.start_le (left : MaximalRun holds first) (right : MaximalRun holds second)
    (inFirst : Within first place) (inSecond : Within second place) : second.1 ≤ first.1 := by
  obtain ⟨start, stop⟩ := first
  by_contra later
  obtain ⟨before, same⟩ : ∃ before, before + 1 = second.1 := ⟨second.1 - 1, by omega⟩
  have near : Within (start, stop) before := by
    unfold Within at *
    dsimp only at *
    omega
  exact right.before before same (left.inside before near)

theorem MaximalRun.stop_le (left : MaximalRun holds first) (right : MaximalRun holds second)
    (inFirst : Within first place) (inSecond : Within second place) : first.2 ≤ second.2 := by
  obtain ⟨start, stop⟩ := first
  by_contra longer
  have further : Within (start, stop) second.2 := by
    unfold Within at *
    dsimp only at *
    omega
  exact right.behind (left.inside second.2 further)

theorem MaximalRun.unique (left : MaximalRun holds first) (right : MaximalRun holds second)
    (inFirst : Within first place) (inSecond : Within second place) : first = second :=
  Prod.ext (Nat.le_antisymm (right.start_le left inSecond inFirst) (left.start_le right inFirst inSecond))
    (Nat.le_antisymm (left.stop_le right inFirst inSecond) (right.stop_le left inSecond inFirst))

end

/-- The stretches do not overlap, they cover the places with the property and no others, and none of them ends in front
of such a place. -/
structure Runs (holds : Nat → Prop) (extents : List (Nat × Nat)) : Prop where
  covers : ∀ place, holds place → ∃ extent ∈ extents, Within extent place
  inside : ∀ extent ∈ extents, ∀ place, Within extent place → holds place
  some_place : ∀ extent ∈ extents, extent.1 < extent.2
  stops : ∀ extent ∈ extents, ¬ holds extent.2
  apart : ∀ first ∈ extents, ∀ second ∈ extents, ∀ place, Within first place → Within second place → first = second

namespace Runs

variable {holds : Nat → Prop} {extents : List (Nat × Nat)} {extent : Nat × Nat}

theorem maximal (runs : Runs holds extents) (member : extent ∈ extents) : MaximalRun holds extent := by
  have some_place := runs.some_place extent member
  refine ⟨some_place, runs.inside extent member, fun place next held => ?_, runs.stops extent member⟩
  obtain ⟨other, listed, around⟩ := runs.covers place held
  have start : Within extent extent.1 := ⟨Nat.le_refl _, some_place⟩
  by_cases reaches : extent.1 < other.2
  · have shared : Within other extent.1 := by
      unfold Within at *
      omega
    have same := runs.apart extent member other listed extent.1 start shared
    unfold Within at around
    rw [← same] at around
    omega
  · have edge : other.2 = extent.1 := by
      unfold Within at around
      omega
    exact runs.stops other listed (edge ▸ runs.inside extent member extent.1 start)

theorem mem_iff (runs : Runs holds extents) : extent ∈ extents ↔ MaximalRun holds extent := by
  constructor
  · exact runs.maximal
  · intro run
    have start : Within extent extent.1 := ⟨Nat.le_refl _, run.some_place⟩
    obtain ⟨other, listed, around⟩ := runs.covers extent.1 (run.inside extent.1 start)
    rwa [run.unique (runs.maximal listed) start around]

end Runs

theorem Token.extents_unique {tokens : List Token} {type other : TokenType} {first second : Nat × Nat}
    (left : first ∈ Span.extents type (spans tokens)) (right : second ∈ Span.extents other (spans tokens)) {place : Nat}
    (inFirst : Within first place) (inSecond : Within second place) : type = other ∧ first = second := by
  obtain ⟨firstSpan, known, rfl⟩ := List.mem_map.1 left
  obtain ⟨secondSpan, also, rfl⟩ := List.mem_map.1 right
  obtain ⟨member, typed⟩ := List.mem_filter.1 known
  obtain ⟨listed, named⟩ := List.mem_filter.1 also
  have same := span_unique member listed inFirst inSecond
  rw [decide_eq_true_eq] at typed named
  rw [same] at typed ⊢
  exact ⟨Option.some.inj (typed.symm.trans named), rfl⟩

end CodeColor
