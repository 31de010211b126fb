import CodeColor.Detection.Verdict
import CodeColor.Proofs.Json.Nesting

/-!
Whether a source has scores at all, and that these do not depend on the room that there is for nesting.

Main statements: `Scores.ofSource_eq_tooDeep_iff` and `Scores.ofSource_same`.
-/

namespace CodeColor

open Json

variable {nesting less more : Nat} {source : String}

theorem parsesAsJson_same {first second : Bool} (left : parsesAsJson less source = .ok first)
    (right : parsesAsJson more source = .ok second) : first = second := by
  have passes {nesting other : Nat} {parses : Bool} (yes : parsesAsJson nesting source = .ok true)
      (answered : parsesAsJson other source = .ok parses) : parses = true := by
    have shallow : parsesAsJson other source ≠ .error .tooDeep := by simp [answered]
    have accepted := parsesAsJson_iff.2 ⟨shallow, (parsesAsJson_iff.1 yes).2⟩
    exact Except.ok.inj (answered.symm.trans accepted)
  cases first with
  | true => exact (passes left right).symm
  | false =>
    cases second with
    | true => exact passes right left
    | false => rfl

namespace Scores

theorem ofSource_eq_ok {scores : Scores} :
    ofSource nesting source = .ok scores ↔
      ∃ parses, parsesAsJson nesting source = .ok parses ∧ (ofEvidence source.toList).settled parses = scores := by
  unfold ofSource
  cases parsesAsJson nesting source <;> simp [Except.map]

theorem ofSource_eq_tooDeep_iff : ofSource nesting source = .error .tooDeep ↔ Overflows nesting source.toList := by
  rw [← parsesAsJson_eq_tooDeep_iff, ofSource]
  cases parsesAsJson nesting source <;> simp [Except.map]

theorem exists_ofSource (shallow : ¬ Overflows nesting source.toList) :
    ∃ scores, ofSource nesting source = .ok scores := by
  obtain ⟨parses, answered⟩ := exists_parsesAsJson shallow
  exact ⟨_, ofSource_eq_ok.2 ⟨parses, answered, rfl⟩⟩

theorem not_overflows_of_ofSource {scores : Scores} (scored : ofSource nesting source = .ok scores) :
    ¬ Overflows nesting source.toList := by
  intro overflows
  cases scored.symm.trans (ofSource_eq_tooDeep_iff.2 overflows)

theorem ofSource_same {first second : Scores} (left : ofSource less source = .ok first)
    (right : ofSource more source = .ok second) : first = second := by
  obtain ⟨parses, answered, rfl⟩ := ofSource_eq_ok.1 left
  obtain ⟨also, again, rfl⟩ := ofSource_eq_ok.1 right
  rw [parsesAsJson_same answered again]

end Scores

end CodeColor
