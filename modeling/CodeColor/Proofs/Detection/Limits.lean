import CodeColor.Proofs.Detection.Lines
import CodeColor.Proofs.Pattern.Alphabet
import CodeColor.Proofs.Pattern.CharSet

/-!
How many points a text can have at most, seen from its characters. A pattern that needs some other character does not
occur in the text.

Main statements: `Evidence.score_le_limit` and `get_ofEvidence_blank`.
-/

namespace CodeColor

variable {alphabet text : List Char}

namespace Evidence

/-- The points of the patterns that can be made from the alphabet alone. -/
def limit (evidence : Evidence) (alphabet : List Char) : Nat :=
  3 * evidence.strong.countP (fun pattern => !pattern.needsBeyond alphabet) +
    evidence.weak.countP fun pattern => !pattern.needsBeyond alphabet

theorem countP_le (patterns : List Pattern) (within : ∀ c ∈ text, c ∈ alphabet) :
    patterns.countP (·.occursIn text) ≤ patterns.countP fun pattern => !pattern.needsBeyond alphabet := by
  refine List.countP_mono_left fun pattern _ occurs => ?_
  by_contra needs
  have absent := Pattern.occursIn_eq_false (by simpa using needs) within
  exact Bool.false_ne_true (absent.symm.trans occurs)

theorem score_le_limit (evidence : Evidence) (within : ∀ c ∈ text, c ∈ alphabet) :
    evidence.score text ≤ evidence.limit alphabet := by
  have strong := countP_le evidence.strong within
  have weak := countP_le evidence.weak within
  unfold score limit
  omega

end Evidence

namespace Scores

theorem get_ofEvidence_le (language : Language) (within : ∀ c ∈ text, c ∈ alphabet) :
    (ofEvidence text).get language ≤ language.evidence.limit alphabet := by
  rw [get_ofEvidence]
  exact language.evidence.score_le_limit within

theorem limit_blanks (language : Language) : language.evidence.limit Text.blanks = 0 := by
  cases language <;> decide +kernel

theorem get_ofEvidence_blank (blank : Text.Blank text) (language : Language) :
    (ofEvidence text).get language = 0 := by
  have within : ∀ c ∈ text, c ∈ Text.blanks := fun c member => Text.mem_blanks (blank c member)
  have most := get_ofEvidence_le language within
  rw [limit_blanks] at most
  exact Nat.le_zero.1 most

end Scores

end CodeColor
