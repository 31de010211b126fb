import CodeColor.Proofs.Pattern.Words

/-!
Literal patterns, which look at nothing but the text that they take, and patterns that take no text at all.

Main statements: `matchLength?_literal`, `matchLength?_literal_append` and `TakesNothing.matchLength?_eq_none`.
-/

namespace CodeColor.Pattern

/-! ## Literals -/

/-- A literal matches where its text stands, whatever comes before and behind. -/
theorem matchLength?_literal (word before after : List Char) :
    (literal word).matchLength? before after =
      if word ≠ [] ∧ word <+: after then some word.length else none := by
  rw [matchLength?_eq_run]
  by_cases found : word <+: after
  · obtain ⟨rest, rfl⟩ := found
    rw [run_literal, accept, Nat.zero_add]
    by_cases empty : word = []
    · subst empty
      rfl
    · have some_text : word.length ≠ 0 := fun none => empty (List.length_eq_zero_iff.1 none)
      rw [if_neg some_text, if_pos ⟨empty, List.prefix_append word rest⟩]
      rfl
  · rw [run_literal_absent found, if_neg fun both => found both.2]
    rfl

/-- A text that starts with another character than those of the literal is as good as no text. -/
theorem matchLength?_literal_append {set : CharSet} {word rest : List Char} (inside : ∀ c ∈ word, set c = true)
    (stops : startsIn set rest = false) (before after : List Char) :
    (literal word).matchLength? before (after ++ rest) = (literal word).matchLength? before after := by
  have leads : word <+: after ++ rest ↔ word <+: after := by
    constructor
    · exact prefix_of_prefix_append inside stops
    · exact fun found => found.trans (List.prefix_append after rest)
  simp only [matchLength?_literal, leads]

/-! ## Patterns without text -/

/-- Whatever the pattern matches, it takes no text. -/
def TakesNothing (pattern : Pattern) : Prop :=
  ∀ cursor stop : Cursor, stop ∈ pattern.ends cursor → stop.taken = cursor.taken

namespace TakesNothing

variable {pattern first second : Pattern}

theorem matchLength?_eq_none (empty : pattern.TakesNothing) (before after : List Char) :
    pattern.matchLength? before after = none := by
  have none_found : (pattern.ends ⟨before, after, 0⟩).find? (·.taken ≠ 0) = none := by
    apply List.find?_eq_none.2
    intro stop member
    simp [empty _ stop member]
  rw [matchLength?_eq, none_found]
  rfl

theorem nothing : Pattern.nothing.TakesNothing := by
  intro cursor stop found
  obtain rfl : stop = cursor := by simpa [Pattern.nothing, ends, Cursor.past?] using found
  rfl

theorem guard (condition : Guard) : (Pattern.guard condition).TakesNothing := by
  intro cursor stop found
  rw [(mem_ends_guard.1 found).2]

theorem append (left : first.TakesNothing) (right : second.TakesNothing) : (first ++ second).TakesNothing := by
  intro cursor stop found
  obtain ⟨middle, before, behind⟩ := List.mem_flatMap.1 found
  exact (right middle stop behind).trans (left cursor middle before)

end TakesNothing

end CodeColor.Pattern
