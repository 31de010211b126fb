import CodeColor.Proofs.Pattern.Lasting
import CodeColor.Proofs.Pattern.Words

/-!
What a pattern takes, seen against an alphabet: whether it needs a character that is not in the alphabet, and whether it
ends with one.

Main statements: `occursIn_eq_false` and `ends_beyond_of_mem_ends`.
-/

namespace CodeColor.Pattern

variable {alphabet text : List Char} {pattern : Pattern}

/-- Whatever the pattern takes holds a character that is not in the alphabet. -/
def needsBeyond (alphabet : List Char) : Pattern → Bool
  | literal text => text.any fun c => !alphabet.contains c
  | one set => alphabet.all fun c => !set c
  | many _ | few _ | quotedBody _ | guard _ | ahead _ => false
  | seq first second => first.needsBeyond alphabet || second.needsBeyond alphabet
  | alt first second => first.needsBeyond alphabet && second.needsBeyond alphabet

/-- Whatever the pattern takes holds no character of the alphabet. -/
def staysBeyond (alphabet : List Char) : Pattern → Bool
  | literal text => text.all fun c => !alphabet.contains c
  | one set | many set | few set => alphabet.all fun c => !set c
  | guard _ | ahead _ => true
  | quotedBody _ => false
  | seq first second | alt first second => first.staysBeyond alphabet && second.staysBeyond alphabet

/-- The pattern takes some text, which does not end with a character of the alphabet. -/
def endsBeyond (alphabet : List Char) : Pattern → Bool
  | literal text => startsIn (.except alphabet) text.reverse
  | one set => alphabet.all fun c => !set c
  | many _ | few _ | quotedBody _ | guard _ | ahead _ => false
  | seq first second =>
    second.endsBeyond alphabet || (first.endsBeyond alphabet && second.staysBeyond alphabet)
  | alt first second => first.endsBeyond alphabet && second.endsBeyond alphabet

theorem not_mem_of_beyond {set : CharSet} (beyond : (alphabet.all fun c => !set c) = true) {c : Char}
    (inside : set c = true) : c ∉ alphabet := by
  intro member
  have out := List.all_eq_true.1 beyond c member
  rw [inside] at out
  cases out

theorem except_of_not_mem {c : Char} (absent : c ∉ alphabet) : CharSet.except alphabet c = true := by
  simpa [CharSet.except] using absent

theorem exists_of_needsBeyond (needs : pattern.needsBeyond alphabet = true) (spelled : pattern.Spells text) :
    ∃ c ∈ text, c ∉ alphabet := by
  induction pattern generalizing text with
  | literal word =>
    obtain rfl : text = word := spelled
    simpa [needsBeyond] using needs
  | one set =>
    obtain ⟨c, inside, rfl⟩ := spelled
    exact ⟨c, List.mem_cons_self, not_mem_of_beyond needs inside⟩
  | many set | few set | quotedBody quote | guard condition | ahead pattern => cases needs
  | seq first second ihFirst ihSecond =>
    obtain ⟨front, back, rfl, left, right⟩ := spelled
    rw [needsBeyond, Bool.or_eq_true] at needs
    rcases needs with needs | needs
    · obtain ⟨c, member, absent⟩ := ihFirst needs left
      exact ⟨c, List.mem_append_left back member, absent⟩
    · obtain ⟨c, member, absent⟩ := ihSecond needs right
      exact ⟨c, List.mem_append_right front member, absent⟩
  | alt first second ihFirst ihSecond =>
    rw [needsBeyond, Bool.and_eq_true] at needs
    exact spelled.elim (ihFirst needs.1) (ihSecond needs.2)

theorem beyond_of_spells (stays : pattern.staysBeyond alphabet = true) (spelled : pattern.Spells text) :
    ∀ c ∈ text, CharSet.except alphabet c = true := by
  induction pattern generalizing text with
  | literal word =>
    obtain rfl : text = word := spelled
    exact List.all_eq_true.1 stays
  | one set =>
    obtain ⟨c, inside, rfl⟩ := spelled
    intro d same
    rw [List.mem_singleton.1 same]
    exact except_of_not_mem (not_mem_of_beyond stays inside)
  | many set | few set =>
    exact fun c member => except_of_not_mem (not_mem_of_beyond stays (spelled c member))
  | quotedBody quote => cases stays
  | guard condition | ahead pattern =>
    obtain rfl : text = [] := spelled
    simp
  | seq first second ihFirst ihSecond =>
    rw [staysBeyond, Bool.and_eq_true] at stays
    obtain ⟨front, back, rfl, left, right⟩ := spelled
    intro c member
    exact (List.mem_append.1 member).elim (ihFirst stays.1 left c) (ihSecond stays.2 right c)
  | alt first second ihFirst ihSecond =>
    rw [staysBeyond, Bool.and_eq_true] at stays
    exact spelled.elim (ihFirst stays.1) (ihSecond stays.2)

theorem beyond_end_of_spells (ends : pattern.endsBeyond alphabet = true) (spelled : pattern.Spells text) :
    startsIn (.except alphabet) text.reverse = true := by
  induction pattern generalizing text with
  | literal word =>
    obtain rfl : text = word := spelled
    exact ends
  | one set =>
    obtain ⟨c, inside, rfl⟩ := spelled
    exact except_of_not_mem (not_mem_of_beyond ends inside)
  | many set | few set | quotedBody quote | guard condition | ahead pattern => cases ends
  | seq first second ihFirst ihSecond =>
    obtain ⟨front, back, rfl, left, right⟩ := spelled
    rw [endsBeyond, Bool.or_eq_true, Bool.and_eq_true] at ends
    rw [List.reverse_append]
    rcases ends with behind | ⟨middle, stays⟩
    · exact startsIn_append_left (ihSecond behind right) front.reverse
    · by_cases none : back = []
      · rw [none]
        exact ihFirst middle left
      · exact startsIn_reverse_append none (beyond_of_spells stays right) front.reverse
  | alt first second ihFirst ihSecond =>
    rw [endsBeyond, Bool.and_eq_true] at ends
    exact spelled.elim (ihFirst ends.1) (ihSecond ends.2)

/-- Behind a match of such a pattern stands a character that is not in the alphabet. -/
theorem ends_beyond_of_mem_ends {cursor stop : Cursor} (ends : pattern.endsBeyond alphabet = true)
    (found : stop ∈ pattern.ends cursor) : startsIn (.except alphabet) stop.before = true := by
  obtain ⟨taken, spelled, takes⟩ := takes_of_mem_ends found
  rw [takes.before (reach_of_mem_ends found)]
  exact startsIn_append_left (beyond_end_of_spells ends spelled) cursor.before

/-- In a text of the alphabet there is no match of a pattern that needs more. -/
theorem occursIn_eq_false (needs : pattern.needsBeyond alphabet = true) (within : ∀ c ∈ text, c ∈ alphabet) :
    pattern.occursIn text = false := by
  apply Bool.eq_false_iff.2
  intro occurs
  obtain ⟨cursor, stop, inside, -, found⟩ := occursIn_iff.1 occurs
  obtain ⟨taken, spelled, takes⟩ := takes_of_mem_ends found
  obtain ⟨c, member, absent⟩ := exists_of_needsBeyond needs spelled
  apply absent
  apply within
  rw [← inside, takes.after]
  exact List.mem_append_right _ (List.mem_append_left _ member)

end CodeColor.Pattern
