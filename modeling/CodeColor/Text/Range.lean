/-! Classes of characters, given as ascending lists of closed ranges of code points. -/

namespace CodeColor.Text

/-- Closed ranges of code points, in ascending order and apart from each other. -/
abbrev Ranges := List (Nat × Nat)

/-- Whether a range holds the code point; the search ends at the first range beyond it. -/
def Ranges.holds : Ranges → Nat → Bool
  | [], _ => false
  | (first, last) :: ranges, point =>
    if point < first then false
    else if point ≤ last then true
    else Ranges.holds ranges point

theorem Ranges.holds_of_mem {ranges : Ranges} {point : Nat} (found : ranges.holds point = true) :
    ∃ range ∈ ranges, range.1 ≤ point ∧ point ≤ range.2 := by
  induction ranges with
  | nil => simp [Ranges.holds] at found
  | cons range ranges ih =>
    obtain ⟨first, last⟩ := range
    simp only [Ranges.holds] at found
    split at found
    · simp at found
    · split at found
      · next above below => exact ⟨(first, last), by simp, by omega, below⟩
      · obtain ⟨range, member, inside⟩ := ih found
        exact ⟨range, by simp [member], inside⟩

end CodeColor.Text
