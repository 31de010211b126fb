import CodeColor.Pattern.Ends
import CodeColor.Pattern.Search

/-!
What a match does to a cursor: it moves text from behind the cursor to before it, and counts it.

Main statements: `Pattern.reach_of_mem_ends`, and `Pattern.matchLength?_le` and `Pattern.matchLength?_pos`,
which bound the length of a match.
-/

namespace CodeColor

/-- The second cursor lies behind the first, with all the text between them counted. -/
def Cursor.Reach (first second : Cursor) : Prop :=
  ∃ text, first.after = text ++ second.after ∧ second.before = text.reverse ++ first.before ∧
    second.taken = first.taken + text.length

namespace Cursor

theorem Reach.refl (cursor : Cursor) : cursor.Reach cursor :=
  ⟨[], by simp⟩

theorem Reach.trans {first second third : Cursor} (onward : first.Reach second)
    (further : second.Reach third) : first.Reach third := by
  obtain ⟨text, afterText, beforeText, takenText⟩ := onward
  obtain ⟨more, afterMore, beforeMore, takenMore⟩ := further
  refine ⟨text ++ more, ?_, ?_, ?_⟩
  · rw [afterText, afterMore, List.append_assoc]
  · rw [beforeMore, beforeText, List.reverse_append, List.append_assoc]
  · rw [takenMore, takenText, List.length_append, Nat.add_assoc]

theorem reach_one (before : List Char) (c : Char) (after : List Char) (taken : Nat) :
    Reach ⟨before, c :: after, taken⟩ ⟨c :: before, after, taken + 1⟩ :=
  ⟨[c], by simp⟩

theorem reach_of_step? {set : CharSet} {cursor stop : Cursor} (found : cursor.step? set = some stop) :
    cursor.Reach stop := by
  obtain ⟨before, after, taken⟩ := cursor
  cases after with
  | nil => simp [step?] at found
  | cons c after =>
    simp only [step?] at found
    split at found
    · cases found
      exact reach_one ..
    · cases found

theorem reach_of_past? {text : List Char} {cursor stop : Cursor} (found : cursor.past? text = some stop) :
    cursor.Reach stop := by
  induction text generalizing cursor with
  | nil =>
    cases found
    exact Reach.refl _
  | cons c text ih =>
    simp only [past?] at found
    split at found
    · next next stepped => exact (reach_of_step? stepped).trans (ih found)
    · cases found

theorem reach_of_mem_runStops {set : CharSet} {before : List Char} {taken : Nat} {after : List Char}
    {stop : Cursor} (found : stop ∈ runStops set [] before taken after) :
    Reach ⟨before, after, taken⟩ stop := by
  induction after generalizing before taken with
  | nil =>
    simp only [runStops, List.mem_singleton] at found
    exact found ▸ Reach.refl _
  | cons c after ih =>
    simp only [runStops] at found
    split at found
    · rw [runStops_append] at found
      simp only [List.mem_append, List.mem_singleton] at found
      rcases found with found | found
      · exact (reach_one ..).trans (ih found)
      · exact found ▸ Reach.refl _
    · simp only [List.mem_singleton] at found
      exact found ▸ Reach.refl _

theorem reach_of_mem_bodyStops {quote : Char} {start stop : Cursor} {found : List Cursor}
    {before : List Char} {taken : Nat} {after : List Char}
    (here : start.Reach ⟨before, after, taken⟩) (earlier : ∀ place ∈ found, start.Reach place)
    (member : stop ∈ bodyStops quote found before taken after) : start.Reach stop := by
  fun_induction bodyStops quote found before taken after with
  | case1 =>
    rcases List.mem_cons.1 member with rfl | member
    · exact here
    · exact earlier _ member
  | case2 =>
    rcases List.mem_cons.1 member with rfl | member
    · exact here
    · exact earlier _ member
  | case3 =>
    rcases List.mem_cons.1 member with rfl | member
    · exact here.trans (reach_one ..)
    · rcases List.mem_cons.1 member with rfl | member
      · exact here
      · exact earlier _ member
  | case4 =>
    rcases List.mem_cons.1 member with rfl | member
    · exact here
    · exact earlier _ member
  | case5 _ _ _ _ _ _ ih =>
    exact ih (here.trans ((reach_one ..).trans (reach_one ..)))
      (List.forall_mem_cons.2 ⟨here, earlier⟩) member
  | case6 =>
    rcases List.mem_cons.1 member with rfl | member
    · exact here
    · exact earlier _ member
  | case7 _ _ _ _ _ _ _ _ ih =>
    exact ih (here.trans (reach_one ..)) (List.forall_mem_cons.2 ⟨here, earlier⟩) member

end Cursor

namespace Pattern

theorem reach_of_mem_ends {pattern : Pattern} {cursor stop : Cursor} (found : stop ∈ pattern.ends cursor) :
    cursor.Reach stop := by
  induction pattern generalizing cursor stop with
  | literal text => exact Cursor.reach_of_past? (by simpa [ends] using found)
  | one set => exact Cursor.reach_of_step? (by simpa [ends] using found)
  | many set => exact Cursor.reach_of_mem_runStops found
  | few set => exact Cursor.reach_of_mem_runStops (by simpa [ends] using found)
  | quotedBody quote =>
    exact Cursor.reach_of_mem_bodyStops (Cursor.Reach.refl _) (by simp) found
  | guard condition => exact (mem_ends_guard.1 found).2 ▸ Cursor.Reach.refl _
  | ahead pattern => exact (mem_ends_ahead.1 found).2 ▸ Cursor.Reach.refl _
  | seq first second ihFirst ihSecond =>
    simp only [ends, List.mem_flatMap] at found
    obtain ⟨middle, left, right⟩ := found
    exact (ihFirst left).trans (ihSecond right)
  | alt first second ihFirst ihSecond =>
    simp only [ends, List.mem_append] at found
    exact found.elim ihFirst ihSecond

theorem matchLength?_eq (pattern : Pattern) (before after : List Char) :
    pattern.matchLength? before after =
      ((pattern.ends ⟨before, after, 0⟩).find? (·.taken ≠ 0)).map Cursor.taken := by
  rw [matchLength?, run_eq_findSome?]
  congr 1
  induction pattern.ends ⟨before, after, 0⟩ with
  | nil => rfl
  | cons place places ih =>
    by_cases empty : place.taken = 0 <;> simp [empty, ih]

theorem matchLength?_pos {pattern : Pattern} {before after : List Char} {length : Nat}
    (found : pattern.matchLength? before after = some length) : 0 < length := by
  rw [matchLength?_eq] at found
  obtain ⟨stop, first, same⟩ := Option.map_eq_some_iff.1 found
  have taken := List.find?_some first
  simp only [ne_eq, decide_not, Bool.not_eq_eq_eq_not, Bool.not_true, decide_eq_false_iff_not] at taken
  omega

theorem matchLength?_le {pattern : Pattern} {before after : List Char} {length : Nat}
    (found : pattern.matchLength? before after = some length) : length ≤ after.length := by
  rw [matchLength?_eq] at found
  obtain ⟨stop, first, same⟩ := Option.map_eq_some_iff.1 found
  obtain ⟨text, afterText, _, takenText⟩ := reach_of_mem_ends (List.mem_of_find?_eq_some first)
  simp only at afterText takenText
  rw [afterText, List.length_append]
  omega

end Pattern

end CodeColor
