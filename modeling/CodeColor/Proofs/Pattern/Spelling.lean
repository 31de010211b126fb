import CodeColor.Proofs.Pattern.Quoted

/-!
The texts that a pattern can take, whatever stands around them.

Main statements: `takes_of_mem_ends` and `spells_of_matchLength?`.
-/

namespace CodeColor

/-- The second cursor lies behind the first and the text, which is counted. -/
structure Cursor.Takes (text : List Char) (first second : Cursor) : Prop where
  after : first.after = text ++ second.after
  taken : second.taken = first.taken + text.length

namespace Cursor

theorem Takes.refl (cursor : Cursor) : cursor.Takes [] cursor :=
  ⟨rfl, rfl⟩

theorem Takes.trans {first second third : Cursor} {text more : List Char} (onward : Takes text first second)
    (further : Takes more second third) : Takes (text ++ more) first third := by
  constructor
  · rw [onward.after, further.after, List.append_assoc]
  · rw [further.taken, onward.taken, List.length_append, Nat.add_assoc]

theorem takes_one (before : List Char) (c : Char) (after : List Char) (taken : Nat) :
    Takes [c] ⟨before, c :: after, taken⟩ ⟨c :: before, after, taken + 1⟩ :=
  ⟨rfl, rfl⟩

theorem takes_of_step? {set : CharSet} {cursor stop : Cursor} (found : cursor.step? set = some stop) :
    ∃ c, set c = true ∧ Takes [c] cursor stop := by
  obtain ⟨before, after, taken⟩ := cursor
  cases after with
  | nil => cases found
  | cons c after =>
    rw [step?] at found
    dsimp only at found
    split at found
    next inside =>
      cases found
      exact ⟨c, inside, takes_one before c after taken⟩
    next => cases found

theorem takes_of_past? {text : List Char} {cursor stop : Cursor} (found : cursor.past? text = some stop) :
    Takes text cursor stop := by
  obtain ⟨before, after, taken⟩ := cursor
  obtain ⟨rest, rfl⟩ := prefix_of_past? found
  rw [past?_append] at found
  cases found
  exact ⟨rfl, rfl⟩

theorem takes_of_mem_runStops {set : CharSet} {before : List Char} {taken : Nat} {after : List Char}
    {stop : Cursor} (found : stop ∈ runStops set [] before taken after) :
    ∃ text, (∀ c ∈ text, set c = true) ∧ Takes text ⟨before, after, taken⟩ stop := by
  induction after generalizing before taken with
  | nil =>
    rw [runStops, List.mem_singleton] at found
    exact ⟨[], by simp, found ▸ Takes.refl _⟩
  | cons c after ih =>
    rw [runStops] at found
    split at found
    next inside =>
      rw [runStops_append, List.mem_append, List.mem_singleton] at found
      obtain further | here := found
      · obtain ⟨text, others, takes⟩ := ih further
        exact ⟨c :: text, List.forall_mem_cons.2 ⟨inside, others⟩, (takes_one before c after taken).trans takes⟩
      · exact ⟨[], by simp, here ▸ Takes.refl _⟩
    next =>
      rw [List.mem_singleton] at found
      exact ⟨[], by simp, found ▸ Takes.refl _⟩

theorem takes_of_mem_bodyStops {quote : Char} {found : List Cursor} {before : List Char} {taken : Nat}
    {after : List Char} {stop : Cursor} (member : stop ∈ bodyStops quote found before taken after) :
    stop ∈ found ∨ ∃ text, Body quote text ∧ Takes text ⟨before, after, taken⟩ stop := by
  have here : ∀ cursor : Cursor, ∃ text, Body quote text ∧ Takes text cursor cursor :=
    fun cursor => ⟨[], .nil, Takes.refl cursor⟩
  fun_induction bodyStops quote found before taken after with
  | case1 | case2 | case4 | case6 =>
    obtain rfl | earlier := List.mem_cons.1 member
    · exact .inr (here _)
    · exact .inl earlier
  | case3 found before taken c plain =>
    rw [not_or] at plain
    obtain rfl | earlier := List.mem_cons.1 member
    · exact .inr ⟨[c], .plain plain .nil, takes_one before c [] taken⟩
    · obtain rfl | earlier := List.mem_cons.1 earlier
      · exact .inr (here _)
      · exact .inl earlier
  | case5 found before taken d after other_line ih =>
    obtain further | ⟨text, body, takes⟩ := ih member
    · obtain rfl | earlier := List.mem_cons.1 further
      · exact .inr (here _)
      · exact .inl earlier
    · have pair : Takes ['\\', d] ⟨before, '\\' :: d :: after, taken⟩ ⟨d :: '\\' :: before, after, taken + 2⟩ :=
        ⟨rfl, rfl⟩
      exact .inr ⟨'\\' :: d :: text, .escape other_line body, pair.trans takes⟩
  | case7 found before taken c d after no_escape no_quote ih =>
    obtain further | ⟨text, body, takes⟩ := ih member
    · obtain rfl | earlier := List.mem_cons.1 further
      · exact .inr (here _)
      · exact .inl earlier
    · exact .inr ⟨c :: text, .plain ⟨no_quote, no_escape⟩ body, (takes_one before c _ taken).trans takes⟩

end Cursor

namespace Pattern

/-- The pattern can take the text: where guards and what has to lie ahead allow it. -/
def Spells : Pattern → List Char → Prop
  | literal text, taken => taken = text
  | one set, taken => ∃ c, set c = true ∧ taken = [c]
  | many set, taken => ∀ c ∈ taken, set c = true
  | few set, taken => ∀ c ∈ taken, set c = true
  | quotedBody quote, taken => Body quote taken
  | guard _, taken => taken = []
  | ahead _, taken => taken = []
  | seq first second, taken =>
    ∃ front back, taken = front ++ back ∧ first.Spells front ∧ second.Spells back
  | alt first second, taken => first.Spells taken ∨ second.Spells taken

theorem takes_of_mem_ends {pattern : Pattern} {cursor stop : Cursor} (found : stop ∈ pattern.ends cursor) :
    ∃ text, pattern.Spells text ∧ cursor.Takes text stop := by
  induction pattern generalizing cursor stop with
  | literal text =>
    rw [ends, Option.mem_toList] at found
    exact ⟨text, rfl, Cursor.takes_of_past? found⟩
  | one set =>
    rw [ends, Option.mem_toList] at found
    obtain ⟨c, inside, takes⟩ := Cursor.takes_of_step? found
    exact ⟨[c], ⟨c, inside, rfl⟩, takes⟩
  | many set => exact Cursor.takes_of_mem_runStops found
  | few set =>
    rw [ends, List.mem_reverse] at found
    exact Cursor.takes_of_mem_runStops found
  | quotedBody quote =>
    obtain earlier | behind := Cursor.takes_of_mem_bodyStops found
    · cases earlier
    · exact behind
  | guard condition => exact ⟨[], rfl, (mem_ends_guard.1 found).2 ▸ Cursor.Takes.refl _⟩
  | ahead pattern => exact ⟨[], rfl, (mem_ends_ahead.1 found).2 ▸ Cursor.Takes.refl _⟩
  | seq first second ihFirst ihSecond =>
    rw [ends, List.mem_flatMap] at found
    obtain ⟨middle, left, right⟩ := found
    obtain ⟨front, spelled, takes⟩ := ihFirst left
    obtain ⟨back, further, onward⟩ := ihSecond right
    exact ⟨front ++ back, ⟨front, back, rfl, spelled, further⟩, takes.trans onward⟩
  | alt first second ihFirst ihSecond =>
    rw [ends, List.mem_append] at found
    obtain left | right := found
    · obtain ⟨text, spelled, takes⟩ := ihFirst left
      exact ⟨text, .inl spelled, takes⟩
    · obtain ⟨text, spelled, takes⟩ := ihSecond right
      exact ⟨text, .inr spelled, takes⟩

/-- What a match takes is spelled by the pattern. -/
theorem spells_of_matchLength? {pattern : Pattern} {before after : List Char} {length : Nat}
    (found : pattern.matchLength? before after = some length) : pattern.Spells (after.take length) := by
  rw [matchLength?_eq] at found
  obtain ⟨stop, first, same⟩ := Option.map_eq_some_iff.1 found
  obtain ⟨text, spelled, takes⟩ := takes_of_mem_ends (List.mem_of_find?_eq_some first)
  have whole : after = text ++ stop.after := takes.after
  have size : stop.taken = text.length := takes.taken.trans (Nat.zero_add _)
  rwa [whole, ← same, size, List.take_left]

end Pattern

end CodeColor
