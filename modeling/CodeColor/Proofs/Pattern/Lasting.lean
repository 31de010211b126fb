import CodeColor.Proofs.Pattern.Spelling

/-!
Matches in a part of a text that are matches in the whole text as well. What a pattern takes stays the same; only its
guards look at what stands around the part.

Main statements: the rules for `Lasts`, and `Lasts.occursIn`.
-/

namespace CodeColor

namespace Cursor

/-- A place of a part, as a place of the whole text. -/
def within (front back : List Char) (cursor : Cursor) : Cursor :=
  ⟨cursor.before ++ front.reverse, cursor.after ++ back, cursor.taken⟩

/-- The cursor is at a place of the text. -/
def In (text : List Char) (cursor : Cursor) : Prop :=
  cursor.before.reverse ++ cursor.after = text

theorem In.within {part : List Char} {cursor : Cursor} (inside : cursor.In part) (front back : List Char) :
    (cursor.within front back).In (front ++ part ++ back) := by
  rw [← inside]
  simp only [In, Cursor.within, List.reverse_append, List.reverse_reverse, List.append_assoc]

theorem Reach.in_text {text : List Char} {cursor stop : Cursor} (reach : cursor.Reach stop)
    (inside : cursor.In text) : stop.In text := by
  obtain ⟨taken, after, before, -⟩ := reach
  unfold In at inside ⊢
  rw [← inside, after, before, List.reverse_append, List.reverse_reverse, List.append_assoc]

theorem Takes.before {text : List Char} {cursor stop : Cursor} (takes : cursor.Takes text stop)
    (reach : cursor.Reach stop) : stop.before = text.reverse ++ cursor.before := by
  obtain ⟨other, after, before, -⟩ := reach
  have same : other = text := List.append_cancel_right (after.symm.trans takes.after)
  rw [before, same]

variable {front back : List Char}

theorem within_past? {text : List Char} {cursor stop : Cursor} (found : cursor.past? text = some stop) :
    (cursor.within front back).past? text = some (stop.within front back) := by
  obtain ⟨before, after, taken⟩ := cursor
  obtain ⟨rest, rfl⟩ := prefix_of_past? found
  rw [past?_append] at found
  cases found
  simp only [within, List.append_assoc]
  exact past?_append ..

theorem within_step? {set : CharSet} {cursor stop : Cursor} (found : cursor.step? set = some stop) :
    (cursor.within front back).step? set = some (stop.within front back) := by
  obtain ⟨before, after, taken⟩ := cursor
  cases after with
  | nil => cases found
  | cons c after =>
    simp only [step?, within, List.cons_append] at found ⊢
    split at found
    next inside =>
      cases found
      rw [if_pos inside]
      rfl
    next => cases found

theorem here_mem_runStops (set : CharSet) (before after : List Char) (taken : Nat) :
    ⟨before, after, taken⟩ ∈ runStops set [] before taken after := by
  cases after with
  | nil => exact List.mem_singleton_self _
  | cons c after =>
    rw [runStops]
    split
    · rw [runStops_append]
      exact List.mem_append_right _ (List.mem_singleton_self _)
    · exact List.mem_singleton_self _

theorem within_mem_runStops {set : CharSet} {before after : List Char} {taken : Nat} {stop : Cursor}
    (found : stop ∈ runStops set [] before taken after) :
    stop.within front back ∈ runStops set [] (before ++ front.reverse) taken (after ++ back) := by
  induction after generalizing before taken with
  | nil =>
    rw [runStops, List.mem_singleton] at found
    rw [found]
    exact here_mem_runStops ..
  | cons c after ih =>
    rw [runStops] at found
    split at found
    next inside =>
      rw [runStops_append, List.mem_append, List.mem_singleton] at found
      rw [List.cons_append, runStops, if_pos inside, runStops_append, List.mem_append, List.mem_singleton]
      rcases found with further | here
      · exact .inl (ih further)
      · exact .inr (congrArg (within front back) here)
    next =>
      rw [List.mem_singleton] at found
      rw [found]
      exact here_mem_runStops ..

end Cursor

namespace Pattern

/-! ## Patterns -/

/-- Whatever the pattern matches in the part, it matches in the whole text. -/
def Lasts (pattern : Pattern) (front part back : List Char) : Prop :=
  ∀ cursor stop : Cursor, cursor.In part → stop ∈ pattern.ends cursor →
    stop.within front back ∈ pattern.ends (cursor.within front back)

namespace Lasts

variable {first second : Pattern} {front part back : List Char}

theorem literal (text : List Char) : (Pattern.literal text).Lasts front part back := by
  intro cursor stop _ found
  rw [ends, Option.mem_toList] at found ⊢
  exact Cursor.within_past? found

theorem one (set : CharSet) : (Pattern.one set).Lasts front part back := by
  intro cursor stop _ found
  rw [ends, Option.mem_toList] at found ⊢
  exact Cursor.within_step? found

theorem many (set : CharSet) : (Pattern.many set).Lasts front part back :=
  fun _ _ _ found => Cursor.within_mem_runStops found

theorem few (set : CharSet) : (Pattern.few set).Lasts front part back := by
  intro cursor stop _ found
  rw [ends, List.mem_reverse] at found ⊢
  exact Cursor.within_mem_runStops found

theorem guard {condition : Guard}
    (lasts : ∀ cursor : Cursor, cursor.In part → condition.holds cursor = true →
      condition.holds (cursor.within front back) = true) :
    (Pattern.guard condition).Lasts front part back := by
  intro cursor stop inside found
  obtain ⟨holds, rfl⟩ := mem_ends_guard.1 found
  exact mem_ends_guard.2 ⟨lasts stop inside holds, rfl⟩

theorem seq (left : first.Lasts front part back) (right : second.Lasts front part back) :
    (Pattern.seq first second).Lasts front part back := by
  intro cursor stop inside found
  rw [ends, List.mem_flatMap] at found ⊢
  obtain ⟨middle, before, behind⟩ := found
  have between := (reach_of_mem_ends before).in_text inside
  exact ⟨middle.within front back, left cursor middle inside before, right middle stop between behind⟩

theorem guarded {condition : Guard} (left : first.Lasts front part back)
    (lasts : ∀ cursor stop : Cursor, stop.In part → stop ∈ first.ends cursor → condition.holds stop = true →
      condition.holds (stop.within front back) = true) :
    (Pattern.seq first (Pattern.guard condition)).Lasts front part back := by
  intro cursor stop inside found
  rw [ends, List.mem_flatMap] at found ⊢
  obtain ⟨middle, before, behind⟩ := found
  obtain ⟨holds, rfl⟩ := mem_ends_guard.1 behind
  have between := (reach_of_mem_ends before).in_text inside
  have lasting := lasts cursor stop between before holds
  exact ⟨stop.within front back, left cursor stop inside before, mem_ends_guard.2 ⟨lasting, rfl⟩⟩

theorem alt (left : first.Lasts front part back) (right : second.Lasts front part back) :
    (Pattern.alt first second).Lasts front part back := by
  intro cursor stop inside found
  rw [ends, List.mem_append] at found ⊢
  exact found.imp (left cursor stop inside) (right cursor stop inside)

end Lasts

/-! ## Occurrences -/

theorem isSome_run {pattern : Pattern} {cursor : Cursor} :
    (pattern.run some cursor).isSome = true ↔ ∃ stop, stop ∈ pattern.ends cursor := by
  rw [run_eq_findSome?, List.findSome?_isSome_iff]
  exact exists_congr fun stop => and_iff_left rfl

theorem occursFrom_iff {pattern : Pattern} {before after : List Char} :
    pattern.occursFrom before after = true ↔
      ∃ passed rest, after = passed ++ rest ∧ ∃ stop, stop ∈ pattern.ends ⟨passed.reverse ++ before, rest, 0⟩ := by
  induction after generalizing before with
  | nil =>
    rw [occursFrom, isSome_run]
    constructor
    · intro found
      exact ⟨[], [], rfl, found⟩
    · intro ⟨passed, rest, split, found⟩
      obtain ⟨rfl, rfl⟩ := List.append_eq_nil_iff.1 split.symm
      exact found
  | cons c after ih =>
    rw [occursFrom, Bool.or_eq_true, isSome_run, ih]
    constructor
    · intro occurs
      rcases occurs with found | ⟨passed, rest, rfl, found⟩
      · exact ⟨[], c :: after, rfl, found⟩
      · refine ⟨c :: passed, rest, rfl, ?_⟩
        rw [List.reverse_cons, List.append_assoc]
        exact found
    · intro ⟨passed, rest, split, found⟩
      rcases List.cons_eq_append_iff.1 split with ⟨rfl, rfl⟩ | ⟨further, rfl, rfl⟩
      · exact .inl found
      · rw [List.reverse_cons, List.append_assoc] at found
        exact .inr ⟨further, rest, rfl, found⟩

theorem occursIn_iff {pattern : Pattern} {text : List Char} :
    pattern.occursIn text = true ↔
      ∃ cursor stop : Cursor, cursor.In text ∧ cursor.taken = 0 ∧ stop ∈ pattern.ends cursor := by
  rw [occursIn, occursFrom_iff]
  constructor
  · intro ⟨passed, rest, split, stop, found⟩
    rw [List.append_nil] at found
    refine ⟨⟨passed.reverse, rest, 0⟩, stop, ?_, rfl, found⟩
    rw [split, Cursor.In, List.reverse_reverse]
  · intro ⟨⟨before, after, taken⟩, stop, inside, start, found⟩
    refine ⟨before.reverse, after, inside.symm, stop, ?_⟩
    rw [List.reverse_reverse, List.append_nil]
    exact start ▸ found

theorem Lasts.occursIn {pattern : Pattern} {front part back : List Char}
    (lasts : pattern.Lasts front part back) (occurs : pattern.occursIn part = true) :
    pattern.occursIn (front ++ part ++ back) = true := by
  obtain ⟨cursor, stop, inside, start, found⟩ := occursIn_iff.1 occurs
  exact occursIn_iff.2
    ⟨cursor.within front back, stop.within front back, inside.within front back, start,
      lasts cursor stop inside found⟩

end Pattern

end CodeColor
