import CodeColor.Pattern.Reach
import Mathlib.Data.List.TakeWhile

/-!
What the parts of a pattern do when it runs: which text they take, and when they cannot go on.

Main statements: `run_literal`, `run_many_until`, `run_many_greedy` and `matchLength?_or`, and the rules for
`OpensAt`.
-/

namespace CodeColor

theorem startsIn_dropWhile (set : CharSet) (text : List Char) :
    startsIn set (text.dropWhile set) = false := by
  induction text with
  | nil => rfl
  | cons c text ih =>
    rw [List.dropWhile_cons]
    split
    · exact ih
    · next out => exact Bool.eq_false_iff.2 out

theorem startsIn_mono {small large : CharSet} (inside : ∀ c, small c = true → large c = true) {text : List Char}
    (starts : startsIn small text = true) : startsIn large text = true := by
  cases text with
  | nil => cases starts
  | cons c text => exact inside c starts

theorem startsIn_anti {small large : CharSet} (inside : ∀ c, small c = true → large c = true) {text : List Char}
    (other : startsIn large text = false) : startsIn small text = false := by
  apply Bool.eq_false_iff.2
  intro starts
  exact Bool.false_ne_true (other.symm.trans (startsIn_mono inside starts))

namespace Cursor

theorem past?_append (text before after : List Char) (taken : Nat) :
    past? text ⟨before, text ++ after, taken⟩ =
      some ⟨text.reverse ++ before, after, taken + text.length⟩ := by
  induction text generalizing before taken with
  | nil => rfl
  | cons c text ih =>
    simp only [past?, step?, List.cons_append, beq_self_eq_true, ↓reduceIte]
    rw [ih, List.reverse_cons, List.append_assoc, List.length_cons, Nat.add_assoc, Nat.add_comm 1]
    rfl

theorem prefix_of_past? {text : List Char} {cursor stop : Cursor}
    (found : past? text cursor = some stop) : text <+: cursor.after := by
  induction text generalizing cursor with
  | nil => exact List.nil_prefix
  | cons c text ih =>
    obtain ⟨before, after, taken⟩ := cursor
    cases after with
    | nil => simp [past?, step?] at found
    | cons d after =>
      simp only [past?, step?] at found
      split at found
      next next stepped =>
        split at stepped
        next same =>
          cases stepped
          obtain rfl := beq_iff_eq.1 same
          exact List.cons_prefix_cons.2 ⟨rfl, ih found⟩
        next => cases stepped
      next => cases found

theorem runStops_run {set : CharSet} {run rest : List Char} (inside : ∀ c ∈ run, set c = true)
    (stops : startsIn set rest = false) (before : List Char) (taken : Nat) :
    ∃ nearer, runStops set [] before taken (run ++ rest) =
        ⟨run.reverse ++ before, rest, taken + run.length⟩ :: nearer ∧
      ∀ place ∈ nearer, startsIn set place.after = true := by
  induction run generalizing before taken with
  | nil =>
    refine ⟨[], ?_, by simp⟩
    cases rest with
    | nil => rfl
    | cons c rest =>
      have out : set c = false := stops
      simp [runStops, out]
  | cons c run ih =>
    have first := inside c List.mem_cons_self
    obtain ⟨nearer, places, ahead⟩ :=
      ih (fun d member => inside d (List.mem_cons_of_mem c member)) (c :: before) (taken + 1)
    refine ⟨nearer ++ [⟨before, c :: (run ++ rest), taken⟩], ?_, ?_⟩
    · simp only [List.cons_append, runStops, first, ↓reduceIte]
      rw [runStops_append, places, List.reverse_cons, List.append_assoc, List.length_cons,
        Nat.add_assoc taken, Nat.add_comm 1]
      rfl
    · intro place member
      rcases List.mem_append.1 member with earlier | last
      · exact ahead place earlier
      · rw [List.mem_singleton.1 last]
        exact first

end Cursor

namespace Pattern

section

variable {next : Cursor → Option Cursor}

theorem run_append (first second : Pattern) (cursor : Cursor) :
    (first ++ second).run next cursor = first.run (fun stop => second.run next stop) cursor := rfl

theorem run_or (first second : Pattern) (cursor : Cursor) :
    (first ||| second).run next cursor = (first.run next cursor).or (second.run next cursor) := by
  change run (alt first second) next cursor = _
  rw [run]
  cases first.run next cursor <;> rfl

theorem run_literal (text before after : List Char) (taken : Nat) :
    (literal text).run next ⟨before, text ++ after, taken⟩ =
      next ⟨text.reverse ++ before, after, taken + text.length⟩ := by
  simp only [run, Cursor.past?_append]

theorem run_literal_absent {text : List Char} {cursor : Cursor} (absent : ¬ text <+: cursor.after) :
    (literal text).run next cursor = none := by
  have missing : cursor.past? text = none :=
    Option.eq_none_iff_forall_ne_some.2 fun _ found => absent (Cursor.prefix_of_past? found)
  simp only [run, missing]

theorem run_literal_outside {set : CharSet} {c : Char} {text : List Char} {cursor : Cursor}
    (outside : set c = false) (inside : startsIn set cursor.after = true) :
    (literal (c :: text)).run next cursor = none := by
  refine run_literal_absent fun found => ?_
  obtain ⟨rest, split⟩ := found
  rw [← split] at inside
  exact Bool.false_ne_true (outside.symm.trans inside)

theorem run_optional (first second : Pattern) (cursor : Cursor) :
    (optional first ++ second).run next cursor =
      (first.run (fun stop => second.run next stop) cursor).or (second.run next cursor) :=
  run_or first nothing cursor

theorem run_one {set : CharSet} {c : Char} (inside : set c = true) (before after : List Char)
    (taken : Nat) : (one set).run next ⟨before, c :: after, taken⟩ = next ⟨c :: before, after, taken + 1⟩ := by
  simp [run, Cursor.step?, inside]

theorem run_one_absent {set : CharSet} {cursor : Cursor} (absent : startsIn set cursor.after = false) :
    (one set).run next cursor = none := by
  obtain ⟨before, after, taken⟩ := cursor
  cases after with
  | nil => rfl
  | cons c after =>
    have out : set c = false := absent
    simp [run, Cursor.step?, out]

theorem run_guard {condition : Guard} {cursor : Cursor} (holds : condition.holds cursor = true) :
    (guard condition).run next cursor = next cursor := by
  simp [run, holds]

theorem run_guard_absent {condition : Guard} {cursor : Cursor} (fails : condition.holds cursor = false) :
    (guard condition).run next cursor = none := by
  simp [run, fails]

section

variable {set : CharSet} {run rest : List Char} (inside : ∀ c ∈ run, set c = true)
  (stops : startsIn set rest = false) (before : List Char) (taken : Nat)
include inside stops

/-- A run is taken whole where the rest of the pattern cannot start within it. -/
theorem run_many_until (waits : ∀ stop : Cursor, startsIn set stop.after = true → next stop = none) :
    (many set).run next ⟨before, run ++ rest, taken⟩ =
      next ⟨run.reverse ++ before, rest, taken + run.length⟩ := by
  obtain ⟨nearer, places, ahead⟩ := Cursor.runStops_run inside stops before taken
  simp only [Pattern.run, places, List.findSome?_cons]
  have others : nearer.findSome? next = none :=
    List.findSome?_eq_none_iff.2 fun place member => waits place (ahead place member)
  cases next ⟨run.reverse ++ before, rest, taken + run.length⟩ with
  | some stop => rfl
  | none => exact others

/-- A run is taken whole where the rest of the pattern matches behind it. -/
theorem run_many_greedy {stop : Cursor}
    (found : next ⟨run.reverse ++ before, rest, taken + run.length⟩ = some stop) :
    (many set).run next ⟨before, run ++ rest, taken⟩ = some stop := by
  obtain ⟨nearer, places, -⟩ := Cursor.runStops_run inside stops before taken
  simp only [Pattern.run, places, List.findSome?_cons, found]

end

end

/-! ## Matches -/

/-- The end of a match, which has to take some text. -/
def accept (stop : Cursor) : Option Cursor :=
  if stop.taken = 0 then none else some stop

theorem accept_eq_some {stop : Cursor} (some_text : stop.taken ≠ 0) : accept stop = some stop :=
  if_neg some_text

theorem matchLength?_eq_run (pattern : Pattern) (before after : List Char) :
    pattern.matchLength? before after = (pattern.run accept ⟨before, after, 0⟩).map Cursor.taken := rfl

theorem run_many_dropWhile {next : Cursor → Option Cursor} {set : CharSet}
    (waits : ∀ stop : Cursor, startsIn set stop.after = true → next stop = none)
    (before text : List Char) (taken : Nat) :
    (many set).run next ⟨before, text, taken⟩ =
      next ⟨(text.takeWhile set).reverse ++ before, text.dropWhile set, taken + (text.takeWhile set).length⟩ := by
  have inside : ∀ c ∈ text.takeWhile set, set c = true := fun _ member => List.mem_takeWhile_imp member
  have whole := run_many_until inside (startsIn_dropWhile set text) before taken waits
  rwa [List.takeWhile_append_dropWhile] at whole

theorem matchLength?_or (first second : Pattern) (before after : List Char) :
    (first ||| second).matchLength? before after =
      (first.matchLength? before after).or (second.matchLength? before after) := by
  simp only [matchLength?_eq_run, run_or]
  cases first.run accept ⟨before, after, 0⟩ <;> rfl

/-! ## Where a match may start -/

/-- A match can only start at a character of the set. -/
def OpensAt (pattern : Pattern) (set : CharSet) : Prop :=
  ∀ (next : Cursor → Option Cursor) (cursor : Cursor), startsIn set cursor.after = false →
    pattern.run next cursor = none

namespace OpensAt

variable {first second : Pattern} {set : CharSet}

theorem matchLength?_eq_none (opens : first.OpensAt set) (before : List Char) {after : List Char}
    (other : startsIn set after = false) : first.matchLength? before after = none := by
  rw [matchLength?, opens _ _ other]
  rfl

theorem literal {c : Char} (inside : set c = true) (text : List Char) :
    (Pattern.literal (c :: text)).OpensAt set := by
  intro next cursor other
  refine run_literal_absent fun found => ?_
  obtain ⟨rest, split⟩ := found
  rw [← split] at other
  exact Bool.false_ne_true (other.symm.trans inside)

theorem one : (Pattern.one set).OpensAt set :=
  fun _ _ other => run_one_absent other

theorem mono {larger : CharSet} (opens : first.OpensAt set) (inside : ∀ c, set c = true → larger c = true) :
    first.OpensAt larger := by
  intro next cursor other
  exact opens next cursor (startsIn_anti inside other)

theorem append (opens : first.OpensAt set) (second : Pattern) : (first ++ second).OpensAt set :=
  fun _ _ other => (run_append first second _).trans (opens _ _ other)

theorem or (left : first.OpensAt set) (right : second.OpensAt set) : (first ||| second).OpensAt set := by
  intro next cursor other
  rw [run_or, left next cursor other, right next cursor other]
  rfl

theorem guard (condition : Guard) (opens : first.OpensAt set) :
    (Pattern.guard condition ++ first).OpensAt set := by
  intro next cursor other
  rw [run_append]
  cases holds : condition.holds cursor with
  | true => rw [run_guard holds, opens next cursor other]
  | false => exact run_guard_absent holds

theorem optional (left : first.OpensAt set) (right : second.OpensAt set) :
    (Pattern.optional first ++ second).OpensAt set := by
  intro next cursor other
  rw [run_optional, left _ cursor other, right next cursor other]
  rfl

end OpensAt

end Pattern

end CodeColor
