import CodeColor.Pattern.Basic

/-!
The places where a match can end, in the order of preference.

Main statement: `Pattern.run_eq_findSome?`. Running a pattern takes the first of these places from which
the rest succeeds.
-/

namespace CodeColor

namespace Cursor

theorem runStops_append (set : CharSet) (found : List Cursor) (before : List Char) (taken : Nat)
    (after : List Char) :
    runStops set found before taken after = runStops set [] before taken after ++ found := by
  induction after generalizing found before taken with
  | nil => rfl
  | cons c after ih =>
    simp only [runStops]
    split
    · rw [ih, ih [⟨before, c :: after, taken⟩]]
      simp
    · rfl

theorem firstInRun?_eq (set : CharSet) (next : Cursor → Option Cursor) (before : List Char)
    (taken : Nat) (after : List Char) :
    firstInRun? set next before taken after =
      (runStops set [] before taken after).reverse.findSome? next := by
  induction after generalizing before taken with
  | nil => simp [firstInRun?, runStops]
  | cons c after ih =>
    simp only [firstInRun?, runStops]
    cases inside : set c with
    | false => cases found : next ⟨before, c :: after, taken⟩ <;> simp [found]
    | true =>
      simp only [↓reduceIte, ih]
      rw [runStops_append set [_], List.reverse_append, List.findSome?_append]
      cases found : next ⟨before, c :: after, taken⟩ <;> simp [found]

end Cursor

namespace Pattern

/-- The places where a match from the cursor can end, the preferred first. -/
def ends : Pattern → Cursor → List Cursor
  | literal text, cursor => (cursor.past? text).toList
  | one set, cursor => (cursor.step? set).toList
  | many set, cursor => Cursor.runStops set [] cursor.before cursor.taken cursor.after
  | few set, cursor => (Cursor.runStops set [] cursor.before cursor.taken cursor.after).reverse
  | quotedBody quote, cursor =>
    Cursor.bodyStops quote [] cursor.before cursor.taken cursor.after
  | guard condition, cursor => if condition.holds cursor then [cursor] else []
  | ahead pattern, cursor => if (pattern.ends cursor).isEmpty then [] else [cursor]
  | seq first second, cursor => (first.ends cursor).flatMap second.ends
  | alt first second, cursor => first.ends cursor ++ second.ends cursor

theorem mem_ends_guard {condition : Guard} {cursor stop : Cursor} :
    stop ∈ (guard condition).ends cursor ↔ condition.holds cursor = true ∧ stop = cursor := by
  rw [ends]
  split
  next holds => rw [List.mem_singleton, and_iff_right holds]
  next fails => exact iff_of_false List.not_mem_nil fun found => fails found.1

theorem mem_ends_ahead {pattern : Pattern} {cursor stop : Cursor} :
    stop ∈ (ahead pattern).ends cursor ↔ pattern.ends cursor ≠ [] ∧ stop = cursor := by
  rw [ends]
  cases pattern.ends cursor with
  | nil => simp
  | cons place places => simp

theorem findSome?_flatMap (places : List Cursor) (onward : Cursor → List Cursor)
    (next : Cursor → Option Cursor) :
    (places.flatMap onward).findSome? next =
      places.findSome? (fun place => (onward place).findSome? next) := by
  induction places with
  | nil => rfl
  | cons place places ih =>
    simp only [List.flatMap_cons, List.findSome?_append, List.findSome?_cons, ih]
    cases (onward place).findSome? next <;> rfl

theorem run_eq_findSome? (pattern : Pattern) (next : Cursor → Option Cursor) (cursor : Cursor) :
    pattern.run next cursor = (pattern.ends cursor).findSome? next := by
  induction pattern generalizing next cursor with
  | literal text =>
    simp only [run, ends]
    cases cursor.past? text <;> simp
  | one set =>
    simp only [run, ends]
    cases cursor.step? set <;> simp
  | many set => rfl
  | few set => exact Cursor.firstInRun?_eq ..
  | quotedBody quote => rfl
  | guard condition =>
    simp only [run, ends]
    split <;> simp
  | ahead pattern ih =>
    simp only [run, ends, ih]
    cases pattern.ends cursor <;> simp
  | seq first second ihFirst ihSecond =>
    simp only [run, ends, ihFirst, ihSecond, findSome?_flatMap]
  | alt first second ihFirst ihSecond =>
    simp only [run, ends, ihFirst, ihSecond, List.findSome?_append]
    cases (first.ends cursor).findSome? next <;> rfl

end Pattern

end CodeColor
