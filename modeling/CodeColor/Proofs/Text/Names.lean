import Mathlib.Data.List.Induction
import Mathlib.Data.List.Nodup

/-!
Lists in which nothing is repeated, and names in code point order.

Main statements: `nodup_eraseDups` and `ascending_mergeSort`.
-/

namespace CodeColor

theorem eraseDups_concat {Item : Type} [DecidableEq Item] (items : List Item) (item : Item) :
    (items ++ [item]).eraseDups = if item ∈ items then items.eraseDups else items.eraseDups ++ [item] := by
  rw [List.eraseDups_append]
  split
  next known =>
    have none : [item].removeAll items = [] := by simp [List.removeAll, known]
    rw [none, List.eraseDups_nil, List.append_nil]
  next fresh =>
    have one : [item].removeAll items = [item] := by simp [List.removeAll, fresh]
    have alone : [item].eraseDups = [item] := rfl
    rw [one, alone]

theorem nodup_eraseDups {Item : Type} [DecidableEq Item] (items : List Item) : items.eraseDups.Nodup := by
  induction items using List.reverseRecOn with
  | nil => exact List.nodup_nil
  | append_singleton items item ih =>
    rw [eraseDups_concat]
    split
    next => exact ih
    next fresh =>
      rw [List.nodup_append]
      refine ⟨ih, List.nodup_singleton item, ?_⟩
      intro other member last same
      rw [List.mem_singleton.1 same]
      rintro rfl
      exact fresh (List.mem_eraseDups.1 member)

/-- Sorting names of which none is repeated puts each before greater ones only. -/
theorem ascending_mergeSort {names : List String} (distinct : names.Nodup) :
    (names.mergeSort (· ≤ ·)).Pairwise (· < ·) := by
  have sorted : (names.mergeSort (· ≤ ·)).Pairwise fun first second => decide (first ≤ second) = true := by
    apply List.pairwise_mergeSort
    · intro first second third lower upper
      exact decide_eq_true (String.le_trans (of_decide_eq_true lower) (of_decide_eq_true upper))
    · intro first second
      rw [Bool.or_eq_true, decide_eq_true_eq, decide_eq_true_eq]
      exact String.le_total first second
  have distinct' : (names.mergeSort (· ≤ ·)).Nodup := (List.mergeSort_perm names _).nodup_iff.2 distinct
  apply sorted.imp₂ _ distinct'
  intro first second ordered other
  exact Std.lt_of_le_of_ne (of_decide_eq_true ordered) other

end CodeColor
