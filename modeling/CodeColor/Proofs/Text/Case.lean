import CodeColor.Text.Blank
import CodeColor.Text.Case
import Mathlib.Data.List.DropRight

/-!
Text in lower case and without white space at its ends. Neither is changed by lowering and trimming it again,
and lowering keeps what is white space and what is not.

Main statements: `lower_eq_self`, `trim_lower_again` and `trim_lower_eq_nil`.
-/

namespace CodeColor.Text

/-! ## Letters -/

def CaseRun.lastImage (run : CaseRun) : Nat := run.image + (run.last - run.first)

/-- None of the run's lower case letters is among the letters of the ascending runs: it lies between two of
these, or between two letters of one. -/
def CaseRun.clears (run : CaseRun) : List CaseRun → Bool
  | [] => true
  | target :: targets =>
    if run.lastImage < target.first then true
    else
      (target.last < run.image ||
        (run.stride = 2 || run.last = run.first) && target.stride = 2 &&
          run.image % 2 ≠ target.first % 2) &&
        clears run targets

theorem caseRuns_clear : ∀ run ∈ caseRuns, run.clears caseRuns = true := by
  decide +kernel

/-- The lower case letters of the run are characters, and neither white space nor the dotted capital I. -/
structure CaseRun.Plain (run : CaseRun) : Prop where
  valid : run.lastImage < 0xD800 ∨ 0xDFFF < run.image ∧ run.lastImage < 0x110000
  other : run.lastImage < 'İ'.toNat ∨ 'İ'.toNat < run.image
  visible : ∀ range ∈ blankRanges, run.lastImage < range.1 ∨ range.2 < run.image

theorem caseRuns_plain : ∀ run ∈ caseRuns, run.Plain := by
  have checked : ∀ run ∈ caseRuns,
      (run.lastImage < 0xD800 ∨ 0xDFFF < run.image ∧ run.lastImage < 0x110000) ∧
        (run.lastImage < 'İ'.toNat ∨ 'İ'.toNat < run.image) ∧
        ∀ range ∈ blankRanges, run.lastImage < range.1 ∨ range.2 < run.image := by
    decide +kernel
  intro run member
  obtain ⟨valid, other, visible⟩ := checked run member
  exact ⟨valid, other, visible⟩

theorem caseRuns_visible :
    ∀ run ∈ caseRuns, ∀ range ∈ blankRanges, range.2 < run.first ∨ run.last < range.1 := by
  decide +kernel

theorem lowerPoint_outside {runs : List CaseRun} {point : Nat}
    (outside : ∀ run ∈ runs, point < run.first ∨ run.last < point) : lowerPoint runs point = point := by
  induction runs with
  | nil => rfl
  | cons run runs ih =>
    have onward := ih fun other member => outside other (List.mem_cons_of_mem run member)
    rw [lowerPoint]
    split
    next => rfl
    next reached =>
      have passed := outside run List.mem_cons_self
      rw [if_neg (by omega), onward]

theorem lowerPoint_image {run : CaseRun} {step : Nat} (bounded : step ≤ run.last - run.first)
    (stepped : step % run.stride = 0) {runs : List CaseRun} (clear : run.clears runs = true) :
    lowerPoint runs (run.image + step) = run.image + step := by
  induction runs with
  | nil => rfl
  | cons target targets ih =>
    have last : run.image + step ≤ run.lastImage := Nat.add_le_add_left bounded _
    rw [lowerPoint]
    split
    next => rfl
    next reached =>
      rw [CaseRun.clears, if_neg (by omega), Bool.and_eq_true] at clear
      obtain ⟨apart, onward⟩ := clear
      split
      next within =>
        simp only [Bool.or_eq_true, Bool.and_eq_true, decide_eq_true_eq] at apart
        obtain behind | ⟨⟨even, two⟩, parity⟩ := apart
        · omega
        · have same : step % 2 = 0 := by
            obtain two | single := even
            · rwa [two] at stepped
            · omega
          rw [two, if_neg (by omega)]
      next => exact ih onward

theorem lowerPoint_cases (runs : List CaseRun) (point : Nat) :
    lowerPoint runs point = point ∨ ∃ run ∈ runs, ∃ step ≤ run.last - run.first,
      step % run.stride = 0 ∧ lowerPoint runs point = run.image + step := by
  induction runs with
  | nil => exact .inl rfl
  | cons run runs ih =>
    rw [lowerPoint]
    split
    next => exact .inl rfl
    next reached =>
      split
      next within =>
        split
        next letter =>
          exact .inr ⟨run, List.mem_cons_self, point - run.first, by omega, letter, rfl⟩
        next => exact .inl rfl
      next =>
        obtain same | ⟨other, member, further⟩ := ih
        · exact .inl same
        · exact .inr ⟨other, List.mem_cons_of_mem run member, further⟩

/-- Lowering leaves the character as it is, whatever stands beside it. -/
def Settled (c : Char) : Prop :=
  ∀ before after, lowerBetween before c after = [c]

theorem settled_of_point {c : Char} (other : c ≠ 'İ') (same : lowerPoint caseRuns c.toNat = c.toNat) :
    Settled c := by
  have no_sigma : c ≠ 'Σ' := by
    rintro rfl
    exact absurd same (by decide)
  intro before after
  rw [lowerBetween, if_neg other, if_neg no_sigma, same, Char.ofNat_toNat]

theorem lowerPoint_blank {c : Char} (blank : isBlank c = true) :
    lowerPoint caseRuns c.toNat = c.toNat := by
  obtain ⟨range, member, above, below⟩ := Ranges.holds_of_mem blank
  refine lowerPoint_outside fun run listed => ?_
  have apart := caseRuns_visible run listed range member
  omega

theorem settled_image {run : CaseRun} (member : run ∈ caseRuns) {step : Nat}
    (bounded : step ≤ run.last - run.first) (stepped : step % run.stride = 0) :
    Settled (Char.ofNat (run.image + step)) ∧ isBlank (Char.ofNat (run.image + step)) = false := by
  have plain := caseRuns_plain run member
  have last : run.image + step ≤ run.lastImage := Nat.add_le_add_left bounded _
  have valid : (run.image + step).isValidChar := by
    have valid := plain.valid
    unfold Nat.isValidChar
    omega
  have point : (Char.ofNat (run.image + step)).toNat = run.image + step := by
    rw [Char.ofNat, dif_pos valid]
    rfl
  constructor
  · refine settled_of_point ?_ ?_
    · intro same
      have other := plain.other
      rw [← same, point] at other
      omega
    · rw [point]
      exact lowerPoint_image bounded stepped (caseRuns_clear run member)
  · rw [Bool.eq_false_iff]
    intro blank
    obtain ⟨range, listed, above, below⟩ := Ranges.holds_of_mem blank
    have apart := plain.visible range listed
    rw [point] at above below
    omega

theorem lowerBetween_settled (before : List Char) (c : Char) (after : List Char) :
    (∀ d ∈ lowerBetween before c after, Settled d) ∧
      ((∀ d ∈ lowerBetween before c after, isBlank d = true) ↔ isBlank c = true) := by
  unfold lowerBetween
  split
  next dotted =>
    subst dotted
    have visible : isBlank 'i' = false ∧ isBlank 'İ' = false := by decide
    simp only [List.forall_mem_cons, List.not_mem_nil, false_implies, implies_true, and_true, visible]
    refine ⟨?_, by simp⟩
    exact ⟨settled_of_point (by decide) (by decide), settled_of_point (by decide) (by decide)⟩
  next other =>
    split
    next sigma =>
      subst sigma
      have visible : isBlank 'ς' = false ∧ isBlank 'σ' = false ∧ isBlank 'Σ' = false := by decide
      split
      all_goals
        simp only [List.forall_mem_singleton, visible, and_true]
        exact settled_of_point (by decide) (by decide)
    next =>
      rw [List.forall_mem_singleton, List.forall_mem_singleton]
      obtain same | ⟨run, member, step, bounded, stepped, image⟩ := lowerPoint_cases caseRuns c.toNat
      · rw [same, Char.ofNat_toNat]
        exact ⟨settled_of_point other same, Iff.rfl⟩
      · obtain ⟨settled, visible⟩ := settled_image member bounded stepped
        rw [← image] at settled visible
        refine ⟨settled, iff_of_false (Bool.eq_false_iff.1 visible) fun blank => ?_⟩
        rw [lowerPoint_blank blank, Char.ofNat_toNat, blank] at visible
        cases visible

/-! ## Texts -/

theorem lowerOnto_eq_append (before done text : List Char) :
    lowerOnto before done text = done.reverse ++ lowerOnto before [] text := by
  induction text generalizing before done with
  | nil => simp [lowerOnto]
  | cons c text ih =>
    rw [lowerOnto, lowerOnto, ih, ih _ (_ ++ [])]
    simp

theorem lowerOnto_cons (before : List Char) (c : Char) (text : List Char) :
    lowerOnto before [] (c :: text) = lowerBetween before c text ++ lowerOnto (c :: before) [] text := by
  rw [lowerOnto, lowerOnto_eq_append, List.append_nil, List.reverse_reverse]

theorem lowerOnto_settled (before text : List Char) :
    (∀ d ∈ lowerOnto before [] text, Settled d) ∧
      ((∀ d ∈ lowerOnto before [] text, isBlank d = true) ↔ ∀ c ∈ text, isBlank c = true) := by
  induction text generalizing before with
  | nil => simp [lowerOnto]
  | cons c text ih =>
    obtain ⟨first, blank⟩ := lowerBetween_settled before c text
    obtain ⟨onward, further⟩ := ih (c :: before)
    rw [lowerOnto_cons, List.forall_mem_append, List.forall_mem_append, List.forall_mem_cons]
    exact ⟨⟨first, onward⟩, and_congr blank further⟩

/-- Text that is settled is its own lower case. -/
theorem lower_eq_self {text : List Char} (settled : ∀ c ∈ text, Settled c) : lower text = text := by
  have whole : ∀ before, lowerOnto before [] text = text := by
    induction text with
    | nil => exact fun _ => rfl
    | cons c text ih =>
      intro before
      rw [lowerOnto_cons, settled c List.mem_cons_self, List.singleton_append,
        ih fun d member => settled d (List.mem_cons_of_mem c member)]
  exact whole []

/-! ## The ends of texts -/

theorem trim_eq (text : List Char) : trim text = (text.dropWhile isBlank).rdropWhile isBlank := rfl

theorem mem_of_mem_trim {text : List Char} {c : Char} (member : c ∈ trim text) : c ∈ text := by
  rw [trim_eq] at member
  exact (List.dropWhile_suffix isBlank).subset ((List.rdropWhile_prefix isBlank _).subset member)

theorem trim_eq_nil {text : List Char} : trim text = [] ↔ ∀ c ∈ text, isBlank c = true := by
  rw [trim_eq, List.rdropWhile_eq_nil_iff, ← List.dropWhile_eq_nil_iff, List.dropWhile_idempotent,
    List.dropWhile_eq_nil_iff]

theorem trim_trim (text : List Char) : trim (trim text) = trim text := by
  have front : trim text <+: text.dropWhile isBlank := List.rdropWhile_prefix isBlank _
  have first : (trim text).dropWhile isBlank = trim text := by
    refine List.dropWhile_eq_self_iff.2 fun some_text => ?_
    have dropped := List.dropWhile_eq_self_iff.1 (List.dropWhile_idempotent isBlank text)
    rw [front.getElem some_text]
    exact dropped (some_text.trans_le front.length_le)
  rw [trim_eq (trim text), first, trim_eq, List.rdropWhile_idempotent]

/-- A second time, lowering and trimming change nothing. -/
theorem trim_lower_again (text : List Char) : trim (lower (trim (lower text))) = trim (lower text) := by
  have settled : ∀ c ∈ trim (lower text), Settled c :=
    fun c member => (lowerOnto_settled [] text).1 c (mem_of_mem_trim member)
  rw [lower_eq_self settled, trim_trim]

/-- Nothing is left of white space, and of no other text. -/
theorem trim_lower_eq_nil {text : List Char} :
    trim (lower text) = [] ↔ ∀ c ∈ text, isBlank c = true := by
  rw [trim_eq_nil]
  exact (lowerOnto_settled [] text).2

end CodeColor.Text
