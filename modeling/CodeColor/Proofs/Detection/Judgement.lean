import CodeColor.Proofs.Detection.Limits

/-!
The verdict from the scores: the language with the most points, the first in order of preference where several have
them, and how far it is ahead of the others. White space has no points, so that it needs no rule of its own.

Main statements: `Scores.verdict_eq_some_iff`, `detect_eq_verdict` and `verdict_follows_from_scores`.
-/

namespace CodeColor

theorem Language.exists_other (language : Language) : ∃ other : Language, other ≠ language := by
  cases language with
  | html => exact ⟨.css, by decide⟩
  | css | js | ts | json => exact ⟨.html, by decide⟩

namespace Scores

variable {scores : Scores}

/-! ## The first of the best -/

/-- The language is in the list, those before it have fewer points, and those behind it have no more. -/
def LeadsIn (scores : Scores) (languages : List Language) (language : Language) : Prop :=
  ∃ front back, languages = front ++ language :: back ∧
    (∀ other ∈ front, scores.get other < scores.get language) ∧
    ∀ other ∈ back, scores.get other ≤ scores.get language

/-- The language is the first, in order of preference, of those that have the most points. -/
def Leads (scores : Scores) (language : Language) : Prop :=
  scores.LeadsIn Language.all language

theorem LeadsIn.get_le {languages : List Language} {language other : Language}
    (leads : scores.LeadsIn languages language) (member : other ∈ languages) :
    scores.get other ≤ scores.get language := by
  obtain ⟨front, back, rfl, fewer, no_more⟩ := leads
  rcases List.mem_append.1 member with before | onward
  · exact Nat.le_of_lt (fewer other before)
  · rcases List.mem_cons.1 onward with rfl | behind
    · exact Nat.le_refl _
    · exact no_more other behind

theorem Leads.get_le {language : Language} (leads : scores.Leads language) (other : Language) :
    scores.get other ≤ scores.get language :=
  LeadsIn.get_le leads (Language.mem_all other)

theorem LeadsIn.better {languages : List Language} {language : Language} (leads : scores.LeadsIn languages language)
    (next : Language) : scores.LeadsIn (languages ++ [next]) (scores.better language next) := by
  unfold Scores.better
  split
  next more =>
    refine ⟨languages, [], rfl, fun other member => ?_, by simp⟩
    exact Nat.lt_of_le_of_lt (leads.get_le member) more
  next no_more =>
    obtain ⟨front, back, rfl, fewer, others⟩ := leads
    refine ⟨front, back ++ [next], by simp, fewer, List.forall_mem_append.2 ⟨others, fun other member => ?_⟩⟩
    rw [List.mem_singleton.1 member]
    exact Nat.le_of_not_lt no_more

theorem LeadsIn.foldl {languages : List Language} {language : Language} (leads : scores.LeadsIn languages language)
    (onward : List Language) : scores.LeadsIn (languages ++ onward) (onward.foldl scores.better language) := by
  induction onward generalizing languages language with
  | nil => simpa using leads
  | cons next onward ih =>
    have further := ih (leads.better next)
    rwa [List.append_assoc] at further

theorem leads_best (scores : Scores) : scores.Leads scores.best := by
  have first : scores.LeadsIn [.html] .html := ⟨[], [], rfl, by simp, by simp⟩
  exact first.foldl [.css, .js, .ts, .json]

theorem LeadsIn.unique {languages : List Language} {first second : Language}
    (left : scores.LeadsIn languages first) (right : scores.LeadsIn languages second) : first = second := by
  obtain ⟨front, back, split, fewer, -⟩ := id left
  obtain ⟨lead, rest, same, less, -⟩ := id right
  rw [split] at same
  rcases List.append_eq_append_iff.1 same with ⟨more, whole, onward⟩ | ⟨more, whole, onward⟩
  · rcases List.cons_eq_append_iff.1 onward with ⟨-, here⟩ | ⟨further, rfl, -⟩
    · exact (List.cons.inj here).1.symm
    · have behind : first ∈ lead := by simp [whole]
      have member : second ∈ languages := by simp [split, same]
      exact absurd (less first behind) (Nat.not_lt.2 (left.get_le member))
  · rcases List.cons_eq_append_iff.1 onward with ⟨-, here⟩ | ⟨further, rfl, -⟩
    · exact (List.cons.inj here).1
    · have behind : second ∈ front := by simp [whole]
      have member : first ∈ languages := by simp [split]
      exact absurd (fewer second behind) (Nat.not_lt.2 (right.get_le member))

theorem leads_iff {language : Language} : scores.Leads language ↔ scores.best = language := by
  constructor
  · exact fun leads => LeadsIn.unique scores.leads_best leads
  · rintro rfl
    exact scores.leads_best

/-! ## How sure the verdict is -/

/-- Every other language has fewer points, by the gap or more. -/
def AheadBy (scores : Scores) (gap : Nat) (language : Language) : Prop :=
  ∀ other, other ≠ language → scores.get other + gap ≤ scores.get language

theorem foldl_max_le_iff {values : List Nat} {start most : Nat} :
    values.foldl max start ≤ most ↔ start ≤ most ∧ ∀ value ∈ values, value ≤ most := by
  induction values generalizing start with
  | nil => simp
  | cons value values ih => rw [List.foldl_cons, ih, Nat.max_le, List.forall_mem_cons, and_assoc]

theorem runnerUp_le_iff {language : Language} {most : Nat} :
    scores.runnerUp language ≤ most ↔ ∀ other, other ≠ language → scores.get other ≤ most := by
  rw [runnerUp, foldl_max_le_iff, List.forall_mem_map, and_iff_right (Nat.zero_le _)]
  constructor
  · intro most other apart
    exact most other (List.mem_filter.2 ⟨Language.mem_all other, by simpa using apart⟩)
  · intro most other member
    exact most other (by simpa using (List.mem_filter.1 member).2)

theorem aheadBy_iff {language : Language} {gap : Nat} :
    scores.AheadBy gap language ↔ scores.runnerUp language + gap ≤ scores.get language := by
  constructor
  · intro ahead
    obtain ⟨other, apart⟩ := language.exists_other
    have far := ahead other apart
    have next : scores.runnerUp language ≤ scores.get language - gap :=
      runnerUp_le_iff.2 fun other apart => Nat.le_sub_of_add_le (ahead other apart)
    omega
  · intro ahead other apart
    have next := runnerUp_le_iff.1 (Nat.le_refl (scores.runnerUp language)) other apart
    omega

def Sure (scores : Scores) (language : Language) : Prop :=
  9 ≤ scores.get language ∧ scores.AheadBy 3 language

def Likely (scores : Scores) (language : Language) : Prop :=
  5 ≤ scores.get language ∨ scores.AheadBy 2 language

/-- The confidence that the points of the language deserve, next to those of the others. -/
inductive Merits (scores : Scores) (language : Language) : Confidence → Prop
  | high (sure : scores.Sure language) : Merits scores language .high
  | medium (unsure : ¬ scores.Sure language) (likely : scores.Likely language) : Merits scores language .medium
  | low (unsure : ¬ scores.Sure language) (unlikely : ¬ scores.Likely language) : Merits scores language .low

theorem merits_confidence (scores : Scores) (language : Language) :
    scores.Merits language (confidence (scores.get language) (scores.runnerUp language)) := by
  have sure : scores.Sure language ↔
      9 ≤ scores.get language ∧ scores.runnerUp language + 3 ≤ scores.get language :=
    and_congr_right' aheadBy_iff
  have likely : scores.Likely language ↔
      5 ≤ scores.get language ∨ scores.runnerUp language + 2 ≤ scores.get language :=
    or_congr_right aheadBy_iff
  unfold confidence
  split
  next high => exact .high (sure.2 high)
  next no_high =>
    split
    next medium => exact .medium (fun high => no_high (sure.1 high)) (likely.2 medium)
    next no_medium => exact .low (fun high => no_high (sure.1 high)) fun medium => no_medium (likely.1 medium)

theorem Merits.unique {language : Language} {first second : Confidence} (left : scores.Merits language first)
    (right : scores.Merits language second) : first = second := by
  cases left <;> cases right <;> first | rfl | contradiction

/-! ## Verdicts -/

theorem verdict_eq_unknown_iff : scores.verdict = .unknown ↔ ∀ language, scores.get language < threshold := by
  constructor
  · intro unknown language
    by_contra recognised
    obtain ⟨best, confidence, known⟩ := exists_verdict (Nat.le_of_not_lt recognised)
    rw [unknown] at known
    cases known
  · intro few
    have best := few scores.best
    unfold verdict
    dsimp only
    rw [if_pos best]

theorem verdict_eq_some_iff {language : Language} {sureness : Confidence} :
    scores.verdict = ⟨some language, sureness⟩ ↔
      threshold ≤ scores.get language ∧ scores.Leads language ∧ scores.Merits language sureness := by
  have merits := scores.merits_confidence scores.best
  unfold verdict
  dsimp only
  constructor
  · intro known
    split at known
    next => cases known
    next recognised =>
      cases known
      exact ⟨Nat.le_of_not_lt recognised, scores.leads_best, merits⟩
  · intro ⟨recognised, leads, deserved⟩
    obtain rfl := leads_iff.1 leads
    rw [if_neg (Nat.not_lt.2 recognised), merits.unique deserved]

/-! ## White space -/

variable {nesting : Nat} {source : String}

theorem get_settled_json {found : Scores} {parses : Bool} :
    (found.settled parses).get .json =
      if parses then found.get .json + documentBonus else found.get .json := rfl

theorem not_overflows_of_blank (blank : isBlankText source = true) : ¬ Json.Overflows nesting source.toList := by
  intro overflows
  obtain ⟨front, mark, rest, split, opening, -⟩ := Json.overflows_iff.1 overflows
  have known := List.all_eq_true.1 blank mark (by simp [split])
  simp only [List.mem_cons, List.not_mem_nil, or_false] at opening
  rcases opening with rfl | rfl <;> cases known

theorem parsesAsJson_of_blank (blank : isBlankText source = true) : parsesAsJson nesting source = .ok false := by
  have shallow : ¬ Json.Overflows nesting source.toList := not_overflows_of_blank blank
  obtain ⟨parses, answered⟩ := Json.exists_parsesAsJson shallow
  cases parses with
  | false => exact answered
  | true =>
    obtain ⟨-, document, -, container, text⟩ := Json.parsesAsJson_iff.1 answered
    obtain ⟨space, first, inside, last, whole, -, opening, -⟩ := Json.Document.text_brackets container
    have known := List.all_eq_true.1 blank first (by simp [← text, whole])
    simp only [List.mem_cons, List.not_mem_nil, or_false] at opening
    rcases opening with rfl | rfl <;> cases known

theorem verdict_of_blank (blank : isBlankText source = true) :
    ((ofEvidence source.toList).settled false).verdict = .unknown := by
  have none : ∀ language : Language, (ofEvidence source.toList).get language = 0 :=
    get_ofEvidence_blank (List.all_eq_true.1 blank)
  apply verdict_eq_unknown_iff.2
  intro language
  cases language with
  | html | css | js =>
    rw [get_settled (by decide) (by decide), none]
    decide
  | ts =>
    rw [get_settled_ts, none, none]
    decide
  | json =>
    rw [get_settled_json, none]
    decide

end Scores

variable {nesting : Nat} {source : String}

/-- White space comes to nothing by its points already. -/
theorem detect_eq_verdict (nesting : Nat) (source : String) :
    detect nesting source = (Scores.ofSource nesting source).map Scores.verdict := by
  unfold detect
  split
  next blank =>
    rw [Scores.ofSource_eq_ok.2 ⟨false, Scores.parsesAsJson_of_blank blank, rfl⟩]
    exact congrArg Except.ok (Scores.verdict_of_blank blank).symm
  next => rfl

theorem detect_eq_ok {verdict : Verdict} : detect nesting source = .ok verdict ↔
    ∃ scores, Scores.ofSource nesting source = .ok scores ∧ scores.verdict = verdict := by
  rw [detect_eq_verdict]
  cases Scores.ofSource nesting source <;> simp [Except.map]

theorem detect_eq_tooDeep_iff : detect nesting source = .error .tooDeep ↔ Json.Overflows nesting source.toList := by
  rw [← Scores.ofSource_eq_tooDeep_iff, detect_eq_verdict]
  cases Scores.ofSource nesting source <;> simp [Except.map]

theorem explain_eq_tooDeep (overflows : Json.Overflows nesting source.toList) :
    explain nesting source = .error .tooDeep := by
  rw [explain, detect_eq_tooDeep_iff.2 overflows]

theorem explain_cases (nesting : Nat) (source : String) :
    (Json.Overflows nesting source.toList ∧ explain nesting source = .error .tooDeep) ∨
      ¬ Json.Overflows nesting source.toList ∧ ∃ scores, Scores.ofSource nesting source = .ok scores ∧
        explain nesting source = .ok ⟨scores.verdict, scores⟩ ∧
        detect (nesting + 1) source = .ok scores.verdict := by
  by_cases overflows : Json.Overflows nesting source.toList
  · exact .inl ⟨overflows, explain_eq_tooDeep overflows⟩
  · refine .inr ⟨overflows, ?_⟩
    obtain ⟨scores, scored⟩ := Scores.exists_ofSource overflows
    have room : ¬ Json.Overflows (nesting + 1) source.toList := fun deeper => overflows (deeper.mono (Nat.le_succ _))
    obtain ⟨same, also⟩ := Scores.exists_ofSource room
    obtain rfl := Scores.ofSource_same scored also
    refine ⟨scores, scored, ?_, detect_eq_ok.2 ⟨scores, also, rfl⟩⟩
    rw [explain, detect_eq_ok.2 ⟨scores, scored, rfl⟩, also]
    rfl

/-! ## TypeScript -/

theorem Scores.ts_eq_zero_or_ahead {scores : Scores} (scored : ofSource nesting source = .ok scores) :
    scores.ts = 0 ∨ scores.js + threshold ≤ scores.ts := by
  obtain ⟨parses, -, rfl⟩ := ofSource_eq_ok.1 scored
  dsimp only [settled]
  split
  next recognised => exact .inr (by omega)
  next => exact .inl rfl

/-- The verdict is what the scores say: no language where none reaches the threshold of three points, and otherwise the
first of the best, with the confidence that its points deserve. JavaScript does not come before TypeScript. There are
neither scores nor a verdict for a source that is nested too deeply, and both for any other. -/
theorem verdict_follows_from_scores (nesting : Nat) (source : String) :
    (Json.Overflows nesting source.toList →
      Scores.ofSource nesting source = .error .tooDeep ∧ detect nesting source = .error .tooDeep) ∧
    (¬ Json.Overflows nesting source.toList → ∃ scores verdict,
      Scores.ofSource nesting source = .ok scores ∧ detect nesting source = .ok verdict ∧
      (verdict = .unknown ↔ ∀ language, scores.get language < 3) ∧
      (∀ language confidence, verdict = ⟨some language, confidence⟩ ↔
        3 ≤ scores.get language ∧ scores.Leads language ∧ scores.Merits language confidence) ∧
      (verdict ≠ .unknown → ∃ language confidence, verdict = ⟨some language, confidence⟩) ∧
      (scores.ts = 0 ∨ scores.js + 3 ≤ scores.ts) ∧
      (scores.ts ≠ 0 → verdict ≠ .unknown ∧ verdict.language? ≠ some .js)) := by
  constructor
  · exact fun overflows => ⟨Scores.ofSource_eq_tooDeep_iff.2 overflows, detect_eq_tooDeep_iff.2 overflows⟩
  · intro shallow
    obtain ⟨scores, scored⟩ := Scores.exists_ofSource shallow
    have ahead := Scores.ts_eq_zero_or_ahead scored
    have untold : scores.verdict = .unknown ↔ ∀ language, scores.get language < 3 := Scores.verdict_eq_unknown_iff
    have told : ∀ language confidence, scores.verdict = ⟨some language, confidence⟩ ↔
        3 ≤ scores.get language ∧ scores.Leads language ∧ scores.Merits language confidence :=
      fun _ _ => Scores.verdict_eq_some_iff
    refine ⟨scores, scores.verdict, scored, detect_eq_ok.2 ⟨scores, scored, rfl⟩, untold, told, ?_, ahead, ?_⟩
    · intro known
      rcases scores.verdict_cases with unknown | ⟨language, confidence, verdict, -⟩
      · exact absurd unknown known
      · exact ⟨language, confidence, verdict⟩
    · intro some_points
      have far := ahead.resolve_left some_points
      have recognised : ¬ scores.get .ts < 3 := Nat.not_lt.2 (Nat.le_trans (Nat.le_add_left _ _) far)
      refine ⟨fun unknown => recognised (untold.1 unknown .ts), fun js => ?_⟩
      obtain ⟨-, leads, -⟩ := (told .js scores.verdict.confidence).1 (by rw [← js])
      have most : scores.ts ≤ scores.js := leads.get_le .ts
      have apart : scores.js + 3 ≤ scores.ts := far
      omega

/-- The type in the declaration speaks for TypeScript, and what speaks for JavaScript counts on top. -/
theorem verdict_follows_from_scores_of_declaration :
    let nesting := Json.standardNesting
    let source := "const n: number = 1;"
    ¬ Json.Overflows nesting source.toList ∧ ∃ scores verdict, Scores.ofSource nesting source = .ok scores ∧
      detect nesting source = .ok verdict ∧ 3 ≤ scores.ts ∧ verdict ≠ .unknown ∧ verdict.language? ≠ some .js := by
  intro nesting source
  have answered : parsesAsJson nesting source = .ok false := by decide +kernel
  have shallow : ¬ Json.Overflows nesting source.toList := by
    rw [← Json.parsesAsJson_eq_tooDeep_iff, answered]
    simp
  have scored : Scores.ofSource nesting source = .ok ⟨0, 1, 1, 5, 0⟩ := by decide +kernel
  obtain ⟨scores, verdict, same, detected, -, -, -, -, known⟩ :=
    (verdict_follows_from_scores nesting source).2 shallow
  cases scored.symm.trans same
  exact ⟨shallow, _, verdict, scored, detected, by decide, known (by decide)⟩

/-- A thousand brackets have no scores, and so no verdict follows from them. -/
theorem no_verdict_on_brackets :
    let nesting := Json.standardNesting
    let source := String.ofList (List.replicate 1000 '[')
    (¬ ∃ scores, Scores.ofSource nesting source = .ok scores) ∧ ¬ ∃ verdict, detect nesting source = .ok verdict := by
  intro nesting source
  have overflows : Json.Overflows nesting source.toList := Json.overflows_replicate (by decide)
  constructor
  · rintro ⟨scores, scored⟩
    exact Scores.not_overflows_of_ofSource scored overflows
  · rintro ⟨verdict, detected⟩
    cases detected.symm.trans (detect_eq_tooDeep_iff.2 overflows)

end CodeColor
