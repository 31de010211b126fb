import CodeColor.Proofs.Detection.Outcome
import CodeColor.Proofs.Detection.Verdict
import CodeColor.Proofs.Pattern.Lines

/-!
Detection and further lines. What speaks for a language within a block of lines speaks for it in every text that holds
the block, except for JSON, which is judged by the whole text.

Main statements: `Scores.get_le_of_lines` and `evidence_lasts_among_lines`.
-/

namespace CodeColor

/-! ## Evidence -/

namespace Evidence

def lasting (evidence : Evidence) : Bool :=
  (evidence.strong ++ evidence.weak).all Pattern.lasting

theorem score_le {evidence : Evidence} (lasting : evidence.lasting = true) {front block back : List Char}
    (lines : LineBlock front block back) : evidence.score block ≤ evidence.score (front ++ block ++ back) := by
  have occurs : ∀ pattern ∈ evidence.strong ++ evidence.weak,
      pattern.occursIn block = true → pattern.occursIn (front ++ block ++ back) = true := by
    intro pattern member found
    exact (Pattern.lasts_of_lasting (List.all_eq_true.1 lasting pattern member) lines).occursIn found
  have strong : evidence.strong.countP (·.occursIn block) ≤
      evidence.strong.countP (·.occursIn (front ++ block ++ back)) :=
    List.countP_mono_left fun pattern member => occurs pattern (List.mem_append_left _ member)
  have weak : evidence.weak.countP (·.occursIn block) ≤
      evidence.weak.countP (·.occursIn (front ++ block ++ back)) :=
    List.countP_mono_left fun pattern member => occurs pattern (List.mem_append_right _ member)
  unfold score
  omega

end Evidence

theorem Language.lasting_evidence {language : Language} (other : language ≠ .json) :
    language.evidence.lasting = true := by
  cases language with
  | html | css | js | ts => decide
  | json => exact absurd rfl other

/-! ## Scores -/

/-- The source is a block of whole lines of the text. -/
def IsLinesOf (source text : String) : Prop :=
  ∃ front back, text.toList = front ++ source.toList ++ back ∧ LineBlock front source.toList back

theorem isLinesOf_between (before source behind : String) :
    IsLinesOf source (before ++ "\n" ++ source ++ "\n" ++ behind) := by
  refine ⟨before.toList ++ ['\n'], '\n' :: behind.toList, ?_, .inr List.getLast?_concat, .inr (.inl rfl)⟩
  simp

theorem isLinesOf_below (before source : String) : IsLinesOf source (before ++ "\n" ++ source) := by
  refine ⟨before.toList ++ ['\n'], [], ?_, .inr List.getLast?_concat, .inl rfl⟩
  simp

theorem isLinesOf_above (source behind : String) : IsLinesOf source (source ++ "\n" ++ behind) := by
  refine ⟨[], '\n' :: behind.toList, ?_, .inl rfl, .inr (.inl rfl)⟩
  simp

namespace Scores

theorem get_ofEvidence (text : List Char) (language : Language) :
    (ofEvidence text).get language = language.evidence.score text := by
  cases language <;> rfl

variable {found few many : Scores} {parses : Bool}

theorem get_settled {language : Language} (no_json : language ≠ .json) (no_ts : language ≠ .ts) :
    (found.settled parses).get language = found.get language := by
  cases language with
  | html | css | js => rfl
  | ts => exact absurd rfl no_ts
  | json => exact absurd rfl no_json

theorem get_settled_ts :
    (found.settled parses).get .ts = if threshold ≤ found.get .ts then found.get .ts + found.get .js else 0 := rfl

theorem get_le_of_lines {less more : Nat} {source text : String} (lines : IsLinesOf source text)
    (scored : ofSource less source = .ok few) (also : ofSource more text = .ok many) {language : Language}
    (other : language ≠ .json) : few.get language ≤ many.get language := by
  obtain ⟨front, back, whole, block⟩ := lines
  obtain ⟨_, -, rfl⟩ := ofSource_eq_ok.1 scored
  obtain ⟨_, -, rfl⟩ := ofSource_eq_ok.1 also
  have lasts : ∀ language : Language, language ≠ .json →
      (ofEvidence source.toList).get language ≤ (ofEvidence text.toList).get language := by
    intro language other
    rw [get_ofEvidence, get_ofEvidence, whole]
    exact Evidence.score_le (Language.lasting_evidence other) block
  by_cases gated : language = .ts
  · have ts := lasts .ts (by decide)
    have js := lasts .js (by decide)
    rw [gated, get_settled_ts, get_settled_ts]
    split
    next recognised =>
      rw [if_pos (Nat.le_trans recognised ts)]
      omega
    next => exact Nat.zero_le _
  · rw [get_settled other gated, get_settled other gated]
    exact lasts language other

end Scores

/-! ## Verdicts -/

theorem isBlankText_of_lines {source text : String} (lines : IsLinesOf source text)
    (blank : isBlankText text = true) : isBlankText source = true := by
  obtain ⟨front, back, whole, -⟩ := lines
  rw [isBlankText, whole, List.all_append, List.all_append, Bool.and_eq_true, Bool.and_eq_true] at blank
  exact blank.1.2

theorem detect_eq_some {nesting : Nat} {source : String} {verdict : Verdict} {language : Language}
    (detected : detect nesting source = .ok verdict) (known : verdict.language? = some language) :
    isBlankText source = false ∧ ∃ scores, Scores.ofSource nesting source = .ok scores ∧ scores.verdict = verdict := by
  unfold detect at detected
  split at detected
  next =>
    cases detected
    cases known
  next some_text =>
    refine ⟨Bool.eq_false_iff.2 some_text, ?_⟩
    cases scored : Scores.ofSource nesting source with
    | ok scores =>
      rw [scored] at detected
      exact ⟨scores, rfl, Except.ok.inj detected⟩
    | error failure =>
      rw [scored] at detected
      cases detected

theorem detect_of_lines {nesting : Nat} {source text : String} (lines : IsLinesOf source text) {language : Language}
    (other : language ≠ .json) {verdict : Verdict} (detected : detect nesting source = .ok verdict)
    (known : verdict.language? = some language) (shallow : ¬ Json.Overflows nesting text.toList) :
    ∃ best confidence, detect nesting text = .ok ⟨some best, confidence⟩ := by
  obtain ⟨some_text, few, scored, rfl⟩ := detect_eq_some detected known
  obtain ⟨many, also⟩ := Scores.exists_ofSource shallow
  have no_blank : ¬ isBlankText text = true := fun blank =>
    Bool.false_ne_true (some_text.symm.trans (isBlankText_of_lines lines blank))
  have recognised :=
    Nat.le_trans (Scores.threshold_le_of_verdict known) (Scores.get_le_of_lines lines scored also other)
  obtain ⟨best, confidence, named⟩ := Scores.exists_verdict recognised
  refine ⟨best, confidence, ?_⟩
  rw [detect, if_neg no_blank, also]
  exact congrArg Except.ok named

/-- Lines around a source take no points from it, unless they make a text that is nested too deeply, which has no points
at all. Where the source is in some language other than JSON, any other text with these lines in it is in a language
that can be told, if not in the same one. -/
theorem evidence_lasts_among_lines (nesting : Nat) (source : String) {language : Language} (other : language ≠ .json) :
    (∀ before behind : String,
      ∀ text ∈ [before ++ "\n" ++ source ++ "\n" ++ behind, before ++ "\n" ++ source, source ++ "\n" ++ behind],
        ((∃ many, Scores.ofSource nesting text = .ok many) ↔ ¬ Json.Overflows nesting text.toList) ∧
          ∀ few many, Scores.ofSource nesting source = .ok few → Scores.ofSource nesting text = .ok many →
            few.get language ≤ many.get language) ∧
      ∀ text, IsLinesOf source text → ¬ Json.Overflows nesting text.toList →
        ∀ verdict, detect nesting source = .ok verdict → verdict.languageName = language.name →
          ∃ found, detect nesting text = .ok found ∧ found.languageName ≠ "unknown" := by
  constructor
  · intro before behind text member
    have lines : IsLinesOf source text := by
      simp only [List.mem_cons, List.not_mem_nil, or_false] at member
      rcases member with rfl | rfl | rfl
      · exact isLinesOf_between before source behind
      · exact isLinesOf_below before source
      · exact isLinesOf_above source behind
    refine ⟨⟨?_, Scores.exists_ofSource⟩, fun few many scored also => Scores.get_le_of_lines lines scored also other⟩
    rintro ⟨many, scored⟩
    exact Scores.not_overflows_of_ofSource scored
  · intro text lines shallow verdict detected named
    obtain ⟨best, confidence, found⟩ := detect_of_lines lines other detected (Verdict.language?_of_name named) shallow
    exact ⟨_, found, best.name_ne_unknown⟩

/-- The declaration ends with a line feed, and the bracket on the next line does not hide the end of its line. -/
theorem evidence_lasts_among_lines_of_rule :
    let nesting := Json.standardNesting
    let declaration := "margin: 4px;\n"
    let rule := "p \x7b\nmargin: 4px;\n\x7d"
    Scores.ofSource nesting declaration = .ok ⟨0, 7, 1, 0, 0⟩ ∧
      (∃ many, Scores.ofSource nesting ("p \x7b" ++ "\n" ++ declaration ++ "\n" ++ "\x7d") = .ok many ∧ 7 ≤ many.css) ∧
      IsLinesOf declaration rule ∧ detect nesting declaration = .ok ⟨some .css, .medium⟩ ∧
      ∃ found, detect nesting rule = .ok found ∧ found.languageName ≠ "unknown" := by
  intro nesting declaration rule
  have css : Language.css ≠ .json := by decide
  have lines : IsLinesOf declaration rule :=
    ⟨"p \x7b\n".toList, ['}'], by decide +kernel, .inr (by decide +kernel), .inr (.inr (by decide +kernel))⟩
  have scored : Scores.ofSource nesting declaration = .ok ⟨0, 7, 1, 0, 0⟩ := by decide +kernel
  have detected : detect nesting declaration = .ok ⟨some .css, .medium⟩ := by decide +kernel
  have shallow (text : String) (answered : parsesAsJson nesting text = .ok false) :
      ¬ Json.Overflows nesting text.toList := by
    rw [← Json.parsesAsJson_eq_tooDeep_iff, answered]
    simp
  obtain ⟨lasts, told⟩ := evidence_lasts_among_lines nesting declaration css
  obtain ⟨exact_room, no_less⟩ := lasts "p \x7b" "\x7d" _ List.mem_cons_self
  obtain ⟨many, also⟩ := exact_room.2 (shallow _ (by decide +kernel))
  exact ⟨scored, ⟨many, also, no_less _ _ scored also⟩, lines, detected,
    told rule lines (shallow _ (by decide +kernel)) _ detected (by decide)⟩

/-- A thousand brackets on a line of their own leave nothing of what speaks for HTML on the next one. -/
theorem evidence_lost_behind_brackets :
    let nesting := Json.standardNesting
    let source := "<html>"
    let text := String.ofList (List.replicate 1000 '[') ++ "\n" ++ source
    Scores.ofSource nesting source = .ok ⟨4, 0, 0, 0, 0⟩ ∧ detect nesting source = .ok ⟨some .html, .medium⟩ ∧
      IsLinesOf source text ∧
      ¬ ((∃ many, Scores.ofSource nesting text = .ok many ∧ 4 ≤ many.html) ∨
        ∃ found, detect nesting text = .ok found ∧ found.languageName ≠ "unknown") := by
  intro nesting source text
  have scored : Scores.ofSource nesting source = .ok ⟨4, 0, 0, 0, 0⟩ := by decide +kernel
  have detected : detect nesting source = .ok ⟨some .html, .medium⟩ := by decide +kernel
  have overflows : Json.Overflows nesting text.toList := by
    rw [String.toList_append, String.toList_append, List.append_assoc]
    exact (Json.overflows_replicate (by decide)).append _
  have unscored := Scores.ofSource_eq_tooDeep_iff.2 overflows
  refine ⟨scored, detected, isLinesOf_below _ source, ?_⟩
  rintro (⟨many, also, -⟩ | ⟨found, told, -⟩)
  · cases unscored.symm.trans also
  · unfold detect at told
    split at told
    next blank =>
      have lines : IsLinesOf source text := isLinesOf_below _ source
      exact absurd (isBlankText_of_lines lines blank) (by decide)
    next =>
      rw [unscored] at told
      cases told

end CodeColor
