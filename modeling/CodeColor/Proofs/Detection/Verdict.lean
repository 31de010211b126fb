import CodeColor.Detection.Verdict

/-!
Verdicts and scores. A verdict names a language exactly where some language reaches the threshold.

Main statements: `Scores.verdict_cases`, `Scores.get_le_best` and `Scores.exists_verdict`.
-/

namespace CodeColor

theorem Language.name_ne_unknown (language : Language) : language.name ≠ Verdict.unknownName := by
  cases language <;> decide

theorem Scores.confidence_ne_none (points next : Nat) : confidence points next ≠ .none := by
  unfold confidence
  split
  · decide
  · split <;> decide

theorem Language.name_inj {first second : Language} (same : first.name = second.name) : first = second := by
  have named : Language.ofName? first.name = Language.ofName? second.name := congrArg Language.ofName? same
  rw [Language.ofName?_name, Language.ofName?_name] at named
  exact Option.some.inj named

theorem Verdict.language?_of_name {verdict : Verdict} {language : Language}
    (named : verdict.languageName = language.name) : verdict.language? = some language := by
  unfold Verdict.languageName at named
  split at named
  next found known => rw [known, Language.name_inj named]
  next => exact absurd named.symm language.name_ne_unknown

/-- A verdict names a language, and then with some confidence, or it says that there is none to be told. -/
theorem Scores.verdict_cases (scores : Scores) :
    scores.verdict = .unknown ∨ ∃ language confidence,
      scores.verdict = ⟨some language, confidence⟩ ∧ confidence ≠ .none := by
  unfold verdict
  dsimp only
  split
  next => exact .inl rfl
  next => exact .inr ⟨_, _, rfl, confidence_ne_none _ _⟩

theorem Confidence.name_mem {confidence : Confidence} (some_confidence : confidence ≠ .none) :
    confidence.name ∈ ["high", "medium", "low"] := by
  cases confidence with
  | none => exact absurd rfl some_confidence
  | low | medium | high => decide

/-! ## Scores -/

namespace Scores

variable {scores : Scores}

theorem get_le_better (scores : Scores) (first second : Language) :
    scores.get first ≤ scores.get (scores.better first second) ∧
      scores.get second ≤ scores.get (scores.better first second) := by
  unfold better
  split <;> omega

theorem get_le_foldl (scores : Scores) (first : Language) (languages : List Language) :
    ∀ language ∈ first :: languages, scores.get language ≤ scores.get (languages.foldl scores.better first) := by
  induction languages generalizing first with
  | nil =>
    intro language member
    rw [List.mem_singleton.1 member]
    exact Nat.le_refl _
  | cons second languages ih =>
    have onward := ih (scores.better first second)
    have both := scores.get_le_better first second
    have next := onward (scores.better first second) List.mem_cons_self
    rw [List.foldl_cons]
    intro language member
    rcases List.mem_cons.1 member with rfl | member
    · exact Nat.le_trans both.1 next
    · rcases List.mem_cons.1 member with rfl | member
      · exact Nat.le_trans both.2 next
      · exact onward language (List.mem_cons_of_mem _ member)

theorem get_le_best (scores : Scores) (language : Language) : scores.get language ≤ scores.get scores.best :=
  scores.get_le_foldl .html [.css, .js, .ts, .json] language (Language.mem_all language)

theorem threshold_le_of_verdict {language : Language} (known : scores.verdict.language? = some language) :
    threshold ≤ scores.get language := by
  unfold verdict at known
  dsimp only at known
  split at known
  next => cases known
  next recognised =>
    have best : scores.best = language := Option.some.inj known
    rw [← best]
    omega

theorem exists_verdict {language : Language} (recognised : threshold ≤ scores.get language) :
    ∃ best confidence, scores.verdict = ⟨some best, confidence⟩ := by
  have most := scores.get_le_best language
  have enough : ¬ scores.get scores.best < threshold := by omega
  unfold verdict
  dsimp only
  rw [if_neg enough]
  exact ⟨_, _, rfl⟩

end Scores

end CodeColor
