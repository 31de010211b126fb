import CodeColor.Proofs.Detection.Judgement
import CodeColor.Proofs.Pattern.Trailing

/-!
Detection and white space behind the source, which changes neither the points of a language nor whether the source
counts as JSON.

Main statement: `detect_append`.
-/

namespace CodeColor

def trailingBlanks : List Char := [' ', '\t', '\n']

section

variable {back : List Char} (blank : ∀ c ∈ back, c ∈ trailingBlanks)
include blank

/-! ## Evidence -/

theorem startsIn_word_of_blanks : startsIn CharSet.word back = false := by
  have apart : (trailingBlanks.all fun c => !CharSet.word c) = true := by decide +kernel
  cases back with
  | nil => rfl
  | cons c back =>
    have other := List.all_eq_true.1 apart c (blank c List.mem_cons_self)
    exact (Bool.not_eq_true' _).mp other

theorem Evidence.score_append {evidence : Evidence}
    (settled : ∀ pattern ∈ evidence.strong ++ evidence.weak, pattern.settled trailingBlanks = true) (text : List Char) :
    evidence.score (text ++ back) = evidence.score text := by
  have same : ∀ pattern ∈ evidence.strong ++ evidence.weak,
      pattern.occursIn (text ++ back) = pattern.occursIn text :=
    fun pattern member => Pattern.occursIn_append (settled pattern member) blank (startsIn_word_of_blanks blank)
  obtain ⟨strong, weak⟩ := List.forall_mem_append.1 same
  have strong_count : evidence.strong.countP (·.occursIn (text ++ back)) = evidence.strong.countP (·.occursIn text) :=
    List.countP_congr fun pattern member => by rw [strong pattern member]
  have weak_count : evidence.weak.countP (·.occursIn (text ++ back)) = evidence.weak.countP (·.occursIn text) :=
    List.countP_congr fun pattern member => by rw [weak pattern member]
  rw [score, score, strong_count, weak_count]

end

theorem Language.settled_evidence (language : Language) :
    ∀ pattern ∈ language.evidence.strong ++ language.evidence.weak, pattern.settled trailingBlanks = true := by
  cases language <;> decide +kernel

/-! ## JSON texts -/

namespace Json

theorem isSpace_of_mem {c : Char} (blank : c ∈ trailingBlanks) : isSpace c = true := by
  have spaces : trailingBlanks.all isSpace = true := by decide
  exact List.all_eq_true.1 spaces c blank

theorem blank_append {front back : List Char} : Blank (front ++ back) ↔ Blank front ∧ Blank back :=
  List.forall_mem_append

theorem Document.exists_trailing {document : Document} (container : document.isContainer = true) {text back : List Char}
    (blank : Blank back) (whole : document.text = text ++ back) :
    ∃ trailing, text = written document.parts ++ trailing ∧ Blank trailing := by
  rcases List.append_eq_append_iff.1 whole with ⟨more, split, behind⟩ | ⟨more, split, behind⟩
  · exact ⟨more, split, (blank_append.1 (behind ▸ document.blank_trailing)).1⟩
  · rcases List.eq_nil_or_concat more with rfl | ⟨front, c, rfl⟩
    · exact ⟨[], by rw [split, List.append_nil, List.append_nil], blank_nil⟩
    · obtain ⟨space, first, inside, last, parts, -, -, closes⟩ := Document.written_brackets container
      have same : (space ++ first :: inside) ++ [last] = (text ++ front) ++ [c] := by
        simpa [parts] using split
      have space_last : isSpace c = true := blank c (by simp [behind])
      obtain rfl : last = c := (List.append_singleton_inj.1 same).2
      simp only [List.mem_cons, List.not_mem_nil, or_false] at closes
      rcases closes with rfl | rfl <;> cases space_last

end Json

theorem parsesAsJson_append (nesting : Nat) (source : String) {blanks : String} (blank : Json.Blank blanks.toList) :
    parsesAsJson nesting (source ++ blanks) = parsesAsJson nesting source := by
  have deep : Json.Overflows nesting (source ++ blanks).toList ↔ Json.Overflows nesting source.toList := by
    rw [String.toList_append, Json.overflows_append_blank blank]
  have documents : (∃ document : Json.Document, document.Spelled ∧ document.isContainer = true ∧
      document.text = (source ++ blanks).toList) ↔
      ∃ document : Json.Document, document.Spelled ∧ document.isContainer = true ∧ document.text = source.toList := by
    rw [String.toList_append]
    constructor
    · intro ⟨document, spelled, container, text⟩
      obtain ⟨trailing, whole, blank_trailing⟩ := Json.Document.exists_trailing container blank text
      exact ⟨⟨document.parts, trailing, document.derives, document.blank, blank_trailing⟩, spelled, container,
        whole.symm⟩
    · intro ⟨document, spelled, container, text⟩
      have blank_trailing := Json.blank_append.2 ⟨document.blank_trailing, blank⟩
      refine ⟨⟨document.parts, _, document.derives, document.blank, blank_trailing⟩, spelled, container, ?_⟩
      rw [← text, Json.Document.text, Json.Document.text, List.append_assoc]
  have accepted : parsesAsJson nesting (source ++ blanks) = .ok true ↔ parsesAsJson nesting source = .ok true := by
    rw [Json.parsesAsJson_iff, Json.parsesAsJson_iff, documents, Ne, Ne, Json.parsesAsJson_eq_tooDeep_iff,
      Json.parsesAsJson_eq_tooDeep_iff, deep]
  by_cases overflows : Json.Overflows nesting source.toList
  · rw [Json.parsesAsJson_eq_tooDeep_iff.2 (deep.2 overflows), Json.parsesAsJson_eq_tooDeep_iff.2 overflows]
  · obtain ⟨first, answered⟩ := Json.exists_parsesAsJson overflows
    obtain ⟨second, again⟩ := Json.exists_parsesAsJson (mt deep.1 overflows)
    rw [answered, again] at accepted ⊢
    have same : second = true ↔ first = true := by simpa using accepted
    exact congrArg Except.ok (Bool.eq_iff_iff.2 same)

/-! ## Scores and verdicts -/

section

variable (nesting : Nat) (source : String) {blanks : String} (blank : ∀ c ∈ blanks.toList, c ∈ trailingBlanks)
include blank

theorem Scores.ofSource_append :
    Scores.ofSource nesting (source ++ blanks) = Scores.ofSource nesting source := by
  have spaces : Json.Blank blanks.toList := fun c member => Json.isSpace_of_mem (blank c member)
  have found : ofEvidence (source.toList ++ blanks.toList) = ofEvidence source.toList := by
    have same : ∀ language : Language,
        language.evidence.score (source.toList ++ blanks.toList) = language.evidence.score source.toList :=
      fun language => Evidence.score_append blank language.settled_evidence source.toList
    simp only [ofEvidence, Scores.mk.injEq]
    exact ⟨same .html, same .css, same .js, same .ts, same .json⟩
  rw [ofSource, ofSource, String.toList_append, found, parsesAsJson_append nesting source spaces]

/-- Spaces, tabs and line feeds behind a source change nothing about what is found in it. -/
theorem detect_append :
    Scores.ofSource nesting (source ++ blanks) = Scores.ofSource nesting source ∧
      parsesAsJson nesting (source ++ blanks) = parsesAsJson nesting source ∧
      detect nesting (source ++ blanks) = detect nesting source := by
  have same := Scores.ofSource_append nesting source blank
  refine ⟨same, parsesAsJson_append nesting source fun c member => Json.isSpace_of_mem (blank c member), ?_⟩
  rw [detect_eq_verdict, detect_eq_verdict, same]

end

/-- The declaration has to end where its line ends, with blanks allowed behind the semicolon. -/
theorem detect_append_of_declaration :
    let nesting := Json.standardNesting
    let blanks := " \t\n\n "
    (∀ c ∈ blanks.toList, c ∈ trailingBlanks) ∧
      Scores.ofSource nesting ("margin: 4px;" ++ blanks) = .ok ⟨0, 7, 1, 0, 0⟩ ∧
      detect nesting ("margin: 4px;" ++ blanks) = .ok ⟨some .css, .medium⟩ := by
  intro nesting blanks
  have inside : blanks.toList ⊆ trailingBlanks := by decide +kernel
  have blank : ∀ c ∈ blanks.toList, c ∈ trailingBlanks := fun c member => inside member
  have scored : Scores.ofSource nesting "margin: 4px;" = .ok ⟨0, 7, 1, 0, 0⟩ := by decide +kernel
  have detected : detect nesting "margin: 4px;" = .ok ⟨some .css, .medium⟩ := by decide +kernel
  obtain ⟨scores, -, verdict⟩ := detect_append nesting "margin: 4px;" blank
  exact ⟨blank, scores.trans scored, verdict.trans detected⟩

end CodeColor
