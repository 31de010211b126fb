import CodeColor.Proofs.Detection.Verdict
import CodeColor.Proofs.Service.Naming

/-!
Highlighting without a language. It goes by the verdict that detection gives on the same code: it refuses what is
in no language that can be told, and answers anything else as if the detected language had been named.

Main statement: `highlighting_follows_detection`.
-/

namespace CodeColor

namespace Service

/-! ## Submissions without a language -/

/-- No language is given, or null, or a name of which nothing is left in lower case and without white space
around it. -/
def LanguageBlank (submission : Json) : Prop :=
  ∀ value, submission.field? "language" = some value →
    value = .null ∨ ∃ name, value = .string name ∧ Text.trim (Text.lower name.toList) = []

def EscapeSound (submission : Json) : Prop :=
  ∀ value, submission.field? "escape" = some value → ∃ flag, value = .bool flag

theorem readLanguage_blank {submission : Json} (blank : LanguageBlank submission) :
    readLanguage submission = .ok "" := by
  unfold readLanguage
  split
  next => rfl
  next => rfl
  next name given =>
    obtain same | ⟨other, same, empty⟩ := blank _ given
    · cases same
    · cases same
      rw [languageKey_eq_empty.2 (Text.trim_lower_eq_nil.1 empty)]
  next value no_null no_text given =>
    obtain rfl | ⟨name, rfl, -⟩ := blank value given
    · exact absurd rfl no_null
    · exact absurd rfl (no_text name)

theorem readEscaped_of_sound {submission : Json} (sound : EscapeSound submission) :
    ∃ escaped, readEscaped submission = .ok escaped := by
  unfold readEscaped
  split
  next => exact ⟨true, rfl⟩
  next flag _ => exact ⟨flag, rfl⟩
  next value no_flag given =>
    obtain ⟨flag, rfl⟩ := sound value given
    exact absurd rfl (no_flag flag)

/-! ## The two endpoints -/

def detectedResponse (language confidence : String) (scores : Json) : Response :=
  ⟨200, .json (.object
    [("detected_language", .string language), ("confidence", .string confidence), ("scores", scores)])⟩

section

variable {host : Host} {bodyNesting : Nat} (documented : host.Documented bodyNesting) {body? : Option Body}
  {limit : Int} {submission : Json} {code : String}
include documented

theorem submitsCode_of_text (text : (host.field? body? "code").bind Json.string? = some code)
    (some_text : isBlankText code = false) : SubmitsCode host bodyNesting body? code := by
  obtain ⟨submission, given, field⟩ := Host.field?_eq_some.1 (eq_some_string text)
  exact ⟨(field?_submitted documented given).1 field, isBlankText_eq_false.1 some_text⟩

theorem exists_submission (submits : SubmitsCode host bodyNesting body? code) :
    ∃ submission, host.submitted body? = .ok submission := by
  obtain ⟨⟨members, object, -⟩, -⟩ := submits
  exact ⟨_, submitted_object documented object⟩

theorem answer_detect (submits : SubmitsCode host bodyNesting body? code) (short : (code.length : Int) ≤ limit) :
    (Json.Overflows host.nesting code.toList → answer host (detectRequest body? limit) = failureResponse host) ∧
      ∀ explanation, explain host.nesting code = .ok explanation →
        answer host (detectRequest body? limit) =
          detectedResponse explanation.verdict.languageName explanation.verdict.confidence.name
            explanation.scores.toJson := by
  obtain ⟨submission, given⟩ := exists_submission documented submits
  have read := (readCode_submitted_eq_ok documented given).2 ⟨submits, short⟩
  exact ⟨answer_detect_tooDeep documented given read, fun _ => answer_detect_accepted documented given read⟩

theorem highlightSubmission_blank (submits : SubmitsCode host bodyNesting body? code)
    (short : (code.length : Int) ≤ limit) (given : host.submitted body? = .ok submission)
    (blank : LanguageBlank submission) (sound : EscapeSound submission) :
    ∃ escaped, highlightSubmission limit host.nesting submission = highlightWith host.nesting ⟨"", escaped⟩ code := by
  obtain ⟨escaped, escaped_read⟩ := readEscaped_of_sound sound
  have code_read := (readCode_submitted_eq_ok documented given).2 ⟨submits, short⟩
  have options_read : readOptions submission = .ok ⟨"", escaped⟩ :=
    readOptions_eq_ok.2 ⟨readLanguage_blank blank, escaped_read⟩
  refine ⟨escaped, ?_⟩
  simp only [highlightSubmission, code_read, options_read]

end

theorem highlightWith_overflows {nesting : Nat} {escaped : Bool} {code : String}
    (overflows : Json.Overflows nesting code.toList) :
    (highlightWith nesting ⟨"", escaped⟩ code = .error (.unread .tooDeep)) ∨
      ¬ Json.Overflows (nesting + 1) code.toList ∧ ∃ highlighted,
        highlightWith nesting ⟨"", escaped⟩ code = .ok highlighted := by
  rw [highlightWith, if_pos rfl]
  by_cases deeper : Json.Overflows (nesting + 1) code.toList
  · rw [detect_eq_tooDeep_iff.2 deeper]
    exact .inl rfl
  · obtain ⟨scores, scored⟩ := Scores.exists_ofSource deeper
    rw [detect_eq_ok.2 ⟨scores, scored, rfl⟩]
    rcases scores.verdict_cases with unknown | ⟨language, confidence, known, -⟩
    · rw [unknown]
      refine .inl ?_
      simp only [Verdict.unknown, refuseUnknown, explain_eq_tooDeep overflows]
    · rw [known]
      simp only [highlightAs_eq_ok]
      exact .inr ⟨deeper, _, rfl⟩

theorem highlightWith_explained {nesting : Nat} {escaped : Bool} {code : String} {scores : Scores}
    (explained : explain nesting code = .ok ⟨scores.verdict, scores⟩)
    (detected : detect (nesting + 1) code = .ok scores.verdict) :
    (scores.verdict = .unknown ∧
      highlightWith nesting ⟨"", escaped⟩ code = .error (.refused (.languageUnknown scores))) ∨
      ∃ language confidence highlighted, scores.verdict = ⟨some language, confidence⟩ ∧ confidence ≠ .none ∧
        highlightWith nesting ⟨"", escaped⟩ code = .ok highlighted ∧ highlighted.language = language.name ∧
        highlighted.confidence = confidence.name := by
  rw [highlightWith, if_pos rfl, detected]
  rcases scores.verdict_cases with unknown | ⟨language, confidence, known, some_confidence⟩
  · refine .inl ⟨unknown, ?_⟩
    rw [unknown] at explained ⊢
    simp only [Verdict.unknown, refuseUnknown, explained]
  · rw [known]
    exact .inr ⟨language, confidence, _, rfl, some_confidence, highlightAs_eq_ok _ _ _ _, rfl, rfl⟩

/-- Without a language, highlighting agrees with what detection answers for the same code. Where that knows no
language, the code is refused with the same scores; where it knows one, the answer names it with the same
confidence, and is otherwise that to the same submission with this language. Code that is nested too deeply for
detection has no answer to it, and with one level more it has none to highlighting. -/
theorem highlighting_follows_detection {host : Host} {bodyNesting : Nat} (documented : host.Documented bodyNesting)
    {body? other? : Option Body} {limit otherLimit : Int} {code : String} {submission : Json}
    (submits : SubmitsCode host bodyNesting body? code) (short : (code.length : Int) ≤ limit)
    (others : SubmitsCode host bodyNesting other? code) (short' : (code.length : Int) ≤ otherLimit)
    (given : host.submitted body? = .ok submission) (blank : LanguageBlank submission)
    (sound : EscapeSound submission) :
    let detected := answer host (detectRequest other? otherLimit)
    let highlighted := answer host (highlightRequest body? limit)
    (¬ Json.Overflows host.nesting code.toList →
      ∃ language confidence scores,
        detected = detectedResponse language confidence scores ∧
        (highlighted.status = 422 ↔ language = "unknown") ∧
        (language = "unknown" →
          highlighted =
            errorResponse 422 ("Could not auto-detect the language. " ++
              "Please select HTML, CSS, JavaScript, TypeScript or JSON explicitly.") [("scores", scores)]) ∧
        (language ≠ "unknown" →
          confidence ∈ ["high", "medium", "low"] ∧
          ∃ html tokens stats,
            highlighted = highlightedResponse language confidence html tokens stats ∧
            ∀ named? second, host.submitted named? = .ok second → Renames submission second language →
              answer host (highlightRequest named? limit) =
                highlightedResponse language "user-specified" html tokens stats)) ∧
      (Json.Overflows host.nesting code.toList →
        detected = failureResponse host ∧ (highlighted = failureResponse host ∨ highlighted.status = 200)) ∧
      (Json.Overflows (host.nesting + 1) code.toList → highlighted = failureResponse host) := by
  intro detected highlighted
  obtain ⟨escaped, whole⟩ := highlightSubmission_blank documented submits short given blank sound
  obtain ⟨undetected, explained⟩ := answer_detect documented others short'
  have failed (unread : highlightWith host.nesting ⟨"", escaped⟩ code = .error (.unread .tooDeep)) :
      highlighted = failureResponse host :=
    answer_highlight_failed documented given (whole.trans unread)
  refine ⟨?_, ?_, ?_⟩
  · intro shallow
    rcases explain_cases host.nesting code with ⟨overflows, -⟩ | ⟨-, scores, -, explanation, verdict⟩
    · exact absurd overflows shallow
    refine ⟨_, _, _, explained _ explanation, ?_⟩
    obtain ⟨unknown, refused⟩ | ⟨language, confidence, result, known, some_confidence, found, named, sure⟩ :=
      highlightWith_explained explanation verdict
    · have response : highlighted = respond host (.error (.refused (.languageUnknown scores))) :=
        answer_highlight_failed documented given (whole.trans refused)
      rw [unknown, response]
      exact ⟨iff_of_true rfl rfl, fun _ => rfl, fun other => absurd rfl other⟩
    · have response : highlighted = ⟨200, .json result.toJson⟩ :=
        answer_highlight_accepted documented given (whole.trans found)
      have accepted : (200 : Nat) ≠ 422 := by decide
      have told := language.name_ne_unknown
      rw [known, response]
      refine ⟨iff_of_false accepted told, fun same => absurd same told, fun _ => ?_⟩
      refine ⟨Confidence.name_mem some_confidence, .string result.markup, .array (result.tokens.map Token.toJson),
        countsToJson (countByType result.tokens), ?_, ?_⟩
      · change _ = highlightedResponse language.name confidence.name _ _ _
        rw [← named, ← sure]
        rfl
      · intro named? second also renames
        have again : Renames submission second result.language := named ▸ renames
        change _ = highlightedResponse language.name _ _ _ _
        rw [← named]
        exact answer_highlight_accepted documented also (highlightSubmission_again (whole.trans found) again)
  · intro overflows
    refine ⟨undetected overflows, ?_⟩
    rcases highlightWith_overflows overflows with unread | ⟨-, result, found⟩
    · exact .inl (failed unread)
    · refine .inr ?_
      have response : highlighted = _ := answer_highlight_accepted documented given (whole.trans found)
      rw [response]
  · intro overflows
    rcases highlightWith_overflows (overflows.mono (Nat.le_succ _)) with unread | ⟨shallow, -⟩
    · exact failed unread
    · exact absurd overflows shallow

/-- A comment under a blank name, and a word without a name. -/
theorem highlighting_follows_detection_of_comment :
    let body (code options : String) : Option Body :=
      some ⟨"application/json", "\x7b\"code\": \"" ++ code ++ "\"" ++ options ++ "\x7d"⟩
    let comment := body "<!-- a" ", \"language\": \"\u3000\""
    let named := body "<!-- a" ", \"language\": \"html\""
    let word := body "a" ""
    (∃ scores html tokens stats,
      answer localHost (detectRequest comment 6) = detectedResponse "html" "medium" scores ∧
      answer localHost (highlightRequest comment 7) = highlightedResponse "html" "medium" html tokens stats ∧
      answer localHost (highlightRequest named 7) =
        highlightedResponse "html" "user-specified" html tokens stats) ∧
    ∃ scores,
      answer localHost (detectRequest word 1) = detectedResponse "unknown" "none" scores ∧
      answer localHost (highlightRequest word 1) =
        errorResponse 422 ("Could not auto-detect the language. " ++
          "Please select HTML, CSS, JavaScript, TypeScript or JSON explicitly.") [("scores", scores)] := by
  intro body comment named word
  have code : ∀ part ∈ [(comment, "<!-- a"), (named, "<!-- a"), (word, "a")],
      (localHost.field? part.1 "code").bind Json.string? = some part.2 := by
    decide +kernel
  have language : ∀ part ∈ [(comment, "\u3000"), (named, "html")],
      (localHost.field? part.1 "language").bind Json.string? = some part.2 := by
    decide +kernel
  have no_language : (localHost.field? word "language").isNone = true := by decide +kernel
  have no_escape : ∀ part ∈ [comment, named, word], (localHost.field? part "escape").isNone = true := by
    decide +kernel
  have detected : ∀ part ∈ [("detected_language", "html"), ("confidence", "medium")],
      (answer localHost (detectRequest comment 6)).text? part.1 = some part.2 := by
    decide +kernel
  have undetected : ∀ part ∈ [("detected_language", "unknown"), ("confidence", "none")],
      (answer localHost (detectRequest word 1)).text? part.1 = some part.2 := by
    decide +kernel
  simp only [List.forall_mem_cons, List.not_mem_nil, false_implies, implies_true, and_true,
    Option.isNone_iff_eq_none] at code language no_language no_escape detected undetected
  constructor
  · have submits : SubmitsCode localHost Json.standardNesting comment "<!-- a" :=
      submitsCode_of_text localHost_documented code.1 (by decide)
    obtain ⟨first, given, -⟩ := Host.field?_eq_some.1 (eq_some_string code.1)
    obtain ⟨second, also, -⟩ := Host.field?_eq_some.1 (eq_some_string code.2.1)
    rw [Host.field?_eq given, Host.field?_eq also] at code no_escape language
    have blank : LanguageBlank first := by
      intro value field
      rw [eq_some_string language.1] at field
      cases field
      exact .inr ⟨_, rfl, by decide +kernel⟩
    have sound : EscapeSound first := by
      intro value field
      rw [no_escape.1] at field
      cases field
    have renames : Renames first second "html" := by
      constructor
      · rw [eq_some_string code.1, eq_some_string code.2.1]
      · rw [no_escape.1, no_escape.2.1]
      · exact eq_some_string language.2
    have short : ("<!-- a".length : Int) ≤ 7 := by decide
    have short' : ("<!-- a".length : Int) ≤ 6 := by decide
    have shallow : ¬ Json.Overflows localHost.nesting "<!-- a".toList := by
      rw [← Json.parsesAsJson_eq_tooDeep_iff]
      decide +kernel
    obtain ⟨found, confidence, scores, answered, -, -, followed⟩ :=
      (highlighting_follows_detection localHost_documented submits short submits short' given blank sound).1 shallow
    rw [answered] at detected
    cases detected.1
    cases detected.2
    obtain ⟨-, html, tokens, stats, highlighted, again⟩ := followed (by decide)
    exact ⟨scores, html, tokens, stats, answered, highlighted, again named second also renames⟩
  · have submits : SubmitsCode localHost Json.standardNesting word "a" :=
      submitsCode_of_text localHost_documented code.2.2 (by decide)
    obtain ⟨submission, given, -⟩ := Host.field?_eq_some.1 (eq_some_string code.2.2)
    rw [Host.field?_eq given] at no_language no_escape
    have blank : LanguageBlank submission := by
      intro value field
      rw [no_language] at field
      cases field
    have sound : EscapeSound submission := by
      intro value field
      rw [no_escape.2.2] at field
      cases field
    have short : ("a".length : Int) ≤ 1 := by decide
    have shallow : ¬ Json.Overflows localHost.nesting "a".toList := by
      rw [← Json.parsesAsJson_eq_tooDeep_iff]
      decide +kernel
    obtain ⟨found, confidence, scores, answered, -, refused, -⟩ :=
      (highlighting_follows_detection localHost_documented submits short submits short given blank sound).1 shallow
    rw [answered] at undetected
    cases undetected.1
    cases undetected.2
    exact ⟨scores, answered, refused rfl⟩

/-- A thousand brackets are let in, and have no answer to detection nor, without a language, to highlighting. -/
theorem neither_endpoint_answers_brackets :
    let code := String.ofList (List.replicate 1000 '[')
    let body := some (codeBody code)
    SubmitsCode localHost Json.standardNesting body code ∧ (code.length : Int) ≤ standardLimit ∧
      (∃ submission, localHost.submitted body = .ok submission ∧ LanguageBlank submission ∧ EscapeSound submission) ∧
      (answer localHost (detectRequest body standardLimit)).status = 500 ∧
      (answer localHost (highlightRequest body standardLimit)).status = 500 := by
  intro code body
  have submits : SubmitsCode localHost Json.standardNesting body code := submitsCode_brackets localHost_documented 999
  have short : (code.length : Int) ≤ standardLimit := by
    rw [String.length_ofList, List.length_replicate]
    decide
  have overflows : Json.Overflows localHost.nesting code.toList := Json.overflows_replicate (by decide)
  have deeper : Json.Overflows (localHost.nesting + 1) code.toList := Json.overflows_replicate (by decide)
  have given : localHost.submitted body = .ok (.object [("code", .string code)]) :=
    submitted_object localHost_documented (submits_brackets localHost_documented 1000)
  have blank : LanguageBlank (.object [("code", .string code)]) := fun _ field => by cases field
  have sound : EscapeSound (.object [("code", .string code)]) := fun _ field => by cases field
  obtain ⟨escaped, whole⟩ := highlightSubmission_blank localHost_documented submits short given blank sound
  refine ⟨submits, short, ⟨_, given, blank, sound⟩, ?_, ?_⟩
  · rw [(answer_detect localHost_documented submits short).1 overflows]
    rfl
  · rcases highlightWith_overflows overflows with unread | ⟨shallow, -⟩
    · rw [answer_highlight_failed localHost_documented given (whole.trans unread)]
      rfl
    · exact absurd deeper shallow

end Service

end CodeColor
