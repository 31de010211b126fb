import CodeColor.Proofs.Detection.Judgement
import CodeColor.Proofs.Service.Body
import CodeColor.Proofs.Service.Highlighted

/-!
Which submissions are let in. Detection and highlighting refuse the same ones, in the same words, and what
highlighting asks beyond that is its two options.

Main statement: `endpoints_share_gate`.
-/

namespace CodeColor

namespace Service

/-! ## The options -/

/-- A language is given that is neither null nor text. -/
def LanguageFaulty (members : List (String × Json)) : Prop :=
  ∃ value, Json.Gives members "language" value ∧ value ≠ .null ∧ ∀ name, value ≠ .string name

/-- An escape flag is given that is no flag. -/
def EscapeFaulty (members : List (String × Json)) : Prop :=
  ∃ value, Json.Gives members "escape" value ∧ ∀ flag, value ≠ .bool flag

theorem readLanguage_faulty {members : List (String × Json)} (faulty : LanguageFaulty members) :
    readLanguage (.object members) = .error .languageNotText := by
  obtain ⟨value, gives, some_value, no_text⟩ := faulty
  have field : (Json.object members).field? "language" = some value := Json.member?_eq_some.2 gives
  unfold readLanguage
  rw [field]
  cases value with
  | null => exact absurd rfl some_value
  | string name => exact absurd rfl (no_text name)
  | _ => rfl

theorem readLanguage_sound {members : List (String × Json)} (sound : ¬ LanguageFaulty members) :
    ∃ language, readLanguage (.object members) = .ok language := by
  unfold readLanguage
  split
  next => exact ⟨_, rfl⟩
  next => exact ⟨_, rfl⟩
  next => exact ⟨_, rfl⟩
  next value no_null no_text found =>
    refine absurd ⟨value, Json.member?_eq_some.1 found, ?_, ?_⟩ sound
    · rintro rfl
      exact no_null rfl
    · rintro name rfl
      exact no_text name rfl

theorem readEscaped_faulty {members : List (String × Json)} (faulty : EscapeFaulty members) :
    readEscaped (.object members) = .error .escapeNotFlag := by
  obtain ⟨value, gives, no_flag⟩ := faulty
  have field : (Json.object members).field? "escape" = some value := Json.member?_eq_some.2 gives
  unfold readEscaped
  rw [field]
  cases value with
  | bool flag => exact absurd rfl (no_flag flag)
  | _ => rfl

theorem readEscaped_sound {members : List (String × Json)} (sound : ¬ EscapeFaulty members) :
    ∃ escaped, readEscaped (.object members) = .ok escaped := by
  unfold readEscaped
  split
  next => exact ⟨_, rfl⟩
  next => exact ⟨_, rfl⟩
  next value no_flag found =>
    refine absurd ⟨value, Json.member?_eq_some.1 found, ?_⟩ sound
    rintro flag rfl
    exact no_flag flag rfl

theorem highlightWith_error {nesting : Nat} {options : Options} {code : String} {fault : Fault}
    (failed : highlightWith nesting options code = .error fault) :
    (∃ failure, fault = .unread failure) ∨ ∃ scores, fault = .refused (.languageUnknown scores) := by
  unfold highlightWith at failed
  split at failed
  next =>
    split at failed
    next failure _ =>
      cases failed
      exact .inl ⟨failure, rfl⟩
    next =>
      split at failed
      next =>
        cases failed
        unfold refuseUnknown
        split
        next explanation _ => exact .inr ⟨explanation.scores, rfl⟩
        next failure _ => exact .inl ⟨failure, rfl⟩
      next =>
        rw [highlightAs_eq_ok] at failed
        cases failed
  next =>
    rw [highlightAs_eq_ok] at failed
    cases failed

/-! ## The two endpoints -/

def detectRequest (body? : Option Body) (limit : Int) : Request :=
  ⟨"POST", "/api/detect", body?, limit⟩

def highlightRequest (body? : Option Body) (limit : Int) : Request :=
  ⟨"POST", "/api/highlight", body?, limit⟩

def failureResponse (host : Host) : Response := ⟨500, .page host.failurePage⟩

def emptyObject : Body := ⟨"application/json", "\x7b\x7d"⟩

section

variable {host : Host} {bodyNesting : Nat} (documented : host.Documented bodyNesting) {body? : Option Body}
  {limit : Int} {submission : Json} {code : String} {members : List (String × Json)}
include documented

theorem answer_detectRequest (body? : Option Body) (limit : Int) :
    answer host (detectRequest body? limit) = respond host (answerDetect host (detectRequest body? limit)) := by
  have routed : host.destination (detectRequest body? limit).method (detectRequest body? limit).path =
      ⟨.route .detect, false⟩ := documented.routed .detect
  rw [answer_routed routed, handle]

theorem answer_highlightRequest (body? : Option Body) (limit : Int) :
    answer host (highlightRequest body? limit) =
      respond host (answerHighlight host (highlightRequest body? limit)) := by
  have routed : host.destination (highlightRequest body? limit).method (highlightRequest body? limit).path =
      ⟨.route .highlight, false⟩ := documented.routed .highlight
  rw [answer_routed routed, handle]

theorem answers_tooDeep (deep : SubmitsTooDeep host bodyNesting body?) :
    answer host (detectRequest body? limit) = failureResponse host ∧
      answer host (highlightRequest body? limit) = failureResponse host := by
  rw [answer_detectRequest documented, answer_highlightRequest documented]
  have given := submitted_tooDeep documented deep
  constructor
  · simp only [answerDetect, detectRequest, given]
    rfl
  · simp only [answerHighlight, highlightRequest, given]
    rfl

section

variable (given : host.submitted body? = .ok submission)
include given

theorem answer_detect_submitted : answer host (detectRequest body? limit) =
    respond host ((detectSubmission limit host.nesting submission).map Explanation.toJson) := by
  rw [answer_detectRequest documented]
  simp only [answerDetect, detectRequest, given]

theorem answer_highlight_submitted : answer host (highlightRequest body? limit) =
    respond host ((highlightSubmission limit host.nesting submission).map Highlighted.toJson) := by
  rw [answer_highlightRequest documented]
  simp only [answerHighlight, highlightRequest, given]

theorem answers_refused {refusal : Refusal} (refused : readCode limit submission = .error refusal) :
    answer host (detectRequest body? limit) = refusal.response ∧
      answer host (highlightRequest body? limit) = refusal.response := by
  rw [answer_detect_submitted documented given, answer_highlight_submitted documented given]
  simp only [detectSubmission, highlightSubmission, refused]
  exact ⟨rfl, rfl⟩

theorem answer_detect_accepted (read : readCode limit submission = .ok code) {explanation : Explanation}
    (explained : explain host.nesting code = .ok explanation) :
    answer host (detectRequest body? limit) = ⟨200, .json explanation.toJson⟩ := by
  rw [answer_detect_submitted documented given]
  simp only [detectSubmission, read, explained]
  rfl

theorem answer_detect_tooDeep (read : readCode limit submission = .ok code)
    (overflows : Json.Overflows host.nesting code.toList) :
    answer host (detectRequest body? limit) = failureResponse host := by
  rw [answer_detect_submitted documented given]
  simp only [detectSubmission, read, explain_eq_tooDeep overflows]
  rfl

theorem answer_highlight_accepted {highlighted : Highlighted}
    (found : highlightSubmission limit host.nesting submission = .ok highlighted) :
    answer host (highlightRequest body? limit) = ⟨200, .json highlighted.toJson⟩ := by
  rw [answer_highlight_submitted documented given, found]
  rfl

theorem answer_highlight_failed {fault : Fault}
    (failed : highlightSubmission limit host.nesting submission = .error fault) :
    answer host (highlightRequest body? limit) = respond host (.error fault) := by
  rw [answer_highlight_submitted documented given, failed]
  rfl

theorem answer_highlight_refused {refusal : Refusal} (read : readCode limit submission = .ok code)
    (refused : readOptions submission = .error refusal) :
    answer host (highlightRequest body? limit) = refusal.response := by
  have failed : highlightSubmission limit host.nesting submission = .error (.refused refusal) := by
    simp only [highlightSubmission, read, refused]
  rw [answer_highlight_failed documented given failed]
  rfl

end

theorem detect_status (body? : Option Body) (limit : Int) :
    (SubmitsTooDeep host bodyNesting body? ∧ (answer host (detectRequest body? limit)).status = 500) ∨
      ∃ submission, host.submitted body? = .ok submission ∧ ¬ SubmitsTooDeep host bodyNesting body? ∧
        ((∃ code, readCode limit submission = .ok code ∧
            ((Json.Overflows host.nesting code.toList ∧ (answer host (detectRequest body? limit)).status = 500) ∨
              (¬ Json.Overflows host.nesting code.toList ∧
                (answer host (detectRequest body? limit)).status = 200))) ∨
          (readCode limit submission = .error (.codeTooLong limit) ∧
            (answer host (detectRequest body? limit)).status = 413) ∨
          ∃ refusal, readCode limit submission = .error refusal ∧ refusal ≠ .codeTooLong limit ∧
            (answer host (detectRequest body? limit)).status = 400) := by
  rcases submitted_cases documented body? with ⟨submission, given, shallow⟩ | ⟨-, deep⟩
  · refine .inr ⟨submission, given, shallow, ?_⟩
    cases read : readCode limit submission with
    | ok code =>
      refine .inl ⟨code, rfl, ?_⟩
      rcases explain_cases host.nesting code with ⟨overflows, -⟩ | ⟨bounded, scores, -, explained, -⟩
      · exact .inl ⟨overflows, by rw [answer_detect_tooDeep documented given read overflows]; rfl⟩
      · exact .inr ⟨bounded, by rw [answer_detect_accepted documented given read explained]⟩
    | error refusal =>
      have refused := (answers_refused documented given read).1
      rcases readCode_error read with rfl | bad
      · exact .inr (.inl ⟨rfl, by rw [refused]; rfl⟩)
      · refine .inr (.inr ⟨refusal, rfl, ?_, by rw [refused]; exact bad⟩)
        rintro rfl
        cases bad
  · exact .inl ⟨deep, by rw [(answers_tooDeep documented deep).1]; rfl⟩

theorem submitted_emptyObject : host.submitted (some emptyObject) = .ok (.object []) := by
  have read : Json.readSent bodyNesting emptyObject.text.toList = .ok (.object []) := by
    obtain ⟨nesting, rfl⟩ := Nat.exists_eq_succ_of_ne_zero (Nat.ne_of_gt documented.body_room)
    rfl
  exact submitted_object documented ⟨emptyObject, rfl, jsonType_bare documented, read⟩

theorem answers_void (shallow : ¬ SubmitsTooDeep host bodyNesting body?)
    (void : ∀ value, Submits host bodyNesting body? value → value.isVoid = true) :
    answer host (detectRequest body? limit) = answer host (detectRequest (some emptyObject) limit) ∧
      answer host (highlightRequest body? limit) = answer host (highlightRequest (some emptyObject) limit) := by
  have refused : readCode limit (.object []) = .error .codeBlank := rfl
  have given := answers_refused documented (submitted_void documented shallow void) refused
  have empty := answers_refused documented (submitted_emptyObject documented) refused
  exact ⟨given.1.trans empty.1.symm, given.2.trans empty.2.symm⟩

section

variable (submits : Submits host bodyNesting body? (.object members))
  (read : readCode limit (.object members) = .ok code)
include submits read

theorem answer_highlight_faulty_language (faulty : LanguageFaulty members) :
    answer host (highlightRequest body? limit) = errorResponse 400 "Field \x27language\x27 must be a string" [] := by
  have refused : readOptions (.object members) = .error .languageNotText := by
    rw [readOptions, readLanguage_faulty faulty]
  exact answer_highlight_refused documented (submitted_object documented submits) read refused

theorem answer_highlight_faulty_escape (faulty : EscapeFaulty members) (sound : ¬ LanguageFaulty members) :
    answer host (highlightRequest body? limit) = errorResponse 400 "Field \x27escape\x27 must be a boolean" [] := by
  obtain ⟨language, found⟩ := readLanguage_sound sound
  have refused : readOptions (.object members) = .error .escapeNotFlag := by
    rw [readOptions, found]
    dsimp only
    rw [readEscaped_faulty faulty]
  exact answer_highlight_refused documented (submitted_object documented submits) read refused

theorem answer_highlight_sound (language_sound : ¬ LanguageFaulty members) (escape_sound : ¬ EscapeFaulty members) :
    (answer host (highlightRequest body? limit)).status ∈ [200, 422, 500] := by
  obtain ⟨language, language_read⟩ := readLanguage_sound language_sound
  obtain ⟨escaped, escaped_read⟩ := readEscaped_sound escape_sound
  have options : readOptions (.object members) = .ok ⟨language, escaped⟩ :=
    readOptions_eq_ok.2 ⟨language_read, escaped_read⟩
  have given := submitted_object documented submits
  have found : highlightSubmission limit host.nesting (.object members) =
      highlightWith host.nesting ⟨language, escaped⟩ code := by
    simp only [highlightSubmission, read, options]
  cases result : highlightWith host.nesting ⟨language, escaped⟩ code with
  | ok highlighted =>
    rw [answer_highlight_accepted documented given (found.trans result)]
    exact List.mem_cons_self
  | error fault =>
    rw [answer_highlight_failed documented given (found.trans result)]
    rcases highlightWith_error result with ⟨failure, rfl⟩ | ⟨scores, rfl⟩
    · simp [respond]
    · simp [respond, Refusal.response, errorResponse, Refusal.status]

theorem highlight_status :
    (answer host (highlightRequest body? limit)).status ≠ 413 ∧
      ((answer host (highlightRequest body? limit)).status = 400 ↔
        LanguageFaulty members ∨ EscapeFaulty members) := by
  by_cases language : LanguageFaulty members
  · rw [answer_highlight_faulty_language documented submits read language]
    simp [errorResponse, language]
  · by_cases escape : EscapeFaulty members
    · rw [answer_highlight_faulty_escape documented submits read escape language]
      simp [errorResponse, escape]
    · have status := answer_highlight_sound documented submits read language escape
      simp only [List.mem_cons, List.not_mem_nil, or_false] at status
      rcases status with status | status | status
      all_goals simp [status, language, escape]

end

end

/-- One gate lets submissions in at both endpoints: a body that counts as JSON, holds an object, and has code
in it that is not blank and not longer than the limit. What the gate refuses, both refuse alike. Of what it lets
in, detection answers all but what is nested too deeply, and highlighting refuses only a language that is no text, and
after that an escape flag that is no flag. -/
theorem endpoints_share_gate {host : Host} {bodyNesting : Nat} (documented : host.Documented bodyNesting)
    (body? : Option Body) (limit : Int) :
    let detected := answer host (detectRequest body? limit)
    let highlighted := answer host (highlightRequest body? limit)
    let passes (code : String) : Prop := SubmitsCode host bodyNesting body? code ∧ (code.length : Int) ≤ limit
    (detected.status = 200 ↔ ∃ code, passes code ∧ ¬ Json.Overflows host.nesting code.toList) ∧
      (detected.status = 413 ↔ ∃ code, SubmitsCode host bodyNesting body? code ∧ limit < (code.length : Int)) ∧
      (detected.status = 500 ↔
        SubmitsTooDeep host bodyNesting body? ∨ ∃ code, passes code ∧ Json.Overflows host.nesting code.toList) ∧
      detected.status ∈ [200, 413, 500, 400] ∧
      (¬ SubmitsTooDeep host bodyNesting body? →
        (∀ value, Submits host bodyNesting body? value → value.isVoid = true) →
          detected = answer host (detectRequest (some emptyObject) limit) ∧
            highlighted = answer host (highlightRequest (some emptyObject) limit)) ∧
      ((¬ ∃ code, passes code) → highlighted = detected) ∧
      ((∃ code, passes code) → highlighted.status ≠ 413 ∧
        ∀ members, Submits host bodyNesting body? (.object members) →
          (highlighted.status = 400 ↔ LanguageFaulty members ∨ EscapeFaulty members) ∧
          (LanguageFaulty members →
            highlighted = errorResponse 400 "Field \x27language\x27 must be a string" []) ∧
          (EscapeFaulty members → ¬ LanguageFaulty members →
            highlighted = errorResponse 400 "Field \x27escape\x27 must be a boolean" [])) := by
  intro detected highlighted passes
  have accepted : (∃ code, passes code) → highlighted.status ≠ 413 ∧
      ∀ members, Submits host bodyNesting body? (.object members) →
        (highlighted.status = 400 ↔ LanguageFaulty members ∨ EscapeFaulty members) ∧
        (LanguageFaulty members → highlighted = errorResponse 400 "Field \x27language\x27 must be a string" []) ∧
        (EscapeFaulty members → ¬ LanguageFaulty members →
          highlighted = errorResponse 400 "Field \x27escape\x27 must be a boolean" []) := by
    rintro ⟨code, passed⟩
    have read {members : List (String × Json)} (submits : Submits host bodyNesting body? (.object members)) :
        readCode limit (.object members) = .ok code :=
      (readCode_submitted_eq_ok documented (submitted_object documented submits)).2 passed
    obtain ⟨⟨⟨members, submits, -⟩, -⟩, -⟩ := passed
    refine ⟨(highlight_status documented submits (read submits)).1, fun members submits => ?_⟩
    exact ⟨(highlight_status documented submits (read submits)).2,
      answer_highlight_faulty_language documented submits (read submits),
      answer_highlight_faulty_escape documented submits (read submits)⟩
  rcases detect_status documented body? limit with ⟨deep, status⟩ | ⟨submission, given, shallow, outcome⟩
  · have none (code : String) : ¬ SubmitsCode host bodyNesting body? code := by
      rintro ⟨⟨members, submits, -⟩, -⟩
      exact submits.not_tooDeep deep
    have both : detected = failureResponse host ∧ highlighted = failureResponse host := answers_tooDeep documented deep
    refine ⟨?_, ?_, ?_, ?_, answers_void documented, fun _ => both.2.trans both.1.symm, accepted⟩
    all_goals simp [detected, passes, status, none, deep]
  · have passed (code : String) : passes code ↔ readCode limit submission = .ok code :=
      (readCode_submitted_eq_ok documented given).symm
    simp only [passed, ← readCode_submitted_eq_tooLong documented given] at accepted ⊢
    rcases outcome with ⟨code, read, ⟨overflows, status⟩ | ⟨bounded, status⟩⟩ | ⟨read, status⟩ |
      ⟨refusal, read, other, status⟩
    · refine ⟨?_, ?_, ?_, ?_, answers_void documented, ?_, accepted⟩
      all_goals simp [detected, status, read, overflows]
    · refine ⟨?_, ?_, ?_, ?_, answers_void documented, ?_, accepted⟩
      all_goals simp [detected, status, read, bounded, shallow]
    · have both := answers_refused documented given read
      refine ⟨?_, ?_, ?_, ?_, answers_void documented, fun _ => both.2.trans both.1.symm, accepted⟩
      all_goals simp [detected, status, read, shallow]
    · have both := answers_refused documented given read
      refine ⟨?_, ?_, ?_, ?_, answers_void documented, fun _ => both.2.trans both.1.symm, accepted⟩
      all_goals simp [detected, status, read, shallow, other]

/-- Blank code is refused with both options at fault, and without the blank the language is. -/
theorem endpoints_share_gate_on_faulty_options :
    let body (code : String) : Body :=
      ⟨"application/problem+json; charset=utf-8",
        "\x7b\"code\": 1, \"language\": [], \"escape\": null, \"code\": \"" ++ code ++ "\"\x7d"⟩
    localHost.Documented Json.standardNesting ∧
      answer localHost (highlightRequest (body " ") 1) = answer localHost (detectRequest (body " ") 1) ∧
      (answer localHost (detectRequest (body " ") 1)).status = 400 ∧
      (answer localHost (detectRequest (body "ab") 1)).status = 413 ∧
      (answer localHost (detectRequest (body "a") 1)).status = 200 ∧
      answer localHost (highlightRequest (body "a") 1) =
        errorResponse 400 "Field \x27language\x27 must be a string" [] := by
  intro body
  have blank : (answer localHost (detectRequest (body " ") 1)).status = 400 := by decide +kernel
  have long : (answer localHost (detectRequest (body "ab") 1)).status = 413 := by decide +kernel
  have accepted : (answer localHost (detectRequest (body "a") 1)).status = 200 := by decide +kernel
  have listed : ((localHost.field? (some (body "a")) "language").bind Json.items?).isSome = true := by decide +kernel
  obtain ⟨items, found⟩ := Option.isSome_iff_exists.1 listed
  obtain ⟨value, field, itemized⟩ := Option.bind_eq_some_iff.1 found
  obtain ⟨submission, given, field⟩ := Host.field?_eq_some.1 field
  obtain ⟨members, submits, gives⟩ := (field?_submitted localHost_documented given).1 field
  have faulty : LanguageFaulty members := by
    refine ⟨value, gives, ?_, ?_⟩
    · rintro rfl
      cases itemized
    · rintro name rfl
      cases itemized
  obtain ⟨letsIn, -, fails, -, -, refused, -⟩ := endpoints_share_gate localHost_documented (some (body " ")) 1
  obtain ⟨passed, -, -, -, -, -, options⟩ := endpoints_share_gate localHost_documented (some (body "a")) 1
  obtain ⟨code, passes, -⟩ := passed.1 accepted
  refine ⟨localHost_documented, refused ?_, blank, long, accepted, ((options ⟨code, passes⟩).2 _ submits).2.1 faulty⟩
  rintro ⟨code, passes⟩
  by_cases overflows : Json.Overflows localHost.nesting code.toList
  · exact absurd (blank.symm.trans (fails.2 (.inr ⟨code, passes, overflows⟩))) (by decide)
  · exact absurd (blank.symm.trans (letsIn.2 ⟨code, passes, overflows⟩)) (by decide)

/-- A thousand brackets are let in at the gate, and then detection fails. -/
theorem gate_passed_and_failed :
    let code := String.ofList (List.replicate 1000 '[')
    let body := some (codeBody code)
    SubmitsCode localHost Json.standardNesting body code ∧ (code.length : Int) ≤ standardLimit ∧
      (answer localHost (detectRequest body standardLimit)).status = 500 := by
  intro code body
  have submits : SubmitsCode localHost Json.standardNesting body code := submitsCode_brackets localHost_documented 999
  have short : (code.length : Int) ≤ standardLimit := by
    rw [String.length_ofList, List.length_replicate]
    decide
  have overflows : Json.Overflows localHost.nesting code.toList := Json.overflows_replicate (by decide)
  refine ⟨submits, short, ?_⟩
  have given := submitted_object localHost_documented (submits_brackets localHost_documented 1000)
  have read := (readCode_submitted_eq_ok localHost_documented given).2 ⟨submits, short⟩
  rw [answer_detect_tooDeep localHost_documented given read overflows]
  rfl

end Service

end CodeColor
