import CodeColor.Service.Routes

/-!
What a submission has to hold for it to be accepted.

Main statements: `readCode_eq_ok`, `readOptions_eq_ok` and `exists_highlighted`.
-/

namespace CodeColor.Service

theorem Refusal.status_ne (refusal : Refusal) : refusal.status ≠ 200 := by
  cases refusal <;> simp [Refusal.status]

theorem isBlankText_eq_false {source : String} :
    isBlankText source = false ↔ ∃ c ∈ source.toList, Text.isBlank c = false := by
  unfold isBlankText
  rw [List.all_eq_false]
  simp only [Bool.not_eq_true]

theorem readCode_eq_ok {limit : Int} {submission : Json} {code : String} :
    readCode limit submission = .ok code ↔
      submission.field? "code" = some (.string code) ∧ isBlankText code = false ∧
        (code.length : Int) ≤ limit := by
  cases submission with
  | object members =>
    have field : (Json.object members).field? "code" = Json.member? "code" members := rfl
    rw [field, readCode]
    cases Json.member? "code" members with
    | none => simp
    | some value =>
      cases value with
      | string given =>
        dsimp only
        constructor
        · intro read
          split at read
          next => cases read
          next some_text =>
            split at read
            next => cases read
            next short =>
              cases read
              exact ⟨rfl, Bool.eq_false_iff.2 some_text, by omega⟩
        · rintro ⟨same, some_text, short⟩
          cases same
          rw [if_neg (Bool.eq_false_iff.1 some_text), if_neg (by omega)]
      | _ => simp
  | _ => simp [readCode, Json.field?]

theorem readCode_eq_tooLong {limit : Int} {submission : Json} :
    readCode limit submission = .error (.codeTooLong limit) ↔
      ∃ code, submission.field? "code" = some (.string code) ∧ isBlankText code = false ∧
        limit < (code.length : Int) := by
  cases submission with
  | object members =>
    have field : (Json.object members).field? "code" = Json.member? "code" members := rfl
    rw [field, readCode]
    cases Json.member? "code" members with
    | none => simp
    | some value =>
      cases value with
      | string code =>
        dsimp only
        constructor
        · intro read
          split at read
          next => cases read
          next some_text =>
            split at read
            next long => exact ⟨code, rfl, Bool.eq_false_iff.2 some_text, long⟩
            next => cases read
        · rintro ⟨_, same, some_text, long⟩
          cases same
          rw [if_neg (Bool.eq_false_iff.1 some_text), if_pos long]
      | _ => simp
  | _ => simp [readCode, Json.field?]

theorem readCode_error {limit : Int} {submission : Json} {refusal : Refusal}
    (refused : readCode limit submission = .error refusal) :
    refusal = .codeTooLong limit ∨ refusal.status = 400 := by
  unfold readCode at refused
  split at refused
  next =>
    split at refused
    next =>
      cases refused
      exact .inr rfl
    next =>
      split at refused
      next =>
        cases refused
        exact .inr rfl
      next =>
        split at refused
        next =>
          cases refused
          exact .inl rfl
        next => cases refused
    next =>
      cases refused
      exact .inr rfl
  next =>
    cases refused
    exact .inr rfl

theorem readEscaped_eq_ok {submission : Json} {escaped : Bool} :
    readEscaped submission = .ok escaped ↔
      submission.field? "escape" = some (.bool escaped) ∨
        submission.field? "escape" = none ∧ escaped = true := by
  unfold readEscaped
  cases submission.field? "escape" with
  | none => simp [eq_comm]
  | some value => cases value <;> simp

theorem readOptions_eq_ok {submission : Json} {options : Options} :
    readOptions submission = .ok options ↔
      readLanguage submission = .ok options.language ∧ readEscaped submission = .ok options.escaped := by
  unfold readOptions
  cases readLanguage submission with
  | error refusal => simp
  | ok language =>
    cases readEscaped submission with
    | error refusal => simp
    | ok escaped =>
      obtain ⟨other, flag⟩ := options
      simp

theorem highlightSubmission_eq_ok {limit : Int} {nesting : Nat} {submission : Json} {highlighted : Highlighted} :
    highlightSubmission limit nesting submission = .ok highlighted ↔
      ∃ code options, readCode limit submission = .ok code ∧ readOptions submission = .ok options ∧
        highlightWith nesting options code = .ok highlighted := by
  unfold highlightSubmission
  cases readCode limit submission with
  | error refusal => simp
  | ok code =>
    cases readOptions submission with
    | error refusal => simp
    | ok options => simp

/-- The value that a request submits under the name. -/
def Host.field? (host : Host) (body? : Option Body) (name : String) : Option Json :=
  (host.submitted body?).toOption.bind fun submission => submission.field? name

theorem Host.field?_eq {host : Host} {body? : Option Body} {submission : Json}
    (given : host.submitted body? = .ok submission) (name : String) :
    host.field? body? name = submission.field? name := by
  rw [Host.field?, given]
  rfl

theorem Host.field?_eq_some {host : Host} {body? : Option Body} {name : String} {value : Json} :
    host.field? body? name = some value ↔
      ∃ submission, host.submitted body? = .ok submission ∧ submission.field? name = some value := by
  unfold Host.field?
  cases host.submitted body? <;> simp [Except.toOption]

theorem answer_routed {host : Host} {request : Request} {route : Route}
    (routed : host.destination request.method request.path = ⟨.route route, false⟩) :
    answer host request = handle host request (.route route) := by
  unfold answer
  simp only [routed, Bool.false_eq_true, ↓reduceIte]

theorem respond_accepted {host : Host} {result : Except Fault Json} (accepted : (respond host result).status = 200) :
    ∃ value, result = .ok value := by
  unfold respond at accepted
  split at accepted
  next value => exact ⟨value, rfl⟩
  next refusal => exact absurd accepted refusal.status_ne
  next => cases accepted
  next => cases accepted

theorem answerHighlight_eq_ok {host : Host} {request : Request} {value : Json} :
    answerHighlight host request = .ok value ↔ ∃ submission highlighted,
      host.submitted request.body? = .ok submission ∧
        highlightSubmission request.limit host.nesting submission = .ok highlighted ∧ highlighted.toJson = value := by
  unfold answerHighlight
  cases host.submitted request.body? with
  | error failure => simp
  | ok submission =>
    dsimp only
    cases found : highlightSubmission request.limit host.nesting submission <;> simp [Except.map, found]

theorem answer_highlight {host : Host} {request : Request}
    (routed : host.destination request.method request.path = ⟨.route .highlight, false⟩) {submission : Json}
    {highlighted : Highlighted} (given : host.submitted request.body? = .ok submission)
    (found : highlightSubmission request.limit host.nesting submission = .ok highlighted) :
    answer host request = ⟨200, .json highlighted.toJson⟩ := by
  rw [answer_routed routed, handle, answerHighlight_eq_ok.2 ⟨submission, highlighted, given, found, rfl⟩]
  rfl

theorem exists_highlighted {host : Host} {request : Request}
    (routed : host.destination request.method request.path = ⟨.route .highlight, false⟩)
    (accepted : (answer host request).status = 200) :
    ∃ submission highlighted, host.submitted request.body? = .ok submission ∧
      highlightSubmission request.limit host.nesting submission = .ok highlighted := by
  rw [answer_routed routed] at accepted
  obtain ⟨value, answered⟩ := respond_accepted accepted
  obtain ⟨submission, highlighted, given, found, -⟩ := answerHighlight_eq_ok.1 answered
  exact ⟨submission, highlighted, given, found⟩

end CodeColor.Service
