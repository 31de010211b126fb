import CodeColor.Proofs.Json.Acceptance
import CodeColor.Proofs.Service.Submission

/-!
What a request submits, seen from its body. A body has a value, or it has none, or it is nested too deeply.

Main statements: `value_cases`, `field?_submitted`, `readCode_submitted_eq_ok` and `submitsCode_brackets`.
-/

namespace CodeColor

namespace Json

/-- Of the members with the name, the last one has the value. -/
def Gives (members : List (String × Json)) (name : String) (value : Json) : Prop :=
  ∃ earlier later, members = earlier ++ (name, value) :: later ∧ name ∉ later.map Prod.fst

theorem member?_eq_none {name : String} {members : List (String × Json)} :
    member? name members = none ↔ name ∉ members.map Prod.fst := by
  induction members with
  | nil => simp [member?]
  | cons member members ih =>
    obtain ⟨key, value⟩ := member
    rw [member?, List.map_cons, List.mem_cons, not_or, ← ih]
    cases member? name members with
    | some later => simp
    | none => simp [eq_comm]

theorem member?_eq_some {name : String} {members : List (String × Json)} {value : Json} :
    member? name members = some value ↔ Gives members name value := by
  induction members with
  | nil => simp [member?, Gives]
  | cons member members ih =>
    obtain ⟨key, first⟩ := member
    rw [member?]
    cases found : member? name members with
    | some later =>
      rw [found] at ih
      dsimp only
      rw [ih]
      constructor
      · rintro ⟨front, back, rfl, last⟩
        exact ⟨(key, first) :: front, back, rfl, last⟩
      · rintro ⟨front, back, split, last⟩
        cases front with
        | nil =>
          cases split
          rw [member?_eq_none.2 last] at found
          cases found
        | cons other front =>
          cases split
          exact ⟨front, back, rfl, last⟩
    | none =>
      have absent := member?_eq_none.1 found
      dsimp only
      constructor
      · intro same
        split at same
        next named =>
          cases named
          cases same
          exact ⟨[], members, rfl, absent⟩
        next => cases same
      · rintro ⟨front, back, split, _⟩
        cases front with
        | nil =>
          cases split
          exact if_pos rfl
        | cons other front =>
          cases split
          exact absurd (by simp) absent

end Json

namespace Service

/-! ## What a request submits -/

section

variable (host : Host) (bodyNesting : Nat)

/-- The body is marked as JSON, or as a format built on it, and its text gives the value. -/
structure Holds (body : Body) (value : Json) : Prop where
  media : JsonType (host.mediaType body.contentType)
  text : Json.readSent bodyNesting body.text.toList = .ok value

def Submits (body? : Option Body) (value : Json) : Prop :=
  ∃ body, body? = some body ∧ Holds host bodyNesting body value

/-- The request has a body that is marked as JSON and nested too deeply. -/
def SubmitsTooDeep (body? : Option Body) : Prop :=
  ∃ body, body? = some body ∧ JsonType (host.mediaType body.contentType) ∧
    Json.readSent bodyNesting body.text.toList = .error .tooDeep

end

theorem Submits.not_tooDeep {host : Host} {bodyNesting : Nat} {body? : Option Body} {value : Json}
    (submits : Submits host bodyNesting body? value) : ¬ SubmitsTooDeep host bodyNesting body? := by
  obtain ⟨body, rfl, -, read⟩ := submits
  rintro ⟨_, same, -, deep⟩
  cases same
  cases read.symm.trans deep

section

variable {host : Host} {bodyNesting : Nat} (documented : host.Documented bodyNesting) {body? : Option Body}
include documented

theorem value_cases (body? : Option Body) :
    (∃ value, host.value body? = .ok (some value) ∧ Submits host bodyNesting body? value) ∨
      (host.value body? = .ok none ∧ ¬ SubmitsTooDeep host bodyNesting body? ∧
        ∀ value, ¬ Submits host bodyNesting body? value) ∨
      (host.value body? = .error .tooDeep ∧ SubmitsTooDeep host bodyNesting body?) := by
  cases body? with
  | none =>
    refine .inr (.inl ⟨documented.no_body, ?_, ?_⟩)
    · rintro ⟨body, same, -⟩
      cases same
    · rintro value ⟨body, same, -⟩
      cases same
  | some body =>
    by_cases counted : JsonType (host.mediaType body.contentType)
    · rw [documented.json_type body counted]
      cases read : Json.readSent bodyNesting body.text.toList with
      | ok value => exact .inl ⟨value, rfl, body, rfl, counted, read⟩
      | error failure =>
        cases failure with
        | malformed =>
          refine .inr (.inl ⟨rfl, ?_, ?_⟩)
          · rintro ⟨_, same, -, deep⟩
            cases same
            cases read.symm.trans deep
          · rintro value ⟨_, same, holds⟩
            cases same
            cases read.symm.trans holds.text
        | tooDeep => exact .inr (.inr ⟨rfl, body, rfl, counted, read⟩)
    · rw [documented.other_type body counted]
      refine .inr (.inl ⟨rfl, ?_, ?_⟩)
      · rintro ⟨_, same, also, -⟩
        cases same
        exact counted also
      · rintro value ⟨_, same, holds⟩
        cases same
        exact counted holds.media

theorem jsonType_bare : JsonType (host.mediaType "application/json") := by
  have bare : BareType "application/json" := by simp [BareType]
  have whole : "application/json" = "application/json" ++ "" := by decide
  rw [whole, documented.media_type "application/json" "" bare (.inl rfl)]
  exact .inl (by decide)

theorem value_of_submits {value : Json} (submits : Submits host bodyNesting body? value) :
    host.value body? = .ok (some value) := by
  obtain ⟨body, rfl, counted, read⟩ := submits
  rw [documented.json_type body counted, read]
  rfl

theorem submitted_tooDeep (deep : SubmitsTooDeep host bodyNesting body?) :
    host.submitted body? = .error .tooDeep := by
  obtain ⟨body, rfl, counted, read⟩ := deep
  rw [Host.submitted, documented.json_type body counted, read]
  rfl

theorem submitted_void (shallow : ¬ SubmitsTooDeep host bodyNesting body?)
    (void : ∀ value, Submits host bodyNesting body? value → value.isVoid = true) :
    host.submitted body? = .ok (.object []) := by
  unfold Host.submitted
  rcases value_cases documented body? with ⟨value, given, submits⟩ | ⟨given, -, -⟩ | ⟨-, deep⟩
  · rw [given]
    exact congrArg Except.ok (if_pos (void value submits))
  · rw [given]
  · exact absurd deep shallow

theorem submitted_object {members : List (String × Json)}
    (submits : Submits host bodyNesting body? (.object members)) :
    host.submitted body? = .ok (.object members) := by
  unfold Host.submitted
  rw [value_of_submits documented submits]
  cases members <;> rfl

theorem submitted_cases (body? : Option Body) :
    (∃ submission, host.submitted body? = .ok submission ∧ ¬ SubmitsTooDeep host bodyNesting body?) ∨
      host.submitted body? = .error .tooDeep ∧ SubmitsTooDeep host bodyNesting body? := by
  rcases value_cases documented body? with ⟨value, given, submits⟩ | ⟨given, shallow, -⟩ | ⟨-, deep⟩
  · refine .inl ⟨if value.isVoid then .object [] else value, ?_, submits.not_tooDeep⟩
    rw [Host.submitted, given]
  · refine .inl ⟨.object [], ?_, shallow⟩
    rw [Host.submitted, given]
  · exact .inr ⟨submitted_tooDeep documented deep, deep⟩

theorem field?_submitted {submission : Json} (given : host.submitted body? = .ok submission) {name : String}
    {value : Json} :
    submission.field? name = some value ↔
      ∃ members, Submits host bodyNesting body? (.object members) ∧ Json.Gives members name value := by
  constructor
  · intro found
    unfold Host.submitted at given
    rcases value_cases documented body? with ⟨whole, read, submits⟩ | ⟨read, -, -⟩ | ⟨read, -⟩
    · rw [read] at given
      dsimp only at given
      split at given
      next =>
        cases given
        cases found
      next =>
        cases given
        cases submission with
        | object members => exact ⟨members, submits, Json.member?_eq_some.1 found⟩
        | _ => cases found
    · rw [read] at given
      cases given
      cases found
    · rw [read] at given
      cases given
  · rintro ⟨members, submits, gives⟩
    cases given.symm.trans (submitted_object documented submits)
    exact Json.member?_eq_some.2 gives

end

/-! ## The code -/

/-- The body holds an object whose code is the text, and not all of that is white space. -/
def SubmitsCode (host : Host) (bodyNesting : Nat) (body? : Option Body) (code : String) : Prop :=
  (∃ members, Submits host bodyNesting body? (.object members) ∧ Json.Gives members "code" (.string code)) ∧
    ∃ c ∈ code.toList, Text.isBlank c = false

theorem readCode_submitted_eq_ok {host : Host} {bodyNesting : Nat} (documented : host.Documented bodyNesting)
    {limit : Int} {body? : Option Body} {submission : Json} (given : host.submitted body? = .ok submission)
    {code : String} :
    readCode limit submission = .ok code ↔
      SubmitsCode host bodyNesting body? code ∧ (code.length : Int) ≤ limit := by
  rw [readCode_eq_ok, field?_submitted documented given, isBlankText_eq_false, ← and_assoc]
  rfl

theorem readCode_submitted_eq_tooLong {host : Host} {bodyNesting : Nat} (documented : host.Documented bodyNesting)
    {limit : Int} {body? : Option Body} {submission : Json} (given : host.submitted body? = .ok submission) :
    readCode limit submission = .error (.codeTooLong limit) ↔
      ∃ code, SubmitsCode host bodyNesting body? code ∧ limit < (code.length : Int) := by
  rw [readCode_eq_tooLong]
  simp only [field?_submitted documented given, isBlankText_eq_false, SubmitsCode, and_assoc]

/-! ## Code alone -/

/-- The body of an object with nothing but the code, where that needs no escapes. -/
def codeBody (code : String) : Body := ⟨"application/json", "\x7b\"code\":\"" ++ code ++ "\"\x7d"⟩

theorem readSent_codeBody {nesting : Nat} (room : 0 < nesting) {code : String}
    (plain : ∀ c ∈ code.toList, c ≠ '"' ∧ c ≠ '\\' ∧ ' ' ≤ c) :
    Json.readSent nesting (codeBody code).text.toList = .ok (.object [("code", .string code)]) := by
  obtain ⟨nesting, rfl⟩ := Nat.exists_eq_succ_of_ne_zero (Nat.ne_of_gt room)
  let named : List Char := '"' :: ("code".toList ++ '"' :: ':' :: '"' :: (code.toList ++ ['"', '}']))
  have text : (codeBody code).text.toList = '{' :: named := by simp [codeBody, named]
  have sent : Json.readSent (nesting + 1) ('{' :: named) = Json.read (nesting + 1) ('{' :: named) := rfl
  have name (rest : List Char) :
      Json.readString ⟨[], none⟩ .plain ("code".toList ++ '"' :: rest) = some ("code", rest) :=
    Json.readString_plain (by simp) [] rest
  have value (fuel : Nat) : Json.readValue (fuel + 1) nesting ('"' :: (code.toList ++ ['"', '}'])) =
      .ok (.string code, ['}']) := by
    rw [Json.readValue, Json.readString_plain plain [] ['}'], List.reverse_nil, List.nil_append, String.ofList_toList]
    rfl
  have members (fuel : Nat) : Json.readMembers (fuel + 2) nesting [] named =
      .ok (.object [("code", .string code)], []) := by
    have colon (text : List Char) : Json.skipSpace (':' :: text) = ':' :: text := Json.skipSpace_of_starts rfl
    have quote (text : List Char) : Json.skipSpace ('"' :: text) = '"' :: text := Json.skipSpace_of_starts rfl
    have brace : Json.skipSpace ['}'] = ['}'] := Json.skipSpace_of_starts rfl
    simp only [named, Json.readMembers, name, colon, quote, value, brace]
    rfl
  have inside (fuel : Nat) : Json.readMembers (fuel + 2) nesting [] (Json.skipSpace named) ≠ .error .malformed := by
    rw [Json.skipSpace_of_starts rfl, members]
    exact fun same => by cases same
  have whole (fuel : Nat) : Json.readValue (fuel + 3) (nesting + 1) ('{' :: named) =
      .ok (.object [("code", .string code)], []) := by
    rw [← members fuel]
    exact Json.readValue_object Json.blank_nil (inside fuel)
  obtain ⟨fuel, enough⟩ : ∃ fuel, 2 * ('{' :: named).length + 2 = fuel + 3 :=
    ⟨2 * named.length + 1, by rw [List.length_cons]; omega⟩
  rw [text, sent, Json.read, enough, Json.skipSpace_of_starts rfl, whole]
  rfl

section

variable {host : Host} {bodyNesting : Nat} (documented : host.Documented bodyNesting)
include documented

theorem submits_codeBody {code : String} (plain : ∀ c ∈ code.toList, c ≠ '"' ∧ c ≠ '\\' ∧ ' ' ≤ c) :
    Submits host bodyNesting (some (codeBody code)) (.object [("code", .string code)]) :=
  ⟨_, rfl, jsonType_bare documented, readSent_codeBody documented.body_room plain⟩

theorem submits_brackets (count : Nat) :
    Submits host bodyNesting (some (codeBody (String.ofList (List.replicate count '['))))
      (.object [("code", .string (String.ofList (List.replicate count '[')))]) := by
  refine submits_codeBody documented ?_
  intro c member
  rw [String.toList_ofList] at member
  rw [List.eq_of_mem_replicate member]
  decide

theorem submitsCode_brackets (further : Nat) :
    SubmitsCode host bodyNesting (some (codeBody (String.ofList (List.replicate (further + 1) '['))))
      (String.ofList (List.replicate (further + 1) '[')) := by
  refine ⟨⟨_, submits_brackets documented (further + 1), [], [], rfl, List.not_mem_nil⟩, '[', ?_, by decide⟩
  rw [String.toList_ofList]
  exact List.mem_cons_self

end

end Service

end CodeColor
