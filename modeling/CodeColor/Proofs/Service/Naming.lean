import CodeColor.Proofs.Service.Gate
import CodeColor.Proofs.Text.Case

/-!
The names by which a language is asked for. Names that are compared alike have one key, and the key is a name for
the same language, so an answer can be had again by the language that it names.

Main statements: `languageKey_again`, `languageKey_eq_empty` and `answered_language_is_stable`.
-/

namespace CodeColor.Service

/-! ## Keys -/

def plainName (name : String) : String := String.ofList (Text.trim (Text.lower name.toList))

theorem languageKey_eq (name : String) :
    languageKey name = ((aliases.lookup (plainName name)).map Language.name).getD (plainName name) := by
  unfold languageKey plainName
  dsimp only
  split
  next language found => rw [found]; rfl
  next absent => rw [absent]; rfl

theorem languageKey_name (language : Language) : languageKey language.name = language.name := by
  cases language <;> decide

theorem name_ne_empty (language : Language) : language.name ≠ "" := by
  cases language <;> decide

theorem plainName_again (name : String) : plainName (plainName name) = plainName name := by
  unfold plainName
  rw [String.toList_ofList, Text.trim_lower_again]

theorem plainName_eq_empty {name : String} : plainName name = "" ↔ ∀ c ∈ name.toList, Text.isBlank c = true := by
  rw [← Text.trim_lower_eq_nil, plainName, ← String.toList_inj, String.toList_ofList]
  rfl

theorem languageKey_again (name : String) : languageKey (languageKey name) = languageKey name := by
  cases found : aliases.lookup (plainName name) with
  | some language =>
    have key : languageKey name = language.name := by rw [languageKey_eq, found]; rfl
    rw [key, languageKey_name]
  | none =>
    have key : languageKey name = plainName name := by rw [languageKey_eq, found]; rfl
    rw [key, languageKey_eq, plainName_again, found]
    rfl

/-- Only white space stands for no language. -/
theorem languageKey_eq_empty {name : String} :
    languageKey name = "" ↔ ∀ c ∈ name.toList, Text.isBlank c = true := by
  rw [← plainName_eq_empty]
  cases found : aliases.lookup (plainName name) with
  | some language =>
    have key : languageKey name = language.name := by rw [languageKey_eq, found]; rfl
    have some_name : plainName name ≠ "" := by
      intro empty
      have absent : aliases.lookup "" = none := by decide
      rw [empty, absent] at found
      cases found
    rw [key]
    exact iff_of_false (name_ne_empty language) some_name
  | none =>
    have key : languageKey name = plainName name := by rw [languageKey_eq, found]; rfl
    rw [key]

/-! ## Submissions that name a language -/

/-- The second submission has the code and the flag of the first, and names the language. -/
structure Renames (first second : Json) (language : String) : Prop where
  code : second.field? "code" = first.field? "code"
  escape : second.field? "escape" = first.field? "escape"
  language : second.field? "language" = some (.string language)

theorem eq_some_string {given : Option Json} {text : String} (found : given.bind Json.string? = some text) :
    given = some (.string text) := by
  obtain ⟨value, rfl, same⟩ := Option.bind_eq_some_iff.1 found
  cases value with
  | string other => cases same; rfl
  | _ => cases same

theorem readLanguage_key {submission : Json} {language : String}
    (read : readLanguage submission = .ok language) : languageKey language = language := by
  have empty : languageKey "" = "" := by decide
  unfold readLanguage at read
  split at read
  next => cases read; exact empty
  next => cases read; exact empty
  next name _ => cases read; exact languageKey_again name
  next => cases read

theorem highlightWith_again {nesting : Nat} {options : Options} {code : String} {highlighted : Highlighted}
    (key : languageKey options.language = options.language)
    (found : highlightWith nesting options code = .ok highlighted) :
    languageKey highlighted.language = highlighted.language ∧
      highlightWith nesting ⟨highlighted.language, options.escaped⟩ code =
        .ok { highlighted with confidence := specified } := by
  unfold highlightWith at found
  split at found
  next =>
    split at found
    next => cases found
    next =>
      split at found
      next => cases found
      next language _ =>
        rw [highlightAs_eq_ok] at found
        cases found
        refine ⟨languageKey_name language, ?_⟩
        rw [highlightWith, if_neg (name_ne_empty language), highlightAs_eq_ok]
  next named =>
    rw [highlightAs_eq_ok] at found
    cases found
    refine ⟨key, ?_⟩
    rw [highlightWith, if_neg named, highlightAs_eq_ok]

theorem highlightSubmission_again {limit : Int} {nesting : Nat} {first second : Json} {highlighted : Highlighted}
    (found : highlightSubmission limit nesting first = .ok highlighted)
    (renames : Renames first second highlighted.language) :
    highlightSubmission limit nesting second = .ok { highlighted with confidence := specified } := by
  obtain ⟨code, options, code_read, options_read, answered⟩ := highlightSubmission_eq_ok.1 found
  obtain ⟨language_read, escaped_read⟩ := readOptions_eq_ok.1 options_read
  obtain ⟨key, again⟩ := highlightWith_again (readLanguage_key language_read) answered
  refine highlightSubmission_eq_ok.2 ⟨code, ⟨highlighted.language, options.escaped⟩, ?_, ?_, again⟩
  · rw [readCode_eq_ok, renames.code]
    exact readCode_eq_ok.1 code_read
  · refine readOptions_eq_ok.2 ⟨?_, ?_⟩
    · simp only [readLanguage, renames.language, key]
    · rw [readEscaped_eq_ok, renames.escape]
      exact readEscaped_eq_ok.1 escaped_read

/-! ## Answers -/

def highlightedResponse (language confidence : String) (html tokens stats : Json) : Response :=
  ⟨200, .json (.object
    [("language", .string language), ("confidence", .string confidence), ("html", html), ("tokens", tokens),
      ("stats", stats)])⟩

def Response.text? (response : Response) (name : String) : Option String :=
  match response.content with
  | .json value => (value.field? name).bind Json.string?
  | .page _ => none

/-- An accepted request is answered alike, but for the confidence, when it names the answered language. A name is
compared by its key, which is its own key, and no language is left of a name only if it is white space. -/
theorem answered_language_is_stable :
    (∀ (host : Host) (request : Request),
      host.destination request.method request.path = ⟨.route .highlight, false⟩ →
      (answer host request).status = 200 →
      ∃ submission language confidence html tokens stats,
        host.submitted request.body? = .ok submission ∧
        answer host request = highlightedResponse language confidence html tokens stats ∧
        ∀ named? second, host.submitted named? = .ok second → Renames submission second language →
          answer host { request with body? := named? } =
            highlightedResponse language "user-specified" html tokens stats) ∧
    (∀ name, languageKey (languageKey name) = languageKey name) ∧
    ∀ name, languageKey name = "" ↔ ∀ c ∈ name.toList, Text.isBlank c = true := by
  refine ⟨?_, languageKey_again, fun name => languageKey_eq_empty⟩
  intro host request routed accepted
  obtain ⟨submission, highlighted, given, found⟩ := exists_highlighted routed accepted
  refine ⟨submission, highlighted.language, highlighted.confidence, .string highlighted.markup,
    .array (highlighted.tokens.map Token.toJson), countsToJson (countByType highlighted.tokens), given, ?_, ?_⟩
  · exact answer_highlight routed given found
  · intro named? second named renames
    have again : host.destination { request with body? := named? }.method { request with body? := named? }.path =
        ⟨.route .highlight, false⟩ := routed
    exact answer_highlight again named (highlightSubmission_again found renames)

/-- A name of JavaScript, in capitals and between spaces, and the key that it is answered with. -/
theorem answered_language_is_stable_for_alias :
    let request (language : String) : Request :=
      ⟨"POST", "/api/highlight",
        some ⟨"application/json", "\x7b\"code\": \"x\", \"language\": \"" ++ language ++ "\"\x7d"⟩, standardLimit⟩
    (answer localHost (request "\u2003JavaScript ")).status = 200 ∧
      (∃ html tokens stats,
        answer localHost (request "\u2003JavaScript ") =
            highlightedResponse "js" "user-specified" html tokens stats ∧
          answer localHost (request "js") = highlightedResponse "js" "user-specified" html tokens stats) ∧
      languageKey (languageKey "ΑΣ İ") = languageKey "ΑΣ İ" ∧ languageKey "\u0085\u3000" = "" := by
  intro request
  have accepted : (answer localHost (request "\u2003JavaScript ")).status = 200 := by decide +kernel
  have answered : ∀ part ∈ [("language", "js"), ("confidence", "user-specified")],
      (answer localHost (request "\u2003JavaScript ")).text? part.1 = some part.2 := by
    decide +kernel
  have code : ∀ name ∈ ["\u2003JavaScript ", "js"],
      (localHost.field? (request name).body? "code").bind Json.string? = some "x" := by
    decide +kernel
  have no_escape : ∀ name ∈ ["\u2003JavaScript ", "js"],
      (localHost.field? (request name).body? "escape").isNone = true := by
    decide +kernel
  have named : (localHost.field? (request "js").body? "language").bind Json.string? = some "js" := by
    decide +kernel
  simp only [List.forall_mem_cons, List.not_mem_nil, false_implies, implies_true, and_true] at code no_escape answered
  obtain ⟨stable, again, blank⟩ := answered_language_is_stable
  obtain ⟨first, language, confidence, html, tokens, stats, given, same, renamed⟩ :=
    stable localHost (request "\u2003JavaScript ") (destination_of_route .highlight) accepted
  rw [same] at answered
  cases answered.1
  cases answered.2
  obtain ⟨second, also, -⟩ := Host.field?_eq_some.1 (eq_some_string named)
  rw [Host.field?_eq given, Host.field?_eq also] at code no_escape
  rw [Host.field?_eq also] at named
  have renames : Renames first second "js" := by
    constructor
    · rw [eq_some_string code.1, eq_some_string code.2]
    · rw [Option.isNone_iff_eq_none.1 no_escape.1, Option.isNone_iff_eq_none.1 no_escape.2]
    · exact eq_some_string named
  refine ⟨accepted, ⟨html, tokens, stats, same, renamed _ _ also renames⟩, again _, ?_⟩
  exact (blank _).2 (List.all_eq_true.1 (by decide))

end CodeColor.Service
