import CodeColor.Proofs.Grammar.Extension
import CodeColor.Session

/-!
Sessions with failures. An extension fails for the names that the current grammar does not have, and neither it nor a
step that only asks for something leaves a trace in what follows.

Main statements: `answers_thinned` and `failed_extensions_leave_no_trace`.
-/

namespace CodeColor.Session

/-- The steps of a session, each with its answer. -/
def transcript (grammar : Grammar) (steps : List Step) : List (Step × Answer) :=
  steps.zip (answers grammar steps)

theorem transcript_cons (grammar : Grammar) (step : Step) (steps : List Step) :
    transcript grammar (step :: steps) =
      (step, (perform grammar step).1) :: transcript (perform grammar step).2 steps := rfl

def ending (grammar : Grammar) (steps : List Step) : Grammar :=
  steps.foldl (fun grammar step => (perform grammar step).2) grammar

/-- The step is a failed extension, or it extends nothing. -/
def isIdle : Step × Answer → Bool
  | (.extend _, .unknownRules _) => true
  | (.extend _, _) => false
  | _ => true

/-- The entries without some of the idle ones, which may be any of them. -/
inductive Thinned : List (Step × Answer) → List (Step × Answer) → Prop where
  | done : Thinned [] []
  | kept {entry : Step × Answer} {entries left : List (Step × Answer)} (onward : Thinned entries left) :
      Thinned (entry :: entries) (entry :: left)
  | dropped {entry : Step × Answer} {entries left : List (Step × Answer)} (idle : isIdle entry = true)
      (onward : Thinned entries left) : Thinned (entry :: entries) left

theorem perform_failed {grammar : Grammar} {extension : Extension} {unknown : UnknownRules}
    (failed : grammar.extend extension = .error unknown) :
    perform grammar (.extend extension) = (.unknownRules unknown, grammar) := by
  simp only [perform, failed]

theorem perform_idle {grammar : Grammar} {step : Step}
    (idle : isIdle (step, (perform grammar step).1) = true) :
    (perform grammar step).2 = grammar := by
  cases step with
  | extend extension =>
    cases extended : grammar.extend extension with
    | ok table =>
      simp only [perform, extended] at idle
      cases idle
    | error unknown => rw [perform_failed extended]
  | claim code => rfl
  | tokenize code => rfl
  | highlight code escaped =>
    simp only [perform]
    cases grammar.highlight escaped code with
    | ok markup => rfl
    | error error => rfl

theorem answers_thinned {grammar : Grammar} {steps : List Step} {left : List (Step × Answer)}
    (thinned : Thinned (transcript grammar steps) left) :
    answers grammar (left.map Prod.fst) = left.map Prod.snd ∧
      ending grammar (left.map Prod.fst) = ending grammar steps := by
  induction steps generalizing grammar left with
  | nil =>
    cases thinned
    exact ⟨rfl, rfl⟩
  | cons step steps ih =>
    rw [transcript_cons] at thinned
    cases thinned with
    | kept onward =>
      obtain ⟨same, last⟩ := ih onward
      exact ⟨congrArg _ same, last⟩
    | dropped idle onward =>
      have next := perform_idle idle
      obtain ⟨same, last⟩ := ih onward
      rw [next] at same last
      refine ⟨same, last.trans ?_⟩
      unfold ending
      rw [List.foldl_cons, next]

/-- An extension is refused exactly if it looks for a name that no rule of the base has. The refusal lists each such
name once, in code point order, and the session goes on with the grammar it had. So a session without some of its
failed extensions, and of the steps that extend nothing, gives the other steps the answers that they had. -/
theorem failed_extensions_leave_no_trace :
    (∀ (base : Grammar) (extension : Extension),
      ((∃ unknown, base.extend extension = .error unknown) ↔
        ∃ name ∈ extension.keys, name ∉ base.map Rule.name) ∧
      ∀ unknown, base.extend extension = .error unknown →
        (∀ name, name ∈ unknown.names ↔ name ∈ extension.keys ∧ name ∉ base.map Rule.name) ∧
        unknown.names.Pairwise (· < ·) ∧
        unknown.message = "No rule named " ++ String.intercalate ", " unknown.names ++ " in base grammar" ∧
        perform base (.extend extension) = (.unknownRules unknown, base)) ∧
    ∀ (grammar : Grammar) (steps : List Step) (left : List (Step × Answer)),
      Thinned (transcript grammar steps) left →
        answers grammar (left.map Prod.fst) = left.map Prod.snd ∧
          ending grammar (left.map Prod.fst) = ending grammar steps := by
  refine ⟨fun base extension => ⟨Grammar.refused_iff, ?_⟩, fun grammar steps left => answers_thinned⟩
  intro unknown refused
  have listed := (Grammar.extend_eq_error.1 refused).1
  have message : unknown.message =
      "No rule named " ++ String.intercalate ", " unknown.names ++ " in base grammar" := rfl
  refine ⟨?_, ?_, message, perform_failed refused⟩
  · intro name
    rw [listed]
    exact Extension.mem_unknown
  · rw [listed]
    exact extension.ascending_unknown base

/-- A failed extension, some of whose names are known, between steps that stay. -/
theorem failed_extensions_leave_no_trace_between_claims :
    let rule (name text : String) := Rule.literal name text none
    let base : Grammar := [rule "m" "x"]
    let failing : Extension := ⟨[("z", rule "z" "z"), ("m", rule "a" "z")], [("a", []), ("z", [rule "a" "z"])]⟩
    let extending : Extension := ⟨[], [("m", [rule "n" "y"])]⟩
    let steps : List Step := [.highlight "x" true, .extend failing, .extend extending, .claim "xy"]
    let left : List (Step × Answer) :=
      [(.extend extending, .outline [("m", ⟨"m"⟩), ("n", ⟨"n"⟩)]),
        (.claim "xy", .spans [⟨0, 1, some ⟨"m"⟩⟩, ⟨1, 2, some ⟨"n"⟩⟩])]
    (∃ unknown, base.extend failing = .error unknown ∧
      unknown.message = "No rule named a, z in base grammar" ∧
      perform base (.extend failing) = (.unknownRules unknown, base)) ∧
    Thinned (transcript base steps) left ∧ answers base (left.map Prod.fst) = left.map Prod.snd := by
  intro rule base failing extending steps left
  obtain ⟨refusals, sessions⟩ := failed_extensions_leave_no_trace
  obtain ⟨refused, trace⟩ := refusals base failing
  obtain ⟨unknown, failed⟩ := refused.2 ⟨"z", by decide, by decide⟩
  obtain ⟨-, -, message, performed⟩ := trace unknown failed
  have names : failing.unknown base = ["a", "z"] := by
    have missing : (failing.keys.filter fun key => !base.any (·.name = key)).eraseDups = ["z", "a"] := by decide
    rw [Extension.unknown, missing]
    simp [List.mergeSort, List.MergeSort.Internal.splitInTwo]
  rw [(Grammar.extend_eq_error.1 failed).1, names] at message
  have extended : perform base (.extend extending) =
      (.outline [("m", ⟨"m"⟩), ("n", ⟨"n"⟩)], [rule "m" "x", rule "n" "y"]) := by
    have known : ∀ name ∈ extending.keys, name ∈ base.map Rule.name := by decide
    simp only [perform, Grammar.extend_eq_ok known]
    rfl
  have spans : Piece.spans (Grammar.claim [rule "m" "x", rule "n" "y"] "xy".toList) =
      [⟨0, 1, some ⟨"m"⟩⟩, ⟨1, 2, some ⟨"n"⟩⟩] := by decide
  have thinned : Thinned (transcript base steps) left := by
    have highlighted : (perform base (.highlight "x" true)).2 = base := perform_idle rfl
    have claimed : (perform [rule "m" "x", rule "n" "y"] (.claim "xy")).1 =
        .spans [⟨0, 1, some ⟨"m"⟩⟩, ⟨1, 2, some ⟨"n"⟩⟩] := congrArg Answer.spans spans
    simp only [steps, transcript_cons]
    rw [highlighted, performed, extended, claimed]
    exact .dropped rfl (.dropped rfl (.kept (.kept .done)))
  exact ⟨⟨unknown, failed, message, performed⟩, thinned, (sessions base steps left thinned).1⟩

end CodeColor.Session
