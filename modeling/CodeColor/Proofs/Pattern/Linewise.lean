import CodeColor.Proofs.Pattern.Lines
import CodeColor.Proofs.Pattern.Trailing

/-!
Patterns that see no further than their line. They take no line feed, and a line feed beside them is as good as the end
of the text. So what such a pattern matches in a part of a text does not change when the text goes on with line feeds.

Main statements: `ends_within` for the places where a match can end, `matchLength?_within` for the match.
-/

namespace CodeColor

namespace Cursor

variable {set : CharSet} {front back : List Char}

theorem startsIn_of_edge (no_feed : set '\n' = false) (edge : startsIn .inLine back = false) :
    startsIn set back = false :=
  startsIn_anti (inLine_of_mem no_feed) edge

section

variable (no_feed : set '\n' = false) (closes : startsIn .inLine back = false)
include no_feed closes

theorem step?_within (cursor : Cursor) :
    (cursor.within front back).step? set = (cursor.step? set).map (within front back) := by
  obtain ⟨before, after, taken⟩ := cursor
  cases after with
  | cons c after =>
    simp only [within, step?, List.cons_append]
    split <;> rfl
  | nil =>
    have stops := startsIn_of_edge no_feed closes
    cases back with
    | nil => rfl
    | cons d back =>
      have out : set d = false := stops
      simp [within, step?, out]

theorem runStops_within (before after : List Char) (taken : Nat) :
    runStops set [] (before ++ front.reverse) taken (after ++ back) =
      (runStops set [] before taken after).map (within front back) := by
  induction after generalizing before taken with
  | nil =>
    have stops := startsIn_of_edge no_feed closes
    cases back with
    | nil => rfl
    | cons d back =>
      have out : set d = false := stops
      simp [within, runStops, out]
  | cons c after ih =>
    rw [List.cons_append, runStops, runStops]
    split
    · rw [runStops_append, runStops_append set [_], List.map_append, ← ih]
      rfl
    · rfl

end

theorem past?_within {text : List Char} (inside : text.all CharSet.inLine = true)
    (closes : startsIn .inLine back = false) (cursor : Cursor) :
    (cursor.within front back).past? text = (cursor.past? text).map (within front back) := by
  induction text generalizing cursor with
  | nil => rfl
  | cons c text ih =>
    obtain ⟨first, others⟩ := Bool.and_eq_true_iff.1 ((List.all_cons).symm.trans inside)
    have no_feed : ('\n' == c) = false := by
      apply Bool.eq_false_iff.2
      rintro same
      rw [← beq_iff_eq.1 same] at first
      cases first
    rw [past?, past?, step?_within no_feed closes]
    cases cursor.step? (· == c) with
    | none => rfl
    | some next => exact ih others next

end Cursor

/-- The guard tells a line feed from the end of the text by neither side of the place. -/
def Guard.linewise : Guard → Bool
  | wordBoundary | lineStart | lineEnd => true
  | stretchEnd => false
  | after set | notAfter set | notBefore set => !set '\n'

theorem Guard.holds_within {condition : Guard} (linewise : condition.linewise = true) {front back : List Char}
    (opens : startsIn .inLine front.reverse = false) (closes : startsIn .inLine back = false) (cursor : Cursor) :
    condition.holds (cursor.within front back) = condition.holds cursor := by
  have before {set : CharSet} (no_feed : set '\n' = false) :
      startsIn set (cursor.within front back).before = startsIn set cursor.before :=
    Pattern.startsIn_append_of_not (Cursor.startsIn_of_edge no_feed opens) cursor.before
  have after {set : CharSet} (no_feed : set '\n' = false) :
      startsIn set (cursor.within front back).after = startsIn set cursor.after :=
    Pattern.startsIn_append_of_not (Cursor.startsIn_of_edge no_feed closes) cursor.after
  have word : CharSet.word '\n' = false := by decide
  have inLine : CharSet.inLine '\n' = false := by decide
  cases condition with
  | wordBoundary => rw [holds, holds, before word, after word]
  | lineStart => rw [holds, holds, breaks_eq, breaks_eq, before inLine]
  | lineEnd => rw [holds, holds, breaks_eq, breaks_eq, after inLine]
  | stretchEnd => cases linewise
  | after set => rw [holds, holds, before ((Bool.not_eq_true' _).mp linewise)]
  | notAfter set => rw [holds, holds, before ((Bool.not_eq_true' _).mp linewise)]
  | notBefore set => rw [holds, holds, after ((Bool.not_eq_true' _).mp linewise)]

namespace Pattern

/-- The pattern takes no line feed, and tells none from the end of the text. -/
def linewise : Pattern → Bool
  | literal text => text.all CharSet.inLine
  | one set | many set | few set => !set '\n'
  | quotedBody _ => false
  | guard condition => condition.linewise
  | ahead pattern => pattern.linewise
  | seq first second | alt first second => first.linewise && second.linewise

variable {pattern : Pattern} {front back : List Char}

section

variable (linewise : pattern.linewise = true) (opens : startsIn .inLine front.reverse = false)
  (closes : startsIn .inLine back = false)
include linewise opens closes

theorem ends_within (cursor : Cursor) :
    pattern.ends (cursor.within front back) = (pattern.ends cursor).map (Cursor.within front back) := by
  induction pattern generalizing cursor with
  | literal text =>
    rw [ends, ends, Cursor.past?_within linewise closes]
    cases cursor.past? text <;> rfl
  | one set =>
    rw [ends, ends, Cursor.step?_within ((Bool.not_eq_true' _).mp linewise) closes]
    cases cursor.step? set <;> rfl
  | many set => exact Cursor.runStops_within ((Bool.not_eq_true' _).mp linewise) closes _ _ _
  | few set =>
    rw [ends, ends, List.map_reverse]
    exact congrArg List.reverse (Cursor.runStops_within ((Bool.not_eq_true' _).mp linewise) closes _ _ _)
  | quotedBody quote => cases linewise
  | guard condition =>
    rw [ends, ends, Guard.holds_within linewise opens closes]
    split <;> rfl
  | ahead pattern ih =>
    rw [ends, ends, ih linewise]
    cases pattern.ends cursor <;> rfl
  | seq first second ihFirst ihSecond =>
    obtain ⟨left, right⟩ := Bool.and_eq_true_iff.1 linewise
    rw [ends, ends, ihFirst left, List.flatMap_map, List.map_flatMap]
    exact congrArg (List.flatMap · (first.ends cursor)) (funext fun stop => ihSecond right stop)
  | alt first second ihFirst ihSecond =>
    obtain ⟨left, right⟩ := Bool.and_eq_true_iff.1 linewise
    rw [ends, ends, ihFirst left, ihSecond right, List.map_append]

theorem matchLength?_within (before after : List Char) :
    pattern.matchLength? (before ++ front.reverse) (after ++ back) = pattern.matchLength? before after := by
  have places := ends_within linewise opens closes ⟨before, after, 0⟩
  have same : (pattern.ends ⟨before ++ front.reverse, after ++ back, 0⟩).find? (·.taken ≠ 0) =
      ((pattern.ends ⟨before, after, 0⟩).find? (·.taken ≠ 0)).map (Cursor.within front back) := by
    rw [Cursor.within] at places
    rw [places, List.find?_map]
    rfl
  rw [matchLength?_eq, matchLength?_eq, same, Option.map_map]
  rfl

end

theorem matchLength?_before_feed (linewise : pattern.linewise = true) (closes : startsIn .inLine back = false)
    (before after : List Char) : pattern.matchLength? before (after ++ back) = pattern.matchLength? before after := by
  have within : pattern.matchLength? (before ++ [].reverse) (after ++ back) = pattern.matchLength? before after :=
    matchLength?_within linewise rfl closes before after
  rwa [List.reverse_nil, List.append_nil] at within

theorem matchLength?_feed (linewise : pattern.linewise = true) (before rest : List Char) :
    pattern.matchLength? before ('\n' :: rest) = none := by
  have ended : pattern.matchLength? before ('\n' :: rest) = pattern.matchLength? before [] :=
    matchLength?_before_feed linewise rfl before []
  rw [ended]
  apply Option.eq_none_iff_forall_ne_some.2
  intro length found
  have positive := matchLength?_pos found
  have bounded : length ≤ 0 := matchLength?_le found
  omega

theorem matchLength?_behind_feed (linewise : pattern.linewise = true) (before past after : List Char) :
    pattern.matchLength? (before ++ '\n' :: past) after = pattern.matchLength? before after := by
  have opens : startsIn .inLine ('\n' :: past).reverse.reverse = false := by
    rw [List.reverse_reverse]
    rfl
  have within : pattern.matchLength? (before ++ ('\n' :: past).reverse.reverse) (after ++ []) =
      pattern.matchLength? before after := matchLength?_within linewise opens rfl before after
  rwa [List.reverse_reverse, List.append_nil] at within

/-! ## Literals and words -/

theorem linewise_literal {text : String} (absent : '\n' ∉ text.toList) : (exactly text).linewise = true := by
  apply List.all_eq_true.2
  intro c member
  have other : c ≠ '\n' := by
    rintro rfl
    exact absent member
  simpa [CharSet.inLine, CharSet.except] using other

theorem linewise_choice {patterns : List Pattern} (each : ∀ pattern ∈ patterns, pattern.linewise = true) :
    (choice patterns).linewise = true := by
  induction patterns with
  | nil => rfl
  | cons pattern patterns ih =>
    obtain ⟨first, others⟩ := List.forall_mem_cons.1 each
    cases patterns with
    | nil => exact first
    | cons other patterns => exact Bool.and_eq_true_iff.2 ⟨first, ih others⟩

theorem linewise_wholeWord {words : List String} (absent : ∀ word ∈ words, '\n' ∉ word.toList) :
    (wholeWord words).linewise = true := by
  have each : ∀ pattern ∈ words.map exactly, pattern.linewise = true := by
    intro pattern member
    obtain ⟨word, known, rfl⟩ := List.mem_map.1 member
    exact linewise_literal (absent word known)
  have any : (anyWord words).linewise = true := linewise_choice each
  change ((true && (anyWord words).linewise) && true) = true
  rw [any]
  rfl

end Pattern

end CodeColor
