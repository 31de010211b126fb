import CodeColor.Proofs.Pattern.Alphabet
import CodeColor.Proofs.Pattern.Stops

/-!
Matches in a text with white space behind it. A match that ends with some other character lies in the text alone, and
one that goes on to the end of a line through white space can do so with more of it.

Main statement: `occursIn_append`.
-/

namespace CodeColor

namespace Cursor

variable {text back taken : List Char} {cursor stop : Cursor}

/-- The same place, with more text behind it. -/
def extend (back : List Char) (cursor : Cursor) : Cursor :=
  ⟨cursor.before, cursor.after ++ back, cursor.taken⟩

theorem extend_inj : cursor.extend back = stop.extend back ↔ cursor = stop := by
  obtain ⟨before, after, taken⟩ := cursor
  obtain ⟨lead, rest, count⟩ := stop
  simp [extend]

theorem passes_extend : (cursor.extend back).Passes taken (stop.extend back) ↔ cursor.Passes taken stop := by
  constructor
  · intro passes
    have after : cursor.after ++ back = taken ++ (stop.after ++ back) := passes.after
    rw [← List.append_assoc] at after
    exact ⟨⟨List.append_cancel_right after, passes.taken⟩, passes.before⟩
  · intro passes
    have after : cursor.after ++ back = taken ++ (stop.after ++ back) := by
      rw [passes.after, List.append_assoc]
    exact ⟨⟨after, passes.taken⟩, passes.before⟩

theorem In.extend (inside : cursor.In text) : (cursor.extend back).In (text ++ back) := by
  rw [← inside]
  exact (List.append_assoc ..).symm

theorem In.of_extend (inside : (cursor.extend back).In (text ++ back)) : cursor.In text := by
  have whole : (cursor.before.reverse ++ cursor.after) ++ back = text ++ back := by
    rw [List.append_assoc]
    exact inside
  exact List.append_cancel_right whole

theorem exists_extend (passes : cursor.Passes taken (stop.extend back)) :
    ∃ start : Cursor, cursor = start.extend back := by
  obtain ⟨before, after, count⟩ := cursor
  have whole : after = taken ++ (stop.after ++ back) := passes.after
  refine ⟨⟨before, taken ++ stop.after, count⟩, ?_⟩
  rw [whole, ← List.append_assoc]
  rfl

theorem exists_extend_of_beyond {alphabet : List Char} (within : ∀ c ∈ back, c ∈ alphabet)
    (inside : stop.In (text ++ back)) (beyond : startsIn (.except alphabet) stop.before = true) :
    ∃ place : Cursor, stop = place.extend back := by
  obtain ⟨before, after, count⟩ := stop
  rcases List.append_eq_append_iff.1 inside with ⟨more, -, rest⟩ | ⟨more, whole, split⟩
  · exact ⟨⟨before, more, count⟩, congrArg (Cursor.mk before · count) rest⟩
  · rcases List.eq_nil_or_concat more with rfl | ⟨front, c, rfl⟩
    · exact ⟨⟨before, [], count⟩, congrArg (Cursor.mk before · count) split.symm⟩
    · have last : before = c :: (text ++ front).reverse := by
        have reversed := congrArg List.reverse whole
        simpa using reversed
      have member : c ∈ alphabet := within c (by simp [split])
      rw [last] at beyond
      exact absurd member (by simpa [startsIn, CharSet.except] using beyond)

end Cursor

namespace Pattern

variable {pattern : Pattern} {cursor stop : Cursor} {alphabet text back : List Char}

/-! ## Matches within the text -/

/-- Apart from the text that it takes, the pattern looks at boundaries of words and starts of lines only. -/
def steady : Pattern → Bool
  | literal _ | one _ | many _ | few _ => true
  | guard .wordBoundary | guard .lineStart => true
  | guard _ | quotedBody _ | ahead _ => false
  | seq first second | alt first second => first.steady && second.steady

theorem startsIn_append_of_not {set : CharSet} (apart : startsIn set back = false) (text : List Char) :
    startsIn set (text ++ back) = startsIn set text := by
  cases text with
  | nil => exact apart
  | cons c text => rfl

theorem extend_mem_ends (steady : pattern.steady = true) (apart : startsIn CharSet.word back = false) :
    stop.extend back ∈ pattern.ends (cursor.extend back) ↔ stop ∈ pattern.ends cursor := by
  have taken {pattern : Pattern} (unguarded : pattern.unguarded = true) {cursor stop : Cursor} :
      stop.extend back ∈ pattern.ends (cursor.extend back) ↔ stop ∈ pattern.ends cursor := by
    rw [mem_ends_unguarded unguarded, mem_ends_unguarded unguarded]
    exact exists_congr fun text => and_congr_right' Cursor.passes_extend
  induction pattern generalizing cursor stop with
  | literal word | one set | many set | few set => exact taken rfl
  | quotedBody quote | ahead pattern => cases steady
  | guard condition =>
    rw [mem_ends_guard, mem_ends_guard, Cursor.extend_inj]
    cases condition with
    | wordBoundary =>
      have after : startsIn .word (cursor.extend back).after = startsIn .word cursor.after :=
        startsIn_append_of_not apart cursor.after
      rw [Guard.holds, Guard.holds, after]
      rfl
    | lineStart => rfl
    | lineEnd | stretchEnd | after set | notAfter set | notBefore set => cases steady
  | seq first second ihFirst ihSecond =>
    rw [Pattern.steady, Bool.and_eq_true] at steady
    rw [ends, ends, List.mem_flatMap, List.mem_flatMap]
    constructor
    · rintro ⟨middle, before, behind⟩
      obtain ⟨text, -, passes⟩ := passes_of_mem_ends behind
      obtain ⟨place, rfl⟩ := Cursor.exists_extend passes
      exact ⟨place, (ihFirst steady.1).1 before, (ihSecond steady.2).1 behind⟩
    · rintro ⟨middle, before, behind⟩
      exact ⟨middle.extend back, (ihFirst steady.1).2 before, (ihSecond steady.2).2 behind⟩
  | alt first second ihFirst ihSecond =>
    rw [Pattern.steady, Bool.and_eq_true] at steady
    rw [ends, ends, List.mem_append, List.mem_append]
    exact or_congr (ihFirst steady.1) (ihSecond steady.2)

section

variable (within : ∀ c ∈ back, c ∈ alphabet)
include within

theorem exists_mem_ends (steady : pattern.steady = true) (ends : pattern.endsBeyond alphabet = true)
    (apart : startsIn CharSet.word back = false) (inside : cursor.In (text ++ back))
    (found : stop ∈ pattern.ends cursor) :
    ∃ start place : Cursor, cursor = start.extend back ∧ stop = place.extend back ∧ start.In text ∧
      place ∈ pattern.ends start := by
  have behind := (reach_of_mem_ends found).in_text inside
  obtain ⟨place, rfl⟩ := Cursor.exists_extend_of_beyond within behind (ends_beyond_of_mem_ends ends found)
  obtain ⟨taken, -, passes⟩ := passes_of_mem_ends found
  obtain ⟨start, rfl⟩ := Cursor.exists_extend passes
  exact ⟨start, place, rfl, rfl, inside.of_extend, (extend_mem_ends steady apart).1 found⟩

theorem occursIn_append_of_beyond (steady : pattern.steady = true) (ends : pattern.endsBeyond alphabet = true)
    (apart : startsIn CharSet.word back = false) : pattern.occursIn (text ++ back) = pattern.occursIn text := by
  rw [Bool.eq_iff_iff, occursIn_iff, occursIn_iff]
  constructor
  · intro ⟨cursor, stop, inside, fresh, found⟩
    obtain ⟨start, place, rfl, rfl, within_text, match_text⟩ := exists_mem_ends within steady ends apart inside found
    exact ⟨start, place, within_text, fresh, match_text⟩
  · intro ⟨cursor, stop, inside, fresh, found⟩
    exact ⟨cursor.extend back, stop.extend back, inside.extend, fresh, (extend_mem_ends steady apart).2 found⟩

end

/-! ## Matches up to the end of a line -/

/-- At the start of the text are characters of the set, if any, and behind them the line ends. -/
def RunsOut (set : CharSet) (text : List Char) : Prop :=
  ∃ run rest, text = run ++ rest ∧ (∀ c ∈ run, set c = true) ∧
    (rest.isEmpty || startsIn (· == '\n') rest) = true

theorem exists_end_iff {first : Pattern} {set : CharSet} :
    (∃ stop, stop ∈ (seq (seq first (many set)) (guard .lineEnd)).ends cursor) ↔
      ∃ middle ∈ first.ends cursor, RunsOut set middle.after := by
  constructor
  · intro ⟨stop, found⟩
    obtain ⟨last, before, behind⟩ := mem_ends_append.1 found
    obtain ⟨middle, lead, rest⟩ := mem_ends_append.1 before
    obtain ⟨run, inside, passes⟩ := passes_of_mem_ends rest
    exact ⟨middle, lead, run, last.after, passes.after, inside, (mem_ends_guard.1 behind).1⟩
  · intro ⟨middle, lead, run, rest, split, inside, line_end⟩
    have passes := Cursor.passes_behind run middle.before rest middle.taken
    rw [← split] at passes
    have here : _ ∈ (many set).ends middle := mem_ends_of_spells rfl inside passes
    exact ⟨_, mem_ends_append.2 ⟨_, mem_ends_append.2 ⟨middle, lead, here⟩, mem_ends_guard.2 ⟨line_end, rfl⟩⟩⟩

theorem runsOut_append {set : CharSet} (goes_on : ∀ c ∈ back, set c = true ∨ c = '\n') :
    RunsOut set (text ++ back) ↔ RunsOut set text := by
  constructor
  · intro ⟨run, rest, split, inside, line_end⟩
    rcases List.append_eq_append_iff.1 split with ⟨more, whole, -⟩ | ⟨more, whole, behind⟩
    · have all : ∀ c ∈ text, set c = true := fun c member => inside c (whole ▸ List.mem_append_left _ member)
      exact ⟨text, [], (List.append_nil text).symm, all, rfl⟩
    · refine ⟨run, more, whole, inside, ?_⟩
      cases more with
      | nil => rfl
      | cons c more =>
        rw [behind] at line_end
        exact line_end
  · intro ⟨run, rest, split, inside, line_end⟩
    cases rest with
    | cons c rest =>
      refine ⟨run, c :: rest ++ back, ?_, inside, line_end⟩
      rw [split, List.append_assoc]
    | nil =>
      refine ⟨run ++ back.takeWhile set, back.dropWhile set, ?_, ?_, ?_⟩
      · rw [split, List.append_nil, List.append_assoc, List.takeWhile_append_dropWhile]
      · exact List.forall_mem_append.2 ⟨inside, fun c member => List.mem_takeWhile_imp member⟩
      · have stops := startsIn_dropWhile set back
        cases rest : back.dropWhile set with
        | nil => rfl
        | cons c further =>
          rw [rest] at stops
          have member : c ∈ back := List.dropWhile_subset _ (rest ▸ List.mem_cons_self)
          have feed := (goes_on c member).resolve_left (Bool.eq_false_iff.1 stops)
          simp [startsIn, feed]

theorem occursIn_append_of_line {first : Pattern} {set : CharSet} (steady : first.steady = true)
    (ends : first.endsBeyond alphabet = true) (goes_on : ∀ c ∈ alphabet, set c = true ∨ c = '\n')
    (within : ∀ c ∈ back, c ∈ alphabet) (apart : startsIn CharSet.word back = false) :
    (seq (seq first (many set)) (guard .lineEnd)).occursIn (text ++ back) =
      (seq (seq first (many set)) (guard .lineEnd)).occursIn text := by
  have further : ∀ c ∈ back, set c = true ∨ c = '\n' := fun c member => goes_on c (within c member)
  rw [Bool.eq_iff_iff, occursIn_iff, occursIn_iff]
  constructor
  · intro ⟨cursor, stop, inside, fresh, found⟩
    obtain ⟨middle, lead, line_end⟩ := exists_end_iff.1 ⟨stop, found⟩
    obtain ⟨start, place, rfl, rfl, within_text, match_text⟩ := exists_mem_ends within steady ends apart inside lead
    obtain ⟨last, closing⟩ := exists_end_iff.2 ⟨place, match_text, (runsOut_append further).1 line_end⟩
    exact ⟨start, last, within_text, fresh, closing⟩
  · intro ⟨cursor, stop, inside, fresh, found⟩
    obtain ⟨middle, lead, line_end⟩ := exists_end_iff.1 ⟨stop, found⟩
    have whole : middle.extend back ∈ first.ends (cursor.extend back) := (extend_mem_ends steady apart).2 lead
    obtain ⟨last, closing⟩ := exists_end_iff.2 ⟨middle.extend back, whole, (runsOut_append further).2 line_end⟩
    exact ⟨cursor.extend back, last, inside.extend, fresh, closing⟩

/-! ## Patterns that more white space does not matter to -/

/-- The pattern goes on to the end of a line, through all characters of the alphabet but line feeds. -/
def closesLine (alphabet : List Char) : Pattern → Bool
  | seq (seq first (many set)) (guard .lineEnd) =>
    first.steady && first.endsBeyond alphabet && alphabet.all fun c => set c || c == '\n'
  | _ => false

/-- Characters of the alphabet behind a text neither add a match nor take one away. -/
def settled (alphabet : List Char) (pattern : Pattern) : Bool :=
  (pattern.steady && pattern.endsBeyond alphabet) || pattern.closesLine alphabet

theorem occursIn_append (settled : pattern.settled alphabet = true) (within : ∀ c ∈ back, c ∈ alphabet)
    (apart : startsIn CharSet.word back = false) : pattern.occursIn (text ++ back) = pattern.occursIn text := by
  rw [Pattern.settled, Bool.or_eq_true, Bool.and_eq_true] at settled
  rcases settled with ⟨steady, ends⟩ | closing
  · exact occursIn_append_of_beyond within steady ends apart
  · unfold closesLine at closing
    split at closing
    next first set =>
      simp only [Bool.and_eq_true, List.all_eq_true, Bool.or_eq_true, beq_iff_eq] at closing
      obtain ⟨⟨steady, ends⟩, goes_on⟩ := closing
      exact occursIn_append_of_line steady ends goes_on within apart
    next => cases closing

end Pattern

end CodeColor
