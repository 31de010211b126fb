import CodeColor.Proofs.Pattern.Lasting

/-!
The places where a match can end, by the text in front of them. A pattern that neither looks around nor ahead can end
behind every text that it spells.

Main statement: `mem_ends_unguarded`.
-/

namespace CodeColor

/-- The second cursor lies behind the first and the text, which has been passed and counted. -/
structure Cursor.Passes (text : List Char) (first second : Cursor) : Prop extends Cursor.Takes text first second where
  before : second.before = text.reverse ++ first.before

namespace Cursor

variable {text : List Char} {cursor stop : Cursor}

theorem Passes.eq (passes : cursor.Passes text stop) :
    stop = ⟨text.reverse ++ cursor.before, stop.after, cursor.taken + text.length⟩ := by
  obtain ⟨before, after, taken⟩ := stop
  have behind : before = text.reverse ++ cursor.before := passes.before
  have count : taken = cursor.taken + text.length := passes.taken
  rw [behind, count]

theorem passes_behind (text before rest : List Char) (taken : Nat) :
    Passes text ⟨before, text ++ rest, taken⟩ ⟨text.reverse ++ before, rest, taken + text.length⟩ :=
  ⟨⟨rfl, rfl⟩, rfl⟩

theorem Passes.split {front back : List Char} (passes : cursor.Passes (front ++ back) stop) :
    ∃ middle, cursor.Passes front middle ∧ middle.Passes back stop := by
  refine ⟨⟨front.reverse ++ cursor.before, back ++ stop.after, cursor.taken + front.length⟩, ⟨⟨?_, rfl⟩, rfl⟩,
    ⟨⟨rfl, ?_⟩, ?_⟩⟩
  · rw [passes.after, List.append_assoc]
  · rw [passes.taken, List.length_append, Nat.add_assoc]
  · rw [passes.before, List.reverse_append, List.append_assoc]

theorem past?_of_passes (passes : cursor.Passes text stop) : cursor.past? text = some stop := by
  obtain ⟨before, after, taken⟩ := cursor
  have whole : after = text ++ stop.after := passes.after
  rw [whole, past?_append, passes.eq]

theorem step?_of_passes {set : CharSet} {c : Char} (inside : set c = true) (passes : cursor.Passes [c] stop) :
    cursor.step? set = some stop := by
  obtain ⟨before, after, taken⟩ := cursor
  have whole : after = c :: stop.after := passes.after
  rw [whole, step?]
  dsimp only
  rw [if_pos inside, passes.eq]
  rfl

theorem mem_runStops_of_passes {set : CharSet} {before after : List Char} {taken : Nat}
    (inside : ∀ c ∈ text, set c = true) (passes : Passes text ⟨before, after, taken⟩ stop) :
    stop ∈ runStops set [] before taken after := by
  induction text generalizing before after taken with
  | nil =>
    have here : stop = ⟨before, stop.after, taken⟩ := passes.eq
    have whole : after = stop.after := passes.after
    rw [here, whole]
    exact here_mem_runStops ..
  | cons c text ih =>
    obtain ⟨first, others⟩ := List.forall_mem_cons.1 inside
    have whole : after = c :: (text ++ stop.after) := passes.after
    have onward : Passes text ⟨c :: before, text ++ stop.after, taken + 1⟩ stop := by
      refine ⟨⟨rfl, ?_⟩, ?_⟩
      · rw [passes.taken, List.length_cons, Nat.add_assoc, Nat.add_comm 1]
      · rw [passes.before, List.reverse_cons, List.append_assoc]
        rfl
    rw [whole, runStops, if_pos first, runStops_append]
    exact List.mem_append_left _ (ih others onward)

end Cursor

namespace Pattern

variable {pattern : Pattern} {cursor stop : Cursor}

theorem passes_of_mem_ends (found : stop ∈ pattern.ends cursor) :
    ∃ text, pattern.Spells text ∧ cursor.Passes text stop := by
  obtain ⟨text, spelled, takes⟩ := takes_of_mem_ends found
  exact ⟨text, spelled, takes, takes.before (reach_of_mem_ends found)⟩

/-- The pattern takes what it spells, whatever stands around. -/
def unguarded : Pattern → Bool
  | literal _ | one _ | many _ | few _ => true
  | quotedBody _ | guard _ | ahead _ => false
  | seq first second | alt first second => first.unguarded && second.unguarded

theorem mem_ends_of_spells (unguarded : pattern.unguarded = true) {text : List Char} (spelled : pattern.Spells text)
    (passes : cursor.Passes text stop) : stop ∈ pattern.ends cursor := by
  induction pattern generalizing cursor stop text with
  | literal word =>
    obtain rfl : text = word := spelled
    rw [ends, Option.mem_toList]
    exact Cursor.past?_of_passes passes
  | one set =>
    obtain ⟨c, inside, rfl⟩ := spelled
    rw [ends, Option.mem_toList]
    exact Cursor.step?_of_passes inside passes
  | many set => exact Cursor.mem_runStops_of_passes spelled passes
  | few set => exact List.mem_reverse.2 (Cursor.mem_runStops_of_passes spelled passes)
  | quotedBody quote | guard condition | ahead pattern => cases unguarded
  | seq first second ihFirst ihSecond =>
    rw [Pattern.unguarded, Bool.and_eq_true] at unguarded
    obtain ⟨front, back, rfl, left, right⟩ := spelled
    obtain ⟨middle, before, behind⟩ := passes.split
    exact List.mem_flatMap.2 ⟨middle, ihFirst unguarded.1 left before, ihSecond unguarded.2 right behind⟩
  | alt first second ihFirst ihSecond =>
    rw [Pattern.unguarded, Bool.and_eq_true] at unguarded
    exact List.mem_append.2 (spelled.imp (ihFirst unguarded.1 · passes) (ihSecond unguarded.2 · passes))

/-- Such a pattern can end behind each text that it spells, and nowhere else. -/
theorem mem_ends_unguarded (unguarded : pattern.unguarded = true) :
    stop ∈ pattern.ends cursor ↔ ∃ text, pattern.Spells text ∧ cursor.Passes text stop := by
  constructor
  · exact passes_of_mem_ends
  · intro ⟨text, spelled, passes⟩
    exact mem_ends_of_spells unguarded spelled passes

theorem mem_ends_of_matchLength? {before text rest : List Char}
    (found : pattern.matchLength? before (text ++ rest) = some text.length) :
    ⟨text.reverse ++ before, rest, text.length⟩ ∈ pattern.ends ⟨before, text ++ rest, 0⟩ := by
  rw [matchLength?_eq] at found
  obtain ⟨stop, first, count⟩ := Option.map_eq_some_iff.1 found
  have member := List.mem_of_find?_eq_some first
  obtain ⟨taken, -, passes⟩ := passes_of_mem_ends member
  have size : taken.length = text.length := by rw [← count, passes.taken, Nat.zero_add]
  obtain ⟨rfl, behind⟩ := List.append_inj passes.after.symm size
  rw [passes.eq, behind, Nat.zero_add] at member
  exact member

theorem mem_ends_append {first second : Pattern} :
    stop ∈ (first ++ second).ends cursor ↔ ∃ middle ∈ first.ends cursor, stop ∈ second.ends middle :=
  List.mem_flatMap

end Pattern

end CodeColor
