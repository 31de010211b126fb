import CodeColor.Proofs.Grammar.Extension
import Mathlib.Data.List.Basic

/-!
One extension after another. What the first adds is not named by the second, and what it swaps in keeps its name, so
the second finds the rules of the base where they were.

Main statements: `applyTo_applyTo` and `extensions_compose`.
-/

namespace CodeColor

namespace Extension

variable {first second : Extension}

/-! ## Both extensions as one -/

def added (extension : Extension) (name : String) : List Rule :=
  (extension.insertAfter.lookup name).getD []

def replaced (extension : Extension) (rule : Rule) : Rule :=
  (extension.replace.lookup rule.name).getD rule

/-- The two extensions as one. Where both replace a rule, the second does; where both add rules behind one, those of
the second come first. -/
def followedBy (first second : Extension) : Extension where
  replace := second.replace ++ first.replace
  insertAfter := (second.insertAfter ++ first.insertAfter).map fun (name, _) =>
    (name, second.added name ++ first.added name)

theorem expand_eq (extension : Extension) (rule : Rule) :
    extension.expand rule = extension.replaced rule :: extension.added rule.name := rfl

theorem lookup_replace_followedBy (first second : Extension) (name : String) :
    (first.followedBy second).replace.lookup name =
      (second.replace.lookup name).or (first.replace.lookup name) :=
  List.lookup_append

theorem added_eq_nil {extension : Extension} {name : String}
    (absent : name ∉ extension.insertAfter.map Prod.fst) : extension.added name = [] := by
  rw [added, lookup_eq_none absent]
  rfl

theorem lookup_map_key {Value Other : Type} (value : String → Other) (name : String)
    (entries : List (String × Value)) (known : name ∈ entries.map Prod.fst) :
    (entries.map fun entry => (entry.1, value entry.1)).lookup name = some (value name) := by
  induction entries with
  | nil => cases known
  | cons entry entries ih =>
    rw [List.map_cons, List.lookup_cons]
    by_cases here : name = entry.1
    · rw [here, beq_self_eq_true]
    · have later : name ∈ entries.map Prod.fst := (List.mem_cons.1 known).resolve_left here
      rw [beq_false_of_ne here]
      exact ih later

theorem added_followedBy (first second : Extension) (name : String) :
    (first.followedBy second).added name = second.added name ++ first.added name := by
  by_cases known : name ∈ (second.insertAfter ++ first.insertAfter).map Prod.fst
  · unfold added followedBy
    rw [lookup_map_key (fun name => second.added name ++ first.added name) name _ known]
    rfl
  · have apart := known
    rw [List.map_append, List.mem_append, not_or] at apart
    rw [added_eq_nil apart.1, added_eq_nil apart.2, List.append_nil]
    apply added_eq_nil
    unfold followedBy
    rw [List.map_map]
    exact known

theorem mem_keys_followedBy (first second : Extension) (name : String) :
    name ∈ (first.followedBy second).keys ↔ name ∈ first.keys ∨ name ∈ second.keys := by
  unfold keys followedBy
  rw [List.map_map]
  simp only [List.map_append, List.mem_append, Function.comp_def]
  tauto

/-! ## One after the other -/

/-- The extension looks for rules of the base only, and what it swaps in keeps the name. -/
structure Fits (extension : Extension) (base : Grammar) : Prop where
  known : ∀ name ∈ extension.keys, name ∈ base.map Rule.name
  named : ∀ entry ∈ extension.replace, entry.2.name = entry.1

/-- No rule that the first adds has a name that the second looks for. -/
def Spares (first second : Extension) : Prop :=
  ∀ entry ∈ first.insertAfter, ∀ rule ∈ entry.2, rule.name ∉ second.keys

instance (first second : Extension) : Decidable (first.Spares second) :=
  inferInstanceAs (Decidable (∀ entry ∈ first.insertAfter, ∀ rule ∈ entry.2, rule.name ∉ second.keys))

theorem mem_of_lookup {Value : Type} {name : String} {value : Value} {entries : List (String × Value)}
    (found : entries.lookup name = some value) : (name, value) ∈ entries := by
  obtain ⟨before, behind, whole, -⟩ := List.lookup_eq_some_iff.1 found
  rw [whole]
  exact List.mem_append_right before List.mem_cons_self

theorem replaced_name {extension : Extension} (named : ∀ entry ∈ extension.replace, entry.2.name = entry.1)
    (rule : Rule) : (extension.replaced rule).name = rule.name := by
  unfold replaced
  cases found : extension.replace.lookup rule.name with
  | none => rfl
  | some other => exact named _ (mem_of_lookup found)

theorem Spares.added (spares : first.Spares second) (name : String) :
    ∀ rule ∈ first.added name, rule.name ∉ second.keys := by
  intro rule member
  unfold Extension.added at member
  cases found : first.insertAfter.lookup name with
  | none =>
    rw [found] at member
    cases member
  | some rules =>
    rw [found] at member
    exact spares _ (mem_of_lookup found) rule member

theorem replaced_followedBy (named : ∀ entry ∈ first.replace, entry.2.name = entry.1) (rule : Rule) :
    second.replaced (first.replaced rule) = (first.followedBy second).replaced rule := by
  have name := replaced_name named rule
  unfold replaced at name ⊢
  rw [lookup_replace_followedBy, name]
  cases second.replace.lookup rule.name with
  | none => rw [Option.none_or, Option.getD_none]
  | some other => rfl

theorem expand_followedBy (named : ∀ entry ∈ first.replace, entry.2.name = entry.1)
    (spares : first.Spares second) (rule : Rule) :
    (first.expand rule).flatMap second.expand = (first.followedBy second).expand rule := by
  calc
    _ = second.expand (first.replaced rule) ++ second.applyTo (first.added rule.name) := by
      rw [expand_eq, List.flatMap_cons]
      rfl
    _ = second.expand (first.replaced rule) ++ first.added rule.name := by
      rw [applyTo_eq_self (spares.added rule.name)]
    _ = second.replaced (first.replaced rule) :: (second.added rule.name ++ first.added rule.name) := by
      rw [expand_eq, replaced_name named, List.cons_append]
    _ = (first.followedBy second).expand rule := by
      rw [expand_eq, replaced_followedBy named, added_followedBy]

theorem applyTo_applyTo (named : ∀ entry ∈ first.replace, entry.2.name = entry.1) (spares : first.Spares second)
    (base : Grammar) : second.applyTo (first.applyTo base) = (first.followedBy second).applyTo base := by
  unfold applyTo
  rw [List.flatMap_assoc]
  exact List.flatMap_congr fun rule _ => expand_followedBy named spares rule

theorem mem_names_applyTo {extension : Extension} {base : Grammar}
    (named : ∀ entry ∈ extension.replace, entry.2.name = entry.1) {name : String}
    (known : name ∈ base.map Rule.name) : name ∈ (extension.applyTo base).map Rule.name := by
  obtain ⟨rule, member, rfl⟩ := List.mem_map.1 known
  have first : extension.replaced rule ∈ extension.expand rule := List.mem_cons_self
  have found : extension.replaced rule ∈ extension.applyTo base := List.mem_flatMap.2 ⟨rule, member, first⟩
  have name := replaced_name named rule
  exact List.mem_map.2 ⟨_, found, name⟩

/-! ## In either order -/

theorem or_lookup_comm {Value : Type} {left right : List (String × Value)}
    (apart : ∀ name ∈ left.map Prod.fst, name ∉ right.map Prod.fst) (name : String) :
    (left.lookup name).or (right.lookup name) = (right.lookup name).or (left.lookup name) := by
  by_cases known : name ∈ left.map Prod.fst
  · rw [lookup_eq_none (apart name known), Option.or_none, Option.none_or]
  · rw [lookup_eq_none known, Option.or_none, Option.none_or]

theorem added_append_comm
    (apart : ∀ name ∈ first.insertAfter.map Prod.fst, name ∉ second.insertAfter.map Prod.fst) (name : String) :
    first.added name ++ second.added name = second.added name ++ first.added name := by
  by_cases known : name ∈ first.insertAfter.map Prod.fst
  · rw [added_eq_nil (apart name known), List.append_nil, List.nil_append]
  · rw [added_eq_nil known, List.append_nil, List.nil_append]

theorem applyTo_followedBy_comm
    (replacements : ∀ name ∈ first.replace.map Prod.fst, name ∉ second.replace.map Prod.fst)
    (additions : ∀ name ∈ first.insertAfter.map Prod.fst, name ∉ second.insertAfter.map Prod.fst)
    (base : Grammar) :
    (second.followedBy first).applyTo base = (first.followedBy second).applyTo base := by
  apply List.flatMap_congr
  intro rule _
  have same : (second.followedBy first).replaced rule = (first.followedBy second).replaced rule := by
    unfold replaced
    rw [lookup_replace_followedBy, lookup_replace_followedBy, or_lookup_comm replacements]
  rw [expand_eq, expand_eq, same, added_followedBy, added_followedBy, added_append_comm additions]

end Extension

open Extension

theorem Grammar.extend_extend {base : Grammar} {first second : Extension} (fits : first.Fits base)
    (fits' : second.Fits base) (spares : first.Spares second) :
    (base.extend first).bind (fun extended => extended.extend second) =
      .ok ((first.followedBy second).applyTo base) := by
  have known : ∀ name ∈ second.keys, name ∈ (first.applyTo base).map Rule.name :=
    fun name key => mem_names_applyTo fits.named (fits'.known name key)
  rw [Grammar.extend_eq_ok fits.known, Except.bind, Grammar.extend_eq_ok known,
    applyTo_applyTo fits.named spares]

/-- One extension after another extends the base as both together do. Where neither names what the other names or adds,
their order does not matter. -/
theorem extensions_compose {base : Grammar} {first second : Extension} (fits : first.Fits base)
    (fits' : second.Fits base) (spares : first.Spares second) :
    ∃ extended,
      (base.extend first).bind (fun table => table.extend second) = .ok extended ∧
      base.extend (first.followedBy second) = .ok extended ∧
      ((∀ name ∈ first.replace.map Prod.fst, name ∉ second.replace.map Prod.fst) →
        (∀ name ∈ first.insertAfter.map Prod.fst, name ∉ second.insertAfter.map Prod.fst) →
        second.Spares first →
        (base.extend second).bind (fun table => table.extend first) = .ok extended) := by
  have known : ∀ name ∈ (first.followedBy second).keys, name ∈ base.map Rule.name := by
    intro name key
    exact ((mem_keys_followedBy first second name).1 key).elim (fits.known name) (fits'.known name)
  refine ⟨_, Grammar.extend_extend fits fits' spares, Grammar.extend_eq_ok known, ?_⟩
  intro replacements additions spares'
  rw [Grammar.extend_extend fits' fits spares', applyTo_followedBy_comm replacements additions]

/-- Two rules of one name, which one extension replaces and the other one follows. -/
theorem extensions_compose_at_repeated_name :
    let rule (name text : String) := Rule.literal name text none
    let base : Grammar := [rule "word" "a", rule "sign" "+", rule "word" "b"]
    let first : Extension := ⟨[("word", rule "word" "c")], [("sign", [rule "mark" "!"])]⟩
    let second : Extension := ⟨[("sign", rule "sign" "-")], [("word", [rule "tail" "y", rule "end" "z"])]⟩
    (first.Fits base ∧ second.Fits base ∧ first.Spares second ∧ second.Spares first) ∧
      ∃ extended,
        (base.extend first).bind (fun table => table.extend second) = .ok extended ∧
        base.extend (first.followedBy second) = .ok extended ∧
        (base.extend second).bind (fun table => table.extend first) = .ok extended ∧
        extended.map Rule.name = ["word", "tail", "end", "sign", "mark", "word", "tail", "end"] := by
  intro rule base first second
  have fits : first.Fits base := ⟨by decide, by decide⟩
  have fits' : second.Fits base := ⟨by decide, by decide⟩
  have spares : first.Spares second := by decide
  have spares' : second.Spares first := by decide
  obtain ⟨extended, composed, joined, swapped⟩ := extensions_compose fits fits' spares
  have swapped' := swapped (by decide) (by decide) spares'
  have table : extended = (first.followedBy second).applyTo base :=
    Except.ok.inj (composed.symm.trans (Grammar.extend_extend fits fits' spares))
  have names : extended.map Rule.name = ["word", "tail", "end", "sign", "mark", "word", "tail", "end"] := by
    rw [table]
    decide
  exact ⟨⟨fits, fits', spares, spares'⟩, extended, composed, joined, swapped', names⟩

end CodeColor
