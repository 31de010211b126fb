import CodeColor.Grammar.Extension
import CodeColor.Proofs.Text.Names

/-!
When an extension applies, and which rules it leaves alone.

Main statements: `Extension.mem_unknown`, `Grammar.extend_eq_ok`, `Grammar.extend_at` and `Grammar.extend_eq_error`.
-/

namespace CodeColor

namespace Extension

theorem mem_unknown {extension : Extension} {base : Grammar} {name : String} :
    name ∈ extension.unknown base ↔ name ∈ extension.keys ∧ name ∉ base.map Rule.name := by
  unfold unknown
  rw [List.mem_mergeSort, List.mem_eraseDups, List.mem_filter]
  simp

theorem unknown_eq_nil {extension : Extension} {base : Grammar}
    (known : ∀ name ∈ extension.keys, name ∈ base.map Rule.name) : extension.unknown base = [] := by
  apply List.eq_nil_iff_forall_not_mem.2
  intro name member
  obtain ⟨key, missing⟩ := mem_unknown.1 member
  exact missing (known name key)

theorem ascending_unknown (extension : Extension) (base : Grammar) :
    (extension.unknown base).Pairwise (· < ·) :=
  ascending_mergeSort (nodup_eraseDups _)

theorem lookup_eq_none {Value : Type} {name : String} {entries : List (String × Value)}
    (absent : name ∉ entries.map Prod.fst) : entries.lookup name = none := by
  apply List.lookup_eq_none_iff.2
  intro entry member
  have other : name ≠ entry.1 := by
    rintro rfl
    exact absent (List.mem_map_of_mem member)
  simpa using other

theorem expand_eq_self {extension : Extension} {rule : Rule} (unnamed : rule.name ∉ extension.keys) :
    extension.expand rule = [rule] := by
  have apart := fun found => unnamed (List.mem_append.2 found)
  unfold expand
  rw [lookup_eq_none (fun found => apart (.inl found)), lookup_eq_none (fun found => apart (.inr found))]
  rfl

theorem applyTo_eq_self {extension : Extension} {base : Grammar}
    (unnamed : ∀ rule ∈ base, rule.name ∉ extension.keys) : extension.applyTo base = base := by
  unfold applyTo
  induction base with
  | nil => rfl
  | cons rule base ih =>
    rw [List.flatMap_cons, expand_eq_self (unnamed rule List.mem_cons_self),
      ih (fun other member => unnamed other (List.mem_cons_of_mem _ member))]
    rfl

end Extension

theorem Grammar.extend_eq_ok {base : Grammar} {extension : Extension}
    (known : ∀ name ∈ extension.keys, name ∈ base.map Rule.name) :
    base.extend extension = .ok (extension.applyTo base) := by
  unfold Grammar.extend
  rw [Extension.unknown_eq_nil known]

/-- An extension that names one rule of the base changes the base there and nowhere else. -/
theorem Grammar.extend_at {first others : Grammar} {rule new : Rule} {inserted : List Rule}
    (once : rule.name ∉ (first ++ others).map Rule.name) :
    (first ++ rule :: others).extend ⟨[(rule.name, new)], [(rule.name, inserted)]⟩ =
      .ok (first ++ new :: (inserted ++ others)) := by
  let extension : Extension := ⟨[(rule.name, new)], [(rule.name, inserted)]⟩
  have keys : extension.keys = [rule.name, rule.name] := rfl
  have unnamed : ∀ other ∈ first ++ others, other.name ∉ extension.keys := by
    intro other member named
    have same : other.name = rule.name := by simpa [keys] using named
    exact once (same ▸ List.mem_map_of_mem member)
  have expanded : extension.expand rule = new :: inserted := by simp [extension, Extension.expand]
  have left : extension.applyTo first = first :=
    Extension.applyTo_eq_self fun other member => unnamed other (List.mem_append_left _ member)
  have right : extension.applyTo others = others :=
    Extension.applyTo_eq_self fun other member => unnamed other (List.mem_append_right _ member)
  have whole : extension.applyTo (first ++ rule :: others) = first ++ new :: (inserted ++ others) := by
    unfold Extension.applyTo at left right ⊢
    rw [List.flatMap_append, List.flatMap_cons, left, right, expanded, List.cons_append]
  have known : ∀ name ∈ extension.keys, name ∈ (first ++ rule :: others).map Rule.name := by simp [keys]
  exact (extend_eq_ok known).trans (congrArg Except.ok whole)

/-- An extension is refused for the names that the base does not have. -/
theorem Grammar.extend_eq_error {base : Grammar} {extension : Extension} {unknown : UnknownRules} :
    base.extend extension = .error unknown ↔
      unknown.names = extension.unknown base ∧ extension.unknown base ≠ [] := by
  obtain ⟨refused⟩ := unknown
  unfold Grammar.extend
  cases extension.unknown base with
  | nil => simp
  | cons name names =>
    constructor
    · intro failed
      cases failed
      exact ⟨rfl, List.cons_ne_nil name names⟩
    · intro failed
      exact congrArg (fun names => Except.error (UnknownRules.mk names)) failed.1.symm

theorem Grammar.refused_iff {base : Grammar} {extension : Extension} :
    (∃ unknown, base.extend extension = .error unknown) ↔
      ∃ name ∈ extension.keys, name ∉ base.map Rule.name := by
  constructor
  · intro ⟨unknown, refused⟩
    obtain ⟨name, member⟩ := List.exists_mem_of_ne_nil _ (extend_eq_error.1 refused).2
    exact ⟨name, Extension.mem_unknown.1 member⟩
  · intro ⟨name, key, missing⟩
    have member : name ∈ extension.unknown base := Extension.mem_unknown.2 ⟨key, missing⟩
    exact ⟨⟨extension.unknown base⟩, extend_eq_error.2 ⟨rfl, List.ne_nil_of_mem member⟩⟩

end CodeColor
