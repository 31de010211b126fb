import CodeColor.Proofs.Claim.Division
import CodeColor.Proofs.Claim.Place

/-!
Rules that come later only cut up what is still free. The pieces after more rules refine the pieces before:
claimed pieces stay, and a free piece becomes pieces of the same text, claimed for the types of the further
rules.

Main statements: `Grammar.refines_claim_append`, and `Piece.Refines.keeps` and `Piece.Refines.origin`, which
say where the claimed pieces of one side are found on the other; `Piece.Refines.free_origin` for the free ones.
-/

namespace CodeColor

namespace Piece

/-- The second pieces are the first ones, where free text may be cut and claimed for one of the types. -/
inductive Refines (types : List TokenType) : List Piece → List Piece → Prop where
  | nil : Refines types [] []
  | claimed {text : List Char} {type : TokenType} {coarse fine : List Piece}
      (onward : Refines types coarse fine) :
      Refines types (⟨text, some type⟩ :: coarse) (⟨text, some type⟩ :: fine)
  | free {parts coarse fine : List Piece}
      (typed : ∀ part ∈ parts, ∀ type, part.type? = some type → type ∈ types)
      (onward : Refines types coarse fine) :
      Refines types (⟨source parts, none⟩ :: coarse) (parts ++ fine)

namespace Refines

variable {types more : List TokenType} {coarse middle fine : List Piece}

theorem source_eq (refines : Refines types coarse fine) : source fine = source coarse := by
  induction refines with
  | nil => rfl
  | claimed _ ih => rw [source_cons, source_cons, ih]
  | free _ _ ih => rw [source_append, source_cons, ih]

theorem type_mem (refines : Refines types coarse fine) {part : Piece} {type : TokenType}
    (member : part ∈ fine) (typed : part.type? = some type) : part ∈ coarse ∨ type ∈ types := by
  induction refines with
  | nil => cases member
  | claimed _ ih =>
    rcases List.mem_cons.1 member with same | further
    · exact .inl (same ▸ List.mem_cons_self)
    · exact (ih further).imp_left (List.mem_cons_of_mem _)
  | free allowed _ ih =>
    rcases List.mem_append.1 member with inside | further
    · exact .inr (allowed part inside type typed)
    · exact (ih further).imp_left (List.mem_cons_of_mem _)

theorem refl (types : List TokenType) (pieces : List Piece) : Refines types pieces pieces := by
  induction pieces with
  | nil => exact .nil
  | cons piece pieces ih =>
    obtain ⟨text, type?⟩ := piece
    cases type? with
    | some type => exact .claimed ih
    | none =>
      have alone : source [⟨text, none⟩] = text := List.append_nil text
      have untyped : ∀ part ∈ [(⟨text, none⟩ : Piece)], ∀ type, part.type? = some type → type ∈ types := by
        intro part member type typed
        rw [List.mem_singleton.1 member] at typed
        cases typed
      have cut := Refines.free untyped ih
      rwa [alone] at cut

theorem split {first second : List Piece} (refines : Refines types (first ++ second) fine) :
    ∃ left right, fine = left ++ right ∧ Refines types first left ∧ Refines types second right := by
  induction first generalizing fine with
  | nil => exact ⟨[], fine, rfl, .nil, refines⟩
  | cons piece first ih =>
    cases refines with
    | claimed onward =>
      obtain ⟨left, right, rfl, before, behind⟩ := ih onward
      exact ⟨_ :: left, right, rfl, .claimed before, behind⟩
    | free typed onward =>
      obtain ⟨left, right, rfl, before, behind⟩ := ih onward
      exact ⟨_ ++ left, right, (List.append_assoc ..).symm, .free typed before, behind⟩

theorem trans (first : Refines types coarse middle) (second : Refines more middle fine) :
    Refines (types ++ more) coarse fine := by
  induction first generalizing fine with
  | nil =>
    cases second
    exact .nil
  | claimed _ ih =>
    cases second with
    | claimed onward => exact .claimed (ih onward)
  | @free parts _ _ typed _ ih =>
    obtain ⟨left, right, rfl, inside, behind⟩ := second.split
    rw [← inside.source_eq]
    refine .free ?_ (ih behind)
    intro part member type found
    rcases inside.type_mem member found with earlier | later
    · exact List.mem_append_left _ (typed part earlier type found)
    · exact List.mem_append_right _ later

theorem keeps (refines : Refines types coarse fine) {text before : List Char} {type : TokenType}
    (stands : Stands ⟨text, some type⟩ before coarse) : Stands ⟨text, some type⟩ before fine := by
  induction refines generalizing before with
  | nil => cases stands
  | claimed _ ih =>
    cases stands with
    | here => exact .here
    | behind _ further => exact .behind _ (ih further)
  | @free parts _ _ _ _ ih =>
    cases stands with
    | behind _ further => exact (ih further).append_right parts

theorem kept_or_inside (refines : Refines types coarse fine) {piece : Piece} {before : List Char}
    (stands : piece.Stands before fine) :
    (piece.type? ≠ none ∧ piece.Stands before coarse) ∨
      (∀ type, piece.type? = some type → type ∈ types) ∧ ∃ start left right, before = start ++ left ∧
        Stands ⟨left ++ (piece.text ++ right), none⟩ start coarse := by
  induction refines generalizing before with
  | nil => cases stands
  | @claimed _ type _ _ _ ih =>
    cases stands with
    | here => exact .inl ⟨Option.some_ne_none type, .here⟩
    | behind _ further =>
      rcases ih further with ⟨claimed, earlier⟩ | ⟨allowed, start, left, right, rfl, gap⟩
      · exact .inl ⟨claimed, .behind _ earlier⟩
      · refine .inr ⟨allowed, _, left, right, ?_, .behind _ gap⟩
        rw [List.append_assoc]
  | @free parts _ _ typed _ ih =>
    rcases stands.of_append with inside | ⟨rest, rfl, outside⟩
    · obtain ⟨right, whole⟩ := inside.source_eq
      refine .inr ⟨typed piece inside.mem, [], before, right, rfl, ?_⟩
      rw [whole]
      exact .here
    · rcases ih outside with ⟨claimed, earlier⟩ | ⟨allowed, start, left, right, rfl, gap⟩
      · exact .inl ⟨claimed, .behind ⟨source parts, none⟩ earlier⟩
      · refine .inr ⟨allowed, _, left, right, ?_, .behind ⟨source parts, none⟩ gap⟩
        rw [List.append_assoc]

theorem origin (refines : Refines types coarse fine) {text before : List Char} {type : TokenType}
    (stands : Stands ⟨text, some type⟩ before fine) :
    Stands ⟨text, some type⟩ before coarse ∨
      type ∈ types ∧ ∃ start left right, before = start ++ left ∧
        Stands ⟨left ++ (text ++ right), none⟩ start coarse := by
  rcases refines.kept_or_inside stands with ⟨-, earlier⟩ | ⟨allowed, inside⟩
  · exact .inl earlier
  · exact .inr ⟨allowed type rfl, inside⟩

theorem free_origin (refines : Refines types coarse fine) {gap before : List Char}
    (stands : Stands ⟨gap, none⟩ before fine) :
    ∃ start left right, before = start ++ left ∧ Stands ⟨left ++ (gap ++ right), none⟩ start coarse := by
  rcases refines.kept_or_inside stands with ⟨claimed, -⟩ | ⟨-, inside⟩
  · exact absurd rfl claimed
  · exact inside

end Refines

end Piece

namespace Rule

theorem Cuts.type_eq {rule : Rule} {before after : List Char} {pieces : List Piece}
    (cuts : rule.Cuts before after pieces) {piece : Piece} (member : piece ∈ pieces) {type : TokenType}
    (typed : piece.type? = some type) : type = rule.type := by
  have untyped : ∀ gap : List Char, piece ∉ Piece.free gap [] := by
    intro gap inside
    cases gap with
    | nil => cases inside
    | cons c gap =>
      rw [Piece.free_cons, List.mem_singleton] at inside
      rw [inside] at typed
      cases typed
  induction cuts with
  | rest _ => exact absurd member (untyped _)
  | found _ _ _ _ ih =>
    rcases List.mem_append.1 member with inside | inside
    · exact absurd inside (untyped _)
    · rcases List.mem_cons.1 inside with same | further
      · rw [same] at typed
        exact (Option.some.inj typed).symm
      · exact ih further

theorem refines_claimFrom (rule : Rule) (before : List Char) (pieces : List Piece) :
    Piece.Refines [rule.type] pieces (rule.claimFrom [] before pieces) := by
  induction pieces generalizing before with
  | nil => exact .nil
  | cons piece pieces ih =>
    rw [claimFrom_cons]
    obtain ⟨text, type?⟩ := piece
    cases type? with
    | some type => exact .claimed (ih _)
    | none =>
      have typed : ∀ part ∈ rule.divide before ⟨text, none⟩, ∀ type, part.type? = some type →
          type ∈ [rule.type] := by
        intro part member type found
        exact List.mem_singleton.2 ((rule.cuts_cut before text).type_eq member found)
      have cut := Piece.Refines.free typed (ih (text.reverse ++ before))
      rwa [source_divide] at cut

end Rule

namespace Grammar

theorem refines_foldl (rules : Grammar) (pieces : List Piece) :
    Piece.Refines (rules.map Rule.type) pieces
      (rules.foldl (fun pieces rule => rule.claim pieces) pieces) := by
  induction rules generalizing pieces with
  | nil => exact .refl _ _
  | cons rule rules ih =>
    have first := rule.refines_claimFrom [] pieces
    exact first.trans (ih (rule.claim pieces))

theorem refines_claim_append (first second : Grammar) (text : List Char) :
    Piece.Refines (second.map Rule.type) (first.claim text) ((first ++ second).claim text) := by
  have run : (first ++ second).claim text =
      second.foldl (fun pieces rule => rule.claim pieces) (first.claim text) := List.foldl_append
  rw [run]
  exact second.refines_foldl _

theorem exists_rule_of_mem_claim (grammar : Grammar) {text : List Char} {piece : Piece} {type : TokenType}
    (member : piece ∈ grammar.claim text) (typed : piece.type? = some type) :
    ∃ rule ∈ grammar, rule.type = type := by
  have refines : Piece.Refines (grammar.map Rule.type) [⟨text, none⟩] (grammar.claim text) :=
    grammar.refines_foldl _
  rcases refines.type_mem member typed with whole | allowed
  · rw [List.mem_singleton.1 whole] at typed
    cases typed
  · exact List.mem_map.1 allowed

end Grammar

end CodeColor
