import CodeColor.Proofs.Claim.Place
import CodeColor.Proofs.Claim.Refinement
import CodeColor.Proofs.Grammar.Extension

/-!
Earlier rules come first: what they claim, no later rule takes away.

Main statement: `further_rules_keep_claims`.
-/

namespace CodeColor

/-- The second spans keep all claimed ones of the first, and what else they claim lies within a free one of
the first and has the type of one of the rules. -/
structure Span.Extends (rules : Grammar) (coarse fine : List Span) : Prop where
  kept : ∀ span ∈ coarse, span.type? ≠ none → span ∈ fine
  added : ∀ span ∈ fine, span.type? ≠ none → span ∉ coarse →
    (∃ rule ∈ rules, span.type? = some rule.type) ∧
      ∃ gap ∈ coarse, gap.type? = none ∧ gap.start ≤ span.start ∧ span.stop ≤ gap.stop

namespace Piece

theorem Refines.extends {rules : Grammar} {coarse fine : List Piece}
    (refines : Refines (rules.map Rule.type) coarse fine) :
    Span.Extends rules (spans coarse) (spans fine) := by
  constructor
  · intro span member claimed
    obtain ⟨before, ⟨text, type?⟩, stands, rfl⟩ := mem_spans.1 member
    obtain ⟨type, rfl⟩ := Option.ne_none_iff_exists'.1 claimed
    exact mem_spans.2 ⟨before, ⟨text, some type⟩, refines.keeps stands, rfl⟩
  · intro span member claimed other
    obtain ⟨before, ⟨text, type?⟩, stands, rfl⟩ := mem_spans.1 member
    obtain ⟨type, rfl⟩ := Option.ne_none_iff_exists'.1 claimed
    rcases refines.origin stands with earlier | ⟨allowed, start, left, right, rfl, gap⟩
    · exact absurd (mem_spans.2 ⟨before, ⟨text, some type⟩, earlier, rfl⟩) other
    · obtain ⟨rule, listed, rfl⟩ := List.mem_map.1 allowed
      refine ⟨⟨rule, listed, rfl⟩, _, mem_spans.2 ⟨start, _, gap, rfl⟩, rfl, ?_, ?_⟩
      · simp only [spanAt, List.length_append]
        omega
      · simp only [spanAt, List.length_append]
        omega

theorem Refines.mem_ofPieces {types : List TokenType} {coarse fine : List Piece}
    (refines : Refines types coarse fine) {token : Token} (member : token ∈ Token.ofPieces coarse)
    (typed : token.type ≠ .text) : token ∈ Token.ofPieces fine := by
  obtain ⟨before, ⟨text, type?⟩, stands, rfl⟩ := Piece.mem_ofPieces.1 member
  cases type? with
  | none => exact absurd rfl typed
  | some type => exact Piece.mem_ofPieces.2 ⟨before, ⟨text, some type⟩, refines.keeps stands, rfl⟩

end Piece

namespace Grammar

theorem mem_tokenize_append {first second : Grammar} {code : String} {token : Token}
    (member : token ∈ first.tokenize code) (typed : token.type ≠ .text) :
    token ∈ (first ++ second).tokenize code := by
  unfold tokenize at member ⊢
  split at member
  next => cases member
  next some_code =>
    rw [if_neg some_code]
    exact (first.refines_claim_append second code.toList).mem_ofPieces member typed

theorem extend_after_last (base : Grammar) (last : Rule) (rules : List Rule)
    (single : last.name ∉ base.map Rule.name) :
    (base ++ [last]).extend ⟨[], [(last.name, rules)]⟩ = .ok ((base ++ [last]) ++ rules) := by
  have known : ∀ name ∈ Extension.keys ⟨[], [(last.name, rules)]⟩,
      name ∈ (base ++ [last]).map Rule.name := by
    intro name member
    simp only [Extension.keys, List.map_nil, List.nil_append, List.map_cons, List.mem_singleton] at member
    simp [member]
  have kept : Extension.applyTo ⟨[], [(last.name, rules)]⟩ base = base := by
    apply Extension.applyTo_eq_self
    intro rule member key
    simp only [Extension.keys, List.map_nil, List.nil_append, List.map_cons, List.mem_singleton] at key
    exact single (key ▸ List.mem_map_of_mem member)
  have followed : Extension.expand ⟨[], [(last.name, rules)]⟩ last = last :: rules := by
    simp [Extension.expand]
  rw [extend_eq_ok known]
  unfold Extension.applyTo at kept ⊢
  rw [List.flatMap_append, kept, List.flatMap_singleton, followed, List.append_assoc]
  rfl

end Grammar

/-- More rules behind others change no span that the others claim, and claim further spans only within what
the others leave free; nor do they change a token that is no plain text. Rules put after the last one of a
grammar, where no other has its name, are such rules. -/
theorem further_rules_keep_claims (first second : Grammar) :
    (∀ code : String,
      Span.Extends second (Piece.spans (first.claim code.toList))
        (Piece.spans ((first ++ second).claim code.toList)) ∧
      ∀ token ∈ first.tokenize code, token.type ≠ .text → token ∈ (first ++ second).tokenize code) ∧
      ∀ (base : Grammar) (last : Rule), first = base ++ [last] → last.name ∉ base.map Rule.name →
        first.extend ⟨[], [(last.name, second)]⟩ = .ok (first ++ second) := by
  constructor
  · intro code
    have refines := first.refines_claim_append second code.toList
    exact ⟨refines.extends, fun token member typed => Grammar.mem_tokenize_append member typed⟩
  · rintro base last rfl single
    exact Grammar.extend_after_last base last second single

/-- A literal that also occurs within a keyword leaves the keyword whole. -/
theorem further_rules_keep_keyword :
    let base := [Rule.literal "dash" "-" none]
    let keyword := Rule.words "keyword" [⟨"null", by decide⟩] none
    keyword.name ∉ base.map Rule.name ∧
      ⟨⟨"keyword"⟩, "null", 1, 2⟩ ∈ Grammar.tokenize (base ++ [keyword]) "-null\nn" ∧
      ∃ extended,
        Grammar.extend (base ++ [keyword]) ⟨[], [("keyword", [Rule.literal "letter" "n" none])]⟩ =
          .ok extended ∧
        ⟨⟨"keyword"⟩, "null", 1, 2⟩ ∈ extended.tokenize "-null\nn" := by
  intro base keyword
  have single : keyword.name ∉ base.map Rule.name := by decide
  have claimed : ⟨⟨"keyword"⟩, "null", 1, 2⟩ ∈ Grammar.tokenize (base ++ [keyword]) "-null\nn" := by
    decide
  obtain ⟨kept, applied⟩ :=
    further_rules_keep_claims (base ++ [keyword]) [Rule.literal "letter" "n" none]
  exact ⟨single, claimed, _, applied base keyword rfl single, (kept _).2 _ claimed (by decide)⟩

end CodeColor
