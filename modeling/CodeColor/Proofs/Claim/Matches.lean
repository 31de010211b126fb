import CodeColor.Proofs.Claim.Extent
import CodeColor.Proofs.Pattern.Spelling

/-!
Which matches of a rule are claimed. Every claimed piece is a match at its place; and where no match starts within
another one, every match in a free piece is claimed.

Main statements: `Grammar.matched_of_stands` and `Grammar.stands_middle_iff`.
-/

namespace CodeColor

namespace Piece

theorem Stands.append_left {piece : Piece} {before : List Char} {first : List Piece}
    (stands : piece.Stands before first) (second : List Piece) : piece.Stands before (first ++ second) := by
  induction stands with
  | here => exact .here
  | behind other _ ih => exact .behind other ih

theorem not_stands_free {text held start : List Char} {type : TokenType} :
    ¬ Stands ⟨text, some type⟩ start (free held []) := by
  intro stands
  cases held with
  | nil => cases stands
  | cons c held =>
    cases stands with
    | behind _ further => cases further

end Piece

namespace Rule

open Piece

/-- The text is a match of the rule, where the stretch under search ends behind `rest`. -/
structure Matches (rule : Rule) (before text rest : List Char) : Prop where
  some_text : text ≠ []
  length : rule.pattern.matchLength? before (text ++ rest) = some text.length

/-- No match starts within another one. -/
def Apart (rule : Rule) : Prop :=
  ∀ before c text rest, rule.Matches before (c :: text) rest → rule.Misses (c :: before) text rest

section

variable {rule : Rule} {before start gap text rest more : List Char}

theorem Matches.spells (matched : rule.Matches before text rest) : rule.pattern.Spells text := by
  have spelled := Pattern.spells_of_matchLength? matched.length
  rwa [List.take_left] at spelled

theorem Matches.unique {other : List Char} (matched : rule.Matches before text rest)
    (also : rule.Matches before other more) (same : other ++ more = text ++ rest) : other = text := by
  have length := matched.length
  rw [← same, also.length] at length
  exact (List.append_inj same (Option.some.inj length)).1

theorem Misses.start_behind (missed : rule.Misses before gap more)
    (matched : rule.Matches (start.reverse ++ before) text rest) (whole : gap ++ more = start ++ (text ++ rest)) :
    ∃ further, start = gap ++ further ∧ more = further ++ (text ++ rest) := by
  rcases List.append_eq_append_iff.1 whole with behind | ⟨within, rfl, inside⟩
  · exact behind
  · cases within with
    | nil => exact ⟨[], by rw [List.append_nil, List.append_nil], inside.symm⟩
    | cons c within =>
      have absent := missed start c within rfl
      rw [← inside, matched.length] at absent
      cases absent

end

/-! ## One free piece -/

namespace Cuts

variable {rule : Rule} {before after text start rest : List Char} {pieces : List Piece} {type : TokenType}

theorem matched_of_stands (cuts : rule.Cuts before after pieces) (stands : Stands ⟨text, some type⟩ start pieces) :
    type = rule.type ∧ ∃ rest, after = start ++ (text ++ rest) ∧
      rule.Matches (start.reverse ++ before) text rest := by
  refine ⟨cuts.type_eq stands.mem rfl, ?_⟩
  induction cuts generalizing start with
  | rest _ => exact absurd stands not_stands_free
  | @found before gap claimed rest pieces _ some_text matched _ ih =>
    rcases stands.of_append with inside | ⟨further, rfl, outside⟩
    · exact absurd inside not_stands_free
    · rw [source_free]
      cases outside with
      | here =>
        rw [List.append_nil]
        exact ⟨rest, rfl, some_text, matched⟩
      | @behind start _ _ stands =>
        obtain ⟨more, whole, onward⟩ := ih stands
        refine ⟨more, ?_, ?_⟩
        · rw [whole]
          simp
        · simpa using onward

theorem stands_of_matched (apart : rule.Apart) (cuts : rule.Cuts before after pieces)
    (whole : after = start ++ (text ++ rest)) (matched : rule.Matches (start.reverse ++ before) text rest) :
    Stands ⟨text, some rule.type⟩ start pieces := by
  induction cuts generalizing start with
  | @rest before gap missed =>
    obtain ⟨further, -, nothing⟩ := missed.start_behind matched ((List.append_nil gap).trans whole)
    have empty := (List.append_eq_nil_iff.1 (List.append_eq_nil_iff.1 nothing.symm).2).1
    exact absurd empty matched.some_text
  | @found before gap claimed more pieces missed some_text found _ ih =>
    obtain ⟨further, rfl, behind⟩ := missed.start_behind matched whole
    rw [List.reverse_append, List.append_assoc] at matched
    have placed : Stands ⟨text, some rule.type⟩ further (⟨claimed, some rule.type⟩ :: pieces) := by
      cases further with
      | nil =>
        rw [Matches.unique matched ⟨some_text, found⟩ behind]
        exact .here
      | cons d further =>
        obtain ⟨c, claimed, rfl⟩ := List.exists_cons_of_ne_nil some_text
        obtain ⟨rfl, within⟩ := List.cons.inj behind
        rw [List.reverse_cons, List.append_assoc] at matched
        have clear := apart _ _ _ _ ⟨some_text, found⟩
        obtain ⟨onward, rfl, later⟩ := clear.start_behind matched within
        refine .behind ⟨c :: claimed, some rule.type⟩ (ih later ?_)
        simpa using matched
    have stands := placed.append_right (free gap [])
    rwa [source_free] at stands

theorem stands_of_first (cuts : rule.Cuts before after pieces) (whole : after = start ++ (text ++ rest))
    (missed : rule.Misses before start (text ++ rest)) (matched : rule.Matches (start.reverse ++ before) text rest) :
    Stands ⟨text, some rule.type⟩ start pieces := by
  cases cuts with
  | rest none_there =>
    obtain ⟨further, -, nothing⟩ := none_there.start_behind matched ((List.append_nil _).trans whole)
    have empty := (List.append_eq_nil_iff.1 (List.append_eq_nil_iff.1 nothing.symm).2).1
    exact absurd empty matched.some_text
  | @found _ gap claimed more pieces none_before some_text found onward =>
    obtain ⟨further, behind, inside⟩ := none_before.start_behind matched whole
    obtain ⟨nothing, ahead, -⟩ := missed.start_behind ⟨some_text, found⟩ whole.symm
    have none_between : further = [] := by
      rw [ahead, List.append_assoc] at behind
      exact (List.append_eq_nil_iff.1 (List.self_eq_append_right.1 behind)).2
    rw [none_between, List.append_nil] at behind
    rw [none_between, List.nil_append] at inside
    subst behind
    obtain rfl := Matches.unique matched ⟨some_text, found⟩ inside
    have here : Stands ⟨claimed, some rule.type⟩ [] (⟨claimed, some rule.type⟩ :: pieces) := .here
    have stands := here.append_right (free start [])
    rwa [source_free, List.append_nil] at stands

end Cuts

end Rule

/-! ## All pieces -/

/-- The text stands behind `start` in a piece that is free, and in that piece `rest` comes behind it. -/
def Piece.LiesFree (text rest start : List Char) (pieces : List Piece) : Prop :=
  ∃ outer left, start = outer ++ left ∧ Stands ⟨left ++ (text ++ rest), none⟩ outer pieces

namespace Rule

open Piece

variable {rule : Rule} {before text start rest : List Char} {pieces : List Piece} {type : TokenType}

theorem exists_divide_of_stands {piece : Piece} (stands : piece.Stands start (rule.claimFrom [] before pieces)) :
    (piece.type? ≠ none ∧ piece.Stands start pieces) ∨ ∃ outer left free, start = outer ++ left ∧
      Stands ⟨free, none⟩ outer pieces ∧ piece.Stands left (rule.divide (outer.reverse ++ before) ⟨free, none⟩) := by
  induction pieces generalizing before start with
  | nil => cases stands
  | cons first pieces ih =>
    rw [claimFrom_cons] at stands
    rcases stands.of_append with inside | ⟨further, rfl, outside⟩
    · obtain ⟨whole, type?⟩ := first
      cases type? with
      | some other =>
        cases inside with
        | here => exact .inl ⟨Option.some_ne_none other, .here⟩
        | behind _ nowhere => cases nowhere
      | none => exact .inr ⟨[], start, whole, rfl, .here, inside⟩
    · rw [source_divide]
      rcases ih outside with ⟨claimed, earlier⟩ | ⟨outer, left, free, rfl, stands, inside⟩
      · exact .inl ⟨claimed, .behind first earlier⟩
      · refine .inr ⟨first.text ++ outer, left, free, (List.append_assoc _ _ _).symm, .behind first stands, ?_⟩
        rwa [List.reverse_append, List.append_assoc]

theorem stands_claimFrom_of_divide {piece : Piece} {free outer left : List Char}
    (stands : Stands ⟨free, none⟩ outer pieces)
    (inside : piece.Stands left (rule.divide (outer.reverse ++ before) ⟨free, none⟩)) :
    piece.Stands (outer ++ left) (rule.claimFrom [] before pieces) := by
  induction stands generalizing before with
  | here =>
    rw [claimFrom_cons]
    exact inside.append_left _
  | @behind outer later first _ ih =>
    rw [claimFrom_cons, List.append_assoc]
    rw [List.reverse_append, List.append_assoc] at inside
    have placed := (ih inside).append_right (rule.divide before first)
    rwa [source_divide] at placed

theorem matched_of_stands_claimFrom (stands : Stands ⟨text, some type⟩ start (rule.claimFrom [] before pieces)) :
    Stands ⟨text, some type⟩ start pieces ∨ type = rule.type ∧ ∃ rest,
      LiesFree text rest start pieces ∧ rule.Matches (start.reverse ++ before) text rest := by
  rcases exists_divide_of_stands stands with ⟨-, earlier⟩ | ⟨outer, left, free, rfl, stands, inside⟩
  · exact .inl earlier
  · obtain ⟨same, rest, rfl, matched⟩ := (rule.cuts_cut _ free).matched_of_stands inside
    refine .inr ⟨same, rest, ⟨outer, left, rfl, stands⟩, ?_⟩
    rwa [List.reverse_append, List.append_assoc]

theorem stands_claimFrom_of_matched (apart : rule.Apart) (free : LiesFree text rest start pieces)
    (matched : rule.Matches (start.reverse ++ before) text rest) :
    Stands ⟨text, some rule.type⟩ start (rule.claimFrom [] before pieces) := by
  obtain ⟨outer, left, rfl, stands⟩ := free
  rw [List.reverse_append, List.append_assoc] at matched
  exact stands_claimFrom_of_divide stands ((rule.cuts_cut _ _).stands_of_matched apart rfl matched)

end Rule

namespace Grammar

open Piece

variable {first others : Grammar} {text start code : List Char} {type : TokenType}

theorem claim_append (first second : Grammar) (code : List Char) :
    (first ++ second).claim code = second.foldl (fun pieces rule => rule.claim pieces) (first.claim code) :=
  List.foldl_append

theorem code_eq_of_stands {grammar : Grammar} {type? : Option TokenType}
    (stands : Stands ⟨text, type?⟩ start (grammar.claim code)) : ∃ after, code = start ++ (text ++ after) := by
  obtain ⟨after, whole⟩ := stands.source_eq
  exact ⟨after, (grammar.source_claim code).symm.trans whole⟩

theorem matched_of_stands {grammar : Grammar} (stands : Stands ⟨text, some type⟩ start (grammar.claim code)) :
    ∃ rule ∈ grammar, rule.type = type ∧ ∃ rest, rule.Matches start.reverse text rest := by
  induction grammar using List.reverseRecOn with
  | nil =>
    change Stands ⟨text, some type⟩ start [⟨code, none⟩] at stands
    cases stands with
    | behind _ further => cases further
  | append_singleton grammar rule ih =>
    rw [claim_append] at stands
    rcases Rule.matched_of_stands_claimFrom stands with earlier | ⟨same, rest, -, matched⟩
    · obtain ⟨other, member, found⟩ := ih earlier
      exact ⟨other, List.mem_append_left _ member, found⟩
    · rw [List.append_nil] at matched
      exact ⟨rule, by simp, same.symm, rest, matched⟩

theorem type_mem_of_stands {grammar : Grammar} (stands : Stands ⟨text, some type⟩ start (grammar.claim code)) :
    type ∈ grammar.map Rule.type := by
  obtain ⟨rule, member, same⟩ := grammar.exists_rule_of_mem_claim stands.mem rfl
  exact List.mem_map.2 ⟨rule, member, same⟩

theorem stands_first_iff (other : type ∉ others.map Rule.type) :
    Stands ⟨text, some type⟩ start ((first ++ others).claim code) ↔
      Stands ⟨text, some type⟩ start (first.claim code) := by
  have refines := refines_claim_append first others code
  constructor
  · intro stands
    exact (refines.origin stands).resolve_right fun further => other further.1
  · exact refines.keeps

theorem matched_of_stands_middle {rule : Rule} (fresh : rule.type ∉ first.map Rule.type)
    (last : rule.type ∉ others.map Rule.type)
    (stands : Stands ⟨text, some rule.type⟩ start ((first ++ rule :: others).claim code)) :
    ∃ rest, LiesFree text rest start (first.claim code) ∧ rule.Matches start.reverse text rest := by
  have split : first ++ rule :: others = (first ++ [rule]) ++ others := by simp
  rw [split, stands_first_iff last, claim_append] at stands
  rcases Rule.matched_of_stands_claimFrom stands with earlier | ⟨-, rest, free, matched⟩
  · exact absurd (type_mem_of_stands earlier) fresh
  · rw [List.append_nil] at matched
    exact ⟨rest, free, matched⟩

theorem stands_middle_iff {rule : Rule} (apart : rule.Apart) (fresh : rule.type ∉ first.map Rule.type)
    (last : rule.type ∉ others.map Rule.type) :
    Stands ⟨text, some rule.type⟩ start ((first ++ rule :: others).claim code) ↔
      ∃ rest, LiesFree text rest start (first.claim code) ∧ rule.Matches start.reverse text rest := by
  constructor
  · exact matched_of_stands_middle fresh last
  · intro ⟨rest, free, matched⟩
    have split : first ++ rule :: others = (first ++ [rule]) ++ others := by simp
    rw [split, stands_first_iff last, claim_append]
    exact Rule.stands_claimFrom_of_matched apart free (by rwa [List.append_nil])

end Grammar

end CodeColor
