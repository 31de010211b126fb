import CodeColor.Proofs.Claim.Rows
import CodeColor.Proofs.Language.Keywords

/-!
Word lists are sets. What a rule for words matches does not depend on the order of the words, and two such rules, one
behind the other, claim what one rule for all the words does: of the words of the second rule the first takes none
away, and what it does take touches none of them.

Main statement: `word_lists_are_sets`. It rests on `Rule.SharesOut.claim_eq` for two rules and one.
-/

namespace CodeColor

open Piece Pattern

namespace Rule

/-- The rule takes the words of the list where they stand alone, and gives them the type. -/
structure TakesWords (words : List String) (type : TokenType) (rule : Rule) : Prop where
  pattern : rule.pattern = wholeWord words
  typed : rule.type = type
  plain : ∀ word ∈ words, Word word

namespace TakesWords

variable {words : List String} {type : TokenType} {rule : Rule} (takes : rule.TakesWords words type)
  {before text rest after : List Char}
include takes

theorem matches_iff : rule.Matches before text rest ↔
    (∃ word ∈ words, word.toList = text) ∧ startsIn CharSet.word before = false ∧
      startsIn CharSet.word rest = false := by
  obtain ⟨name, pattern, type⟩ := rule
  obtain ⟨rfl, rfl, plain⟩ := takes
  exact matches_word_iff plain

theorem apart : rule.Apart := by
  obtain ⟨name, pattern, type⟩ := rule
  obtain ⟨rfl, rfl, plain⟩ := takes
  exact apart_of_words plain

theorem ends_in_word (matched : rule.Matches before text rest) : startsIn CharSet.word text.reverse = true := by
  obtain ⟨⟨word, known, rfl⟩, -, -⟩ := takes.matches_iff.1 matched
  exact (takes.plain word known).startsIn_reverse

theorem moved (same : startsIn CharSet.word rest = startsIn CharSet.word after)
    (matched : rule.Matches before text rest) : rule.Matches before text after := by
  obtain ⟨spelled, opens, closes⟩ := takes.matches_iff.1 matched
  exact takes.matches_iff.2 ⟨spelled, opens, same.symm.trans closes⟩

theorem startsIn_behind {start code : List Char} (last : startsIn CharSet.word text.reverse = true)
    (whole : code = start ++ (text ++ after)) (free : LiesFree text rest start (rule.divide before ⟨code, none⟩)) :
    startsIn CharSet.word rest = startsIn CharSet.word after := by
  have cuts := rule.cuts_cut before code
  refine free.startsIn_eq cuts.tidy ((rule.source_divide before _).trans whole) fun next other stands => ?_
  obtain ⟨-, more, -, matched⟩ := cuts.matched_of_stands stands
  obtain ⟨-, opens, -⟩ := takes.matches_iff.1 matched
  rw [List.reverse_append, List.append_assoc, startsIn_append_left last] at opens
  cases opens

end TakesWords

/-! ## Two rules for one -/

/-- The words of one rule are those of two others, which give the same type and may have words in common. -/
structure SharesOut (words left right : List String) (type : TokenType) (rule first second : Rule) : Prop where
  takes : rule.TakesWords words type
  takesFirst : first.TakesWords left type
  takesSecond : second.TakesWords right type
  members : ∀ word, word ∈ words ↔ word ∈ left ∨ word ∈ right

namespace SharesOut

variable {words left right : List String} {type : TokenType} {rule first second : Rule}
  (shares : SharesOut words left right type rule first second) {before text start rest code : List Char}
include shares

theorem matches_iff :
    rule.Matches before text rest ↔ first.Matches before text rest ∨ second.Matches before text rest := by
  rw [shares.takes.matches_iff, shares.takesFirst.matches_iff, shares.takesSecond.matches_iff]
  simp only [shares.members, or_and_right, exists_or]

theorem matched_of_stands {other : TokenType}
    (stands : Stands ⟨text, some other⟩ start (second.claimFrom [] before (first.divide before ⟨code, none⟩))) :
    other = type ∧ ∃ rest, code = start ++ (text ++ rest) ∧ rule.Matches (start.reverse ++ before) text rest := by
  rcases matched_of_stands_claimFrom stands with earlier | ⟨same, rest, free, matched⟩
  · obtain ⟨same, rest, whole, matched⟩ := (first.cuts_cut before code).matched_of_stands earlier
    exact ⟨same.trans shares.takesFirst.typed, rest, whole, shares.matches_iff.2 (.inl matched)⟩
  · obtain ⟨after, whole⟩ := stands.source_eq
    rw [source_claimFrom, source_divide] at whole
    have behind := shares.takesFirst.startsIn_behind (shares.takesSecond.ends_in_word matched) whole free
    have moved := shares.takesSecond.moved behind matched
    exact ⟨same.trans shares.takesSecond.typed, after, whole, shares.matches_iff.2 (.inr moved)⟩

theorem clear_of_matched (whole : code = start ++ (text ++ rest))
    (matched : rule.Matches (start.reverse ++ before) text rest)
    (fresh : ¬ Stands ⟨text, some first.type⟩ start (first.divide before ⟨code, none⟩)) :
    Clear text start (first.divide before ⟨code, none⟩) := by
  have all := rule.cuts_cut before code
  intro lead taken _ stands
  obtain ⟨rfl, more, split, own⟩ := (first.cuts_cut before code).matched_of_stands stands
  have placed := all.stands_of_matched shares.takes.apart whole matched
  have beside := all.stands_of_matched shares.takes.apart split (shares.matches_iff.2 (.inl own))
  rcases placed.disjoint beside with ⟨rfl, same⟩ | behind | ahead
  · obtain rfl : text = taken := congrArg Piece.text same
    exact absurd stands fresh
  · exact .inr behind
  · exact .inl ahead

theorem stands_of_matched (whole : code = start ++ (text ++ rest))
    (matched : rule.Matches (start.reverse ++ before) text rest) :
    Stands ⟨text, some type⟩ start (second.claimFrom [] before (first.divide before ⟨code, none⟩)) := by
  have cuts := first.cuts_cut before code
  by_cases earlier : Stands ⟨text, some first.type⟩ start (first.divide before ⟨code, none⟩)
  · rw [shares.takesFirst.typed] at earlier
    exact (second.refines_claimFrom before _).keeps earlier
  · have tidy : Tidy (first.divide before ⟨code, none⟩) := cuts.tidy
    obtain ⟨more, free⟩ := tidy.liesFree_of_clear matched.some_text ((first.source_divide before _).trans whole)
      (shares.clear_of_matched whole matched earlier)
    have behind := shares.takesFirst.startsIn_behind (shares.takes.ends_in_word matched) whole free
    have other : second.Matches (start.reverse ++ before) text rest := by
      refine (shares.matches_iff.1 matched).resolve_left fun own => earlier ?_
      exact cuts.stands_of_matched shares.takesFirst.apart whole own
    have claimed := stands_claimFrom_of_matched shares.takesSecond.apart free
      (shares.takesSecond.moved behind.symm other)
    rwa [shares.takesSecond.typed] at claimed

theorem claim_eq (pieces : List Piece) : second.claim (first.claim pieces) = rule.claim pieces := by
  apply claimFrom_claimFrom
  intro before code
  have cuts := rule.cuts_cut before code
  have tidy : Tidy (first.divide before ⟨code, none⟩) := (first.cuts_cut before code).tidy
  apply (second.tidy_claimFrom before tidy).eq_of_stands cuts.tidy
  · rw [source_claimFrom, source_divide, ← divide_free, source_divide]
    rfl
  · intro text other start
    rw [cuts.stands_iff shares.takes.apart, shares.takes.typed]
    constructor
    · exact shares.matched_of_stands
    · rintro ⟨rfl, rest, whole, matched⟩
      exact shares.stands_of_matched whole matched

end SharesOut

end Rule

/-- In whatever grammar a rule for words stands, its words may be listed in another order and more than once, and they
may be shared out between two rules, one right behind the other, even so that some words are in both. -/
theorem word_lists_are_sets (first others : Grammar) (name : String) (words : List String) (type : TokenType)
    (plain : ∀ word ∈ words, Word word) (code : List Char) :
    (∀ other : List String, (∀ word, word ∈ other ↔ word ∈ words) →
      (first ++ ⟨name, wholeWord other, type⟩ :: others).claim code =
        (first ++ ⟨name, wholeWord words, type⟩ :: others).claim code) ∧
      ∀ (left right : List String) (leftName rightName : String),
        (∀ word, word ∈ words ↔ word ∈ left ∨ word ∈ right) →
        (first ++ ⟨leftName, wholeWord left, type⟩ :: ⟨rightName, wholeWord right, type⟩ :: others).claim code =
          (first ++ ⟨name, wholeWord words, type⟩ :: others).claim code := by
  have takes {name : String} {list : List String} (inside : ∀ word ∈ list, word ∈ words) :
      Rule.TakesWords list type ⟨name, wholeWord list, type⟩ :=
    ⟨rfl, rfl, fun word member => plain word (inside word member)⟩
  have all : Rule.TakesWords words type ⟨name, wholeWord words, type⟩ := takes fun _ member => member
  constructor
  · intro other same
    have listed : Rule.TakesWords other type ⟨name, wholeWord other, type⟩ := takes fun word => (same word).1
    have twice : Rule.SharesOut words other other type _ _ _ := ⟨all, listed, listed, by simp [same]⟩
    have again : Rule.SharesOut other other other type _ _ _ := ⟨listed, listed, listed, by simp⟩
    have alike := (again.claim_eq (first.claim code)).symm.trans (twice.claim_eq (first.claim code))
    rw [Grammar.claim_append, Grammar.claim_append, List.foldl_cons, List.foldl_cons, alike]
  · intro left right leftName rightName shared
    have one : Rule.TakesWords left type ⟨leftName, wholeWord left, type⟩ :=
      takes fun word member => (shared word).2 (.inl member)
    have other : Rule.TakesWords right type ⟨rightName, wholeWord right, type⟩ :=
      takes fun word member => (shared word).2 (.inr member)
    have shares : Rule.SharesOut words left right type _ _ _ := ⟨all, one, other, shared⟩
    rw [Grammar.claim_append, Grammar.claim_append, List.foldl_cons, List.foldl_cons, List.foldl_cons, shares.claim_eq]

/-- One word starts with the other, and the digit that is claimed first ends a word for the second rule too. -/
theorem word_lists_are_sets_of_prefix :
    let first : Grammar := [Rule.literal "digit" "2" none]
    let others : Grammar := [Rule.literal "letter" "n" none]
    let code := "inn int2 in".toList
    (∀ word ∈ ["in", "int"], Word word) ∧
      (first ++ ⟨"word", wholeWord ["int", "in", "int"], .keyword⟩ :: others).claim code =
        (first ++ ⟨"word", wholeWord ["in", "int"], .keyword⟩ :: others).claim code ∧
      (first ++ ⟨"one", wholeWord ["in", "int"], .keyword⟩ ::
          ⟨"two", wholeWord ["in"], .keyword⟩ :: others).claim code =
        (first ++ ⟨"word", wholeWord ["in", "int"], .keyword⟩ :: others).claim code ∧
      (first ++ ⟨"word", wholeWord ["in", "int"], .keyword⟩ :: others).claim code =
        [⟨"i".toList, none⟩, ⟨"n".toList, some ⟨"letter"⟩⟩, ⟨"n".toList, some ⟨"letter"⟩⟩, ⟨" ".toList, none⟩,
          ⟨"int".toList, some .keyword⟩, ⟨"2".toList, some ⟨"digit"⟩⟩, ⟨" ".toList, none⟩,
          ⟨"in".toList, some .keyword⟩] := by
  intro first others code
  have plain : ∀ word ∈ ["in", "int"], Word word := by decide +kernel
  obtain ⟨listed, shared⟩ := word_lists_are_sets first others "word" ["in", "int"] .keyword plain code
  refine ⟨plain, listed ["int", "in", "int"] ?_, shared ["in", "int"] ["in"] "one" "two" ?_, by decide +kernel⟩
  · intro word
    simp only [List.mem_cons, List.not_mem_nil, or_false]
    rw [or_left_comm, or_self]
  · intro word
    simp only [List.mem_cons, List.not_mem_nil, or_false]
    rw [or_right_comm, or_self]

end CodeColor
