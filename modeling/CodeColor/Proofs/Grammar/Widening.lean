import CodeColor.Proofs.Claim.Carving
import CodeColor.Proofs.Grammar.Extension
import CodeColor.Proofs.Language.Keywords
import CodeColor.Proofs.Token.Members

/-!
Wider word lists. A rule that looks for further words still claims what it claimed before: a further word stands only
where none of the first words does, and none of them starts within it. So an extension that widens the word list of a
rule, and adds rules behind it, keeps what the rules up to this one claim.

Main statement: `widening_only_adds`. It rests on `Rule.Cuts.stands_of_narrow` for one stretch.
-/

namespace CodeColor

open Piece Pattern

/-! ## Wider patterns -/

namespace Pattern

/-- The second pattern matches what the first does, and further words; and between the characters of a word the first
does not match. -/
structure Widens (narrow wide : Pattern) : Prop where
  keeps {before after : List Char} {length : Nat} (found : narrow.matchLength? before after = some length) :
    wide.matchLength? before after = some length
  adds {before text rest : List Char} (found : wide.matchLength? before (text ++ rest) = some text.length)
    (absent : narrow.matchLength? before (text ++ rest) = none) : ∀ c ∈ text, CharSet.word c = true
  shy : narrow.Shy

/-- The list has all the words, which are plain, and the further ones, in any order. -/
structure Widened (words further wide : List String) : Prop where
  plain : ∀ word ∈ words, Word word
  members : ∀ word, word ∈ wide ↔ word ∈ words ∨ word ∈ further

theorem characters_of_match {words : List String} (plain : ∀ word ∈ words, Word word) {before text rest : List Char}
    (found : (wholeWord words).matchLength? before (text ++ rest) = some text.length) :
    ∀ c ∈ text, CharSet.word c = true := by
  obtain ⟨word, known, more, same, size, -⟩ := word_of_match plain found
  obtain rfl : text = word.toList := List.append_inj_left same size
  exact (plain word known).2

theorem Widened.widens {words further wide : List String} (widened : Widened words further wide)
    (plain : ∀ word ∈ further, Word word) : (wholeWord words).Widens (wholeWord wide) := by
  have all : ∀ word ∈ wide, Word word := by
    intro word member
    rcases (widened.members word).1 member with known | known
    · exact widened.plain word known
    · exact plain word known
  constructor
  case keeps =>
    intro before after length found
    obtain ⟨word, known, rest, rfl, rfl, opens, closes⟩ := word_of_match widened.plain found
    exact wholeWord_match all ((widened.members word).2 (.inl known)) opens closes
  case adds => exact fun found _ => characters_of_match all found
  case shy => exact (Shy.boundary.append _).append _

end Pattern

/-! ## One stretch -/

namespace Rule

variable {narrow wide : Rule} (widens : narrow.pattern.Widens wide.pattern) {before after gap rest : List Char}
include widens

theorem misses_of_wide (missed : wide.Misses before gap rest) : narrow.Misses before gap rest := by
  intro passed c later split
  apply Option.eq_none_iff_forall_ne_some.2
  intro length found
  have absent := missed passed c later split
  rw [widens.keeps found] at absent
  cases absent

theorem misses_further_word {text : List Char}
    (found : wide.pattern.matchLength? before (text ++ rest) = some text.length)
    (absent : narrow.pattern.matchLength? before (text ++ rest) = none) : narrow.Misses before text rest := by
  have word := widens.adds found absent
  intro passed c later split
  cases passed with
  | nil =>
    rw [split] at absent
    exact absent
  | cons d passed =>
    have behind := startsIn_reverse_append (List.cons_ne_nil d passed)
      (fun e member => word e (by rw [split]; exact List.mem_append_left _ member)) before
    exact widens.shy.matchLength?_eq_none behind (word c (by simp [split]))

theorem Cuts.stands_of_narrow (typed : narrow.type = wide.type) {pieces : List Piece}
    (cuts : wide.Cuts before after pieces) {held start text : List Char} {type : TokenType}
    (stands : Stands ⟨text, some type⟩ start (narrow.cut [] before held 0 after).reverse) :
    ∃ further, start = held.reverse ++ further ∧ Stands ⟨text, some type⟩ further pieces := by
  induction cuts generalizing held start with
  | @rest before gap missed =>
    have none := misses_of_wide widens missed
    rw [← List.append_nil gap, cut_misses none, cut, reverse_free] at stands
    exact absurd stands not_stands_free
  | @found before gap claimed rest pieces missed some_text matched _ ih =>
    rw [cut_misses (misses_of_wide widens missed)] at stands
    cases own : narrow.pattern.matchLength? (gap.reverse ++ before) (claimed ++ rest) with
    | none =>
      rw [cut_misses (misses_further_word widens matched own)] at stands
      obtain ⟨further, rfl, inside⟩ := ih stands
      refine ⟨gap ++ (claimed ++ further), by simp, ?_⟩
      have placed := Stands.append_right (free gap []) (.behind ⟨claimed, some wide.type⟩ inside)
      rwa [source_free] at placed
    | some length =>
      obtain rfl : claimed.length = length := Option.some.inj (matched.symm.trans (widens.keeps own))
      rw [cut_matched some_text own, List.reverse_append, List.reverse_cons, List.append_assoc, reverse_free] at stands
      rcases stands.of_append with inside | ⟨further, rfl, behind⟩
      · exact absurd inside not_stands_free
      · rw [source_free, List.reverse_append, List.reverse_reverse, List.append_assoc]
        refine ⟨gap ++ further, rfl, ?_⟩
        have placed : Stands ⟨text, some type⟩ further (⟨claimed, some wide.type⟩ :: pieces) := by
          rw [typed, List.singleton_append] at behind
          cases behind with
          | here => exact .here
          | behind _ onward =>
            obtain ⟨later, rfl, inside⟩ := ih onward
            exact .behind _ inside
        have moved := placed.append_right (free gap [])
        rwa [source_free] at moved

theorem stands_claimFrom_of_narrow (typed : narrow.type = wide.type) {pieces : List Piece} {start text : List Char}
    {type : TokenType} (stands : Stands ⟨text, some type⟩ start (narrow.claimFrom [] before pieces)) :
    Stands ⟨text, some type⟩ start (wide.claimFrom [] before pieces) := by
  rcases exists_divide_of_stands stands with ⟨-, earlier⟩ | ⟨outer, left, free, rfl, stands, inside⟩
  · exact (wide.refines_claimFrom before pieces).keeps earlier
  · obtain ⟨further, rfl, placed⟩ := (wide.cuts_cut _ free).stands_of_narrow widens typed inside
    exact stands_claimFrom_of_divide stands placed

end Rule

/-! ## Grammars -/

namespace Grammar

variable {first others : Grammar} {narrow wide : Rule}

theorem stands_of_narrow (widens : narrow.pattern.Widens wide.pattern) (typed : narrow.type = wide.type)
    {start text code : List Char} {type : TokenType}
    (stands : Stands ⟨text, some type⟩ start ((first ++ [narrow]).claim code)) :
    Stands ⟨text, some type⟩ start ((first ++ wide :: others).claim code) := by
  have split : first ++ wide :: others = (first ++ [wide]) ++ others := by simp
  rw [split]
  apply (refines_claim_append (first ++ [wide]) others code).keeps
  rw [claim_append] at stands ⊢
  exact Rule.stands_claimFrom_of_narrow widens typed stands

theorem mem_spans_of_narrow (widens : narrow.pattern.Widens wide.pattern) (typed : narrow.type = wide.type)
    {code : List Char} {span : Span} (member : span ∈ spans ((first ++ [narrow]).claim code))
    (claimed : span.type? ≠ none) : span ∈ spans ((first ++ wide :: others).claim code) := by
  obtain ⟨before, ⟨text, type?⟩, stands, rfl⟩ := mem_spans.1 member
  cases type? with
  | none => exact absurd rfl claimed
  | some type => exact mem_spans.2 ⟨before, _, stands_of_narrow widens typed stands, rfl⟩

end Grammar

/-! ## The two script languages -/

namespace Language

def earlyTypes : List TokenType := [.comment, .string, .keyword]

theorem earlyTypes_named : ∀ type ∈ earlyTypes, type.name ≠ "" ∧ type ≠ .text := by decide

theorem widens_keywords : js.keywordRule.pattern.Widens ts.keywordRule.pattern := by
  have plain : ∀ word ∈ TypeScript.furtherKeywords, Word word := by decide +kernel
  have widened : Widened JavaScript.keywords TypeScript.furtherKeywords TypeScript.keywords :=
    ⟨by decide +kernel, fun _ => List.mem_append⟩
  exact widened.widens plain

theorem stands_ts_of_js {text start code : List Char} {type : TokenType} (early : type ∈ earlyTypes)
    (stands : Stands ⟨text, some type⟩ start (js.grammar.claim code)) :
    Stands ⟨text, some type⟩ start (ts.grammar.claim code) := by
  have split : js.grammar = (scriptRules ++ [js.keywordRule]) ++ js.grammar.drop 3 := rfl
  have other : ∀ type ∈ earlyTypes, type ∉ (js.grammar.drop 3).map Rule.type := by decide
  rw [split, Grammar.stands_first_iff (other type early)] at stands
  rw [ts_split]
  exact Grammar.stands_of_narrow widens_keywords rfl stands

end Language

/-- Let an extension give a word rule further words, in place of a rule whose name is found once in the base, and add
any rules behind it. What the base claims up to this rule, the extended grammar claims too. So the comments, strings and
keywords of JavaScript are tokens of TypeScript, at the same places. -/
theorem widening_only_adds :
    (∀ (first others : Grammar) (name : String) (words further wide : List String) (type : TokenType)
      (newName : String) (inserted : List Rule), name ∉ (first ++ others).map Rule.name →
      (∀ word ∈ further, Word word) → Widened words further wide →
      ∃ derived, Grammar.extend (first ++ ⟨name, wholeWord words, type⟩ :: others)
          ⟨[(name, ⟨newName, wholeWord wide, type⟩)], [(name, inserted)]⟩ = .ok derived ∧
        ∀ code, ∀ span ∈ Piece.spans (Grammar.claim (first ++ [⟨name, wholeWord words, type⟩]) code),
          span.type? ≠ none → span ∈ Piece.spans (derived.claim code)) ∧
      ∀ (code : String), ∀ type ∈ [TokenType.comment, .string, .keyword],
        Span.extents type (Token.spans (tokenize (some "js") code)) ⊆
            Span.extents type (Token.spans (tokenize (some "ts") code)) ∧
          ∀ token ∈ tokenize (some "js") code, token.type = type → token ∈ tokenize (some "ts") code := by
  constructor
  · intro first others name words further wide type newName inserted once plain widened
    let narrow : Rule := ⟨name, wholeWord words, type⟩
    let wider : Rule := ⟨newName, wholeWord wide, type⟩
    have widens : narrow.pattern.Widens wider.pattern := widened.widens plain
    have placed : narrow.name ∉ (first ++ others).map Rule.name := once
    refine ⟨first ++ wider :: (inserted ++ others), Grammar.extend_at placed, fun code span member claimed => ?_⟩
    exact Grammar.mem_spans_of_narrow widens rfl member claimed
  · intro code type early
    obtain ⟨named, element⟩ := Language.earlyTypes_named type early
    constructor
    · intro extent member
      obtain ⟨before, text, stands, rfl⟩ := (Language.js.mem_extents_iff named element).1 member
      exact (Language.ts.mem_extents_iff named element).2 ⟨before, text, Language.stands_ts_of_js early stands, rfl⟩
    · intro token member typed
      have js : tokenize (some "js") code = Language.js.grammar.tokenize code := tokenize_name .js code
      have ts : tokenize (some "ts") code = Language.ts.grammar.tokenize code := tokenize_name .ts code
      rw [js] at member
      rw [ts]
      have listed : token ∈ (Language.js.grammar.tokenize code).filter (·.type = type) :=
        List.mem_filter.2 ⟨member, decide_eq_true typed⟩
      obtain ⟨before, text, stands, rfl⟩ := (Grammar.mem_tokens_iff (by decide) named element).1 listed
      have kept := (Grammar.mem_tokens_iff (by decide) named element).2
        ⟨before, text, Language.stands_ts_of_js early stands, rfl⟩
      exact (List.mem_filter.1 kept).1

/-- The further words start with the old one, or the old one with them, and the rule behind them looks for a part of it.
In TypeScript a further keyword stands in front of one of JavaScript. -/
theorem widening_only_adds_around_prefix :
    let first : Grammar := [Rule.literal "dash" "-" none]
    let inserted : Grammar := [Rule.literal "letter" "n" none]
    let code := "int-in in".toList
    let script := "type in /* in */ x"
    "word" ∉ (first ++ []).map Rule.name ∧ (∀ word ∈ ["int", "i"], Word word) ∧
      Widened ["in"] ["int", "i"] ["int", "i", "in"] ∧
      (∃ derived, Grammar.extend (first ++ [⟨"word", wholeWord ["in"], .keyword⟩])
          ⟨[("word", ⟨"words", wholeWord ["int", "i", "in"], .keyword⟩)], [("word", inserted)]⟩ = .ok derived ∧
        ⟨7, 9, some .keyword⟩ ∈ Piece.spans (Grammar.claim (first ++ [⟨"word", wholeWord ["in"], .keyword⟩]) code) ∧
        ⟨7, 9, some .keyword⟩ ∈ Piece.spans (derived.claim code)) ∧
      (5, 7) ∈ Span.extents .keyword (Token.spans (tokenize (some "js") script)) ∧
      (5, 7) ∈ Span.extents .keyword (Token.spans (tokenize (some "ts") script)) ∧
      ⟨.comment, "/* in */", 1, 9⟩ ∈ tokenize (some "js") script ∧
      ⟨.comment, "/* in */", 1, 9⟩ ∈ tokenize (some "ts") script := by
  intro first inserted code script
  have once : "word" ∉ (first ++ []).map Rule.name := by decide
  have plain : ∀ word ∈ ["int", "i"], Word word := by decide +kernel
  have widened : Widened ["in"] ["int", "i"] ["int", "i", "in"] := by
    refine ⟨by decide +kernel, fun word => ?_⟩
    simp only [List.mem_cons, List.not_mem_nil, or_false]
    exact or_assoc.symm.trans or_comm
  have old : ⟨7, 9, some .keyword⟩ ∈
      Piece.spans (Grammar.claim (first ++ [⟨"word", wholeWord ["in"], .keyword⟩]) code) := by decide +kernel
  have keyword : (5, 7) ∈ Span.extents .keyword (Token.spans (tokenize (some "js") script)) := by decide +kernel
  have comment : ⟨.comment, "/* in */", 1, 9⟩ ∈ tokenize (some "js") script := by decide +kernel
  obtain ⟨general, scripts⟩ := widening_only_adds
  obtain ⟨derived, extended, keeps⟩ :=
    general first [] "word" ["in"] ["int", "i"] _ .keyword "words" inserted once plain widened
  refine ⟨once, plain, widened, ⟨derived, extended, old, keeps code _ old (by decide)⟩, keyword, ?_, comment, ?_⟩
  · exact (scripts script .keyword (by decide)).1 keyword
  · exact (scripts script .comment (by decide)).2 _ comment rfl

end CodeColor
