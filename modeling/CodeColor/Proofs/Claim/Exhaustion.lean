import CodeColor.Proofs.Claim.Carving
import CodeColor.Proofs.Claim.Leftover
import CodeColor.Proofs.Claim.Partition
import CodeColor.Proofs.Pattern.Literal

/-!
Literals are used up. Where the literal of a rule stood free, the rule has claimed it, and what is free later lies in
what was free then. So in the end no free span holds the literal, and another rule for it finds nothing; nor does a rule
that takes no text. A rule that finds nothing leaves the row as it is.

Main statement: `literals_are_used_up`. It rests on `Grammar.not_infix_of_free` and `Grammar.claim_insert`.
-/

namespace CodeColor

open Piece Pattern

/-- The text that lies between the ends of the span. -/
def Span.textIn (code : List Char) (span : Span) : List Char :=
  (code.take span.stop).drop span.start

theorem Piece.textIn_spanAt {grammar : Grammar} {piece : Piece} {before code : List Char}
    (stands : piece.Stands before (grammar.claim code)) :
    (piece.spanAt before.length).textIn code = piece.text := by
  obtain ⟨after, whole⟩ := stands.source_eq
  rw [grammar.source_claim] at whole
  rw [Span.textIn, spanAt, whole, ← List.length_append, ← List.append_assoc, List.take_left, List.drop_left]

/-! ## Rules that find nothing -/

namespace Rule

variable {rule : Rule} {before gap rest : List Char} {pieces : List Piece}

/-- In none of the free pieces a match of the rule starts. -/
def FindsNothing (rule : Rule) (before : List Char) (pieces : List Piece) : Prop :=
  ∀ gap start, Stands ⟨gap, none⟩ start pieces → rule.Misses (start.reverse ++ before) gap []

theorem claimFrom_eq_self (some_text : ∀ piece ∈ pieces, piece.text ≠ []) (idle : rule.FindsNothing before pieces) :
    rule.claimFrom [] before pieces = pieces := by
  induction pieces generalizing before with
  | nil => rfl
  | cons piece pieces ih =>
    obtain ⟨first, others⟩ := List.forall_mem_cons.1 some_text
    have here : rule.divide before piece = [piece] := by
      obtain ⟨text, type?⟩ := piece
      cases type? with
      | some type => rfl
      | none =>
        have missed : rule.Misses before text [] := idle text [] .here
        obtain ⟨c, text, rfl⟩ := List.exists_cons_of_ne_nil first
        exact missed.divide_eq
    have onward : rule.FindsNothing (piece.text.reverse ++ before) pieces := by
      intro gap start stands
      have missed := idle gap (piece.text ++ start) (.behind piece stands)
      rwa [List.reverse_append, List.append_assoc] at missed
    rw [claimFrom_cons, here, ih others onward, List.singleton_append]

theorem findsNothing_of_takesNothing (empty : rule.pattern.TakesNothing) (before : List Char) (pieces : List Piece) :
    rule.FindsNothing before pieces :=
  fun _ _ _ _ _ _ _ => empty.matchLength?_eq_none _ _

/-! ## Literals -/

section

variable {word : List Char} (literal : rule.pattern = .literal word)
include literal

theorem Misses.not_infix (some_word : word ≠ []) (missed : rule.Misses before gap rest) : ¬ word <:+: gap := by
  rintro ⟨passed, later, split⟩
  obtain ⟨c, further, rfl⟩ := List.exists_cons_of_ne_nil some_word
  have absent := missed passed c (further ++ later) (by rw [← split, List.append_assoc]; rfl)
  have leads : c :: further <+: c :: (further ++ later) ++ rest := ⟨later ++ rest, by simp⟩
  rw [literal, matchLength?_literal, if_pos ⟨some_word, leads⟩] at absent
  cases absent

theorem misses_of_not_infix (absent : ¬ word <:+: gap) (before : List Char) : rule.Misses before gap [] := by
  intro passed c later split
  rw [literal, matchLength?_literal, List.append_nil]
  apply if_neg
  rintro ⟨-, rest, found⟩
  exact absent ⟨passed, rest, by rw [split, List.append_assoc, found]⟩

end

end Rule

/-! ## Grammars -/

namespace Grammar

variable {first others : Grammar} {rule : Rule} {code word : List Char}

theorem claim_insert (some_code : code ≠ []) (idle : rule.FindsNothing [] (first.claim code)) (others : Grammar) :
    (first ++ rule :: others).claim code = (first ++ others).claim code := by
  have same : rule.claim (first.claim code) = first.claim code :=
    Rule.claimFrom_eq_self (first.tidy_claim some_code).some_text idle
  rw [claim_append, List.foldl_cons, same, claim_append]

theorem not_infix_of_free (literal : rule.pattern = .literal word) (some_word : word ≠ []) {gap before : List Char}
    (stands : Stands ⟨gap, none⟩ before ((first ++ rule :: others).claim code)) : ¬ word <:+: gap := by
  have split : first ++ rule :: others = (first ++ [rule]) ++ others := by simp
  rw [split] at stands
  obtain ⟨start, left, right, -, free⟩ := (refines_claim_append (first ++ [rule]) others code).free_origin stands
  rw [claim_append] at free
  obtain ⟨rest, missed⟩ := Rule.misses_of_stands_claimFrom free
  exact Rule.Misses.not_infix literal some_word missed.inside

theorem findsNothing_again {again : Rule} (literal : rule.pattern = .literal word)
    (same : again.pattern = .literal word) (some_word : word ≠ []) :
    again.FindsNothing [] ((first ++ rule :: others).claim code) :=
  fun _ _ stands => Rule.misses_of_not_infix same (not_infix_of_free literal some_word stands) _

end Grammar

/-- If a grammar has a rule for a literal, no free span of any source holds the literal, whatever the other rules are.
So another rule for the literal, put anywhere behind this one, changes no span of a source; nor does a rule that takes
no text, such as one for an empty literal or for no words, put anywhere into a grammar. -/
theorem literals_are_used_up :
    (∀ (grammar : Grammar) (rule : Rule) (word : String), rule ∈ grammar → rule.pattern = .exactly word → word ≠ "" →
      ∀ (code : String), ∀ span ∈ Piece.spans (grammar.claim code.toList), span.type? = none →
        ¬ word.toList <:+: span.textIn code.toList) ∧
    (∀ (first between others : Grammar) (rule again : Rule) (word : String), rule.pattern = .exactly word →
      again.pattern = .exactly word → word ≠ "" → ∀ code : String, code ≠ "" →
        (first ++ rule :: between ++ again :: others).claim code.toList =
          (first ++ rule :: between ++ others).claim code.toList) ∧
    (∀ (first others : Grammar) (rule : Rule), rule.pattern.TakesNothing → ∀ code : String, code ≠ "" →
      (first ++ rule :: others).claim code.toList = (first ++ others).claim code.toList) ∧
    ∀ (name : String) (type? : Option String),
      (Rule.literal name "" type?).pattern.TakesNothing ∧ (Rule.words name [] type?).pattern.TakesNothing := by
  refine ⟨?_, ?_, ?_, ?_⟩
  · intro grammar rule word known literal some_word code span member free
    obtain ⟨first, others, rfl⟩ := List.append_of_mem known
    obtain ⟨before, ⟨gap, type?⟩, stands, rfl⟩ := Piece.mem_spans.1 member
    obtain rfl : type? = none := free
    rw [Piece.textIn_spanAt stands]
    exact Grammar.not_infix_of_free literal (toList_ne_nil some_word) stands
  · intro first between others rule again word literal same some_word code some_code
    have idle : again.FindsNothing [] ((first ++ rule :: between).claim code.toList) :=
      Grammar.findsNothing_again literal same (toList_ne_nil some_word)
    exact Grammar.claim_insert (toList_ne_nil some_code) idle others
  · intro first others rule empty code some_code
    exact Grammar.claim_insert (toList_ne_nil some_code) (Rule.findsNothing_of_takesNothing empty _ _) others
  · intro name type?
    have boundary : Pattern.boundary.TakesNothing := .guard .wordBoundary
    exact ⟨.nothing, (boundary.append .nothing).append boundary⟩

/-- The literal overlaps itself, and of three letters it takes two. -/
theorem literals_are_used_up_in_run_of_letters :
    let pair := Rule.literal "pair" "aa" none
    let one := Rule.literal "one" "1" none
    let again := Rule.literal "again" "aa" (some "text")
    let wordless := Rule.words "word" [] none
    let code := "aaa1aa"
    Piece.spans (Grammar.claim [pair, one] code.toList) =
        [⟨0, 2, some ⟨"pair"⟩⟩, ⟨2, 3, none⟩, ⟨3, 4, some ⟨"one"⟩⟩, ⟨4, 6, some ⟨"pair"⟩⟩] ∧
      ¬ "aa".toList <:+: (⟨2, 3, none⟩ : Span).textIn code.toList ∧
      Grammar.claim [pair, one, again] code.toList = Grammar.claim [pair, one] code.toList ∧
      Grammar.claim [wordless, pair, one] code.toList = Grammar.claim [pair, one] code.toList := by
  intro pair one again wordless code
  have spans : Piece.spans (Grammar.claim [pair, one] code.toList) =
      [⟨0, 2, some ⟨"pair"⟩⟩, ⟨2, 3, none⟩, ⟨3, 4, some ⟨"one"⟩⟩, ⟨4, 6, some ⟨"pair"⟩⟩] := by decide
  obtain ⟨absent, repeated, inserted, inert⟩ := literals_are_used_up
  refine ⟨spans, ?_, ?_, ?_⟩
  · exact absent [pair, one] pair "aa" List.mem_cons_self rfl (by decide) code _ (by rw [spans]; decide) rfl
  · exact repeated [] [one] [] pair again "aa" rfl rfl (by decide) code (by decide)
  · exact inserted [] [pair, one] wordless (inert "word" none).2 code (by decide)

end CodeColor
