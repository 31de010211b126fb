import CodeColor.Proofs.Claim.Gap
import CodeColor.Proofs.Claim.Spent
import CodeColor.Proofs.Pattern.Quoted
import CodeColor.Proofs.Token.Members

/-!
String literals of JavaScript and TypeScript. A literal is taken whole, whatever is escaped in it, unless a backslash
stands in it at the end of a line: a string may go on over a line, but the pair of a backslash and a line feed is not
one of those that the rule for strings knows.

Main statement: `literal_is_string_iff`. It rests on `Script.body_iff`, which says what the rule can take between two
quotes.
-/

namespace CodeColor

open Piece Pattern
open CodeColor.Language (js ts)

namespace Script

/-! ## Literals -/

def quotes : List Char := ['"', '\x27', '\x60']

/-- A part of what stands between two quotes: a character, or a backslash with the character that it escapes. -/
inductive Item where
  | plain (c : Char)
  | escape (c : Char)
  deriving DecidableEq

namespace Item

def text : Item → List Char
  | plain c => [c]
  | escape c => ['\\', c]

/-- Only escaped can the quote stand in the literal, or a backslash. -/
def Fits (quote : Char) : Item → Prop
  | plain c => c ≠ quote ∧ c ≠ '\\'
  | escape _ => True

instance (quote : Char) : (item : Item) → Decidable (item.Fits quote)
  | plain c => inferInstanceAs (Decidable (c ≠ quote ∧ c ≠ '\\'))
  | escape _ => inferInstanceAs (Decidable True)

end Item

structure Literal where
  quote : Char
  items : List Item
  known : quote ∈ quotes
  fits : ∀ item ∈ items, item.Fits quote

namespace Literal

variable (literal : Literal)

def body : List Char :=
  literal.items.flatMap Item.text

def text : List Char :=
  literal.quote :: (literal.body ++ [literal.quote])

theorem not_backslash : literal.quote ≠ '\\' := by
  intro same
  have known := literal.known
  rw [same] at known
  exact absurd known (by decide)

end Literal

/-! ## The rule for strings -/

theorem body_iff {quote : Char} {items : List Item} (fits : ∀ item ∈ items, item.Fits quote) :
    Body quote (items.flatMap Item.text) ↔ .escape '\n' ∉ items := by
  induction items with
  | nil => exact iff_of_true .nil List.not_mem_nil
  | cons item items ih =>
    obtain ⟨first, others⟩ := List.forall_mem_cons.1 fits
    rw [List.flatMap_cons, List.mem_cons, not_or, ← ih others]
    cases item with
    | plain c =>
      have other : Item.escape '\n' ≠ .plain c := nofun
      exact (Body.plain_iff first).trans (and_iff_right other).symm
    | escape c =>
      rw [Item.escape.injEq, eq_comm]
      exact Body.escape_iff

def commentRule : Rule := ⟨"comment", Language.JavaScript.comment, .comment⟩

def stringRule : Rule := ⟨"string", Language.JavaScript.string, .string⟩

theorem matchLength?_string {quote : Char} (known : quote ∈ quotes) (before rest : List Char) :
    stringRule.pattern.matchLength? before (quote :: rest) =
      (Language.Lexeme.escapedString quote).matchLength? before (quote :: rest) := by
  have absent (other : Char) (different : quote ≠ other) :
      (Language.Lexeme.escapedString other).matchLength? before (quote :: rest) = none :=
    (escapedString_opensAt other).matchLength?_eq_none before (by simpa [startsIn, CharSet.among] using different)
  change Pattern.matchLength? (Language.Lexeme.escapedString '"' ||| Language.Lexeme.escapedString '\x27' |||
    Language.Lexeme.escapedString '\x60') before (quote :: rest) = _
  rw [matchLength?_or, matchLength?_or]
  simp only [quotes, List.mem_cons, List.not_mem_nil, or_false] at known
  rcases known with rfl | rfl | rfl
  · rw [absent '\x27' (by decide), absent '\x60' (by decide), Option.or_none, Option.or_none]
  · rw [absent '"' (by decide), absent '\x60' (by decide), Option.none_or, Option.or_none]
  · rw [absent '"' (by decide), absent '\x27' (by decide), Option.none_or, Option.none_or]

theorem string_opensAt : stringRule.pattern.OpensAt (.among quotes) := by
  have each {quote : Char} (known : quote ∈ quotes) :
      (Language.Lexeme.escapedString quote).OpensAt (.among quotes) := by
    apply (escapedString_opensAt quote).mono
    intro c same
    obtain rfl : c = quote := by simpa [CharSet.among] using same
    exact List.contains_iff_mem.2 known
  exact ((each (by decide)).or (each (by decide))).or (each (by decide))

namespace Literal

variable {literal : Literal}

theorem matched (none_over : .escape '\n' ∉ literal.items) (before rest : List Char) :
    stringRule.Matches before literal.text rest := by
  have taken := escapedString_match literal.not_backslash ((body_iff literal.fits).2 none_over) before rest
  refine ⟨List.cons_ne_nil _ _, ?_⟩
  have split : literal.text ++ rest = literal.quote :: (literal.body ++ literal.quote :: rest) := by simp [text]
  have size : literal.text.length = literal.body.length + 2 := by simp [text]
  rw [split, size, matchLength?_string literal.known]
  exact taken

theorem none_over_of_spells (spelled : stringRule.pattern.Spells literal.text) : .escape '\n' ∉ literal.items := by
  have taken : ∃ quote, (Language.Lexeme.escapedString quote).Spells literal.text := by
    rcases spelled with (double | single) | tick
    · exact ⟨_, double⟩
    · exact ⟨_, single⟩
    · exact ⟨_, tick⟩
  obtain ⟨quote, _, _, whole, ⟨_, content, rfl, rfl, body⟩, rfl⟩ := taken
  obtain ⟨rfl, same⟩ := List.cons.inj whole
  obtain rfl : literal.body = content := List.append_cancel_right same
  exact (body_iff literal.fits).1 body

end Literal

/-! ## Comments before it -/

theorem opens_of_spells {text : List Char} (spelled : commentRule.pattern.Spells text) :
    ∃ c ∈ ['/', '*'], ∃ more, text = '/' :: c :: more := by
  rcases spelled with ⟨_, more, rfl, rfl, -⟩ | ⟨_, _, rfl, ⟨_, more, rfl, rfl, -⟩, -⟩
  · exact ⟨'/', by decide, more, rfl⟩
  · exact ⟨'*', by decide, _, rfl⟩

theorem clear_of_no_opener {front after : List Char} {c : Char} (last : c ≠ '/')
    (no_opener : ∀ d ∈ ['/', '*'], ¬ ['/', d] <:+: front ++ [c]) :
    Clear (front ++ [c]) [] (Grammar.claim [commentRule] ((front ++ [c]) ++ after)) := by
  intro before other type stands
  obtain ⟨rule, member, -, spelled⟩ := Grammar.spells_of_stands stands
  rw [List.mem_singleton.1 member] at spelled
  obtain ⟨d, known, more, rfl⟩ := opens_of_spells spelled
  obtain ⟨rest, whole⟩ := Grammar.code_eq_of_stands stands
  right
  rcases List.append_eq_append_iff.1 whole with ⟨behind, rfl, -⟩ | ⟨inside, split, within⟩
  · simp
  · cases inside with
    | nil => simp [split]
    | cons e inside =>
      obtain ⟨rfl, further⟩ := List.cons.inj within
      cases inside with
      | nil =>
        obtain ⟨-, same⟩ := List.append_inj' split rfl
        exact absurd (List.cons.inj same).1 last
      | cons e inside =>
        obtain ⟨rfl, -⟩ := List.cons.inj further
        exact absurd ⟨before, inside, by simp [split]⟩ (no_opener _ known)

/-! ## The literal in a source -/

theorem Literal.stands {literal : Literal} (none_over : .escape '\n' ∉ literal.items) {before : List Char}
    (after : List Char) (no_quote : ∀ c ∈ before, c ∉ quotes)
    (no_opener : ∀ d ∈ ['/', '*'], ¬ ['/', d] <:+: before ++ literal.text) (others : Grammar) :
    Stands ⟨literal.text, some .string⟩ before
      (Grammar.claim (commentRule :: stringRule :: others) (before ++ (literal.text ++ after))) := by
  have split : before ++ literal.text = (before ++ literal.quote :: literal.body) ++ [literal.quote] := by
    simp [text]
  have last : literal.quote ≠ '/' := by
    intro same
    have known := literal.known
    rw [same] at known
    exact absurd known (by decide)
  have clear : Clear (before ++ literal.text) [] (Grammar.claim [commentRule] (before ++ (literal.text ++ after))) := by
    rw [split] at no_opener
    rw [← List.append_assoc, split]
    exact clear_of_no_opener last no_opener
  have some_text : before ++ literal.text ≠ [] := by simp [text]
  have tidy : Tidy (Grammar.claim [commentRule] (before ++ (literal.text ++ after))) :=
    Grammar.tidy_claim _ (by simp [text])
  have whole : source (Grammar.claim [commentRule] (before ++ (literal.text ++ after))) =
      [] ++ ((before ++ literal.text) ++ after) := by rw [Grammar.source_claim, List.append_assoc, List.nil_append]
  obtain ⟨rest, outer, left, none, free⟩ := tidy.liesFree_of_clear some_text whole clear
  obtain ⟨rfl, rfl⟩ := List.append_eq_nil_iff.1 none.symm
  have missed : stringRule.Misses [] before (literal.text ++ rest) := by
    apply Rule.misses_of_opensAt string_opensAt
    intro c member
    exact Bool.eq_false_iff.2 fun inside => no_quote c member (List.contains_iff_mem.1 inside)
  have inside := (stringRule.cuts_cut [] _).stands_of_first (List.append_assoc _ _ _) missed
    (literal.matched none_over _ rest)
  have placed := Rule.stands_claimFrom_of_divide free inside
  exact (Grammar.refines_claim_append [commentRule, stringRule] others _).keeps placed

theorem grammar_split {language : Language} (script : language ∈ [js, ts]) :
    language.grammar = commentRule :: stringRule :: language.grammar.drop 2 ∧
      .string ∉ (language.grammar.drop 2).map Rule.type := by
  simp only [List.mem_cons, List.not_mem_nil, or_false] at script
  rcases script with rfl | rfl <;> exact ⟨rfl, by decide⟩

theorem none_over_of_stands {language : Language} (script : language ∈ [js, ts]) {literal : Literal}
    {start code : List Char} (stands : Stands ⟨literal.text, some .string⟩ start (language.grammar.claim code)) :
    .escape '\n' ∉ literal.items := by
  obtain ⟨split, other⟩ := grammar_split script
  obtain ⟨rule, member, typed, spelled⟩ := Grammar.spells_of_stands stands
  rw [split, List.mem_cons, List.mem_cons] at member
  rcases member with rfl | rfl | member
  · exact absurd typed (by decide)
  · exact literal.none_over_of_spells spelled
  · exact absurd (List.mem_map.2 ⟨rule, member, typed⟩) other

end Script

/-- Behind text without quotes, a literal into which no comment opens is a string token, if none of the characters that
are escaped in it is a line feed. Otherwise no string token is that literal. -/
theorem literal_is_string_iff (language : Language) (script : language ∈ [js, ts]) (literal : Script.Literal)
    (before after : List Char) (no_quote : ∀ c ∈ before, c ∉ Script.quotes)
    (no_opener : ∀ d ∈ ['/', '*'], ¬ ['/', d] <:+: before ++ literal.text) :
    let tokens := tokenize (some language.name) (String.ofList (before ++ (literal.text ++ after)))
    let place := Position.start.past before
    (⟨.string, String.ofList literal.text, place.line, place.column⟩ ∈ tokens ↔ .escape '\n' ∉ literal.items) ∧
      ((before.length, before.length + literal.text.length) ∈ Span.extents .string (Token.spans tokens) ↔
        .escape '\n' ∉ literal.items) := by
  intro tokens place
  have found : tokens = language.grammar.tokenize (String.ofList (before ++ (literal.text ++ after))) :=
    tokenize_name language _
  obtain ⟨split, -⟩ := Script.grammar_split script
  have some_rule : language.grammar ≠ [] := by rw [split]; exact List.cons_ne_nil _ _
  have stands (none_over : .escape '\n' ∉ literal.items) :
      Stands ⟨literal.text, some .string⟩ before (language.grammar.claim (before ++ (literal.text ++ after))) := by
    rw [split]
    exact literal.stands none_over after no_quote no_opener _
  constructor
  · rw [found, Grammar.mem_tokenize_iff some_rule, String.toList_ofList]
    constructor
    · intro ⟨start, ⟨text, type?⟩, stands, same⟩
      have string : Piece.tokenType ⟨text, type?⟩ = .string := (congrArg Token.type same).symm
      have typed : type? = some .string := (tokenType_eq_iff (by decide) (by decide)).1 string
      obtain rfl : literal.text = text := String.ofList_injective (congrArg Token.value same)
      rw [typed] at stands
      exact Script.none_over_of_stands script stands
    · intro none_over
      exact ⟨before, _, stands none_over, rfl⟩
  · rw [found, Grammar.mem_extents_iff (by decide) (by decide), String.toList_ofList]
    constructor
    · intro ⟨start, text, stands, same⟩
      obtain ⟨first, last⟩ := Prod.mk.inj same
      obtain ⟨rest, whole⟩ := Grammar.code_eq_of_stands stands
      obtain ⟨rfl, behind⟩ := List.append_inj whole first
      obtain ⟨rfl, -⟩ := List.append_inj behind (by omega)
      exact Script.none_over_of_stands script stands
    · intro none_over
      exact ⟨before, literal.text, stands none_over, rfl⟩

/-- An escaped quote does not end the literal, nor does another quote or a line feed that is not escaped. -/
theorem literal_is_string_iff_of_escapes :
    let literal : Script.Literal :=
      ⟨'\x27', [.plain '"', .escape '\x27', .plain '\n', .escape '\\'], by decide, by decide⟩
    let tokens := tokenize (some Language.js.name) (String.ofList ("f ".toList ++ (literal.text ++ "+'".toList)))
    ⟨.string, "'\"\\'\n\\\\'", 1, 3⟩ ∈ tokens ∧ (2, 10) ∈ Span.extents .string (Token.spans tokens) := by
  intro literal tokens
  obtain ⟨token, extent⟩ := literal_is_string_iff .js (by decide) literal "f ".toList "+'".toList
    (by simp [Script.quotes]) (List.forall_mem_cons.2 ⟨by decide, List.forall_mem_singleton.2 (by decide)⟩)
  have none_over : .escape '\n' ∉ literal.items := by decide
  exact ⟨token.2 none_over, extent.2 none_over⟩

/-- Not every literal is a string token: a backslash at the end of a line keeps the rule from finding its end. -/
theorem literal_torn_at_line_end :
    ¬ ∀ language ∈ [js, ts], ∀ (literal : Script.Literal) (before after : List Char),
      (∀ c ∈ before, c ∉ Script.quotes) → (∀ d ∈ ['/', '*'], ¬ ['/', d] <:+: before ++ literal.text) →
        (before.length, before.length + literal.text.length) ∈ Span.extents .string
          (Token.spans (tokenize (some language.name) (String.ofList (before ++ (literal.text ++ after))))) := by
  intro whole
  have found := whole .js (by decide) ⟨'"', [.plain 'a', .escape '\n', .plain 'b'], by decide, by decide⟩ [] []
    (by simp) (List.forall_mem_cons.2 ⟨by decide, List.forall_mem_singleton.2 (by decide)⟩)
  exact absurd found (by decide +kernel)

end CodeColor
