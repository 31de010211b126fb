import CodeColor.Proofs.Language.Keywords
import CodeColor.Proofs.Pattern.CharSet
import CodeColor.Proofs.Pattern.Mark
import CodeColor.Proofs.Pattern.Stops
import CodeColor.Proofs.Token.Members

/-!
Identifiers of JavaScript and TypeScript. The rules for keywords, type names and functions start and stop at word
boundaries, and a dollar is an identifier character but no word character. So a token of these types can be cut out of
a longer identifier, but only next to a dollar.

Main statement: `identifiers_split_at_dollars`. It rests on `Script.Among.edges`, for any rule that starts and stops in
this way behind rules that leave words whole.
-/

namespace CodeColor

open Piece Pattern
open CodeColor.Language (js ts scriptRules)
open Language.JavaScript (identifierHead identifierCharacter)

namespace Script

/-! ## Edges -/

theorem toNat_lt_of_identifierCharacter {c : Char} (inside : identifierCharacter c = true) : c.toNat < 128 := by
  have below {first last : Char} (small : last.toNat < 128) (within : CharSet.between first last c = true) :
      c.toNat < 128 := Nat.lt_of_le_of_lt (CharSet.toNat_le_of_between within) small
  simp only [identifierCharacter, CharSet.or, CharSet.alphanumeric, CharSet.letter, CharSet.upper,
    Bool.or_eq_true] at inside
  rcases inside with ((upper | lower) | digit) | mark
  · exact below (by decide) upper
  · exact below (by decide) lower
  · exact below (by decide) digit
  · have marks : ∀ d ∈ ['_', '$'], d.toNat < 128 := by simp
    exact marks c (List.contains_iff_mem.1 mark)

theorem word_iff {c : Char} (inside : identifierCharacter c = true) : CharSet.word c = true ↔ c ≠ '$' := by
  have all : ∀ point < 128, identifierCharacter (Char.ofNat point) = true →
      (CharSet.word (Char.ofNat point) = true ↔ Char.ofNat point ≠ '$') := by decide +kernel
  have known := all c.toNat (toNat_lt_of_identifierCharacter inside)
  rw [Char.ofNat_toNat] at known
  exact known inside

/-- Where two identifier characters meet, one of them is a dollar and the other is not. -/
def MeetAtDollar (left right : List Char) : Prop :=
  ∀ c d, left.head? = some c → right.head? = some d → identifierCharacter c = true → identifierCharacter d = true →
    (c = '$' ↔ d ≠ '$')

theorem meetAtDollar_of_edge {left right : List Char}
    (edge : startsIn CharSet.word left ≠ startsIn CharSet.word right) : MeetAtDollar left right := by
  intro c d first second before behind
  rw [startsIn_of_head first, startsIn_of_head second, ne_eq, Bool.eq_iff_iff, word_iff before, word_iff behind] at edge
  tauto

theorem meetAtDollar_of_not {left right : List Char} (other : startsIn identifierCharacter right = false) :
    MeetAtDollar left right := by
  intro c d _ second _ behind
  rw [startsIn_of_head second, behind] at other
  cases other

/-! ## Rules that start and stop at edges -/

/-- Each match starts at a word boundary. -/
def OpensAtEdge (pattern : Pattern) : Prop :=
  ∀ cursor stop, stop ∈ pattern.ends cursor → Guard.wordBoundary.holds cursor = true

theorem opensAtEdge_boundary : OpensAtEdge boundary :=
  fun _ _ member => (mem_ends_guard.1 member).1

theorem OpensAtEdge.append {first : Pattern} (opens : OpensAtEdge first) (second : Pattern) :
    OpensAtEdge (first ++ second) := by
  intro cursor stop member
  obtain ⟨middle, inside, -⟩ := mem_ends_append.1 member
  exact opens cursor middle inside

/-- The pattern takes identifier characters, starts at a word boundary, and stops at one, or in front of something that
is no identifier character. -/
structure TakesIdentifiers (pattern : Pattern) : Prop where
  only : pattern.TakesOnly identifierCharacter
  opens : OpensAtEdge pattern
  closes {cursor stop : Cursor} (member : stop ∈ pattern.ends cursor) :
    Guard.wordBoundary.holds stop = true ∨ ∃ c rest, stop.after = c :: rest ∧ identifierCharacter c = false

section

variable {first : Grammar} {text rest after start code : List Char}

theorem edge_behind (shy : ∀ rule ∈ first, rule.pattern.Shy) (whole : code = start ++ (text ++ after))
    (free : LiesFree text rest start (first.claim code))
    (edge : startsIn CharSet.word text.reverse ≠ startsIn CharSet.word rest) :
    startsIn CharSet.word text.reverse ≠ startsIn CharSet.word after := by
  cases last : startsIn CharSet.word text.reverse with
  | true => rwa [last, Grammar.startsIn_behind shy last whole free] at edge
  | false =>
    rw [last] at edge
    have ahead : startsIn CharSet.word rest = true := Bool.eq_true_of_not_eq_false edge.symm
    obtain ⟨more, rfl⟩ := free.rest_prefix ((first.source_claim code).trans whole)
    rw [startsIn_append_left ahead]
    exact Bool.false_ne_true

end

/-- The rule is the only one of its type in the grammar, and the rules before it leave words whole. -/
structure Among (grammar first : Grammar) (rule : Rule) (others : Grammar) : Prop where
  split : grammar = first ++ rule :: others
  shy : ∀ rule ∈ first, rule.pattern.Shy
  fresh : rule.type ∉ first.map Rule.type
  last : rule.type ∉ others.map Rule.type

namespace Among

variable {grammar first others : Grammar} {rule : Rule} (among : Among grammar first rule others)
  {text start code : List Char}
include among

theorem exists_free (stands : Stands ⟨text, some rule.type⟩ start (grammar.claim code)) :
    ∃ rest after, code = start ++ (text ++ after) ∧ LiesFree text rest start (first.claim code) ∧
      text ≠ [] ∧ rule.pattern.Spells text ∧
        ⟨text.reverse ++ start.reverse, rest, text.length⟩ ∈ rule.pattern.ends ⟨start.reverse, text ++ rest, 0⟩ := by
  obtain ⟨after, whole⟩ := Grammar.code_eq_of_stands stands
  rw [among.split] at stands
  obtain ⟨rest, free, matched⟩ := Grammar.matched_of_stands_middle among.fresh among.last stands
  exact ⟨rest, after, whole, free, matched.some_text, matched.spells, mem_ends_of_matchLength? matched.length⟩

theorem edges (takes : TakesIdentifiers rule.pattern)
    (stands : Stands ⟨text, some rule.type⟩ start (grammar.claim code)) :
    (text ≠ [] ∧ ∀ c ∈ text, identifierCharacter c = true) ∧ ∃ after, code = start ++ (text ++ after) ∧
      MeetAtDollar start.reverse (text ++ after) ∧ MeetAtDollar (start ++ text).reverse after := by
  obtain ⟨rest, after, whole, free, some_text, spelled, member⟩ := among.exists_free stands
  have some_last : text.reverse ≠ [] := fun none => some_text (List.reverse_eq_nil_iff.1 none)
  refine ⟨⟨some_text, takes.only text spelled⟩, after, whole, ?_, ?_⟩
  · have edge := bne_iff_ne.1 (takes.opens _ _ member)
    apply meetAtDollar_of_edge
    rwa [startsIn_append some_text] at edge ⊢
  · rcases takes.closes member with edge | ⟨c, more, behind, other⟩
    · have edge := bne_iff_ne.1 edge
      rw [startsIn_append some_last] at edge
      apply meetAtDollar_of_edge
      rw [List.reverse_append, startsIn_append some_last]
      exact edge_behind among.shy whole free edge
    · obtain ⟨further, rfl⟩ := free.rest_prefix ((first.source_claim code).trans whole)
      have same : rest = c :: more := behind
      exact meetAtDollar_of_not (by rw [same]; exact other)

end Among

/-! ## The rules of both languages -/

theorem takesIdentifiers_of_boundary {first : Pattern} (only : first.TakesOnly identifierCharacter)
    (opens : OpensAtEdge first) : TakesIdentifiers (first ++ boundary) where
  only := only.append (.guard _)
  opens := opens.append boundary
  closes member := by
    obtain ⟨middle, -, closing⟩ := mem_ends_append.1 member
    obtain ⟨edge, rfl⟩ := mem_ends_guard.1 closing
    exact .inl edge

theorem takes_keywords {words : List String} (plain : ∀ word ∈ words, word.toList.all identifierCharacter = true) :
    TakesIdentifiers (wholeWord words) := by
  apply takesIdentifiers_of_boundary _ (opensAtEdge_boundary.append _)
  apply (TakesOnly.guard _).append (.choice _)
  intro pattern member
  obtain ⟨word, known, rfl⟩ := List.mem_map.1 member
  exact .literal (List.all_eq_true.1 (plain word known))

theorem takes_typeName : TakesIdentifiers Language.TypeScript.typeName := by
  have upper : ∀ c, CharSet.upper c = true → identifierCharacter c = true := by
    intro c inside
    simp [identifierCharacter, CharSet.or, CharSet.alphanumeric, CharSet.letter, inside]
  apply takesIdentifiers_of_boundary _ ((opensAtEdge_boundary.append _).append _)
  exact ((TakesOnly.guard _).append (.one upper)).append (.many fun _ inside => inside)

theorem off_behind_call {cursor stop : Cursor} (member : stop ∈ Language.JavaScript.call.ends cursor) :
    ∃ c rest, stop.after = c :: rest ∧ identifierCharacter c = false := by
  obtain ⟨middle, -, looking⟩ := mem_ends_append.1 member
  obtain ⟨some_way, rfl⟩ := mem_ends_ahead.1 looking
  obtain ⟨place, found⟩ := List.exists_mem_of_ne_nil _ some_way
  obtain ⟨text, ⟨space, mark, rfl, blank, rfl⟩, passes⟩ := passes_of_mem_ends found
  have off : Text.OffBlank identifierCharacter := by decide
  cases space with
  | nil => exact ⟨'(', _, passes.after, by decide⟩
  | cons c space => exact ⟨c, _, passes.after, off.eq_false (blank c List.mem_cons_self)⟩

theorem takes_call : TakesIdentifiers Language.JavaScript.call where
  only := by
    have head : ∀ c, identifierHead c = true → identifierCharacter c = true := by
      intro c inside
      simp only [identifierHead, identifierCharacter, CharSet.or, CharSet.alphanumeric, Bool.or_eq_true] at inside ⊢
      tauto
    have name := ((TakesOnly.guard .wordBoundary).append (.one head)).append (.many fun _ inside => inside)
    exact name.append fun _ spelled _ member => by rw [spelled] at member; cases member
  opens := ((opensAtEdge_boundary.append _).append _).append _
  closes member := .inr (off_behind_call member)

/-! ## Places -/

def IdentifierAt (code : List Char) (place : Nat) : Prop :=
  ∃ c, code[place]? = some c ∧ identifierCharacter c = true

/-- The edge lies between two identifier characters. -/
def SplitsIdentifier (code : List Char) (edge : Nat) : Prop :=
  ∃ place, place + 1 = edge ∧ IdentifierAt code place ∧ IdentifierAt code edge

def BesideDollar (code : List Char) (edge : Nat) : Prop :=
  ∃ place, place + 1 = edge ∧ (code[place]? = some '$' ↔ code[edge]? ≠ some '$')

/-- The stretch consists of identifier characters, and only next to a dollar does it split an identifier. -/
structure SplitsAtDollars (code : List Char) (extent : Nat × Nat) : Prop where
  some_place : extent.1 < extent.2
  inside : ∀ place, Within extent place → IdentifierAt code place
  edges : ∀ edge ∈ [extent.1, extent.2], SplitsIdentifier code edge → BesideDollar code edge

theorem SplitsAtDollars.maximal {code : List Char} {extent : Nat × Nat} (splits : SplitsAtDollars code extent)
    (absent : '$' ∉ code) : MaximalRun (IdentifierAt code) extent := by
  have some_place := splits.some_place
  have none_there (place : Nat) : code[place]? ≠ some '$' := fun found => absent (List.mem_of_getElem? found)
  have whole : ∀ edge ∈ [extent.1, extent.2], ¬ SplitsIdentifier code edge := by
    intro edge listed split
    obtain ⟨place, -, dollar⟩ := splits.edges edge listed split
    exact none_there place (dollar.2 (none_there edge))
  obtain ⟨last, next⟩ : ∃ last, last + 1 = extent.2 := ⟨extent.2 - 1, by omega⟩
  have within_last : Within extent last := by
    unfold Within
    omega
  have first := splits.inside extent.1 ⟨Nat.le_refl _, some_place⟩
  refine ⟨some_place, splits.inside, fun place before held => ?_, fun held => ?_⟩
  · exact whole extent.1 (by simp) ⟨place, before, held, first⟩
  · exact whole extent.2 (by simp) ⟨last, next, splits.inside last within_last, held⟩

theorem besideDollar_of_meet {front back : List Char} (meet : MeetAtDollar front.reverse back)
    (splits : SplitsIdentifier (front ++ back) front.length) : BesideDollar (front ++ back) front.length := by
  obtain ⟨place, next, ⟨c, before, inside⟩, d, behind, other⟩ := splits
  have last : front.reverse.head? = some c := by
    rw [List.head?_reverse, List.getLast?_eq_getElem?, ← before, List.getElem?_append_left (by omega)]
    congr 1
    omega
  have ahead : back.head? = some d := by
    rw [List.head?_eq_getElem?, ← behind, List.getElem?_append_right (Nat.le_refl _), Nat.sub_self]
  have dollar := meet c d last ahead inside other
  exact ⟨place, next, by simpa [before, behind] using dollar⟩

/-! ## Tokens -/

namespace Among

variable {grammar first others : Grammar} {rule : Rule} (among : Among grammar first rule others)
  {text start code : List Char}
include among

theorem splitsAtDollars (takes : TakesIdentifiers rule.pattern)
    (stands : Stands ⟨text, some rule.type⟩ start (grammar.claim code)) :
    SplitsAtDollars code (start.length, start.length + text.length) := by
  obtain ⟨⟨some_text, only⟩, after, whole, opening, closing⟩ := among.edges takes stands
  have positive := List.length_pos_iff.2 some_text
  refine ⟨by dsimp only; omega, fun place within => ?_, fun edge listed splits => ?_⟩
  · obtain ⟨left, c, right, own, found⟩ := Grammar.exists_split_of_stands stands within
    exact ⟨c, found, only c (by simp [own])⟩
  · simp only [List.mem_cons, List.not_mem_nil, or_false] at listed
    rcases listed with rfl | rfl
    · rw [whole] at splits ⊢
      exact besideDollar_of_meet opening splits
    · rw [whole, ← List.append_assoc, ← List.length_append] at splits ⊢
      exact besideDollar_of_meet closing splits

theorem not_splits_behind_call (same : rule.pattern = Language.JavaScript.call)
    (stands : Stands ⟨text, some rule.type⟩ start (grammar.claim code)) :
    ¬ SplitsIdentifier code (start.length + text.length) := by
  intro ⟨_, _, _, d, found, identifier⟩
  obtain ⟨rest, after, whole, free, -, -, member⟩ := among.exists_free stands
  rw [same] at member
  obtain ⟨c, more, behind, other⟩ := off_behind_call member
  obtain ⟨further, rfl⟩ := free.rest_prefix ((first.source_claim code).trans whole)
  have ahead : rest = c :: more := behind
  have next : code[start.length + text.length]? = some c := by simp [whole, ahead]
  obtain rfl : d = c := Option.some.inj (found.symm.trans next)
  rw [identifier] at other
  cases other

end Among

def typeRule : Rule := ⟨"type", Language.TypeScript.typeName, .className⟩

def callRule : Rule := ⟨"function", Language.JavaScript.call, .function⟩

section

variable {language : Language} {type : TokenType}

theorem js_keywords : Among js.grammar scriptRules js.keywordRule (js.grammar.drop 3) :=
  ⟨rfl, Language.shy_scriptRules, by decide, by decide⟩

theorem ts_keywords : Among ts.grammar scriptRules ts.keywordRule (ts.grammar.drop 3) :=
  ⟨rfl, Language.shy_scriptRules, by decide, by decide⟩

theorem shy_scriptRules_keyword (language : Language) :
    ∀ rule ∈ scriptRules ++ [language.keywordRule], rule.pattern.Shy := by
  have words : language.keywordRule.pattern.Shy := (Shy.boundary.append _).append _
  exact List.forall_mem_append.2 ⟨Language.shy_scriptRules, List.forall_mem_singleton.2 words⟩

theorem js_calls : Among js.grammar (scriptRules ++ [js.keywordRule]) callRule (js.grammar.drop 4) :=
  ⟨rfl, shy_scriptRules_keyword js, by decide, by decide⟩

theorem ts_types : Among ts.grammar (scriptRules ++ [ts.keywordRule]) typeRule (ts.grammar.drop 4) :=
  ⟨rfl, shy_scriptRules_keyword ts, by decide, by decide⟩

theorem ts_calls : Among ts.grammar (scriptRules ++ [ts.keywordRule] ++ [typeRule]) callRule (ts.grammar.drop 5) := by
  have types : typeRule.pattern.Shy := ((Shy.boundary.append _).append _).append _
  have shy := List.forall_mem_append.2 ⟨shy_scriptRules_keyword ts, List.forall_mem_singleton.2 types⟩
  exact ⟨rfl, shy, by decide, by decide⟩

theorem takes_keywordRule (script : language ∈ [js, ts]) : TakesIdentifiers language.keywordRule.pattern := by
  apply takes_keywords
  simp only [List.mem_cons, List.not_mem_nil, or_false] at script
  rcases script with rfl | rfl <;> decide +kernel

theorem exists_rule (script : language ∈ [js, ts]) (named : type ∈ [TokenType.keyword, .className, .function]) :
    type ∉ language.grammar.map Rule.type ∨ ∃ first rule others, Among language.grammar first rule others ∧
      rule.type = type ∧ TakesIdentifiers rule.pattern ∧ (type = .function → rule = callRule) := by
  have keywords := takes_keywordRule script
  simp only [List.mem_cons, List.not_mem_nil, or_false] at script named
  rcases script with rfl | rfl <;> rcases named with rfl | rfl | rfl
  · exact .inr ⟨_, _, _, js_keywords, rfl, keywords, nofun⟩
  · exact .inl (by decide)
  · exact .inr ⟨_, _, _, js_calls, rfl, takes_call, fun _ => rfl⟩
  · exact .inr ⟨_, _, _, ts_keywords, rfl, keywords, nofun⟩
  · exact .inr ⟨_, _, _, ts_types, rfl, takes_typeName, nofun⟩
  · exact .inr ⟨_, _, _, ts_calls, rfl, takes_call, fun _ => rfl⟩

end

end Script

/-- Each keyword, class or function token of JavaScript and TypeScript consists of identifier characters. An identifier
character can come right before the token or right behind it, but only where one of the two that meet is a dollar, and
none comes right behind a function. So in a source without dollars all these tokens are whole identifiers. -/
theorem identifiers_split_at_dollars (language : Language) (script : language ∈ [js, ts]) (type : TokenType)
    (named : type ∈ [TokenType.keyword, .className, .function]) (code : String) :
    let spans := Token.spans (tokenize (some language.name) code)
    ∀ extent ∈ Span.extents type spans, Script.SplitsAtDollars code.toList extent ∧
      (type = .function → ¬ Script.SplitsIdentifier code.toList extent.2) ∧
      ('$' ∉ code.toList → MaximalRun (Script.IdentifierAt code.toList) extent) := by
  intro spans extent member
  have element : ∀ type ∈ [TokenType.keyword, .className, .function], type.name ≠ "" ∧ type ≠ .text := by decide
  obtain ⟨some_name, other⟩ := element type named
  rw [language.extents_spans code some_name other] at member
  rcases Script.exists_rule script named with absent | ⟨first, rule, others, among, rfl, takes, call⟩
  · rw [Grammar.extents_of_not_mem absent] at member
    cases member
  · obtain ⟨start, text, stands, rfl⟩ := mem_extentsFrom.1 member
    have splits := among.splitsAtDollars takes stands
    refine ⟨splits, fun function => ?_, splits.maximal⟩
    exact among.not_splits_behind_call (congrArg Rule.pattern (call function)) stands

/-- The type in the second source is cut off between a dollar and a letter, as the letter behind it is not Latin. -/
theorem identifiers_split_at_dollars_of_type :
    MaximalRun (Script.IdentifierAt "max1 (x)".toList) (0, 4) ∧ ¬ Script.SplitsIdentifier "max1 (x)".toList 4 ∧
      Script.SplitsAtDollars "new A$bé".toList (4, 6) ∧ Script.SplitsIdentifier "new A$bé".toList 6 := by
  obtain ⟨-, stops, whole⟩ := identifiers_split_at_dollars .ts (by decide) .function (by decide) "max1 (x)" (0, 4)
    (by decide +kernel)
  obtain ⟨cut, -, -⟩ := identifiers_split_at_dollars .ts (by decide) .className (by decide) "new A$bé" (4, 6)
    (by decide +kernel)
  exact ⟨whole (by decide), stops rfl, cut, 5, rfl, ⟨'$', by decide, by decide⟩, 'b', by decide, by decide⟩

/-- Not every such token is a whole identifier: a call is cut off behind a dollar at the start of its name. -/
theorem identifiers_split_behind_dollar :
    ¬ ∀ language ∈ [js, ts], ∀ type ∈ [TokenType.keyword, .className, .function], ∀ code : String,
      ∀ extent ∈ Span.extents type (Token.spans (tokenize (some language.name) code)),
        MaximalRun (Script.IdentifierAt code.toList) extent := by
  intro whole
  have run := whole .js (by decide) .function (by decide) "$foo()" (1, 4) (by decide +kernel)
  exact run.before 0 rfl ⟨'$', by decide, by decide⟩

end CodeColor
