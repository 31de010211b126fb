import CodeColor.Proofs.Claim.Spent
import CodeColor.Proofs.Language.Keywords
import CodeColor.Proofs.Pattern.Alphabet
import CodeColor.Proofs.Pattern.Mark
import CodeColor.Proofs.Token.Members
import CodeColor.Proofs.Token.Runs

/-!
Operators and punctuation of JavaScript and TypeScript. The rules for them come last, and what the rules before them
take, apart from comments and strings, has none of their characters in it, but for the points in numbers.

Main statements: `Script.holder_of_mark`, which says what a piece with such a character can be, and
`operators_and_punctuation`.
-/

namespace CodeColor

open Piece Pattern

namespace Script

def operators : List Char :=
  ['+', '-', '*', '/', '%', '=', '<', '>', '!', '&', '|', '^', '~', '?', ':']

def separators : List Char := ['{', '}', '[', ']', '(', ')', ';', ',']

def points : List Char := separators ++ ['.']

def marks : List Char := operators ++ points

def operatorRule : Rule := ⟨"operator", oneOrMore (.among operators), .operator⟩

def punctuationRule : Rule := ⟨"punctuation", one (.among points), .punctuation⟩

/-- The rule is one for comments or strings, or it takes none of the marks; a rule for numbers may take points. -/
def spares (rule : Rule) : Bool :=
  decide (rule.type ∈ [.comment, .string]) || rule.pattern.staysBeyond marks ||
    (decide (rule.type = .number) && rule.pattern.staysBeyond (operators ++ separators))

/-- What a piece can be in which the mark stands between `left` and `right`. -/
inductive Holder (left : List Char) (c : Char) (right : List Char) : Option TokenType → Prop
  | shield {type : TokenType} (known : type ∈ [.comment, .string]) : Holder left c right (some type)
  | number (point : c = '.') : Holder left c right (some .number)
  | operator (mark : c ∈ operators) : Holder left c right (some .operator)
  | punctuation (mark : c ∈ points) (alone : left = [] ∧ right = []) : Holder left c right (some .punctuation)

theorem Holder.mem_operators {left right : List Char} {c : Char} {type? : Option TokenType}
    (holder : Holder left c right type?) (operator : type? = some .operator) : c ∈ operators := by
  cases holder with
  | shield known => exact absurd (Option.some.inj operator ▸ known) (by decide)
  | number point => exact absurd operator (by decide)
  | operator mark => exact mark
  | punctuation mark alone => exact absurd operator (by decide)

theorem Holder.exists_type {left right : List Char} {c : Char} {type? : Option TokenType}
    (holder : Holder left c right type?) :
    ∃ type ∈ [TokenType.comment, .string, .number, .operator, .punctuation], type? = some type := by
  have shields : [TokenType.comment, .string] ⊆ [.comment, .string, .number, .operator, .punctuation] := by decide
  cases holder with
  | shield known => exact ⟨_, shields known, rfl⟩
  | number | operator | punctuation => exact ⟨_, by decide, rfl⟩

theorem mem_of_among {members : List Char} {c : Char} (inside : CharSet.among members c = true) : c ∈ members :=
  List.contains_iff_mem.1 inside

theorem among_of_mem {members : List Char} {c : Char} (member : c ∈ members) : CharSet.among members c = true :=
  List.contains_iff_mem.2 member

section

variable {rule : Rule} {left right : List Char} {c : Char}

theorem holder_of_spares (spared : spares rule = true) (spelled : rule.pattern.Spells (left ++ c :: right))
    (mark : c ∈ marks) : Holder left c right (some rule.type) := by
  have member : c ∈ left ++ c :: right := by simp
  have beyond {alphabet : List Char} (stays : rule.pattern.staysBeyond alphabet = true) : c ∉ alphabet := by
    have out := beyond_of_spells stays spelled c member
    simpa [CharSet.except] using out
  simp only [spares, Bool.or_eq_true, Bool.and_eq_true, decide_eq_true_eq] at spared
  rcases spared with (known | stays) | ⟨number, stays⟩
  · exact .shield known
  · exact absurd mark (beyond stays)
  · have point : c = '.' := by
      have absent := beyond stays
      simp only [marks, points, List.mem_append, List.mem_singleton] at mark absent
      tauto
    exact number ▸ .number point

theorem holder_of_operator (spelled : operatorRule.pattern.Spells (left ++ c :: right)) :
    Holder left c right (some .operator) := by
  have only : operatorRule.pattern.TakesOnly (.among operators) :=
    (TakesOnly.one fun _ inside => inside).append (.many fun _ inside => inside)
  exact .operator (mem_of_among (only _ spelled c (by simp)))

theorem holder_of_punctuation (spelled : punctuationRule.pattern.Spells (left ++ c :: right)) :
    Holder left c right (some .punctuation) := by
  obtain ⟨d, inside, single⟩ := spelled
  rcases List.append_eq_singleton_iff.1 single with ⟨rfl, same⟩ | ⟨-, none⟩
  · obtain ⟨rfl, rfl⟩ := List.cons.inj same
    exact .punctuation (mem_of_among inside) ⟨rfl, rfl⟩
  · cases none

theorem holder_of_mark {first : Grammar} (spared : ∀ rule ∈ first, spares rule = true) {start code : List Char}
    {type? : Option TokenType} (mark : c ∈ marks)
    (stands : Stands ⟨left ++ c :: right, type?⟩ start ((first ++ [operatorRule, punctuationRule]).claim code)) :
    Holder left c right type? := by
  cases type? with
  | none =>
    have operator : Spent (.among operators) ((first ++ [operatorRule, punctuationRule]).claim code) :=
      Grammar.spent_claim Rule.takesUp_oneOrMore first [punctuationRule] code
    have point : Spent (.among points) (((first ++ [operatorRule]) ++ [punctuationRule]).claim code) :=
      Grammar.spent_claim Rule.takesUp_one (first ++ [operatorRule]) [] code
    rw [List.append_assoc] at point
    rcases List.mem_append.1 mark with known | known
    · have free := operator _ stands.mem c (by simp)
      rw [among_of_mem known] at free
      cases free
    · have free := point _ stands.mem c (by simp)
      rw [among_of_mem known] at free
      cases free
  | some type =>
    obtain ⟨rule, member, rfl, spelled⟩ := Grammar.spells_of_stands stands
    simp only [List.mem_append, List.mem_cons, List.not_mem_nil, or_false] at member
    rcases member with earlier | rfl | rfl
    · exact holder_of_spares (spared rule earlier) spelled mark
    · exact holder_of_operator spelled
    · exact holder_of_punctuation spelled

end

/-! ## Grammars that end with these rules -/

/-- The grammar ends with the rules for operators and punctuation, and those before them spare the marks. -/
structure Closes (first grammar : Grammar) : Prop where
  split : grammar = first ++ [operatorRule, punctuationRule]
  spared : ∀ rule ∈ first, spares rule = true
  no_operator : .operator ∉ first.map Rule.type
  no_punctuation : .punctuation ∉ first.map Rule.type

theorem not_mem_points {c : Char} (operator : c ∈ operators) : c ∉ points := by
  have apart : ∀ c ∈ operators, c ∉ points := by simp [operators, points, separators]
  exact apart c operator

section

variable {first grammar : Grammar} (closes : Closes first grammar)
include closes

theorem Closes.holder {start left right code : List Char} {c : Char} {type? : Option TokenType} (mark : c ∈ marks)
    (stands : Stands ⟨left ++ c :: right, type?⟩ start (grammar.claim code)) : Holder left c right type? := by
  rw [closes.split] at stands
  exact holder_of_mark closes.spared mark stands

theorem Closes.shield_behind {start text rest code : List Char} {c : Char}
    (stands : Stands ⟨text, some .operator⟩ start (grammar.claim code)) (whole : code = start ++ (text ++ c :: rest))
    (operator : c ∈ operators) :
    ∃ further, ∃ type ∈ [TokenType.comment, .string],
      Stands ⟨c :: further, some type⟩ (start ++ text) (grammar.claim code) := by
  have tidy : Tidy (first.claim code) := first.tidy_claim (by simp [whole])
  have split : grammar = (first ++ [operatorRule]) ++ [punctuationRule] := by simp [closes.split]
  have same : source (first.claim code) = start ++ (text ++ c :: rest) := (first.source_claim code).trans whole
  rw [split, Grammar.stands_first_iff (by decide), Grammar.claim_append] at stands
  rcases Rule.matched_of_stands_claimFrom stands with earlier | ⟨-, more, free, matched⟩
  · exact absurd (Grammar.type_mem_of_stands earlier) closes.no_operator
  · obtain ⟨further, type, claimed⟩ := Rule.stands_behind_run tidy free matched same (among_of_mem operator)
    have kept := (Grammar.refines_claim_append first [operatorRule, punctuationRule] code).keeps claimed
    rw [← closes.split] at kept
    refine ⟨further, type, ?_, kept⟩
    have mark : c ∈ marks := List.mem_append_left _ operator
    have known := Grammar.type_mem_of_stands claimed
    have alone : Stands ⟨[] ++ c :: further, some type⟩ (start ++ text) (grammar.claim code) := kept
    cases closes.holder mark alone with
    | shield known => exact known
    | number point => cases not_mem_points operator (point ▸ by decide)
    | operator => exact absurd known closes.no_operator
    | punctuation => exact absurd known closes.no_punctuation

end

end Script

/-! ## Places -/

namespace Span

/-- No comment and no string reaches over the place. -/
def OpenAt (spans : List Span) (place : Nat) : Prop :=
  ∀ type ∈ [TokenType.comment, .string], ∀ extent ∈ extents type spans, ¬ Within extent place

/-- One of the characters stands at the place, outside of comments and strings. -/
def HasOpen (members code : List Char) (spans : List Span) (place : Nat) : Prop :=
  OpenAt spans place ∧ ∃ c ∈ members, code[place]? = some c

end Span

namespace Script

theorem named_of_shield {type : TokenType} (known : type ∈ [TokenType.comment, .string]) :
    type.name ≠ "" ∧ type ≠ .text := by
  simp only [List.mem_cons, List.not_mem_nil, or_false] at known
  rcases known with rfl | rfl <;> decide

theorem not_openAt_of_stands {grammar : Grammar} {code : String} {type : TokenType} {text before : List Char}
    {place : Nat} (known : type ∈ [TokenType.comment, .string])
    (stands : Stands ⟨text, some type⟩ before (grammar.claim code.toList))
    (within : Within (before.length, before.length + text.length) place) :
    ¬ Span.OpenAt (Token.spans (grammar.tokenize code)) place := by
  intro opens
  obtain ⟨named, element⟩ := named_of_shield known
  exact opens type known _ ((Grammar.mem_extents_iff named element).2 ⟨before, text, stands, rfl⟩) within

namespace Closes

variable {first grammar : Grammar} (closes : Closes first grammar) {code : String}
include closes

theorem exists_holder {place : Nat} {c : Char} (mark : c ∈ marks)
    (opens : Span.OpenAt (Token.spans (grammar.tokenize code)) place) (found : code.toList[place]? = some c) :
    ∃ before left right type, place = before.length + left.length ∧ type ∉ [.comment, .string] ∧
      Stands ⟨left ++ c :: right, some type⟩ before (grammar.claim code.toList) ∧ Holder left c right (some type) := by
  obtain ⟨front, rest, whole, size⟩ := exists_split_of_getElem? found
  obtain ⟨before, left, right, type?, rfl, stands⟩ := exists_stands ((grammar.source_claim _).trans whole)
  have holder := closes.holder mark stands
  obtain ⟨type, -, rfl⟩ := holder.exists_type
  rw [List.length_append] at size
  refine ⟨before, left, right, type, size.symm, fun known => ?_, stands, holder⟩
  refine not_openAt_of_stands known stands ⟨?_, ?_⟩ opens
  · dsimp only
    omega
  · simp only [List.length_append, List.length_cons]
    omega

theorem mem_of_operator {start left right code : List Char} {c : Char}
    (stands : Stands ⟨left ++ c :: right, some .operator⟩ start (grammar.claim code)) : c ∈ operators := by
  obtain ⟨rule, member, typed, spelled⟩ := Grammar.spells_of_stands stands
  rw [closes.split] at member
  simp only [List.mem_append, List.mem_cons, List.not_mem_nil, or_false] at member
  rcases member with earlier | rfl | rfl
  · exact absurd (List.mem_map.2 ⟨rule, earlier, typed⟩) closes.no_operator
  · exact (holder_of_operator spelled).mem_operators rfl
  · exact absurd typed (by decide)

theorem exists_operator {place : Nat}
    (opens : Span.HasOpen operators code.toList (Token.spans (grammar.tokenize code)) place) :
    ∃ extent ∈ Span.extents .operator (Token.spans (grammar.tokenize code)), Within extent place := by
  obtain ⟨opens, c, operator, found⟩ := opens
  have mark : c ∈ marks := List.mem_append_left _ operator
  obtain ⟨before, left, right, type, rfl, other, stands, holder⟩ := closes.exists_holder mark opens found
  cases holder with
  | shield known => exact absurd known other
  | number point => cases not_mem_points operator (point ▸ by decide)
  | punctuation point => exact absurd point (not_mem_points operator)
  | operator =>
    refine ⟨_, (Grammar.mem_extents_iff (by decide) (by decide)).2 ⟨before, _, stands, rfl⟩, ?_⟩
    simp [Within]

theorem hasOpen_of_operator {extent : Nat × Nat} {place : Nat}
    (member : extent ∈ Span.extents .operator (Token.spans (grammar.tokenize code))) (within : Within extent place) :
    Span.HasOpen operators code.toList (Token.spans (grammar.tokenize code)) place := by
  refine ⟨fun type known other listed around => ?_, ?_⟩
  · obtain ⟨same, -⟩ := Token.extents_unique member listed within around
    rw [← same] at known
    exact absurd known (by decide)
  · obtain ⟨before, text, stands, rfl⟩ := (Grammar.mem_extents_iff (by decide) (by decide)).1 member
    obtain ⟨left, c, right, rfl, found⟩ := Grammar.exists_split_of_stands stands within
    exact ⟨c, closes.mem_of_operator stands, found⟩

theorem not_hasOpen_behind_operator {extent : Nat × Nat}
    (member : extent ∈ Span.extents .operator (Token.spans (grammar.tokenize code))) :
    ¬ Span.HasOpen operators code.toList (Token.spans (grammar.tokenize code)) extent.2 := by
  intro ⟨opens, c, operator, found⟩
  obtain ⟨before, text, stands, rfl⟩ := (Grammar.mem_extents_iff (by decide) (by decide)).1 member
  obtain ⟨after, whole⟩ := Grammar.code_eq_of_stands stands
  obtain ⟨front, rest, split, size⟩ := exists_split_of_getElem? found
  have joined : (before ++ text) ++ after = front ++ c :: rest := by
    rw [← split, whole, List.append_assoc]
  obtain ⟨rfl, rfl⟩ := List.append_inj joined (by rw [size, List.length_append])
  obtain ⟨further, type, known, shield⟩ := closes.shield_behind stands whole operator
  refine not_openAt_of_stands known shield ⟨?_, ?_⟩ opens
  · rw [List.length_append]
  · rw [List.length_append, List.length_cons]
    omega

theorem runs_operators :
    Runs (Span.HasOpen operators code.toList (Token.spans (grammar.tokenize code)))
      (Span.extents .operator (Token.spans (grammar.tokenize code))) where
  covers _ opens := closes.exists_operator opens
  inside _ member _ within := closes.hasOpen_of_operator member within
  some_place extent member := by
    obtain ⟨before, text, stands, rfl⟩ := (Grammar.mem_extents_iff (by decide) (by decide)).1 member
    obtain ⟨rule, -, -, rest, matched⟩ := Grammar.matched_of_stands stands
    have positive := List.length_pos_iff.2 matched.some_text
    dsimp only
    omega
  stops _ member := closes.not_hasOpen_behind_operator member
  apart _ member _ listed _ inFirst inSecond := (Token.extents_unique member listed inFirst inSecond).2

theorem punctuation_or_number {place : Nat} {c : Char} (point : c ∈ points)
    (opens : Span.OpenAt (Token.spans (grammar.tokenize code)) place) (found : code.toList[place]? = some c) :
    (place, place + 1) ∈ Span.extents .punctuation (Token.spans (grammar.tokenize code)) ∨
      c = '.' ∧ ∃ extent ∈ Span.extents .number (Token.spans (grammar.tokenize code)), Within extent place := by
  have mark : c ∈ marks := List.mem_append_right _ point
  obtain ⟨before, left, right, type, rfl, other, stands, holder⟩ := closes.exists_holder mark opens found
  cases holder with
  | shield known => exact absurd known other
  | operator operator => exact absurd point (not_mem_points operator)
  | punctuation _ alone =>
    obtain ⟨rfl, rfl⟩ := alone
    exact .inl ((Grammar.mem_extents_iff (by decide) (by decide)).2 ⟨before, [c], stands, rfl⟩)
  | number dot =>
    have reaches := (Grammar.mem_extents_iff (by decide) (by decide)).2 ⟨before, _, stands, rfl⟩
    refine .inr ⟨dot, _, reaches, ?_⟩
    simp [Within]

theorem punctuation_of_open {place : Nat}
    (opens : Span.HasOpen separators code.toList (Token.spans (grammar.tokenize code)) place) :
    (place, place + 1) ∈ Span.extents .punctuation (Token.spans (grammar.tokenize code)) := by
  obtain ⟨opens, c, member, found⟩ := opens
  have apart : ∀ c ∈ separators, c ∈ points ∧ c ≠ '.' := by simp [separators, points]
  rcases closes.punctuation_or_number (apart c member).1 opens found with alone | ⟨dot, -⟩
  · exact alone
  · exact absurd dot (apart c member).2

theorem point_of_open {place : Nat}
    (opens : Span.HasOpen ['.'] code.toList (Token.spans (grammar.tokenize code)) place) :
    (place, place + 1) ∈ Span.extents .punctuation (Token.spans (grammar.tokenize code)) ∨
      ∃ extent ∈ Span.extents .number (Token.spans (grammar.tokenize code)), Within extent place := by
  obtain ⟨opens, c, member, found⟩ := opens
  obtain rfl := List.mem_singleton.1 member
  exact (closes.punctuation_or_number (by decide) opens found).imp_right And.right

theorem not_mem_marks {token : Token} (member : token ∈ grammar.tokenize code)
    (plain : token.type ∈ [.text, .keyword, .className, .function]) : ∀ c ∈ token.value.toList, c ∉ marks := by
  intro c inside mark
  have some_rule : grammar ≠ [] := by simp [closes.split]
  obtain ⟨before, ⟨text, type?⟩, stands, rfl⟩ := (Grammar.mem_tokenize_iff some_rule).1 member
  have present : c ∈ text := by
    rw [tokenAt, String.toList_ofList] at inside
    exact inside
  obtain ⟨left, right, rfl⟩ := List.append_of_mem present
  obtain ⟨type, known, rfl⟩ := (closes.holder mark stands).exists_type
  have other : ∀ type ∈ [TokenType.comment, .string, .number, .operator, .punctuation],
      (if type.name = "" then .text else type) ∉ [TokenType.text, .keyword, .className, .function] := by decide
  exact other type known plain

end Closes

/-! ## JavaScript and TypeScript -/

theorem closes_js : Closes (Language.js.grammar.take 5) Language.js.grammar where
  split := rfl
  spared := List.all_eq_true.1 (by decide +kernel)
  no_operator := by decide
  no_punctuation := by decide

theorem closes_ts : Closes (Language.ts.grammar.take 6) Language.ts.grammar where
  split := rfl
  spared := List.all_eq_true.1 (by decide +kernel)
  no_operator := by decide
  no_punctuation := by decide

theorem openAt_iff (code : String) (place : Nat) :
    Span.OpenAt (Token.spans (Language.js.grammar.tokenize code)) place ↔
      Span.OpenAt (Token.spans (Language.ts.grammar.tokenize code)) place := by
  have shared {others : Grammar} (fresh : ∀ type ∈ [TokenType.comment, .string], type ∉ others.map Rule.type)
      {type : TokenType} (known : type ∈ [TokenType.comment, .string]) :
      Span.extents type (Token.spans ((Language.scriptRules ++ others).tokenize code)) =
        extentsFrom type 0 (Language.scriptRules.claim code.toList) := by
    obtain ⟨named, element⟩ := named_of_shield known
    rw [Grammar.extents_tokenize named element]
    exact (Grammar.refines_claim_append Language.scriptRules others code.toList).extents_eq (fresh type known) 0
  have js : Language.js.grammar = Language.scriptRules ++ Language.js.grammar.drop 2 := rfl
  have ts : Language.ts.grammar = Language.scriptRules ++ Language.ts.grammar.drop 2 := rfl
  refine forall₂_congr fun type known => ?_
  rw [js, ts, shared (by decide) known, shared (by decide) known]

theorem hasOpen_iff (members : List Char) (code : String) (place : Nat) :
    Span.HasOpen members code.toList (Token.spans (Language.js.grammar.tokenize code)) place ↔
      Span.HasOpen members code.toList (Token.spans (Language.ts.grammar.tokenize code)) place :=
  and_congr_left' (openAt_iff code place)

theorem extents_operator_iff (code : String) (extent : Nat × Nat) :
    extent ∈ Span.extents .operator (Token.spans (Language.js.grammar.tokenize code)) ↔
      extent ∈ Span.extents .operator (Token.spans (Language.ts.grammar.tokenize code)) := by
  have same : Span.HasOpen operators code.toList (Token.spans (Language.js.grammar.tokenize code)) =
      Span.HasOpen operators code.toList (Token.spans (Language.ts.grammar.tokenize code)) :=
    funext fun place => propext (hasOpen_iff operators code place)
  rw [closes_js.runs_operators.mem_iff, closes_ts.runs_operators.mem_iff, same]

end Script

/-- The operator tokens of a script are the maximal runs of operator characters outside of comments and strings. Each
bracket, semicolon and comma there is a token by itself, and so is each point that is not in a number. No other token
but comments and strings has such a character in it, and the operators are the same in both languages. -/
theorem operators_and_punctuation (code : String) :
    (∀ language ∈ [Language.js, .ts],
      let tokens := tokenize (some language.name) code
      let spans := Token.spans tokens
      (∀ extent, extent ∈ Span.extents .operator spans ↔
          MaximalRun (Span.HasOpen Script.operators code.toList spans) extent) ∧
        (∀ place, Span.HasOpen Script.separators code.toList spans place →
          (place, place + 1) ∈ Span.extents .punctuation spans) ∧
        (∀ place, Span.HasOpen ['.'] code.toList spans place →
          (place, place + 1) ∈ Span.extents .punctuation spans ∨
            ∃ extent ∈ Span.extents .number spans, Within extent place) ∧
        ∀ token ∈ tokens, token.type ∈ [.text, .keyword, .className, .function] →
          ∀ c ∈ token.value.toList, c ∉ Script.operators ++ (Script.separators ++ ['.'])) ∧
      (tokenize (some Language.js.name) code).filter (·.type = .operator) =
        (tokenize (some Language.ts.name) code).filter (·.type = .operator) := by
  constructor
  · intro language script
    have closes : ∃ first, Script.Closes first language.grammar := by
      simp only [List.mem_cons, List.not_mem_nil, or_false] at script
      rcases script with rfl | rfl
      · exact ⟨_, Script.closes_js⟩
      · exact ⟨_, Script.closes_ts⟩
    obtain ⟨first, closes⟩ := closes
    rw [tokenize_name]
    exact ⟨fun extent => closes.runs_operators.mem_iff, fun place => closes.punctuation_of_open,
      fun place => closes.point_of_open, fun token member plain => closes.not_mem_marks member plain⟩
  · rw [tokenize_name, tokenize_name]
    exact Grammar.tokens_eq_of_extents (List.cons_ne_nil _ _) (List.cons_ne_nil _ _) (by decide) (by decide)
      (Script.extents_operator_iff code)

/-- Two equals signs with a comment between them are two operators. -/
theorem operators_and_punctuation_around_comment :
    let code := "x=/*=*/=1.5+y.z;"
    let spans := Token.spans (tokenize (some Language.ts.name) code)
    Span.extents .operator spans = [(1, 2), (7, 8), (11, 12)] ∧
      MaximalRun (Span.HasOpen Script.operators code.toList spans) (7, 8) ∧
      (tokenize (some Language.js.name) code).filter (·.type = .operator) =
        (tokenize (some Language.ts.name) code).filter (·.type = .operator) := by
  intro code spans
  obtain ⟨each, same⟩ := operators_and_punctuation code
  have extents : Span.extents .operator spans = [(1, 2), (7, 8), (11, 12)] := by decide +kernel
  have member : (7, 8) ∈ Span.extents .operator spans := by
    rw [extents]
    decide
  exact ⟨extents, ((each .ts (by decide)).1 (7, 8)).1 member, same⟩

end CodeColor
