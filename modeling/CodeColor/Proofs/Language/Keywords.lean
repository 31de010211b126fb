import CodeColor.Proofs.Claim.Clearance
import CodeColor.Proofs.Json.Plain
import CodeColor.Proofs.Language.Comments

/-!
Keywords are the words of a list that no word character touches and that no earlier token reaches into. The rule
for them takes the start of an earlier token for the end of the text; that does no harm, because no earlier token
starts with a word character right behind another one.

Main statement: `keywords_are_free_words`. It rests on `Grammar.word_stands_iff`, for any grammar with a rule for
words.
-/

namespace CodeColor

open Piece Pattern

/-! ## A rule for words -/

namespace Rule

variable {name : String} {words : List String} {type : TokenType}

theorem matches_word_iff (plain : ∀ word ∈ words, Word word) {before text rest : List Char} :
    Rule.Matches ⟨name, wholeWord words, type⟩ before text rest ↔
      (∃ word ∈ words, word.toList = text) ∧ startsIn CharSet.word before = false ∧
        startsIn CharSet.word rest = false := by
  constructor
  · intro matched
    obtain ⟨word, known, more, same, size, free, stops⟩ := word_of_match plain matched.length
    obtain ⟨rfl, rfl⟩ := List.append_inj same size
    exact ⟨⟨word, known, rfl⟩, free, stops⟩
  · intro ⟨spelled, free, stops⟩
    obtain ⟨word, known, rfl⟩ := spelled
    exact ⟨(plain word known).1, wholeWord_match plain known free stops⟩

theorem apart_of_words (plain : ∀ word ∈ words, Word word) : Rule.Apart ⟨name, wholeWord words, type⟩ := by
  intro before c text rest matched passed d later split
  obtain ⟨⟨word, known, spelled⟩, -, -⟩ := (matches_word_iff plain).1 matched
  have letters : ∀ e ∈ c :: passed, CharSet.word e = true := by
    intro e member
    apply (plain word known).2 e
    rw [spelled, split, ← List.cons_append]
    exact List.mem_append_left _ member
  have edge := startsIn_reverse_append (List.cons_ne_nil c passed) letters before
  rw [List.reverse_cons, List.append_assoc] at edge
  cases found : (wholeWord words).matchLength? (passed.reverse ++ c :: before) (d :: later ++ rest) with
  | none => rfl
  | some length =>
    obtain ⟨-, -, -, -, -, free, -⟩ := word_of_match plain found
    exact absurd (free.symm.trans edge) Bool.false_ne_true

end Rule

/-! ## The rules before it -/

/-- Behind a word character, no match starts with one. -/
def Pattern.Shy (pattern : Pattern) : Prop :=
  ∀ (next : Cursor → Option Cursor) (cursor : Cursor), startsIn CharSet.word cursor.before = true →
    startsIn CharSet.word cursor.after = true → pattern.run next cursor = none

namespace Pattern.Shy

variable {first second : Pattern}

theorem matchLength?_eq_none (shy : first.Shy) {before after : List Char}
    (behind : startsIn CharSet.word before = true) (ahead : startsIn CharSet.word after = true) :
    first.matchLength? before after = none := by
  rw [matchLength?, shy _ _ behind ahead]
  rfl

theorem of_opensAt {members : List Char} (opens : first.OpensAt (.among members))
    (apart : (members.all fun c => !CharSet.word c) = true) : first.Shy := by
  have wider : first.OpensAt (fun c => !CharSet.word c) :=
    opens.mono fun c member => List.all_eq_true.1 apart c (List.contains_iff_mem.1 member)
  intro next cursor _ ahead
  apply wider next cursor
  cases text : cursor.after with
  | nil => rfl
  | cons c after =>
    rw [text] at ahead
    have word : CharSet.word c = true := ahead
    simp [startsIn, word]

theorem boundary : Pattern.boundary.Shy :=
  fun _ _ behind ahead => run_boundary_absent (behind.trans ahead.symm)

theorem append (shy : first.Shy) (second : Pattern) : (first ++ second).Shy :=
  fun _ cursor behind ahead => (run_append first second cursor).trans (shy _ cursor behind ahead)

theorem or (left : first.Shy) (right : second.Shy) : (first ||| second).Shy := by
  intro next cursor behind ahead
  rw [run_or, left next cursor behind ahead, right next cursor behind ahead]
  rfl

theorem optional (left : first.Shy) (right : second.Shy) : (Pattern.optional first ++ second).Shy := by
  intro next cursor behind ahead
  rw [run_optional, left _ cursor behind ahead, right next cursor behind ahead]
  rfl

end Pattern.Shy

namespace Grammar

variable {first others : Grammar} {code start text rest : List Char} {type : TokenType}

theorem not_word_of_stands (shy : ∀ rule ∈ first, rule.pattern.Shy)
    (stands : Stands ⟨text, some type⟩ start (first.claim code))
    (word : startsIn CharSet.word start.reverse = true) : startsIn CharSet.word text = false := by
  obtain ⟨rule, member, -, rest, matched⟩ := matched_of_stands stands
  apply Bool.eq_false_iff.2
  intro starts
  have ahead := startsIn_append_left starts rest
  have absent := (shy rule member).matchLength?_eq_none word ahead
  rw [matched.length] at absent
  cases absent

theorem startsIn_behind (shy : ∀ rule ∈ first, rule.pattern.Shy) (last : startsIn CharSet.word text.reverse = true)
    {after : List Char} (whole : code = start ++ (text ++ after)) (free : LiesFree text rest start (first.claim code)) :
    startsIn CharSet.word rest = startsIn CharSet.word after := by
  have some_text : text ≠ [] := by
    rintro rfl
    cases last
  have tidy : Tidy (first.claim code) := first.tidy_claim (by simp [whole, some_text])
  have edge := startsIn_append_left last start.reverse
  rw [← List.reverse_append] at edge
  exact free.startsIn_eq tidy ((first.source_claim code).trans whole) fun next type stands =>
    not_word_of_stands shy stands edge

theorem word_stands_iff {name : String} {words : List String} (plain : ∀ word ∈ words, Word word)
    (shy : ∀ rule ∈ first, rule.pattern.Shy) (fresh : type ∉ first.map Rule.type)
    (last : type ∉ others.map Rule.type) :
    Stands ⟨text, some type⟩ start ((first ++ ⟨name, wholeWord words, type⟩ :: others).claim code) ↔
      (∃ word ∈ words, word.toList = text) ∧ ∃ after, code = start ++ (text ++ after) ∧
        startsIn CharSet.word start.reverse = false ∧ startsIn CharSet.word after = false ∧
        Clear text start (first.claim code) := by
  rw [stands_middle_iff (Rule.apart_of_words plain) fresh last]
  constructor
  · intro ⟨rest, free, matched⟩
    obtain ⟨⟨word, known, rfl⟩, opens, closes⟩ := (Rule.matches_word_iff plain).1 matched
    obtain ⟨outer, left, rfl, stands⟩ := free
    obtain ⟨later, whole⟩ := code_eq_of_stands stands
    have split : code = (outer ++ left) ++ (word.toList ++ (rest ++ later)) := by simpa using whole
    have behind := startsIn_behind shy (plain word known).startsIn_reverse split ⟨outer, left, rfl, stands⟩
    exact ⟨⟨word, known, rfl⟩, rest ++ later, split, opens, behind.symm.trans closes,
      LiesFree.clear ⟨outer, left, rfl, stands⟩⟩
  · intro ⟨spelled, after, whole, opens, closes, clear⟩
    obtain ⟨word, known, rfl⟩ := spelled
    have letters := plain word known
    have tidy : Tidy (first.claim code) := first.tidy_claim (by simp [whole, letters.1])
    obtain ⟨rest, free⟩ := tidy.liesFree_of_clear letters.1 ((first.source_claim code).trans whole) clear
    have behind := startsIn_behind shy letters.startsIn_reverse whole free
    exact ⟨rest, free, (Rule.matches_word_iff plain).2 ⟨⟨word, known, rfl⟩, opens, behind.trans closes⟩⟩

end Grammar

/-! ## Languages -/

namespace Language

def keywords : Language → List String
  | js => JavaScript.keywords
  | ts => TypeScript.keywords
  | json => CodeColor.Json.keywords
  | html => []
  | css => []

/-- The types whose tokens are taken before keywords are. -/
def shields : Language → List TokenType
  | js => [.comment, .string]
  | ts => [.comment, .string]
  | json => [.property, .string, .number]
  | html => []
  | css => []

def keywordRule (language : Language) : Rule := ⟨"keyword", wholeWord language.keywords, .keyword⟩

/-- The stretch from `start` to `stop` spells a keyword of the language, no word character touches it, and no token
of the types that come first reaches into it. -/
def IsFreeWord (language : Language) (code : List Char) (spans : List Span) (start stop : Nat) : Prop :=
  ∃ before after, ∃ word ∈ language.keywords,
    code = before ++ (word.toList ++ after) ∧ start = before.length ∧ stop = start + word.toList.length ∧
      startsIn CharSet.word before.reverse = false ∧ startsIn CharSet.word after = false ∧
      ∀ type ∈ language.shields, ∀ extent ∈ Span.extents type spans, extent.2 ≤ start ∨ stop ≤ extent.1

theorem keywords_plain (language : Language) : ∀ word ∈ language.keywords, Word word := by
  cases language <;> decide +kernel

theorem shields_named (language : Language) : ∀ type ∈ language.shields, type.name ≠ "" ∧ type ≠ .text := by
  cases language <;> decide

theorem extents_spans (language : Language) (code : String) {type : TokenType} (named : type.name ≠ "")
    (element : type ≠ .text) :
    Span.extents type (Token.spans (tokenize (some language.name) code)) =
      extentsFrom type 0 (language.grammar.claim code.toList) := by
  rw [tokenize_name, Grammar.extents_tokenize named element]

theorem mem_keywords_iff {language : Language} {first others : Grammar}
    (split : language.grammar = first ++ language.keywordRule :: others)
    (types : first.map Rule.type = language.shields) (shy : ∀ rule ∈ first, rule.pattern.Shy)
    (apart : ∀ type ∈ first.map Rule.type, type ∉ (language.keywordRule :: others).map Rule.type)
    (last : .keyword ∉ others.map Rule.type) (code : String) (start stop : Nat) :
    let spans := Token.spans (tokenize (some language.name) code)
    (start, stop) ∈ Span.extents .keyword spans ↔ language.IsFreeWord code.toList spans start stop := by
  intro spans
  have extents : ∀ type ∈ language.shields, Span.extents type spans =
      extentsFrom type 0 ((first ++ language.keywordRule :: others).claim code.toList) := by
    intro type listed
    obtain ⟨named, element⟩ := language.shields_named type listed
    rw [language.extents_spans code named element, split]
  have fresh : TokenType.keyword ∉ first.map Rule.type :=
    fun member => apart .keyword member List.mem_cons_self
  rw [language.extents_spans code (by decide) (by decide), split, mem_extentsFrom]
  constructor
  · intro ⟨before, text, stands, same⟩
    obtain ⟨⟨word, known, rfl⟩, after, whole, opens, closes, clear⟩ :=
      (Grammar.word_stands_iff language.keywords_plain shy fresh last).1 stands
    cases same
    refine ⟨before, after, word, known, whole, rfl, rfl, opens, closes, ?_⟩
    intro type listed extent member
    rw [extents type listed] at member
    exact (Grammar.clear_iff apart).1 clear type (types ▸ listed) extent member
  · intro ⟨before, after, word, known, whole, first_place, last_place, opens, closes, outside⟩
    have clear : Clear word.toList before (first.claim code.toList) := by
      apply (Grammar.clear_iff apart).2
      intro type listed extent member
      rw [types] at listed
      rw [← extents type listed] at member
      have apart := outside type listed extent member
      omega
    refine ⟨before, word.toList, ?_, by rw [last_place, first_place]⟩
    exact (Grammar.word_stands_iff language.keywords_plain shy fresh last).2
      ⟨⟨word, known, rfl⟩, after, whole, opens, closes, clear⟩

theorem no_keywords {language : Language} (none : language.keywords = [])
    (other : .keyword ∉ language.grammar.map Rule.type) (code : String) (start stop : Nat) :
    let spans := Token.spans (tokenize (some language.name) code)
    (start, stop) ∈ Span.extents .keyword spans ↔ language.IsFreeWord code.toList spans start stop := by
  intro spans
  rw [language.extents_spans code (by decide) (by decide), Grammar.extents_of_not_mem other]
  constructor
  · intro member
    cases member
  · intro ⟨_, _, word, known, _⟩
    rw [none] at known
    cases known

/-! ## The rules of each language -/

theorem shy_quoted (quote : Char) (other : CharSet.word quote = false) :
    (Lexeme.escapedString quote).Shy :=
  .of_opensAt (escapedString_opensAt quote) (by simp [other])

def scriptRules : Grammar :=
  [⟨"comment", JavaScript.comment, .comment⟩, ⟨"string", JavaScript.string, .string⟩]

theorem shy_scriptRules : ∀ rule ∈ scriptRules, rule.pattern.Shy := by
  have line : (exactly "//" ++ many .inLine).OpensAt (.among ['/']) := (OpensAt.literal rfl ['/']).append _
  have block : (Lexeme.enclosedComment "/*" "*/").OpensAt (.among ['/']) :=
    ((OpensAt.literal rfl ['*']).append _).append _
  have comment : JavaScript.comment.Shy := .of_opensAt (line.or block) (by decide)
  have string : JavaScript.string.Shy :=
    ((shy_quoted '"' (by decide)).or (shy_quoted '\x27' (by decide))).or (shy_quoted '\x60' (by decide))
  simp only [scriptRules, List.forall_mem_cons, List.not_mem_nil, false_imp_iff, implies_true, and_true]
  exact ⟨comment, string⟩

def jsonRules : Grammar :=
  [⟨"key", Json.key, .property⟩, CodeColor.Json.stringRule, CodeColor.Json.numberRule]

theorem shy_jsonRules : ∀ rule ∈ jsonRules, rule.pattern.Shy := by
  have quote : (exactly "\"").OpensAt (.among ['"']) := .literal rfl []
  have key : Json.key.Shy := .of_opensAt (((quote.append _).append _).append _) (by decide)
  have sign : (exactly "-").Shy := .of_opensAt (.literal rfl [] : (exactly "-").OpensAt (.among ['-'])) (by decide)
  have number : Lexeme.number.Shy := ((Shy.boundary.append _).append _).append _
  simp only [jsonRules, List.forall_mem_cons, List.not_mem_nil, false_imp_iff, implies_true, and_true]
  exact ⟨key, shy_quoted '"' (by decide), sign.optional number⟩

theorem js_split : js.grammar = scriptRules ++ js.keywordRule :: js.grammar.drop 3 := rfl

theorem ts_split : ts.grammar = scriptRules ++ ts.keywordRule :: ts.grammar.drop 3 := rfl

theorem json_split : json.grammar = jsonRules ++ json.keywordRule :: json.grammar.drop 4 := rfl

end Language

/-- The keyword tokens of a source are the keywords of the language that stand free in it: no word character touches
them, and no comment or string reaches into them; in JSON no name, string or number does. HTML and CSS have none. -/
theorem keywords_are_free_words (language : Language) (code : String) (start stop : Nat) :
    let spans := Token.spans (tokenize (some language.name) code)
    (start, stop) ∈ Span.extents .keyword spans ↔ language.IsFreeWord code.toList spans start stop := by
  cases language with
  | html => exact Language.no_keywords rfl (by decide) code start stop
  | css => exact Language.no_keywords rfl (by decide) code start stop
  | js =>
    exact Language.mem_keywords_iff Language.js_split rfl Language.shy_scriptRules (by decide) (by decide)
      code start stop
  | ts =>
    exact Language.mem_keywords_iff Language.ts_split rfl Language.shy_scriptRules (by decide) (by decide)
      code start stop
  | json =>
    exact Language.mem_keywords_iff Language.json_split rfl Language.shy_jsonRules (by decide) (by decide)
      code start stop

/-- A number may follow right on a keyword where it starts with its sign, and not where it starts with a digit. -/
theorem keywords_are_free_words_before_numbers :
    let code := "[true-1, true1]"
    let spans := Token.spans (tokenize (some Language.json.name) code)
    (1, 5) ∈ Span.extents .keyword spans ∧ Language.json.IsFreeWord code.toList spans 1 5 ∧
      (9, 13) ∉ Span.extents .keyword spans ∧ ¬ Language.json.IsFreeWord code.toList spans 9 13 := by
  intro code spans
  have first : (1, 5) ∈ Span.extents .keyword spans := by decide +kernel
  have second : (9, 13) ∉ Span.extents .keyword spans := by decide +kernel
  refine ⟨first, (keywords_are_free_words .json code 1 5).1 first, second, ?_⟩
  intro free
  exact second ((keywords_are_free_words .json code 9 13).2 free)

end CodeColor
