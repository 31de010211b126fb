import CodeColor.Proofs.Claim.Extent
import CodeColor.Proofs.Json.Strings
import CodeColor.Proofs.Token.Lexemes

/-!
JSON texts whose strings hold nothing that the grammar could mistake: the tokens are the lexemes.

Main statement: `tokenize_plain`.
-/

namespace CodeColor.Json

open Piece Pattern

def Bare (content : List Char) : Prop :=
  ∀ c ∈ content, c ≠ '"' ∧ c ≠ '\\' ∧ c ≠ ':'

instance (content : List Char) : Decidable (Bare content) :=
  List.decidableBAll (fun c => c ≠ '"' ∧ c ≠ '\\' ∧ c ≠ ':') content

/-- Strings are bare, numbers have no exponent, and the words are those of the standard. -/
def Lexeme.Plain : Lexeme → Prop
  | mark _ => True
  | name content => Bare content
  | string content => Bare content
  | number text => ∃ numeral : Numeral, text = numeral.text ∧ numeral.Formed ∧ numeral.exponent = []
  | word text => text ∈ ["true".toList, "false".toList, "null".toList]

namespace Bare

variable {content : List Char} (bare : Bare content)
include bare

theorem not_mem : '"' ∉ content := fun member => (bare '"' member).1 rfl

theorem body : Body '"' content := by
  have whole := body_append (fun c member => ⟨(bare c member).1, (bare c member).2.1⟩) Body.nil
  rwa [List.append_nil] at whole

theorem colonAhead_eq_false : colonAhead content = false := by
  have behind : ∀ c ∈ content.dropWhile CharSet.blank, c ≠ ':' :=
    fun c member => (bare c ((List.dropWhile_sublist _).subset member)).2.2
  rw [colonAhead]
  cases rest : content.dropWhile CharSet.blank with
  | nil => rfl
  | cons c more => exact beq_eq_false_iff_ne.2 (behind c (by simp [rest]))

end Bare

theorem Lexeme.Plain.sound {lexeme : Lexeme} (plain : lexeme.Plain) : lexeme.Sound := by
  cases lexeme with
  | mark => trivial
  | name | string => exact Bare.body plain
  | number =>
    obtain ⟨numeral, rfl, formed, -⟩ := plain
    exact formed.quote_not_mem
  | word =>
    simp only [Lexeme.Plain, List.mem_cons, List.not_mem_nil, or_false] at plain
    rcases plain with rfl | rfl | rfl <;> simp [Lexeme.Sound]

theorem quiet_of_not_mem {content : List Char} (plain : '"' ∉ content) : Quiet content := by
  induction content with
  | nil => trivial
  | cons c content ih =>
    simp only [List.mem_cons, not_or] at plain
    exact ⟨fun same => absurd same.symm plain.1, ih plain.2⟩

theorem calm_of_plain {lexemes : List Lexeme} (plain : ∀ lexeme ∈ lexemes, lexeme.Plain) (pending : Bool) :
    Calm pending lexemes := by
  induction lexemes generalizing pending with
  | nil => trivial
  | cons lexeme lexemes ih =>
    have here := plain lexeme List.mem_cons_self
    have onward := ih fun other member => plain other (List.mem_cons_of_mem lexeme member)
    cases lexeme with
    | name content => exact ⟨Bare.not_mem here, fun _ => Bare.colonAhead_eq_false here, onward _⟩
    | string content =>
      exact ⟨quiet_of_not_mem (Bare.not_mem here), fun _ => Bare.colonAhead_eq_false here, onward true⟩
    | mark | number | word => exact onward pending

/-! ## Numbers -/

variable {trailing : List Char} {parts : List Spaced}

def numberRule : Rule :=
  ⟨"number", optional (exactly "-") ++ Language.Lexeme.number, .number⟩

def numberStart : CharSet := CharSet.digit.or (· == '-')

theorem number_opensAt : (optional (exactly "-") ++ Language.Lexeme.number).OpensAt numberStart := by
  have digit : (one .digit).OpensAt numberStart :=
    OpensAt.one.mono fun c inside => Bool.or_eq_true_iff.2 (.inl inside)
  have number := OpensAt.guard .wordBoundary (digit.append (many .digit))
  exact (OpensAt.literal (by decide) []).optional ((number.append _).append _)

theorem digit_of_isDecimal {c : Char} (decimal : isDecimal c = true) :
    CharSet.digit c = true ∧ CharSet.word c = true := by
  simp only [isDecimal, Bool.and_eq_true, decide_eq_true_eq, Char.le_def, UInt32.le_iff_toNat_le] at decimal
  have low : ¬ c.toNat < 0x30 := Nat.not_lt.2 decimal.1
  have high : c.toNat ≤ 0x39 := decimal.2
  constructor
  · change Text.Ranges.holds ((0x30, 0x39) :: _) c.toNat = true
    rw [Text.Ranges.holds, if_neg low, if_pos high]
  · change Text.Ranges.holds ((0x30, 0x39) :: _) c.toNat = true
    rw [Text.Ranges.holds, if_neg low, if_pos high]

theorem Digits.numerals {digits : List Char} (spelled : Digits digits) : Numerals digits :=
  ⟨spelled.1, fun c member => (digit_of_isDecimal (spelled.2 c member)).1,
    fun c member => (digit_of_isDecimal (spelled.2 c member)).2⟩

theorem Fraction.numerals {fraction : List Char} (spelled : Fraction fraction) :
    fraction = [] ∨ ∃ digits, fraction = '.' :: digits ∧ Numerals digits := by
  refine spelled.imp_right ?_
  rintro ⟨digits, split, decimal⟩
  exact ⟨digits, split, decimal.numerals⟩

theorem number_match {numeral : Numeral} (formed : numeral.Formed) (simple : numeral.exponent = [])
    {before rest : List Char} (free : startsIn CharSet.word before = false)
    (stops : startsIn touching rest = false) :
    numberRule.pattern.matchLength? before (numeral.text ++ rest) = some numeral.text.length := by
  obtain ⟨negative, whole, fraction, exponent⟩ := numeral
  obtain rfl : exponent = [] := simple
  have numerals : Numerals whole := formed.whole.digits.numerals
  have positive := List.length_pos_iff.2 numerals.some_text
  have digits : ∀ (before : List Char) (taken : Nat), startsIn CharSet.word before = false →
      Language.Lexeme.number.run accept ⟨before, whole ++ (fraction ++ rest), taken⟩ =
        some ⟨(whole ++ fraction).reverse ++ before, rest, taken + (whole ++ fraction).length⟩ := by
    intro before taken free
    have size : taken + (whole ++ fraction).length ≠ 0 := by
      rw [List.length_append]
      omega
    exact run_number free numerals formed.fraction.numerals stops (accept_eq_some size)
  change (optional (exactly "-") ++ Language.Lexeme.number).matchLength? before _ = _
  rw [matchLength?_eq_run, run_optional]
  cases negative with
  | true =>
    have minus : CharSet.word '-' = false := by decide
    have signed : (literal ['-']).run (fun stop => Language.Lexeme.number.run accept stop)
        ⟨before, ['-'] ++ (whole ++ (fraction ++ rest)), 0⟩ =
        some ⟨(whole ++ fraction).reverse ++ '-' :: before, rest, 1 + (whole ++ fraction).length⟩ :=
      (run_literal ['-'] before (whole ++ (fraction ++ rest)) 0).trans (digits ('-' :: before) 1 minus)
    have split : Numeral.text ⟨true, whole, fraction, []⟩ ++ rest = ['-'] ++ (whole ++ (fraction ++ rest)) := by
      simp [Numeral.text]
    rw [split]
    change (((literal ['-']).run _ _).or _).map Cursor.taken = _
    rw [signed]
    simp [Numeral.text, Nat.add_comm]
  | false =>
    have split : Numeral.text ⟨false, whole, fraction, []⟩ ++ rest = whole ++ (fraction ++ rest) := by
      simp [Numeral.text]
    have absent : ¬ "-".toList <+: whole ++ (fraction ++ rest) := by
      rintro ⟨behind, same⟩
      obtain ⟨c, more, rfl⟩ := List.exists_cons_of_ne_nil numerals.some_text
      have first := numerals.digit c List.mem_cons_self
      rw [← (List.cons.inj same).1] at first
      exact absurd first (by decide)
    rw [split, exactly, run_literal_absent absent, Option.none_or, digits before 0 free]
    simp [Numeral.text]

/-! ## The rules behind those for literals -/

theorem off_of_all {set : CharSet} {text : List Char} (others : (text.all fun c => !set c) = true) :
    ∀ c ∈ text, set c = false :=
  fun c member => (Bool.not_eq_true' _).mp (List.all_eq_true.1 others c member)

theorem off_of_isSpace {set : CharSet} (others : ([' ', '\t', '\n', '\r'].all fun c => !set c) = true)
    (c : Char) (space : isSpace c = true) : set c = false := by
  simp only [isSpace, Bool.or_eq_true, decide_eq_true_eq, or_assoc] at space
  exact off_of_all others c (by simpa using space)

def keywords : List String := ["true", "false", "null"]

def keywordRule : Rule := ⟨"keyword", wholeWord keywords, .keyword⟩

def markRule : Rule := ⟨"punctuation", one Language.Json.punctuationCharacter, .punctuation⟩

def keywordStart : CharSet := .among ['t', 'f', 'n']

theorem keyword_opensAt : (wholeWord keywords).OpensAt keywordStart := by
  have word : ∀ {c : Char} (text : List Char), keywordStart c = true →
      (literal (c :: text)).OpensAt keywordStart := fun text inside => .literal inside text
  have words : (anyWord keywords).OpensAt keywordStart :=
    (word "rue".toList rfl).or ((word "alse".toList rfl).or (word "ull".toList rfl))
  exact (OpensAt.guard .wordBoundary words).append _

theorem keywords_plain : ∀ word ∈ keywords, Word word := by decide +kernel

section

variable (laid : Laid trailing parts) (plain : ∀ part ∈ parts, part.lexeme.Plain)
include laid

theorem Laid.off_mark {set : CharSet} (others : (markCharacters.all fun c => !set c) = true)
    {part : Spaced} (member : part ∈ parts) {c : Char} (mark : part.lexeme = .mark c) :
    ∀ d ∈ part.lexeme.text, set d = false := by
  have known := laid.known c (mark ▸ List.mem_map_of_mem member)
  rw [mark]
  intro d inside
  rw [List.mem_singleton.1 inside]
  exact off_of_all others c known

theorem carves_marks : markRule.Carves [.keyword, .number, .string, .property] [] (row trailing parts) := by
  refine carves_row OpensAt.one (by decide) (off_of_isSpace (by decide)) laid ?_ ?_ (.inr rfl)
  · exact fun part _ other => absurd part.lexeme.type_mem other
  · intro part member own before rest _
    rcases cases_of_type own (by decide) with ⟨-, c, lexeme⟩ | ⟨type, -⟩ | ⟨type, -⟩
    · have known := laid.known c (lexeme ▸ List.mem_map_of_mem member)
      have inside : Language.Json.punctuationCharacter c = true := List.contains_iff_mem.2 known
      rw [lexeme]
      have here : (one Language.Json.punctuationCharacter).run accept ⟨before, c :: rest, 0⟩ =
          some ⟨c :: before, rest, 1⟩ := run_one inside before rest 0
      exact congrArg (Option.map Cursor.taken) here
    · exact absurd type (by decide)
    · exact absurd type (by decide)

include plain

theorem carves_numbers : numberRule.Carves [.string, .property] [] (row trailing parts) := by
  refine carves_row number_opensAt (by decide) (off_of_isSpace (by decide +kernel)) laid ?_ ?_ (.inr rfl)
  · intro part member other
    have here := plain part member
    rcases cases_of_type rfl fun found => other (List.mem_cons_of_mem _ found) with
      ⟨-, c, mark⟩ | ⟨type, -⟩ | ⟨-, text, lexeme⟩
    · exact laid.off_mark (by decide +kernel) member mark
    · exact absurd (type ▸ List.mem_cons_self) other
    · rw [lexeme] at here ⊢
      have words : (["true".toList, "false".toList, "null".toList].all fun word =>
          word.all fun c => !numberStart c) = true := by decide +kernel
      exact off_of_all (List.all_eq_true.1 words text here)
  · intro part member own before rest free
    have here := plain part member
    rcases cases_of_type own (by decide) with ⟨type, -⟩ | ⟨-, text, lexeme⟩ | ⟨type, -⟩
    · exact absurd type (by decide)
    · rw [lexeme] at here free ⊢
      obtain ⟨numeral, rfl, formed, simple⟩ := here
      exact number_match formed simple (free rfl).1 (free rfl).2
    · exact absurd type (by decide)

theorem carves_keywords : keywordRule.Carves [.number, .string, .property] [] (row trailing parts) := by
  refine carves_row keyword_opensAt (by decide) (off_of_isSpace (by decide)) laid ?_ ?_ (.inr rfl)
  · intro part member other
    have literal : part.lexeme.type ∉ [TokenType.string, .property] :=
      fun found => other (List.mem_cons_of_mem _ (List.mem_cons_of_mem _ found))
    rcases cases_of_type rfl literal with ⟨-, c, mark⟩ | ⟨type, -⟩ | ⟨type, -⟩
    · exact laid.off_mark (by decide) member mark
    · exact absurd (by simp [type]) other
    · exact absurd (by simp [type, keywordRule]) other
  · intro part member own before rest free
    have here := plain part member
    rcases cases_of_type own (by decide) with ⟨type, -⟩ | ⟨type, -⟩ | ⟨-, text, lexeme⟩
    · exact absurd type (by decide)
    · exact absurd type (by decide)
    · rw [lexeme] at here free ⊢
      obtain ⟨word, known, rfl⟩ : ∃ word ∈ keywords, word.toList = text := List.mem_map.1 here
      exact wholeWord_match keywords_plain known (free rfl).1 (of_touching (free rfl).2).1

end

/-! ## The tokens -/

def spaceTokens (space : List Char) : List (TokenType × String) :=
  if space.isEmpty then [] else [(.text, String.ofList space)]

def Document.tokens (document : Document) : List (TokenType × String) :=
  (document.parts.flatMap fun part =>
      spaceTokens part.space ++ [(part.lexeme.type, String.ofList part.lexeme.text)]) ++
    spaceTokens document.trailing

theorem map_free {space : List Char} :
    (free space []).map (fun piece => (piece.tokenType, String.ofList piece.text)) = spaceTokens space := by
  cases space <;> rfl

theorem map_hide_row {seen : List TokenType} (typed : ∀ part ∈ parts, part.lexeme.type ∈ seen) :
    (hide seen [] (row trailing parts)).map (fun piece => (piece.tokenType, String.ofList piece.text)) =
      (parts.flatMap fun part =>
        spaceTokens part.space ++ [(part.lexeme.type, String.ofList part.lexeme.text)]) ++
      spaceTokens trailing := by
  induction parts with
  | nil => exact map_free
  | cons part parts ih =>
    have found : isSeen seen ⟨part.lexeme.text, some part.lexeme.type⟩ = true := by
      simpa [isSeen] using typed part List.mem_cons_self
    have onward := ih fun other member => typed other (List.mem_cons_of_mem part member)
    have named : (⟨part.lexeme.text, some part.lexeme.type⟩ : Piece).tokenType = part.lexeme.type :=
      if_neg part.lexeme.type_named.1
    rw [row, hide, if_neg (by simp [isSeen]), hide, if_pos found, List.map_append, List.map_cons, onward,
      List.nil_append, map_free, named]
    simp

theorem Derives.some_lexeme {role : Role} {lexemes : List Lexeme} (derives : Derives role lexemes) :
    lexemes ≠ [] := by
  induction derives with
  | lastItem _ ih => exact ih
  | _ => simp

theorem Lexeme.Plain.some_text {lexeme : Lexeme} (plain : lexeme.Plain) : lexeme.text ≠ [] := by
  cases lexeme with
  | mark | name | string => exact List.cons_ne_nil _ _
  | number =>
    obtain ⟨numeral, rfl, formed, -⟩ := plain
    simp [Lexeme.text, Numeral.text, formed.whole.digits.1]
  | word =>
    simp only [Lexeme.Plain, List.mem_cons, List.not_mem_nil, or_false] at plain
    rcases plain with rfl | rfl | rfl <;> simp [Lexeme.text]

theorem Document.some_text {document : Document} (plain : ∀ part ∈ document.parts, part.lexeme.Plain) :
    document.text ≠ [] := by
  obtain ⟨part, parts, split⟩ : ∃ part parts, document.parts = part :: parts :=
    List.exists_cons_of_ne_nil fun none => document.derives.some_lexeme (by rw [none]; rfl)
  have first := (plain part (by simp [split])).some_text
  simp [Document.text, written, split, first]

/-- The tokens of a plain text are its lexemes and the white space between them. -/
theorem tokenize_plain (document : Document) (plain : ∀ part ∈ document.parts, part.lexeme.Plain) :
    (tokenize (some "json") (String.ofList document.text)).map (fun token => (token.type, token.value)) =
      document.tokens := by
  have laid := document.laid
  have sound : ∀ part ∈ document.parts, part.lexeme.Sound := fun part member => (plain part member).sound
  have calm : Calm false (document.parts.map Spaced.lexeme) := by
    refine calm_of_plain (fun lexeme member => ?_) false
    obtain ⟨part, found, rfl⟩ := List.mem_map.1 member
    exact plain part found
  have carves : Grammar.Carves [] (row document.trailing document.parts) Language.Json.grammar :=
    ⟨carves_names laid document.ordered (laid.quoteless sound) calm [], carves_strings laid sound,
      carves_numbers laid plain, carves_keywords laid plain, carves_marks laid, trivial⟩
  have some_text : document.text ≠ [] := Document.some_text plain
  have claimed := Grammar.claim_of_carves ((source_row _ _).symm ▸ some_text) carves
  rw [source_row] at claimed
  have some_code : String.ofList document.text ≠ "" := by
    intro empty
    exact some_text (String.ofList_injective empty)
  have tokens := tokens_values Language.Json.grammar some_code
  rw [String.toList_ofList, Document.text, claimed] at tokens
  refine ((congrArg _ (tokenize_name .json _)).trans tokens).trans ?_
  exact map_hide_row fun part _ => part.lexeme.type_mem

def sampleDocument : Document where
  parts := [⟨[], .mark '{'⟩, ⟨[], .name ['a']⟩, ⟨[], .mark ':'⟩, ⟨[' '], .mark '['⟩,
    ⟨[], .number ['-', '1', '.', '5', '0']⟩, ⟨[], .mark ','⟩, ⟨['\n'], .string []⟩, ⟨[], .mark ']'⟩,
    ⟨[' '], .mark '}'⟩]
  trailing := []
  derives := .object (.lastMember (.array (.item (.number _) (.lastItem (.string [])))))
  blank := by decide
  blank_trailing := blank_nil

theorem tokenize_plain_sample :
    let code := "\x7b\"a\": [-1.50,\n\"\"] \x7d"
    sampleDocument.text = code.toList ∧ (∀ part ∈ sampleDocument.parts, part.lexeme.Plain) ∧
      (tokenize (some "json") code).map (fun token => (token.type, token.value)) =
        [(.punctuation, "\x7b"), (.property, "\"a\""), (.punctuation, ":"), (.text, " "), (.punctuation, "["),
          (.number, "-1.50"), (.punctuation, ","), (.text, "\n"), (.string, "\"\""), (.punctuation, "]"),
          (.text, " "), (.punctuation, "\x7d")] := by
  intro code
  have number : (Lexeme.number ['-', '1', '.', '5', '0']).Plain :=
    ⟨⟨true, ['1'], ['.', '5', '0'], []⟩, rfl,
      ⟨.inr ⟨by decide, by decide⟩, .inr ⟨['5', '0'], rfl, by decide⟩, .inl rfl⟩, rfl⟩
  have name : Bare ['a'] := by decide
  have plain : ∀ part ∈ sampleDocument.parts, part.lexeme.Plain := by
    simp only [sampleDocument, List.forall_mem_cons, List.not_mem_nil, false_imp_iff, implies_true, and_true]
    exact ⟨trivial, name, trivial, trivial, number, trivial, fun _ none => absurd none List.not_mem_nil,
      trivial, trivial⟩
  have text : sampleDocument.text = code.toList := by decide
  refine ⟨text, plain, ?_⟩
  have tokens := tokenize_plain sampleDocument plain
  rw [text, String.ofList_toList] at tokens
  rw [tokens]
  decide

end CodeColor.Json
