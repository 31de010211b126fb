import CodeColor.Proofs.Claim.Leftover
import CodeColor.Proofs.Json.Acceptance
import CodeColor.Proofs.Json.Strings

/-!
The literals of a JSON text as tokens: each of them is one, from quote to quote, if and only if the text is calm.

Main statement: `literals_whole_iff_calm`.
-/

namespace CodeColor.Json

open Piece Pattern

def Spaced.spanBehind (front : List Spaced) (part : Spaced) : Span :=
  let start := (written front ++ part.space).length
  ⟨start, start + part.lexeme.text.length, some part.lexeme.type⟩

def Document.Whole (document : Document) (tokens : List Token) : Prop :=
  ∀ front part back, document.parts = front ++ part :: back → part.lexeme.isLiteral = true →
    part.spanBehind front ∈ Token.spans tokens

/-! ## Quotes that are free -/

theorem colonAhead_of_key_none {before : List Char} (body : List Char) {rest : List Char}
    (plain : '"' ∉ body) (some_text : body ≠ [])
    (absent : Language.Json.key.matchLength? before ('"' :: (body ++ '"' :: rest)) = none) :
    colonAhead rest = false := by
  by_contra colon
  have found := key_match plain some_text (Bool.not_eq_false _ ▸ colon) before
  have split : Lexeme.quoted body ++ rest = '"' :: (body ++ '"' :: rest) := by simp [Lexeme.quoted]
  rw [split, absent] at found
  cases found

theorem quiet_of_misses {content : List Char} (body : Body '"' content) (opened : List Char)
    {before rest : List Char} (plain : '"' ∉ opened)
    (missed : keyRule.Misses before ('"' :: (opened ++ (content ++ ['"']))) rest) : Quiet content := by
  induction body generalizing opened before with
  | nil => trivial
  | @plain c content other _ ih =>
    have onward := ih (opened ++ [c]) (by simp [plain, Ne.symm other.1]) (by simpa using missed)
    exact ⟨fun quoted => absurd quoted other.1, onward⟩
  | @escape c content _ _ ih =>
    by_cases quoted : c = '"'
    · subst quoted
      have first := missed [] '"' (opened ++ ('\\' :: '"' :: content ++ ['"'])) rfl
      have behind : colonAhead (content ++ '"' :: rest) = false :=
        colonAhead_of_key_none (opened ++ ['\\']) (by simp [plain]) (by simp)
          (by simpa [keyRule] using first)
      rw [colonAhead_append_quote] at behind
      have inside : keyRule.Misses (('"' :: (opened ++ ['\\'])).reverse ++ before)
          ('"' :: (content ++ ['"'])) rest := by
        have whole : keyRule.Misses before
            ('"' :: (opened ++ ['\\']) ++ ('"' :: (content ++ ['"']) ++ [])) rest := by simpa using missed
        exact whole.inside
      have onward := ih [] List.not_mem_nil inside
      exact ⟨fun same => absurd same (by decide), fun _ => behind, onward⟩
    · have onward := ih (opened ++ ['\\', c]) (by simp [plain, Ne.symm quoted]) (by simpa using missed)
      exact ⟨fun same => absurd same (by decide), fun same => absurd same quoted, onward⟩

variable {trailing : List Char} {part : Spaced} {parts : List Spaced}

/-- The last quote in front of the parts is free, and no name starts there. -/
def Dangling (trailing : List Char) (parts : List Spaced) : Prop :=
  ∃ before between, '"' ∉ between ∧
    (between ≠ [] ∨ ∀ next ∈ (parts.map Spaced.lexeme).head?, next.isMark = true) ∧
    Language.Json.key.matchLength? before ('"' :: (between ++ (written parts ++ trailing))) = none

theorem written_cons (part : Spaced) (parts : List Spaced) :
    written (part :: parts) = part.space ++ (part.lexeme.text ++ written parts) := by
  simp [written]

namespace Dangling

theorem colonAhead_eq_false (dangling : Dangling trailing (part :: parts)) (blank : Blank part.space)
    (other : part.lexeme.isMark = false) {content : List Char}
    (text : part.lexeme.text = Lexeme.quoted content) : colonAhead content = false := by
  obtain ⟨before, between, plain, apart, absent⟩ := dangling
  have some_text : between ≠ [] :=
    apart.resolve_right fun marks => by simp [marks part.lexeme rfl] at other
  rw [written_cons, text] at absent
  have behind : colonAhead (content ++ '"' :: (written parts ++ trailing)) = false :=
    colonAhead_of_key_none (between ++ part.space)
      (by simp [plain, quote_not_mem_of_blank blank]) (by simp [some_text])
      (by simpa [Lexeme.quoted] using absent)
  rwa [colonAhead_append_quote] at behind

theorem tail (dangling : Dangling trailing (part :: parts)) (blank : Blank part.space)
    (plainText : '"' ∉ part.lexeme.text) (some_text : part.lexeme.isMark = true → part.lexeme.text ≠ []) :
    Dangling trailing parts := by
  obtain ⟨before, between, plain, apart, absent⟩ := dangling
  refine ⟨before, between ++ (part.space ++ part.lexeme.text), ?_, .inl ?_, ?_⟩
  · simp [plain, plainText, quote_not_mem_of_blank blank]
  · rcases apart with some_between | marks
    · simp [some_between]
    · simp [some_text (marks part.lexeme rfl)]
  · rw [written_cons] at absent
    simpa using absent

theorem of_misses {content before : List Char}
    (marks : ∀ next ∈ (parts.map Spaced.lexeme).head?, next.isMark = true)
    (missed : keyRule.Misses before (Lexeme.quoted content) (written parts ++ trailing)) :
    Dangling trailing parts := by
  have closing := missed ('"' :: content) '"' [] (by simp [Lexeme.quoted])
  exact ⟨('"' :: content).reverse ++ before, [], List.not_mem_nil, .inr marks, closing⟩

end Dangling

/-! ## Whole literals -/

theorem span_mem_iff {source : String} {front back : List Spaced}
    (split : source.toList = written (front ++ part :: back) ++ trailing)
    (some_text : part.lexeme.text ≠ []) :
    part.spanBehind front ∈ Token.spans (tokenize (some "json") source) ↔
      Piece.Stands ⟨part.lexeme.text, some part.lexeme.type⟩ (written front ++ part.space)
        (Language.Json.grammar.claim source.toList) := by
  obtain ⟨named, element⟩ := part.lexeme.type_named
  have whole : source.toList =
      (written front ++ part.space) ++ (part.lexeme.text ++ (written back ++ trailing)) := by
    rw [split]
    simp [written]
  have some_code : source ≠ "" := by
    rintro rfl
    have void : part.lexeme.text = [] ∧ _ :=
      List.append_eq_nil_iff.1 (List.append_eq_nil_iff.1 whole.symm).2
    exact some_text void.1
  have tokens : tokenize (some "json") source =
      Token.ofPieces (Language.Json.grammar.claim source.toList) :=
    (tokenize_name .json source).trans (if_neg some_code)
  rw [tokens, mem_token_spans]
  constructor
  · rintro ⟨before, piece, stands, same⟩
    obtain ⟨start, stop, type⟩ := Span.mk.inj same
    obtain ⟨after, source_eq⟩ := Grammar.code_eq_of_stands stands
    rw [whole] at source_eq
    obtain ⟨rfl, behind⟩ := List.append_inj source_eq start
    obtain ⟨text, -⟩ := List.append_inj behind (by omega)
    have claimed := (tokenType_eq_iff named element).1 (Option.some.inj type).symm
    rw [text, ← claimed]
    exact stands
  · intro stands
    have type : (⟨part.lexeme.text, some part.lexeme.type⟩ : Piece).tokenType = part.lexeme.type :=
      (tokenType_eq_iff named element).2 rfl
    refine ⟨_, _, stands, ?_⟩
    rw [tokenSpanAt, type]
    rfl

theorem misses_of_stands {text before rest content : List Char}
    (split : text = before ++ (Lexeme.quoted content ++ rest))
    (stands : Piece.Stands ⟨Lexeme.quoted content, some .string⟩ before (Language.Json.grammar.claim text)) :
    keyRule.Misses before.reverse (Lexeme.quoted content) rest := by
  have other : TokenType.string ≠ keyRule.type := by decide
  obtain ⟨further, again, missed⟩ := Grammar.misses_first keyRule other stands
  have same : rest = further := by simpa using split.symm.trans again
  rwa [same]

theorem unquoted_of_stands {text before content : List Char}
    (stands : Piece.Stands ⟨Lexeme.quoted content, some .property⟩ before
      (Language.Json.grammar.claim text)) : '"' ∉ content := by
  have only : TokenType.property ∉ List.map Rule.type (stringRule :: furtherRules) := by decide
  obtain ⟨start, after, matched⟩ := Grammar.matched_first keyRule only stands
  obtain ⟨body, same, plain⟩ := quoted_of_key_match matched
  have equal : content = body := by simpa [Lexeme.quoted] using same
  rwa [equal]

theorem calm_of_stands {text : List Char} (before : List Char) (laid : Laid trailing parts)
    (sound : ∀ part ∈ parts, part.lexeme.Sound) (split : text = before ++ (written parts ++ trailing))
    (whole : ∀ front part back, parts = front ++ part :: back → part.lexeme.isLiteral = true →
      Piece.Stands ⟨part.lexeme.text, some part.lexeme.type⟩ (before ++ (written front ++ part.space))
        (Language.Json.grammar.claim text))
    {pending : Bool} (dangling : pending = true → Dangling trailing parts) :
    Calm pending (parts.map Spaced.lexeme) := by
  induction parts generalizing before pending with
  | nil => trivial
  | cons part parts ih =>
    have blank := laid.blank part List.mem_cons_self
    have stands := whole [] part parts rfl
    have plain := laid.quoteless sound part.lexeme List.mem_cons_self
    have here := sound part List.mem_cons_self
    have marks := laid.mark_behind
    have onward : ∀ {pending : Bool}, (pending = true → Dangling trailing parts) →
        Calm pending (parts.map Spaced.lexeme) := by
      intro pending dangling
      refine ih (before ++ (part.space ++ part.lexeme.text)) laid.tail
        (fun other member => sound other (List.mem_cons_of_mem part member)) ?_ ?_ dangling
      · rw [split, written_cons]
        simp
      · intro front other back position literal
        have placed := whole (part :: front) other back (by rw [position]; rfl) literal
        simpa [written_cons] using placed
    have rest : text = (before ++ part.space) ++ (part.lexeme.text ++ (written parts ++ trailing)) := by
      rw [split, written_cons]
      simp
    have string : ∀ {content : List Char}, part.lexeme.text = Lexeme.quoted content →
        part.lexeme.type = .string → part.lexeme.isLiteral = true →
        keyRule.Misses (before ++ part.space).reverse (Lexeme.quoted content) (written parts ++ trailing) := by
      intro content same type literal
      have placed := stands literal
      rw [same, type] at placed
      exact misses_of_stands (by rw [rest, same]) placed
    obtain ⟨space, lexeme⟩ := part
    cases lexeme with
    | mark c => exact onward fun free => (dangling free).tail blank (plain rfl) fun _ => List.cons_ne_nil c []
    | number text => exact onward fun free => (dangling free).tail blank (plain rfl) (by rintro ⟨⟩)
    | word text => exact onward fun free => (dangling free).tail blank (plain rfl) (by rintro ⟨⟩)
    | string content =>
      have missed := string rfl rfl rfl
      refine ⟨?_, ?_, onward fun _ => .of_misses (marks rfl) missed⟩
      · exact quiet_of_misses here [] List.not_mem_nil missed
      · exact fun free => (dangling free).colonAhead_eq_false blank rfl rfl
    | name content =>
      refine ⟨?_, fun free => (dangling free).colonAhead_eq_false blank rfl rfl, onward fun void => ?_⟩
      · by_cases void : content = []
        · rw [void]
          exact List.not_mem_nil
        · have placed := stands rfl
          have type : (Lexeme.name content).type = .property := if_neg void
          rw [type] at placed
          exact unquoted_of_stands placed
      · have type : (Lexeme.name content).type = .string := if_pos (List.isEmpty_iff.1 void)
        exact .of_misses (marks rfl) (string rfl type rfl)

/-- A text that parses as a JSON object or array is a JSON text, and its literals are whole tokens, names with
content as properties and all others as strings, if and only if it is calm. -/
theorem literals_whole_iff_calm {nesting : Nat} {source : String} (parses : parsesAsJson nesting source = .ok true) :
    (∃ document : Document, document.Spelled ∧ document.text = source.toList) ∧
      ∀ document : Document, document.Spelled → document.text = source.toList →
        (document.Whole (tokenize (some "json") source) ↔ Calm false (document.parts.map Spaced.lexeme)) := by
  constructor
  · obtain ⟨-, document, spelled, -, text⟩ := parsesAsJson_iff.1 parses
    exact ⟨document, spelled, text⟩
  · intro document spelled text
    have sound : ∀ part ∈ document.parts, part.lexeme.Sound := fun part member => (spelled part member).sound
    have split : source.toList = written document.parts ++ document.trailing := text.symm
    have some_text : ∀ {part : Spaced}, part.lexeme.isLiteral = true → part ∈ document.parts →
        part.lexeme.text ≠ [] := by
      intro part literal member
      obtain ⟨content, same, -⟩ := text_of_isLiteral (sound part member) literal
      rw [same]
      exact List.cons_ne_nil _ _
    constructor
    · intro whole
      refine calm_of_stands [] document.laid sound split ?_ (by rintro ⟨⟩)
      intro front part back position literal
      have member : part ∈ document.parts := by simp [position]
      rw [position] at split
      exact (span_mem_iff split (some_text literal member)).1 (whole front part back position literal)
    · intro calm front part back position literal
      have member : part ∈ document.parts := by simp [position]
      have laid := document.laid
      have ordered := document.ordered
      rw [position] at split laid ordered sound calm
      refine (span_mem_iff split (some_text literal member)).2 ?_
      rw [split]
      exact literal_stands laid ordered sound calm literal

def calmDocument : Document where
  parts := [⟨[], .mark '{'⟩, ⟨[], .name ['a', ' ', 'b']⟩, ⟨[], .mark ':'⟩, ⟨[' '], .mark '['⟩,
    ⟨[], .string ['x', ':', '\\', '"', 'y', '\\', '"']⟩, ⟨[], .mark ','⟩, ⟨['\n'], .string ['\\', '\\']⟩,
    ⟨[], .mark ']'⟩, ⟨[], .mark '}'⟩]
  trailing := []
  derives := .object (.lastMember (.array (.item (.string _) (.lastItem (.string _)))))
  blank := by decide
  blank_trailing := blank_nil

theorem literals_whole_of_escapes :
    let code := "\x7b\"a b\": [\"x:\\\"y\\\"\",\n\"\\\\\"]\x7d"
    parsesAsJson standardNesting code = .ok true ∧ calmDocument.Spelled ∧ calmDocument.text = code.toList ∧
      Calm false (calmDocument.parts.map Spaced.lexeme) ∧
      calmDocument.Whole (tokenize (some "json") code) := by
  intro code
  have parses : parsesAsJson standardNesting code = .ok true := by decide +kernel
  have text : calmDocument.text = code.toList := by decide
  have name : Content ['a', ' ', 'b'] :=
    .plain (by decide) (by decide) (.plain (by decide) (by decide) (.plain (by decide) (by decide) .nil))
  have quotes : Content ['x', ':', '\\', '"', 'y', '\\', '"'] :=
    .plain (by decide) (by decide) (.plain (by decide) (by decide)
      (.escape (by decide) (.plain (by decide) (by decide) (.escape (by decide) .nil))))
  have backslash : Content ['\\', '\\'] := .escape (by decide) .nil
  have spelled : calmDocument.Spelled := by
    simp only [Document.Spelled, calmDocument, List.forall_mem_cons, List.not_mem_nil, false_imp_iff,
      implies_true, and_true]
    exact ⟨trivial, name, trivial, trivial, quotes, trivial, backslash, trivial, trivial⟩
  have calm : Calm false (calmDocument.parts.map Spaced.lexeme) := by
    simp only [calmDocument, List.map_cons, List.map_nil, Calm, Quiet]
    decide
  exact ⟨parses, spelled, text, calm, ((literals_whole_iff_calm parses).2 calmDocument spelled text).2 calm⟩

def tornDocument : Document where
  parts := [⟨[], .mark '['⟩, ⟨[], .string ['a']⟩, ⟨[], .mark ','⟩, ⟨[' '], .string [':']⟩, ⟨[], .mark ']'⟩]
  trailing := []
  derives := .array (.item (.string _) (.lastItem (.string _)))
  blank := by decide
  blank_trailing := blank_nil

/-- The stretch from the last quote of one string to the first quote of the next is taken for a name. -/
theorem literals_torn_at_colon :
    let code := "[\"a\", \":\"]"
    parsesAsJson standardNesting code = .ok true ∧ tornDocument.Spelled ∧ tornDocument.text = code.toList ∧
      ¬ tornDocument.Whole (tokenize (some "json") code) := by
  intro code
  have parses : parsesAsJson standardNesting code = .ok true := by decide +kernel
  have text : tornDocument.text = code.toList := by decide
  have letter : Content ['a'] := .plain (by decide) (by decide) .nil
  have colon : Content [':'] := .plain (by decide) (by decide) .nil
  have spelled : tornDocument.Spelled := by
    simp only [Document.Spelled, tornDocument, List.forall_mem_cons, List.not_mem_nil, false_imp_iff,
      implies_true, and_true]
    exact ⟨trivial, letter, trivial, colon, trivial⟩
  refine ⟨parses, spelled, text, fun whole => ?_⟩
  have span := whole [⟨[], .mark '['⟩] ⟨[], .string ['a']⟩ _ rfl rfl
  exact absurd span (by decide +kernel)

end CodeColor.Json
