import CodeColor.Proofs.Json.Names
import CodeColor.Proofs.Pattern.Quoted

/-!
Which literals of a JSON text the grammar takes for strings: those that it has not taken for names.

Main statements: `carves_strings` and `literal_stands`.
-/

namespace CodeColor.Json

/-- The quotes in the lexeme are those of a literal, or escaped within it. -/
def Lexeme.Sound : Lexeme → Prop
  | mark _ => True
  | name content => Body '"' content
  | string content => Body '"' content
  | number text => '"' ∉ text
  | word text => '"' ∉ text

variable {trailing : List Char} {parts : List Spaced}

theorem Laid.quoteless (laid : Laid trailing parts) (sound : ∀ part ∈ parts, part.lexeme.Sound) :
    Quoteless (parts.map Spaced.lexeme) := by
  intro lexeme member other
  obtain ⟨part, found, rfl⟩ := List.mem_map.1 member
  have here := sound part found
  obtain ⟨space, lexeme⟩ := part
  cases lexeme with
  | mark c =>
    intro quoted
    have known := laid.known c member
    rw [← List.mem_singleton.1 quoted] at known
    exact absurd known (by decide)
  | name | string => cases other
  | number | word => exact here

/-! ## What is spelled is sound -/

theorem body_append {quote : Char} {plain content : List Char}
    (others : ∀ c ∈ plain, c ≠ quote ∧ c ≠ '\\') (body : Body quote content) :
    Body quote (plain ++ content) := by
  induction plain with
  | nil => exact body
  | cons c plain ih =>
    have onward := ih fun d member => others d (List.mem_cons_of_mem c member)
    exact .plain (others c List.mem_cons_self) onward

theorem Content.body {content : List Char} (spelled : Content content) : Body '"' content := by
  induction spelled with
  | nil => exact .nil
  | plain other _ _ ih => exact .plain other ih
  | escape known _ ih =>
    refine .escape ?_ ih
    rintro rfl
    exact absurd known (by decide)
  | unit _ hexadecimal _ ih =>
    refine .escape (by decide) (body_append (fun digit member => ?_) ih)
    have known := hexadecimal digit member
    constructor
    · rintro rfl
      exact absurd known (by decide)
    · rintro rfl
      exact absurd known (by decide)

theorem Digits.not_mem {digits : List Char} (spelled : Digits digits) {c : Char}
    (other : isDecimal c = false) : c ∉ digits :=
  fun member => Bool.false_ne_true (other.symm.trans (spelled.2 c member))

theorem Numeral.Formed.quote_not_mem {numeral : Numeral} (formed : numeral.Formed) :
    '"' ∉ numeral.text := by
  have whole : '"' ∉ numeral.whole := by
    rcases formed.whole with zero | ⟨digits, -⟩
    · rw [zero]
      decide
    · exact digits.not_mem rfl
  have fraction : '"' ∉ numeral.fraction := by
    rcases formed.fraction with none | ⟨digits, split, decimal⟩
    · rw [none]
      decide
    · rw [split]
      simpa using decimal.not_mem rfl
  have exponent : '"' ∉ numeral.exponent := by
    rcases formed.exponent with none | ⟨letter, sign, digits, split, letters, signs, decimal⟩
    · rw [none]
      decide
    · have first : '"' ≠ letter := by
        rintro rfl
        exact absurd letters (by decide)
      have second : '"' ∉ sign := by
        simp only [List.mem_cons, List.not_mem_nil, or_false] at signs
        rcases signs with rfl | rfl | rfl <;> decide
      rw [split]
      simp [first, second, decimal.not_mem (c := '"') rfl]
  have sign : '"' ∉ (if numeral.negative then ['-'] else []) := by
    split <;> decide
  simp [Numeral.text, sign, whole, fraction, exponent]

theorem Lexeme.Spelled.sound {lexeme : Lexeme} (spelled : lexeme.Spelled) : lexeme.Sound := by
  cases lexeme with
  | mark => trivial
  | name | string => exact Content.body spelled
  | number text =>
    obtain ⟨numeral, rfl, known⟩ := spelled
    exact known.quote_not_mem
  | word text =>
    simp only [Lexeme.Spelled, List.mem_cons, List.not_mem_nil, or_false] at spelled
    rcases spelled with rfl | rfl | rfl | rfl | rfl | rfl <;> simp [Lexeme.Sound]

/-! ## The rule -/

def stringRule : Rule := ⟨"string", Language.Lexeme.escapedString '"', .string⟩

theorem string_opensAt : (Language.Lexeme.escapedString '"').OpensAt quote :=
  ((Pattern.OpensAt.literal rfl []).append _).append _

theorem quoted_match {content : List Char} (body : Body '"' content) (before rest : List Char) :
    stringRule.pattern.matchLength? before (Lexeme.quoted content ++ rest) =
      some (Lexeme.quoted content).length := by
  have split : Lexeme.quoted content ++ rest = '"' :: (content ++ '"' :: rest) := by
    simp [Lexeme.quoted]
  have size : (Lexeme.quoted content).length = content.length + 2 := by simp [Lexeme.quoted]
  rw [split, size]
  exact Pattern.escapedString_match (by decide) body before rest

theorem isLiteral_iff {lexeme : Lexeme} :
    lexeme.isLiteral = true ↔ lexeme.type ∈ [TokenType.string, .property] := by
  cases lexeme with
  | name content => by_cases void : content = [] <;> simp [Lexeme.isLiteral, Lexeme.type, void]
  | string => simp [Lexeme.isLiteral, Lexeme.type]
  | mark =>
    have other : TokenType.punctuation ∉ [TokenType.string, .property] := by decide
    exact iff_of_false Bool.false_ne_true other
  | number =>
    have other : TokenType.number ∉ [TokenType.string, .property] := by decide
    exact iff_of_false Bool.false_ne_true other
  | word =>
    have other : TokenType.keyword ∉ [TokenType.string, .property] := by decide
    exact iff_of_false Bool.false_ne_true other

theorem cases_of_type {lexeme : Lexeme} {type : TokenType} (own : lexeme.type = type)
    (other : type ∉ [TokenType.string, .property]) :
    (type = .punctuation ∧ ∃ c, lexeme = .mark c) ∨ (type = .number ∧ ∃ text, lexeme = .number text) ∨
      type = .keyword ∧ ∃ text, lexeme = .word text := by
  subst own
  cases lexeme with
  | mark c => exact .inl ⟨rfl, c, rfl⟩
  | number text => exact .inr (.inl ⟨rfl, text, rfl⟩)
  | word text => exact .inr (.inr ⟨rfl, text, rfl⟩)
  | name | string => exact absurd (isLiteral_iff.1 rfl) other

theorem Lexeme.type_mem (lexeme : Lexeme) :
    lexeme.type ∈ [TokenType.punctuation, .keyword, .number, .string, .property] := by
  by_cases literal : lexeme.type ∈ [TokenType.string, .property]
  · exact List.mem_append_right [TokenType.punctuation, .keyword, .number] literal
  · rcases cases_of_type rfl literal with ⟨type, -⟩ | ⟨type, -⟩ | ⟨type, -⟩ <;> rw [type] <;> decide

theorem Lexeme.type_named (lexeme : Lexeme) : lexeme.type.name ≠ "" ∧ lexeme.type ≠ .text := by
  have names : ∀ type ∈ [TokenType.punctuation, .keyword, .number, .string, .property],
      type.name ≠ "" ∧ type ≠ .text := by decide
  exact names lexeme.type lexeme.type_mem

theorem text_of_isLiteral {lexeme : Lexeme} (sound : lexeme.Sound) (literal : lexeme.isLiteral = true) :
    ∃ content, lexeme.text = Lexeme.quoted content ∧ Body '"' content := by
  cases lexeme with
  | name content | string content => exact ⟨content, rfl, sound⟩
  | mark | number | word => cases literal

/-- The rule for strings takes the literals that are left. -/
theorem carves_strings (laid : Laid trailing parts) (sound : ∀ part ∈ parts, part.lexeme.Sound) :
    stringRule.Carves [.property] [] (row trailing parts) := by
  refine carves_row string_opensAt (by decide) ?_ laid ?_ ?_ (.inr rfl)
  · intro c space
    refine beq_eq_false_iff_ne.2 ?_
    rintro rfl
    exact absurd space (by decide)
  · intro part member other c inside
    have plain := laid.quoteless sound part.lexeme (List.mem_map_of_mem member)
      (Bool.eq_false_iff.2 fun literal => other (isLiteral_iff.1 literal))
    exact beq_eq_false_iff_ne.2 fun same => plain (same ▸ inside)
  · intro part member own before rest _
    have literal := isLiteral_iff.2 (by
      rw [own]
      exact List.mem_cons_self)
    obtain ⟨content, text, body⟩ := text_of_isLiteral (sound part member) literal
    rw [text]
    exact quoted_match body before rest

/-! ## Both rules -/

theorem stands_row (trailing : List Char) (front : List Spaced) (part : Spaced) (back : List Spaced) :
    Piece.Stands ⟨part.lexeme.text, some part.lexeme.type⟩ (written front ++ part.space)
      (row trailing (front ++ part :: back)) := by
  induction front with
  | nil =>
    have here : Piece.Stands ⟨part.lexeme.text, some part.lexeme.type⟩ []
        (⟨part.lexeme.text, some part.lexeme.type⟩ :: row trailing back) := .here
    have placed := Piece.Stands.behind ⟨part.space, none⟩ here
    rwa [List.append_nil] at placed
  | cons other front ih =>
    have placed := Piece.Stands.behind ⟨other.space, none⟩
      (Piece.Stands.behind ⟨other.lexeme.text, some other.lexeme.type⟩ ih)
    have before : written (other :: front) ++ part.space =
        other.space ++ (other.lexeme.text ++ (written front ++ part.space)) := by simp [written]
    rwa [before]

def furtherRules : Grammar := Language.Json.grammar.drop 2

theorem grammar_eq : Language.Json.grammar = [keyRule, stringRule] ++ furtherRules := rfl

/-- In a calm text the literals are pieces of their types. -/
theorem literal_stands {front back : List Spaced} {part : Spaced}
    (laid : Laid trailing (front ++ part :: back))
    (ordered : Ordered ((front ++ part :: back).map Spaced.lexeme))
    (sound : ∀ other ∈ front ++ part :: back, other.lexeme.Sound)
    (calm : Calm false ((front ++ part :: back).map Spaced.lexeme))
    (literal : part.lexeme.isLiteral = true) :
    Piece.Stands ⟨part.lexeme.text, some part.lexeme.type⟩ (written front ++ part.space)
      (Language.Json.grammar.claim (written (front ++ part :: back) ++ trailing)) := by
  have placed := stands_row trailing front part back
  have carves : Grammar.Carves [] (row trailing (front ++ part :: back)) [keyRule, stringRule] :=
    ⟨carves_names laid ordered (laid.quoteless sound) calm [], carves_strings laid sound, trivial⟩
  have some_text : Piece.source (row trailing (front ++ part :: back)) ≠ [] := by
    obtain ⟨content, text, -⟩ := text_of_isLiteral (sound part (by simp)) literal
    obtain ⟨after, whole⟩ := placed.source_eq
    rw [whole, text]
    simp [Lexeme.quoted]
  have first := Grammar.claim_of_carves some_text carves
  have seen : Piece.isSeen [.string, .property] ⟨part.lexeme.text, some part.lexeme.type⟩ = true := by
    simpa [Piece.isSeen] using isLiteral_iff.1 literal
  have claimed : Piece.Stands ⟨part.lexeme.text, some part.lexeme.type⟩ (written front ++ part.space)
      (Grammar.claim [keyRule, stringRule] (Piece.source (row trailing (front ++ part :: back)))) := by
    rw [first]
    exact placed.hide seen []
  rw [source_row] at claimed
  rw [grammar_eq]
  exact (Grammar.refines_claim_append [keyRule, stringRule] furtherRules _).keeps claimed

end CodeColor.Json
