import CodeColor.Proofs.Claim.Carving

/-!
The tokens of a text that are no plain text, and the pieces of which they are made.

Main statement: `Language.lexemes_tokenize`, which reads them off a row of pieces that the rules take out of the text.
-/

namespace CodeColor

open Piece

theorem ofList_ne_empty {text : List Char} (some_text : text ≠ []) : String.ofList text ≠ "" :=
  fun empty => some_text (String.ofList_injective empty)

theorem tokens_values (grammar : Grammar) {code : String} (some_code : code ≠ "") :
    (grammar.tokenize code).map (fun token => (token.type, token.value)) =
      (grammar.claim code.toList).map fun piece => (piece.tokenType, String.ofList piece.text) := by
  rw [Grammar.tokenize, if_neg some_code, ofPieces_eq]
  exact map_along (fun token : Token => (token.type, token.value))
    (fun piece => (piece.tokenType, String.ofList piece.text)) (fun _ _ => rfl) _ _

def Token.lexemes (tokens : List Token) : List (TokenType × String) :=
  (tokens.map fun token => (token.type, token.value)).filter fun lexeme => lexeme.1 ≠ .text

theorem Token.mem_lexemes {tokens : List Token} {lexeme : TokenType × String} :
    lexeme ∈ Token.lexemes tokens ↔
      ∃ token ∈ tokens, token.type ≠ .text ∧ (token.type, token.value) = lexeme := by
  simp only [lexemes, List.mem_filter, List.mem_map, decide_eq_true_eq]
  constructor
  · intro ⟨⟨token, member, same⟩, other⟩
    exact ⟨token, member, by rwa [← same] at other, same⟩
  · intro ⟨token, member, other, same⟩
    exact ⟨⟨token, member, same⟩, by rwa [← same]⟩

/-- The types are those of tokens that are no plain text. -/
def TokenType.Proper (types : List TokenType) : Prop :=
  ∀ type ∈ types, type.name ≠ "" ∧ type ≠ .text

instance (types : List TokenType) : Decidable (TokenType.Proper types) :=
  List.decidableBAll (fun type : TokenType => type.name ≠ "" ∧ type ≠ .text) types

namespace Piece

/-- The token of a claimed piece, by type and value. -/
def lexeme? (piece : Piece) : Option (TokenType × String) :=
  piece.type?.map fun type => (type, String.ofList piece.text)

theorem filterMap_free (held : List Char) : (free held []).filterMap lexeme? = [] := by
  cases held <;> rfl

theorem filterMap_hide {types : List TokenType} {row : List Piece}
    (claimed : ∀ piece ∈ row, ∀ type, piece.type? = some type → type ∈ types)
    (held : List Char) : (hide types held row).filterMap lexeme? = row.filterMap lexeme? := by
  induction row generalizing held with
  | nil => exact filterMap_free held
  | cons piece row ih =>
    obtain ⟨first, others⟩ := List.forall_mem_cons.1 claimed
    obtain ⟨text, type?⟩ := piece
    cases type? with
    | none => exact ih others (held ++ text)
    | some type =>
      have found : isSeen types ⟨text, some type⟩ = true := by
        simpa [isSeen] using first type rfl
      rw [hide, if_pos found, List.filterMap_append, filterMap_free, List.nil_append]
      exact congrArg (_ :: ·) (ih others [])

theorem lexemes_eq {types : List TokenType} (proper : TokenType.Proper types) {pieces : List Piece}
    (claimed : ∀ piece ∈ pieces, ∀ type, piece.type? = some type → type ∈ types) :
    (pieces.map fun piece => (piece.tokenType, String.ofList piece.text)).filter (fun lexeme => lexeme.1 ≠ .text) =
      pieces.filterMap lexeme? := by
  induction pieces with
  | nil => rfl
  | cons piece pieces ih =>
    obtain ⟨first, others⟩ := List.forall_mem_cons.1 claimed
    have rest := ih others
    obtain ⟨text, type?⟩ := piece
    cases type? with
    | none => exact rest
    | some type =>
      obtain ⟨named, element⟩ := proper type (first type rfl)
      have kept : tokenType ⟨text, some type⟩ = type := if_neg named
      rw [List.map_cons, List.filter_cons_of_pos (by simpa [kept] using element), rest, kept]
      rfl

end Piece

theorem Grammar.lexemes_tokenize {grammar : Grammar} {row : List Piece} (carves : grammar.Carves [] row)
    (proper : TokenType.Proper (grammar.map Rule.type).reverse)
    (sound : ∀ lexeme ∈ row.filterMap lexeme?, lexeme.1 ∈ (grammar.map Rule.type).reverse ∧ lexeme.2 ≠ "") :
    Token.lexemes (grammar.tokenize (String.ofList (source row))) = row.filterMap lexeme? := by
  have seen : ∀ piece ∈ row, ∀ type, piece.type? = some type → (type, String.ofList piece.text) ∈
      row.filterMap lexeme? := by
    intro piece member type same
    exact List.mem_filterMap.2 ⟨piece, member, by rw [lexeme?, same]; rfl⟩
  by_cases none : source row = []
  · have unclaimed : row.filterMap lexeme? = [] := by
      apply List.filterMap_eq_nil_iff.2
      intro piece member
      have empty : piece.text = [] := List.flatMap_eq_nil_iff.1 none piece member
      cases claimed : piece.type? with
      | none => rw [lexeme?, claimed]; rfl
      | some type =>
        have some_text := (sound _ (seen piece member type claimed)).2
        rw [empty] at some_text
        exact absurd rfl some_text
    rw [none, unclaimed]
    rfl
  · have claimed := claim_of_carves none carves
    have typed : ∀ piece ∈ grammar.claim (source row), ∀ type, piece.type? = some type →
        type ∈ (grammar.map Rule.type).reverse := by
      intro piece member type same
      obtain ⟨rule, known, typed⟩ := Grammar.exists_rule_of_mem_claim grammar member same
      rw [List.mem_reverse]
      exact List.mem_map.2 ⟨rule, known, typed⟩
    calc Token.lexemes (grammar.tokenize (String.ofList (source row)))
        = ((grammar.claim (source row)).map fun piece => (piece.tokenType, String.ofList piece.text)).filter
            (fun lexeme => lexeme.1 ≠ .text) := by
          rw [Token.lexemes, tokens_values grammar (ofList_ne_empty none), String.toList_ofList]
      _ = (grammar.claim (source row)).filterMap lexeme? := lexemes_eq proper typed
      _ = row.filterMap lexeme? := by
          rw [claimed, filterMap_hide fun piece member type same => (sound _ (seen piece member type same)).1]

theorem Language.types_proper (language : Language) :
    TokenType.Proper (language.grammar.map Rule.type).reverse := by
  cases language <;> decide

/-- In a language, where what is claimed in the row is known. -/
theorem Language.lexemes_tokenize (language : Language) {row : List Piece} {lexemes : List (TokenType × String)}
    {types : List TokenType} (carves : language.grammar.Carves [] row) (read : row.filterMap lexeme? = lexemes)
    (known : ∀ type ∈ types, type ∈ (language.grammar.map Rule.type).reverse)
    (sound : ∀ lexeme ∈ lexemes, lexeme.1 ∈ types ∧ lexeme.2 ≠ "") :
    Token.lexemes (tokenize (some language.name) (String.ofList (source row))) = lexemes := by
  have inside : ∀ lexeme ∈ row.filterMap lexeme?,
      lexeme.1 ∈ (language.grammar.map Rule.type).reverse ∧ lexeme.2 ≠ "" := by
    intro lexeme member
    obtain ⟨type, some_text⟩ := sound lexeme (read ▸ member)
    exact ⟨known lexeme.1 type, some_text⟩
  rw [tokenize_name, Grammar.lexemes_tokenize carves language.types_proper inside, read]

end CodeColor
