import CodeColor.Highlight
import CodeColor.Proofs.Claim.Refinement
import Mathlib.Data.List.Chain

/-!
The spans of a text cover it from end to end.

Main statement: `claim_covers_source`. It rests on the invariant `Piece.Tidy`, which every rule keeps.
-/

namespace CodeColor

namespace Piece

/-- No piece is empty, and of two neighbours one at least is claimed. -/
structure Tidy (pieces : List Piece) : Prop where
  some_text : ∀ piece ∈ pieces, piece.text ≠ []
  apart : pieces.IsChain fun left right => left.type?.isSome ∨ right.type?.isSome

theorem tidy_nil : Tidy [] := ⟨by simp, .nil⟩

theorem tidy_singleton {piece : Piece} (some_text : piece.text ≠ []) : Tidy [piece] :=
  ⟨by simpa using some_text, .singleton _⟩

theorem tidy_free (held : List Char) : Tidy (free held []) := by
  cases held with
  | nil => exact tidy_nil
  | cons c held => exact tidy_singleton (List.cons_ne_nil c held)

namespace Tidy

variable {first rest : List Piece} {text : List Char} {type : TokenType}

theorem cons_claimed (tidy : Tidy rest) (some_text : text ≠ []) : Tidy (⟨text, some type⟩ :: rest) := by
  constructor
  · exact List.forall_mem_cons.2 ⟨some_text, tidy.some_text⟩
  · refine List.isChain_cons.2 ⟨?_, tidy.apart⟩
    intro _ _
    exact .inl rfl

theorem tail {piece : Piece} (tidy : Tidy (piece :: rest)) : Tidy rest where
  some_text other member := tidy.some_text other (List.mem_cons_of_mem piece member)
  apart := (List.isChain_cons.1 tidy.apart).2

theorem behind_free (tidy : Tidy (⟨text, none⟩ :: rest)) :
    rest = [] ∨ ∃ next type later, rest = ⟨next, some type⟩ :: later := by
  cases rest with
  | nil => exact .inl rfl
  | cons next later =>
    have claimed := (List.isChain_cons.1 tidy.apart).1 next rfl
    obtain ⟨next, type?⟩ := next
    cases type? with
    | none => simp at claimed
    | some type => exact .inr ⟨next, type, later, rfl⟩

theorem append (before : Tidy first) (behind : Tidy (⟨text, some type⟩ :: rest)) :
    Tidy (first ++ ⟨text, some type⟩ :: rest) := by
  constructor
  · exact List.forall_mem_append.2 ⟨before.some_text, behind.some_text⟩
  · refine List.isChain_append.2 ⟨before.apart, behind.apart, ?_⟩
    intro left _ right leads
    cases leads
    exact .inr rfl

end Tidy

end Piece

namespace Rule

open Piece

theorem Cuts.tidy {rule : Rule} {before after : List Char} {pieces : List Piece}
    (cuts : rule.Cuts before after pieces) : Tidy pieces := by
  induction cuts with
  | rest _ => exact tidy_free _
  | found _ some_text _ _ ih => exact (tidy_free _).append (ih.cons_claimed some_text)

theorem tidy_claimFrom (rule : Rule) (before : List Char) {pieces : List Piece} (tidy : Tidy pieces) :
    Tidy (rule.claimFrom [] before pieces) := by
  induction pieces generalizing before with
  | nil => exact tidy
  | cons piece pieces ih =>
    have onward := ih (piece.text.reverse ++ before) tidy.tail
    have some_text := tidy.some_text piece List.mem_cons_self
    rw [claimFrom_cons]
    obtain ⟨text, type?⟩ := piece
    cases type? with
    | some type => exact onward.cons_claimed some_text
    | none =>
      have cut : Tidy (rule.divide before ⟨text, none⟩) := (rule.cuts_cut before text).tidy
      rcases tidy.behind_free with rfl | ⟨next, type, later, rfl⟩
      · rwa [claimFrom, List.reverse_nil, List.append_nil]
      · rw [claimFrom_cons] at onward ⊢
        exact cut.append onward

end Rule

namespace Grammar

open Piece

theorem tidy_foldl (rules : Grammar) {pieces : List Piece} (tidy : Tidy pieces) :
    Tidy (rules.foldl (fun pieces rule => rule.claim pieces) pieces) := by
  induction rules generalizing pieces with
  | nil => exact tidy
  | cons rule rules ih => exact ih (rule.tidy_claimFrom [] tidy)

theorem tidy_claim (grammar : Grammar) {text : List Char} (some_text : text ≠ []) :
    Tidy (grammar.claim text) :=
  grammar.tidy_foldl (tidy_singleton some_text)

theorem foldl_no_piece (rules : Grammar) :
    rules.foldl (fun pieces rule => rule.claim pieces) ([] : List Piece) = [] := by
  induction rules with
  | nil => rfl
  | cons _ _ ih => exact ih

theorem claim_nil {grammar : Grammar} (some_rule : grammar ≠ []) : grammar.claim [] = [] := by
  obtain ⟨rule, rules, rfl⟩ := List.exists_cons_of_ne_nil some_rule
  exact foldl_no_piece rules

end Grammar

/-! ## Spans -/

/-- The spans lie end to end over a text of the given length, none of them is empty, and of two neighbours
one at least is claimed. -/
structure Span.Covers (length : Nat) (spans : List Span) : Prop where
  first : spans.head?.map Span.start = some 0
  last : spans.getLast?.map Span.stop = some length
  joined : spans.IsChain fun left right => left.stop = right.start
  some_text : ∀ span ∈ spans, span.start < span.stop
  apart : spans.IsChain fun left right => left.type?.isSome ∨ right.type?.isSome

namespace Piece

theorem head?_along (offset : Nat) {pieces : List Piece} (some_piece : pieces ≠ []) :
    (along offsetPast spanAt offset pieces).head?.map Span.start = some offset := by
  obtain ⟨piece, pieces, rfl⟩ := List.exists_cons_of_ne_nil some_piece
  rfl

theorem getLast?_along (offset : Nat) {pieces : List Piece} (some_piece : pieces ≠ []) :
    (along offsetPast spanAt offset pieces).getLast?.map Span.stop =
      some (offset + (source pieces).length) := by
  induction pieces generalizing offset with
  | nil => exact absurd rfl some_piece
  | cons piece pieces ih =>
    rw [along, source_cons, List.length_append]
    cases pieces with
    | nil => simp [along, spanAt, source]
    | cons next pieces =>
      have further := ih (offsetPast offset piece.text) (List.cons_ne_nil next pieces)
      rw [along] at further ⊢
      rw [List.getLast?_cons_cons, further, offsetPast, Nat.add_assoc]

theorem isChain_along (offset : Nat) (pieces : List Piece) :
    (along offsetPast spanAt offset pieces).IsChain fun left right => left.stop = right.start := by
  induction pieces generalizing offset with
  | nil => exact .nil
  | cons piece pieces ih =>
    refine List.isChain_cons.2 ⟨?_, ih _⟩
    intro span leads
    cases pieces with
    | nil => cases leads
    | cons next pieces =>
      cases leads
      rfl

theorem Tidy.covers {pieces : List Piece} (tidy : Tidy pieces) (some_piece : pieces ≠ []) :
    Span.Covers (source pieces).length (spans pieces) := by
  have types : (spans pieces).map Span.type? = pieces.map Piece.type? := by
    rw [spans_eq]
    exact map_along Span.type? Piece.type? (fun _ _ => rfl) 0 pieces
  refine ⟨?_, ?_, ?_, ?_, ?_⟩
  · rw [spans_eq, head?_along _ some_piece]
  · rw [spans_eq, getLast?_along _ some_piece, Nat.zero_add]
  · rw [spans_eq]
    exact isChain_along _ _
  · intro span member
    obtain ⟨before, piece, stands, rfl⟩ := mem_spans.1 member
    have positive := List.length_pos_iff.2 (tidy.some_text piece stands.mem)
    simp only [spanAt]
    omega
  · have apart : (pieces.map Piece.type?).IsChain fun left right => left.isSome ∨ right.isSome :=
      (List.isChain_map _).2 tidy.apart
    rw [← types] at apart
    exact (List.isChain_map Span.type?).1 apart

end Piece

/-! ## Tokens -/

/-- The tokens make up the code, and none of them is empty. -/
structure Token.Covers (code : String) (tokens : List Token) : Prop where
  source : String.join (tokens.map Token.value) = code
  some_text : ∀ token ∈ tokens, token.value ≠ ""

namespace Piece

theorem values_ofPieces (pieces : List Piece) :
    (Token.ofPieces pieces).map Token.value = pieces.map fun piece => String.ofList piece.text := by
  rw [ofPieces_eq]
  apply map_along
  intro _ _
  rfl

theorem join_texts (pieces : List Piece) :
    String.join (pieces.map fun piece => String.ofList piece.text) = String.ofList (source pieces) := by
  induction pieces with
  | nil => rfl
  | cons piece pieces ih => rw [List.map_cons, String.join_cons, ih, source_cons, String.ofList_append]

end Piece

theorem toList_ne_nil {code : String} (some_code : code ≠ "") : code.toList ≠ [] := by
  intro empty
  exact some_code (String.toList_eq_nil_iff.1 empty)

theorem Grammar.covers_tokenize (grammar : Grammar) (code : String) :
    Token.Covers code (grammar.tokenize code) := by
  unfold Grammar.tokenize
  split
  next empty => exact ⟨empty.symm, by simp⟩
  next some_code =>
    have tidy := grammar.tidy_claim (toList_ne_nil some_code)
    constructor
    · rw [Piece.values_ofPieces, Piece.join_texts, grammar.source_claim, String.ofList_toList]
    · intro token member
      obtain ⟨before, piece, stands, rfl⟩ := Piece.mem_ofPieces.1 member
      have text := tidy.some_text piece stands.mem
      intro empty
      exact text (String.ofList_eq_empty_iff.1 empty)

/-- The spans of a text lie end to end from its start to its end, each with some text in it, no two free
ones side by side, and each claimed for the type of a rule. Without text there are no spans. So the tokens of
a text, in any language, make it up and none is empty. -/
theorem claim_covers_source (grammar : Grammar) (language? : Option String) (code : String) :
    (code ≠ "" →
      Span.Covers code.length (Piece.spans (grammar.claim code.toList)) ∧
        ∀ span ∈ Piece.spans (grammar.claim code.toList), ∀ type, span.type? = some type →
          ∃ rule ∈ grammar, rule.type = type) ∧
      (grammar ≠ [] → Piece.spans (grammar.claim "".toList) = []) ∧
      Token.Covers code (grammar.tokenize code) ∧ Token.Covers code (tokenize language? code) := by
  refine ⟨?_, ?_, grammar.covers_tokenize code, Grammar.covers_tokenize _ code⟩
  · intro some_code
    have some_text := toList_ne_nil some_code
    have whole := grammar.source_claim code.toList
    constructor
    · have some_piece : grammar.claim code.toList ≠ [] := by
        intro empty
        rw [empty] at whole
        exact some_text whole.symm
      have covers := (grammar.tidy_claim some_text).covers some_piece
      rwa [whole, String.length_toList] at covers
    · intro span member type typed
      obtain ⟨before, piece, stands, rfl⟩ := Piece.mem_spans.1 member
      exact grammar.exists_rule_of_mem_claim stands.mem typed
  · intro some_rule
    change Piece.spans (grammar.claim []) = []
    rw [Grammar.claim_nil some_rule]
    rfl

/-- A name with its colon, and a list in which an empty string touches a comma. -/
theorem claim_covers_json_source :
    "\"a\" : [\"\", -1.5]" ≠ "" ∧ Language.json.grammar ≠ [] ∧
      Span.Covers "\"a\" : [\"\", -1.5]".length
        (Piece.spans (Language.json.grammar.claim "\"a\" : [\"\", -1.5]".toList)) ∧
      Piece.spans (Language.json.grammar.claim "".toList) = [] := by
  have some_code : "\"a\" : [\"\", -1.5]" ≠ "" := by decide
  have some_rule : Language.json.grammar ≠ [] := List.cons_ne_nil _ _
  have covers := claim_covers_source Language.json.grammar none "\"a\" : [\"\", -1.5]"
  exact ⟨some_code, some_rule, (covers.1 some_code).1, covers.2.1 some_rule⟩

end CodeColor
