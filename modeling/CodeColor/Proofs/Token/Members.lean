import CodeColor.Proofs.Claim.Clearance
import CodeColor.Proofs.Token.Position
import CodeColor.Proofs.Token.Runs
import Mathlib.Data.List.Sort

/-!
Tokens and their extents, seen from the pieces that they come from.

Main statements: `Grammar.mem_extents_iff`, `Grammar.mem_tokenize_iff` and `Grammar.tokens_eq_of_extents`.
-/

namespace CodeColor

open Piece

theorem exists_split_of_getElem? {text : List Char} {place : Nat} {c : Char} (found : text[place]? = some c) :
    ∃ front rest, text = front ++ c :: rest ∧ front.length = place := by
  obtain ⟨fits, same⟩ := List.getElem?_eq_some_iff.1 found
  refine ⟨text.take place, text.drop (place + 1), ?_, ?_⟩
  · rw [← same, ← List.drop_eq_getElem_cons fits, List.take_append_drop]
  · rw [List.length_take]
    omega

theorem Grammar.exists_split_of_stands {grammar : Grammar} {code text before : List Char} {type? : Option TokenType}
    (stands : Stands ⟨text, type?⟩ before (grammar.claim code)) {place : Nat}
    (within : Within (before.length, before.length + text.length) place) :
    ∃ left c right, text = left ++ c :: right ∧ code[place]? = some c := by
  obtain ⟨reached, short⟩ := within
  dsimp only at reached short
  have fits : place - before.length < text.length := by omega
  obtain ⟨left, right, split, size⟩ := exists_split_of_getElem? (List.getElem?_eq_getElem fits)
  obtain ⟨after, whole⟩ := Grammar.code_eq_of_stands stands
  refine ⟨left, _, right, split, ?_⟩
  rw [whole, List.getElem?_append_right reached, List.getElem?_append_left fits]
  exact List.getElem?_eq_getElem fits

theorem Piece.Stands.of_mem_extents {pieces others : List Piece} {type : TokenType} {text before : List Char}
    (same : source pieces = source others) (stands : Stands ⟨text, some type⟩ before pieces)
    (member : (before.length, before.length + text.length) ∈ extentsFrom type 0 others) :
    Stands ⟨text, some type⟩ before others := by
  obtain ⟨lead, other, placed, extent⟩ := mem_extentsFrom.1 member
  obtain ⟨after, whole⟩ := stands.source_eq
  obtain ⟨rest, split⟩ := placed.source_eq
  obtain ⟨start, stop⟩ := Prod.mk.inj extent
  rw [whole, split] at same
  obtain ⟨rfl, behind⟩ := List.append_inj same start
  obtain ⟨rfl, -⟩ := List.append_inj behind (by dsimp only; omega)
  exact placed

namespace Token

def ComesBefore (first second : Token) : Prop :=
  first.position.Precedes second.position

instance (first second : Token) : Decidable (first.ComesBefore second) :=
  inferInstanceAs (Decidable (first.position.Precedes second.position))

instance : Std.Irrefl ComesBefore where
  irrefl token := by simp [ComesBefore, Position.Precedes]

instance : Std.Antisymm ComesBefore where
  antisymm first second before behind := by
    unfold ComesBefore Position.Precedes at before behind
    omega

end Token

namespace Grammar

variable {grammar : Grammar} {code : String} {type : TokenType}

theorem mem_extents_iff (named : type.name ≠ "") (element : type ≠ .text) {extent : Nat × Nat} :
    extent ∈ Span.extents type (Token.spans (grammar.tokenize code)) ↔
      ∃ before text, Stands ⟨text, some type⟩ before (grammar.claim code.toList) ∧
        extent = (before.length, before.length + text.length) := by
  rw [extents_tokenize named element]
  exact mem_extentsFrom

theorem mem_tokenize_iff (some_rule : grammar ≠ []) {token : Token} :
    token ∈ grammar.tokenize code ↔
      ∃ before piece, Stands piece before (grammar.claim code.toList) ∧
        token = piece.tokenAt (Position.start.past before) := by
  unfold tokenize
  split
  next empty =>
    rw [empty]
    change token ∈ [] ↔ ∃ before piece, Stands piece before (grammar.claim []) ∧ _
    rw [claim_nil some_rule]
    constructor
    · intro member
      cases member
    · intro ⟨before, piece, stands, _⟩
      cases stands
  next => exact mem_ofPieces

theorem mem_tokens_iff (some_rule : grammar ≠ []) (named : type.name ≠ "") (element : type ≠ .text) {token : Token} :
    token ∈ (grammar.tokenize code).filter (·.type = type) ↔
      ∃ before text, Stands ⟨text, some type⟩ before (grammar.claim code.toList) ∧
        token = Piece.tokenAt (Position.start.past before) ⟨text, some type⟩ := by
  rw [List.mem_filter, decide_eq_true_eq, mem_tokenize_iff some_rule]
  constructor
  · intro ⟨⟨before, ⟨text, type?⟩, stands, same⟩, typed⟩
    rw [same] at typed
    have claimed : type? = some type := (tokenType_eq_iff named element).1 typed
    rw [claimed] at stands same
    exact ⟨before, text, stands, same⟩
  · intro ⟨before, text, stands, same⟩
    refine ⟨⟨before, _, stands, same⟩, ?_⟩
    have claimed : Piece.tokenType ⟨text, some type⟩ = type := (tokenType_eq_iff named element).2 rfl
    rwa [same]

theorem tokens_eq_of_extents {first second : Grammar} (some_first : first ≠ []) (some_second : second ≠ [])
    (named : type.name ≠ "") (element : type ≠ .text)
    (same : ∀ extent, extent ∈ Span.extents type (Token.spans (first.tokenize code)) ↔
      extent ∈ Span.extents type (Token.spans (second.tokenize code))) :
    (first.tokenize code).filter (·.type = type) = (second.tokenize code).filter (·.type = type) := by
  have moved {one two : Grammar}
      (same : ∀ extent, extent ∈ Span.extents type (Token.spans (one.tokenize code)) →
        extent ∈ Span.extents type (Token.spans (two.tokenize code)))
      {text before : List Char} (stands : Stands ⟨text, some type⟩ before (one.claim code.toList)) :
      Stands ⟨text, some type⟩ before (two.claim code.toList) := by
    have member := same _ ((mem_extents_iff named element).2 ⟨before, text, stands, rfl⟩)
    rw [extents_tokenize named element] at member
    exact stands.of_mem_extents ((one.source_claim _).trans (two.source_claim _).symm) member
  have sorted (grammar : Grammar) : ((grammar.tokenize code).filter (·.type = type)).Pairwise Token.ComesBefore :=
    (grammar.placed_tokenize code).ordered.filter _
  refine (sorted first).eq_of_mem_iff (sorted second) fun token => ?_
  rw [mem_tokens_iff some_first named element, mem_tokens_iff some_second named element]
  constructor
  · intro ⟨before, text, stands, found⟩
    exact ⟨before, text, moved (fun extent => (same extent).1) stands, found⟩
  · intro ⟨before, text, stands, found⟩
    exact ⟨before, text, moved (fun extent => (same extent).2) stands, found⟩

end Grammar

theorem Language.mem_extents_iff (language : Language) {code : String} {type : TokenType} (named : type.name ≠ "")
    (element : type ≠ .text) {extent : Nat × Nat} :
    extent ∈ Span.extents type (Token.spans (tokenize (some language.name) code)) ↔
      ∃ before text, Stands ⟨text, some type⟩ before (language.grammar.claim code.toList) ∧
        extent = (before.length, before.length + text.length) := by
  rw [tokenize_name]
  exact Grammar.mem_extents_iff named element

end CodeColor
