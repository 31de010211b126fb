import CodeColor.Proofs.Claim.Partition

/-!
Where tokens lie in the source, and which stretches of it have a given type.

Main statements: `Token.span_unique`, `Token.token_spans` and `Grammar.extents_tokenize`.
-/

namespace CodeColor

def Span.extents (type : TokenType) (spans : List Span) : List (Nat × Nat) :=
  (spans.filter (·.type? = some type)).map fun span => (span.start, span.stop)

namespace Token

def spansFrom (offset : Nat) : List Token → List Span
  | [] => []
  | token :: tokens =>
    ⟨offset, offset + token.value.length, some token.type⟩ ::
      spansFrom (offset + token.value.length) tokens

def spans (tokens : List Token) : List Span :=
  spansFrom 0 tokens

theorem span_unique {offset place : Nat} {tokens : List Token} {first second : Span}
    (left : first ∈ spansFrom offset tokens) (right : second ∈ spansFrom offset tokens)
    (inFirst : first.start ≤ place ∧ place < first.stop)
    (inSecond : second.start ≤ place ∧ place < second.stop) : first = second := by
  have behind : ∀ {tokens : List Token} {offset : Nat} {span : Span},
      span ∈ spansFrom offset tokens → offset ≤ span.start := by
    intro tokens
    induction tokens with
    | nil => simp [spansFrom]
    | cons token tokens ih =>
      intro offset span member
      rcases List.mem_cons.1 member with rfl | further
      · exact Nat.le_refl _
      · have later := ih further
        omega
  induction tokens generalizing offset with
  | nil => cases left
  | cons token tokens ih =>
    rcases List.mem_cons.1 left with rfl | leftFurther
    · rcases List.mem_cons.1 right with rfl | rightFurther
      · rfl
      · have later := behind rightFurther
        dsimp only at inFirst
        omega
    · rcases List.mem_cons.1 right with rfl | rightFurther
      · have later := behind leftFurther
        dsimp only at inSecond
        omega
      · exact ih leftFurther rightFurther

end Token

namespace Piece

def tokenSpanAt (offset : Nat) (piece : Piece) : Span :=
  ⟨offset, offset + piece.text.length, some piece.tokenType⟩

theorem spansFrom_along (offset : Nat) (position : Position) (pieces : List Piece) :
    Token.spansFrom offset (along Position.past tokenAt position pieces) =
      along offsetPast tokenSpanAt offset pieces := by
  induction pieces generalizing offset position with
  | nil => rfl
  | cons piece pieces ih =>
    have size : (tokenAt position piece).value.length = piece.text.length := String.length_ofList
    rw [along, Token.spansFrom, size, ih]
    rfl

theorem token_spans (pieces : List Piece) :
    Token.spans (Token.ofPieces pieces) = along offsetPast tokenSpanAt 0 pieces := by
  rw [Token.spans, ofPieces_eq, spansFrom_along]

theorem mem_token_spans {span : Span} {pieces : List Piece} :
    span ∈ Token.spans (Token.ofPieces pieces) ↔
      ∃ before piece, Stands piece before pieces ∧ span = piece.tokenSpanAt before.length := by
  rw [token_spans, mem_along steady_offsetPast]
  simp only [offsetPast, Nat.zero_add]

theorem source_nil : source [] = [] := rfl

theorem source_free (held : List Char) : source (free held []) = held := by
  cases held with
  | nil => rfl
  | cons c held => exact List.append_nil (c :: held)

theorem along_append {State Mark : Type} {move : State → List Char → State}
    {mark : State → Piece → Mark} (steady : Steady move) (state : State) (first second : List Piece) :
    along move mark state (first ++ second) =
      along move mark state first ++ along move mark (move state (source first)) second := by
  induction first generalizing state with
  | nil => rw [source_nil, (steady state).1]; rfl
  | cons piece first ih =>
    rw [List.cons_append, along, ih, (steady state).2, ← source_cons]
    rfl

/-! ## Extents of one type -/

/-- Start and end of the pieces that are claimed for the type, where the first piece starts at the
offset. -/
def extentsFrom (type : TokenType) (offset : Nat) (pieces : List Piece) : List (Nat × Nat) :=
  Span.extents type (along offsetPast spanAt offset pieces)

section

variable {type : TokenType}

theorem extentsFrom_cons (offset : Nat) (piece : Piece) (pieces : List Piece) :
    extentsFrom type offset (piece :: pieces) =
      (if piece.type? = some type then [(offset, offset + piece.text.length)] else []) ++
        extentsFrom type (offset + piece.text.length) pieces := by
  simp only [extentsFrom, Span.extents, along, List.filter_cons, spanAt, offsetPast]
  by_cases same : piece.type? = some type <;> simp [same]

theorem extentsFrom_append (offset : Nat) (first second : List Piece) :
    extentsFrom type offset (first ++ second) =
      extentsFrom type offset first ++ extentsFrom type (offset + (source first).length) second := by
  simp only [extentsFrom, Span.extents, along_append steady_offsetPast, List.filter_append,
    List.map_append, offsetPast]

theorem extentsFrom_eq_nil {offset : Nat} {pieces : List Piece}
    (other : ∀ piece ∈ pieces, piece.type? ≠ some type) : extentsFrom type offset pieces = [] := by
  induction pieces generalizing offset with
  | nil => rfl
  | cons piece pieces ih =>
    rw [extentsFrom_cons, if_neg (other piece List.mem_cons_self),
      ih fun part member => other part (List.mem_cons_of_mem piece member)]
    rfl

theorem extentsFrom_free (offset : Nat) (held : List Char) :
    extentsFrom type offset (free held []) = [] := by
  apply extentsFrom_eq_nil
  intro piece member
  unfold free at member
  split at member
  · cases member
  · rw [List.mem_singleton.1 member]
    nofun

theorem Refines.extents_eq {types : List TokenType} {coarse fine : List Piece}
    (refines : Refines types coarse fine) (other : type ∉ types) (offset : Nat) :
    extentsFrom type offset fine = extentsFrom type offset coarse := by
  induction refines generalizing offset with
  | nil => rfl
  | claimed _ ih => rw [extentsFrom_cons, extentsFrom_cons, ih]
  | @free parts _ _ typed _ ih =>
    have apart : ∀ part ∈ parts, part.type? ≠ some type :=
      fun part member same => other (typed part member type same)
    rw [extentsFrom_append, extentsFrom_eq_nil apart, extentsFrom_cons, ih]
    simp

theorem tokenType_eq_iff {piece : Piece} (named : type.name ≠ "") (element : type ≠ .text) :
    piece.tokenType = type ↔ piece.type? = some type := by
  unfold tokenType
  split
  next unclaimed => simp [unclaimed, element.symm]
  next other claimed =>
    rw [claimed, Option.some.injEq]
    split
    next nameless =>
      constructor
      · rintro rfl
        exact absurd rfl element
      · rintro rfl
        exact absurd nameless named
    next => rfl

theorem extents_token_spans (named : type.name ≠ "") (element : type ≠ .text) (pieces : List Piece) :
    Span.extents type (Token.spans (Token.ofPieces pieces)) = extentsFrom type 0 pieces := by
  rw [token_spans]
  generalize 0 = offset
  induction pieces generalizing offset with
  | nil => rfl
  | cons piece pieces ih =>
    rw [extentsFrom_cons, ← ih, along]
    simp only [← tokenType_eq_iff named element, Span.extents, List.filter_cons, tokenSpanAt,
      offsetPast, Option.some.injEq]
    by_cases same : piece.tokenType = type <;> simp [same]

end

end Piece

theorem Grammar.extents_tokenize {type : TokenType} (named : type.name ≠ "") (element : type ≠ .text)
    (grammar : Grammar) (code : String) :
    Span.extents type (Token.spans (grammar.tokenize code)) =
      Piece.extentsFrom type 0 (grammar.claim code.toList) := by
  unfold Grammar.tokenize
  split
  next empty =>
    subst empty
    change [] = Piece.extentsFrom type 0 (grammar.claim [])
    cases grammar with
    | nil => rfl
    | cons rule rules => rw [Grammar.claim_nil (List.cons_ne_nil rule rules)]; rfl
  next => exact Piece.extents_token_spans named element _

theorem tokenize_name (language : Language) (code : String) :
    tokenize (some language.name) code = language.grammar.tokenize code := by
  unfold tokenize Grammar.named?
  rw [Option.bind_some, Language.ofName?_name]
  rfl

end CodeColor
