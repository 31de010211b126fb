import CodeColor.Claim.Source
import CodeColor.Tokenize

/-!
Where the pieces of a text stand. A piece is known by what it is and by the text before it, and both its span
and its token can be read off from that.

Main statements: `Piece.mem_spans` and `Piece.mem_ofPieces`.
-/

namespace CodeColor

namespace Piece

/-- The piece is one of the row, and the pieces before it make up the text. -/
inductive Stands (piece : Piece) : List Char → List Piece → Prop where
  | here {later : List Piece} : Stands piece [] (piece :: later)
  | behind {before : List Char} {later : List Piece} (first : Piece) (further : Stands piece before later) :
      Stands piece (first.text ++ before) (first :: later)

namespace Stands

variable {piece : Piece} {before : List Char} {pieces first second : List Piece}

theorem mem (stands : piece.Stands before pieces) : piece ∈ pieces := by
  induction stands with
  | here => exact List.mem_cons_self
  | behind _ _ ih => exact List.mem_cons_of_mem _ ih

theorem source_eq (stands : piece.Stands before pieces) :
    ∃ after, source pieces = before ++ (piece.text ++ after) := by
  induction stands with
  | @here later => exact ⟨source later, rfl⟩
  | behind other _ ih =>
    obtain ⟨after, whole⟩ := ih
    exact ⟨after, by rw [source_cons, whole, List.append_assoc]⟩

theorem exists_row (stands : piece.Stands before pieces) :
    ∃ lead later, pieces = lead ++ piece :: later ∧ before = source lead := by
  induction stands with
  | @here later => exact ⟨[], later, rfl, rfl⟩
  | behind first _ ih =>
    obtain ⟨lead, later, rfl, rfl⟩ := ih
    exact ⟨first :: lead, later, rfl, (source_cons first lead).symm⟩

theorem append_right (first : List Piece) (stands : piece.Stands before second) :
    piece.Stands (source first ++ before) (first ++ second) := by
  induction first with
  | nil => exact stands
  | cons other first ih =>
    rw [source_cons, List.append_assoc]
    exact .behind other ih

theorem of_append (stands : piece.Stands before (first ++ second)) :
    piece.Stands before first ∨
      ∃ rest, before = source first ++ rest ∧ piece.Stands rest second := by
  induction first generalizing before with
  | nil => exact .inr ⟨before, rfl, stands⟩
  | cons other first ih =>
    cases stands with
    | here => exact .inl .here
    | behind _ further =>
      rcases ih further with inside | ⟨rest, rfl, outside⟩
      · exact .inl (.behind other inside)
      · exact .inr ⟨rest, by rw [source_cons, List.append_assoc], outside⟩

end Stands

/-- A mark for each of the pieces, made in a state that moves on over the text of each piece. -/
def along {State Mark : Type} (move : State → List Char → State) (mark : State → Piece → Mark)
    (state : State) : List Piece → List Mark
  | [] => []
  | piece :: pieces => mark state piece :: along move mark (move state piece.text) pieces

section

variable {State Mark : Type} {move : State → List Char → State} {mark : State → Piece → Mark}

/-- Moving over no text changes nothing, and two texts in a row count as one. -/
def Steady (move : State → List Char → State) : Prop :=
  ∀ state, move state [] = state ∧
    ∀ first second, move (move state first) second = move state (first ++ second)

theorem mem_along (steady : Steady move) {state : State} {pieces : List Piece} {found : Mark} :
    found ∈ along move mark state pieces ↔
      ∃ before piece, Stands piece before pieces ∧ found = mark (move state before) piece := by
  constructor
  · intro member
    induction pieces generalizing state with
    | nil => cases member
    | cons first pieces ih =>
      rcases List.mem_cons.1 member with same | further
      · exact ⟨[], first, .here, by rw [same, (steady state).1]⟩
      · obtain ⟨before, piece, stands, same⟩ := ih further
        exact ⟨first.text ++ before, piece, .behind first stands, by rw [same, (steady state).2]⟩
  · rintro ⟨before, piece, stands, rfl⟩
    induction stands generalizing state with
    | here =>
      rw [(steady state).1]
      exact List.mem_cons_self
    | behind first _ ih =>
      rw [← (steady state).2]
      exact List.mem_cons_of_mem _ ih

theorem map_along {Kept : Type} (keep : Mark → Kept) (read : Piece → Kept)
    (kept : ∀ state piece, keep (mark state piece) = read piece) (state : State) (pieces : List Piece) :
    (along move mark state pieces).map keep = pieces.map read := by
  induction pieces generalizing state with
  | nil => rfl
  | cons piece pieces ih => rw [along, List.map_cons, List.map_cons, kept, ih]

end

/-! ## Spans -/

def spanAt (offset : Nat) (piece : Piece) : Span :=
  ⟨offset, offset + piece.text.length, piece.type?⟩

def offsetPast (offset : Nat) (text : List Char) : Nat := offset + text.length

theorem steady_offsetPast : Steady offsetPast := by
  intro offset
  refine ⟨rfl, ?_⟩
  intro first second
  simp only [offsetPast, List.length_append]
  omega

theorem spansFrom_eq (done : List Span) (offset : Nat) (pieces : List Piece) :
    spansFrom done offset pieces = done.reverse ++ along offsetPast spanAt offset pieces := by
  induction pieces generalizing done offset with
  | nil => simp [spansFrom, along]
  | cons piece pieces ih =>
    rw [spansFrom, ih, List.reverse_cons, List.append_assoc]
    rfl

theorem spans_eq (pieces : List Piece) : spans pieces = along offsetPast spanAt 0 pieces :=
  spansFrom_eq [] 0 pieces

theorem mem_spans {span : Span} {pieces : List Piece} :
    span ∈ spans pieces ↔
      ∃ before piece, Stands piece before pieces ∧ span = piece.spanAt before.length := by
  rw [spans_eq, mem_along steady_offsetPast]
  simp only [offsetPast, Nat.zero_add]

/-! ## Tokens -/

def tokenAt (position : Position) (piece : Piece) : Token :=
  ⟨piece.tokenType, String.ofList piece.text, position.line, position.column⟩

theorem steady_past : Steady Position.past :=
  fun position => ⟨rfl, fun first second => (Position.past_append position first second).symm⟩

theorem placeFrom_eq (done : List Token) (position : Position) (pieces : List Piece) :
    Token.placeFrom done position pieces =
      done.reverse ++ along Position.past tokenAt position pieces := by
  induction pieces generalizing done position with
  | nil => simp [Token.placeFrom, along]
  | cons piece pieces ih =>
    rw [Token.placeFrom, ih, List.reverse_cons, List.append_assoc]
    rfl

theorem ofPieces_eq (pieces : List Piece) :
    Token.ofPieces pieces = along Position.past tokenAt .start pieces :=
  placeFrom_eq [] .start pieces

theorem mem_ofPieces {token : Token} {pieces : List Piece} :
    token ∈ Token.ofPieces pieces ↔
      ∃ before piece, Stands piece before pieces ∧
        token = piece.tokenAt (Position.start.past before) := by
  rw [ofPieces_eq, mem_along steady_past]

end Piece

end CodeColor
