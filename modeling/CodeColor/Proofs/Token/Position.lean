import CodeColor.Proofs.Claim.Partition

/-!
Where tokens stand, by line and column. The line feeds before a token tell its line, and the characters behind the
last of them its column. Read line by line, the source has the token there.

Main statement: `tokens_are_placed`. It rests on `Position.past_start`, which says what the position carried over a
text is, and on `drop_lines`, which finds the same place among the lines of the text.
-/

namespace CodeColor

/-- Where the last line of the text starts: behind the last line feed, or else at the start of the text. -/
def lineStart (text : List Char) : Nat :=
  (text.reverse.dropWhile (· ≠ '\n')).length

theorem lineStart_feed (text : List Char) : lineStart (text ++ ['\n']) = text.length + 1 := by
  simp [lineStart]

theorem lineStart_other {c : Char} (other : c ≠ '\n') (text : List Char) :
    lineStart (text ++ [c]) = lineStart text := by
  simp [lineStart, other]

theorem lineStart_le (text : List Char) : lineStart text ≤ text.length := by
  calc
    lineStart text ≤ text.reverse.length := (List.dropWhile_sublist _).length_le
    _ = text.length := List.length_reverse

theorem drop_lineStart_snoc {c : Char} (other : c ≠ '\n') (text : List Char) :
    (text ++ [c]).drop (lineStart (text ++ [c])) = text.drop (lineStart text) ++ [c] := by
  rw [lineStart_other other, List.drop_append_of_le_length (lineStart_le text)]

/-! ## The position behind a text -/

namespace Position

theorem past_snoc (position : Position) (text : List Char) (c : Char) :
    position.past (text ++ [c]) = (position.past text).next c := by
  rw [past_append]
  rfl

theorem past_start (text : List Char) :
    start.past text = ⟨1 + text.count '\n', text.length - lineStart text + 1⟩ := by
  induction text using List.reverseRecOn with
  | nil => rfl
  | append_singleton text c ih =>
    rw [past_snoc, ih, next]
    split
    next feed =>
      rw [feed, lineStart_feed, List.count_append, List.length_append]
      simp [Nat.add_assoc]
    next other =>
      have fits := lineStart_le text
      have absent : [c].count '\n' = 0 := List.count_eq_zero.2 fun member =>
        other (List.mem_singleton.1 member).symm
      rw [lineStart_other other, List.count_append, absent, List.length_append, List.length_singleton,
        Nat.sub_add_comm fits]
      rfl

/-- The first position comes before the second when a text is read. -/
def Precedes (first second : Position) : Prop :=
  first.line < second.line ∨ first.line = second.line ∧ first.column < second.column

instance (first second : Position) : Decidable (first.Precedes second) :=
  inferInstanceAs (Decidable (_ ∨ _ ∧ _))

theorem Precedes.trans {first second third : Position} (left : first.Precedes second)
    (right : second.Precedes third) : first.Precedes third := by
  unfold Precedes at *
  omega

theorem precedes_next (position : Position) (c : Char) : position.Precedes (position.next c) := by
  unfold Precedes next
  split
  · exact .inl (Nat.lt_succ_self position.line)
  · exact .inr ⟨rfl, Nat.lt_succ_self position.column⟩

theorem precedes_past (position : Position) {text : List Char} (some_text : text ≠ []) :
    position.Precedes (position.past text) := by
  induction text using List.reverseRecOn with
  | nil => exact absurd rfl some_text
  | append_singleton text c ih =>
    rw [past_snoc]
    by_cases empty : text = []
    · rw [empty]
      exact position.precedes_next c
    · exact (ih empty).trans (precedes_next _ c)

end Position

/-! ## The lines of a text -/

/-- The line in which `before` ends, and the lines behind it, where `rest` follows. -/
theorem drop_lines (before : List Char) {rest first : List Char} {later : List (List Char)}
    (split : rest.splitOn '\n' = first :: later) :
    ((before ++ rest).splitOn '\n').drop (before.count '\n') =
      (before.drop (lineStart before) ++ first) :: later := by
  induction before using List.reverseRecOn generalizing rest first later with
  | nil => exact split
  | append_singleton before c ih =>
    have lines := List.splitOn_cons_eq_if_modifyHead (a := '\n') c rest
    rw [List.append_assoc, List.singleton_append, List.count_append]
    by_cases feed : c = '\n'
    · rw [if_pos (beq_iff_eq.2 feed), split] at lines
      have none_behind : (before ++ [c]).drop (lineStart (before ++ [c])) = [] := by
        rw [feed, lineStart_feed, List.drop_eq_nil_iff, List.length_append, List.length_singleton]
      have one : [c].count '\n' = 1 := by rw [feed, List.count_singleton_self]
      rw [one, ← List.drop_drop, ih lines, none_behind]
      rfl
    · rw [if_neg (by simpa using feed), split, List.modifyHead_cons] at lines
      have absent : [c].count '\n' = 0 := List.count_eq_zero.2 fun member =>
        feed (List.mem_singleton.1 member).symm
      rw [absent, Nat.add_zero, ih lines, drop_lineStart_snoc feed, List.append_assoc, List.singleton_append]

theorem exists_line (before rest : List Char) :
    ∃ line later, ((before ++ rest).splitOn '\n').drop (before.count '\n') = line :: later ∧
      before.length - lineStart before ≤ line.length ∧
      ['\n'].intercalate (line.drop (before.length - lineStart before) :: later) = rest := by
  obtain ⟨first, later, lines⟩ := List.exists_cons_of_ne_nil (List.splitOn_ne_nil '\n' rest)
  have size : (before.drop (lineStart before)).length = before.length - lineStart before := List.length_drop
  refine ⟨before.drop (lineStart before) ++ first, later, drop_lines before lines, ?_, ?_⟩
  · rw [List.length_append]
    omega
  · rw [← size, List.drop_left, ← lines]
    exact List.intercalate_splitOn '\n'

/-! ## Tokens -/

namespace Token

def position (token : Token) : Position := ⟨token.line, token.column⟩

/-- The tokens stand where they say. -/
structure Placed (code : String) (tokens : List Token) : Prop where
  /-- Line and column are counted from the text before the token, which is as long as the tokens before it. -/
  counted : ∀ before token after, tokens = before ++ token :: after →
    let start := (before.flatMap fun other => other.value.toList).length
    token.line = 1 + (code.toList.take start).count '\n' ∧
      token.column = start - lineStart (code.toList.take start) + 1
  /-- In the line of that number, and on from there, the source has the value of the token. -/
  in_line : ∀ token ∈ tokens, ∃ line later,
    (code.toList.splitOn '\n').drop (token.line - 1) = line :: later ∧ token.column - 1 ≤ line.length ∧
      token.value.toList <+: ['\n'].intercalate (line.drop (token.column - 1) :: later)
  ordered : tokens.Pairwise fun first second => first.position.Precedes second.position

end Token

namespace Piece

theorem exists_pieces {position : Position} {pieces : List Piece} {before after : List Token} {token : Token}
    (split : along Position.past tokenAt position pieces = before ++ token :: after) :
    ∃ first piece rest, pieces = first ++ piece :: rest ∧
      before = along Position.past tokenAt position first ∧
      token = piece.tokenAt (position.past (source first)) := by
  induction pieces generalizing position before with
  | nil => simp [along] at split
  | cons piece pieces ih =>
    rw [along] at split
    cases before with
    | nil =>
      rw [List.nil_append] at split
      exact ⟨[], piece, pieces, rfl, rfl, (List.cons.inj split).1.symm⟩
    | cons other before =>
      obtain ⟨same, further⟩ := List.cons.inj split
      obtain ⟨first, own, rest, whole, earlier, found⟩ := ih further
      refine ⟨piece :: first, own, rest, ?_, ?_, ?_⟩
      · rw [whole, List.cons_append]
      · rw [along, ← earlier, same]
      · rw [found, source_cons, Position.past_append]

theorem values_along (position : Position) (pieces : List Piece) :
    (along Position.past tokenAt position pieces).flatMap (fun token => token.value.toList) = source pieces := by
  induction pieces generalizing position with
  | nil => rfl
  | cons piece pieces ih =>
    rw [along, List.flatMap_cons, ih, source_cons, tokenAt]
    exact congrArg (· ++ source pieces) String.toList_ofList

theorem ordered_along (position : Position) {pieces : List Piece} (some_text : ∀ piece ∈ pieces, piece.text ≠ []) :
    (along Position.past tokenAt position pieces).Pairwise
      fun first second => first.position.Precedes second.position := by
  induction pieces generalizing position with
  | nil => exact .nil
  | cons piece pieces ih =>
    have here := some_text piece List.mem_cons_self
    refine List.pairwise_cons.2 ⟨?_, ih _ fun other member => some_text other (List.mem_cons_of_mem piece member)⟩
    intro token member
    obtain ⟨before, other, -, same⟩ := (mem_along steady_past).1 member
    rw [same]
    change position.Precedes ((position.past piece.text).past before)
    rw [← Position.past_append]
    exact position.precedes_past (by simp [here])

theorem placed {pieces : List Piece} (some_text : ∀ piece ∈ pieces, piece.text ≠ []) :
    Token.Placed (String.ofList (source pieces)) (Token.ofPieces pieces) := by
  rw [ofPieces_eq]
  constructor
  · intro before token after split
    obtain ⟨first, piece, rest, whole, earlier, found⟩ := exists_pieces split
    have passed : (String.ofList (source pieces)).toList.take (source first).length = source first := by
      rw [String.toList_ofList, whole, source_append, List.take_left]
    rw [earlier, values_along, found, Position.past_start]
    dsimp only
    rw [passed]
    exact ⟨rfl, rfl⟩
  · intro token member
    obtain ⟨before, piece, stands, same⟩ := (mem_along steady_past).1 member
    obtain ⟨after, whole⟩ := stands.source_eq
    obtain ⟨line, later, lines, fits, behind⟩ := exists_line before (piece.text ++ after)
    rw [same, Position.past_start, String.toList_ofList, whole, tokenAt]
    dsimp only
    rw [Nat.add_sub_cancel, Nat.add_sub_cancel_left, String.toList_ofList]
    exact ⟨line, later, lines, fits, behind ▸ List.prefix_append piece.text after⟩
  · exact ordered_along _ some_text

end Piece

theorem Grammar.placed_tokenize (grammar : Grammar) (code : String) :
    Token.Placed code (grammar.tokenize code) := by
  unfold Grammar.tokenize
  split
  next empty =>
    constructor
    · intro before token after split
      simp at split
    · intro token member
      cases member
    · exact .nil
  next some_code =>
    have tidy := grammar.tidy_claim (toList_ne_nil some_code)
    have placed := Piece.placed tidy.some_text
    rwa [grammar.source_claim, String.ofList_toList] at placed

/-- The tokens of a source, by any grammar and in any language, stand in the lines and columns they name, each
behind the one before it. -/
theorem tokens_are_placed (grammar : Grammar) (language? : Option String) (code : String) :
    Token.Placed code (grammar.tokenize code) ∧ Token.Placed code (tokenize language? code) :=
  ⟨grammar.placed_tokenize code, Grammar.placed_tokenize _ code⟩

/-- Tokens that end with a line feed, hold some, or start with none; a carriage return and a line separator start
no line. -/
theorem tokens_are_placed_across_lines :
    let tokens := tokenize (some "js") "/*\r\n\n*/ 1\u2028\n\n'\n'x"
    tokens.map (fun token => (token.type, token.line, token.column)) =
        [(.comment, 1, 1), (.text, 3, 3), (.number, 3, 4), (.text, 3, 5), (.string, 5, 1), (.text, 6, 2)] ∧
      Token.Placed "/*\r\n\n*/ 1\u2028\n\n'\n'x" tokens := by
  intro tokens
  have stands : tokens.map (fun token => (token.type, token.line, token.column)) =
      [(.comment, 1, 1), (.text, 3, 3), (.number, 3, 4), (.text, 3, 5), (.string, 5, 1), (.text, 6, 2)] := by
    decide +kernel
  exact ⟨stands, (tokens_are_placed [] (some "js") _).2⟩

end CodeColor
