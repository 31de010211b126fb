import CodeColor.Proofs.Claim.Carving
import CodeColor.Proofs.Claim.Rows

/-!
Rows of pieces that are joined. Where the first row ends with free text and the second starts with free text, these
become one piece. What a rule claims in the joined row is what it claims in the two rows, if no match looks across the
seam between them.

Main statements: `Rule.Seam.divide_append` for two free stretches, `Rule.Seam.claimFrom_join` for two rows.
-/

namespace CodeColor

namespace Piece

variable {piece : Piece} {left right row : List Piece} {text gap start : List Char} {type : TokenType}

/-- The piece in front of the row; free text is joined to free text. -/
def attach : Piece → List Piece → List Piece
  | ⟨text, none⟩, ⟨more, none⟩ :: row => ⟨text ++ more, none⟩ :: row
  | piece, row => piece :: row

def join (left right : List Piece) : List Piece :=
  left.foldr attach right

theorem attach_claimed (text : List Char) (type : TokenType) (row : List Piece) :
    attach ⟨text, some type⟩ row = ⟨text, some type⟩ :: row := rfl

theorem attach_free (text more : List Char) (row : List Piece) :
    attach ⟨text, none⟩ (⟨more, none⟩ :: row) = ⟨text ++ more, none⟩ :: row := rfl

theorem attach_eq_cons (apart : ∀ first ∈ row.head?, first.type? ≠ none) (piece : Piece) :
    attach piece row = piece :: row := by
  obtain ⟨text, type?⟩ := piece
  cases type? with
  | some type => rfl
  | none =>
    cases row with
    | nil => rfl
    | cons first row =>
      obtain ⟨more, type?⟩ := first
      cases type? with
      | some type => rfl
      | none => exact absurd rfl (apart ⟨more, none⟩ rfl)

theorem attach_ne_nil (piece : Piece) (row : List Piece) : attach piece row ≠ [] := by
  unfold attach
  split <;> exact List.cons_ne_nil _ _

theorem attach_append (some_row : row ≠ []) (piece : Piece) (more : List Piece) :
    attach piece (row ++ more) = attach piece row ++ more := by
  obtain ⟨text, type?⟩ := piece
  obtain ⟨first, row, rfl⟩ := List.exists_cons_of_ne_nil some_row
  obtain ⟨next, other?⟩ := first
  cases type? <;> cases other? <;> rfl

theorem source_attach (piece : Piece) (row : List Piece) : source (attach piece row) = piece.text ++ source row := by
  unfold attach
  split
  · rw [source_cons, source_cons, List.append_assoc]
  · exact source_cons piece row

theorem join_nil_left (right : List Piece) : join [] right = right := rfl

theorem join_cons (piece : Piece) (left right : List Piece) :
    join (piece :: left) right = attach piece (join left right) := rfl

theorem join_append (first second right : List Piece) :
    join (first ++ second) right = join first (join second right) := List.foldr_append

theorem join_ne_nil (some_right : right ≠ []) (left : List Piece) : join left right ≠ [] := by
  cases left with
  | nil => exact some_right
  | cons piece left => exact attach_ne_nil piece _

theorem join_append_right (some_right : right ≠ []) (left more : List Piece) :
    join left (right ++ more) = join left right ++ more := by
  induction left with
  | nil => rfl
  | cons piece left ih => rw [join_cons, join_cons, ih, attach_append (join_ne_nil some_right left)]

theorem Tidy.attach (tidy : Tidy row) (some_text : piece.text ≠ []) : Tidy (attach piece row) := by
  obtain ⟨text, type?⟩ := piece
  cases type? with
  | some type => exact tidy.cons_claimed some_text
  | none =>
    cases row with
    | nil => exact tidy_singleton some_text
    | cons first row =>
      obtain ⟨more, type?⟩ := first
      have single : Tidy [⟨text, none⟩] := tidy_singleton some_text
      cases type? with
      | some type => exact single.append tidy
      | none =>
        have longer : text ++ more ≠ [] := List.append_ne_nil_of_left_ne_nil some_text more
        have joined : Tidy [⟨text ++ more, none⟩] := tidy_singleton longer
        rw [attach_free]
        rcases tidy.behind_free with rfl | ⟨next, type, later, rfl⟩
        · exact joined
        · exact joined.append tidy.tail

theorem Tidy.join (tidy : Tidy right) (some_text : ∀ piece ∈ left, piece.text ≠ []) : Tidy (join left right) := by
  induction left with
  | nil => exact tidy
  | cons piece left ih =>
    obtain ⟨first, others⟩ := List.forall_mem_cons.1 some_text
    exact (ih others).attach first

theorem Tidy.join_eq_append (tidy : Tidy left) (apart : ∀ first ∈ right.head?, first.type? ≠ none) :
    Piece.join left right = left ++ right := by
  induction left with
  | nil => rfl
  | cons piece left ih =>
    rw [join_cons, ih tidy.tail, List.cons_append]
    obtain ⟨text, type?⟩ := piece
    cases type? with
    | some type => rfl
    | none =>
      apply attach_eq_cons
      rcases tidy.behind_free with rfl | ⟨next, type, later, rfl⟩
      · exact apart
      · rintro first ⟨⟩
        exact Option.some_ne_none type

theorem Tidy.join_claimed (tidy : Tidy left) (text : List Char) (type : TokenType) (row : List Piece) :
    Piece.join left (⟨text, some type⟩ :: row) = left ++ ⟨text, some type⟩ :: row := by
  apply tidy.join_eq_append
  rintro first ⟨⟩
  exact Option.some_ne_none type

theorem Tidy.join_nil (tidy : Tidy left) : Piece.join left [] = left := by
  rw [tidy.join_eq_append (by simp), List.append_nil]

theorem join_free (apart : ∀ first ∈ row.head?, first.type? ≠ none) (gap more : List Char) :
    join (free gap []) (free more [] ++ row) = free (gap ++ more) [] ++ row := by
  cases gap with
  | nil => rfl
  | cons c gap =>
    cases more with
    | nil =>
      rw [List.append_nil]
      exact attach_eq_cons apart ⟨c :: gap, none⟩
    | cons d more => rfl

theorem claimed_of_head? (text : List Char) (type : TokenType) (row : List Piece) :
    ∀ first ∈ (⟨text, some type⟩ :: row).head?, first.type? ≠ none := by
  rintro first ⟨⟩
  exact Option.some_ne_none type

/-! Joining moves no claimed piece. -/

theorem stands_behind_free :
    Stands ⟨text, some type⟩ start (⟨gap, none⟩ :: row) ↔
      ∃ rest, start = gap ++ rest ∧ Stands ⟨text, some type⟩ rest row := by
  rw [stands_cons_iff]
  simp only [mk.injEq, reduceCtorEq, and_false, false_or]

theorem stands_attach_iff :
    Stands ⟨text, some type⟩ start (attach piece row) ↔ Stands ⟨text, some type⟩ start (piece :: row) := by
  obtain ⟨own, type?⟩ := piece
  cases type? with
  | some other => rfl
  | none =>
    cases row with
    | nil => rfl
    | cons first row =>
      obtain ⟨more, type?⟩ := first
      cases type? with
      | some other => rfl
      | none =>
        simp only [attach_free, stands_behind_free]
        constructor
        · rintro ⟨rest, rfl, stands⟩
          exact ⟨more ++ rest, List.append_assoc _ _ _, rest, rfl, stands⟩
        · rintro ⟨-, rfl, rest, rfl, stands⟩
          exact ⟨rest, (List.append_assoc _ _ _).symm, stands⟩

theorem stands_append_iff :
    piece.Stands start (left ++ right) ↔
      piece.Stands start left ∨ ∃ rest, start = source left ++ rest ∧ piece.Stands rest right := by
  constructor
  · exact Stands.of_append
  · rintro (inside | ⟨rest, rfl, behind⟩)
    · exact inside.append_left right
    · exact behind.append_right left

theorem stands_join_iff :
    Stands ⟨text, some type⟩ start (join left right) ↔ Stands ⟨text, some type⟩ start left ∨
      ∃ rest, start = source left ++ rest ∧ Stands ⟨text, some type⟩ rest right := by
  induction left generalizing start with
  | nil =>
    constructor
    · exact fun stands => .inr ⟨start, rfl, stands⟩
    · rintro (nowhere | ⟨rest, rfl, stands⟩)
      · cases nowhere
      · exact stands
  | cons piece left ih =>
    rw [join_cons, stands_attach_iff, stands_cons_iff, stands_cons_iff, source_cons]
    simp only [ih]
    constructor
    · rintro (here | ⟨rest, rfl, inside | ⟨more, rfl, behind⟩⟩)
      · exact .inl (.inl here)
      · exact .inl (.inr ⟨rest, rfl, inside⟩)
      · exact .inr ⟨more, (List.append_assoc _ _ _).symm, behind⟩
    · rintro ((here | ⟨rest, rfl, inside⟩) | ⟨more, rfl, behind⟩)
      · exact .inl here
      · exact .inr ⟨rest, rfl, .inl inside⟩
      · exact .inr ⟨source left ++ more, List.append_assoc _ _ _, .inr ⟨more, rfl, behind⟩⟩

end Piece

namespace Rule

open Piece

variable {rule : Rule} {before gap front rest text : List Char} {pieces others : List Piece}

/-! ## Stretches -/

theorem Cuts.behind_gap (missed : rule.Misses before gap text) (cuts : rule.Cuts (gap.reverse ++ before) text pieces) :
    rule.Cuts before (gap ++ text) (join (free gap []) pieces) := by
  cases cuts with
  | rest further =>
    have longer : rule.Misses before (gap ++ text) [] := misses_append.2 ⟨by rwa [List.append_nil], further⟩
    have apart : ∀ first ∈ ([] : List Piece).head?, first.type? ≠ none := fun _ member => by cases member
    have joined : join (free gap []) (free text []) = free (gap ++ text) [] := by
      simpa only [List.append_nil] using join_free apart gap text
    rw [joined]
    exact .rest longer
  | @found _ more claimed rest pieces further some_text matched onward =>
    have longer : rule.Misses before (gap ++ more) (claimed ++ rest) := misses_append.2 ⟨missed, further⟩
    rw [join_free (claimed_of_head? claimed rule.type pieces), ← List.append_assoc]
    rw [← List.append_assoc, ← List.reverse_append] at matched
    rw [← List.append_assoc more.reverse, ← List.reverse_append] at onward
    exact .found longer some_text matched onward

theorem Misses.divide_append (missed : rule.Misses before gap text) :
    rule.divide before ⟨gap ++ text, none⟩ =
      join (free gap []) (rule.divide (gap.reverse ++ before) ⟨text, none⟩) :=
  ((rule.cuts_cut _ text).behind_gap missed).eq_divide.symm

/-- In front of the seam the rule matches what it would match if the text ended there, or anywhere behind the seam. -/
def Seam (rule : Rule) (front rest : List Char) : Prop :=
  ∀ before c later more, c :: later <:+ front → more <+: rest →
    rule.pattern.matchLength? before (c :: later ++ more) = rule.pattern.matchLength? before (c :: later)

theorem Seam.mono {large long : List Char} (seam : rule.Seam large long) (inside : front <:+ large)
    (leads : rest <+: long) : rule.Seam front rest :=
  fun before c later more last first => seam before c later more (last.trans inside) (first.trans leads)

theorem Seam.misses (seam : rule.Seam (gap ++ text) rest) (missed : rule.Misses before gap text) :
    rule.Misses before gap (text ++ rest) := by
  intro passed c later split
  have last : c :: (later ++ text) <:+ gap ++ text := ⟨passed, by rw [split]; simp⟩
  have same := seam (passed.reverse ++ before) c (later ++ text) rest last (List.prefix_rfl)
  rw [List.cons_append, List.append_assoc] at same
  exact same.trans (missed passed c later split)

theorem Cuts.join (seam : rule.Seam front rest) (cuts : rule.Cuts before front pieces)
    (onward : rule.Cuts (front.reverse ++ before) rest others) :
    rule.Cuts before (front ++ rest) (Piece.join pieces others) := by
  induction cuts with
  | @rest before gap missed =>
    have whole : rule.Misses before gap ([] ++ rest) := by
      rw [← List.append_nil gap] at seam
      exact seam.misses missed
    exact onward.behind_gap whole
  | @found before gap claimed more pieces missed some_text matched _ ih =>
    have further : more <:+ gap ++ (claimed ++ more) := ⟨gap ++ claimed, List.append_assoc _ _ _⟩
    have behind : rule.Cuts (more.reverse ++ (claimed.reverse ++ (gap.reverse ++ before))) rest others := by
      simpa using onward
    have longer : rule.Misses before gap (claimed ++ (more ++ rest)) := by
      rw [← List.append_assoc]
      exact seam.misses missed
    have found : rule.pattern.matchLength? (gap.reverse ++ before) (claimed ++ (more ++ rest)) =
        some claimed.length := by
      obtain ⟨c, claimed, rfl⟩ := List.exists_cons_of_ne_nil some_text
      have same := seam (gap.reverse ++ before) c (claimed ++ more) rest ⟨gap, rfl⟩ List.prefix_rfl
      rw [List.cons_append, List.append_assoc] at same
      exact same.trans matched
    have placed := Cuts.found longer some_text found (ih (seam.mono further List.prefix_rfl) behind)
    rw [Piece.join_append, join_cons, attach_claimed, (tidy_free gap).join_claimed]
    simpa using placed

theorem Seam.divide_append (seam : rule.Seam front rest) (before : List Char) :
    rule.divide before ⟨front ++ rest, none⟩ =
      join (rule.divide before ⟨front, none⟩) (rule.divide (front.reverse ++ before) ⟨rest, none⟩) := by
  have cuts := (rule.cuts_cut before front).join seam (rule.cuts_cut (front.reverse ++ before) rest)
  exact cuts.eq_divide.symm

/-! ## Rows -/

theorem divide_ne_nil (some_text : text ≠ []) (rule : Rule) (before : List Char) :
    rule.divide before ⟨text, none⟩ ≠ [] := by
  intro empty
  have whole := rule.source_divide before ⟨text, none⟩
  rw [empty] at whole
  exact some_text whole.symm

theorem claimFrom_attach {piece : Piece} {row : List Piece} (some_text : ∀ piece ∈ row, piece.text ≠ [])
    (seam : ∀ text more later, piece = ⟨text, none⟩ → row = ⟨more, none⟩ :: later → rule.Seam text more)
    (before : List Char) :
    rule.claimFrom [] before (attach piece row) =
      join (rule.divide before piece) (rule.claimFrom [] (piece.text.reverse ++ before) row) := by
  obtain ⟨text, type?⟩ := piece
  cases type? with
  | some type =>
    rw [attach_claimed, claimFrom_cons]
    rfl
  | none =>
    have tidy : Tidy (rule.divide before ⟨text, none⟩) := (rule.cuts_cut before text).tidy
    cases row with
    | nil => rw [attach_eq_cons (by simp), claimFrom_cons, claimFrom, List.reverse_nil, List.append_nil, tidy.join_nil]
    | cons first row =>
      obtain ⟨more, type?⟩ := first
      cases type? with
      | some type =>
        rw [attach_eq_cons (claimed_of_head? more type row), claimFrom_cons, claimFrom_cons]
        exact (tidy.join_claimed more type _).symm
      | none =>
        have divided := (seam text more row rfl rfl).divide_append before
        have some_more := divide_ne_nil (some_text _ List.mem_cons_self) rule (text.reverse ++ before)
        rw [attach_free, claimFrom_cons, divided, ← join_append_right some_more, claimFrom_cons, List.reverse_append,
          List.append_assoc]

theorem Seam.claimFrom_join {left right : List Piece} (tidy : Tidy left) (also : Tidy right)
    (seam : rule.Seam (source left) (source right)) (before : List Char) :
    rule.claimFrom [] before (join left right) =
      join (rule.claimFrom [] before left) (rule.claimFrom [] ((source left).reverse ++ before) right) := by
  induction left generalizing before with
  | nil => rfl
  | cons piece left ih =>
    rw [source_cons] at seam
    have onward := ih tidy.tail (seam.mono (List.suffix_append piece.text _) List.prefix_rfl)
      (piece.text.reverse ++ before)
    have joined : Tidy (join left right) := also.join tidy.tail.some_text
    rw [join_cons, claimFrom_attach joined.some_text ?between, onward, claimFrom_cons, join_append, source_cons,
      List.reverse_append, List.append_assoc]
    case between =>
      rintro text more later rfl starts
      rcases tidy.behind_free with rfl | ⟨next, type, further, rfl⟩
      · rw [join_nil_left] at starts
        rw [starts, source_nil, source_cons, List.append_nil] at seam
        exact seam.mono List.suffix_rfl (List.prefix_append more _)
      · cases starts

end Rule

end CodeColor
