import CodeColor.Proofs.Claim.Extent

/-!
Texts of which the pieces are known beforehand. The rules of a grammar take the pieces out of the text one type
after the other, and before that the pieces of a type are free text, in one piece with what is free beside them.

Main statements: `Rule.Carves.claim_hide` for one rule, and `Grammar.claim_of_carves` for all of them.
-/

namespace CodeColor

namespace Piece

/-- The piece is claimed for one of the types. -/
def isSeen (seen : List TokenType) (piece : Piece) : Bool :=
  piece.type?.any seen.contains

/-- The row of pieces before any of other types are claimed: they are free text and joined with what is free
beside them. `held` is free text in front of the row. -/
def hide (seen : List TokenType) (held : List Char) : List Piece → List Piece
  | [] => free held []
  | piece :: row =>
    if piece.isSeen seen then free held [] ++ piece :: hide seen [] row
    else hide seen (held ++ piece.text) row

/-- The text in front of the first piece that is claimed for one of the types. -/
def openText (seen : List TokenType) : List Piece → List Char
  | [] => []
  | piece :: row => if piece.isSeen seen then [] else piece.text ++ openText seen row

def behindOpen (seen : List TokenType) : List Piece → List Piece
  | [] => []
  | piece :: row => if piece.isSeen seen then piece :: hide seen [] row else behindOpen seen row

variable {seen : List TokenType}

theorem isSeen_cons_of_eq (type : TokenType) (text : List Char) :
    isSeen (type :: seen) ⟨text, some type⟩ = true := by
  simp [isSeen]

theorem isSeen_cons {piece : Piece} (type : TokenType) (found : piece.isSeen seen = true) :
    piece.isSeen (type :: seen) = true := by
  obtain ⟨text, type?⟩ := piece
  cases type? with
  | none => cases found
  | some other =>
    simp only [isSeen, Option.any_some, List.contains_eq_mem, decide_eq_true_eq] at found ⊢
    exact List.mem_cons_of_mem type found

theorem not_isSeen {piece : Piece} {type : TokenType} (missing : piece.isSeen (type :: seen) = false) :
    piece.isSeen seen = false := by
  cases found : piece.isSeen seen with
  | false => rfl
  | true => rw [isSeen_cons type found] at missing; cases missing

theorem hide_eq (held : List Char) (row : List Piece) :
    hide seen held row = free (held ++ openText seen row) [] ++ behindOpen seen row := by
  induction row generalizing held with
  | nil => rw [hide, openText, behindOpen, List.append_nil, List.append_nil]
  | cons piece row ih =>
    rw [hide, openText, behindOpen]
    split
    · rw [List.append_nil]
    · rw [ih, List.append_assoc]

theorem openText_nil (row : List Piece) : openText [] row = source row := by
  induction row with
  | nil => rfl
  | cons piece row ih =>
    have missing : piece.isSeen [] = false := by
      cases h : piece.type? <;> simp [isSeen, h]
    rw [openText, if_neg (by simp [missing]), ih, source_cons]

theorem behindOpen_nil (row : List Piece) : behindOpen [] row = [] := by
  induction row with
  | nil => rfl
  | cons piece row ih =>
    have missing : piece.isSeen [] = false := by
      cases h : piece.type? <;> simp [isSeen, h]
    rw [behindOpen, if_neg (by simp [missing]), ih]

theorem hide_nil (row : List Piece) : hide [] [] row = free (source row) [] := by
  rw [hide_eq, openText_nil, behindOpen_nil, List.nil_append, List.append_nil]

theorem Stands.hide {piece : Piece} {before : List Char} {row : List Piece}
    (stands : piece.Stands before row) (found : piece.isSeen seen = true) (held : List Char) :
    piece.Stands (held ++ before) (Piece.hide seen held row) := by
  induction stands generalizing held with
  | @here later =>
    have first : piece.Stands [] (piece :: Piece.hide seen [] later) := .here
    have placed := first.append_right (free held [])
    rw [Piece.hide, if_pos found]
    rwa [source_free] at placed
  | behind first _ ih =>
    rw [Piece.hide]
    split
    · have placed := Stands.append_right (free held []) (.behind first (ih []))
      rwa [source_free, List.nil_append] at placed
    · rw [← List.append_assoc]
      exact ih _

end Piece

namespace Rule

open Piece

/-! ## One stretch -/

theorem misses_cons {rule : Rule} {before gap rest : List Char} {c : Char}
    (here : rule.pattern.matchLength? before (c :: (gap ++ rest)) = none)
    (missed : rule.Misses (c :: before) gap rest) : rule.Misses before (c :: gap) rest :=
  misses_append.2 ⟨misses_single.2 here, missed⟩

theorem Misses.tail {rule : Rule} {before gap rest : List Char} {c : Char}
    (missed : rule.Misses before (c :: gap) rest) : rule.Misses (c :: before) gap rest := by
  have split : rule.Misses before ([c] ++ gap) rest := missed
  exact (misses_append.1 split).2

theorem cut_misses {rule : Rule} {before gap rest : List Char} (missed : rule.Misses before gap rest)
    (held : List Char) :
    rule.cut [] before held 0 (gap ++ rest) =
      rule.cut [] (gap.reverse ++ before) (gap.reverse ++ held) 0 rest := by
  induction gap generalizing before held with
  | nil => rfl
  | cons c gap ih =>
    have here : rule.pattern.matchLength? before (c :: (gap ++ rest)) = none := missed [] c gap rfl
    rw [List.cons_append, cut]
    simp only [here]
    rw [ih missed.tail, List.reverse_cons, List.append_assoc, List.append_assoc]
    rfl

theorem cut_matched {rule : Rule} {before text rest : List Char} (some_text : text ≠ [])
    (matched : rule.pattern.matchLength? before (text ++ rest) = some text.length) (held : List Char) :
    rule.cut [] before held 0 (text ++ rest) =
      rule.cut [] (text.reverse ++ before) [] 0 rest ++
        ⟨text, some rule.type⟩ :: free held.reverse [] := by
  obtain ⟨c, text, rfl⟩ := List.exists_cons_of_ne_nil some_text
  rw [List.cons_append] at matched
  have taken : (c :: (text ++ rest)).take (c :: text).length = c :: text := List.take_left
  rw [List.cons_append, cut]
  simp only [matched, taken]
  rw [cut_eq_append, List.length_cons, Nat.add_sub_cancel, cut_owed, List.take_left, List.drop_left,
    List.reverse_cons, List.append_assoc]
  rfl

theorem Cuts.eq_divide {rule : Rule} {before text : List Char} {pieces : List Piece}
    (cuts : rule.Cuts before text pieces) : pieces = rule.divide before ⟨text, none⟩ := by
  induction cuts with
  | @rest before gap missed =>
    have passed := cut_misses missed []
    rw [List.append_nil, List.append_nil, cut, List.reverse_reverse] at passed
    rw [divide_free, passed, reverse_free]
  | @found before gap claimed rest pieces missed some_text matched _ ih =>
    rw [divide_free, cut_misses missed, cut_matched some_text matched, List.append_nil, List.reverse_append,
      List.reverse_cons, List.reverse_reverse, reverse_free, ih, divide_free, List.append_assoc]
    rfl

theorem Misses.divide_eq {rule : Rule} {before text : List Char} (missed : rule.Misses before text []) :
    rule.divide before ⟨text, none⟩ = free text [] :=
  (Cuts.rest missed).eq_divide.symm

/-! ## All stretches -/

/-- In the row of pieces, of which those of the types in `seen` are claimed already, the matches of the rule are
the pieces of its type. -/
inductive Carves (rule : Rule) (seen : List TokenType) : List Char → List Piece → Prop where
  | nil {before : List Char} : Carves rule seen before []
  | seen {before : List Char} {piece : Piece} {row : List Piece} (found : piece.isSeen seen = true)
      (onward : Carves rule seen (piece.text.reverse ++ before) row) :
      Carves rule seen before (piece :: row)
  | matched {before text : List Char} {row : List Piece} (fresh : rule.type ∉ seen) (some_text : text ≠ [])
      (here : rule.pattern.matchLength? before (text ++ openText seen row) = some text.length)
      (onward : Carves rule seen (text.reverse ++ before) row) :
      Carves rule seen before (⟨text, some rule.type⟩ :: row)
  | missed {before : List Char} {piece : Piece} {row : List Piece}
      (other : piece.isSeen (rule.type :: seen) = false)
      (missed : rule.Misses before piece.text (openText seen row))
      (onward : Carves rule seen (piece.text.reverse ++ before) row) :
      Carves rule seen before (piece :: row)

theorem claimFrom_free (rule : Rule) (before text : List Char) (pieces : List Piece) :
    rule.claimFrom [] before (free text [] ++ pieces) =
      (rule.cut [] before [] 0 text).reverse ++ rule.claimFrom [] (text.reverse ++ before) pieces := by
  cases text with
  | nil => rfl
  | cons c text => exact rule.claimFrom_cons before ⟨c :: text, none⟩ pieces

namespace Carves

variable {rule : Rule} {seen : List TokenType} {before : List Char} {row : List Piece}

theorem cut_openText (carves : rule.Carves seen before row) (held : List Char) :
    (rule.cut [] before held.reverse 0 (openText seen row)).reverse ++
        rule.claimFrom [] ((openText seen row).reverse ++ before) (behindOpen seen row) =
      hide (rule.type :: seen) held row := by
  induction carves generalizing held with
  | nil =>
    rw [openText, behindOpen, cut, claimFrom, List.reverse_reverse, hide, reverse_free,
      List.reverse_nil, List.append_nil]
  | @seen before piece row found onward ih =>
    have rest := ih []
    rw [openText, behindOpen, hide, if_pos found, if_pos found, if_pos (isSeen_cons rule.type found),
      cut, List.reverse_reverse, reverse_free, claimFrom_cons, List.reverse_nil, List.nil_append,
      hide_eq, claimFrom_free, List.nil_append, ← rest]
    obtain ⟨text, type?⟩ := piece
    cases type? with
    | none => cases found
    | some type => rfl
  | @matched before text row fresh some_text here onward ih =>
    have missing : isSeen seen ⟨text, some rule.type⟩ = false := by
      simpa [isSeen] using fresh
    have rest := ih []
    rw [List.reverse_nil] at rest
    rw [openText, behindOpen, hide, if_neg (by simp [missing]), if_neg (by simp [missing]),
      if_pos (isSeen_cons_of_eq _ _), cut_matched some_text here, List.reverse_append,
      List.reverse_cons, List.reverse_reverse, reverse_free, ← rest, List.reverse_append]
    simp only [List.append_assoc, List.cons_append, List.nil_append]
  | @missed before piece row other missed onward ih =>
    have missing := not_isSeen other
    have rest := ih (held ++ piece.text)
    rw [List.reverse_append] at rest
    rw [openText, behindOpen, hide, if_neg (by simp [missing]), if_neg (by simp [missing]),
      if_neg (by simp [other]), cut_misses missed, ← rest, List.reverse_append, List.append_assoc]

theorem claim_hide (carves : rule.Carves seen [] row) :
    rule.claim (hide seen [] row) = hide (rule.type :: seen) [] row := by
  have whole := carves.cut_openText []
  rw [claim, hide_eq, claimFrom_free, List.nil_append, ← whole]
  rfl

end Carves

end Rule

namespace Grammar

open Piece

/-- Each rule in turn takes the pieces of its type. -/
def Carves (seen : List TokenType) (row : List Piece) : Grammar → Prop
  | [] => True
  | rule :: rules => rule.Carves seen [] row ∧ Carves (rule.type :: seen) row rules

theorem foldl_of_carves {seen : List TokenType} {row : List Piece} {rules : Grammar}
    (carves : rules.Carves seen row) :
    rules.foldl (fun pieces rule => rule.claim pieces) (hide seen [] row) =
      hide ((rules.map Rule.type).reverse ++ seen) [] row := by
  induction rules generalizing seen with
  | nil => rfl
  | cons rule rules ih =>
    rw [List.foldl_cons, carves.1.claim_hide, ih carves.2, List.map_cons, List.reverse_cons,
      List.append_assoc]
    rfl

theorem claim_of_carves {row : List Piece} {rules : Grammar} (some_text : source row ≠ [])
    (carves : rules.Carves [] row) :
    rules.claim (source row) = hide (rules.map Rule.type).reverse [] row := by
  have whole : free (source row) [] = [⟨source row, none⟩] := by
    obtain ⟨c, text, same⟩ := List.exists_cons_of_ne_nil some_text
    rw [same]
    rfl
  rw [claim, ← whole, ← hide_nil, foldl_of_carves carves, List.append_nil]

end Grammar

end CodeColor
