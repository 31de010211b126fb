import CodeColor.Claim.Source

/-!
What one rule does to a text in pieces: claimed pieces stay, and a free piece is cut at the leftmost
matches.

Main statements: `Rule.claimFrom_cons`, which goes piece by piece, and `Rule.cuts_cut`, which says how a free
piece is cut.
-/

namespace CodeColor

namespace Piece

theorem free_cons (c : Char) (held : List Char) (done : List Piece) :
    free (c :: held) done = ⟨c :: held, none⟩ :: done := rfl

theorem reverse_free (held : List Char) : (free held []).reverse = free held [] := by
  cases held <;> rfl

end Piece

namespace Rule

/-! ## Piece by piece -/

/-- What the rule makes of a piece that stands behind `before`. -/
def divide (rule : Rule) (before : List Char) (piece : Piece) : List Piece :=
  match piece.type? with
  | some _ => [piece]
  | none => (rule.cut [] before [] 0 piece.text).reverse

theorem divide_free (rule : Rule) (before text : List Char) :
    rule.divide before ⟨text, none⟩ = (rule.cut [] before [] 0 text).reverse := rfl

theorem source_divide (rule : Rule) (before : List Char) (piece : Piece) :
    Piece.source (rule.divide before piece) = piece.text := by
  obtain ⟨text, type?⟩ := piece
  cases type? with
  | some type => exact List.append_nil text
  | none =>
    rw [divide_free, source_cut _ _ _ _ _ (Nat.zero_le _)]
    rfl

theorem claimFrom_eq_append (rule : Rule) (done : List Piece) (before : List Char)
    (pieces : List Piece) :
    rule.claimFrom done before pieces = done.reverse ++ rule.claimFrom [] before pieces := by
  induction pieces generalizing done before with
  | nil => simp [claimFrom]
  | cons piece pieces ih =>
    obtain ⟨text, type?⟩ := piece
    cases type? with
    | some type =>
      simp only [claimFrom]
      rw [ih (_ :: done), ih [_]]
      simp
    | none =>
      simp only [claimFrom]
      rw [ih, ih (rule.cut [] before [] 0 text), cut_eq_append, List.reverse_append,
        List.append_assoc]

theorem claimFrom_cons (rule : Rule) (before : List Char) (piece : Piece) (pieces : List Piece) :
    rule.claimFrom [] before (piece :: pieces) =
      rule.divide before piece ++ rule.claimFrom [] (piece.text.reverse ++ before) pieces := by
  rw [claimFrom, claimFrom_eq_append]
  obtain ⟨text, type?⟩ := piece
  cases type? <;> rfl

/-! ## The cuts in a free piece -/

theorem cut_owed (rule : Rule) (done : List Piece) (before held : List Char) (owed : Nat)
    (after : List Char) :
    rule.cut done before held owed after =
      rule.cut done ((after.take owed).reverse ++ before) held 0 (after.drop owed) := by
  induction after generalizing before owed with
  | nil => simp [cut]
  | cons c after ih =>
    cases owed with
    | zero => rfl
    | succ owed =>
      rw [cut, ih, List.take_succ_cons, List.drop_succ_cons, List.reverse_cons, List.append_assoc]
      rfl

/-- No match of the rule starts in the gap, which stands behind `before` and in front of `rest`. -/
def Misses (rule : Rule) (before gap rest : List Char) : Prop :=
  ∀ passed c later, gap = passed ++ c :: later →
    rule.pattern.matchLength? (passed.reverse ++ before) (c :: later ++ rest) = none

theorem misses_nil (rule : Rule) (before rest : List Char) : rule.Misses before [] rest := by
  intro passed c later split
  simp at split

theorem misses_single {rule : Rule} {before rest : List Char} {c : Char} :
    rule.Misses before [c] rest ↔ rule.pattern.matchLength? before (c :: rest) = none := by
  constructor
  · intro missed
    exact missed [] c [] rfl
  · intro here passed d later split
    cases passed with
    | nil =>
      cases split
      exact here
    | cons e passed => simp at split

theorem misses_append {rule : Rule} {before gap more rest : List Char} :
    rule.Misses before (gap ++ more) rest ↔
      rule.Misses before gap (more ++ rest) ∧ rule.Misses (gap.reverse ++ before) more rest := by
  constructor
  · intro missed
    constructor
    · intro passed c later split
      have here := missed passed c (later ++ more) (by rw [split, List.append_assoc]; rfl)
      simpa using here
    · intro passed c later split
      have here := missed (gap ++ passed) c later (by rw [split, List.append_assoc])
      simpa using here
  · intro ⟨first, second⟩ passed c later split
    rcases List.append_eq_append_iff.1 split with ⟨further, rfl, behind⟩ | ⟨within, rfl, behind⟩
    · have here := second further c later behind
      simpa using here
    · cases within with
      | nil =>
        have here := second [] c later (by simpa using behind.symm)
        simpa using here
      | cons d within =>
        obtain ⟨rfl, rfl⟩ := List.cons.inj behind
        have here := first passed c within rfl
        simpa using here

theorem misses_snoc {rule : Rule} {before gap rest : List Char} {c : Char}
    (missed : rule.Misses before gap (c :: rest))
    (here : rule.pattern.matchLength? (gap.reverse ++ before) (c :: rest) = none) :
    rule.Misses before (gap ++ [c]) rest :=
  misses_append.2 ⟨missed, misses_single.2 here⟩

/-- The pieces of the free text `gap ++ …` behind `before`: the gaps, in which no match starts, and between
them the matches. -/
inductive Cuts (rule : Rule) : List Char → List Char → List Piece → Prop where
  | rest {before gap : List Char} (missed : rule.Misses before gap []) :
      Cuts rule before gap (Piece.free gap [])
  | found {before gap claimed rest : List Char} {pieces : List Piece}
      (missed : rule.Misses before gap (claimed ++ rest)) (some_text : claimed ≠ [])
      (matched : rule.pattern.matchLength? (gap.reverse ++ before) (claimed ++ rest) =
        some claimed.length)
      (onward : Cuts rule (claimed.reverse ++ (gap.reverse ++ before)) rest pieces) :
      Cuts rule before (gap ++ (claimed ++ rest))
        (Piece.free gap [] ++ ⟨claimed, some rule.type⟩ :: pieces)

theorem exists_further {rule : Rule} {before after : List Char} {c : Char} {length : Nat}
    (found : rule.pattern.matchLength? before (c :: after) = some length) :
    ∃ further rest, after = further ++ rest ∧ length = further.length + 1 := by
  have positive := Pattern.matchLength?_pos found
  have bounded := Pattern.matchLength?_le found
  rw [List.length_cons] at bounded
  refine ⟨after.take (length - 1), after.drop (length - 1), (List.take_append_drop _ _).symm, ?_⟩
  rw [List.length_take]
  omega

theorem cuts_held (rule : Rule) (start held after : List Char)
    (missed : rule.Misses start held.reverse after) :
    rule.Cuts start (held.reverse ++ after) (rule.cut [] (held ++ start) held 0 after).reverse := by
  -- A match is passed over in one go, so the induction is on the length of what is left.
  induction size : after.length using Nat.strongRecOn generalizing start held after with
  | ind total ih =>
    cases after with
    | nil =>
      rw [cut, Piece.reverse_free, List.append_nil]
      exact .rest missed
    | cons c after =>
      rw [List.length_cons] at size
      rw [cut]
      split
      next absent =>
        have longer : rule.Misses start (c :: held).reverse after := by
          rw [List.reverse_cons]
          exact misses_snoc missed (by rwa [List.reverse_reverse])
        have onward := ih after.length (by omega) start (c :: held) after longer rfl
        rw [List.reverse_cons, List.append_assoc] at onward
        exact onward
      next length present =>
        obtain ⟨further, rest, rfl, rfl⟩ := exists_further present
        have shorter : rest.length < total := by
          rw [List.length_append] at size
          omega
        have onward := ih rest.length shorter ((c :: further).reverse ++ (held ++ start)) [] rest
          (misses_nil _ _ _) rfl
        have taken : (c :: (further ++ rest)).take (further.length + 1) = c :: further := by
          rw [List.take_succ_cons, List.take_left]
        have passed : rule.cut [] (c :: (held ++ start)) [] further.length (further ++ rest) =
            rule.cut [] ((c :: further).reverse ++ (held ++ start)) [] 0 rest := by
          rw [cut_owed, List.take_left, List.drop_left, List.reverse_cons, List.append_assoc]
          rfl
        rw [cut_eq_append, Nat.add_sub_cancel, passed, taken, List.reverse_append, List.reverse_cons,
          Piece.reverse_free, List.append_assoc]
        change rule.Cuts start (held.reverse ++ ((c :: further) ++ rest)) _
        refine .found missed (List.cons_ne_nil c further) ?_ ?_
        · rwa [List.reverse_reverse]
        · rwa [List.reverse_reverse]

theorem cuts_cut (rule : Rule) (before text : List Char) :
    rule.Cuts before text (rule.cut [] before [] 0 text).reverse :=
  cuts_held rule before [] text (misses_nil rule before text)

end Rule

end CodeColor
