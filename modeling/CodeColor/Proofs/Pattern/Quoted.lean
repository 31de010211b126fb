import CodeColor.Language.Lexeme
import CodeColor.Proofs.Pattern.Run

/-!
Text between quotes, without escapes, or where a backslash takes the next character with it.

Main statements: `quoted_match` and `escapedString_match`.
-/

namespace CodeColor

/-- What may stand between two quotes: characters other than the quote and the backslash, and pairs of a backslash
and a character of the same line. -/
inductive Body (quote : Char) : List Char → Prop
  | nil : Body quote []
  | plain {c : Char} {content : List Char} (other : c ≠ quote ∧ c ≠ '\\') (onward : Body quote content) :
      Body quote (c :: content)
  | escape {c : Char} {content : List Char} (same_line : c ≠ '\n') (onward : Body quote content) :
      Body quote ('\\' :: c :: content)

namespace Body

variable {quote c : Char} {content : List Char}

theorem plain_iff (other : c ≠ quote ∧ c ≠ '\\') : Body quote (c :: content) ↔ Body quote content := by
  constructor
  · intro body
    cases body with
    | plain _ onward => exact onward
    | escape => exact absurd rfl other.2
  · exact .plain other

theorem escape_iff : Body quote ('\\' :: c :: content) ↔ c ≠ '\n' ∧ Body quote content := by
  constructor
  · intro body
    cases body with
    | plain other => exact absurd rfl other.2
    | escape same_line onward => exact ⟨same_line, onward⟩
  · exact fun pair => .escape pair.1 pair.2

end Body

theorem Cursor.bodyStops_body {quote : Char} (no_escape : quote ≠ '\\') {content : List Char}
    (body : Body quote content) (found : List Cursor) (before rest : List Char) (taken : Nat) :
    ∃ nearer, bodyStops quote found before taken (content ++ quote :: rest) =
      ⟨content.reverse ++ before, quote :: rest, taken + content.length⟩ :: nearer := by
  induction body generalizing found before taken with
  | nil =>
    cases rest with
    | nil => exact ⟨found, by simp [bodyStops]⟩
    | cons c rest => exact ⟨found, by simp [bodyStops, no_escape]⟩
  | @plain c content other _ ih =>
    obtain ⟨nearer, places⟩ := ih (⟨before, c :: (content ++ quote :: rest), taken⟩ :: found)
      (c :: before) (taken + 1)
    refine ⟨nearer, ?_⟩
    have size : taken + 1 + content.length = taken + (c :: content).length := by
      rw [List.length_cons]
      omega
    rw [List.reverse_cons, List.append_assoc, ← size]
    refine Eq.trans ?_ places
    obtain ⟨d, after, split⟩ : ∃ d after, content ++ quote :: rest = d :: after :=
      List.exists_cons_of_ne_nil (by simp)
    rw [List.cons_append, split, bodyStops, if_neg other.2, if_neg other.1]
  | @escape c content same_line _ ih =>
    obtain ⟨nearer, places⟩ := ih (⟨before, '\\' :: c :: (content ++ quote :: rest), taken⟩ :: found)
      (c :: '\\' :: before) (taken + 2)
    refine ⟨nearer, ?_⟩
    have size : taken + 2 + content.length = taken + ('\\' :: c :: content).length := by
      rw [List.length_cons, List.length_cons]
      omega
    rw [List.reverse_cons, List.reverse_cons, List.append_assoc, List.append_assoc, ← size]
    refine Eq.trans ?_ places
    rw [List.cons_append, List.cons_append, bodyStops, if_pos rfl, if_neg same_line]

theorem Pattern.escapedString_match {quote : Char} (no_escape : quote ≠ '\\') {content : List Char}
    (body : Body quote content) (before rest : List Char) :
    (Language.Lexeme.escapedString quote).matchLength? before (quote :: (content ++ quote :: rest)) =
      some (content.length + 2) := by
  obtain ⟨nearer, places⟩ := Cursor.bodyStops_body no_escape body [] (quote :: before) rest 1
  have closed : (literal [quote]).run accept
      ⟨content.reverse ++ quote :: before, quote :: rest, 1 + content.length⟩ =
      some ⟨quote :: (content.reverse ++ quote :: before), rest, 1 + content.length + 1⟩ := by
    refine (run_literal [quote] _ rest _).trans (accept_eq_some ?_)
    exact Nat.succ_ne_zero _
  have whole : (Language.Lexeme.escapedString quote).run accept
      ⟨before, quote :: (content ++ quote :: rest), 0⟩ =
      some ⟨quote :: (content.reverse ++ quote :: before), rest, 1 + content.length + 1⟩ := by
    refine (run_literal [quote] before (content ++ quote :: rest) 0).trans ?_
    change (Cursor.bodyStops quote [] (quote :: before) 1 (content ++ quote :: rest)).findSome? _ = _
    rw [places, List.findSome?_cons, closed]
  rw [matchLength?_eq_run, whole, Option.map_some, Nat.add_assoc, Nat.add_comm 1, Nat.add_assoc]

namespace Pattern

theorem escapedString_opensAt (quote : Char) : (Language.Lexeme.escapedString quote).OpensAt (.among [quote]) :=
  ((OpensAt.literal (by simp [CharSet.among]) []).append _).append _

theorem plainString_opensAt : Language.Lexeme.plainString.OpensAt (.among ['"', '\x27']) := by
  have opens : ∀ {quote : Char}, CharSet.among ['"', '\x27'] quote = true →
      (Language.Lexeme.quoted quote).OpensAt (.among ['"', '\x27']) :=
    fun inside => ((OpensAt.literal inside []).append _).append _
  exact (opens rfl).or (opens rfl)

theorem quoted_match {quote : Char} {content : List Char} (plain : quote ∉ content) (before rest : List Char) :
    (Language.Lexeme.quoted quote).matchLength? before (quote :: (content ++ quote :: rest)) =
      some (content.length + 2) := by
  have inside : ∀ c ∈ content, CharSet.except [quote] c = true := by
    intro c member
    have other : c ≠ quote := fun same => plain (same ▸ member)
    simp [CharSet.except, other]
  have stops : startsIn (.except [quote]) (quote :: rest) = false := by simp [startsIn, CharSet.except]
  have closed : (literal [quote]).run accept
      ⟨content.reverse ++ quote :: before, quote :: rest, 1 + content.length⟩ =
      some ⟨quote :: (content.reverse ++ quote :: before), rest, 1 + content.length + 1⟩ :=
    (run_literal [quote] _ rest _).trans (accept_eq_some (Nat.succ_ne_zero _))
  have whole : (Language.Lexeme.quoted quote).run accept ⟨before, quote :: (content ++ quote :: rest), 0⟩ =
      some ⟨quote :: (content.reverse ++ quote :: before), rest, 1 + content.length + 1⟩ :=
    (run_literal [quote] before (content ++ quote :: rest) 0).trans
      (run_many_greedy inside stops (quote :: before) 1 closed)
  rw [matchLength?_eq_run, whole, Option.map_some, Nat.add_comm 1, Nat.add_assoc]

end Pattern

end CodeColor
