import CodeColor.Proofs.Claim.Carving

/-!
Rows of pieces that are made of parts. A rule that carves each part, wherever the part stands, carves the row.

Main statements: `Rule.Passes.append`, `Rule.Passes.flatMap` and `Rule.Passes.carves_row`.
-/

namespace CodeColor

open Piece

/-- What is known at a place between two parts: of the text before it, and of the pieces that follow. -/
structure Border where
  behind : List Char → Prop
  ahead : List Piece → Prop

/-- At such a border the rule carves the pieces in front of any row that it carves, and from border to border. -/
structure Rule.Passes (rule : Rule) (seen : List TokenType) (border : Border) (pieces : List Piece) : Prop where
  behind {before : List Char} (start : border.behind before) : border.behind ((source pieces).reverse ++ before)
  ahead {row : List Piece} (rest : border.ahead row) : border.ahead (pieces ++ row)
  carves {before : List Char} {row : List Piece} (start : border.behind before) (rest : border.ahead row)
    (onward : rule.Carves seen ((source pieces).reverse ++ before) row) : rule.Carves seen before (pieces ++ row)

namespace Rule.Passes

variable {rule : Rule} {seen : List TokenType} {border : Border}

theorem nil : rule.Passes seen border [] :=
  ⟨fun start => start, fun rest => rest, fun _ _ onward => onward⟩

theorem past_append (first second : List Piece) (before : List Char) :
    (source (first ++ second)).reverse ++ before = (source second).reverse ++ ((source first).reverse ++ before) := by
  rw [source_append, List.reverse_append, List.append_assoc]

theorem append {first second : List Piece} (left : rule.Passes seen border first)
    (right : rule.Passes seen border second) : rule.Passes seen border (first ++ second) where
  behind start := by
    rw [past_append]
    exact right.behind (left.behind start)
  ahead rest := by
    rw [List.append_assoc]
    exact left.ahead (right.ahead rest)
  carves start rest onward := by
    rw [past_append] at onward
    rw [List.append_assoc]
    apply left.carves start (right.ahead rest)
    exact right.carves (left.behind start) rest onward

theorem flatMap {Part : Type} {pieces : Part → List Piece} {parts : List Part}
    (each : ∀ part ∈ parts, rule.Passes seen border (pieces part)) :
    rule.Passes seen border (parts.flatMap pieces) := by
  induction parts with
  | nil => exact nil
  | cons part parts ih =>
    obtain ⟨first, others⟩ := List.forall_mem_cons.1 each
    rw [List.flatMap_cons]
    exact first.append (ih others)

theorem carves_row {row : List Piece} (passes : rule.Passes seen border row) (start : border.behind [])
    (rest : border.ahead []) : rule.Carves seen [] row := by
  have carves := passes.carves start rest .nil
  rwa [List.append_nil] at carves

end Rule.Passes

end CodeColor
