import CodeColor.Proofs.Claim.Division
import CodeColor.Proofs.Pattern.Mark

/-!
Text in which no match of a rule starts: because of the characters in it, or because a match would have to reach a mark
that it cannot reach.

Main statements: `Rule.misses_of_opensAt` and `Rule.misses_of_leadsTo`.
-/

namespace CodeColor.Rule

open Pattern

variable {rule : Rule} {before gap rest : List Char}

theorem misses_of_opensAt {set : CharSet} (opens : rule.pattern.OpensAt set)
    (outside : ∀ c ∈ gap, set c = false) (before rest : List Char) : rule.Misses before gap rest := by
  intro passed c later split
  have out := outside c (by simp [split])
  exact opens.matchLength?_eq_none _ out

theorem misses_mark {set : CharSet} (opens : rule.pattern.OpensAt set) {c : Char} (out : set c = false)
    (before rest : List Char) : rule.Misses before [c] rest :=
  misses_single.2 (opens.matchLength?_eq_none before out)

theorem misses_of_leadsTo {front : Pattern} {set : CharSet} {mark : Char}
    (same : rule.pattern = front ++ .literal [mark]) (only : front.TakesOnly set) (absent : mark ∉ gap)
    (blocked : leadsTo set mark rest = false) (before : List Char) : rule.Misses before gap rest := by
  intro passed c later split
  apply Option.eq_none_iff_forall_ne_some.2
  intro length found
  rw [same] at found
  have further : mark ∉ c :: later := fun member => absent (by rw [split]; exact List.mem_append_right _ member)
  have leads := leadsTo_of_append further (leadsTo_of_matchLength? only found)
  exact Bool.false_ne_true (blocked.symm.trans leads)

theorem misses_of_no_opener {opener closer : String}
    (same : rule.pattern = Language.Lexeme.enclosedComment opener closer)
    (absent : ∀ passed c later, gap = passed ++ c :: later → ¬ opener.toList <+: c :: later ++ rest)
    (before : List Char) : rule.Misses before gap rest := by
  intro passed c later split
  rw [same, matchLength?_eq_run, Language.Lexeme.enclosedComment, run_append, run_append, exactly,
    run_literal_absent (absent passed c later split)]
  rfl

end CodeColor.Rule
