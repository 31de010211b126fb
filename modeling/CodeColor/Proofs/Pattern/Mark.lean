import CodeColor.Proofs.Pattern.Spelling

/-!
Patterns that go through characters of one set up to a mark, such as a name with the brace behind it. Where no such
characters lead to the mark, they do not match.

Main statement: `Pattern.leadsTo_of_matchLength?`.
-/

namespace CodeColor

/-- At the start of the text are characters of the set, if any, and behind them is the mark. -/
def leadsTo (set : CharSet) (mark : Char) : List Char → Bool
  | [] => false
  | c :: text => c == mark || (set c && leadsTo set mark text)

section

variable {set : CharSet} {mark : Char}

theorem leadsTo_mark {run : List Char} (inside : ∀ c ∈ run, set c = true) (rest : List Char) :
    leadsTo set mark (run ++ mark :: rest) = true := by
  induction run with
  | nil => simp [leadsTo]
  | cons c run ih =>
    obtain ⟨first, others⟩ := List.forall_mem_cons.1 inside
    simp [leadsTo, first, ih others]

theorem leadsTo_of_append {gap rest : List Char} (absent : mark ∉ gap)
    (leads : leadsTo set mark (gap ++ rest) = true) : leadsTo set mark rest = true := by
  induction gap with
  | nil => exact leads
  | cons c gap ih =>
    obtain ⟨other, further⟩ := List.ne_and_not_mem_of_not_mem_cons absent
    simp only [List.cons_append, leadsTo, Bool.or_eq_true, beq_iff_eq, Bool.and_eq_true] at leads
    apply ih further
    exact (leads.resolve_left (Ne.symm other)).2

theorem leadsTo_of_not_mem {text : List Char} (absent : mark ∉ text) : leadsTo set mark text = false := by
  apply Bool.eq_false_iff.2
  intro leads
  rw [← List.append_nil text] at leads
  cases leadsTo_of_append absent leads

theorem leadsTo_cons_of_not {c : Char} (out : set c = false) (other : c ≠ mark) (text : List Char) :
    leadsTo set mark (c :: text) = false := by
  simp [leadsTo, out, other]

end

namespace Pattern

/-- The pattern takes characters of the set only. -/
def TakesOnly (pattern : Pattern) (set : CharSet) : Prop :=
  ∀ text, pattern.Spells text → ∀ c ∈ text, set c = true

namespace TakesOnly

variable {set : CharSet}

theorem one {small : CharSet} (within : ∀ c, small c = true → set c = true) : (Pattern.one small).TakesOnly set := by
  intro text spelled d member
  obtain ⟨c, inside, rfl⟩ := spelled
  rw [List.mem_singleton.1 member]
  exact within c inside

theorem many {small : CharSet} (within : ∀ c, small c = true → set c = true) :
    (Pattern.many small).TakesOnly set :=
  fun _ spelled c member => within c (spelled c member)

theorem guard (condition : Guard) : (Pattern.guard condition).TakesOnly set := by
  intro text spelled c member
  obtain rfl : text = [] := spelled
  cases member

theorem append {first second : Pattern} (left : first.TakesOnly set) (right : second.TakesOnly set) :
    (first ++ second).TakesOnly set := by
  intro text spelled c member
  obtain ⟨front, back, rfl, before, behind⟩ := spelled
  rcases List.mem_append.1 member with inside | inside
  · exact left front before c inside
  · exact right back behind c inside

theorem literal {text : List Char} (inside : ∀ c ∈ text, set c = true) : (Pattern.literal text).TakesOnly set := by
  intro taken spelled
  obtain rfl : taken = text := spelled
  exact inside

theorem choice {patterns : List Pattern} (each : ∀ pattern ∈ patterns, pattern.TakesOnly set) :
    (Pattern.choice patterns).TakesOnly set := by
  induction patterns with
  | nil => exact .literal fun _ member => absurd member List.not_mem_nil
  | cons pattern patterns ih =>
    obtain ⟨first, others⟩ := List.forall_mem_cons.1 each
    cases patterns with
    | nil => exact first
    | cons other patterns => exact fun text spelled => spelled.elim (first text) (ih others text)

end TakesOnly

theorem leadsTo_of_matchLength? {pattern : Pattern} {set : CharSet} {mark : Char} (only : pattern.TakesOnly set)
    {before after : List Char} {length : Nat}
    (found : (pattern ++ literal [mark]).matchLength? before after = some length) :
    leadsTo set mark after = true := by
  obtain ⟨run, last, taken, spelled, rfl⟩ := spells_of_matchLength? found
  have whole : after = run ++ mark :: after.drop length :=
    calc after = after.take length ++ after.drop length := (List.take_append_drop length after).symm
      _ = run ++ mark :: after.drop length := by rw [taken, List.append_assoc]; rfl
  rw [whole]
  exact leadsTo_mark (only run spelled) _

end Pattern

end CodeColor
