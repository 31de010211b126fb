import CodeColor.Proofs.Claim.Joining
import CodeColor.Proofs.Pattern.Linewise

/-!
Claiming line by line. If the patterns of all rules see no further than their line, what is claimed before a line feed
and what is claimed behind it do not depend on each other: the line feed itself stays free, and the row for the whole
text is made of the rows for the two parts.

Main statement: `Grammar.foldl_lines`. It rests on `Rule.claim_lines` for one rule.
-/

namespace CodeColor

open Piece

def Piece.feed : Piece := ⟨['\n'], none⟩

namespace Rule

variable {rule : Rule} (linewise : rule.pattern.linewise = true)
include linewise

theorem seam_before_feed (front rest : List Char) : rule.Seam front ('\n' :: rest) := by
  intro before c later more _ leads
  have closes : startsIn .inLine more = false := by
    cases more with
    | nil => rfl
    | cons d more =>
      obtain rfl : d = '\n' := (List.cons_prefix_cons.1 leads).1
      rfl
  exact Pattern.matchLength?_before_feed linewise closes before (c :: later)

theorem seam_behind_feed (rest : List Char) : rule.Seam ['\n'] rest := by
  intro before c later more last _
  rcases List.suffix_cons_iff.1 last with whole | nothing
  · obtain ⟨rfl, rfl⟩ := List.cons.inj whole
    rw [List.cons_append, Pattern.matchLength?_feed linewise, Pattern.matchLength?_feed linewise]
  · cases List.suffix_nil.1 nothing

theorem divide_feed (before : List Char) : rule.divide before feed = [feed] := by
  have missed : rule.Misses before ['\n'] [] := misses_single.2 (Pattern.matchLength?_feed linewise before [])
  exact missed.divide_eq

/-! What stands before the line makes no difference. -/

theorem Misses.behind_line {before gap rest : List Char} (missed : rule.Misses before gap rest) (past : List Char) :
    rule.Misses (before ++ '\n' :: past) gap rest := by
  intro passed c later split
  rw [← List.append_assoc, Pattern.matchLength?_behind_feed linewise]
  exact missed passed c later split

theorem Cuts.behind_line {before text : List Char} {pieces : List Piece} (cuts : rule.Cuts before text pieces)
    (past : List Char) : rule.Cuts (before ++ '\n' :: past) text pieces := by
  induction cuts with
  | rest missed => exact .rest (missed.behind_line linewise past)
  | @found before gap claimed rest pieces missed some_text matched _ ih =>
    have here : rule.pattern.matchLength? (gap.reverse ++ (before ++ '\n' :: past)) (claimed ++ rest) =
        some claimed.length := by
      rw [← List.append_assoc, Pattern.matchLength?_behind_feed linewise]
      exact matched
    have onward : rule.Cuts (claimed.reverse ++ (gap.reverse ++ (before ++ '\n' :: past))) rest pieces := by
      simpa only [List.append_assoc] using ih
    exact .found (missed.behind_line linewise past) some_text here onward

theorem claimFrom_line (before past : List Char) (pieces : List Piece) :
    rule.claimFrom [] (before ++ '\n' :: past) pieces = rule.claimFrom [] before pieces := by
  induction pieces generalizing before with
  | nil => rfl
  | cons piece pieces ih =>
    have here : rule.divide (before ++ '\n' :: past) piece = rule.divide before piece := by
      obtain ⟨text, type?⟩ := piece
      cases type? with
      | some type => rfl
      | none => exact ((rule.cuts_cut before text).behind_line linewise past).eq_divide.symm
    rw [claimFrom_cons, here, ← List.append_assoc, ih, claimFrom_cons]

theorem claim_lines {left right : List Piece} (tidy : Tidy left) (also : Tidy right) :
    rule.claim (join left (attach feed right)) = join (rule.claim left) (attach feed (rule.claim right)) := by
  have some_feed : feed.text ≠ [] := List.cons_ne_nil _ _
  have behind : rule.claimFrom [] (source left).reverse (attach feed right) = attach feed (rule.claim right) := by
    rw [claimFrom_attach also.some_text ?seam, divide_feed linewise]
    case seam =>
      rintro text more later ⟨⟩ -
      exact seam_behind_feed linewise more
    exact congrArg (attach feed) (claimFrom_line linewise [] (source left).reverse right)
  have seam : rule.Seam (source left) (source (attach feed right)) := by
    rw [source_attach]
    exact seam_before_feed linewise (source left) (source right)
  have joined := seam.claimFrom_join tidy (also.attach some_feed) []
  rw [List.append_nil, behind] at joined
  exact joined

end Rule

namespace Grammar

/-- The patterns of the rules see no further than their line. -/
def Linewise (grammar : Grammar) : Prop :=
  ∀ rule ∈ grammar, rule.pattern.linewise = true

theorem foldl_lines {rules : Grammar} (linewise : rules.Linewise) {left right : List Piece} (tidy : Tidy left)
    (also : Tidy right) :
    rules.foldl (fun pieces rule => rule.claim pieces) (join left (attach feed right)) =
      join (rules.foldl (fun pieces rule => rule.claim pieces) left)
        (attach feed (rules.foldl (fun pieces rule => rule.claim pieces) right)) := by
  induction rules generalizing left right with
  | nil => rfl
  | cons rule rules ih =>
    obtain ⟨first, others⟩ := List.forall_mem_cons.1 linewise
    rw [List.foldl_cons, Rule.claim_lines first tidy also]
    exact ih others (rule.tidy_claimFrom [] tidy) (rule.tidy_claimFrom [] also)

end Grammar

end CodeColor
