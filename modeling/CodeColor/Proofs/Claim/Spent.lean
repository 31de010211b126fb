import CodeColor.Proofs.Claim.Clearance
import CodeColor.Proofs.Claim.Leftover
import CodeColor.Proofs.Pattern.Words

/-!
Characters that are used up. Where a rule matches at each character of a set, none of these lies free afterwards, and
a run of them is claimed to its end.

Main statements: `Grammar.spent_claim` and `Rule.stands_behind_run`.
-/

namespace CodeColor

namespace Piece

theorem exists_stands {pieces : List Piece} {front rest : List Char} {c : Char}
    (whole : source pieces = front ++ c :: rest) :
    ∃ before left right type?, front = before ++ left ∧ Stands ⟨left ++ c :: right, type?⟩ before pieces := by
  induction pieces generalizing front with
  | nil => simp [source_nil] at whole
  | cons piece pieces ih =>
    rw [source_cons] at whole
    rcases List.append_eq_append_iff.1 whole with ⟨further, rfl, behind⟩ | ⟨inside, own, within⟩
    · obtain ⟨before, left, right, type?, rfl, stands⟩ := ih behind
      exact ⟨piece.text ++ before, left, right, type?, (List.append_assoc _ _ _).symm, .behind piece stands⟩
    · cases inside with
      | nil =>
        rw [List.append_nil] at own
        have behind : source pieces = [] ++ c :: rest := within.symm
        obtain ⟨before, left, right, type?, split, stands⟩ := ih behind
        obtain ⟨rfl, rfl⟩ := List.append_eq_nil_iff.1 split.symm
        exact ⟨piece.text, [], right, type?, by rw [own, List.append_nil],
          by simpa using Stands.behind piece stands⟩
      | cons d inside =>
        obtain ⟨rfl, -⟩ := List.cons.inj within
        obtain ⟨text, type?⟩ := piece
        have same : text = front ++ c :: inside := own
        exact ⟨[], front, inside, type?, rfl, same ▸ .here⟩

/-- No character of the set lies free. -/
def Spent (set : CharSet) (pieces : List Piece) : Prop :=
  ∀ text, ⟨text, none⟩ ∈ pieces → ∀ c ∈ text, set c = false

end Piece

namespace Rule

open Piece

variable {rule : Rule} {set : CharSet}

/-- A match starts at each character of the set. -/
def TakesUp (rule : Rule) (set : CharSet) : Prop :=
  ∀ before c rest, set c = true → rule.pattern.matchLength? before (c :: rest) ≠ none

theorem Misses.spent (takes : rule.TakesUp set) {before gap rest : List Char} (missed : rule.Misses before gap rest) :
    ∀ c ∈ gap, set c = false := by
  intro c member
  obtain ⟨passed, later, rfl⟩ := List.append_of_mem member
  have absent := missed passed c later rfl
  apply Bool.eq_false_iff.2
  intro inside
  exact takes _ c _ inside absent

theorem spent_free {gap text : List Char} (outside : ∀ c ∈ gap, set c = false)
    (member : (⟨text, none⟩ : Piece) ∈ free gap []) : ∀ c ∈ text, set c = false := by
  unfold free at member
  split at member
  · cases member
  · obtain rfl : text = gap := congrArg Piece.text (List.mem_singleton.1 member)
    exact outside

theorem Cuts.spent (takes : rule.TakesUp set) {before after : List Char} {pieces : List Piece}
    (cuts : rule.Cuts before after pieces) : Spent set pieces := by
  induction cuts with
  | rest missed => exact fun text member => spent_free (missed.spent takes) member
  | found missed _ _ _ ih =>
    intro text member
    rcases List.mem_append.1 member with inside | inside
    · exact spent_free (missed.spent takes) inside
    · rcases List.mem_cons.1 inside with same | further
      · cases same
      · exact ih text further

theorem spent_claimFrom (takes : rule.TakesUp set) (before : List Char) (pieces : List Piece) :
    Spent set (rule.claimFrom [] before pieces) := by
  induction pieces generalizing before with
  | nil => exact fun text member => absurd member List.not_mem_nil
  | cons piece pieces ih =>
    intro text member
    rw [claimFrom_cons] at member
    rcases List.mem_append.1 member with here | further
    · obtain ⟨whole, type?⟩ := piece
      cases type? with
      | some type => cases List.mem_singleton.1 here
      | none => exact (rule.cuts_cut before whole).spent takes text here
    · exact ih _ text further

end Rule

namespace Piece

variable {set : CharSet} {pieces : List Piece}

theorem Spent.tail {piece : Piece} (spent : Spent set (piece :: pieces)) : Spent set pieces :=
  fun text member => spent text (List.mem_cons_of_mem piece member)

theorem Spent.claimFrom (spent : Spent set pieces) (rule : Rule) (before : List Char) :
    Spent set (rule.claimFrom [] before pieces) := by
  induction pieces generalizing before with
  | nil => exact spent
  | cons piece pieces ih =>
    intro text member
    rw [Rule.claimFrom_cons] at member
    rcases List.mem_append.1 member with here | further
    · obtain ⟨whole, type?⟩ := piece
      cases type? with
      | some type => cases List.mem_singleton.1 here
      | none =>
        intro c inside
        have present : c ∈ source (rule.divide before ⟨whole, none⟩) := List.mem_flatMap.2 ⟨_, here, inside⟩
        rw [Rule.source_divide] at present
        exact spent whole List.mem_cons_self c present
    · exact ih spent.tail _ text further

end Piece

namespace Grammar

open Piece

variable {first others : Grammar} {set : CharSet}

theorem spent_claim {rule : Rule} (takes : rule.TakesUp set) (first others : Grammar) (code : List Char) :
    Spent set ((first ++ rule :: others).claim code) := by
  rw [claim_append, List.foldl_cons]
  have here : Spent set (rule.claim (first.claim code)) := Rule.spent_claimFrom takes [] _
  induction others using List.reverseRecOn with
  | nil => exact here
  | append_singleton others last ih =>
    rw [List.foldl_append]
    exact ih.claimFrom last []

theorem spells_of_stands {grammar : Grammar} {text start code : List Char} {type : TokenType}
    (stands : Stands ⟨text, some type⟩ start (grammar.claim code)) :
    ∃ rule ∈ grammar, rule.type = type ∧ rule.pattern.Spells text := by
  obtain ⟨rule, member, typed, rest, matched⟩ := matched_of_stands stands
  exact ⟨rule, member, typed, matched.spells⟩

end Grammar

/-! ## Runs -/

namespace Pattern

variable {set : CharSet} {c : Char} (inside : set c = true) (before rest : List Char)
include inside

theorem matchLength?_one : (one set).matchLength? before (c :: rest) = some 1 := by
  rw [matchLength?_eq_run, run_one inside]
  rfl

theorem run_oneOrMore (taken : Nat) :
    (oneOrMore set).run accept ⟨before, c :: rest, taken⟩ =
      some ⟨((c :: rest).takeWhile set).reverse ++ before, (c :: rest).dropWhile set,
        taken + ((c :: rest).takeWhile set).length⟩ := by
  have some_run : (c :: rest).takeWhile set ≠ [] := by
    rw [List.takeWhile_cons_of_pos inside]
    exact List.cons_ne_nil _ _
  have members : ∀ d ∈ (c :: rest).takeWhile set, set d = true := fun _ member => List.mem_takeWhile_imp member
  have some_text : taken + ((c :: rest).takeWhile set).length ≠ 0 := by
    have positive := List.length_pos_iff.2 some_run
    omega
  have whole : (oneOrMore set).run accept ⟨before, (c :: rest).takeWhile set ++ (c :: rest).dropWhile set, taken⟩ = _ :=
    run_oneOrMore_greedy some_run members (startsIn_dropWhile set (c :: rest)) (accept_eq_some some_text)
  rwa [List.takeWhile_append_dropWhile] at whole

theorem matchLength?_oneOrMore :
    (oneOrMore set).matchLength? before (c :: rest) = some ((c :: rest).takeWhile set).length := by
  rw [matchLength?_eq_run, run_oneOrMore inside, Option.map_some, Nat.zero_add]

omit inside in
theorem taken_of_run_oneOrMore {text : List Char} {taken : Nat} {stop : Cursor}
    (found : (oneOrMore set).run accept ⟨before, text, taken⟩ = some stop) :
    stop.taken = taken + (text.takeWhile set).length := by
  cases starts : startsIn set text with
  | true =>
    cases text with
    | nil => cases starts
    | cons c rest =>
      rw [run_oneOrMore starts] at found
      rw [← Option.some.inj found]
  | false =>
    have absent : (oneOrMore set).run accept ⟨before, text, taken⟩ = none := OpensAt.one.append (many set) _ _ starts
    rw [absent] at found
    cases found

end Pattern

namespace Rule

open Piece Pattern

variable {name : String} {type : TokenType} {set : CharSet}

theorem takesUp_one : TakesUp ⟨name, one set, type⟩ set := by
  intro before c rest inside absent
  rw [matchLength?_one inside] at absent
  cases absent

theorem takesUp_oneOrMore : TakesUp ⟨name, oneOrMore set, type⟩ set := by
  intro before c rest inside absent
  rw [matchLength?_oneOrMore inside] at absent
  cases absent

theorem not_startsIn_behind_run {before text rest : List Char}
    (matched : Matches ⟨name, oneOrMore set, type⟩ before text rest) : startsIn set rest = false := by
  obtain ⟨front, more, rfl, ⟨c, inside, rfl⟩, -⟩ := matched.spells
  have longest : (oneOrMore set).matchLength? before (c :: (more ++ rest)) = some (c :: more).length := matched.length
  rw [matchLength?_oneOrMore inside] at longest
  have whole : (c :: (more ++ rest)).takeWhile set ++ (c :: (more ++ rest)).dropWhile set = (c :: more) ++ rest :=
    List.takeWhile_append_dropWhile
  have behind := (List.append_inj whole (Option.some.inj longest)).2
  rw [← behind]
  exact startsIn_dropWhile set _

theorem stands_behind_run {pieces : List Piece} (tidy : Tidy pieces) {before start text rest behind : List Char}
    {c : Char} (free : LiesFree text rest start pieces)
    (matched : Matches ⟨name, oneOrMore set, type⟩ before text rest)
    (whole : source pieces = start ++ (text ++ c :: behind)) (inside : set c = true) :
    ∃ further type, Stands ⟨c :: further, some type⟩ (start ++ text) pieces := by
  have stops := not_startsIn_behind_run matched
  have starts : startsIn set (c :: behind) = true := inside
  rcases free.behind tidy whole with same | ⟨next, type, later, same, claimed⟩
  · rw [same, stops] at starts
    cases starts
  · have none_free : rest = [] := by
      by_contra some_free
      rw [same, startsIn_append some_free, stops] at starts
      cases starts
    obtain ⟨d, further, rfl⟩ := List.exists_cons_of_ne_nil (tidy.some_text _ claimed.mem)
    rw [none_free, List.nil_append] at same
    rw [none_free, List.append_nil] at claimed
    obtain rfl : c = d := (List.cons.inj same).1
    exact ⟨further, type, claimed⟩

end Rule

end CodeColor
