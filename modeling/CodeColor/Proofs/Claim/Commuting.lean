import CodeColor.Proofs.Claim.Gap
import CodeColor.Proofs.Claim.Joining
import CodeColor.Proofs.Pattern.Literal

/-!
Rules that commute. If a rule finds nothing in the matches of another one, and the start of such a match is to it as
good as the end of the text, it claims the same behind the other rule as in front of it.

Main statement: `independent_literals_commute`. It rests on `Rule.Respects.stands_iff`, by which two such rules claim in
a stretch what each of them claims in it alone.
-/

namespace CodeColor

open Piece Pattern

namespace Rule

/-- The rule finds nothing in a match of the other one, and in front of it what it finds where the text ends. -/
structure Respects (rule other : Rule) : Prop where
  misses {before text rest : List Char} (matched : other.Matches before text rest) (past more : List Char) :
    rule.Misses past text more
  seam {before text rest : List Char} (matched : other.Matches before text rest) (front more : List Char) :
    rule.Seam front (text ++ more)

section

variable {first second : Rule} {before code start text : List Char} {pieces : List Piece} {type : TokenType}

theorem claimFrom_gap (rule : Rule) (before gap : List Char) :
    rule.claimFrom [] before (free gap []) = rule.divide before ⟨gap, none⟩ := by
  have alone := rule.claimFrom_free before gap []
  rwa [List.append_nil, claimFrom, List.reverse_nil, List.append_nil] at alone

theorem Respects.stands_iff (respects : second.Respects first) (cuts : first.Cuts before code pieces) :
    Stands ⟨text, some type⟩ start (second.claimFrom [] before pieces) ↔
      Stands ⟨text, some type⟩ start pieces ∨
        Stands ⟨text, some type⟩ start (second.divide before ⟨code, none⟩) := by
  induction cuts generalizing start with
  | rest _ =>
    rw [claimFrom_gap]
    exact (or_iff_right not_stands_free).symm
  | @found before gap claimed rest pieces _ some_text matched _ ih =>
    have own : first.Matches (gap.reverse ++ before) claimed rest := ⟨some_text, matched⟩
    -- Alone, the second rule cuts the gap, passes over the match, and goes on behind it.
    have alone : second.divide before ⟨gap ++ (claimed ++ rest), none⟩ =
        join (second.divide before ⟨gap, none⟩) (join (free claimed [])
          (second.divide (claimed.reverse ++ (gap.reverse ++ before)) ⟨rest, none⟩)) := by
      rw [(respects.seam own gap rest).divide_append, (respects.misses own _ rest).divide_append]
    have both : second.claimFrom [] before (free gap [] ++ ⟨claimed, some first.type⟩ :: pieces) =
        second.divide before ⟨gap, none⟩ ++ ⟨claimed, some first.type⟩ ::
          second.claimFrom [] (claimed.reverse ++ (gap.reverse ++ before)) pieces := by
      rw [claimFrom_free, claimFrom_cons]
      rfl
    rw [alone, both]
    simp only [stands_append_iff, stands_join_iff, stands_cons_iff, source_divide, source_free, not_stands_free,
      false_or, ih]
    constructor
    · rintro (inside | ⟨rest, rfl, here | ⟨more, rfl, earlier | alone⟩⟩)
      · exact .inr (.inl inside)
      · exact .inl ⟨rest, rfl, .inl here⟩
      · exact .inl ⟨_, rfl, .inr ⟨more, rfl, earlier⟩⟩
      · exact .inr (.inr ⟨_, rfl, more, rfl, alone⟩)
    · rintro (⟨rest, rfl, here | ⟨more, rfl, earlier⟩⟩ | inside | ⟨_, rfl, more, rfl, alone⟩)
      · exact .inr ⟨rest, rfl, .inl here⟩
      · exact .inr ⟨_, rfl, .inr ⟨more, rfl, .inl earlier⟩⟩
      · exact .inl inside
      · exact .inr ⟨_, rfl, .inr ⟨more, rfl, .inr alone⟩⟩

theorem Respects.divide_comm (left : second.Respects first) (right : first.Respects second) (before code : List Char) :
    second.claimFrom [] before (first.divide before ⟨code, none⟩) =
      first.claimFrom [] before (second.divide before ⟨code, none⟩) := by
  have cuts : first.Cuts before code (first.divide before ⟨code, none⟩) := first.cuts_cut before code
  have also : second.Cuts before code (second.divide before ⟨code, none⟩) := second.cuts_cut before code
  apply (second.tidy_claimFrom before cuts.tidy).eq_of_stands (first.tidy_claimFrom before also.tidy)
  · rw [source_claimFrom, source_claimFrom, source_divide, source_divide]
  · intro text type start
    exact (left.stands_iff cuts).trans (or_comm.trans (right.stands_iff also).symm)

theorem Respects.claimFrom_comm (left : second.Respects first) (right : first.Respects second) (before : List Char)
    (pieces : List Piece) :
    second.claimFrom [] before (first.claimFrom [] before pieces) =
      first.claimFrom [] before (second.claimFrom [] before pieces) := by
  induction pieces generalizing before with
  | nil => rfl
  | cons piece pieces ih =>
    have here : second.claimFrom [] before (first.divide before piece) =
        first.claimFrom [] before (second.divide before piece) := by
      obtain ⟨text, type?⟩ := piece
      cases type? with
      | some type => rfl
      | none => exact left.divide_comm right before text
    rw [claimFrom_cons, claimFrom_append, source_divide, here, ih, claimFrom_cons, claimFrom_append, source_divide]

end

/-! ## Literals -/

theorem respects_of_literals {rule other : Rule} {word text : List Char} (literal : rule.pattern = .literal word)
    (also : other.pattern = .literal text) (some_word : word ≠ []) (apart : ∀ c ∈ word, c ∉ text) :
    rule.Respects other := by
  have inside : ∀ c ∈ word, CharSet.among word c = true := fun c member => by simpa [CharSet.among] using member
  have outside : ∀ c ∈ text, CharSet.among word c = false := by
    intro c member
    simpa [CharSet.among] using fun known => apart c known member
  have spelled {before taken rest : List Char} (matched : other.Matches before taken rest) : taken = text := by
    have spells := matched.spells
    rwa [also] at spells
  constructor
  case misses =>
    intro before taken rest matched past more
    rw [spelled matched]
    obtain ⟨c, word, rfl⟩ := List.exists_cons_of_ne_nil some_word
    have opens : rule.pattern.OpensAt (CharSet.among (c :: word)) := by
      rw [literal]
      exact OpensAt.literal (inside c List.mem_cons_self) word
    exact misses_of_opensAt opens outside past more
  case seam =>
    intro before taken rest matched front more past c later onward _ leads
    have stops : startsIn (CharSet.among word) onward = false := by
      cases onward with
      | nil => rfl
      | cons d onward =>
        obtain ⟨e, taken, rfl⟩ := List.exists_cons_of_ne_nil matched.some_text
        obtain rfl : d = e := (List.cons_prefix_cons.1 leads).1
        exact outside d (by simp [← spelled matched])
    rw [literal]
    exact matchLength?_literal_append inside stops past (c :: later)

end Rule

/-- Two rules for literals without a character in common may change places, wherever they stand one behind the other in
a grammar. -/
theorem independent_literals_commute (first others : Grammar) (left right : Rule) (word text : String)
    (literal : left.pattern = .exactly word) (also : right.pattern = .exactly text) (some_word : word ≠ "")
    (some_text : text ≠ "") (apart : ∀ c ∈ word.toList, c ∉ text.toList) (code : String) :
    (first ++ left :: right :: others).claim code.toList = (first ++ right :: left :: others).claim code.toList := by
  have leftRespects : left.Respects right := Rule.respects_of_literals literal also (toList_ne_nil some_word) apart
  have rightRespects : right.Respects left :=
    Rule.respects_of_literals also literal (toList_ne_nil some_text) fun c member known => apart c known member
  have same : right.claim (left.claim (first.claim code.toList)) = left.claim (right.claim (first.claim code.toList)) :=
    rightRespects.claimFrom_comm leftRespects [] _
  rw [Grammar.claim_append, Grammar.claim_append, List.foldl_cons, List.foldl_cons, same, List.foldl_cons,
    List.foldl_cons]

/-- The first text overlaps itself, and the two touch each other in a stretch that an earlier rule has cut. -/
theorem independent_literals_commute_around_digit :
    let one := Rule.literal "one" "1" none
    let pair := Rule.literal "pair" "aa" none
    let edge := Rule.literal "edge" "b" none
    let letter := Rule.literal "letter" "a" none
    let code := "aaab1baaa"
    (∀ c ∈ "aa".toList, c ∉ "b".toList) ∧
      Grammar.claim [one, pair, edge, letter] code.toList = Grammar.claim [one, edge, pair, letter] code.toList ∧
      Piece.spans (Grammar.claim [one, edge, pair, letter] code.toList) =
        [⟨0, 2, some ⟨"pair"⟩⟩, ⟨2, 3, some ⟨"letter"⟩⟩, ⟨3, 4, some ⟨"edge"⟩⟩, ⟨4, 5, some ⟨"one"⟩⟩,
          ⟨5, 6, some ⟨"edge"⟩⟩, ⟨6, 8, some ⟨"pair"⟩⟩, ⟨8, 9, some ⟨"letter"⟩⟩] := by
  intro one pair edge letter code
  have apart : ∀ c ∈ "aa".toList, c ∉ "b".toList := by simp
  have swapped :=
    independent_literals_commute [one] [letter] pair edge "aa" "b" rfl rfl (by decide) (by decide) apart code
  exact ⟨apart, swapped, by decide⟩

end CodeColor
