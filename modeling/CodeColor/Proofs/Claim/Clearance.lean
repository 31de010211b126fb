import CodeColor.Proofs.Claim.Matches
import CodeColor.Proofs.Pattern.Words

/-!
Text that lies free. In a tidy row no two free pieces are neighbours, so a text into which no claimed piece reaches
lies in one free piece, and what stands behind a free piece is claimed.

Main statements: `Piece.Tidy.liesFree_of_clear`, `Piece.LiesFree.clear`, `Piece.LiesFree.behind` and
`Piece.LiesFree.startsIn_eq`.
-/

namespace CodeColor

namespace Piece

variable {text rest start after : List Char} {pieces : List Piece}

theorem Stands.disjoint {first second : Piece} {before other : List Char} (left : first.Stands before pieces)
    (right : second.Stands other pieces) :
    before = other ∧ first = second ∨ before.length + first.text.length ≤ other.length ∨
      other.length + second.text.length ≤ before.length := by
  induction left generalizing other with
  | here =>
    cases right with
    | here => exact .inl ⟨rfl, rfl⟩
    | behind _ _ => simp
  | behind piece further ih =>
    cases right with
    | here => simp
    | behind _ onward =>
      rcases ih onward with ⟨rfl, same⟩ | apart
      · exact .inl ⟨rfl, same⟩
      · right
        simp only [List.length_append]
        omega

/-- No claimed piece reaches into the text that stands behind `start`. -/
def Clear (text start : List Char) (pieces : List Piece) : Prop :=
  ∀ before other type, Stands ⟨other, some type⟩ before pieces →
    before.length + other.length ≤ start.length ∨ start.length + text.length ≤ before.length

theorem LiesFree.clear (free : LiesFree text rest start pieces) : Clear text start pieces := by
  intro before other type claimed
  obtain ⟨outer, left, rfl, stands⟩ := free
  have apart := stands.disjoint claimed
  simp only [mk.injEq, reduceCtorEq, and_false, false_or, List.length_append] at apart ⊢
  omega

theorem Clear.tail {piece : Piece} (clear : Clear text (piece.text ++ start) (piece :: pieces)) :
    Clear text start pieces := by
  intro before other type stands
  have apart := clear _ other type (.behind piece stands)
  simp only [List.length_append] at apart
  omega

theorem Clear.fits {free inside onward : List Char} (tidy : Tidy (⟨free, none⟩ :: pieces))
    (clear : Clear text start (⟨free, none⟩ :: pieces)) (own : free = start ++ inside) (some_inside : inside ≠ [])
    (whole : inside ++ source pieces = text ++ onward) : ∃ rest, inside = text ++ rest := by
  rcases List.append_eq_append_iff.1 whole with ⟨more, longer, behind⟩ | ⟨rest, shorter, -⟩
  · rcases tidy.behind_free with rfl | ⟨next, type, later, rfl⟩
    · have empty := (List.append_eq_nil_iff.1 behind.symm).1
      exact ⟨[], by rw [longer, empty, List.append_nil, List.append_nil]⟩
    · have some_next := tidy.tail.some_text _ List.mem_cons_self
      have apart := clear free next type (by simpa using Stands.behind ⟨free, none⟩ .here)
      have first := List.length_pos_iff.2 some_inside
      have second := List.length_pos_iff.2 some_next
      have none_missing : more = [] := by
        apply List.length_eq_zero_iff.1
        rw [own, longer] at apart
        simp only [List.length_append] at apart second
        omega
      exact ⟨[], by rw [longer, none_missing, List.append_nil, List.append_nil]⟩
  · exact ⟨rest, shorter⟩

theorem Tidy.liesFree_of_clear (tidy : Tidy pieces) (some_text : text ≠ [])
    (whole : source pieces = start ++ (text ++ after)) (clear : Clear text start pieces) :
    ∃ rest, LiesFree text rest start pieces := by
  induction pieces generalizing start with
  | nil =>
    have empty := (List.append_eq_nil_iff.1 (List.append_eq_nil_iff.1 whole.symm).2).1
    exact absurd empty some_text
  | cons piece pieces ih =>
    rw [source_cons] at whole
    rcases List.append_eq_append_iff.1 whole with ⟨further, rfl, behind⟩ | ⟨inside, own, within⟩
    · obtain ⟨rest, outer, left, rfl, stands⟩ := ih tidy.tail behind clear.tail
      exact ⟨rest, piece.text ++ outer, left, (List.append_assoc _ _ _).symm, .behind piece stands⟩
    · cases inside with
      | nil =>
        rw [List.append_nil] at own
        have behind : source pieces = [] ++ (text ++ after) := within.symm
        have further : Clear text [] pieces := by
          rw [← List.append_nil start, ← own] at clear
          exact clear.tail
        obtain ⟨rest, outer, left, same, stands⟩ := ih tidy.tail behind further
        exact ⟨rest, piece.text ++ outer, left, by rw [own, List.append_assoc, ← same, List.append_nil],
          .behind piece stands⟩
      | cons c inside =>
        obtain ⟨free, type?⟩ := piece
        cases type? with
        | some type =>
          have apart := clear [] free type .here
          have positive := List.length_pos_iff.2 some_text
          dsimp only at own
          simp only [own, List.length_append, List.length_cons, List.length_nil] at apart
          omega
        | none =>
          obtain ⟨rest, fits⟩ := Clear.fits tidy clear own (List.cons_ne_nil c inside) within.symm
          refine ⟨rest, [], start, rfl, ?_⟩
          rw [← fits, ← own]
          exact .here

theorem LiesFree.rest_prefix (free : LiesFree text rest start pieces)
    (whole : source pieces = start ++ (text ++ after)) :
    rest <+: after := by
  obtain ⟨outer, left, rfl, stands⟩ := free
  obtain ⟨more, split⟩ := stands.source_eq
  exact ⟨more, by simpa [whole] using split.symm⟩

theorem LiesFree.behind (free : LiesFree text rest start pieces) (tidy : Tidy pieces)
    (whole : source pieces = start ++ (text ++ after)) :
    after = rest ∨ ∃ next type more, after = rest ++ (next ++ more) ∧
      Stands ⟨next, some type⟩ (start ++ (text ++ rest)) pieces := by
  obtain ⟨outer, left, rfl, stands⟩ := free
  induction stands with
  | @here later =>
    rw [source_cons] at whole
    have same : after = rest ++ source later := by simpa using whole.symm
    rcases tidy.behind_free with rfl | ⟨next, type, later, rfl⟩
    · exact .inl (by rw [same, source_nil, List.append_nil])
    · have here : Stands ⟨next, some type⟩ [] (⟨next, some type⟩ :: later) := .here
      refine .inr ⟨next, type, source later, by rw [same, source_cons], ?_⟩
      simpa using Stands.behind ⟨left ++ (text ++ rest), none⟩ here
  | @behind outer later first _ ih =>
    rw [source_cons] at whole
    have onward : source later = (outer ++ left) ++ (text ++ after) := by simpa using whole
    rcases ih tidy.tail onward with last | ⟨next, type, more, same, placed⟩
    · exact .inl last
    · exact .inr ⟨next, type, more, same, by simpa using Stands.behind first placed⟩

theorem LiesFree.startsIn_eq {set : CharSet} (free : LiesFree text rest start pieces) (tidy : Tidy pieces)
    (whole : source pieces = start ++ (text ++ after))
    (other : ∀ next type, Stands ⟨next, some type⟩ (start ++ text) pieces → startsIn set next = false) :
    startsIn set rest = startsIn set after := by
  rcases free.behind tidy whole with same | ⟨next, type, more, same, stands⟩
  · rw [same]
  · rw [same]
    by_cases empty : rest = []
    · rw [empty, List.append_nil] at stands
      rw [empty, List.nil_append, startsIn_append (tidy.some_text _ stands.mem), other next type stands]
      rfl
    · rw [startsIn_append empty]

theorem mem_extentsFrom {type : TokenType} {extent : Nat × Nat} :
    extent ∈ extentsFrom type 0 pieces ↔
      ∃ before text, Stands ⟨text, some type⟩ before pieces ∧
        extent = (before.length, before.length + text.length) := by
  unfold extentsFrom Span.extents
  simp only [List.mem_map, List.mem_filter, decide_eq_true_eq, ← spans_eq, mem_spans]
  constructor
  · intro ⟨span, ⟨⟨before, ⟨text, type?⟩, stands, same⟩, typed⟩, found⟩
    rw [same] at typed found
    obtain rfl : type? = some type := typed
    exact ⟨before, text, stands, found.symm⟩
  · intro ⟨before, text, stands, found⟩
    exact ⟨_, ⟨⟨before, _, stands, rfl⟩, rfl⟩, found.symm⟩

end Piece

theorem Grammar.clear_iff {first others : Grammar} {text start code : List Char}
    (apart : ∀ type ∈ first.map Rule.type, type ∉ others.map Rule.type) :
    Piece.Clear text start (first.claim code) ↔
      ∀ type ∈ first.map Rule.type, ∀ extent ∈ Piece.extentsFrom type 0 ((first ++ others).claim code),
        extent.2 ≤ start.length ∨ start.length + text.length ≤ extent.1 := by
  constructor
  · intro clear type listed extent member
    obtain ⟨before, other, stands, rfl⟩ := Piece.mem_extentsFrom.1 member
    exact clear before other type ((stands_first_iff (apart type listed)).1 stands)
  · intro outside before other type stands
    obtain ⟨rule, member, rfl⟩ := first.exists_rule_of_mem_claim stands.mem rfl
    have listed : rule.type ∈ first.map Rule.type := List.mem_map_of_mem member
    have kept := (stands_first_iff (apart rule.type listed)).2 stands
    exact outside rule.type listed _ (Piece.mem_extentsFrom.2 ⟨before, other, kept, rfl⟩)

end CodeColor
