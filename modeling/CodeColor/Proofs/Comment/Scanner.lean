import CodeColor.Language.Basic

/-!
The comments of a source, found by reading it once from left to right: from the opener that comes first to the
end of its comment, and on from there.

Main statement: `Comment.exists_of_opens`. Every opener lies in one of the comments.
-/

namespace CodeColor

/-- Where a comment ends. -/
inductive Comment.Closing where
  /-- Behind the next mark of that kind, or where the text ends. -/
  | behind (mark : List Char)
  /-- In front of the next line feed, or where the text ends. -/
  | lineEnd

structure Comment.Style where
  opener : List Char
  closing : Comment.Closing
  some_opener : opener ≠ []

namespace Comment

/-- How much text there is up to the end of the first mark, or up to the end where there is none. -/
def lengthThrough (mark : List Char) : List Char → Nat
  | [] => 0
  | c :: text => if mark <+: c :: text then mark.length else lengthThrough mark text + 1

def Closing.length : Closing → List Char → Nat
  | behind mark, text => lengthThrough mark text
  | lineEnd, text => (text.takeWhile (· ≠ '\n')).length

def Style.length? (style : Style) (text : List Char) : Option Nat :=
  if style.opener <+: text then
    some (style.opener.length + style.closing.length (text.drop style.opener.length))
  else none

theorem Style.length?_pos {style : Style} {text : List Char} {length : Nat}
    (found : style.length? text = some length) : 0 < length := by
  have positive := List.length_pos_iff.2 style.some_opener
  unfold length? at found
  split at found
  · cases found
    omega
  · cases found

def length? (styles : List Style) (text : List Char) : Option Nat :=
  styles.findSome? (·.length? text)

theorem length?_pos {styles : List Style} {text : List Char} {length : Nat}
    (found : length? styles text = some length) : 0 < length := by
  obtain ⟨style, _, here⟩ := List.exists_of_findSome?_eq_some found
  exact style.length?_pos here

/-- Start and end of each comment of the text, the first character of which stands at the offset. -/
def scanFrom (styles : List Style) (offset : Nat) : List Char → List (Nat × Nat)
  | [] => []
  | c :: text =>
    match found : length? styles (c :: text) with
    | none => scanFrom styles (offset + 1) text
    | some length =>
      (offset, offset + length) :: scanFrom styles (offset + length) ((c :: text).drop length)
termination_by text => text.length
decreasing_by
  · simp
  · have positive := length?_pos found
    simp only [List.length_drop, List.length_cons]
    omega

def scan (styles : List Style) (text : List Char) : List (Nat × Nat) :=
  scanFrom styles 0 text

end Comment

/-- How comments are written in the language. -/
def Language.commentStyles : Language → List Comment.Style
  | html => [⟨"<!--".toList, .behind "-->".toList, by decide⟩]
  | css => [⟨"/*".toList, .behind "*/".toList, by decide⟩]
  | js => [⟨"//".toList, .lineEnd, by decide⟩, ⟨"/*".toList, .behind "*/".toList, by decide⟩]
  | ts => [⟨"//".toList, .lineEnd, by decide⟩, ⟨"/*".toList, .behind "*/".toList, by decide⟩]
  | json => []

namespace Comment

variable {styles : List Style}

theorem scanFrom_none {offset : Nat} {c : Char} {text : List Char}
    (absent : length? styles (c :: text) = none) :
    scanFrom styles offset (c :: text) = scanFrom styles (offset + 1) text := by
  rw [scanFrom]
  split
  next => rfl
  next _ found => rw [absent] at found; cases found

theorem scanFrom_some (offset : Nat) {length : Nat} {c : Char} {text : List Char}
    (found : length? styles (c :: text) = some length) :
    scanFrom styles offset (c :: text) =
      (offset, offset + length) :: scanFrom styles (offset + length) ((c :: text).drop length) := by
  rw [scanFrom]
  split
  next absent => rw [absent] at found; cases found
  next other same =>
    rw [same] at found
    cases found
    rfl

theorem scanFrom_gap (offset : Nat) {gap rest : List Char}
    (missed : ∀ passed c later, gap = passed ++ c :: later → length? styles (c :: later ++ rest) = none) :
    scanFrom styles offset (gap ++ rest) = scanFrom styles (offset + gap.length) rest := by
  induction gap generalizing offset with
  | nil => rfl
  | cons c gap ih =>
    have here : length? styles (c :: (gap ++ rest)) = none := missed [] c gap rfl
    have onward := ih (offset + 1) fun passed d later split =>
      missed (c :: passed) d later (by rw [split]; rfl)
    rw [List.cons_append, scanFrom_none here, onward, List.length_cons, Nat.add_assoc, Nat.add_comm 1]

theorem scanFrom_of_no_style (offset : Nat) (text : List Char) : scanFrom [] offset text = [] := by
  induction text generalizing offset with
  | nil => simp [scanFrom]
  | cons c text ih => rw [scanFrom_none rfl, ih]

/-- An opener of one of the styles starts the text. -/
def Opens (styles : List Style) (text : List Char) : Prop :=
  ∃ style ∈ styles, style.opener <+: text

theorem Opens.length? {text : List Char} (opens : Opens styles text) :
    ∃ length, Comment.length? styles text = some length := by
  obtain ⟨style, member, opener⟩ := opens
  apply Option.isSome_iff_exists.1
  rw [Comment.length?, List.findSome?_isSome_iff]
  exact ⟨style, member, by simp [Style.length?, opener]⟩

theorem not_opens_nil : ¬ Opens styles [] := by
  rintro ⟨style, _, opener⟩
  exact style.some_opener (List.prefix_nil.1 opener)

theorem exists_of_opens (offset : Nat) {place : Nat} {text : List Char} (opens : Opens styles (text.drop place)) :
    ∃ extent ∈ scanFrom styles offset text,
      extent.1 ≤ offset + place ∧ offset + place < extent.2 := by
  -- A comment is passed over in one go, so the induction is on the length of the text.
  induction size : text.length using Nat.strongRecOn generalizing offset place text with
  | ind total ih =>
    cases text with
    | nil =>
      rw [List.drop_nil] at opens
      exact absurd opens not_opens_nil
    | cons c text =>
      rw [List.length_cons] at size
      cases found : Comment.length? styles (c :: text) with
      | none =>
        cases place with
        | zero =>
          have here : Opens styles (c :: text) := opens
          obtain ⟨length, present⟩ := here.length?
          rw [present] at found
          cases found
        | succ place =>
          have behind : Opens styles (text.drop place) := opens
          obtain ⟨extent, member, first, last⟩ := ih text.length (by omega) (offset + 1) behind rfl
          rw [scanFrom_none found]
          exact ⟨extent, member, by omega, by omega⟩
      | some length =>
        rw [scanFrom_some offset found]
        by_cases inside : place < length
        · exact ⟨_, List.mem_cons_self, Nat.le_add_right _ _, Nat.add_lt_add_left inside offset⟩
        · obtain ⟨further, rfl⟩ := Nat.exists_eq_add_of_le (Nat.le_of_not_lt inside)
          have positive := length?_pos found
          rw [← List.drop_drop] at opens
          have shorter : ((c :: text).drop length).length < total := by
            rw [List.length_drop, List.length_cons]
            omega
          obtain ⟨extent, member, first, last⟩ := ih _ shorter (offset + length) opens rfl
          exact ⟨extent, List.mem_cons_of_mem _ member, by omega, by omega⟩

end Comment

end CodeColor
