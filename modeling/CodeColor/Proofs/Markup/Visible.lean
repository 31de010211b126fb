import CodeColor.Token.Basic

/-!
What tokens show: their types and values, where plain text is not divided and empty plain text is nothing.

Main statements: the rules for `normal`, and `flatMap_visible`.
-/

namespace CodeColor.Markup

abbrev Shown := TokenType × String

def dropEmpty (shown : List Shown) : List Shown :=
  shown.filter fun part => part ≠ (.text, "")

def joinText : List Shown → List Shown
  | [] => []
  | part :: shown =>
    match joinText shown with
    | [] => [part]
    | next :: rest =>
      if part.1 = .text ∧ next.1 = .text then (.text, part.2 ++ next.2) :: rest
      else part :: next :: rest

/-- The parts without empty plain text, and with neighbouring plain texts as one. -/
def normal (shown : List Shown) : List Shown := joinText (dropEmpty shown)

def visible (tokens : List Token) : List Shown :=
  normal (tokens.map fun token => (token.type, token.value))

theorem dropEmpty_empty (shown : List Shown) : dropEmpty ((.text, "") :: shown) = dropEmpty shown :=
  List.filter_cons_of_neg (by simp)

theorem dropEmpty_cons {part : Shown} (some_part : part ≠ (.text, "")) (shown : List Shown) :
    dropEmpty (part :: shown) = part :: dropEmpty shown :=
  List.filter_cons_of_pos (by simpa using some_part)

theorem some_text_ne {value : String} (some_text : value ≠ "") : (TokenType.text, value) ≠ (.text, "") := by
  intro same
  exact some_text (Prod.mk.inj same).2

theorem normal_empty (shown : List Shown) : normal ((.text, "") :: shown) = normal shown := by
  unfold normal
  rw [dropEmpty_empty]

theorem normal_element {type : TokenType} (element : type ≠ .text) (value : String)
    (shown : List Shown) : normal ((type, value) :: shown) = (type, value) :: normal shown := by
  have some_part : (type, value) ≠ (.text, "") := by
    intro same
    exact element (Prod.mk.inj same).1
  unfold normal
  rw [dropEmpty_cons some_part, joinText]
  cases joinText (dropEmpty shown) with
  | nil => rfl
  | cons next rest => exact if_neg fun both => element both.1

theorem normal_some_text {value : String} (some_text : value ≠ "") (shown : List Shown) :
    normal ((.text, value) :: shown) = joinText ((.text, value) :: dropEmpty shown) := by
  unfold normal
  rw [dropEmpty_cons (some_text_ne some_text)]

theorem joinText_join (first second : String) (shown : List Shown) :
    joinText ((.text, first) :: (.text, second) :: shown) = joinText ((.text, first ++ second) :: shown) := by
  simp only [joinText]
  cases joinText shown with
  | nil => simp
  | cons next rest =>
    by_cases text : next.1 = .text
    · simp [text, String.append_assoc]
    · simp [text]

theorem normal_join (first second : String) (shown : List Shown) :
    normal ((.text, first) :: (.text, second) :: shown) = normal ((.text, first ++ second) :: shown) := by
  by_cases no_first : first = ""
  · subst no_first
    rw [normal_empty, String.empty_append]
  by_cases no_second : second = ""
  · subst no_second
    rw [String.append_empty, normal_some_text no_first, normal_some_text no_first, dropEmpty_empty]
  · have some_text : first ++ second ≠ "" := by
      intro empty
      exact no_first (String.append_eq_empty_iff.1 empty).1
    rw [normal_some_text no_first, normal_some_text some_text, dropEmpty_cons (some_text_ne no_second),
      joinText_join]

def plain (text : String) : List Shown :=
  if text = "" then [] else [(.text, text)]

theorem normal_plain (text : String) : normal [(.text, text)] = plain text := by
  unfold plain
  split
  next empty => rw [empty, normal_empty]; rfl
  next some_text => rw [normal_some_text some_text]; rfl

theorem normal_plain_element {type : TokenType} (element : type ≠ .text) (text value : String)
    (shown : List Shown) :
    normal ((.text, text) :: (type, value) :: shown) = plain text ++ (type, value) :: normal shown := by
  have behind := normal_element element value shown
  unfold plain
  split
  next empty => rw [empty, normal_empty, behind]; rfl
  next some_text =>
    rw [normal_some_text some_text, joinText]
    unfold normal at behind
    rw [behind]
    exact if_neg fun both => element both.2

section

variable {Item : Type} {show_part : Shown → List Item}

theorem flatMap_dropEmpty (empty : show_part (.text, "") = []) (shown : List Shown) :
    (dropEmpty shown).flatMap show_part = shown.flatMap show_part := by
  induction shown with
  | nil => rfl
  | cons part shown ih =>
    by_cases nothing : part = (.text, "")
    · rw [nothing, dropEmpty_empty, List.flatMap_cons, empty, ih, List.nil_append]
    · rw [dropEmpty_cons nothing, List.flatMap_cons, List.flatMap_cons, ih]

theorem flatMap_joinText
    (joined : ∀ first second,
      show_part (.text, first ++ second) = show_part (.text, first) ++ show_part (.text, second))
    (shown : List Shown) : (joinText shown).flatMap show_part = shown.flatMap show_part := by
  induction shown with
  | nil => rfl
  | cons part shown ih =>
    rw [List.flatMap_cons, ← ih, joinText]
    cases joinText shown with
    | nil => rfl
    | cons next rest =>
      by_cases both : part.1 = .text ∧ next.1 = .text
      · obtain ⟨type, value⟩ := part
        obtain ⟨other, further⟩ := next
        obtain ⟨rfl, rfl⟩ := both
        simp [joined]
      · simp [both]

/-- Whatever takes no account of how plain text is divided can be read off from what is shown. -/
theorem flatMap_visible (empty : show_part (.text, "") = [])
    (joined : ∀ first second,
      show_part (.text, first ++ second) = show_part (.text, first) ++ show_part (.text, second))
    (tokens : List Token) :
    (visible tokens).flatMap show_part = tokens.flatMap fun token => show_part (token.type, token.value) := by
  unfold visible normal
  rw [flatMap_joinText joined, flatMap_dropEmpty empty, List.flatMap_map]

end

end CodeColor.Markup
