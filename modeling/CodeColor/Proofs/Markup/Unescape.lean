import CodeColor.Markup.Render

/-!
Reading escaped text back. What escaping writes holds no bracket and no quote, and one pass over it gives the
text again.

Main statements: `unescape_escape` and `mem_escape`.
-/

namespace CodeColor.Markup

/-- The text with each of the five references replaced by its character, in one pass. -/
def unescape : List Char → List Char
  | '&' :: 'a' :: 'm' :: 'p' :: ';' :: text => '&' :: unescape text
  | '&' :: 'l' :: 't' :: ';' :: text => '<' :: unescape text
  | '&' :: 'g' :: 't' :: ';' :: text => '>' :: unescape text
  | '&' :: 'q' :: 'u' :: 'o' :: 't' :: ';' :: text => '"' :: unescape text
  | '&' :: '#' :: 'x' :: '2' :: '7' :: ';' :: text => '\x27' :: unescape text
  | c :: text => c :: unescape text
  | [] => []

theorem unescape_cons {c : Char} (plain : c ≠ '&') (text : List Char) :
    unescape (c :: text) = c :: unescape text := by
  rw [unescape]
  all_goals
    intro _ same
    exact absurd same plain

theorem unescape_append {text : List Char} (plain : '&' ∉ text) (rest : List Char) :
    unescape (text ++ rest) = text ++ unescape rest := by
  induction text with
  | nil => rfl
  | cons c text ih =>
    have first : c ≠ '&' := fun same => plain (same ▸ List.mem_cons_self)
    have others : '&' ∉ text := fun member => plain (List.mem_cons_of_mem c member)
    rw [List.cons_append, unescape_cons first, ih others, List.cons_append]

theorem escapeChar_eq_self {c : Char} (plain : c ∉ ['&', '<', '>', '"', '\x27']) :
    escapeChar c = [c] := by
  simp only [List.mem_cons, List.not_mem_nil, or_false, not_or] at plain
  simp [escapeChar, plain]

theorem unescape_escapeChar (c : Char) (text : List Char) :
    unescape (escapeChar c ++ text) = c :: unescape text := by
  by_cases reserved : c ∈ ['&', '<', '>', '"', '\x27']
  · simp only [List.mem_cons, List.not_mem_nil, or_false] at reserved
    rcases reserved with rfl | rfl | rfl | rfl | rfl
    all_goals
      simp only [escapeChar]
      rfl
  · have plain : c ≠ '&' := by
      rintro rfl
      exact reserved List.mem_cons_self
    rw [escapeChar_eq_self reserved]
    exact unescape_cons plain text

theorem unescape_escape (text rest : List Char) :
    unescape (text.flatMap escapeChar ++ rest) = text ++ unescape rest := by
  induction text with
  | nil => rfl
  | cons c text ih =>
    rw [List.flatMap_cons, List.append_assoc, unescape_escapeChar, ih, List.cons_append]

theorem not_mem_of_all {text reserved : List Char} (clear : text.all fun c => c ∉ reserved)
    {c : Char} (member : c ∈ text) : c ∉ reserved :=
  of_decide_eq_true (List.all_eq_true.1 clear c member)

theorem mem_escapeChar {c d : Char} (member : d ∈ escapeChar c) : d ∉ ['<', '>', '"', '\x27'] := by
  by_cases reserved : c ∈ ['&', '<', '>', '"', '\x27']
  · simp only [List.mem_cons, List.not_mem_nil, or_false] at reserved
    rcases reserved with rfl | rfl | rfl | rfl | rfl
    all_goals exact not_mem_of_all (by decide) member
  · rw [escapeChar_eq_self reserved, List.mem_singleton] at member
    rw [member]
    exact fun reserved' => reserved (List.mem_cons_of_mem _ reserved')

/-- Escaped text holds none of the characters that make up tags. -/
theorem mem_escape {text : List Char} {d : Char} (member : d ∈ text.flatMap escapeChar) :
    d ∉ ['<', '>', '"', '\x27'] := by
  obtain ⟨c, _, inside⟩ := List.mem_flatMap.1 member
  exact mem_escapeChar inside

end CodeColor.Markup
