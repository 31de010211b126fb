import CodeColor.Pattern.Basic

/-! Where a pattern matches in a text. -/

namespace CodeColor.Pattern

/-- The length of the match at the start of `after`, the first that takes any text. -/
def matchLength? (pattern : Pattern) (before after : List Char) : Option Nat :=
  (pattern.run (fun stop => if stop.taken = 0 then none else some stop) ⟨before, after, 0⟩).map
    Cursor.taken

def occursFrom (pattern : Pattern) (before : List Char) : List Char → Bool
  | [] => (pattern.run some ⟨before, [], 0⟩).isSome
  | c :: after =>
    (pattern.run some ⟨before, c :: after, 0⟩).isSome || occursFrom pattern (c :: before) after

def occursIn (pattern : Pattern) (text : List Char) : Bool :=
  pattern.occursFrom [] text

end CodeColor.Pattern
