import CodeColor.Pattern.CharSet

/-!
Sets of characters: the letters of the Latin alphabet, and white space beside other sets. There are few white-space
characters, so that a set is apart from them can be seen by going through them.

Main statements: `CharSet.alphanumeric_eq` and `Text.Blank.off`.
-/

namespace CodeColor

namespace CharSet

theorem letter_eq : letter = Char.isAlpha := by
  funext c
  have upper : Char.isUpper c = (decide ('A' ≤ c) && decide (c ≤ 'Z')) := Bool.decide_and ..
  change (_ || decide ('a' ≤ c) && decide (c ≤ 'z')) = (Char.isUpper c || Char.isLower c)
  rw [upper]
  rfl

theorem alphanumeric_eq : alphanumeric = Char.isAlphanum := by
  funext c
  change (letter c || decide ('0' ≤ c) && decide (c ≤ '9')) = (Char.isAlpha c || Char.isDigit c)
  rw [letter_eq]
  rfl

theorem toNat_le_of_between {first last c : Char} (inside : between first last c = true) : c.toNat ≤ last.toNat := by
  simp only [between, Bool.and_eq_true, decide_eq_true_eq] at inside
  exact inside.2

theorem not_mem {set : CharSet} {text : List Char} (inside : ∀ c ∈ text, set c = true) {c : Char}
    (out : set c = false) : c ∉ text :=
  fun member => Bool.false_ne_true (out.symm.trans (inside c member))

end CharSet

namespace Text

def Ranges.points (ranges : Ranges) : List Nat :=
  ranges.flatMap fun range => List.range' range.1 (range.2 + 1 - range.1)

theorem Ranges.mem_points {ranges : Ranges} {point : Nat} (found : ranges.holds point = true) :
    point ∈ ranges.points := by
  obtain ⟨range, member, above, below⟩ := holds_of_mem found
  apply List.mem_flatMap.2
  exact ⟨range, member, List.mem_range'_1.2 (by omega)⟩

def blanks : List Char :=
  blankRanges.points.map Char.ofNat

theorem mem_blanks {c : Char} (blank : isBlank c = true) : c ∈ blanks :=
  List.mem_map.2 ⟨c.toNat, Ranges.mem_points blank, Char.ofNat_toNat c⟩

/-- The set holds no white space. -/
def OffBlank (set : CharSet) : Prop :=
  ∀ point ∈ blankRanges.points, set (Char.ofNat point) = false

instance (set : CharSet) : Decidable (OffBlank set) :=
  List.decidableBAll (fun point => set (Char.ofNat point) = false) blankRanges.points

theorem OffBlank.eq_false {set : CharSet} (off : OffBlank set) {c : Char} (blank : CharSet.blank c = true) :
    set c = false := by
  have known := off c.toNat (Ranges.mem_points blank)
  rwa [Char.ofNat_toNat] at known

def Blank (text : List Char) : Prop :=
  ∀ c ∈ text, CharSet.blank c = true

theorem blank_nil : Blank [] := fun _ member => absurd member List.not_mem_nil

instance (text : List Char) : Decidable (Blank text) :=
  List.decidableBAll (fun c => CharSet.blank c = true) text

theorem Blank.off {set : CharSet} {text : List Char} (blank : Blank text) (off : OffBlank set) :
    ∀ c ∈ text, set c = false :=
  fun c member => off.eq_false (blank c member)

end Text

end CodeColor
