import CodeColor.Proofs.Pattern.Alphabet

/-!
Matches in a block of whole lines. Around the block the text goes on with line feeds, which are no word characters and
at which lines begin and end, so word boundaries and the starts of lines hold on. The end of a line needs care where the
block ends with a line feed: what follows then is the next line.

Main statement: `lasts_of_lasting`.
-/

namespace CodeColor

/-- Between what stands in front and behind, the block is made of whole lines: it starts where a line starts, and it
ends where a line ends or where the next one starts. -/
structure LineBlock (front block back : List Char) : Prop where
  opens : front = [] ∨ front.getLast? = some '\n'
  closes : back = [] ∨ back.head? = some '\n' ∨ block.getLast? = some '\n'

theorem inLine_of_mem {set : CharSet} (no_feed : set '\n' = false) (c : Char) (member : set c = true) :
    CharSet.inLine c = true := by
  have other : c ≠ '\n' := by
    rintro rfl
    exact absurd (no_feed.symm.trans member) Bool.false_ne_true
  simpa [CharSet.inLine, CharSet.except] using other

theorem breaks_eq (text : List Char) :
    (text.isEmpty || startsIn (· == '\n') text) = !startsIn .inLine text := by
  cases text with
  | nil => rfl
  | cons c text => simp [startsIn, CharSet.inLine, CharSet.except, beq_eq_decide]

namespace LineBlock

variable {front block back : List Char} {cursor : Cursor}

theorem startsIn_before (lines : LineBlock front block back) {set : CharSet} (no_feed : set '\n' = false)
    (before : List Char) : startsIn set (before ++ front.reverse) = startsIn set before := by
  cases before with
  | cons c before => rfl
  | nil =>
    rcases lines.opens with none | last
    · rw [none]
      rfl
    · have first : front.reverse.head? = some '\n' := List.head?_reverse.trans last
      rw [List.nil_append, startsIn_of_head first, no_feed]
      rfl

theorem closes_at (lines : LineBlock front block back) (inside : cursor.In block) (last : cursor.after = [])
    (in_line : startsIn .inLine cursor.before = true) : back = [] ∨ back.head? = some '\n' := by
  rcases lines.closes with none | feed | feed
  · exact .inl none
  · exact .inr feed
  · have whole : cursor.before.reverse = block := by
      rw [Cursor.In, last, List.append_nil] at inside
      exact inside
    rw [← whole, List.getLast?_reverse] at feed
    rw [startsIn_of_head feed] at in_line
    exact absurd in_line (by decide)

theorem startsIn_after (lines : LineBlock front block back) {set : CharSet} (no_feed : set '\n' = false)
    (inside : cursor.In block) (in_line : startsIn .inLine cursor.before = true) :
    startsIn set (cursor.after ++ back) = startsIn set cursor.after := by
  cases rest : cursor.after with
  | cons c rest => rfl
  | nil =>
    rcases lines.closes_at inside rest in_line with none | feed
    · rw [none]
      rfl
    · rw [List.nil_append, startsIn_of_head feed, no_feed]
      rfl

theorem word_boundary (lines : LineBlock front block back) (inside : cursor.In block)
    (holds : Guard.wordBoundary.holds cursor = true) :
    Guard.wordBoundary.holds (cursor.within front back) = true := by
  have feed : CharSet.word '\n' = false := by decide
  have before := lines.startsIn_before feed cursor.before
  have after : startsIn .word (cursor.after ++ back) = startsIn .word cursor.after := by
    cases word : startsIn .word cursor.before with
    | true => exact lines.startsIn_after feed inside (startsIn_mono (inLine_of_mem feed) word)
    | false =>
      have starts : startsIn .word cursor.after = true := by
        rw [Guard.holds, word, Bool.false_bne] at holds
        exact holds
      rw [starts]
      exact startsIn_append_left starts back
  rw [Guard.holds] at holds ⊢
  rw [Cursor.within, before, after]
  exact holds

theorem line_start (lines : LineBlock front block back) (holds : Guard.lineStart.holds cursor = true) :
    Guard.lineStart.holds (cursor.within front back) = true := by
  have feed : CharSet.inLine '\n' = false := by decide
  rw [Guard.holds, breaks_eq] at holds ⊢
  rw [Cursor.within, lines.startsIn_before feed]
  exact holds

theorem line_end (lines : LineBlock front block back) (inside : cursor.In block)
    (in_line : startsIn .inLine cursor.before = true) (holds : Guard.lineEnd.holds cursor = true) :
    Guard.lineEnd.holds (cursor.within front back) = true := by
  have feed : CharSet.inLine '\n' = false := by decide
  rw [Guard.holds, breaks_eq] at holds ⊢
  rw [Cursor.within, lines.startsIn_after feed inside in_line]
  exact holds

end LineBlock

namespace Pattern

/-! ## Patterns that last among lines -/

/-- What the pattern takes holds no line feed. -/
def staysInLine : Pattern → Bool
  | literal text => text.all CharSet.inLine
  | one set | many set | few set => !set '\n'
  | guard _ | ahead _ => true
  | quotedBody _ => false
  | seq first second | alt first second => first.staysInLine && second.staysInLine

/-- The pattern takes some text, which does not end with a line feed. -/
def endsInLine : Pattern → Bool
  | literal text => startsIn .inLine text.reverse
  | one set => !set '\n'
  | many _ | few _ | quotedBody _ | guard _ | ahead _ => false
  | seq first second => second.endsInLine || (first.endsInLine && second.staysInLine)
  | alt first second => first.endsInLine && second.endsInLine

def isLineEnd : Pattern → Bool
  | guard .lineEnd => true
  | _ => false

theorem eq_of_isLineEnd {pattern : Pattern} (closing : pattern.isLineEnd = true) : pattern = guard .lineEnd := by
  unfold isLineEnd at closing
  split at closing
  · rfl
  · cases closing

/-- The pattern looks no further than boundaries of words and lines, and for the end of a line only behind a character
of that line. -/
def lasting : Pattern → Bool
  | literal _ | one _ | many _ | few _ => true
  | guard .wordBoundary | guard .lineStart => true
  | guard _ | quotedBody _ | ahead _ => false
  | seq first second => first.lasting && (second.lasting || (second.isLineEnd && first.endsInLine))
  | alt first second => first.lasting && second.lasting

section

variable {pattern : Pattern}

/-! Line feeds are one alphabet that a pattern may stay clear of. -/

theorem staysInLine_eq (pattern : Pattern) : pattern.staysInLine = pattern.staysBeyond ['\n'] := by
  induction pattern with
  | literal text => rfl
  | one set | many set | few set => exact (Bool.and_true _).symm
  | quotedBody quote | guard condition | ahead pattern => rfl
  | seq first second ihFirst ihSecond | alt first second ihFirst ihSecond =>
    rw [staysInLine, staysBeyond, ihFirst, ihSecond]

theorem endsInLine_eq (pattern : Pattern) : pattern.endsInLine = pattern.endsBeyond ['\n'] := by
  induction pattern with
  | literal text => rfl
  | one set => exact (Bool.and_true _).symm
  | many set | few set | quotedBody quote | guard condition | ahead pattern => rfl
  | seq first second ihFirst ihSecond => rw [endsInLine, endsBeyond, ihFirst, ihSecond, staysInLine_eq]
  | alt first second ihFirst ihSecond => rw [endsInLine, endsBeyond, ihFirst, ihSecond]

theorem inLine_of_mem_ends {cursor stop : Cursor} (ends : pattern.endsInLine = true)
    (found : stop ∈ pattern.ends cursor) : startsIn .inLine stop.before = true :=
  ends_beyond_of_mem_ends ((endsInLine_eq pattern).symm.trans ends) found

variable {front block back : List Char}

/-- Such a pattern finds in a text what it finds in a block of its lines. -/
theorem lasts_of_lasting (lasting : pattern.lasting = true) (lines : LineBlock front block back) :
    pattern.Lasts front block back := by
  induction pattern with
  | literal text => exact Lasts.literal text
  | one set => exact Lasts.one set
  | many set => exact Lasts.many set
  | few set => exact Lasts.few set
  | quotedBody quote | ahead pattern => cases lasting
  | guard condition =>
    cases condition with
    | wordBoundary => exact Lasts.guard fun cursor inside holds => lines.word_boundary inside holds
    | lineStart => exact Lasts.guard fun cursor _ holds => lines.line_start holds
    | lineEnd | stretchEnd | after set | notAfter set | notBefore set => cases lasting
  | seq first second ihFirst ihSecond =>
    rw [Pattern.lasting, Bool.and_eq_true, Bool.or_eq_true, Bool.and_eq_true] at lasting
    obtain ⟨left, right | ⟨closing, ends⟩⟩ := lasting
    · exact Lasts.seq (ihFirst left) (ihSecond right)
    · rw [eq_of_isLineEnd closing]
      apply Lasts.guarded (ihFirst left)
      intro cursor stop inside found holds
      exact lines.line_end inside (inLine_of_mem_ends ends found) holds
  | alt first second ihFirst ihSecond =>
    rw [Pattern.lasting, Bool.and_eq_true] at lasting
    exact Lasts.alt (ihFirst lasting.1) (ihSecond lasting.2)

end

end Pattern

end CodeColor
