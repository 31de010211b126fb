import CodeColor.Language.Lexeme
import CodeColor.Proofs.Pattern.Run

/-!
Words and numbers: text that no word character touches.

Main statements: `wholeWord_match` and `word_of_match`, and `run_number`.
-/

namespace CodeColor

theorem startsIn_of_head {set : CharSet} {text : List Char} {c : Char} (first : text.head? = some c) :
    startsIn set text = set c := by
  obtain ⟨rest, rfl⟩ := List.head?_eq_some_iff.1 first
  rfl

theorem startsIn_append {set : CharSet} {text : List Char} (some_text : text ≠ []) (rest : List Char) :
    startsIn set (text ++ rest) = startsIn set text := by
  cases text with
  | nil => exact absurd rfl some_text
  | cons => rfl

theorem startsIn_append_left {set : CharSet} {text : List Char} (starts : startsIn set text = true)
    (rest : List Char) : startsIn set (text ++ rest) = true := by
  have some_text : text ≠ [] := by
    rintro rfl
    cases starts
  exact (startsIn_append some_text rest).trans starts

theorem startsIn_of_forall {set : CharSet} {text : List Char} (some_text : text ≠ [])
    (inside : ∀ c ∈ text, set c = true) : startsIn set text = true := by
  cases text with
  | nil => exact absurd rfl some_text
  | cons c text => exact inside c List.mem_cons_self

theorem startsIn_append_of_forall {set : CharSet} {text : List Char} (some_text : text ≠ [])
    (inside : ∀ c ∈ text, set c = true) (rest : List Char) : startsIn set (text ++ rest) = true :=
  startsIn_append_left (startsIn_of_forall some_text inside) rest

theorem startsIn_reverse_append {set : CharSet} {text : List Char} (some_text : text ≠ [])
    (inside : ∀ c ∈ text, set c = true) (before : List Char) :
    startsIn set (text.reverse ++ before) = true :=
  startsIn_append_of_forall (by simpa using some_text) (fun c member => inside c (List.mem_reverse.1 member))
    before

theorem startsIn_reverse_append_of_not {set : CharSet} {text before : List Char} (outside : ∀ c ∈ text, set c = false)
    (free : startsIn set before = false) : startsIn set (text.reverse ++ before) = false := by
  rcases List.eq_nil_or_concat text with rfl | ⟨front, c, rfl⟩
  · exact free
  · have last := outside c (by simp)
    simpa [startsIn] using last

theorem prefix_of_prefix_append {set : CharSet} {first second rest : List Char}
    (inside : ∀ c ∈ first, set c = true) (stops : startsIn set rest = false)
    (leads : first <+: second ++ rest) : first <+: second := by
  obtain ⟨behind, split⟩ := leads
  rcases List.append_eq_append_iff.1 split with ⟨more, whole, -⟩ | ⟨more, whole, further⟩
  · exact ⟨more, whole.symm⟩
  · cases more with
    | nil => exact ⟨[], by rw [whole, List.append_nil, List.append_nil]⟩
    | cons c more =>
      have known := inside c (by simp [whole])
      rw [further] at stops
      exact absurd (stops.symm.trans known) Bool.false_ne_true

namespace Pattern

section

variable {next : Cursor → Option Cursor}

theorem run_boundary {cursor : Cursor}
    (edge : startsIn CharSet.word cursor.before ≠ startsIn CharSet.word cursor.after) :
    boundary.run next cursor = next cursor :=
  run_guard (bne_iff_ne.2 edge)

theorem run_boundary_absent {cursor : Cursor}
    (same : startsIn CharSet.word cursor.before = startsIn CharSet.word cursor.after) :
    boundary.run next cursor = none :=
  run_guard_absent (bne_eq_false_iff_eq.2 same)

theorem run_choice (patterns : List Pattern) (some_pattern : patterns ≠ []) (cursor : Cursor) :
    (choice patterns).run next cursor = patterns.findSome? fun pattern => pattern.run next cursor := by
  induction patterns with
  | nil => exact absurd rfl some_pattern
  | cons pattern patterns ih =>
    cases patterns with
    | nil =>
      rw [choice, List.findSome?_cons, List.findSome?_nil]
      cases pattern.run next cursor <;> rfl
    | cons other patterns =>
      have onward := ih (List.cons_ne_nil other patterns)
      rw [List.findSome?_cons, ← onward]
      exact (run_or pattern _ cursor).trans (by cases pattern.run next cursor <;> rfl)

theorem run_oneOrMore_greedy {set : CharSet} {run rest before : List Char} {taken : Nat} {stop : Cursor}
    (some_text : run ≠ []) (inside : ∀ c ∈ run, set c = true) (stops : startsIn set rest = false)
    (found : next ⟨run.reverse ++ before, rest, taken + run.length⟩ = some stop) :
    (oneOrMore set).run next ⟨before, run ++ rest, taken⟩ = some stop := by
  obtain ⟨c, run, rfl⟩ := List.exists_cons_of_ne_nil some_text
  have first := inside c List.mem_cons_self
  have others : ∀ d ∈ run, set d = true := fun d member => inside d (List.mem_cons_of_mem c member)
  rw [oneOrMore, run_append, List.cons_append, run_one first]
  refine run_many_greedy others stops (c :: before) (taken + 1) ?_
  rwa [List.reverse_cons, List.append_assoc, List.length_cons, Nat.add_comm run.length, ← Nat.add_assoc] at found

end

/-! ## Words -/

/-- Text that a word rule may look for. -/
def Word (word : String) : Prop :=
  word.toList ≠ [] ∧ ∀ c ∈ word.toList, CharSet.word c = true

instance (word : String) : Decidable (Word word) :=
  decidable_of_iff (word.toList ≠ [] ∧ word.toList.all (fun c => CharSet.word c) = true)
    (and_congr_right fun _ => List.all_eq_true)

theorem Word.startsIn_reverse {word : String} (plain : Word word) :
    startsIn CharSet.word word.toList.reverse = true := by
  simpa using startsIn_reverse_append plain.1 plain.2 []

theorem run_word {next : Cursor → Option Cursor} {word other : String} (plain : Word other)
    {rest : List Char} (stops : startsIn CharSet.word rest = false) (apart : other ≠ word)
    (letters : Word word) (before : List Char) (taken : Nat) :
    (exactly other).run (fun stop => boundary.run next stop) ⟨before, word.toList ++ rest, taken⟩ = none := by
  by_cases leads : other.toList <+: word.toList ++ rest
  · obtain ⟨more, whole⟩ := prefix_of_prefix_append plain.2 stops leads
    have some_more : more ≠ [] := by
      rintro rfl
      rw [List.append_nil] at whole
      exact apart (String.toList_inj.1 whole)
    have further : ∀ c ∈ more, CharSet.word c = true :=
      fun c member => letters.2 c (whole ▸ List.mem_append_right _ member)
    rw [← whole, List.append_assoc, exactly, run_literal]
    exact run_boundary_absent ((startsIn_reverse_append plain.1 plain.2 before).trans
      (startsIn_append_of_forall some_more further rest).symm)
  · exact run_literal_absent leads

theorem wholeWord_match {words : List String} (plain : ∀ word ∈ words, Word word) {word : String}
    (member : word ∈ words) {before rest : List Char} (free : startsIn CharSet.word before = false)
    (stops : startsIn CharSet.word rest = false) :
    (wholeWord words).matchLength? before (word.toList ++ rest) = some word.toList.length := by
  have letters := plain word member
  have size : 0 + word.toList.length ≠ 0 := by
    have positive := List.length_pos_iff.2 letters.1
    omega
  have some_pattern : words.map exactly ≠ [] := by
    simpa using List.ne_nil_of_mem member
  have found : (anyWord words).run (fun stop => boundary.run
      accept stop) ⟨before, word.toList ++ rest, 0⟩ =
      some ⟨word.toList.reverse ++ before, rest, 0 + word.toList.length⟩ := by
    have here : (exactly word).run (fun stop => boundary.run
        accept stop) ⟨before, word.toList ++ rest, 0⟩ =
        some ⟨word.toList.reverse ++ before, rest, 0 + word.toList.length⟩ := by
      rw [exactly, run_literal, run_boundary, accept_eq_some size]
      rw [startsIn_reverse_append letters.1 letters.2, stops]
      decide
    obtain ⟨first, last, split, fresh⟩ := List.eq_append_cons_of_mem member
    rw [anyWord, run_choice _ some_pattern, List.findSome?_map]
    refine List.findSome?_eq_some_iff.2 ⟨first, word, last, split, here, fun other inside => ?_⟩
    exact run_word (plain other (by simp [split, inside])) stops (by
      rintro rfl
      exact fresh inside) letters before 0
  rw [matchLength?_eq_run, wholeWord, run_append, run_append, run_boundary, found]
  · simp
  · rw [free, startsIn_append_of_forall letters.1 letters.2]
    decide

theorem mem_ends_choice {patterns : List Pattern} (some_pattern : patterns ≠ []) {cursor stop : Cursor} :
    stop ∈ (choice patterns).ends cursor ↔ ∃ pattern ∈ patterns, stop ∈ pattern.ends cursor := by
  induction patterns with
  | nil => exact absurd rfl some_pattern
  | cons pattern patterns ih =>
    cases patterns with
    | nil => simp [choice]
    | cons other patterns =>
      have onward := ih (List.cons_ne_nil other patterns)
      change stop ∈ pattern.ends cursor ++ (choice (other :: patterns)).ends cursor ↔ _
      rw [List.mem_append, onward]
      simp

theorem not_word_of_boundary {cursor : Cursor} (holds : Guard.wordBoundary.holds cursor = true) :
    startsIn CharSet.word cursor.before = !startsIn CharSet.word cursor.after :=
  Bool.eq_not_of_ne (bne_iff_ne.1 holds)

/-- What a rule for words matches is a word that no word character touches. -/
theorem word_of_match {words : List String} (plain : ∀ word ∈ words, Word word) {before after : List Char}
    {length : Nat} (found : (wholeWord words).matchLength? before after = some length) :
    ∃ word ∈ words, ∃ rest, after = word.toList ++ rest ∧ length = word.toList.length ∧
      startsIn CharSet.word before = false ∧ startsIn CharSet.word rest = false := by
  rw [matchLength?_eq] at found
  obtain ⟨stop, first, rfl⟩ := Option.map_eq_some_iff.1 found
  have taken : stop.taken ≠ 0 := by simpa using List.find?_some first
  have member : stop ∈ (seq (seq boundary (anyWord words)) boundary).ends ⟨before, after, 0⟩ :=
    List.mem_of_find?_eq_some first
  simp only [ends, List.mem_flatMap] at member
  obtain ⟨middle, ⟨place, opening, spelled⟩, closing⟩ := member
  obtain ⟨opens, rfl⟩ := mem_ends_guard.1 opening
  obtain ⟨closes, rfl⟩ := mem_ends_guard.1 closing
  have some_word : words.map exactly ≠ [] := by
    intro none
    rw [anyWord, none] at spelled
    have here : stop = ⟨before, after, 0⟩ := List.mem_singleton.1 spelled
    rw [here] at taken
    exact taken rfl
  obtain ⟨pattern, listed, spelled⟩ := (mem_ends_choice some_word).1 spelled
  obtain ⟨word, known, rfl⟩ := List.mem_map.1 listed
  have passed : Cursor.past? word.toList ⟨before, after, 0⟩ = some stop := Option.mem_toList.1 spelled
  obtain ⟨rest, rfl⟩ := Cursor.prefix_of_past? passed
  rw [Cursor.past?_append] at passed
  cases passed
  have letters := plain word known
  have before_word := not_word_of_boundary opens
  have behind_word := not_word_of_boundary closes
  rw [startsIn_append_of_forall letters.1 letters.2] at before_word
  rw [startsIn_reverse_append letters.1 letters.2] at behind_word
  refine ⟨word, known, rest, rfl, Nat.zero_add _, before_word, ?_⟩
  simpa using behind_word.symm

/-! ## Numbers -/

def touching : CharSet := CharSet.word.or (CharSet.digit.or (.among ['.']))

theorem of_touching {text : List Char} (free : startsIn touching text = false) :
    startsIn CharSet.word text = false ∧ startsIn CharSet.digit text = false ∧
      startsIn (CharSet.among ['.']) text = false := by
  cases text with
  | nil => exact ⟨rfl, rfl, rfl⟩
  | cons c text =>
    obtain ⟨word, others⟩ := Bool.or_eq_false_iff.1 free
    exact ⟨word, Bool.or_eq_false_iff.1 others⟩

/-- One digit or more, each of them a word character. -/
structure Numerals (digits : List Char) : Prop where
  some_text : digits ≠ []
  digit : ∀ c ∈ digits, CharSet.digit c = true
  word : ∀ c ∈ digits, CharSet.word c = true

section

variable {next : Cursor → Option Cursor} {whole rest before : List Char} {taken : Nat} {stop : Cursor}

theorem run_fraction {fraction : List Char} (edge : startsIn CharSet.word before = true)
    (spelled : fraction = [] ∨ ∃ digits, fraction = '.' :: digits ∧ Numerals digits)
    (stops : startsIn touching rest = false)
    (found : next ⟨fraction.reverse ++ before, rest, taken + fraction.length⟩ = some stop) :
    (optional (exactly "." ++ oneOrMore .digit) ++ boundary).run next ⟨before, fraction ++ rest, taken⟩ =
      some stop := by
  obtain ⟨no_word, no_digit, no_point⟩ := of_touching stops
  rw [run_optional, run_append]
  rcases spelled with rfl | ⟨digits, rfl, numerals⟩
  · have absent : ¬ ".".toList <+: [] ++ rest := by
      rintro ⟨behind, split⟩
      rw [← List.nil_append rest, ← split] at no_point
      exact absurd no_point (by simp [startsIn, CharSet.among])
    rw [exactly, run_literal_absent absent, Option.none_or, run_boundary]
    · exact found
    · rw [List.nil_append, edge, no_word]
      decide
  · have further : (oneOrMore .digit).run (fun stop => boundary.run next stop)
        ⟨'.' :: before, digits ++ rest, taken + 1⟩ = some stop := by
      refine run_oneOrMore_greedy numerals.some_text numerals.digit no_digit ?_
      rw [run_boundary]
      · rw [List.reverse_cons, List.append_assoc, List.length_cons, Nat.add_comm digits.length,
          ← Nat.add_assoc] at found
        exact found
      · rw [startsIn_reverse_append numerals.some_text numerals.word, no_word]
        decide
    have point : (literal ['.']).run (fun stop => (oneOrMore .digit).run
        (fun stop => boundary.run next stop) stop) ⟨before, ['.'] ++ (digits ++ rest), taken⟩ = some stop :=
      (run_literal ['.'] before (digits ++ rest) taken).trans further
    change ((literal ['.']).run _ ⟨before, ['.'] ++ (digits ++ rest), taken⟩).or _ = _
    rw [point]
    rfl

/-- A number is taken whole where no word character touches it and no point follows. -/
theorem run_number {fraction : List Char} (free : startsIn CharSet.word before = false)
    (numerals : Numerals whole)
    (spelled : fraction = [] ∨ ∃ digits, fraction = '.' :: digits ∧ Numerals digits)
    (stops : startsIn touching rest = false)
    (found : next ⟨(whole ++ fraction).reverse ++ before, rest, taken + (whole ++ fraction).length⟩ =
      some stop) :
    Language.Lexeme.number.run next ⟨before, whole ++ (fraction ++ rest), taken⟩ = some stop := by
  have no_digit : startsIn CharSet.digit (fraction ++ rest) = false := by
    rcases spelled with rfl | ⟨digits, rfl, -⟩
    · exact (of_touching stops).2.1
    · have point : CharSet.digit '.' = false := by decide
      exact point
  have edge := startsIn_reverse_append numerals.some_text numerals.word before
  have opened : (oneOrMore .digit).run (fun stop =>
      (optional (exactly "." ++ oneOrMore .digit) ++ boundary).run next stop)
      ⟨before, whole ++ (fraction ++ rest), taken⟩ = some stop := by
    refine run_oneOrMore_greedy numerals.some_text numerals.digit no_digit ?_
    refine run_fraction edge spelled stops ?_
    rwa [List.reverse_append, List.append_assoc, List.length_append, ← Nat.add_assoc] at found
  have start : boundary.run (fun stop => (oneOrMore .digit).run (fun stop =>
      (optional (exactly "." ++ oneOrMore .digit) ++ boundary).run next stop) stop)
      ⟨before, whole ++ (fraction ++ rest), taken⟩ = some stop := by
    rw [run_boundary]
    · exact opened
    · rw [free, startsIn_append_of_forall numerals.some_text numerals.word]
      decide
  exact start

end

end Pattern

end CodeColor
