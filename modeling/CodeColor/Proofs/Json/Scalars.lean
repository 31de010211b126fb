import CodeColor.Proofs.Json.Reading
import CodeColor.Proofs.Pattern.Words

/-!
Every string, every number and every named value of the grammar is read. A string ends with its quote and a named value
with its last letter, but a number goes on as long as it can, so that what follows must not be part of one.

Main statements: `readString_content`, `readScalar_word` and `readScalar_number`.
-/

namespace CodeColor.Json

/-! ## Strings -/

theorem hexValue?_of_hexDigit {c : Char} (digit : CharSet.hexDigit c = true) :
    ∃ value, Text.hexValue? c = some value := by
  simp only [CharSet.hexDigit, CharSet.or, CharSet.between, Bool.or_eq_true, Bool.and_eq_true,
    decide_eq_true_eq] at digit
  unfold Text.hexValue?
  split
  next => exact ⟨_, rfl⟩
  next no_decimal =>
    split
    next => exact ⟨_, rfl⟩
    next no_lower =>
      split
      next => exact ⟨_, rfl⟩
      next no_upper => exact absurd digit (by simp only [no_decimal, no_lower, no_upper, or_self, not_false_eq_true])

theorem escapeValue?_of_mem {c : Char} (known : c ∈ ['"', '\\', '/', 'b', 'f', 'n', 'r', 't']) :
    c ≠ 'u' ∧ ∃ value, escapeValue? c = some value := by
  simp only [List.mem_cons, List.not_mem_nil, or_false] at known
  rcases known with rfl | rfl | rfl | rfl | rfl | rfl | rfl | rfl <;> exact ⟨by decide, _, rfl⟩

theorem readString_unit {digits : List Char} (hexadecimal : ∀ digit ∈ digits, CharSet.hexDigit digit = true)
    (some_digit : digits ≠ []) (contents : Contents) {count : Nat} (four : digits.length + count = 4)
    (value : Nat) (text : List Char) :
    ∃ onward, readString contents (.unit count value) (digits ++ text) = readString onward .plain text := by
  induction digits generalizing count value with
  | nil => exact absurd rfl some_digit
  | cons digit digits ih =>
    obtain ⟨first, others⟩ := List.forall_mem_cons.1 hexadecimal
    obtain ⟨unit, known⟩ := hexValue?_of_hexDigit first
    rw [List.length_cons] at four
    rw [List.cons_append, readString]
    simp only [known]
    by_cases last : count = 3
    · have none : digits = [] := List.length_eq_zero_iff.1 (by omega)
      rw [if_pos last, none]
      exact ⟨_, rfl⟩
    · rw [if_neg last]
      refine ih others ?_ (by omega) _
      rintro rfl
      rw [List.length_nil] at four
      omega

theorem readString_content {content : List Char} (spelled : Content content) (contents : Contents)
    (rest : List Char) : ∃ value, readString contents .plain (content ++ '"' :: rest) = some (value, rest) := by
  induction spelled generalizing contents with
  | nil => exact ⟨_, rfl⟩
  | plain other visible _ ih =>
    rw [List.cons_append, readString]
    simp only [if_neg other.1, if_neg other.2, if_neg (Char.not_lt.2 visible)]
    exact ih _
  | escape known _ ih =>
    obtain ⟨no_unit, value, found⟩ := escapeValue?_of_mem known
    have onward := ih (contents.push value)
    simpa [readString, no_unit, found] using onward
  | @unit digits content four hexadecimal _ ih =>
    have some_digit : digits ≠ [] := by
      rintro rfl
      cases four
    have all_four : digits.length + 0 = 4 := four
    obtain ⟨onward, same⟩ := readString_unit hexadecimal some_digit contents all_four 0 (content ++ '"' :: rest)
    have further := ih onward
    rw [← same] at further
    simpa [readString] using further

theorem readString_plain {content : List Char} (plain : ∀ c ∈ content, c ≠ '"' ∧ c ≠ '\\' ∧ ' ' ≤ c)
    (done rest : List Char) :
    readString ⟨done, none⟩ .plain (content ++ '"' :: rest) = some (String.ofList (done.reverse ++ content), rest) := by
  induction content generalizing done with
  | nil => simp [readString, Contents.settled]
  | cons c content ih =>
    obtain ⟨⟨no_quote, no_backslash, visible⟩, others⟩ := List.forall_mem_cons.1 plain
    rw [List.cons_append, readString]
    simp only [if_neg no_quote, if_neg no_backslash, if_neg (Char.not_lt.2 visible), Contents.push, Contents.settled]
    rw [ih others]
    simp

/-! ## Numbers -/

def numberPart : CharSet := CharSet.or isDecimal (CharSet.or (.among ['.']) (.among ['e', 'E']))

theorem of_numberPart {text : List Char} (stops : startsIn numberPart text = false) :
    startsIn isDecimal text = false ∧ startsIn (.among ['.']) text = false ∧
      startsIn (.among ['e', 'E']) text = false := by
  cases text with
  | nil => exact ⟨rfl, rfl, rfl⟩
  | cons c text =>
    obtain ⟨no_digit, others⟩ := Bool.or_eq_false_iff.1 stops
    exact ⟨no_digit, Bool.or_eq_false_iff.1 others⟩

theorem takeDigits_append {digits rest : List Char} (decimal : ∀ digit ∈ digits, isDecimal digit = true)
    (stops : startsIn isDecimal rest = false) : takeDigits (digits ++ rest) = (digits, rest) := by
  have none_taken : rest.takeWhile isDecimal = [] ∧ rest.dropWhile isDecimal = rest := by
    cases rest with
    | nil => exact ⟨rfl, rfl⟩
    | cons c rest =>
      have other : ¬ isDecimal c = true := Bool.eq_false_iff.1 stops
      exact ⟨List.takeWhile_cons_of_neg other, List.dropWhile_cons_of_neg other⟩
  rw [takeDigits, List.takeWhile_append_of_pos decimal, List.dropWhile_append_of_pos decimal, none_taken.1,
    none_taken.2, List.append_nil]

theorem readWhole_append {digits rest : List Char} (whole : Whole digits) (stops : startsIn isDecimal rest = false) :
    readWhole (digits ++ rest) = some (digits, rest) := by
  rcases whole with rfl | ⟨⟨some_digit, decimal⟩, no_zero⟩
  · rfl
  · have taken := takeDigits_append decimal stops
    unfold readWhole
    split
    next text split =>
      obtain ⟨digit, digits, rfl⟩ := List.exists_cons_of_ne_nil some_digit
      cases split
      exact absurd rfl no_zero
    next =>
      rw [taken]
      split
      next empty =>
        cases empty
        exact absurd rfl some_digit
      next => rfl

theorem readFraction_append {text rest : List Char} (fraction : Fraction text)
    (no_digit : startsIn isDecimal rest = false) (no_point : startsIn (.among ['.']) rest = false) :
    readFraction (text ++ rest) = (text.tail, rest) := by
  rcases fraction with rfl | ⟨digits, rfl, some_digit, decimal⟩
  · unfold readFraction
    split
    next behind split =>
      have point : rest = '.' :: behind := split
      rw [point] at no_point
      cases no_point
    next => rfl
  · rw [List.cons_append, readFraction, takeDigits_append decimal no_digit]
    split
    next empty =>
      cases empty
      exact absurd rfl some_digit
    next => rfl

theorem readSigned_append (negative : Bool) {digits rest : List Char} (spelled : Digits digits)
    (stops : startsIn isDecimal rest = false) : ∃ value, readSigned negative (digits ++ rest) = some (value, rest) := by
  rw [readSigned, takeDigits_append spelled.2 stops]
  split
  next empty =>
    cases empty
    exact absurd rfl spelled.1
  next digits rest _ same =>
    cases same
    exact ⟨_, rfl⟩

theorem readScale_append {text rest : List Char} (exponent : Exponent text) (some_text : text ≠ [])
    (stops : startsIn isDecimal rest = false) : ∃ value, readScale (text ++ rest) = some (value, rest) := by
  rcases exponent with rfl | ⟨letter, sign, digits, rfl, known, signed, spelled⟩
  · exact absurd rfl some_text
  · have letters : letter = 'e' ∨ letter = 'E' := by simpa using known
    rw [List.cons_append, readScale, if_pos letters, List.append_assoc]
    simp only [List.mem_cons, List.not_mem_nil, or_false] at signed
    rcases signed with rfl | rfl | rfl
    · obtain ⟨value, read⟩ := readSigned_append false spelled stops
      refine ⟨value, ?_⟩
      obtain ⟨digit, digits, rfl⟩ := List.exists_cons_of_ne_nil spelled.1
      have decimal := spelled.2 digit List.mem_cons_self
      rw [List.nil_append, readExponent]
      · exact read
      · rintro further split
        cases split
        cases decimal
      · rintro further split
        cases split
        cases decimal
    · exact readSigned_append false spelled stops
    · exact readSigned_append true spelled stops

theorem readScale_eq_none {rest : List Char} (stops : startsIn (.among ['e', 'E']) rest = false) :
    readScale rest = none := by
  cases rest with
  | nil => rfl
  | cons c rest =>
    have other : ¬ (c = 'e' ∨ c = 'E') := by
      rintro (rfl | rfl)
      · cases stops
      · cases stops
    rw [readScale, if_neg other]

theorem startsIn_append_eq_false {set : CharSet} {text rest : List Char} (out : startsIn set text = false)
    (stops : startsIn set rest = false) : startsIn set (text ++ rest) = false := by
  cases text with
  | nil => exact stops
  | cons c text => exact out

theorem Exponent.starts {text : List Char} (exponent : Exponent text) :
    startsIn isDecimal text = false ∧ startsIn (.among ['.']) text = false := by
  rcases exponent with rfl | ⟨letter, sign, digits, rfl, known, -⟩
  · exact ⟨rfl, rfl⟩
  · simp only [List.mem_cons, List.not_mem_nil, or_false] at known
    rcases known with rfl | rfl <;> exact ⟨rfl, rfl⟩

theorem Fraction.starts {text : List Char} (fraction : Fraction text) : startsIn isDecimal text = false := by
  rcases fraction with rfl | ⟨digits, rfl, -⟩ <;> rfl

theorem readMagnitude_append (negative : Bool) {numeral : Numeral} (spelled : numeral.Spelled) {rest : List Char}
    (stops : startsIn numberPart rest = false) :
    ∃ value, readMagnitude negative (numeral.whole ++ (numeral.fraction ++ (numeral.exponent ++ rest))) =
      some (value, rest) := by
  obtain ⟨no_digit, no_point, no_letter⟩ := of_numberPart stops
  obtain ⟨scale_digit, scale_point⟩ := spelled.exponent.starts
  have behind_fraction : startsIn isDecimal (numeral.exponent ++ rest) = false :=
    startsIn_append_eq_false scale_digit no_digit
  have behind_whole : startsIn isDecimal (numeral.fraction ++ (numeral.exponent ++ rest)) = false :=
    startsIn_append_eq_false spelled.fraction.starts behind_fraction
  have no_second_point : startsIn (.among ['.']) (numeral.exponent ++ rest) = false :=
    startsIn_append_eq_false scale_point no_point
  rw [readMagnitude, readWhole_append spelled.whole behind_whole]
  dsimp only
  rw [readFraction_append spelled.fraction behind_fraction no_second_point]
  by_cases scaled : numeral.exponent = []
  · rw [scaled, List.nil_append, readScale_eq_none no_letter]
    dsimp only
    split
    next no_fraction =>
      have integer : numeral.fraction = [] := by
        rcases spelled.fraction with none | ⟨digits, point, some_digit, -⟩
        · exact none
        · rw [point, List.tail_cons, List.isEmpty_iff] at no_fraction
          exact absurd no_fraction some_digit
      rw [if_pos (spelled.short integer scaled)]
      exact ⟨_, rfl⟩
    next => exact ⟨_, rfl⟩
  · obtain ⟨exponent, read⟩ := readScale_append spelled.exponent scaled no_digit
    rw [read]
    exact ⟨_, rfl⟩

/-! ## Scalars -/

theorem readScalar_word {word : List Char} (spelled : (Lexeme.word word).Spelled) (rest : List Char) :
    ∃ value, readScalar (word ++ rest) = some (value, rest) ∧ value.isContainer = false := by
  simp only [Lexeme.Spelled, List.mem_cons, List.not_mem_nil, or_false] at spelled
  rcases spelled with rfl | rfl | rfl | rfl | rfl | rfl
  all_goals exact ⟨_, rfl, rfl⟩

theorem readScalar_decimal {c : Char} (decimal : isDecimal c = true) (text : List Char) :
    readScalar (c :: text) =
      (readMagnitude false (c :: text)).map fun (value, rest) => (number value, rest) := by
  unfold readScalar
  split
  case h_8 => rfl
  all_goals
    next split =>
      cases split
      cases decimal

theorem readScalar_minus {c : Char} (decimal : isDecimal c = true) (text : List Char) :
    readScalar ('-' :: c :: text) =
      (readMagnitude true (c :: text)).map fun (value, rest) => (number value, rest) := by
  rw [readScalar]
  rintro further split
  cases split
  cases decimal

theorem readScalar_number {text : List Char} (spelled : (Lexeme.number text).Spelled) {rest : List Char}
    (stops : startsIn numberPart rest = false) :
    ∃ value, readScalar (text ++ rest) = some (value, rest) ∧ value.isContainer = false := by
  obtain ⟨numeral, rfl, spelled⟩ := spelled
  obtain ⟨value, read⟩ := readMagnitude_append numeral.negative spelled stops
  refine ⟨number value, ?_, rfl⟩
  obtain ⟨some_digit, decimal⟩ := spelled.whole.digits
  obtain ⟨digit, digits, whole⟩ := List.exists_cons_of_ne_nil some_digit
  have first : isDecimal digit = true := decimal digit (by simp [whole])
  rw [whole, List.cons_append] at read
  rw [Numeral.text, whole, List.append_assoc, List.append_assoc, List.append_assoc, List.cons_append]
  cases sign : numeral.negative with
  | true =>
    rw [sign] at read
    exact (readScalar_minus first _).trans (congrArg (Option.map _) read)
  | false =>
    rw [sign] at read
    exact (readScalar_decimal first _).trans (congrArg (Option.map _) read)

end CodeColor.Json
