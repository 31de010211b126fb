import CodeColor.Proofs.Json.Document
import Mathlib.Data.List.TakeWhile

/-!
What the reader reads is a JSON text by the grammar.

Main statement: `exists_document_of_read`.
-/

namespace CodeColor.Json

/-! ## Strings -/

theorem hexDigit_of_hexValue? {c : Char} {value : Nat} (found : Text.hexValue? c = some value) :
    CharSet.hexDigit c = true := by
  unfold Text.hexValue? at found
  simp only [CharSet.hexDigit, CharSet.or, CharSet.between, Bool.or_eq_true, Bool.and_eq_true,
    decide_eq_true_eq]
  split at found
  next digit => exact .inl digit
  next =>
    split at found
    next lower => exact .inr (.inl lower)
    next =>
      split at found
      next upper => exact .inr (.inr upper)
      next => cases found

theorem mem_of_escapeValue? {c value : Char} (found : escapeValue? c = some value) :
    c ∈ ['"', '\\', '/', 'b', 'f', 'n', 'r', 't'] := by
  unfold escapeValue? at found
  by_contra other
  simp only [List.mem_cons, List.not_mem_nil, or_false, not_or] at other
  simp [other] at found

/-- What has to follow, up to the closing quote, for the literal to be complete. -/
def StringState.Awaits : StringState → List Char → Prop
  | plain, content => Content content
  | escape, content => Content ('\\' :: content)
  | unit digits _, content => ∃ hexadecimal further, content = hexadecimal ++ further ∧
    hexadecimal.length + digits = 4 ∧ (∀ digit ∈ hexadecimal, CharSet.hexDigit digit = true) ∧
    Content further

theorem awaits_of_readString {contents : Contents} {state : StringState} {text rest : List Char}
    {value : String} (started : ∀ digits unit, state = .unit digits unit → digits < 4)
    (read : readString contents state text = some (value, rest)) :
    ∃ content, text = content ++ '"' :: rest ∧ state.Awaits content := by
  induction text generalizing contents state with
  | nil => cases read
  | cons c text ih =>
    cases state with
    | plain =>
      simp only [readString] at read
      split at read
      next closing =>
        cases read
        cases closing
        exact ⟨[], rfl, .nil⟩
      next no_quote =>
        split at read
        next backslash =>
          obtain ⟨content, rfl, further⟩ := ih (by rintro _ _ ⟨⟩) read
          exact ⟨c :: content, rfl, backslash ▸ further⟩
        next no_backslash =>
          split at read
          next => cases read
          next visible =>
            obtain ⟨content, rfl, further⟩ := ih (by rintro _ _ ⟨⟩) read
            exact ⟨c :: content, rfl, .plain ⟨no_quote, no_backslash⟩ (by simpa using visible) further⟩
    | escape =>
      simp only [readString] at read
      split at read
      next unit =>
        obtain ⟨content, rfl, hexadecimal, further, rfl, four, digits, onward⟩ := ih (by
          rintro _ _ ⟨⟩
          decide) read
        exact ⟨c :: (hexadecimal ++ further), rfl, unit ▸ .unit four digits onward⟩
      next =>
        split at read
        next value known =>
          obtain ⟨content, rfl, further⟩ := ih (by rintro _ _ ⟨⟩) read
          exact ⟨c :: content, rfl, .escape (mem_of_escapeValue? known) further⟩
        next => cases read
    | unit digits value =>
      have few := started digits value rfl
      simp only [readString] at read
      split at read
      next => cases read
      next digit known =>
        have hexadecimal := hexDigit_of_hexValue? known
        split at read
        next last =>
          obtain ⟨content, rfl, further⟩ := ih (by rintro _ _ ⟨⟩) read
          refine ⟨c :: content, rfl, [c], content, rfl, by simp [last], ?_, further⟩
          simpa using hexadecimal
        next =>
          obtain ⟨content, rfl, more, further, rfl, four, rest_digits, onward⟩ := ih (by
            rintro _ _ ⟨⟩
            omega) read
          refine ⟨c :: (more ++ further), rfl, c :: more, further, rfl, ?_, ?_, onward⟩
          · rw [List.length_cons]
            omega
          · exact List.forall_mem_cons.2 ⟨hexadecimal, rest_digits⟩

theorem content_of_readString {text rest : List Char} {value : String}
    (read : readString ⟨[], none⟩ .plain text = some (value, rest)) :
    ∃ content, text = content ++ '"' :: rest ∧ Content content :=
  awaits_of_readString (by rintro _ _ ⟨⟩) read

/-! ## Numbers -/

theorem takeDigits_eq {text digits rest : List Char} (taken : takeDigits text = (digits, rest)) :
    text = digits ++ rest ∧ ∀ digit ∈ digits, isDecimal digit = true := by
  cases taken
  exact ⟨List.takeWhile_append_dropWhile.symm, fun _ member => List.mem_takeWhile_imp member⟩

theorem digits_of_takeDigits {text digits rest : List Char} (taken : takeDigits text = (digits, rest))
    (some_digits : digits ≠ []) : text = digits ++ rest ∧ Digits digits := by
  obtain ⟨split, decimal⟩ := takeDigits_eq taken
  exact ⟨split, some_digits, decimal⟩

theorem whole_of_readWhole {text whole rest : List Char} (read : readWhole text = some (whole, rest)) :
    text = whole ++ rest ∧ Whole whole := by
  unfold readWhole at read
  split at read
  next =>
    cases read
    exact ⟨rfl, .inl rfl⟩
  next text no_zero =>
    split at read
    next => cases read
    next found some_digits =>
      obtain ⟨split, digits⟩ := digits_of_takeDigits (Option.some.inj read)
        fun empty => some_digits rest (by rw [Option.some.inj read, empty])
      refine ⟨split, .inr ⟨digits, ?_⟩⟩
      intro starts
      obtain ⟨further, rfl⟩ := List.head?_eq_some_iff.1 starts
      exact no_zero (further ++ rest) split

theorem fraction_of_readFraction (text : List Char) :
    ∃ spelled, text = spelled ++ (readFraction text).2 ∧ Fraction spelled ∧
      (spelled = [] ↔ (readFraction text).1 = []) := by
  unfold readFraction
  split
  next text =>
    split
    next => exact ⟨[], rfl, .inl rfl, by simp⟩
    next digits some_digits =>
      have some_fraction : (takeDigits text).1 ≠ [] := fun empty => some_digits _ (Prod.ext empty rfl)
      obtain ⟨split, digits⟩ := digits_of_takeDigits (Prod.eta (takeDigits text)).symm some_fraction
      exact ⟨'.' :: (takeDigits text).1, congrArg ('.' :: ·) split, .inr ⟨_, rfl, digits⟩,
        by simp [some_fraction]⟩
  next => exact ⟨[], rfl, .inl rfl, by simp⟩

theorem digits_of_readSigned {negative : Bool} {text rest : List Char} {value : Int}
    (read : readSigned negative text = some (value, rest)) :
    ∃ digits, text = digits ++ rest ∧ Digits digits := by
  unfold readSigned at read
  split at read
  next => cases read
  next digits behind some_digits taken =>
    obtain ⟨split, digits⟩ := digits_of_takeDigits taken some_digits
    cases read
    exact ⟨_, split, digits⟩

theorem exponent_of_readScale {text rest : List Char} {value : Int}
    (read : readScale text = some (value, rest)) :
    ∃ exponent, text = exponent ++ rest ∧ Exponent exponent ∧ exponent ≠ [] := by
  cases text with
  | nil => cases read
  | cons letter text =>
    simp only [readScale] at read
    split at read
    next known =>
      have letters : letter ∈ ['e', 'E'] := by simpa using known
      unfold readExponent at read
      split at read
      next =>
        obtain ⟨digits, rfl, spelled⟩ := digits_of_readSigned read
        exact ⟨letter :: '+' :: digits, rfl, .inr ⟨letter, ['+'], digits, rfl, letters, by simp, spelled⟩,
          by simp⟩
      next =>
        obtain ⟨digits, rfl, spelled⟩ := digits_of_readSigned read
        exact ⟨letter :: '-' :: digits, rfl, .inr ⟨letter, ['-'], digits, rfl, letters, by simp, spelled⟩,
          by simp⟩
      next =>
        obtain ⟨digits, rfl, spelled⟩ := digits_of_readSigned read
        exact ⟨letter :: digits, rfl, .inr ⟨letter, [], digits, rfl, letters, by simp, spelled⟩, by simp⟩
    next => cases read

theorem numeral_of_readMagnitude {negative : Bool} {text rest : List Char} {value : JsonNumber}
    (read : readMagnitude negative text = some (value, rest)) :
    ∃ numeral : Numeral, numeral.negative = negative ∧ numeral.Spelled ∧
      (if negative then ['-'] else []) ++ text = numeral.text ++ rest := by
  unfold readMagnitude at read
  split at read
  next => cases read
  next whole behind readsWhole =>
    obtain ⟨rfl, wholeSpelled⟩ := whole_of_readWhole readsWhole
    obtain ⟨fraction, split, fractionSpelled, void⟩ := fraction_of_readFraction behind
    dsimp only at read
    split at read
    next exponent further readsScale =>
      obtain ⟨scale, further_eq, scaleSpelled, some_scale⟩ := exponent_of_readScale readsScale
      cases read
      refine ⟨⟨negative, whole, fraction, scale⟩, rfl,
        ⟨⟨wholeSpelled, fractionSpelled, scaleSpelled⟩, fun _ empty => absurd empty some_scale⟩, ?_⟩
      rw [split, further_eq]
      simp [Numeral.text]
    next =>
      have stops : rest = (readFraction behind).2 ∧
          (fraction = [] → whole.length ≤ integerDigitLimit) := by
        split at read
        next =>
          split at read
          next few =>
            cases read
            exact ⟨rfl, fun _ => few⟩
          next => cases read
        next some_fraction =>
          cases read
          refine ⟨rfl, fun empty => ?_⟩
          rw [void.1 empty] at some_fraction
          exact absurd rfl some_fraction
      obtain ⟨rfl, short⟩ := stops
      refine ⟨⟨negative, whole, fraction, []⟩, rfl,
        ⟨⟨wholeSpelled, fractionSpelled, .inl rfl⟩, fun empty _ => short empty⟩, ?_⟩
      simp only [Numeral.text, List.append_assoc, List.nil_append]
      rw [← split]

/-! ## Values -/

theorem formed_eq_ok {α : Type} {result : Option α} {found : α} :
    formed result = .ok found ↔ result = some found := by
  cases result <;> simp [formed]

theorem skipWord?_eq {word text rest : List Char} (skipped : skipWord? word text = some rest) :
    text = word ++ rest := by
  induction word generalizing text with
  | nil =>
    cases skipped
    rfl
  | cons c word ih =>
    cases text with
    | nil => cases skipped
    | cons d text =>
      simp only [skipWord?] at skipped
      split at skipped
      next same => rw [← same, ih skipped, List.cons_append]
      next => cases skipped

/-- The text is a row of lexemes that makes up the role, each one spelled as it should be, and `rest`. -/
def Starts (role : Role) (text rest : List Char) : Prop :=
  ∃ parts, text = written parts ++ rest ∧ Derives role (parts.map Spaced.lexeme) ∧
    ∀ part ∈ parts, Blank part.space ∧ part.lexeme.Spelled

theorem starts_of_lexeme (lexeme : Lexeme) {space text rest : List Char} (blank : Blank space)
    (split : text = lexeme.text ++ rest) (derives : Derives .value [lexeme]) (spelled : lexeme.Spelled) :
    Starts .value (space ++ text) rest := by
  refine ⟨[⟨space, lexeme⟩], ?_, derives, by simpa using ⟨blank, spelled⟩⟩
  rw [split]
  simp [written]

theorem starts_of_skipWord (start : List Char) {word space text rest : List Char} {value found : Json}
    (blank : Blank space) (spelled : (Lexeme.word (start ++ word)).Spelled)
    (read : (skipWord? word text).map (fun behind => (found, behind)) = some (value, rest)) :
    Starts .value (space ++ (start ++ text)) rest := by
  obtain ⟨behind, skipped, same⟩ := Option.map_eq_some_iff.1 read
  cases same
  refine starts_of_lexeme (.word (start ++ word)) blank ?_ (.word _) spelled
  rw [skipWord?_eq skipped, Lexeme.text, List.append_assoc]

theorem starts_of_readMagnitude (negative : Bool) {space text rest : List Char} {value : Json}
    (blank : Blank space)
    (read : (readMagnitude negative text).map (fun (found, behind) => (number found, behind)) =
      some (value, rest)) :
    Starts .value (space ++ ((if negative then ['-'] else []) ++ text)) rest := by
  obtain ⟨⟨found, behind⟩, magnitude, same⟩ := Option.map_eq_some_iff.1 read
  cases same
  obtain ⟨numeral, rfl, spelled, split⟩ := numeral_of_readMagnitude magnitude
  exact starts_of_lexeme (.number numeral.text) blank split (.number _)
    ⟨numeral, rfl, spelled⟩

theorem starts_of_readScalar {space text rest : List Char} {value : Json} (blank : Blank space)
    (read : readScalar text = some (value, rest)) : Starts .value (space ++ text) rest := by
  unfold readScalar at read
  split at read
  next => exact starts_of_skipWord ['n'] blank (by simp [Lexeme.Spelled]) read
  next => exact starts_of_skipWord ['t'] blank (by simp [Lexeme.Spelled]) read
  next => exact starts_of_skipWord ['f'] blank (by simp [Lexeme.Spelled]) read
  next => exact starts_of_skipWord ['N'] blank (by simp [Lexeme.Spelled]) read
  next => exact starts_of_skipWord ['I'] blank (by simp [Lexeme.Spelled]) read
  next => exact starts_of_skipWord ['-', 'I'] blank (by simp [Lexeme.Spelled]) read
  next => exact starts_of_readMagnitude true blank read
  next => exact starts_of_readMagnitude false blank read

/-! ## Whole texts -/

theorem skipSpace_eq (text : List Char) : ∃ space, Blank space ∧ text = space ++ skipSpace text :=
  ⟨text.takeWhile isSpace, fun _ member => List.mem_takeWhile_imp member,
    List.takeWhile_append_dropWhile.symm⟩

/-- The text is a row that makes up the role, and then the mark, perhaps behind white space, and `rest`. -/
def StartsUpTo (role : Role) (mark : Char) (text rest : List Char) : Prop :=
  ∃ space, Blank space ∧ Starts role text (space ++ mark :: rest)

theorem startsUpTo_of_starts {role : Role} {mark : Char} {text behind rest : List Char}
    (starts : Starts role text behind) (next : skipSpace behind = mark :: rest) :
    StartsUpTo role mark text rest := by
  obtain ⟨space, blank, split⟩ := skipSpace_eq behind
  rw [next] at split
  exact ⟨space, blank, split ▸ starts⟩

/-- The text is the row of an array or an object, and `rest`. -/
def StartsContainer (text rest : List Char) : Prop :=
  ∃ parts, text = written parts ++ rest ∧ Derives .value (parts.map Spaced.lexeme) ∧
    (∀ part ∈ parts, Blank part.space ∧ part.lexeme.Spelled) ∧
      (parts.head?.any fun part => part.lexeme.isMark) = true

theorem StartsContainer.starts {text rest : List Char} (container : StartsContainer text rest) :
    Starts .value text rest := by
  obtain ⟨parts, split, derived, sound, -⟩ := container
  exact ⟨parts, split, derived, sound⟩

theorem starts_between {role : Role} {first last : Char} {space text rest : List Char}
    (blank : Blank space) (inside : StartsUpTo role last text rest)
    (derives : ∀ {lexemes : List Lexeme}, Derives role lexemes →
      Derives .value (.mark first :: (lexemes ++ [.mark last]))) :
    StartsContainer (space ++ first :: text) rest := by
  obtain ⟨gap, blankGap, parts, rfl, derived, sound⟩ := inside
  refine ⟨⟨space, .mark first⟩ :: (parts ++ [⟨gap, .mark last⟩]), by simp [written, Lexeme.text], ?_, ?_, rfl⟩
  · simpa using derives derived
  · simp only [List.mem_cons, List.mem_append, List.not_mem_nil, or_false]
    rintro part (rfl | member | rfl)
    · exact ⟨blank, trivial⟩
    · exact sound part member
    · exact ⟨blankGap, trivial⟩

theorem starts_void {first last : Char} {space text rest : List Char} (blank : Blank space)
    (next : skipSpace text = last :: rest) (derives : Derives .value [.mark first, .mark last]) :
    StartsContainer (space ++ first :: text) rest := by
  obtain ⟨gap, blankGap, split⟩ := skipSpace_eq text
  refine ⟨[⟨space, .mark first⟩, ⟨gap, .mark last⟩], ?_, derives, ?_, rfl⟩
  · rw [split, next]
    simp [written, Lexeme.text]
  · simpa [Lexeme.Spelled] using ⟨blank, blankGap⟩

def ValueSound (fuel : Nat) : Prop :=
  ∀ {nesting : Nat} {space text rest : List Char} {value : Json}, Blank space →
    readValue fuel nesting text = .ok (value, rest) → Starts .value (space ++ text) rest

def ItemsSound (fuel : Nat) : Prop :=
  ∀ {nesting : Nat} {done : List Json} {space text rest : List Char} {value : Json}, Blank space →
    readItems fuel nesting done text = .ok (value, rest) → StartsUpTo .items ']' (space ++ text) rest

def MembersSound (fuel : Nat) : Prop :=
  ∀ {nesting : Nat} {done : List (String × Json)} {space text rest : List Char} {value : Json}, Blank space →
    readMembers fuel nesting done text = .ok (value, rest) → StartsUpTo .members '}' (space ++ text) rest

theorem valueSound_succ {fuel : Nat} (items : ItemsSound fuel) (members : MembersSound fuel) :
    ValueSound (fuel + 1) := by
  intro nesting space text rest value blank read
  unfold readValue at read
  split at read
  next text =>
    obtain ⟨⟨found, behind⟩, literal, same⟩ := Option.map_eq_some_iff.1 (formed_eq_ok.1 read)
    cases same
    obtain ⟨content, rfl, spelled⟩ := content_of_readString literal
    refine starts_of_lexeme (.string content) blank ?_ (.string content) spelled
    simp [Lexeme.text, Lexeme.quoted]
  next text =>
    split at read
    next => cases read
    next nesting =>
      split at read
      next next =>
        cases read
        exact (starts_void blank next .emptyArray).starts
      next =>
        obtain ⟨gap, blankGap, split⟩ := skipSpace_eq text
        have inside := items blankGap read
        rw [← split] at inside
        exact (starts_between blank inside .array).starts
  next text =>
    split at read
    next => cases read
    next nesting =>
      split at read
      next next =>
        cases read
        exact (starts_void blank next .emptyObject).starts
      next =>
        obtain ⟨gap, blankGap, split⟩ := skipSpace_eq text
        have inside := members blankGap read
        rw [← split] at inside
        exact (starts_between blank inside .object).starts
  next => exact starts_of_readScalar blank (formed_eq_ok.1 read)

theorem starts_lastItem {text rest : List Char} (value : Starts .value text rest) :
    Starts .items text rest := by
  obtain ⟨parts, split, derived, sound⟩ := value
  exact ⟨parts, split, .lastItem derived, sound⟩

theorem startsUpTo_item {text behind rest : List Char} (value : StartsUpTo .value ',' text behind)
    (onward : StartsUpTo .items ']' behind rest) : StartsUpTo .items ']' text rest := by
  obtain ⟨gap, blankGap, parts, rfl, derived, sound⟩ := value
  obtain ⟨space, blank, others, rfl, further, soundOthers⟩ := onward
  refine ⟨space, blank, parts ++ ⟨gap, .mark ','⟩ :: others, by simp [written, Lexeme.text], ?_, ?_⟩
  · simpa using Derives.item derived further
  · refine List.forall_mem_append.2 ⟨sound, List.forall_mem_cons.2 ⟨⟨blankGap, trivial⟩, soundOthers⟩⟩

theorem itemsSound_succ {fuel : Nat} (value : ValueSound fuel) (items : ItemsSound fuel) :
    ItemsSound (fuel + 1) := by
  intro nesting done space text rest result blank read
  unfold readItems at read
  split at read
  next => cases read
  next found behind given =>
    have starts := value blank given
    split at read
    next last =>
      cases read
      exact startsUpTo_of_starts (starts_lastItem starts) last
    next further next =>
      obtain ⟨gap, blankGap, split⟩ := skipSpace_eq further
      have onward := items blankGap read
      rw [← split] at onward
      exact startsUpTo_item (startsUpTo_of_starts starts next) onward
    next => cases read

section

variable {space content gap text behind rest : List Char} (blank : Blank space) (spelled : Content content)
  (blankGap : Blank gap)
include blank spelled blankGap

theorem starts_lastMember (value : Starts .value text rest) :
    Starts .members (space ++ (Lexeme.quoted content ++ (gap ++ ':' :: text))) rest := by
  obtain ⟨parts, rfl, derived, sound⟩ := value
  refine ⟨⟨space, .name content⟩ :: ⟨gap, .mark ':'⟩ :: parts, by simp [written, Lexeme.text],
    .lastMember derived, ?_⟩
  exact List.forall_mem_cons.2 ⟨⟨blank, spelled⟩, List.forall_mem_cons.2 ⟨⟨blankGap, trivial⟩, sound⟩⟩

theorem startsUpTo_member (value : StartsUpTo .value ',' text behind)
    (onward : StartsUpTo .members '}' behind rest) :
    StartsUpTo .members '}' (space ++ (Lexeme.quoted content ++ (gap ++ ':' :: text))) rest := by
  obtain ⟨comma, blankComma, parts, rfl, derived, sound⟩ := value
  obtain ⟨last, blankLast, others, rfl, further, soundOthers⟩ := onward
  refine ⟨last, blankLast,
    ⟨space, .name content⟩ :: ⟨gap, .mark ':'⟩ :: (parts ++ ⟨comma, .mark ','⟩ :: others),
    by simp [written, Lexeme.text], ?_, ?_⟩
  · simpa using Derives.member derived further
  · refine List.forall_mem_cons.2 ⟨⟨blank, spelled⟩, List.forall_mem_cons.2 ⟨⟨blankGap, trivial⟩, ?_⟩⟩
    exact List.forall_mem_append.2 ⟨sound, List.forall_mem_cons.2 ⟨⟨blankComma, trivial⟩, soundOthers⟩⟩

end

theorem membersSound_succ {fuel : Nat} (value : ValueSound fuel) (members : MembersSound fuel) :
    MembersSound (fuel + 1) := by
  intro nesting done space text rest result blank read
  unfold readMembers at read
  split at read
  next text =>
    split at read
    next => cases read
    next name behindName literal =>
      obtain ⟨content, rfl, spelled⟩ := content_of_readString literal
      split at read
      next behindColon colon =>
        obtain ⟨gap, blankGap, splitName⟩ := skipSpace_eq behindName
        rw [colon] at splitName
        have named : space ++ '"' :: (content ++ '"' :: behindName) =
            space ++ (Lexeme.quoted content ++ (gap ++ ':' :: behindColon)) := by
          rw [splitName]
          simp [Lexeme.quoted]
        rw [named]
        split at read
        next => cases read
        next found behind given =>
          obtain ⟨lead, blankLead, splitColon⟩ := skipSpace_eq behindColon
          have starts := value blankLead given
          rw [← splitColon] at starts
          split at read
          next last =>
            cases read
            exact startsUpTo_of_starts (starts_lastMember blank spelled blankGap starts) last
          next further next =>
            obtain ⟨comma, blankComma, split⟩ := skipSpace_eq further
            have onward := members blankComma read
            rw [← split] at onward
            exact startsUpTo_member blank spelled blankGap (startsUpTo_of_starts starts next) onward
          next => cases read
      next => cases read
  next => cases read

theorem sound_of_fuel (fuel : Nat) : ValueSound fuel ∧ ItemsSound fuel ∧ MembersSound fuel := by
  induction fuel with
  | zero =>
    refine ⟨?_, ?_, ?_⟩
    · intro nesting space text rest value _ read
      cases read
    · intro nesting done space text rest value _ read
      cases read
    · intro nesting done space text rest value _ read
      cases read
  | succ fuel ih =>
    obtain ⟨value, items, members⟩ := ih
    exact ⟨valueSound_succ items members, itemsSound_succ value items, membersSound_succ value members⟩

/-- What the reader reads is a JSON text. -/
theorem exists_document_of_read {nesting : Nat} {text : List Char} {value : Json}
    (given : read nesting text = .ok value) :
    ∃ document : Document, document.Spelled ∧ document.text = text := by
  unfold read at given
  split at given
  next found rest value =>
    split at given
    next void =>
      obtain ⟨space, blank, split⟩ := skipSpace_eq text
      obtain ⟨trailing, blankTrailing, splitRest⟩ := skipSpace_eq rest
      have starts := (sound_of_fuel _).1 blank value
      rw [← split] at starts
      obtain ⟨parts, whole, derived, sound⟩ := starts
      rw [List.isEmpty_iff.1 void, List.append_nil] at splitRest
      subst splitRest
      exact ⟨⟨parts, rest, derived, fun part member => (sound part member).1, blankTrailing⟩,
        fun part member => (sound part member).2, whole.symm⟩
    next => cases given
  next => cases given

end CodeColor.Json
