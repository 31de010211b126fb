import CodeColor.Detection.Scores
import CodeColor.Proofs.Json.Scalars

/-!
Every JSON text by the grammar is read, whatever values it has, unless it is nested too deeply.

Main statements: `read_document`, and `parsesAsJson_iff`, which joins it to what is known of texts that are read.
-/

namespace CodeColor.Json

/-! ## White space and marks -/

theorem skipSpace_append {space : List Char} (blank : Blank space) (text : List Char) :
    skipSpace (space ++ text) = skipSpace text :=
  List.dropWhile_append_of_pos blank

theorem skipSpace_of_starts {text : List Char} (other : startsIn isSpace text = false) : skipSpace text = text := by
  cases text with
  | nil => rfl
  | cons c text => exact List.dropWhile_cons_of_neg (Bool.eq_false_iff.1 other)

theorem skipSpace_mark {space : List Char} (blank : Blank space) {mark : Char} (other : isSpace mark = false)
    (text : List Char) : skipSpace (space ++ mark :: text) = mark :: text :=
  (skipSpace_append blank _).trans (skipSpace_of_starts other)

theorem numberPart_of_isSpace {c : Char} (space : isSpace c = true) : numberPart c = false := by
  simp only [isSpace, Bool.or_eq_true, decide_eq_true_eq] at space
  rcases space with ((rfl | rfl) | rfl) | rfl <;> rfl

theorem stops_at_mark {space : List Char} (blank : Blank space) {mark : Char} (other : numberPart mark = false)
    (text : List Char) : startsIn numberPart (space ++ mark :: text) = false := by
  cases space with
  | nil => exact other
  | cons c space => exact numberPart_of_isSpace (blank c List.mem_cons_self)

def scalarStart : CharSet := .except [' ', '\t', '\n', '\r', '"', '[', '{']

theorem scalarStart_of_isDecimal {c : Char} (decimal : isDecimal c = true) : scalarStart c = true := by
  simp only [scalarStart, CharSet.except, Bool.not_eq_true', List.contains_eq_mem, decide_eq_false_iff_not]
  intro member
  simp only [List.mem_cons, List.not_mem_nil, or_false] at member
  rcases member with rfl | rfl | rfl | rfl | rfl | rfl | rfl <;> cases decimal

theorem Lexeme.Spelled.startsNumber {text : List Char} (spelled : (Lexeme.number text).Spelled) :
    startsIn scalarStart text = true := by
  obtain ⟨numeral, rfl, spelled⟩ := spelled
  obtain ⟨some_digit, decimal⟩ := spelled.whole.digits
  cases sign : numeral.negative with
  | true =>
    rw [Numeral.text, sign]
    rfl
  | false =>
    rw [Numeral.text, sign]
    exact startsIn_append_left (startsIn_of_forall some_digit fun c member =>
      scalarStart_of_isDecimal (decimal c member)) _

theorem Lexeme.Spelled.startsWord {text : List Char} (spelled : (Lexeme.word text).Spelled) :
    startsIn scalarStart text = true := by
  simp only [Lexeme.Spelled, List.mem_cons, List.not_mem_nil, or_false] at spelled
  rcases spelled with rfl | rfl | rfl | rfl | rfl | rfl <;> rfl

theorem of_scalarStart {c : Char} (starts : scalarStart c = true) :
    isSpace c = false ∧ c ≠ '"' ∧ c ≠ '[' ∧ c ≠ '{' := by
  simp only [scalarStart, CharSet.except, Bool.not_eq_true', List.contains_eq_mem, decide_eq_false_iff_not,
    List.mem_cons, List.not_mem_nil, or_false, not_or] at starts
  simpa [isSpace, and_assoc] using starts

theorem readValue_scalar (fuel nesting : Nat) {space text : List Char} (blank : Blank space)
    (starts : startsIn scalarStart text = true) (rest : List Char) :
    readValue (fuel + 1) nesting (skipSpace (space ++ (text ++ rest))) = formed (readScalar (text ++ rest)) := by
  cases text with
  | nil => cases starts
  | cons c text =>
    obtain ⟨no_space, no_quote, no_bracket, no_brace⟩ := of_scalarStart starts
    have stays : skipSpace (c :: (text ++ rest)) = c :: (text ++ rest) := skipSpace_of_starts no_space
    rw [skipSpace_append blank, List.cons_append, stays, readValue]
    · rintro behind split
      exact no_quote (List.cons.inj split).1
    · rintro behind split
      exact no_bracket (List.cons.inj split).1
    · rintro behind split
      exact no_brace (List.cons.inj split).1

/-! ## Values -/

/-- The result is a value of the kind, with the rest of the text, unless this is nested too deeply. -/
def Yields (result : Except Failure (Json × List Char)) (rest : List Char) (container : Bool) : Prop :=
  result = .error .tooDeep ∨ ∃ value, result = .ok (value, rest) ∧ value.isContainer = container

section

variable {fuel nesting : Nat} {text behind rest space gap : List Char} {value : Json}

theorem readValue_string {content : List Char} (blank : Blank space) (spelled : Content content) :
    Yields (readValue (fuel + 1) nesting (skipSpace (space ++ (Lexeme.quoted content ++ rest)))) rest false := by
  obtain ⟨value, read⟩ := readString_content spelled ⟨[], none⟩ rest
  have split : Lexeme.quoted content ++ rest = '"' :: (content ++ '"' :: rest) := by simp [Lexeme.quoted]
  rw [split, skipSpace_mark blank rfl, readValue, read]
  exact .inr ⟨string value, rfl, rfl⟩

theorem readValue_closing {mark : Char} (closing : mark ∈ [']', '}']) (fuel : Nat) :
    readValue fuel nesting (mark :: text) = .error .malformed := by
  simp only [List.mem_cons, List.not_mem_nil, or_false] at closing
  cases fuel with
  | zero => rfl
  | succ fuel => rcases closing with rfl | rfl <;> rfl

theorem readItems_closing (fuel : Nat) (done : List Json) :
    readItems fuel nesting done (']' :: text) = .error .malformed := by
  cases fuel with
  | zero => rfl
  | succ fuel => rw [readItems, readValue_closing (by decide)]

theorem readMembers_closing (fuel : Nat) (done : List (String × Json)) :
    readMembers fuel nesting done ('}' :: text) = .error .malformed := by
  cases fuel with
  | zero => rfl
  | succ fuel => rfl

theorem Yields.ne_malformed {result : Except Failure (Json × List Char)} {container : Bool}
    (yields : Yields result rest container) : result ≠ .error .malformed := by
  rintro rfl
  rcases yields with deep | ⟨value, read, -⟩
  · cases deep
  · cases read

theorem readValue_array (blank : Blank space)
    (inside : readItems fuel nesting [] (skipSpace text) ≠ .error .malformed) :
    readValue (fuel + 1) (nesting + 1) (skipSpace (space ++ '[' :: text)) =
      readItems fuel nesting [] (skipSpace text) := by
  rw [skipSpace_mark blank rfl, readValue]
  split
  next closing => exact absurd (closing ▸ readItems_closing fuel []) inside
  next => rfl

theorem readValue_object (blank : Blank space)
    (inside : readMembers fuel nesting [] (skipSpace text) ≠ .error .malformed) :
    readValue (fuel + 1) (nesting + 1) (skipSpace (space ++ '{' :: text)) =
      readMembers fuel nesting [] (skipSpace text) := by
  rw [skipSpace_mark blank rfl, readValue]
  split
  next closing => exact absurd (closing ▸ readMembers_closing fuel []) inside
  next => rfl

theorem readValue_opening {mark : Char} (opening : mark ∈ ['[', '{']) (blank : Blank space) :
    readValue (fuel + 1) 0 (skipSpace (space ++ mark :: text)) = .error .tooDeep := by
  simp only [List.mem_cons, List.not_mem_nil, or_false] at opening
  rcases opening with rfl | rfl <;> rw [skipSpace_mark blank rfl, readValue]

theorem readItems_error {done : List Json} {failure : Failure}
    (read : readValue fuel nesting text = .error failure) :
    readItems (fuel + 1) nesting done text = .error failure := by
  simp only [readItems, read]

theorem readItems_last {done : List Json} (read : readValue fuel nesting text = .ok (value, gap ++ ']' :: rest))
    (blank : Blank gap) :
    readItems (fuel + 1) nesting done text = .ok (array (value :: done).reverse, rest) := by
  have next : skipSpace (gap ++ ']' :: rest) = ']' :: rest := skipSpace_mark blank rfl rest
  simp only [readItems, read, next]

theorem readItems_comma {done : List Json}
    (read : readValue fuel nesting text = .ok (value, gap ++ ',' :: behind)) (blank : Blank gap) :
    readItems (fuel + 1) nesting done text = readItems fuel nesting (value :: done) (skipSpace behind) := by
  have next : skipSpace (gap ++ ',' :: behind) = ',' :: behind := skipSpace_mark blank rfl behind
  simp only [readItems, read, next]

theorem readMembers_named {content : List Char} (blank : Blank space) (spelled : Content content)
    (blankGap : Blank gap) (done : List (String × Json)) :
    ∃ name, readMembers (fuel + 1) nesting done
        (skipSpace (space ++ (Lexeme.quoted content ++ (gap ++ ':' :: text)))) =
      match readValue fuel nesting (skipSpace text) with
      | .error failure => .error failure
      | .ok (value, behind) =>
        match skipSpace behind with
        | '}' :: rest => .ok (object ((name, value) :: done).reverse, rest)
        | ',' :: rest => readMembers fuel nesting ((name, value) :: done) (skipSpace rest)
        | _ => .error .malformed := by
  obtain ⟨name, named⟩ := readString_content spelled ⟨[], none⟩ (gap ++ ':' :: text)
  have split : Lexeme.quoted content ++ (gap ++ ':' :: text) = '"' :: (content ++ '"' :: (gap ++ ':' :: text)) := by
    simp [Lexeme.quoted]
  have next : skipSpace (gap ++ ':' :: text) = ':' :: text := skipSpace_mark blankGap rfl text
  rw [split, skipSpace_mark blank rfl]
  simp only [readMembers, named, next]
  exact ⟨name, rfl⟩

end

/-- Each part is spelled as the reader accepts it, with white space in front. -/
def Sound (parts : List Spaced) : Prop :=
  ∀ part ∈ parts, Blank part.space ∧ part.lexeme.Spelled

/-- With one unit of fuel for each lexeme the reader gets through the parts, whatever comes behind a value, and up to
the mark that closes the items or the members. -/
def Accepted (parts : List Spaced) : Role → Prop
  | .value => ∀ (fuel nesting : Nat) (rest : List Char), parts.length ≤ fuel → startsIn numberPart rest = false →
    Yields (readValue fuel nesting (skipSpace (written parts ++ rest))) rest
      (parts.head?.any fun part => part.lexeme.isMark)
  | .items => ∀ (fuel nesting : Nat) (gap rest : List Char) (done : List Json), parts.length < fuel → Blank gap →
    Yields (readItems fuel nesting done (skipSpace (written parts ++ (gap ++ ']' :: rest)))) rest true
  | .members => ∀ (fuel nesting : Nat) (gap rest : List Char) (done : List (String × Json)), parts.length < fuel →
    Blank gap →
    Yields (readMembers fuel nesting done (skipSpace (written parts ++ (gap ++ '}' :: rest)))) rest true

/-- However such lexemes are spaced, the reader gets through them. -/
def Readable (role : Role) (lexemes : List Lexeme) : Prop :=
  ∀ parts : List Spaced, parts.map Spaced.lexeme = lexemes → Sound parts → Accepted parts role

theorem Sound.append {front back : List Spaced} (sound : Sound (front ++ back)) : Sound front ∧ Sound back :=
  List.forall_mem_append.1 sound

section

variable {parts : List Spaced}

theorem exists_parts_between {first last : Lexeme} {inside : List Lexeme}
    (whole : parts.map Spaced.lexeme = first :: (inside ++ [last])) :
    ∃ opening middle closing, parts = ⟨opening, first⟩ :: (middle ++ [⟨closing, last⟩]) ∧
      middle.map Spaced.lexeme = inside := by
  obtain ⟨⟨opening, _⟩, others, rfl, rfl, rest⟩ := List.map_eq_cons_iff.1 whole
  obtain ⟨middle, ends, rfl, inside, closes⟩ := List.map_eq_append_iff.1 rest
  obtain ⟨⟨closing, _⟩, rfl, rfl⟩ := List.map_eq_singleton_iff.1 closes
  exact ⟨opening, middle, closing, rfl, inside⟩

theorem exists_parts_comma {front back : List Lexeme}
    (whole : parts.map Spaced.lexeme = front ++ .mark ',' :: back) :
    ∃ first gap onward, parts = first ++ ⟨gap, .mark ','⟩ :: onward ∧ first.map Spaced.lexeme = front ∧
      onward.map Spaced.lexeme = back := by
  obtain ⟨first, others, rfl, leading, rest⟩ := List.map_eq_append_iff.1 whole
  obtain ⟨⟨gap, _⟩, onward, rfl, rfl, further⟩ := List.map_eq_cons_iff.1 rest
  exact ⟨first, gap, onward, rfl, leading, further⟩

theorem exists_parts_member {content : List Char} {others : List Lexeme}
    (whole : parts.map Spaced.lexeme = .name content :: .mark ':' :: others) :
    ∃ space gap further, parts = ⟨space, .name content⟩ :: ⟨gap, .mark ':'⟩ :: further ∧
      further.map Spaced.lexeme = others := by
  obtain ⟨⟨space, _⟩, rest, rfl, rfl, behind⟩ := List.map_eq_cons_iff.1 whole
  obtain ⟨⟨gap, _⟩, further, rfl, rfl, same⟩ := List.map_eq_cons_iff.1 behind
  exact ⟨space, gap, further, rfl, same⟩

end

theorem written_between (opening closing : List Char) (first last : Lexeme) (middle : List Spaced) (rest : List Char) :
    written (⟨opening, first⟩ :: (middle ++ [⟨closing, last⟩])) ++ rest =
      opening ++ (first.text ++ (written middle ++ (closing ++ (last.text ++ rest)))) := by
  simp [written]

theorem written_comma (first onward : List Spaced) (gap rest : List Char) :
    written (first ++ ⟨gap, .mark ','⟩ :: onward) ++ rest =
      written first ++ (gap ++ ',' :: (written onward ++ rest)) := by
  simp [written, Lexeme.text]

theorem written_member (space gap content : List Char) (further : List Spaced) (rest : List Char) :
    written (⟨space, .name content⟩ :: ⟨gap, .mark ':'⟩ :: further) ++ rest =
      space ++ (Lexeme.quoted content ++ (gap ++ ':' :: (written further ++ rest))) := by
  simp [written, Lexeme.text]

/-! Values of one lexeme. -/

theorem readable_scalar {lexeme : Lexeme} (scalar : lexeme.isMark = false)
    (reads : ∀ (fuel nesting : Nat) {space rest : List Char}, Blank space → lexeme.Spelled →
      startsIn numberPart rest = false →
      Yields (readValue (fuel + 1) nesting (skipSpace (space ++ (lexeme.text ++ rest)))) rest false) :
    Readable .value [lexeme] := by
  intro parts whole sound
  obtain ⟨⟨space, _⟩, rfl, rfl⟩ := List.map_eq_singleton_iff.1 whole
  obtain ⟨blank, spelled⟩ := sound _ List.mem_cons_self
  intro fuel nesting rest enough stops
  obtain ⟨fuel, rfl⟩ := Nat.exists_eq_add_of_le' enough
  have yields := reads fuel nesting blank spelled stops
  simpa [written, scalar] using yields

theorem readable_number (text : List Char) : Readable .value [.number text] := by
  refine readable_scalar rfl fun fuel nesting space rest blank spelled stops => ?_
  obtain ⟨value, read, plain⟩ := readScalar_number spelled stops
  refine .inr ⟨value, (readValue_scalar fuel nesting blank spelled.startsNumber rest).trans ?_, plain⟩
  exact congrArg formed read

theorem readable_word (text : List Char) : Readable .value [.word text] := by
  refine readable_scalar rfl fun fuel nesting space rest blank spelled _ => ?_
  obtain ⟨value, read, plain⟩ := readScalar_word spelled rest
  refine .inr ⟨value, (readValue_scalar fuel nesting blank spelled.startsWord rest).trans ?_, plain⟩
  exact congrArg formed read

theorem readable_string (content : List Char) : Readable .value [.string content] :=
  readable_scalar rfl fun _ _ _ _ blank spelled _ => readValue_string blank spelled

/-! Arrays and objects. -/

theorem readable_between {first last : Char} {inside : List Lexeme} (opening : first ∈ ['[', '{'])
    (reads : ∀ (middle : List Spaced) (fuel nesting : Nat) {space gap rest : List Char},
      middle.map Spaced.lexeme = inside → Sound middle → middle.length < fuel → Blank space → Blank gap →
      Yields (readValue (fuel + 1) (nesting + 1) (skipSpace (space ++ first :: (written middle ++ (gap ++ last :: rest)))))
        rest true) :
    Readable .value (.mark first :: (inside ++ [.mark last])) := by
  intro parts whole sound
  obtain ⟨space, middle, closing, rfl, lexemes⟩ := exists_parts_between whole
  obtain ⟨⟨blank, -⟩, others⟩ := List.forall_mem_cons.1 sound
  obtain ⟨soundMiddle, ends⟩ := Sound.append others
  obtain ⟨blankGap, -⟩ := ends _ (List.mem_singleton_self _)
  intro fuel nesting rest enough stops
  simp only [List.length_cons, List.length_append, List.length_nil] at enough
  obtain ⟨fuel, rfl⟩ : ∃ less, fuel = less + 1 := ⟨fuel - 1, by omega⟩
  rw [written_between]
  cases nesting with
  | zero => exact .inl (readValue_opening opening blank)
  | succ nesting => exact reads middle fuel nesting lexemes soundMiddle (by omega) blank blankGap

theorem readable_emptyArray : Readable .value [.mark '[', .mark ']'] := by
  have between : Readable .value (.mark '[' :: ([] ++ [.mark ']'])) := by
    refine readable_between (by decide) fun middle fuel nesting space gap rest lexemes _ _ blank blankGap => ?_
    obtain rfl := List.map_eq_nil_iff.1 lexemes
    have opens : skipSpace (space ++ '[' :: (gap ++ ']' :: rest)) = '[' :: (gap ++ ']' :: rest) :=
      skipSpace_mark blank rfl _
    have closes : skipSpace (gap ++ ']' :: rest) = ']' :: rest := skipSpace_mark blankGap rfl rest
    refine .inr ⟨array [], ?_, rfl⟩
    change readValue (fuel + 1) (nesting + 1) (skipSpace (space ++ '[' :: (gap ++ ']' :: rest))) = _
    simp only [opens, readValue, closes]
  exact between

theorem readable_emptyObject : Readable .value [.mark '{', .mark '}'] := by
  have between : Readable .value (.mark '{' :: ([] ++ [.mark '}'])) := by
    refine readable_between (by decide) fun middle fuel nesting space gap rest lexemes _ _ blank blankGap => ?_
    obtain rfl := List.map_eq_nil_iff.1 lexemes
    have opens : skipSpace (space ++ '{' :: (gap ++ '}' :: rest)) = '{' :: (gap ++ '}' :: rest) :=
      skipSpace_mark blank rfl _
    have closes : skipSpace (gap ++ '}' :: rest) = '}' :: rest := skipSpace_mark blankGap rfl rest
    refine .inr ⟨object [], ?_, rfl⟩
    change readValue (fuel + 1) (nesting + 1) (skipSpace (space ++ '{' :: (gap ++ '}' :: rest))) = _
    simp only [opens, readValue, closes]
  exact between

theorem Readable.array {items : List Lexeme} (inside : Readable .items items) :
    Readable .value (.mark '[' :: (items ++ [.mark ']'])) := by
  refine readable_between (by decide) fun middle fuel nesting _ gap rest lexemes sound enough blank blankGap => ?_
  have yields := inside middle lexemes sound fuel nesting gap rest [] enough blankGap
  rwa [readValue_array blank yields.ne_malformed]

theorem Readable.object {members : List Lexeme} (inside : Readable .members members) :
    Readable .value (.mark '{' :: (members ++ [.mark '}'])) := by
  refine readable_between (by decide) fun middle fuel nesting _ gap rest lexemes sound enough blank blankGap => ?_
  have yields := inside middle lexemes sound fuel nesting gap rest [] enough blankGap
  rwa [readValue_object blank yields.ne_malformed]

/-! Items and members. -/

section

variable {parts : List Spaced} {value onward : List Lexeme} {content : List Char}

theorem Readable.read_comma (readable : Readable .value value)
    (whole : parts.map Spaced.lexeme = value ++ .mark ',' :: onward) (sound : Sound parts) {fuel : Nat}
    (enough : parts.length ≤ fuel) (nesting : Nat) (rest : List Char) :
    readValue fuel nesting (skipSpace (written parts ++ rest)) = .error .tooDeep ∨
      ∃ found gap further, readValue fuel nesting (skipSpace (written parts ++ rest)) =
          .ok (found, gap ++ ',' :: (written further ++ rest)) ∧
        Blank gap ∧ further.map Spaced.lexeme = onward ∧ Sound further ∧ further.length < parts.length := by
  obtain ⟨first, gap, further, rfl, front, back⟩ := exists_parts_comma whole
  obtain ⟨soundFirst, others⟩ := Sound.append sound
  obtain ⟨⟨blank, -⟩, soundFurther⟩ := List.forall_mem_cons.1 others
  rw [List.length_append, List.length_cons] at enough ⊢
  have enough_first : first.length ≤ fuel := by omega
  have stops : startsIn numberPart (gap ++ ',' :: (written further ++ rest)) = false := stops_at_mark blank rfl _
  rw [written_comma]
  refine (readable first front soundFirst fuel nesting _ enough_first stops).imp_right ?_
  rintro ⟨found, read, -⟩
  exact ⟨found, gap, further, read, blank, back, soundFurther, by omega⟩

theorem exists_given (whole : parts.map Spaced.lexeme = .name content :: .mark ':' :: value) (sound : Sound parts) :
    ∃ further, further.map Spaced.lexeme = value ∧ Sound further ∧ further.length < parts.length ∧
      ∀ (fuel nesting : Nat) (rest : List Char) (done : List (String × Json)),
        ∃ name, readMembers (fuel + 1) nesting done (skipSpace (written parts ++ rest)) =
          match readValue fuel nesting (skipSpace (written further ++ rest)) with
          | .error failure => .error failure
          | .ok (found, behind) =>
            match skipSpace behind with
            | '}' :: rest => .ok (Json.object ((name, found) :: done).reverse, rest)
            | ',' :: rest => readMembers fuel nesting ((name, found) :: done) (skipSpace rest)
            | _ => .error .malformed := by
  obtain ⟨space, gap, further, rfl, lexemes⟩ := exists_parts_member whole
  obtain ⟨⟨blank, spelled⟩, others⟩ := List.forall_mem_cons.1 sound
  obtain ⟨⟨blankGap, -⟩, soundFurther⟩ := List.forall_mem_cons.1 others
  have fewer : further.length < (⟨space, .name content⟩ :: ⟨gap, .mark ':'⟩ :: further : List Spaced).length := by
    rw [List.length_cons, List.length_cons]
    omega
  refine ⟨further, lexemes, soundFurther, fewer, fun fuel nesting rest done => ?_⟩
  rw [written_member]
  exact readMembers_named blank spelled blankGap done

theorem Readable.lastItem (readable : Readable .value value) : Readable .items value := by
  intro parts whole sound fuel nesting gap rest done enough blank
  have stops : startsIn numberPart (gap ++ ']' :: rest) = false := stops_at_mark blank rfl rest
  obtain ⟨fuel, rfl⟩ : ∃ less, fuel = less + 1 := ⟨fuel - 1, by omega⟩
  rcases readable parts whole sound fuel nesting _ (Nat.le_of_lt_succ enough) stops with deep | ⟨found, read, -⟩
  · exact .inl (readItems_error deep)
  · exact .inr ⟨_, readItems_last read blank, rfl⟩

theorem Readable.item (readable : Readable .value value) (readableOnward : Readable .items onward) :
    Readable .items (value ++ .mark ',' :: onward) := by
  intro parts whole sound fuel nesting gap rest done enough blank
  obtain ⟨fuel, rfl⟩ : ∃ less, fuel = less + 1 := ⟨fuel - 1, by omega⟩
  rcases readable.read_comma whole sound (Nat.le_of_lt_succ enough) nesting (gap ++ ']' :: rest) with
    deep | ⟨found, comma, further, read, blankComma, back, soundFurther, fewer⟩
  · exact .inl (readItems_error deep)
  · rw [readItems_comma read blankComma]
    exact readableOnward further back soundFurther fuel nesting gap rest (found :: done) (by omega) blank

theorem Readable.lastMember (readable : Readable .value value) :
    Readable .members (.name content :: .mark ':' :: value) := by
  intro parts whole sound fuel nesting gap rest done enough blank
  obtain ⟨further, lexemes, soundFurther, fewer, named⟩ := exists_given whole sound
  obtain ⟨fuel, rfl⟩ : ∃ less, fuel = less + 1 := ⟨fuel - 1, by omega⟩
  have enough_value : further.length ≤ fuel := by omega
  have stops : startsIn numberPart (gap ++ '}' :: rest) = false := stops_at_mark blank rfl rest
  obtain ⟨name, members⟩ := named fuel nesting (gap ++ '}' :: rest) done
  rw [members]
  rcases readable further lexemes soundFurther fuel nesting _ enough_value stops with deep | ⟨found, read, -⟩
  · rw [deep]
    exact .inl rfl
  · rw [read]
    dsimp only
    rw [skipSpace_mark blank rfl]
    exact .inr ⟨_, rfl, rfl⟩

theorem Readable.member (readable : Readable .value value) (readableOnward : Readable .members onward) :
    Readable .members (.name content :: .mark ':' :: (value ++ .mark ',' :: onward)) := by
  intro parts whole sound fuel nesting gap rest done enough blank
  obtain ⟨further, lexemes, soundFurther, fewer, named⟩ := exists_given whole sound
  obtain ⟨fuel, rfl⟩ : ∃ less, fuel = less + 1 := ⟨fuel - 1, by omega⟩
  have enough_value : further.length ≤ fuel := by omega
  obtain ⟨name, next⟩ := named fuel nesting (gap ++ '}' :: rest) done
  rw [next]
  rcases readable.read_comma lexemes soundFurther enough_value nesting (gap ++ '}' :: rest) with
    deep | ⟨found, comma, members, read, blankComma, back, soundMembers, shorter⟩
  · rw [deep]
    exact .inl rfl
  · rw [read]
    dsimp only
    rw [skipSpace_mark blankComma rfl]
    exact readableOnward members back soundMembers fuel nesting gap rest ((name, found) :: done) (by omega) blank

end

theorem readable {role : Role} {lexemes : List Lexeme} (derives : Derives role lexemes) : Readable role lexemes := by
  induction derives with
  | number text => exact readable_number text
  | word text => exact readable_word text
  | string content => exact readable_string content
  | emptyArray => exact readable_emptyArray
  | emptyObject => exact readable_emptyObject
  | array _ inside => exact inside.array
  | object _ inside => exact inside.object
  | lastItem _ value => exact value.lastItem
  | item _ _ value onward => exact value.item onward
  | lastMember _ value => exact value.lastMember
  | member _ _ value onward => exact value.member onward

/-! ## Whole texts -/

theorem Lexeme.Spelled.text_ne_nil {lexeme : Lexeme} (spelled : lexeme.Spelled) : lexeme.text ≠ [] := by
  have some_text {text : List Char} (starts : startsIn scalarStart text = true) : text ≠ [] := by
    rintro rfl
    cases starts
  cases lexeme with
  | mark c | name content | string content => exact List.cons_ne_nil _ _
  | number text => exact some_text spelled.startsNumber
  | word text => exact some_text spelled.startsWord

theorem length_le_written {parts : List Spaced} (sound : Sound parts) : parts.length ≤ (written parts).length := by
  induction parts with
  | nil => exact Nat.le_refl 0
  | cons part parts ih =>
    obtain ⟨⟨-, spelled⟩, others⟩ := List.forall_mem_cons.1 sound
    have positive := List.length_pos_iff.2 spelled.text_ne_nil
    have onward := ih others
    simp only [written, List.flatMap_cons, List.length_append, List.length_cons] at onward ⊢
    omega

namespace Document

def isContainer (document : Document) : Bool :=
  document.parts.head?.any fun part => part.lexeme.isMark

theorem sound {document : Document} (spelled : document.Spelled) : Sound document.parts :=
  fun part member => ⟨document.blank part member, spelled part member⟩

end Document

theorem enough_fuel {parts : List Spaced} (sound : Sound parts) (rest : List Char) :
    parts.length ≤ 2 * (written parts ++ rest).length + 2 := by
  have few := length_le_written sound
  rw [List.length_append]
  omega

/-- Every JSON text is read, unless it is nested too deeply. -/
theorem read_document {document : Document} (spelled : document.Spelled) (nesting : Nat) :
    read nesting document.text = .error .tooDeep ∨
      ∃ value, read nesting document.text = .ok value ∧ value.isContainer = document.isContainer := by
  have sound := Document.sound spelled
  have stops : startsIn numberPart document.trailing = false := by
    cases trailing : document.trailing with
    | nil => rfl
    | cons c rest => exact numberPart_of_isSpace (document.blank_trailing c (by simp [trailing]))
  have nothing : skipSpace document.trailing = [] := List.dropWhile_eq_nil_iff.2 document.blank_trailing
  unfold Json.read Document.text
  rcases readable document.derives document.parts rfl sound _ nesting _ (enough_fuel sound document.trailing) stops with
    deep | ⟨value, given, container⟩
  · rw [deep]
    exact .inl rfl
  · rw [given]
    dsimp only
    rw [nothing]
    exact .inr ⟨value, rfl, container⟩

theorem parsesAsJson_eq_tooDeep {nesting : Nat} {source : String} :
    parsesAsJson nesting source = .error .tooDeep ↔ read nesting source.toList = .error .tooDeep := by
  unfold parsesAsJson
  split
  next given => simp [given]
  next given => simp [given]
  next given => simp [given]

/-- The sources that count as JSON are the texts, by the grammar, of an array or an object that is not nested too
deeply. -/
theorem parsesAsJson_iff {nesting : Nat} {source : String} :
    parsesAsJson nesting source = .ok true ↔ parsesAsJson nesting source ≠ .error .tooDeep ∧
      ∃ document : Document, document.Spelled ∧ document.isContainer = true ∧ document.text = source.toList := by
  constructor
  · intro parses
    refine ⟨by simp [parses], ?_⟩
    unfold parsesAsJson at parses
    split at parses
    next found reads =>
      obtain ⟨document, spelled, text⟩ := exists_document_of_read reads
      refine ⟨document, spelled, ?_, text⟩
      rcases read_document spelled nesting with deep | ⟨value, given, container⟩
      · rw [text, reads] at deep
        cases deep
      · rw [text, reads] at given
        cases given
        exact container.symm.trans (Except.ok.inj parses)
    next => cases parses
    next => cases parses
  · intro ⟨shallow, document, spelled, container, text⟩
    rw [Ne, parsesAsJson_eq_tooDeep, ← text] at shallow
    rcases read_document spelled nesting with deep | ⟨value, given, same⟩
    · exact absurd deep shallow
    · rw [parsesAsJson, ← text, given]
      exact congrArg Except.ok (same.trans container)

/-! ## Arrays and objects -/

theorem Derives.brackets {lexemes : List Lexeme} (derives : Derives .value lexemes)
    (opens : lexemes.head?.any Lexeme.isMark = true) :
    ∃ first inside last, lexemes = .mark first :: (inside ++ [.mark last]) ∧ first ∈ ['[', '{'] ∧
      last ∈ [']', '}'] := by
  cases derives with
  | number text | word text | string content => cases opens
  | emptyArray => exact ⟨'[', [], ']', rfl, by decide, by decide⟩
  | emptyObject => exact ⟨'{', [], '}', rfl, by decide, by decide⟩
  | array inside => exact ⟨'[', _, ']', rfl, by decide, by decide⟩
  | object inside => exact ⟨'{', _, '}', rfl, by decide, by decide⟩

theorem Document.written_brackets {document : Document} (container : document.isContainer = true) :
    ∃ space first inside last, written document.parts = space ++ first :: (inside ++ [last]) ∧
      Blank space ∧ first ∈ ['[', '{'] ∧ last ∈ [']', '}'] := by
  have opens : (document.parts.map Spaced.lexeme).head?.any Lexeme.isMark = true := by
    rw [List.head?_map, Option.any_map]
    exact container
  obtain ⟨first, inside, last, lexemes, opening, closing⟩ := document.derives.brackets opens
  obtain ⟨space, middle, gap, parts, -⟩ := exists_parts_between lexemes
  have blank := document.blank _ (parts ▸ List.mem_cons_self)
  refine ⟨space, first, written middle ++ gap, last, ?_, blank, opening, closing⟩
  rw [parts]
  simp [written, Lexeme.text]

theorem Document.text_brackets {document : Document} (container : document.isContainer = true) :
    ∃ space first inside last, document.text = space ++ first :: (inside ++ last :: document.trailing) ∧
      Blank space ∧ first ∈ ['[', '{'] ∧ last ∈ [']', '}'] := by
  obtain ⟨space, first, inside, last, parts, blank, opening, closing⟩ := Document.written_brackets container
  refine ⟨space, first, inside, last, ?_, blank, opening, closing⟩
  rw [Document.text, parts, List.append_assoc, List.cons_append, List.append_assoc, List.singleton_append]

end CodeColor.Json
