import CodeColor.Proofs.Json.Nesting

/-!
The grammar of JSON by its phrases, character by character. White space may stand around every value and every name, and
a comma stands between two elements or two members, never behind the last one.

Main statement: `parsesAsJson_iff_phrase`. It rests on `Phrase.starts` and `phrases_of_derives`, one for each direction,
between phrases and rows of lexemes.
-/

namespace CodeColor.Json

/-! ## The grammar -/

inductive Kind where
  /-- An array or an object. -/
  | container
  | value
  /-- A value with white space around it. -/
  | element
  /-- One or more elements with commas between them. -/
  | elements
  /-- One or more elements with names, and commas between them. -/
  | members

/-- The name of a member up to its colon, with white space around the name. -/
def Label (text : List Char) : Prop :=
  ∃ space content gap, text = space ++ (Lexeme.quoted content ++ (gap ++ [':'])) ∧ Blank space ∧ Content content ∧
    Blank gap

inductive Phrase : Kind → List Char → Prop
  | emptyArray {space : List Char} (blank : Blank space) : Phrase .container ('[' :: (space ++ [']']))
  | array {elements : List Char} (inside : Phrase .elements elements) : Phrase .container ('[' :: (elements ++ [']']))
  | emptyObject {space : List Char} (blank : Blank space) : Phrase .container ('{' :: (space ++ ['}']))
  | object {members : List Char} (inside : Phrase .members members) : Phrase .container ('{' :: (members ++ ['}']))
  | container {text : List Char} (inside : Phrase .container text) : Phrase .value text
  | string {content : List Char} (spelled : Content content) : Phrase .value (Lexeme.quoted content)
  | number {numeral : Numeral} (spelled : numeral.Spelled) : Phrase .value numeral.text
  | word {text : List Char} (known : (Lexeme.word text).Spelled) : Phrase .value text
  | element {space text gap : List Char} (blank : Blank space) (value : Phrase .value text) (blankGap : Blank gap) :
      Phrase .element (space ++ (text ++ gap))
  | lastElement {element : List Char} (last : Phrase .element element) : Phrase .elements element
  | elements {element elements : List Char} (first : Phrase .element element) (onward : Phrase .elements elements) :
      Phrase .elements (element ++ ',' :: elements)
  | lastMember {label element : List Char} (named : Label label) (last : Phrase .element element) :
      Phrase .members (label ++ element)
  | members {label element members : List Char} (named : Label label) (first : Phrase .element element)
      (onward : Phrase .members members) : Phrase .members (label ++ (element ++ ',' :: members))

/-! ## Phrases are rows of lexemes -/

/-- What a phrase of the kind is as a row of lexemes, whatever comes behind it. -/
def Kind.Starts : Kind → List Char → Prop
  | .container, text => ∀ space rest, Blank space → StartsContainer (space ++ (text ++ rest)) rest
  | .value, text => ∀ space rest, Blank space → Json.Starts .value (space ++ (text ++ rest)) rest
  | .element, text => ∀ mark rest, StartsUpTo .value mark (text ++ mark :: rest) rest
  | .elements, text => ∀ rest, StartsUpTo .items ']' (text ++ ']' :: rest) rest
  | .members, text => ∀ rest, StartsUpTo .members '}' (text ++ '}' :: rest) rest

theorem starts_label {label text rest : List Char} (named : Label label) (value : StartsUpTo .value '}' text rest) :
    StartsUpTo .members '}' (label ++ text) rest := by
  obtain ⟨space, content, gap, rfl, blank, spelled, blankGap⟩ := named
  obtain ⟨last, blankLast, starts⟩ := value
  refine ⟨last, blankLast, ?_⟩
  simpa using starts_lastMember blank spelled blankGap starts

theorem startsUpTo_label {label text behind rest : List Char} (named : Label label)
    (value : StartsUpTo .value ',' text behind) (onward : StartsUpTo .members '}' behind rest) :
    StartsUpTo .members '}' (label ++ text) rest := by
  obtain ⟨space, content, gap, rfl, blank, spelled, blankGap⟩ := named
  simpa using startsUpTo_member blank spelled blankGap value onward

theorem Phrase.starts {kind : Kind} {text : List Char} (phrase : Phrase kind text) : kind.Starts text := by
  induction phrase with
  | @emptyArray gap blankGap =>
    intro space rest blank
    have closes : skipSpace (gap ++ ']' :: rest) = ']' :: rest := skipSpace_mark blankGap rfl rest
    simpa using starts_void blank closes .emptyArray
  | array _ ih =>
    intro space rest blank
    simpa using starts_between blank (ih rest) .array
  | @emptyObject gap blankGap =>
    intro space rest blank
    have closes : skipSpace (gap ++ '}' :: rest) = '}' :: rest := skipSpace_mark blankGap rfl rest
    simpa using starts_void blank closes .emptyObject
  | object _ ih =>
    intro space rest blank
    simpa using starts_between blank (ih rest) .object
  | container _ ih => exact fun space rest blank => (ih space rest blank).starts
  | string spelled => exact fun _ _ blank => starts_of_lexeme (.string _) blank rfl (.string _) spelled
  | @number numeral spelled =>
    exact fun _ _ blank => starts_of_lexeme (.number _) blank rfl (.number _) ⟨numeral, rfl, spelled⟩
  | word known => exact fun _ _ blank => starts_of_lexeme (.word _) blank rfl (.word _) known
  | @element space text gap blank _ blankGap ih =>
    intro mark rest
    refine ⟨gap, blankGap, ?_⟩
    simpa using ih space (gap ++ mark :: rest) blank
  | lastElement _ ih =>
    intro rest
    obtain ⟨gap, blankGap, starts⟩ := ih ']' rest
    exact ⟨gap, blankGap, starts_lastItem starts⟩
  | elements _ _ first onward =>
    intro rest
    simpa using startsUpTo_item (first ',' _) (onward rest)
  | lastMember named _ ih =>
    intro rest
    simpa using starts_label named (ih '}' rest)
  | members named _ _ first onward =>
    intro rest
    simpa using startsUpTo_label named (first ',' _) (onward rest)

/-! ## Rows of lexemes are phrases -/

/-- What a row of lexemes of the role is as a phrase, however the lexemes are spaced. -/
def Role.Phrases (lexemes : List Lexeme) : Role → Prop
  | .value => ∀ parts : List Spaced, parts.map Spaced.lexeme = lexemes → Sound parts →
    ∃ space text, written parts = space ++ text ∧ Blank space ∧ Phrase .value text ∧
      (lexemes.head?.any Lexeme.isMark = true → Phrase .container text)
  | .items => ∀ (parts : List Spaced) (gap : List Char), parts.map Spaced.lexeme = lexemes → Sound parts → Blank gap →
    Phrase .elements (written parts ++ gap)
  | .members => ∀ (parts : List Spaced) (gap : List Char), parts.map Spaced.lexeme = lexemes → Sound parts →
    Blank gap → Phrase .members (written parts ++ gap)

section

variable {lexemes : List Lexeme}

theorem element_of_value {parts : List Spaced} {gap : List Char} (value : Role.value.Phrases lexemes)
    (whole : parts.map Spaced.lexeme = lexemes) (sound : Sound parts) (blankGap : Blank gap) :
    Phrase .element (written parts ++ gap) := by
  obtain ⟨space, text, split, blank, phrase, -⟩ := value parts whole sound
  rw [split, List.append_assoc]
  exact .element blank phrase blankGap

theorem phrases_scalar {lexeme : Lexeme} (scalar : lexeme.isMark = false)
    (phrase : lexeme.Spelled → Phrase .value lexeme.text) : Role.value.Phrases [lexeme] := by
  intro parts whole sound
  obtain ⟨⟨space, _⟩, rfl, rfl⟩ := List.map_eq_singleton_iff.1 whole
  obtain ⟨blank, spelled⟩ := sound _ List.mem_cons_self
  refine ⟨space, _, by simp [written], blank, phrase spelled, fun mark => ?_⟩
  exact absurd (scalar.symm.trans mark) Bool.false_ne_true

theorem phrases_between {first last : Char}
    (phrase : ∀ (middle : List Spaced) (gap : List Char), middle.map Spaced.lexeme = lexemes → Sound middle →
      Blank gap → Phrase .container (first :: (written middle ++ gap ++ [last]))) :
    Role.value.Phrases (.mark first :: (lexemes ++ [.mark last])) := by
  intro parts whole sound
  obtain ⟨space, middle, gap, rfl, inside⟩ := exists_parts_between whole
  obtain ⟨⟨blank, -⟩, others⟩ := List.forall_mem_cons.1 sound
  obtain ⟨soundMiddle, ends⟩ := Sound.append others
  obtain ⟨blankGap, -⟩ := ends _ (List.mem_singleton_self _)
  have container := phrase middle gap inside soundMiddle blankGap
  exact ⟨space, _, by simp [written, Lexeme.text], blank, .container container, fun _ => container⟩

theorem phrases_void {first last : Char}
    (phrase : ∀ gap : List Char, Blank gap → Phrase .container (first :: (gap ++ [last]))) :
    Role.value.Phrases [.mark first, .mark last] := by
  have between : Role.value.Phrases (.mark first :: ([] ++ [.mark last])) := by
    refine phrases_between fun middle gap none _ blankGap => ?_
    obtain rfl := List.map_eq_nil_iff.1 none
    exact phrase gap blankGap
  exact between

theorem phrases_item {onward : List Lexeme} (value : Role.value.Phrases lexemes) (items : Role.items.Phrases onward) :
    Role.items.Phrases (lexemes ++ .mark ',' :: onward) := by
  intro parts gap whole sound blankGap
  obtain ⟨first, comma, others, rfl, front, back⟩ := exists_parts_comma whole
  obtain ⟨soundFirst, ends⟩ := Sound.append sound
  obtain ⟨⟨blankComma, -⟩, soundOthers⟩ := List.forall_mem_cons.1 ends
  have element := element_of_value value front soundFirst blankComma
  rw [written_comma, ← List.append_assoc]
  exact .elements element (items others gap back soundOthers blankGap)

end

theorem exists_label {parts : List Spaced} {content : List Char} {lexemes : List Lexeme}
    (whole : parts.map Spaced.lexeme = .name content :: .mark ':' :: lexemes) (sound : Sound parts) :
    ∃ label further, Label label ∧ written parts = label ++ written further ∧ further.map Spaced.lexeme = lexemes ∧
      Sound further := by
  obtain ⟨space, gap, further, rfl, same⟩ := exists_parts_member whole
  obtain ⟨⟨blank, spelled⟩, others⟩ := List.forall_mem_cons.1 sound
  obtain ⟨⟨blankGap, -⟩, soundFurther⟩ := List.forall_mem_cons.1 others
  exact ⟨_, further, ⟨space, content, gap, rfl, blank, spelled, blankGap⟩, by simp [written, Lexeme.text], same,
    soundFurther⟩

theorem phrases_lastMember {content : List Char} {lexemes : List Lexeme} (value : Role.value.Phrases lexemes) :
    Role.members.Phrases (.name content :: .mark ':' :: lexemes) := by
  intro parts gap whole sound blankGap
  obtain ⟨label, further, named, split, same, soundFurther⟩ := exists_label whole sound
  rw [split, List.append_assoc]
  exact .lastMember named (element_of_value value same soundFurther blankGap)

theorem phrases_member {content : List Char} {lexemes onward : List Lexeme} (value : Role.value.Phrases lexemes)
    (members : Role.members.Phrases onward) :
    Role.members.Phrases (.name content :: .mark ':' :: (lexemes ++ .mark ',' :: onward)) := by
  intro parts gap whole sound blankGap
  obtain ⟨label, further, named, split, same, soundFurther⟩ := exists_label whole sound
  obtain ⟨first, comma, others, rfl, front, back⟩ := exists_parts_comma same
  obtain ⟨soundFirst, ends⟩ := Sound.append soundFurther
  obtain ⟨⟨blankComma, -⟩, soundOthers⟩ := List.forall_mem_cons.1 ends
  have element := element_of_value value front soundFirst blankComma
  rw [split, List.append_assoc, written_comma, ← List.append_assoc (written first)]
  exact .members named element (members others gap back soundOthers blankGap)

theorem phrases_of_derives {role : Role} {lexemes : List Lexeme} (derives : Derives role lexemes) :
    role.Phrases lexemes := by
  induction derives with
  | number text =>
    refine phrases_scalar rfl fun spelled => ?_
    obtain ⟨numeral, rfl, spelled⟩ := spelled
    exact .number spelled
  | word text => exact phrases_scalar rfl .word
  | string content => exact phrases_scalar rfl .string
  | emptyArray => exact phrases_void fun _ => .emptyArray
  | emptyObject => exact phrases_void fun _ => .emptyObject
  | array _ inside =>
    exact phrases_between fun middle gap same sound blank => .array (inside middle gap same sound blank)
  | object _ inside =>
    exact phrases_between fun middle gap same sound blank => .object (inside middle gap same sound blank)
  | lastItem _ value => exact fun _ _ same sound blank => .lastElement (element_of_value value same sound blank)
  | item _ _ value onward => exact phrases_item value onward
  | lastMember _ value => exact phrases_lastMember value
  | member _ _ value onward => exact phrases_member value onward

/-! ## Sources -/

theorem exists_document_iff {source : String} :
    (∃ document : Document, document.Spelled ∧ document.isContainer = true ∧ document.text = source.toList) ↔
      ∃ space text trailing, source.toList = space ++ (text ++ trailing) ∧ Blank space ∧ Blank trailing ∧
        Phrase .container text := by
  constructor
  · rintro ⟨document, spelled, container, whole⟩
    obtain ⟨space, text, split, blank, -, phrase⟩ :=
      phrases_of_derives document.derives document.parts rfl (Document.sound spelled)
    have opens : (document.parts.map Spaced.lexeme).head?.any Lexeme.isMark = true := by
      rw [List.head?_map, Option.any_map]
      exact container
    refine ⟨space, text, document.trailing, ?_, blank, document.blank_trailing, phrase opens⟩
    rw [← whole, Document.text, split, List.append_assoc]
  · rintro ⟨space, text, trailing, whole, blank, blankTrailing, phrase⟩
    obtain ⟨parts, split, derives, sound, container⟩ := phrase.starts space trailing blank
    refine ⟨⟨parts, trailing, derives, fun part member => (sound part member).1, blankTrailing⟩,
      fun part member => (sound part member).2, container, ?_⟩
    rw [whole, split]
    rfl

/-- A source that is not nested too deeply counts as JSON if and only if it is an array or an object by the grammar,
with white space around it. One that is nested too deeply has no answer. -/
theorem parsesAsJson_iff_phrase (nesting : Nat) (source : String) :
    let bounded := ¬ Overflows nesting source.toList
    let phrased := ∃ space text trailing, source.toList = space ++ (text ++ trailing) ∧ Blank space ∧ Blank trailing ∧
      Phrase .container text
    (parsesAsJson nesting source = .ok true ↔ bounded ∧ phrased) ∧
      (parsesAsJson nesting source = .ok false ↔ bounded ∧ ¬ phrased) ∧
      (parsesAsJson nesting source = .error .tooDeep ↔ ¬ bounded) := by
  intro bounded phrased
  have accepted : parsesAsJson nesting source = .ok true ↔ bounded ∧ phrased := by
    rw [parsesAsJson_iff, Ne, parsesAsJson_eq_tooDeep_iff, exists_document_iff]
  have deep : parsesAsJson nesting source = .error .tooDeep ↔ ¬ bounded := by
    rw [parsesAsJson_eq_tooDeep_iff, not_not]
  refine ⟨accepted, ?_, deep⟩
  constructor
  · intro refused
    have shallow : bounded := by
      by_contra overflows
      cases refused.symm.trans (deep.2 fun shallow => shallow overflows)
    refine ⟨shallow, fun phrase => ?_⟩
    cases refused.symm.trans (accepted.2 ⟨shallow, phrase⟩)
  · rintro ⟨shallow, other⟩
    obtain ⟨parses, answered⟩ := exists_parsesAsJson shallow
    cases parses with
    | false => exact answered
    | true => exact absurd (accepted.1 answered).2 other

example :
    parsesAsJson 2 " [-0.5e+1, [\x7b\x7d]] " = .error .tooDeep ∧ parsesAsJson 2 "[-0.5e+1, [\x7b]] " = .error .tooDeep ∧
      parsesAsJson 3 " [-0.5e+1, [\x7b\x7d]] " = .ok true ∧ parsesAsJson 3 "[1,]" = .ok false := by
  decide +kernel

end CodeColor.Json
