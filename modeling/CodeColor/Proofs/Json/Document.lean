import CodeColor.Json.Reader
import CodeColor.Pattern.CharSet
import CodeColor.Token.TokenType

/-!
JSON texts by their grammar: which lexemes they are made of, in which order these come, and where white space
may stand.

Main statement: `Derives.ordered_append`, which says what may follow on a lexeme.
-/

namespace CodeColor.Json

/-- The smallest parts of a JSON text, apart from white space. -/
inductive Lexeme where
  | mark (c : Char)
  /-- The literal that names a member, by what stands between its quotes. -/
  | name (content : List Char)
  /-- Any other string literal, by what stands between its quotes. -/
  | string (content : List Char)
  | number (text : List Char)
  | word (text : List Char)

namespace Lexeme

def quoted (content : List Char) : List Char := '"' :: (content ++ ['"'])

def text : Lexeme → List Char
  | mark c => [c]
  | name content => quoted content
  | string content => quoted content
  | number text => text
  | word text => text

def isMark : Lexeme → Bool
  | mark _ => true
  | _ => false

def isLiteral : Lexeme → Bool
  | name _ => true
  | string _ => true
  | _ => false

end Lexeme

/-- What a row of lexemes makes up. -/
inductive Role where
  | value
  /-- One or more values with commas between them. -/
  | items
  /-- One or more named values with commas between them. -/
  | members

/-- The lexemes of values, of items and of members. -/
inductive Derives : Role → List Lexeme → Prop
  | number (text : List Char) : Derives .value [.number text]
  | word (text : List Char) : Derives .value [.word text]
  | string (content : List Char) : Derives .value [.string content]
  | emptyArray : Derives .value [.mark '[', .mark ']']
  | array {items : List Lexeme} (inside : Derives .items items) :
      Derives .value (.mark '[' :: (items ++ [.mark ']']))
  | emptyObject : Derives .value [.mark '{', .mark '}']
  | object {members : List Lexeme} (inside : Derives .members members) :
      Derives .value (.mark '{' :: (members ++ [.mark '}']))
  | lastItem {item : List Lexeme} (value : Derives .value item) : Derives .items item
  | item {item items : List Lexeme} (value : Derives .value item) (onward : Derives .items items) :
      Derives .items (item ++ .mark ',' :: items)
  | lastMember {content : List Char} {value : List Lexeme} (given : Derives .value value) :
      Derives .members (.name content :: .mark ':' :: value)
  | member {content : List Char} {value members : List Lexeme} (given : Derives .value value)
      (onward : Derives .members members) :
      Derives .members (.name content :: .mark ':' :: (value ++ .mark ',' :: members))

structure Spaced where
  space : List Char
  lexeme : Lexeme

def written (parts : List Spaced) : List Char :=
  parts.flatMap fun part => part.space ++ part.lexeme.text

def Blank (text : List Char) : Prop :=
  ∀ c ∈ text, isSpace c = true

instance (text : List Char) : Decidable (Blank text) :=
  List.decidableBAll (fun c => isSpace c = true) text

theorem blank_of_isSpace {c : Char} (space : isSpace c = true) : CharSet.blank c = true := by
  simp only [isSpace, Bool.or_eq_true, decide_eq_true_eq, or_assoc] at space
  rcases space with rfl | rfl | rfl | rfl <;> decide

theorem blank_nil : Blank [] := fun _ member => absurd member List.not_mem_nil

structure Document where
  parts : List Spaced
  trailing : List Char
  derives : Derives .value (parts.map Spaced.lexeme)
  blank : ∀ part ∈ parts, Blank part.space
  blank_trailing : Blank trailing

def Document.text (document : Document) : List Char :=
  written document.parts ++ document.trailing

/-! ## Spelling -/

/-- What may stand between the quotes of a string literal. -/
inductive Content : List Char → Prop
  | nil : Content []
  | plain {c : Char} {content : List Char} (other : c ≠ '"' ∧ c ≠ '\\') (visible : ' ' ≤ c)
      (onward : Content content) : Content (c :: content)
  | escape {c : Char} {content : List Char} (known : c ∈ ['"', '\\', '/', 'b', 'f', 'n', 'r', 't'])
      (onward : Content content) : Content ('\\' :: c :: content)
  | unit {digits content : List Char} (four : digits.length = 4)
      (hexadecimal : ∀ digit ∈ digits, CharSet.hexDigit digit = true) (onward : Content content) :
      Content ('\\' :: 'u' :: (digits ++ content))

def Digits (digits : List Char) : Prop :=
  digits ≠ [] ∧ ∀ digit ∈ digits, isDecimal digit = true

instance (digits : List Char) : Decidable (Digits digits) :=
  have : Decidable (∀ digit ∈ digits, isDecimal digit = true) := List.decidableBAll _ digits
  inferInstanceAs (Decidable (digits ≠ [] ∧ ∀ digit ∈ digits, isDecimal digit = true))

def Whole (digits : List Char) : Prop :=
  digits = ['0'] ∨ Digits digits ∧ digits.head? ≠ some '0'

theorem Whole.digits {whole : List Char} (spelled : Whole whole) : Digits whole := by
  rcases spelled with rfl | ⟨digits, -⟩
  · decide
  · exact digits

/-- Nothing, or a point with digits behind it. -/
def Fraction (text : List Char) : Prop :=
  text = [] ∨ ∃ digits, text = '.' :: digits ∧ Digits digits

/-- Nothing, or a letter with digits behind it, perhaps signed. -/
def Exponent (text : List Char) : Prop :=
  text = [] ∨ ∃ letter sign digits, text = letter :: (sign ++ digits) ∧ letter ∈ ['e', 'E'] ∧
    sign ∈ [[], ['+'], ['-']] ∧ Digits digits

structure Numeral where
  negative : Bool
  whole : List Char
  fraction : List Char
  exponent : List Char

namespace Numeral

def text (numeral : Numeral) : List Char :=
  (if numeral.negative then ['-'] else []) ++ (numeral.whole ++ (numeral.fraction ++ numeral.exponent))

structure Formed (numeral : Numeral) : Prop where
  whole : Whole numeral.whole
  fraction : Fraction numeral.fraction
  exponent : Exponent numeral.exponent

/-- It is formed as a number; and without fraction and exponent it is an integer, whose digits are limited. -/
structure Spelled (numeral : Numeral) : Prop extends numeral.Formed where
  short : numeral.fraction = [] → numeral.exponent = [] → numeral.whole.length ≤ integerDigitLimit

end Numeral

/-- The lexeme is spelled as the reader accepts it. -/
def Lexeme.Spelled : Lexeme → Prop
  | mark _ => True
  | name content => Content content
  | string content => Content content
  | number text => ∃ numeral : Numeral, text = numeral.text ∧ numeral.Spelled
  | word text =>
    text ∈ ["null".toList, "true".toList, "false".toList, "NaN".toList, "Infinity".toList,
      "-Infinity".toList]

def Document.Spelled (document : Document) : Prop :=
  ∀ part ∈ document.parts, part.lexeme.Spelled

/-! ## What may follow on a lexeme -/

/-- The lexemes start with a comma or a closing mark, if there are any. -/
def Ends (lexemes : List Lexeme) : Prop :=
  lexemes = [] ∨ ∃ c rest, lexemes = .mark c :: rest ∧ c ∈ [',', ']', '}']

/-- A colon follows on a name, and a comma, a closing mark or nothing on any other lexeme that is no mark
itself. -/
def Ordered : List Lexeme → Prop
  | [] => True
  | .mark _ :: rest => Ordered rest
  | .name _ :: rest => (∃ further, rest = .mark ':' :: further) ∧ Ordered rest
  | .string _ :: rest => Ends rest ∧ Ordered rest
  | .number _ :: rest => Ends rest ∧ Ordered rest
  | .word _ :: rest => Ends rest ∧ Ordered rest

theorem ends_mark {c : Char} (known : c ∈ [',', ']', '}']) (rest : List Lexeme) :
    Ends (.mark c :: rest) :=
  .inr ⟨c, rest, rfl, known⟩

theorem Derives.ordered_append {role : Role} {lexemes rest : List Lexeme}
    (derives : Derives role lexemes) (ends : Ends rest) (ordered : Ordered rest) :
    Ordered (lexemes ++ rest) := by
  induction derives generalizing rest with
  | number text => exact ⟨ends, ordered⟩
  | word text => exact ⟨ends, ordered⟩
  | string content => exact ⟨ends, ordered⟩
  | emptyArray => exact ordered
  | emptyObject => exact ordered
  | array _ ih =>
    have closed := ih (ends_mark (c := ']') (by decide) rest) ordered
    rwa [List.cons_append, List.append_assoc]
  | object _ ih =>
    have closed := ih (ends_mark (c := '}') (by decide) rest) ordered
    rwa [List.cons_append, List.append_assoc]
  | lastItem _ ih => exact ih ends ordered
  | item _ _ first ih =>
    rw [List.append_assoc]
    exact first (ends_mark (c := ',') (by decide) _) (ih ends ordered)
  | lastMember _ ih => exact ⟨⟨_, rfl⟩, ih ends ordered⟩
  | @member content value members _ _ first ih =>
    have further := first (ends_mark (c := ',') (by decide) _) (ih ends ordered)
    have split : (.name content :: .mark ':' :: (value ++ .mark ',' :: members)) ++ rest =
        .name content :: .mark ':' :: (value ++ .mark ',' :: (members ++ rest)) := by simp
    rw [split]
    exact ⟨⟨_, rfl⟩, further⟩

theorem Document.ordered (document : Document) : Ordered (document.parts.map Spaced.lexeme) := by
  have last : Ends [] := .inl rfl
  have whole := document.derives.ordered_append last trivial
  rwa [List.append_nil] at whole

end CodeColor.Json
