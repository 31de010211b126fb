import CodeColor.Json.Value
import CodeColor.Text.Encoding
import CodeColor.Text.Hex
import CodeColor.Text.Unit

/-!
Reading JSON text.

Beyond the standard, `NaN`, `Infinity` and `-Infinity` are numbers, and an escape may give half of a
surrogate pair alone. An integer literal of more than 4300 digits is refused. A byte order mark is no white space.

A string with half a pair alone is no text of characters. The reader puts the replacement character for it, so that
the length and the content of such a string are not those that were sent: code with such halves lies outside the
domain of what is said about the service.

How deeply arrays and objects may lie within each other depends on how many calls there is room for. It is a
parameter of the reader.
-/

namespace CodeColor.Json

def isSpace (c : Char) : Bool :=
  c = ' ' || c = '\t' || c = '\n' || c = '\r'

def skipSpace (text : List Char) : List Char :=
  text.dropWhile isSpace

/-! ## Strings -/

/-- The character that a one-letter escape stands for. -/
def escapeValue? (c : Char) : Option Char :=
  if c = '"' ∨ c = '\\' ∨ c = '/' then some c
  else if c = 'b' then some '\x08'
  else if c = 'f' then some '\x0c'
  else if c = 'n' then some '\n'
  else if c = 'r' then some '\r'
  else if c = 't' then some '\t'
  else none

/-- String contents read so far, last character first, and perhaps the first half of a pair whose second
half may follow. -/
structure Contents where
  done : List Char
  half? : Option Nat

namespace Contents

def settled (contents : Contents) : List Char :=
  match contents.half? with
  | none => contents.done
  | some _ => Text.replacement :: contents.done

def push (contents : Contents) (c : Char) : Contents :=
  ⟨c :: contents.settled, none⟩

def pushUnit (contents : Contents) (unit : Nat) : Contents :=
  if Text.isHighHalf unit then ⟨contents.settled, some unit⟩
  else if Text.isLowHalf unit then
    match contents.half? with
    | some half => ⟨Text.ofHalves half unit :: contents.done, none⟩
    | none => contents.push Text.replacement
  else contents.push (Char.ofNat unit)

end Contents

inductive StringState where
  | plain
  | escape
  /-- In an escape by number, of which some digits, with the given value, are read. -/
  | unit (digits value : Nat)

def readString (contents : Contents) (state : StringState) : List Char → Option (String × List Char)
  | [] => none
  | c :: text =>
    match state with
    | .plain =>
      if c = '"' then some (String.ofList contents.settled.reverse, text)
      else if c = '\\' then readString contents .escape text
      else if c < ' ' then none
      else readString (contents.push c) .plain text
    | .escape =>
      if c = 'u' then readString contents (.unit 0 0) text
      else
        match escapeValue? c with
        | some value => readString (contents.push value) .plain text
        | none => none
    | .unit digits value =>
      match Text.hexValue? c with
      | none => none
      | some digit =>
        let unit := value * 16 + digit
        if digits = 3 then readString (contents.pushUnit unit) .plain text
        else readString contents (.unit (digits + 1) unit) text

/-! ## Numbers -/

def isDecimal (c : Char) : Bool := '0' ≤ c && c ≤ '9'

def takeDigits (text : List Char) : List Char × List Char :=
  (text.takeWhile isDecimal, text.dropWhile isDecimal)

def digitsValue (digits : List Char) : Nat :=
  digits.foldl (fun value digit => value * 10 + (digit.toNat - '0'.toNat)) 0

def readWhole : List Char → Option (List Char × List Char)
  | '0' :: text => some (['0'], text)
  | text =>
    match takeDigits text with
    | ([], _) => none
    | found => some found

/-- The digits behind a point; without a digit there is no fraction. -/
def readFraction : List Char → List Char × List Char
  | '.' :: text =>
    match takeDigits text with
    | ([], _) => ([], '.' :: text)
    | found => found
  | text => ([], text)

def readSigned (negative : Bool) (text : List Char) : Option (Int × List Char) :=
  match takeDigits text with
  | ([], _) => none
  | (digits, rest) => some (if negative then -(digitsValue digits : Int) else digitsValue digits, rest)

def readExponent : List Char → Option (Int × List Char)
  | '+' :: text => readSigned false text
  | '-' :: text => readSigned true text
  | text => readSigned false text

def readScale (text : List Char) : Option (Int × List Char) :=
  match text with
  | c :: rest => if c = 'e' ∨ c = 'E' then readExponent rest else none
  | [] => none

def integerDigitLimit : Nat := 4300

def readMagnitude (negative : Bool) (text : List Char) : Option (JsonNumber × List Char) :=
  match readWhole text with
  | none => none
  | some (whole, text) =>
    let (fraction, text) := readFraction text
    let mantissa : Int := digitsValue (whole ++ fraction)
    let signed := if negative then -mantissa else mantissa
    match readScale text with
    | some (exponent, text) => some (.decimal signed (exponent - fraction.length), text)
    | none =>
      if fraction.isEmpty then
        if whole.length ≤ integerDigitLimit then some (.integer signed, text) else none
      else some (.decimal signed (-fraction.length), text)

/-! ## Values -/

/-- Why a text gives no value. -/
inductive Failure where
  | malformed
  /-- Arrays and objects lie within each other more deeply than they may. -/
  | tooDeep
  deriving DecidableEq, Repr

def skipWord? : List Char → List Char → Option (List Char)
  | [], text => some text
  | _ :: _, [] => none
  | c :: word, d :: text => if c = d then skipWord? word text else none

/-- A number or one of the named values, and the text behind it. -/
def readScalar (text : List Char) : Option (Json × List Char) :=
  match text with
  | 'n' :: rest => (skipWord? "ull".toList rest).map fun rest => (null, rest)
  | 't' :: rest => (skipWord? "rue".toList rest).map fun rest => (bool true, rest)
  | 'f' :: rest => (skipWord? "alse".toList rest).map fun rest => (bool false, rest)
  | 'N' :: rest => (skipWord? "aN".toList rest).map fun rest => (number .notANumber, rest)
  | 'I' :: rest => (skipWord? "nfinity".toList rest).map fun rest => (number (.infinity false), rest)
  | '-' :: 'I' :: rest =>
    (skipWord? "nfinity".toList rest).map fun rest => (number (.infinity true), rest)
  | '-' :: rest => (readMagnitude true rest).map fun (value, rest) => (number value, rest)
  | _ => (readMagnitude false text).map fun (value, rest) => (number value, rest)

def formed {α : Type} : Option α → Except Failure α
  | some found => .ok found
  | none => .error .malformed

mutual

/-- A value and the text behind it. The text has no white space at its start. -/
def readValue (fuel nesting : Nat) (text : List Char) : Except Failure (Json × List Char) :=
  match fuel with
  | 0 => .error .malformed
  | fuel + 1 =>
    match text with
    | '"' :: rest =>
      formed ((readString ⟨[], none⟩ .plain rest).map fun (value, rest) => (string value, rest))
    | '[' :: rest =>
      match nesting with
      | 0 => .error .tooDeep
      | nesting + 1 =>
        match skipSpace rest with
        | ']' :: rest => .ok (array [], rest)
        | rest => readItems fuel nesting [] rest
    | '{' :: rest =>
      match nesting with
      | 0 => .error .tooDeep
      | nesting + 1 =>
        match skipSpace rest with
        | '}' :: rest => .ok (object [], rest)
        | rest => readMembers fuel nesting [] rest
    | _ => formed (readScalar text)

/-- The items from here to the closing bracket, after those of `done`, which are in reverse order. -/
def readItems (fuel nesting : Nat) (done : List Json) (text : List Char) :
    Except Failure (Json × List Char) :=
  match fuel with
  | 0 => .error .malformed
  | fuel + 1 =>
    match readValue fuel nesting text with
    | .error failure => .error failure
    | .ok (value, rest) =>
      match skipSpace rest with
      | ']' :: rest => .ok (array (value :: done).reverse, rest)
      | ',' :: rest => readItems fuel nesting (value :: done) (skipSpace rest)
      | _ => .error .malformed

def readMembers (fuel nesting : Nat) (done : List (String × Json)) (text : List Char) :
    Except Failure (Json × List Char) :=
  match fuel with
  | 0 => .error .malformed
  | fuel + 1 =>
    match text with
    | '"' :: rest =>
      match readString ⟨[], none⟩ .plain rest with
      | none => .error .malformed
      | some (name, rest) =>
        match skipSpace rest with
        | ':' :: rest =>
          match readValue fuel nesting (skipSpace rest) with
          | .error failure => .error failure
          | .ok (value, rest) =>
            match skipSpace rest with
            | '}' :: rest => .ok (object ((name, value) :: done).reverse, rest)
            | ',' :: rest => readMembers fuel nesting ((name, value) :: done) (skipSpace rest)
            | _ => .error .malformed
        | _ => .error .malformed
    | _ => .error .malformed

end

/-- The value that the text gives, with white space around it and nothing else. Each bracket and each
separator costs one unit of fuel and takes a character, so two for a character are enough. -/
def read (nesting : Nat) (text : List Char) : Except Failure Json :=
  match readValue (2 * text.length + 2) nesting (skipSpace text) with
  | .ok (value, rest) => if (skipSpace rest).isEmpty then .ok value else .error .malformed
  | .error failure => .error failure

/-- The value that the bytes of the text give: those behind a byte order mark, or else the characters that they
stand for. -/
def readSent (nesting : Nat) (text : List Char) : Except Failure Json :=
  match text with
  | '\ufeff' :: text => read nesting text
  | text =>
    match Text.reread text with
    | some text => read nesting text
    | none => .error .malformed

/-- How deep values may be nested where a thousand calls may be open, with some left for those around the reader. -/
def standardNesting : Nat := 900

end CodeColor.Json
