import CodeColor.Json.Value
import CodeColor.Text.Hex

/-! Writing JSON text, in ASCII and without white space. -/

namespace CodeColor.Json

def writeUnit (unit : Nat) : List Char :=
  let digit := fun place => Text.hexDigit 'a' (unit / place % 16)
  ['\\', 'u', digit 4096, digit 256, digit 16, digit 1]

def writeChar (c : Char) : List Char :=
  if c = '"' then ['\\', '"']
  else if c = '\\' then ['\\', '\\']
  else if c = '\n' then ['\\', 'n']
  else if c = '\r' then ['\\', 'r']
  else if c = '\t' then ['\\', 't']
  else if c = '\x08' then ['\\', 'b']
  else if c = '\x0c' then ['\\', 'f']
  else if ' ' ≤ c ∧ c ≤ '~' then [c]
  else if c.toNat < 0x10000 then writeUnit c.toNat
  else
    let offset := c.toNat - 0x10000
    writeUnit (0xD800 + offset / 0x400) ++ writeUnit (0xDC00 + offset % 0x400)

def writeString (text : String) : String :=
  "\"" ++ String.ofList (text.toList.flatMap writeChar) ++ "\""

def writeNumber : JsonNumber → String
  | .integer value => toString value
  | .decimal mantissa exponent => toString mantissa ++ "e" ++ toString exponent
  | .infinity negative => if negative then "-Infinity" else "Infinity"
  | .notANumber => "NaN"

mutual

/-- The value's text behind `written`. -/
def writeOnto (written : String) : Json → String
  | null => written ++ "null"
  | bool true => written ++ "true"
  | bool false => written ++ "false"
  | number value => written ++ writeNumber value
  | string value => written ++ writeString value
  | array [] => written ++ "[]"
  | array (item :: items) => writeItems (writeOnto (written ++ "[") item) items ++ "]"
  | object [] => written ++ "\x7b\x7d"
  | object ((name, value) :: members) =>
    writeMembers (writeOnto (written ++ "\x7b" ++ writeString name ++ ":") value) members ++ "\x7d"

def writeItems (written : String) : List Json → String
  | [] => written
  | item :: items => writeItems (writeOnto (written ++ ",") item) items

def writeMembers (written : String) : List (String × Json) → String
  | [] => written
  | (name, value) :: members =>
    writeMembers (writeOnto (written ++ "," ++ writeString name ++ ":") value) members

end

def write (value : Json) : String :=
  writeOnto "" value

end CodeColor.Json
