import CodeColor.Text.Unit

/-! Text as bytes of UTF-8, read one byte at a time. -/

namespace CodeColor.Text

def utf8 (text : List Char) : List Nat :=
  text.flatMap fun c => (String.utf8EncodeChar c).map UInt8.toNat

/-- A character of which some bytes are still to come. -/
structure Unfinished where
  value : Nat
  missing : Nat
  /-- The least and the greatest that the next byte may be. -/
  low : Nat
  high : Nat
  deriving DecidableEq, Repr

namespace Unfinished

/-- The character that the byte begins, if it begins one of several bytes. No character has two
spellings, so a second byte may be out of range that would make the first one needless. -/
def ofLead? (byte : Nat) : Option Unfinished :=
  if 0xC2 ≤ byte ∧ byte ≤ 0xDF then some ⟨byte - 0xC0, 1, 0x80, 0xBF⟩
  else if byte = 0xE0 then some ⟨0, 2, 0xA0, 0xBF⟩
  else if byte = 0xED then some ⟨0xD, 2, 0x80, 0x9F⟩
  else if 0xE1 ≤ byte ∧ byte ≤ 0xEF then some ⟨byte - 0xE0, 2, 0x80, 0xBF⟩
  else if byte = 0xF0 then some ⟨0, 3, 0x90, 0xBF⟩
  else if byte = 0xF4 then some ⟨4, 3, 0x80, 0x8F⟩
  else if 0xF1 ≤ byte ∧ byte ≤ 0xF3 then some ⟨byte - 0xF0, 3, 0x80, 0xBF⟩
  else none

def takes (unfinished : Unfinished) (byte : Nat) : Bool :=
  unfinished.low ≤ byte && byte ≤ unfinished.high

end Unfinished

/-- What the first byte of a character completes and leaves unfinished. -/
def startByte (byte : Nat) : List Char × Option Unfinished :=
  if byte < 0x80 then ([Char.ofNat byte], none)
  else
    match Unfinished.ofLead? byte with
    | some unfinished => ([], some unfinished)
    | none => ([replacement], none)

/-- What a byte completes and leaves unfinished. A character that it does not continue is given up, and
the byte is read as the first of another one. -/
def nextByte (unfinished? : Option Unfinished) (byte : Nat) : List Char × Option Unfinished :=
  match unfinished? with
  | none => startByte byte
  | some unfinished =>
    if unfinished.takes byte then
      let value := unfinished.value * 0x40 + (byte - 0x80)
      if unfinished.missing ≤ 1 then ([Char.ofNat value], none)
      else ([], some ⟨value, unfinished.missing - 1, 0x80, 0xBF⟩)
    else
      let (completed, begun) := startByte byte
      (replacement :: completed, begun)

/-- The text of bytes that follow an unfinished character. -/
def ofUtf8From : Option Unfinished → List Nat → List Char
  | none, [] => []
  | some _, [] => [replacement]
  | unfinished?, byte :: bytes =>
    (nextByte unfinished? byte).1 ++ ofUtf8From (nextByte unfinished? byte).2 bytes

/-- The text of the bytes, with one replacement for each character that is given up and for each byte
that cannot stand in any. -/
def ofUtf8 (bytes : List Nat) : List Char := ofUtf8From none bytes

end CodeColor.Text
