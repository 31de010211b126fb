import CodeColor.Text.Utf8

/-!
Text as bytes. JSON text starts with two characters of ASCII, or with one that stands alone, so the zero
bytes at its start tell how wide its units are and which byte of a unit comes first.
-/

namespace CodeColor.Text

inductive Encoding where
  | utf8
  | utf16 (bigEndian : Bool)
  | utf32 (bigEndian : Bool)
  deriving DecidableEq, Repr

/-- The number that bytes make up, whichever of them comes first. -/
def join (bigEndian : Bool) (bytes : List Nat) : Nat :=
  (if bigEndian then bytes else bytes.reverse).foldl (fun value byte => value * 256 + byte) 0

def pairs? (bigEndian : Bool) : List Nat → Option (List Nat)
  | [] => some []
  | a :: b :: bytes => (pairs? bigEndian bytes).map (join bigEndian [a, b] :: ·)
  | _ => none

/-- The code points of four bytes; each must be one, and no bytes may be left over. -/
def points? (bigEndian : Bool) : List Nat → Option (List Nat)
  | [] => some []
  | a :: b :: c :: d :: bytes =>
    let point := join bigEndian [a, b, c, d]
    if point ≤ 0x10FFFF then (points? bigEndian bytes).map (point :: ·) else none
  | _ => none

namespace Encoding

def ofBytes : List Nat → Encoding
  | 0 :: b :: _ :: _ :: _ => if b = 0 then utf32 true else utf16 true
  | _ :: 0 :: c :: d :: _ => if c = 0 ∧ d = 0 then utf32 false else utf16 false
  | [0, _] => utf16 true
  | [_, 0] => utf16 false
  | _ => utf8

end Encoding

/-- The JSON text that the bytes of `text` stand for, if they stand for any. -/
def reread (text : List Char) : Option (List Char) :=
  let bytes := utf8 text
  match Encoding.ofBytes bytes with
  | .utf8 => some text
  | .utf16 bigEndian => (pairs? bigEndian bytes).map ofUnits
  | .utf32 bigEndian => (points? bigEndian bytes).map (List.map ofPoint)

end CodeColor.Text
