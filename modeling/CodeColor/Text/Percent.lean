import CodeColor.Text.Hex
import CodeColor.Text.Utf8

/-! Bytes written with a percent sign. -/

namespace CodeColor.Text

/-- The bytes of the text, where a percent sign and two digits stand for one byte. -/
def percentBytes : List Char → List Nat
  | [] => []
  | '%' :: a :: b :: text =>
    match hexValue? a, hexValue? b with
    | some high, some low => (high * 16 + low) :: percentBytes text
    | _, _ => '%'.toNat :: percentBytes (a :: b :: text)
  | c :: text => utf8 [c] ++ percentBytes text

def percentDecode (text : List Char) : List Char :=
  ofUtf8 (percentBytes text)

def percentByte (byte : Nat) : List Char :=
  ['%', hexDigit 'A' (byte / 16), hexDigit 'A' (byte % 16)]

/-- The text with its bytes in place of the characters that `plain` does not let stand. -/
def percentEncode (plain : Char → Bool) (text : List Char) : List Char :=
  text.flatMap fun c => if plain c then [c] else (utf8 [c]).flatMap percentByte

end CodeColor.Text
