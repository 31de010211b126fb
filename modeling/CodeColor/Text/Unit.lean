/-! Characters as code units of sixteen bits. -/

namespace CodeColor.Text

def isHighHalf (unit : Nat) : Bool := 0xD800 ≤ unit && unit ≤ 0xDBFF

def isLowHalf (unit : Nat) : Bool := 0xDC00 ≤ unit && unit ≤ 0xDFFF

def ofHalves (high low : Nat) : Char :=
  Char.ofNat (0x10000 + (high - 0xD800) * 0x400 + (low - 0xDC00))

/-- What half of a surrogate pair reads as where the other half is missing. -/
def replacement : Char := '\ufffd'

/-- The character of a code point; half of a pair is none. -/
def ofPoint (point : Nat) : Char :=
  if isHighHalf point || isLowHalf point then replacement else Char.ofNat point

def ofUnits : List Nat → List Char
  | [] => []
  | [unit] => [ofPoint unit]
  | high :: low :: units =>
    if isHighHalf high && isLowHalf low then ofHalves high low :: ofUnits units
    else ofPoint high :: ofUnits (low :: units)

end CodeColor.Text
