/-! JSON values. -/

namespace CodeColor

inductive JsonNumber where
  /-- A literal without fraction and exponent. -/
  | integer (value : Int)
  /-- The mantissa times that power of ten. -/
  | decimal (mantissa : Int) (exponent : Int)
  | infinity (negative : Bool)
  | notANumber
  deriving DecidableEq, Repr

/-- A JSON value. Of members with the same name the last one counts. -/
inductive Json where
  | null
  | bool (value : Bool)
  | number (value : JsonNumber)
  | string (value : String)
  | array (items : List Json)
  | object (members : List (String × Json))

namespace JsonNumber

def digitCount (n : Nat) : Nat :=
  (Nat.toDigits 10 n).length

/-- Whether the number is zero, or so small that a double next to it is zero. Half of the least double
above zero is `2 ^ -1075`, which lies between `10 ^ -324` and `10 ^ -323`. -/
def isZero : JsonNumber → Bool
  | integer value => value = 0
  | decimal mantissa exponent =>
    let size := mantissa.natAbs
    let magnitude := exponent + digitCount size
    size = 0 || magnitude ≤ -324 ||
      magnitude ≤ -323 && size * Nat.pow 2 1075 ≤ Nat.pow 10 (-exponent).toNat
  | infinity _ => false
  | notANumber => false

end JsonNumber

namespace Json

def int (value : Int) : Json := number (.integer value)

def nat (value : Nat) : Json := int value

def isContainer : Json → Bool
  | array _ => true
  | object _ => true
  | _ => false

/-- The values that stand for nothing: null, false, zero, and what has no content. -/
def isVoid : Json → Bool
  | null => true
  | bool value => !value
  | number value => value.isZero
  | string value => value = ""
  | array items => items.isEmpty
  | object members => members.isEmpty

def member? (name : String) : List (String × Json) → Option Json
  | [] => none
  | (key, value) :: members =>
    match member? name members with
    | some later => some later
    | none => if key = name then some value else none

def field? (value : Json) (name : String) : Option Json :=
  match value with
  | object members => member? name members
  | _ => none

def string? : Json → Option String
  | string value => some value
  | _ => none

def bool? : Json → Option Bool
  | bool value => some value
  | _ => none

def int? : Json → Option Int
  | number (.integer value) => some value
  | _ => none

def items? : Json → Option (List Json)
  | array items => some items
  | _ => none

def members? : Json → Option (List (String × Json))
  | object members => some members
  | _ => none

end Json

end CodeColor
