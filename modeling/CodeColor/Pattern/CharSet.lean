import CodeColor.Text.Blank
import CodeColor.Text.Digit
import CodeColor.Text.Word

/-! Sets of characters that patterns are built from. -/

namespace CodeColor

abbrev CharSet := Char → Bool

namespace CharSet

def any : CharSet := fun _ => true

def among (members : List Char) : CharSet := fun c => members.contains c

def except (members : List Char) : CharSet := fun c => !members.contains c

def or (left right : CharSet) : CharSet := fun c => left c || right c

def between (first last : Char) : CharSet := fun c => first ≤ c && c ≤ last

def upper : CharSet := between 'A' 'Z'

def letter : CharSet := upper.or (between 'a' 'z')

def alphanumeric : CharSet := letter.or (between '0' '9')

def hexDigit : CharSet := (between '0' '9').or ((between 'a' 'f').or (between 'A' 'F'))

def blank : CharSet := Text.isBlank

/-- Decimal digits of every script. -/
def digit : CharSet := Text.isDigit

def word : CharSet := Text.isWord

def inLine : CharSet := except ['\n']

end CharSet

end CodeColor
