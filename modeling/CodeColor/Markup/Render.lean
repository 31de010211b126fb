import CodeColor.Markup.Escape
import CodeColor.Token.Basic

/-!
Tokens as markup. Each token but plain text is wrapped in an element that names its type and carries the
type's colour.
-/

namespace CodeColor.Markup

/-- What rendering needs of a token; either part may be missing. -/
structure Fragment where
  type? : Option TokenType
  value? : Option String
  deriving DecidableEq, Repr

inductive RenderError where
  | missingValue
  | missingType
  | uncolored (type : TokenType)
  deriving DecidableEq, Repr

def RenderError.key : RenderError → String
  | missingValue => "value"
  | missingType => "type"
  | uncolored type => type.name

def opening (type : TokenType) (color : String) : String :=
  "<span class=\"" ++ type.name ++ "\" style=\"color:" ++ color ++ "\">"

def closing : String := "</span>"

def wrap (type : TokenType) (markup : String) : Except RenderError String :=
  match type.color? with
  | some color => .ok (opening type color ++ markup ++ closing)
  | none => .error (.uncolored type)

def written (escaped : Bool) (text : String) : String :=
  if escaped then escape text else text

/-- The markup of one fragment. The value is missed before the type, and plain text has no wrapper. -/
def Fragment.markup (escaped : Bool) (fragment : Fragment) : Except RenderError String :=
  match fragment.value?, fragment.type? with
  | none, _ => .error .missingValue
  | some _, none => .error .missingType
  | some value, some type =>
    if type = .text then .ok (written escaped value) else wrap type (written escaped value)

def renderFragments (escaped : Bool) (fragments : List Fragment) : Except RenderError String :=
  (fragments.mapM (Fragment.markup escaped)).map String.join

def Fragment.ofToken (token : Token) : Fragment :=
  ⟨some token.type, some token.value⟩

def render (escaped : Bool) (tokens : List Token) : Except RenderError String :=
  renderFragments escaped (tokens.map Fragment.ofToken)

end CodeColor.Markup
