import CodeColor.Language.Basic
import CodeColor.Markup.Render
import CodeColor.Tokenize

/-! Source code as coloured markup. -/

namespace CodeColor

def Grammar.highlight (grammar : Grammar) (escaped : Bool) (code : String) :
    Except Markup.RenderError String :=
  Markup.render escaped (grammar.tokenize code)

/-- The tokens of the code in the language of that name. In any other language, or in none, the code is
plain text. -/
def tokenize (language? : Option String) (code : String) : List Token :=
  ((Grammar.named? language?).getD []).tokenize code

def highlight (language? : Option String) (escaped : Bool) (code : String) :
    Except Markup.RenderError String :=
  match Grammar.named? language? with
  | some grammar => grammar.highlight escaped code
  | none => .ok (Markup.written escaped code)

end CodeColor
