import CodeColor.Grammar.Extension
import CodeColor.Highlight

/-! Sessions with one current grammar, which extensions replace. -/

namespace CodeColor.Session

inductive Step where
  | extend (extension : Extension)
  | claim (code : String)
  | tokenize (code : String)
  | highlight (code : String) (escaped : Bool)

inductive Answer where
  | outline (rules : List (String × TokenType))
  | unknownRules (unknown : UnknownRules)
  | spans (spans : List Span)
  | tokens (tokens : List Token)
  | markup (markup : String)
  | unrendered (error : Markup.RenderError)
  deriving DecidableEq, Repr

/-- The answer to one step, and the grammar after it. A failed extension leaves the grammar as it
was. -/
def perform (grammar : Grammar) : Step → Answer × Grammar
  | .extend extension =>
    match grammar.extend extension with
    | .ok extended => (.outline extended.outline, extended)
    | .error unknown => (.unknownRules unknown, grammar)
  | .claim code => (.spans (Piece.spans (grammar.claim code.toList)), grammar)
  | .tokenize code => (.tokens (grammar.tokenize code), grammar)
  | .highlight code escaped =>
    match grammar.highlight escaped code with
    | .ok markup => (.markup markup, grammar)
    | .error error => (.unrendered error, grammar)

def answers (grammar : Grammar) : List Step → List Answer
  | [] => []
  | step :: steps =>
    let (answer, next) := perform grammar step
    answer :: answers next steps

/-- The answers of a session that starts with the grammar, the first of which lists its rules. -/
def run (grammar : Grammar) (steps : List Step) : List Answer :=
  .outline grammar.outline :: answers grammar steps

end CodeColor.Session
