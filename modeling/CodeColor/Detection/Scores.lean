import CodeColor.Detection.Evidence
import CodeColor.Json.Reader

/-! How well a text fits each language. -/

namespace CodeColor

structure Scores where
  html : Nat
  css : Nat
  js : Nat
  ts : Nat
  json : Nat
  deriving DecidableEq, Repr

/-- Whether the text is a JSON object or a JSON array. What is malformed is neither, and what is nested too deeply has no
answer. -/
def parsesAsJson (nesting : Nat) (source : String) : Except Json.Failure Bool :=
  match Json.read nesting source.toList with
  | .ok value => .ok value.isContainer
  | .error .malformed => .ok false
  | .error .tooDeep => .error .tooDeep

namespace Scores

def get (scores : Scores) : Language → Nat
  | .html => scores.html
  | .css => scores.css
  | .js => scores.js
  | .ts => scores.ts
  | .json => scores.json

def ofEvidence (text : List Char) : Scores where
  html := Evidence.html.score text
  css := Evidence.css.score text
  js := Evidence.js.score text
  ts := Evidence.ts.score text
  json := Evidence.json.score text

def documentBonus : Nat := 10

def threshold : Nat := 3

/-- The points of a text, from those of its evidence. What speaks for JavaScript speaks for TypeScript too, once
TypeScript is recognised by itself; otherwise TypeScript has no points. -/
def settled (found : Scores) (parses : Bool) : Scores :=
  { found with
    ts := if threshold ≤ found.ts then found.ts + found.js else 0
    json := if parses then found.json + documentBonus else found.json }

def ofSource (nesting : Nat) (source : String) : Except Json.Failure Scores :=
  (parsesAsJson nesting source).map (ofEvidence source.toList).settled

end Scores

end CodeColor
