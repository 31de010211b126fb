import CodeColor.Detection.Scores

/-! Which language a source is written in, and how sure that is. -/

namespace CodeColor

inductive Confidence where
  | none
  | low
  | medium
  | high
  deriving DecidableEq, Repr

def Confidence.name : Confidence → String
  | none => "none"
  | low => "low"
  | medium => "medium"
  | high => "high"

structure Verdict where
  language? : Option Language
  confidence : Confidence
  deriving DecidableEq, Repr

namespace Verdict

def unknown : Verdict := ⟨.none, .none⟩

def unknownName : String := "unknown"

def languageName (verdict : Verdict) : String :=
  match verdict.language? with
  | some language => language.name
  | none => unknownName

end Verdict

namespace Scores

def better (scores : Scores) (first second : Language) : Language :=
  if scores.get first < scores.get second then second else first

/-- The language with the most points, the first in the list where several have them. -/
def best (scores : Scores) : Language :=
  [.css, .js, .ts, .json].foldl scores.better .html

def runnerUp (scores : Scores) (language : Language) : Nat :=
  ((Language.all.filter (· ≠ language)).map scores.get).foldl max 0

/-- How sure it is that the language with these points is the right one, where the next has the other
points. -/
def confidence (points next : Nat) : Confidence :=
  if 9 ≤ points ∧ next + 3 ≤ points then .high
  else if 5 ≤ points ∨ next + 2 ≤ points then .medium
  else .low

/-- The language with the most points, if they reach the threshold. -/
def verdict (scores : Scores) : Verdict :=
  let best := scores.best
  let points := scores.get best
  if points < threshold then .unknown
  else ⟨best, confidence points (scores.runnerUp best)⟩

end Scores

def isBlankText (source : String) : Bool :=
  source.toList.all Text.isBlank

/-- Blank source is in no language, and is not read. -/
def detect (nesting : Nat) (source : String) : Except Json.Failure Verdict :=
  if isBlankText source then .ok .unknown else (Scores.ofSource nesting source).map Scores.verdict

structure Explanation where
  verdict : Verdict
  scores : Scores
  deriving DecidableEq, Repr

/-- The verdict on the source, with its scores. The verdict is asked for one call further away than the scores, which
leaves room for one level more to these. -/
def explain (nesting : Nat) (source : String) : Except Json.Failure Explanation :=
  match detect nesting source with
  | .error failure => .error failure
  | .ok verdict => (Scores.ofSource (nesting + 1) source).map fun scores => ⟨verdict, scores⟩

end CodeColor
