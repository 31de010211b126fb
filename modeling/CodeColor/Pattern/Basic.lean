import CodeColor.Pattern.CharSet

/-!
Patterns over text, matched by ordered choice: of several ways to match, the first that lets the rest
succeed is taken.

A match runs at a cursor. The text before the cursor is real text, so a guard may look back across the
start of the stretch under search; the text after it ends where the stretch ends, so a guard sees
nothing beyond.
-/

namespace CodeColor

/-- A place in a text, with the count of characters matched so far. -/
structure Cursor where
  /-- The text before the place, nearest character first. -/
  before : List Char
  /-- The text after the place, up to the end of the stretch. -/
  after : List Char
  taken : Nat
  deriving DecidableEq

namespace Cursor

def step? (set : CharSet) (cursor : Cursor) : Option Cursor :=
  match cursor.after with
  | [] => none
  | c :: after => if set c then some ⟨c :: cursor.before, after, cursor.taken + 1⟩ else none

def past? : List Char → Cursor → Option Cursor
  | [], cursor => some cursor
  | c :: text, cursor =>
    match cursor.step? (· == c) with
    | some next => past? text next
    | none => none

/-- The places in a run of `set`, the farthest first, in front of `found`. -/
def runStops (set : CharSet) (found : List Cursor) (before : List Char) (taken : Nat) :
    List Char → List Cursor
  | [] => ⟨before, [], taken⟩ :: found
  | c :: after =>
    if set c then
      runStops set (⟨before, c :: after, taken⟩ :: found) (c :: before) (taken + 1) after
    else ⟨before, c :: after, taken⟩ :: found

/-- The places between the items of a quoted body, the farthest first, in front of `found`. An item is
a character other than the quote and the backslash, or a backslash and a character of the same line. -/
def bodyStops (quote : Char) (found : List Cursor) (before : List Char) (taken : Nat) :
    List Char → List Cursor
  | [] => ⟨before, [], taken⟩ :: found
  | [c] =>
    if c = quote ∨ c = '\\' then ⟨before, [c], taken⟩ :: found
    else ⟨c :: before, [], taken + 1⟩ :: ⟨before, [c], taken⟩ :: found
  | c :: d :: after =>
    if c = '\\' then
      if d = '\n' then ⟨before, c :: d :: after, taken⟩ :: found
      else
        bodyStops quote (⟨before, c :: d :: after, taken⟩ :: found) (d :: c :: before) (taken + 2) after
    else if c = quote then ⟨before, c :: d :: after, taken⟩ :: found
    else
      bodyStops quote (⟨before, c :: d :: after, taken⟩ :: found) (c :: before) (taken + 1) (d :: after)

/-- The first success of `next` at a place in a run of `set`, the nearest place first. -/
def firstInRun? (set : CharSet) (next : Cursor → Option Cursor) (before : List Char) (taken : Nat) :
    List Char → Option Cursor
  | [] => next ⟨before, [], taken⟩
  | c :: after =>
    match next ⟨before, c :: after, taken⟩ with
    | some stop => some stop
    | none => if set c then firstInRun? set next (c :: before) (taken + 1) after else none

end Cursor

/-- A condition on a place, which takes no text. -/
inductive Guard where
  /-- A word character on exactly one side. -/
  | wordBoundary
  | lineStart
  | lineEnd
  | stretchEnd
  | after (set : CharSet)
  | notAfter (set : CharSet)
  | notBefore (set : CharSet)

def startsIn (set : CharSet) : List Char → Bool
  | [] => false
  | c :: _ => set c

def Guard.holds : Guard → Cursor → Bool
  | wordBoundary, cursor =>
    startsIn CharSet.word cursor.before != startsIn CharSet.word cursor.after
  | lineStart, cursor => cursor.before.isEmpty || startsIn (· == '\n') cursor.before
  | lineEnd, cursor => cursor.after.isEmpty || startsIn (· == '\n') cursor.after
  | stretchEnd, cursor => cursor.after.isEmpty
  | after set, cursor => startsIn set cursor.before
  | notAfter set, cursor => !startsIn set cursor.before
  | notBefore set, cursor => !startsIn set cursor.after

inductive Pattern where
  | literal (text : List Char)
  | one (set : CharSet)
  /-- Any number of characters of the set, as many as the rest allows. -/
  | many (set : CharSet)
  | few (set : CharSet)
  /-- What may stand between two quotes, as much as the rest allows. -/
  | quotedBody (quote : Char)
  /-- No text, where the guard holds. -/
  | guard (condition : Guard)
  /-- No text, where the pattern matches. -/
  | ahead (pattern : Pattern)
  | seq (first second : Pattern)
  | alt (first second : Pattern)

namespace Pattern

instance : Append Pattern := ⟨seq⟩
instance : OrOp Pattern := ⟨alt⟩

def exactly (text : String) : Pattern := literal text.toList

def nothing : Pattern := literal []

def oneOrMore (set : CharSet) : Pattern := one set ++ many set

def optional (pattern : Pattern) : Pattern := pattern ||| nothing

/-- The first of the patterns that lets the rest succeed; with none to choose from, no text. -/
def choice : List Pattern → Pattern
  | [] => nothing
  | [pattern] => pattern
  | pattern :: patterns => pattern ||| choice patterns

def anyWord (words : List String) : Pattern := choice (words.map exactly)

def boundary : Pattern := guard .wordBoundary

/-- One of the words, which are taken as they stand, as words of word characters are. -/
def wholeWord (words : List String) : Pattern := boundary ++ anyWord words ++ boundary

/-- The first way to match at the cursor from which `next` succeeds, as the cursor `next` gives. -/
def run : Pattern → (next : Cursor → Option Cursor) → Cursor → Option Cursor
  | literal text, next, cursor =>
    match cursor.past? text with
    | some stop => next stop
    | none => none
  | one set, next, cursor =>
    match cursor.step? set with
    | some stop => next stop
    | none => none
  | many set, next, cursor =>
    (Cursor.runStops set [] cursor.before cursor.taken cursor.after).findSome? next
  | few set, next, cursor =>
    Cursor.firstInRun? set next cursor.before cursor.taken cursor.after
  | quotedBody quote, next, cursor =>
    (Cursor.bodyStops quote [] cursor.before cursor.taken cursor.after).findSome? next
  | guard condition, next, cursor => if condition.holds cursor then next cursor else none
  | ahead pattern, next, cursor => if (pattern.run some cursor).isSome then next cursor else none
  | seq first second, next, cursor => first.run (fun stop => second.run next stop) cursor
  | alt first second, next, cursor =>
    match first.run next cursor with
    | some stop => some stop
    | none => second.run next cursor

end Pattern

end CodeColor
