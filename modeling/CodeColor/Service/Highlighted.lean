import CodeColor.Highlight
import CodeColor.Service.Submission

/-! Highlighted code, with its tokens and their number. -/

namespace CodeColor.Service

structure Highlighted where
  language : String
  confidence : String
  markup : String
  tokens : List Token
  deriving DecidableEq, Repr

/-- The counts with one more of the type. A type that comes for the first time is put last. -/
def bump (type : TokenType) : List (TokenType × Nat) → List (TokenType × Nat)
  | [] => [(type, 1)]
  | (other, count) :: counts =>
    if other = type then (other, count + 1) :: counts else (other, count) :: bump type counts

def countByType (tokens : List Token) : List (TokenType × Nat) :=
  tokens.foldl (fun counts token => if token.type = .text then counts else bump token.type counts) []

def total (counts : List (TokenType × Nat)) : Nat :=
  counts.foldl (fun sum entry => sum + entry.2) 0

/-- Why a request has no answer of the kind that it asks for. -/
inductive Fault where
  | refused (refusal : Refusal)
  /-- Its body or its code is not read to the end. -/
  | unread (failure : Json.Failure)
  | unrendered (error : Markup.RenderError)
  deriving DecidableEq, Repr

def specified : String := "user-specified"

def highlightAs (language confidence : String) (escaped : Bool) (code : String) :
    Except Fault Highlighted :=
  let tokens := tokenize (some language) code
  match Markup.render escaped tokens with
  | .ok markup => .ok ⟨language, confidence, markup, tokens⟩
  | .error error => .error (.unrendered error)

/-- The scores for code whose language cannot be told. -/
def refuseUnknown (nesting : Nat) (code : String) : Fault :=
  match explain nesting code with
  | .ok explanation => .refused (.languageUnknown explanation.scores)
  | .error failure => .unread failure

/-- The code in the language that the options name, or in the one that is detected. Detection by itself has room for one
level more than together with the scores. -/
def highlightWith (nesting : Nat) (options : Options) (code : String) : Except Fault Highlighted :=
  if options.language = "" then
    match detect (nesting + 1) code with
    | .error failure => .error (.unread failure)
    | .ok verdict =>
      match verdict.language? with
      | none => .error (refuseUnknown nesting code)
      | some language => highlightAs language.name verdict.confidence.name options.escaped code
  else highlightAs options.language specified options.escaped code

def highlightSubmission (limit : Int) (nesting : Nat) (submission : Json) : Except Fault Highlighted :=
  match readCode limit submission with
  | .error refusal => .error (.refused refusal)
  | .ok code =>
    match readOptions submission with
    | .error refusal => .error (.refused refusal)
    | .ok options => highlightWith nesting options code

def detectSubmission (limit : Int) (nesting : Nat) (submission : Json) : Except Fault Explanation :=
  match readCode limit submission with
  | .error refusal => .error (.refused refusal)
  | .ok code =>
    match explain nesting code with
    | .error failure => .error (.unread failure)
    | .ok explanation => .ok explanation

end CodeColor.Service
