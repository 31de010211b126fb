import CodeColor.Detection.Verdict
import CodeColor.Text.Case

/-! What the service reads from a submitted value, and why it may refuse it. -/

namespace CodeColor.Service

inductive Refusal where
  | bodyNotObject
  | codeNotText
  | codeBlank
  | codeTooLong (limit : Int)
  | languageNotText
  | escapeNotFlag
  | languageUnknown (scores : Scores)
  deriving DecidableEq, Repr

namespace Refusal

def status : Refusal → Nat
  | bodyNotObject => 400
  | codeNotText => 400
  | codeBlank => 400
  | codeTooLong _ => 413
  | languageNotText => 400
  | escapeNotFlag => 400
  | languageUnknown _ => 422

def message : Refusal → String
  | bodyNotObject => "Request body must be a JSON object"
  | codeNotText => "Field \x27code\x27 must be a string"
  | codeBlank => "No source code provided"
  | codeTooLong limit => "Source code exceeds " ++ toString limit ++ " characters"
  | languageNotText => "Field \x27language\x27 must be a string"
  | escapeNotFlag => "Field \x27escape\x27 must be a boolean"
  | languageUnknown _ =>
    "Could not auto-detect the language. " ++
      "Please select HTML, CSS, JavaScript, TypeScript or JSON explicitly."

end Refusal

/-- The code of a submission; without one, the code is empty. -/
def readCode (limit : Int) (submission : Json) : Except Refusal String :=
  match submission with
  | .object members =>
    match Json.member? "code" members with
    | none => .error .codeBlank
    | some (.string code) =>
      if isBlankText code then .error .codeBlank
      else if limit < code.length then .error (.codeTooLong limit)
      else .ok code
    | some _ => .error .codeNotText
  | _ => .error .bodyNotObject

def aliases : List (String × Language) :=
  [("htm", .html), ("javascript", .js), ("typescript", .ts)]

/-- The name of a language as it is compared: in lower case, without white space around it, and the
short name in place of another one. -/
def languageKey (name : String) : String :=
  let plain := String.ofList (Text.trim (Text.lower name.toList))
  match aliases.lookup plain with
  | some language => language.name
  | none => plain

structure Options where
  /-- The key of the language; empty if the language is to be detected. -/
  language : String
  escaped : Bool
  deriving DecidableEq, Repr

def readLanguage (submission : Json) : Except Refusal String :=
  match submission.field? "language" with
  | none => .ok ""
  | some .null => .ok ""
  | some (.string name) => .ok (languageKey name)
  | some _ => .error .languageNotText

/-- Whether a submission asks for escapes, as it does unless it says otherwise. -/
def readEscaped (submission : Json) : Except Refusal Bool :=
  match submission.field? "escape" with
  | none => .ok true
  | some (.bool escaped) => .ok escaped
  | some _ => .error .escapeNotFlag

/-- The options of a submission. The language is read first. -/
def readOptions (submission : Json) : Except Refusal Options :=
  match readLanguage submission with
  | .error refusal => .error refusal
  | .ok language =>
    match readEscaped submission with
    | .error refusal => .error refusal
    | .ok escaped => .ok ⟨language, escaped⟩

end CodeColor.Service
