import CodeColor.Json.Value

/-! Requests to the service, and its responses. -/

namespace CodeColor.Service

structure Body where
  contentType : String
  text : String

/-- A request, with the most characters of code that are accepted for it. -/
structure Request where
  method : String
  path : String
  body? : Option Body
  limit : Int

inductive Content where
  | json (value : Json)
  | page (text : String)

structure Response where
  status : Nat
  content : Content

def standardLimit : Int := 100000

def errorResponse (status : Nat) (message : String) (more : List (String × Json)) : Response :=
  ⟨status, .json (.object (("error", .string message) :: more))⟩

end CodeColor.Service
