import CodeColor.Json.Reader
import CodeColor.Service.Message
import CodeColor.Text.Case

/-!
The framework that hosts the service. It tells where a request leads and which value its body gives, and it answers in
place of the service where this fails. All that is a parameter, and `Host.Documented` is what is known of it.
-/

namespace CodeColor.Service

inductive Route where
  | page
  | languages
  | detect
  | highlight
  deriving DecidableEq, Repr

namespace Route

def method : Route → String
  | page => "GET"
  | languages => "GET"
  | detect => "POST"
  | highlight => "POST"

def path : Route → String
  | page => "/"
  | languages => "/api/languages"
  | detect => "/api/detect"
  | highlight => "/api/highlight"

end Route

inductive Handler where
  | route (route : Route)
  | notFound
  | methodNotAllowed
  /-- The framework answers by itself. -/
  | own (response : Response)

structure Destination where
  handler : Handler
  /-- No content is sent, as in answer to a request for the head alone. -/
  headOnly : Bool

structure Host where
  /-- The media type that a content type gives. -/
  mediaType : String → String
  /-- The value of a body. It is asked for without complaint, so that in place of an error in the media type or in the
  text there is no value. -/
  value : Option Body → Except Json.Failure (Option Json)
  destination : (method path : String) → Destination
  failurePage : String
  /-- How deeply code may be nested for detection together with its scores. -/
  nesting : Nat

/-- The media type is that of JSON or of a format built on it. -/
def JsonType (mediaType : String) : Prop :=
  mediaType = "application/json" ∨
    "application/".toList <+: mediaType.toList ∧ "+json".toList <:+ mediaType.toList

instance (mediaType : String) : Decidable (JsonType mediaType) :=
  inferInstanceAs (Decidable (_ ∨ _ ∧ _))

/-- What is malformed gives no value, and this is no failure. What is nested too deeply fails nevertheless. -/
def silently : Except Json.Failure Json → Except Json.Failure (Option Json)
  | .ok value => .ok (some value)
  | .error .malformed => .ok none
  | .error .tooDeep => .error .tooDeep

/-- The type stands by itself: in visible characters of ASCII and without a semicolon. -/
def BareType (type : String) : Prop :=
  ∀ c ∈ type.toList, '!' ≤ c ∧ c ≤ '~' ∧ c ≠ ';'

/-- What the framework's documentation says of it. -/
structure Host.Documented (host : Host) (bodyNesting : Nat) : Prop where
  /-- The media type is the content type in lower case and without its parameters. -/
  media_type (type parameters : String) (bare : BareType type)
    (behind : parameters = "" ∨ parameters.toList.head? = some ';') :
      host.mediaType (type ++ parameters) = String.ofList (type.toList.map Char.toLower)
  body_room : 0 < bodyNesting
  no_body : host.value none = .ok none
  /-- A body is not read unless its media type is JSON. -/
  other_type (body : Body) (other : ¬ JsonType (host.mediaType body.contentType)) : host.value (some body) = .ok none
  /-- A body of JSON is read, without complaint about its text. -/
  json_type (body : Body) (counted : JsonType (host.mediaType body.contentType)) :
    host.value (some body) = silently (Json.readSent bodyNesting body.text.toList)
  /-- A route is found by its method and its path. -/
  routed (route : Route) : host.destination route.method route.path = ⟨.route route, false⟩

namespace Host

/-- What a request submits. No value, and a value that stands for nothing, count as an empty object. -/
def submitted (host : Host) (body? : Option Body) : Except Json.Failure Json :=
  match host.value body? with
  | .error failure => .error failure
  | .ok none => .ok (.object [])
  | .ok (some value) => .ok (if value.isVoid then .object [] else value)

end Host

end CodeColor.Service
