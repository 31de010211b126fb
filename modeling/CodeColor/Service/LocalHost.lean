import CodeColor.Service.Host
import CodeColor.Service.Notice
import CodeColor.Service.Target
import CodeColor.Text.Blank

/-! The service on the local host, with a folder of files in which there are none. -/

namespace CodeColor.Service.LocalHost

/-! ## Bodies -/

def isOptionalSpace (c : Char) : Bool := c = ' ' || c = '\t'

/-- The media type is what stands before the first semicolon, in lower case and without spaces and tabs at its two ends.
Other white space belongs to it. -/
def mediaType (contentType : String) : String :=
  let written := Text.trimEnds isOptionalSpace (contentType.toList.takeWhile (· ≠ ';'))
  String.ofList (Text.lower written)

def value (nesting : Nat) : Option Body → Except Json.Failure (Option Json)
  | none => .ok none
  | some body =>
    if JsonType (mediaType body.contentType) then silently (Json.readSent nesting body.text.toList) else .ok none

/-! ## Destinations -/

inductive Place where
  | route (route : Route)
  | files
  deriving DecidableEq, Repr

/-- The name of a file: it does not start with a slash, and has no line feed behind its first
character. -/
def isFileName : List Char → Bool
  | [] => false
  | c :: name => c ≠ '/' && name.all CharSet.inLine

def isFilePath (path : List Char) : Bool :=
  let folder := "/static/".toList
  folder.isPrefixOf path && isFileName (path.drop folder.length)

namespace Place

def ofPath? (path : List Char) : Option Place :=
  match [Route.page, .languages, .detect, .highlight].find? fun route => route.path.toList = path with
  | some found => some (route found)
  | none => if isFilePath path then some files else none

def method : Place → String
  | route found => found.method
  | files => "GET"

/-- A place that answers to `GET` answers to `HEAD` too, and each one to `OPTIONS`. -/
def accepts (place : Place) (method : List Char) : Bool :=
  method = place.method.toList || method = "OPTIONS".toList ||
    place.method = "GET" && method = "HEAD".toList

/-- Questions about the options are answered without the service. -/
def handler (place : Place) (method : List Char) : Handler :=
  if method = "OPTIONS".toList then .own ⟨200, .page ""⟩
  else
    match place with
    | route found => .route found
    | files => .notFound

end Place

def redirect (target : Target) (path : List Char) : Handler :=
  .own ⟨308, .page (redirectPage (target.address path))⟩

/-- The handler at a place, unless the request does not suit it. -/
def guarded (place : Place) (method : List Char) (target : Target) (handler : Handler) : Handler :=
  if place.accepts method then
    if target.isSocket then .own ⟨400, .page badRequestPage⟩ else handler
  else .methodNotAllowed

/-- A path that leads somewhere once its runs of slashes are single slashes is redirected there, and an empty path to
the page. -/
def handler (method : List Char) (target : Target) : Handler :=
  let merged := Target.mergeSlashes target.path
  match Place.ofPath? target.path, Place.ofPath? merged with
  | some place, _ => guarded place method target (place.handler method)
  | none, some place => guarded place method target (redirect target merged)
  | none, none =>
    if target.path.isEmpty && (Place.route .page).accepts method && !target.isSocket then
      redirect target ['/']
    else .notFound

/-- The method may be written in any case. -/
def destination (method path : String) : Destination :=
  let method := Text.asciiUpper method.toList
  ⟨handler method (Target.ofText path.toList), method = "HEAD".toList⟩

end LocalHost

def localHost : Host where
  mediaType := LocalHost.mediaType
  value := LocalHost.value Json.standardNesting
  destination := LocalHost.destination
  failurePage := failurePage
  nesting := Json.standardNesting

end CodeColor.Service
