import CodeColor.Pattern.CharSet
import CodeColor.Text.Percent

/-!
Which resource a request asks for.

The text of a request's path is a reference, of which a client sends the path and the query to the host
that the reference names. The server reads what it is sent as a reference again.
-/

namespace CodeColor.Service

/-- The parts of a reference; those that are missing are empty, and the fragment is left out. -/
structure Reference where
  /-- The scheme, in lower case and without its colon. -/
  scheme : List Char
  /-- The authority, without the slashes in front of it. -/
  authority : List Char
  path : List Char
  query : List Char
  deriving DecidableEq, Repr

namespace Reference

def schemeCharacter : CharSet := CharSet.alphanumeric.or (.among ['+', '-', '.'])

def isScheme : List Char → Bool
  | [] => false
  | c :: name => CharSet.letter c && name.all schemeCharacter

/-- The text without control characters and spaces at its start, and without tabs and line ends. -/
def cleaned (text : List Char) : List Char :=
  (text.dropWhile (· ≤ ' ')).filter (CharSet.except ['\t', '\r', '\n'])

def splitScheme (text : List Char) : List Char × List Char :=
  let name := text.takeWhile (· ≠ ':')
  if isScheme name && name.length < text.length then
    (name.map Char.toLower, text.drop (name.length + 1))
  else ([], text)

def splitAuthority : List Char → List Char × List Char
  | '/' :: '/' :: text =>
    (text.takeWhile (CharSet.except ['/', '?', '#']), text.dropWhile (CharSet.except ['/', '?', '#']))
  | text => ([], text)

def ofText (text : List Char) : Reference :=
  let (scheme, rest) := splitScheme (cleaned text)
  let (authority, rest) := splitAuthority rest
  let rest := rest.takeWhile (· ≠ '#')
  ⟨scheme, authority, rest.takeWhile (· ≠ '?'), (rest.dropWhile (· ≠ '?')).drop 1⟩

/-- The path and the query, as a client sends them. -/
def request (reference : Reference) : List Char :=
  if reference.query.isEmpty then reference.path else reference.path ++ '?' :: reference.query

end Reference

structure Target where
  scheme : List Char
  host : List Char
  /-- The path, with one slash at its start unless it is empty. -/
  path : List Char
  query : List Char
  deriving DecidableEq, Repr

namespace Target

def rooted (path : List Char) : List Char :=
  if path.isEmpty then [] else '/' :: path.dropWhile (· = '/')

/-- How the name of a host may end that goes without saying for the scheme. -/
def impliedEnding (scheme : List Char) : List Char :=
  if scheme = "http".toList ∨ scheme = "ws".toList then ":80".toList
  else if scheme = "https".toList ∨ scheme = "wss".toList then ":443".toList
  else []

/-- The name of the host, in lower case and without the ending that goes without saying. -/
def hostName (scheme authority : List Char) : List Char :=
  let name := authority.map Char.toLower
  let ending := impliedEnding scheme
  if ending.isSuffixOf name then name.take (name.length - ending.length) else name

/-- What the reference asks for, on the local host unless it names another. -/
def ofText (text : List Char) : Target :=
  let sent := Reference.ofText text
  let received := Reference.ofText sent.request
  let scheme := if sent.scheme.isEmpty then "http".toList else sent.scheme
  let authority := if sent.authority.isEmpty then "localhost".toList else sent.authority
  ⟨scheme, hostName scheme authority, rooted (Text.percentDecode received.path), received.query⟩

def isSocket (target : Target) : Bool :=
  target.scheme = "ws".toList || target.scheme = "wss".toList

/-- The path with one slash in place of each run of slashes: a slash before another one is left out. -/
def mergeSlashes : List Char → List Char
  | [] => []
  | c :: path =>
    if c = '/' ∧ path.head? = some '/' then mergeSlashes path else c :: mergeSlashes path

def pathCharacter : CharSet :=
  CharSet.alphanumeric.or
    (.among
      ['_', '.', '-', '~', '!', '$', '&', '\x27', '(', ')', '*', '+', ',', '/', ':', ';', '=', '@'])

/-- The whole address of another path at the same host, with the same query. -/
def address (target : Target) (path : List Char) : List Char :=
  target.scheme ++ "://".toList ++ target.host ++ Text.percentEncode pathCharacter path ++
    (if target.query.isEmpty then [] else '?' :: target.query)

end Target

end CodeColor.Service
