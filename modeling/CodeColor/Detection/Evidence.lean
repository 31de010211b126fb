import CodeColor.Language.Basic

/-! What in a text speaks for a language, strongly or weakly. -/

namespace CodeColor

structure Evidence where
  strong : List Pattern
  weak : List Pattern

namespace Evidence

open Pattern

/-- White space within a line that may stand at its start. -/
def indent : Pattern := many (.among [' ', '\t'])

def gap : Pattern := many .blank

def wideGap : Pattern := oneOrMore .blank

def name : Pattern := oneOrMore .word

def capitalName : Pattern := one .upper ++ many .word

def keyword (word : String) : Pattern := boundary ++ exactly word ++ boundary

def styleCharacter : CharSet := CharSet.word.or (.among ['-'])

def colorDigits : Pattern :=
  one .hexDigit ++ one .hexDigit ++ one .hexDigit ++
    optional (one .hexDigit ++ optional (one .hexDigit ++ optional (one .hexDigit)))

def html : Evidence where
  strong :=
    [exactly "<!DOCTYPE" ++ wideGap ++ exactly "html",
      exactly "<html" ++ boundary,
      exactly "<" ++
        anyWord ["head", "body", "div", "span", "p", "a", "ul", "li", "section", "script", "style"] ++
        boundary ++ many (.except ['<', '>']) ++ exactly ">",
      exactly "</" ++ one .letter ++ many .alphanumeric ++ gap ++ exactly ">",
      exactly "<!--",
      one .blank ++ anyWord ["class", "id", "href", "src"] ++ exactly "=\""]
  weak :=
    [exactly "<" ++ one .letter,
      exactly "/>"]

def css : Evidence where
  strong :=
    [guard .lineStart ++ indent ++ optional (one (.among ['.', '#'])) ++ one .letter ++
        many styleCharacter ++
        optional (exactly ":" ++ optional (exactly ":") ++ oneOrMore styleCharacter) ++ indent ++
        exactly "\x7b",
      guard .lineStart ++ indent ++ oneOrMore Language.Css.propertyCharacter ++ indent ++ exactly ":" ++
        indent ++ oneOrMore (.except [';', '{', '}', '\n']) ++ exactly ";" ++ indent ++ guard .lineEnd,
      exactly "@media" ++ boundary,
      exactly "@import" ++ wideGap ++ exactly "url(",
      exactly "@keyframes" ++ boundary,
      boundary ++ oneOrMore .digit ++ anyWord ["px", "rem", "em", "vh", "vw"] ++ boundary,
      exactly "!important" ++ boundary]
  weak :=
    [one (.among ['{', '}', ';']),
      boundary ++ exactly "color" ++ gap ++ exactly ":",
      exactly "#" ++ colorDigits ++ boundary]

def js : Evidence where
  strong :=
    [boundary ++ exactly "function" ++ gap ++ many .word ++ gap ++ exactly "(",
      boundary ++ anyWord ["const", "let", "var"] ++ wideGap ++ name ++ gap ++ exactly "=",
      exactly "=>",
      boundary ++ exactly "console." ++ name ++ gap ++ exactly "(",
      boundary ++ exactly "document." ++ name,
      boundary ++ exactly "require" ++ gap ++ exactly "(",
      boundary ++ exactly "import" ++ wideGap ++ oneOrMore .inLine ++ wideGap ++ exactly "from" ++
        wideGap ++ one (.among ['\x27', '"']),
      boundary ++ exactly "export" ++ wideGap ++ anyWord ["default", "const", "function", "class"] ++
        boundary,
      exactly "===" ||| exactly "!=="]
  weak :=
    [one (.among ['{', '}', ';']),
      keyword "return",
      boundary ++ exactly "if" ++ gap ++ exactly "(",
      boundary ++ exactly "for" ++ gap ++ exactly "(",
      exactly "//"]

def ts : Evidence where
  strong :=
    [boundary ++ exactly "interface" ++ wideGap ++ capitalName,
      boundary ++ exactly "type" ++ wideGap ++ capitalName ++ gap ++ exactly "=",
      boundary ++ anyWord ["const", "let", "var"] ++ wideGap ++ name ++ gap ++ exactly ":" ++ gap ++ name,
      exactly ")" ++ gap ++ exactly ":" ++ gap ++
        anyWord ["string", "number", "boolean", "void", "Promise"] ++ boundary,
      boundary ++ anyWord ["public", "private", "protected", "readonly"] ++ wideGap ++ name,
      boundary ++ exactly "enum" ++ wideGap ++ capitalName,
      exactly "<" ++ capitalName ++ exactly ">",
      boundary ++ exactly "as" ++ wideGap ++ anyWord ["string", "number", "any", "unknown", "const"] ++
        boundary]
  weak :=
    [exactly ":" ++ gap ++ anyWord ["string", "number", "boolean", "any"] ++ boundary,
      keyword "implements"]

def json : Evidence where
  strong :=
    [guard .lineStart ++ indent ++ one (.among ['{', '[']),
      exactly "\"" ++ oneOrMore (.except ['"']) ++ exactly "\"" ++ gap ++ exactly ":"]
  weak :=
    [wholeWord ["true", "false", "null"],
      one (.among [']', '}']) ++ gap ++ guard .lineEnd]

/-- Three points for each strong pattern that occurs in the text, one for each weak pattern. -/
def score (evidence : Evidence) (text : List Char) : Nat :=
  3 * evidence.strong.countP (·.occursIn text) + evidence.weak.countP (·.occursIn text)

end Evidence

def Language.evidence : Language → Evidence
  | html => .html
  | css => .css
  | js => .js
  | ts => .ts
  | json => .json

end CodeColor
