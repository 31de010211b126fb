/-! Text as character data and attribute values of markup. -/

namespace CodeColor.Markup

def escapeChar (c : Char) : List Char :=
  if c = '&' then "&amp;".toList
  else if c = '<' then "&lt;".toList
  else if c = '>' then "&gt;".toList
  else if c = '"' then "&quot;".toList
  else if c = '\x27' then "&#x27;".toList
  else [c]

def escape (text : String) : String :=
  String.ofList (text.toList.flatMap escapeChar)

end CodeColor.Markup
