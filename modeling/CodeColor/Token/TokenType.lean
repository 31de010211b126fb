/-! Token types and their colours. -/

namespace CodeColor

/-- The type of a token, known by its name. A grammar may bring types of its own. -/
structure TokenType where
  name : String
  deriving DecidableEq, Repr

namespace TokenType

def keyword : TokenType := ⟨"keyword"⟩
def string : TokenType := ⟨"string"⟩
def comment : TokenType := ⟨"comment"⟩
def number : TokenType := ⟨"number"⟩
def function : TokenType := ⟨"function"⟩
def tag : TokenType := ⟨"tag"⟩
def attributeName : TokenType := ⟨"attribute"⟩
def bracket : TokenType := ⟨"bracket"⟩
def operator : TokenType := ⟨"operator"⟩
def variableName : TokenType := ⟨"variable"⟩
def property : TokenType := ⟨"property"⟩
def punctuation : TokenType := ⟨"punctuation"⟩
def className : TokenType := ⟨"class"⟩
def selector : TokenType := ⟨"selector"⟩
def value : TokenType := ⟨"value"⟩
def unit : TokenType := ⟨"unit"⟩
def typeName : TokenType := ⟨"type"⟩

def text : TokenType := ⟨"text"⟩

def shared : List TokenType :=
  [attributeName, bracket, className, comment, function, keyword, number, operator, property,
    punctuation, string, tag, text, variableName]

def palette : List (TokenType × String) :=
  [(keyword, "#8B5CF6"),
    (string, "#ea384c"),
    (comment, "#6B7280"),
    (number, "#F97316"),
    (function, "#1EAEDB"),
    (tag, "#D946EF"),
    (attributeName, "#FEC6A1"),
    (selector, "#D946EF"),
    (property, "#D946EF"),
    (value, "#1EAEDB"),
    (unit, "#F97316"),
    (punctuation, "#D1D5DB"),
    (operator, "#FEF7CD"),
    (typeName, "#F2FCE2"),
    (className, "#F2FCE2"),
    (variableName, "#FDE1D3"),
    (bracket, "#D1D5DB"),
    (text, "#ffffff")]

def color? (type : TokenType) : Option String :=
  palette.lookup type

def givenOr (ruleName : String) : Option String → TokenType
  | none => ⟨ruleName⟩
  | some name => if name = "" then ⟨ruleName⟩ else ⟨name⟩

end TokenType

end CodeColor
