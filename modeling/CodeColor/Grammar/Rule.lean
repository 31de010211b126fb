import CodeColor.Pattern.Search
import CodeColor.Token.TokenType

/-! Highlighting rules, and grammars as ordered lists of them. -/

namespace CodeColor

/-- What a rule claims, and the type it gives to it. -/
structure Rule where
  name : String
  pattern : Pattern
  type : TokenType

/-- Rules in the order in which they claim text. -/
abbrev Grammar := List Rule

/-- A word of nothing but word characters, which stands for itself in a pattern. -/
structure PlainWord where
  text : String
  plain : text.toList.all CharSet.word = true

def PlainWord.ofText? (text : String) : Option PlainWord :=
  if plain : text.toList.all CharSet.word = true then some ⟨text, plain⟩ else none

namespace Rule

def literal (name text : String) (type? : Option String) : Rule :=
  ⟨name, .exactly text, .givenOr name type?⟩

def words (name : String) (words : List PlainWord) (type? : Option String) : Rule :=
  ⟨name, .wholeWord (words.map PlainWord.text), .givenOr name type?⟩

/-- The rule under another name or type, where one is given. -/
def relabel (rule : Rule) (name? type? : Option String) : Rule :=
  ⟨name?.getD rule.name, rule.pattern, (type?.map TokenType.mk).getD rule.type⟩

end Rule

def Grammar.outline (grammar : Grammar) : List (String × TokenType) :=
  grammar.map fun rule => (rule.name, rule.type)

def Grammar.rule? (grammar : Grammar) (name : String) : Option Rule :=
  grammar.find? (·.name = name)

end CodeColor
