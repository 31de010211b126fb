import CodeColor.Language.Css
import CodeColor.Language.Html
import CodeColor.Language.Json
import CodeColor.Language.TypeScript

/-! The languages that can be highlighted. -/

namespace CodeColor

inductive Language where
  | html
  | css
  | js
  | ts
  | json
  deriving DecidableEq, Repr

namespace Language

def all : List Language := [html, css, js, ts, json]

theorem mem_all (language : Language) : language ∈ all := by
  cases language <;> simp [all]

def name : Language → String
  | html => "html"
  | css => "css"
  | js => "js"
  | ts => "ts"
  | json => "json"

def label : Language → String
  | html => "HTML"
  | css => "CSS"
  | js => "JavaScript"
  | ts => "TypeScript"
  | json => "JSON"

def grammar : Language → Grammar
  | html => Html.grammar
  | css => Css.grammar
  | js => JavaScript.grammar
  | ts => TypeScript.grammar
  | json => Json.grammar

def ofName? (name : String) : Option Language :=
  all.find? (·.name = name)

theorem ofName?_name (language : Language) : ofName? language.name = some language := by
  cases language <;> decide

end Language

def Grammar.named? (name? : Option String) : Option Grammar :=
  (name?.bind Language.ofName?).map Language.grammar

end CodeColor
