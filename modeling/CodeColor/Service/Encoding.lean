import CodeColor.Service.Highlighted
import CodeColor.Service.Message

/-! The library's values as JSON. -/

namespace CodeColor

def Token.toJson (token : Token) : Json :=
  .object
    [("type", .string token.type.name),
      ("value", .string token.value),
      ("line", .nat token.line),
      ("column", .nat token.column)]

def Scores.toJson (scores : Scores) : Json :=
  .object (Language.all.map fun language => (language.name, .nat (scores.get language)))

def Explanation.toJson (explanation : Explanation) : Json :=
  .object
    [("detected_language", .string explanation.verdict.languageName),
      ("confidence", .string explanation.verdict.confidence.name),
      ("scores", explanation.scores.toJson)]

namespace Service

def countsToJson (counts : List (TokenType × Nat)) : Json :=
  .object
    [("total", .nat (total counts)),
      ("by_type", .object (counts.map fun (type, count) => (type.name, .nat count)))]

def Highlighted.toJson (highlighted : Highlighted) : Json :=
  .object
    [("language", .string highlighted.language),
      ("confidence", .string highlighted.confidence),
      ("html", .string highlighted.markup),
      ("tokens", .array (highlighted.tokens.map Token.toJson)),
      ("stats", countsToJson (countByType highlighted.tokens))]

def aliasesOf (language : Language) : List String :=
  ((aliases.filter (·.2 = language)).map Prod.fst).mergeSort (· ≤ ·)

def languageToJson (language : Language) : Json :=
  .object
    [("id", .string language.name),
      ("label", .string language.label),
      ("aliases", .array ((aliasesOf language).map .string))]

def languagesToJson : Json :=
  .object [("languages", .array (Language.all.map languageToJson))]

def Refusal.response (refusal : Refusal) : Response :=
  errorResponse refusal.status refusal.message
    (match refusal with
    | languageUnknown scores => [("scores", scores.toJson)]
    | _ => [])

end Service

end CodeColor
