import CodeColor.Grammar.Rule

/-!
Grammars derived from others. An extension names rules of the base: some are replaced in place, some are
followed by further rules, and the others keep their order.
-/

namespace CodeColor

/-- What changes in a base grammar, by rule name. -/
structure Extension where
  replace : List (String × Rule)
  insertAfter : List (String × List Rule)

/-- The rule names of the extension that the base does not have, each once, in code point order. -/
structure UnknownRules where
  names : List String
  deriving DecidableEq, Repr

def UnknownRules.message (unknown : UnknownRules) : String :=
  "No rule named " ++ String.intercalate ", " unknown.names ++ " in base grammar"

namespace Extension

def keys (extension : Extension) : List String :=
  extension.replace.map Prod.fst ++ extension.insertAfter.map Prod.fst

def unknown (extension : Extension) (base : Grammar) : List String :=
  ((extension.keys.filter fun key => !base.any (·.name = key)).eraseDups).mergeSort (· ≤ ·)

def expand (extension : Extension) (rule : Rule) : List Rule :=
  (extension.replace.lookup rule.name).getD rule ::
    (extension.insertAfter.lookup rule.name).getD []

def applyTo (extension : Extension) (base : Grammar) : Grammar :=
  base.flatMap extension.expand

end Extension

/-- The extended grammar, or the names that the base does not have. -/
def Grammar.extend (base : Grammar) (extension : Extension) : Except UnknownRules Grammar :=
  match extension.unknown base with
  | [] => .ok (extension.applyTo base)
  | names => .error ⟨names⟩

end CodeColor
