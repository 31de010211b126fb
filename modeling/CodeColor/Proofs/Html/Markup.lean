import CodeColor.Proofs.Claim.Passing
import CodeColor.Proofs.Pattern.CharSet
import CodeColor.Proofs.Token.Lexemes

/-!
Plain markup, and the pieces into which the grammar of HTML should cut it.

Main statements: `source_pieces` and `filterMap_pieces`.
-/

namespace CodeColor.Html

open Text (Blank)

/-! ## Markup -/

def isAttributePart (c : Char) : Bool :=
  c.isAlphanum || c = '-'

def isValuePart (c : Char) : Bool :=
  !(['"', '<', '>', '='].contains c)

def isTextPart (c : Char) : Bool :=
  !(['<', '>', '"', '\x27', '='].contains c)

structure Name (isPart : Char → Bool) where
  first : Char
  further : List Char
  letter : first.isAlpha = true
  parts : ∀ c ∈ further, isPart c = true

def Name.text {isPart : Char → Bool} (name : Name isPart) : List Char :=
  name.first :: name.further

/-- An attribute and the white space in front of it, of which `lead` is the last character. -/
structure Attribute where
  space : List Char
  lead : Char
  name : Name isAttributePart
  value : List Char
  blank_space : Blank space
  blank_lead : CharSet.blank lead = true
  parts : ∀ c ∈ value, isValuePart c = true

/-- The part of plain markup that stands for itself, closes an element, or opens one. -/
inductive Item where
  | plain (content : List Char) (bare : ∀ c ∈ content, isTextPart c = true)
  | closing (name : Name Char.isAlphanum)
  | opening (name : Name Char.isAlphanum) (attributes : List Attribute) (space : List Char) (blank : Blank space)

namespace Attribute

/-- The name with the last white space before it and the equals sign behind it. -/
def start (entry : Attribute) : List Char :=
  entry.lead :: (entry.name.text ++ ['='])

def quoted (entry : Attribute) : List Char :=
  '"' :: (entry.value ++ ['"'])

def text (entry : Attribute) : List Char :=
  entry.space ++ (entry.start ++ entry.quoted)

def lexemes (entry : Attribute) : List (TokenType × String) :=
  [(.attributeName, String.ofList entry.start), (.string, String.ofList entry.quoted)]

end Attribute

namespace Item

def text : Item → List Char
  | plain content _ => content
  | closing name => ['<', '/'] ++ (name.text ++ ['>'])
  | opening name attributes space _ =>
    ['<'] ++ (name.text ++ (attributes.flatMap Attribute.text ++ (space ++ ['>'])))

def lexemes : Item → List (TokenType × String)
  | plain _ _ => []
  | closing name => [(.tag, String.ofList (['<', '/'] ++ name.text)), (.tag, ">")]
  | opening name attributes _ _ =>
    (.tag, String.ofList (['<'] ++ name.text)) :: (attributes.flatMap Attribute.lexemes ++ [(.tag, ">")])

end Item

def text (markup : List Item) : List Char :=
  markup.flatMap Item.text

def lexemes (markup : List Item) : List (TokenType × String) :=
  markup.flatMap Item.lexemes

/-! ## Pieces -/

def tagStart (bracket : List Char) (name : Name Char.isAlphanum) : Piece :=
  ⟨bracket ++ name.text, some .tag⟩

def tagEnd : Piece :=
  ⟨['>'], some .tag⟩

def Attribute.pieces (entry : Attribute) : List Piece :=
  [⟨entry.space, none⟩, ⟨entry.start, some .attributeName⟩, ⟨entry.quoted, some .string⟩]

def Item.pieces : Item → List Piece
  | plain content _ => [⟨content, none⟩]
  | closing name => [tagStart ['<', '/'] name, tagEnd]
  | opening name attributes space _ =>
    tagStart ['<'] name :: (attributes.flatMap Attribute.pieces ++ [⟨space, none⟩, tagEnd])

def pieces (markup : List Item) : List Piece :=
  markup.flatMap Item.pieces

theorem source_pieces (markup : List Item) : Piece.source (pieces markup) = text markup := by
  have attributes : ∀ attributes : List Attribute,
      Piece.source (attributes.flatMap Attribute.pieces) = attributes.flatMap Attribute.text := by
    intro attributes
    rw [Piece.source, List.flatMap_assoc]
    apply List.flatMap_congr
    intro entry _
    simp [Attribute.pieces, Attribute.text]
  have item : ∀ item : Item, Piece.source item.pieces = item.text := by
    intro item
    cases item with
    | plain content bare => exact List.append_nil content
    | closing name => simp [Item.pieces, Item.text, Piece.source, tagStart, tagEnd]
    | opening name list space blank =>
      rw [Item.pieces, Piece.source_cons, Piece.source_append, attributes]
      simp [Item.text, Piece.source, tagStart, tagEnd]
  rw [Piece.source, pieces, List.flatMap_assoc]
  exact List.flatMap_congr fun part _ => item part

/-- The claimed pieces are the lexemes. -/
theorem filterMap_pieces (markup : List Item) : (pieces markup).filterMap Piece.lexeme? = lexemes markup := by
  have each : ∀ entry : Attribute,
      entry.pieces.filterMap Piece.lexeme? = entry.lexemes := fun _ => rfl
  have bracket : String.ofList ['>'] = ">" := by decide
  have item : ∀ item : Item, item.pieces.filterMap Piece.lexeme? = item.lexemes := by
    intro item
    cases item <;>
      simp [Item.pieces, Item.lexemes, tagStart, tagEnd, List.filterMap_cons, List.filterMap_flatMap,
        Piece.lexeme?, each, bracket]
  rw [pieces, List.filterMap_flatMap]
  exact List.flatMap_congr fun part _ => item part

theorem mem_lexemes {markup : List Item} {lexeme : TokenType × String} (member : lexeme ∈ lexemes markup) :
    lexeme.1 ∈ [TokenType.tag, .attributeName, .string] ∧ lexeme.2 ≠ "" := by
  obtain ⟨item, -, inside⟩ := List.mem_flatMap.1 member
  cases item with
  | plain content bare => cases inside
  | closing name =>
    simp only [Item.lexemes, List.mem_cons, List.not_mem_nil, or_false] at inside
    rcases inside with rfl | rfl
    · exact ⟨by simp, ofList_ne_empty (by simp)⟩
    · exact ⟨by simp, by decide⟩
  | opening name attributes space blank =>
    simp only [Item.lexemes, List.mem_cons, List.mem_append, List.not_mem_nil, or_false] at inside
    rcases inside with rfl | inside | rfl
    · exact ⟨by simp, ofList_ne_empty (by simp)⟩
    · obtain ⟨entry, -, inside⟩ := List.mem_flatMap.1 inside
      simp only [Attribute.lexemes, List.mem_cons, List.not_mem_nil, or_false] at inside
      rcases inside with rfl | rfl
      · exact ⟨by simp, ofList_ne_empty (by simp [Attribute.start])⟩
      · exact ⟨by simp, ofList_ne_empty (by simp [Attribute.quoted])⟩
    · exact ⟨by simp, by decide⟩

end CodeColor.Html
