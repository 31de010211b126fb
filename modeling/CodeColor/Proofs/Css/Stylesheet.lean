import CodeColor.Proofs.Claim.Passing
import CodeColor.Proofs.Pattern.CharSet
import CodeColor.Proofs.Token.Lexemes

/-!
Plain stylesheets, and the pieces into which the grammar of CSS should cut them.

Main statements: `Stylesheet.source_pieces` and `Stylesheet.filterMap_pieces`.
-/

namespace CodeColor.Css

open Text (Blank)

/-! ## Stylesheets -/

def isSelectorPart (c : Char) : Bool :=
  c.isAlphanum || ['_', '.', '-', '#', ':'].contains c

def isPropertyPart (c : Char) : Bool :=
  c.isAlpha || c = '-'

def isValuePart (c : Char) : Bool :=
  !([';', '{', '}', ':'].contains c)

structure Name (isPart : Char → Bool) where
  letters : List Char
  gap : List Char
  some_letters : letters ≠ []
  parts : ∀ c ∈ letters, isPart c = true
  blank_gap : Blank gap

def Name.upTo {isPart : Char → Bool} (name : Name isPart) (mark : Char) : List Char :=
  name.letters ++ (name.gap ++ [mark])

structure Declaration where
  space : List Char
  property : Name isPropertyPart
  value : List Char
  blank_space : Blank space
  some_value : value ≠ []
  parts : ∀ c ∈ value, isValuePart c = true
  no_comment : ¬ ['/', '*'] <:+: value

structure Block where
  space : List Char
  selector : Name isSelectorPart
  declarations : List Declaration
  closing : List Char
  blank_space : Blank space
  blank_closing : Blank closing

structure Stylesheet where
  blocks : List Block
  trailing : List Char
  blank_trailing : Blank trailing

namespace Declaration

def text (declaration : Declaration) : List Char :=
  declaration.space ++ (declaration.property.upTo ':' ++ (declaration.value ++ [';']))

def lexemes (declaration : Declaration) : List (TokenType × String) :=
  [(.property, String.ofList (declaration.property.upTo ':')), (.value, String.ofList declaration.value)]

end Declaration

namespace Block

def text (block : Block) : List Char :=
  block.space ++ (block.selector.upTo '{' ++
    (block.declarations.flatMap Declaration.text ++ (block.closing ++ ['}'])))

def lexemes (block : Block) : List (TokenType × String) :=
  (.selector, String.ofList (block.selector.upTo '{')) :: block.declarations.flatMap Declaration.lexemes

end Block

namespace Stylesheet

def text (sheet : Stylesheet) : List Char :=
  sheet.blocks.flatMap Block.text ++ sheet.trailing

def lexemes (sheet : Stylesheet) : List (TokenType × String) :=
  sheet.blocks.flatMap Block.lexemes

end Stylesheet

/-! ## Pieces -/

def Declaration.body (declaration : Declaration) : List Piece :=
  [⟨declaration.property.upTo ':', some .property⟩, ⟨declaration.value, some .value⟩, ⟨[';'], none⟩]

def Declaration.pieces (declaration : Declaration) : List Piece :=
  [⟨declaration.space, none⟩] ++ declaration.body

def Block.pieces (block : Block) : List Piece :=
  [⟨block.space, none⟩] ++ ([⟨block.selector.upTo '{', some .selector⟩] ++
    (block.declarations.flatMap Declaration.pieces ++ ([⟨block.closing, none⟩] ++ [⟨['}'], none⟩])))

def Stylesheet.pieces (sheet : Stylesheet) : List Piece :=
  sheet.blocks.flatMap Block.pieces ++ [⟨sheet.trailing, none⟩]

theorem Declaration.source_pieces (declaration : Declaration) :
    Piece.source declaration.pieces = declaration.text := by
  simp [pieces, body, Piece.source, text]

theorem Block.source_pieces (block : Block) : Piece.source block.pieces = block.text := by
  have inside : Piece.source (block.declarations.flatMap Declaration.pieces) =
      block.declarations.flatMap Declaration.text := by
    rw [Piece.source, List.flatMap_assoc]
    exact List.flatMap_congr fun declaration _ => declaration.source_pieces
  simp only [pieces, Piece.source_append, inside]
  simp [Piece.source, text]

theorem Stylesheet.source_pieces (sheet : Stylesheet) : Piece.source sheet.pieces = sheet.text := by
  have inside : Piece.source (sheet.blocks.flatMap Block.pieces) = sheet.blocks.flatMap Block.text := by
    rw [Piece.source, List.flatMap_assoc]
    exact List.flatMap_congr fun block _ => block.source_pieces
  rw [pieces, Piece.source_append, inside]
  simp [Piece.source, text]

/-- The claimed pieces are the lexemes. -/
theorem Stylesheet.filterMap_pieces (sheet : Stylesheet) :
    sheet.pieces.filterMap Piece.lexeme? = sheet.lexemes := by
  have declared : ∀ declaration : Declaration,
      declaration.pieces.filterMap Piece.lexeme? = declaration.lexemes := fun _ => rfl
  have blocked : ∀ block : Block, block.pieces.filterMap Piece.lexeme? = block.lexemes := by
    intro block
    simp [Block.pieces, List.filterMap_cons, List.filterMap_flatMap, Piece.lexeme?, declared, Block.lexemes]
  simp [pieces, List.filterMap_flatMap, Piece.lexeme?, blocked, lexemes]

theorem Name.upTo_ne_nil {isPart : Char → Bool} (name : Name isPart) (mark : Char) : name.upTo mark ≠ [] := by
  simp [upTo]

theorem Stylesheet.mem_lexemes {sheet : Stylesheet} {lexeme : TokenType × String}
    (member : lexeme ∈ sheet.lexemes) : lexeme.1 ∈ [TokenType.value, .property, .selector] ∧ lexeme.2 ≠ "" := by
  obtain ⟨block, -, inside⟩ := List.mem_flatMap.1 member
  rcases List.mem_cons.1 inside with rfl | inside
  · exact ⟨by simp, ofList_ne_empty (block.selector.upTo_ne_nil '{')⟩
  · obtain ⟨declaration, -, inside⟩ := List.mem_flatMap.1 inside
    rcases List.mem_cons.1 inside with rfl | last
    · exact ⟨by simp, ofList_ne_empty (declaration.property.upTo_ne_nil ':')⟩
    · rw [List.mem_singleton.1 last]
      exact ⟨by simp, ofList_ne_empty declaration.some_value⟩

end CodeColor.Css
