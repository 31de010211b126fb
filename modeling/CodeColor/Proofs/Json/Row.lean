import CodeColor.Proofs.Claim.Carving
import CodeColor.Proofs.Claim.Gap
import CodeColor.Proofs.Json.Document
import CodeColor.Proofs.Pattern.Words

/-!
The pieces into which the grammar of JSON should cut a JSON text, and what a rule has to do for that.

Main statement: `carves_row`.
-/

namespace CodeColor.Json

/-- The type for which a lexeme should be claimed. A name without content counts as any string. -/
def Lexeme.type : Lexeme → TokenType
  | mark _ => .punctuation
  | name content => if content = [] then .string else .property
  | string _ => .string
  | number _ => .number
  | word _ => .keyword

/-- Each lexeme is a piece, and so is the white space before each lexeme and behind the last one. -/
def row (trailing : List Char) : List Spaced → List Piece
  | [] => [⟨trailing, none⟩]
  | part :: parts =>
    ⟨part.space, none⟩ :: ⟨part.lexeme.text, some part.lexeme.type⟩ :: row trailing parts

theorem source_row (trailing : List Char) (parts : List Spaced) :
    Piece.source (row trailing parts) = written parts ++ trailing := by
  induction parts with
  | nil => exact List.append_nil trailing
  | cons part parts ih =>
    rw [row, Piece.source_cons, Piece.source_cons, ih]
    simp [written]

/-! ## Marks -/

def markCharacters : List Char := ['{', '}', '[', ']', ':', ',']

theorem Derives.mark_mem {role : Role} {lexemes : List Lexeme} (derives : Derives role lexemes) {c : Char}
    (member : .mark c ∈ lexemes) : c ∈ markCharacters := by
  induction derives with
  | number | word | string => simp at member
  | emptyArray | emptyObject =>
    simp only [List.mem_cons, Lexeme.mark.injEq, List.not_mem_nil, or_false] at member
    rcases member with rfl | rfl <;> decide
  | array _ ih | object _ ih =>
    simp only [List.mem_cons, List.mem_append, Lexeme.mark.injEq, List.not_mem_nil, or_false] at member
    rcases member with rfl | inside | rfl
    · decide
    · exact ih inside
    · decide
  | lastItem _ ih => exact ih member
  | item _ _ first ih =>
    simp only [List.mem_append, List.mem_cons, Lexeme.mark.injEq] at member
    rcases member with inside | rfl | inside
    · exact first inside
    · decide
    · exact ih inside
  | lastMember _ ih =>
    simp only [List.mem_cons, reduceCtorEq, Lexeme.mark.injEq, false_or] at member
    rcases member with rfl | inside
    · decide
    · exact ih inside
  | member _ _ first ih =>
    simp only [List.mem_append, List.mem_cons, reduceCtorEq, Lexeme.mark.injEq, false_or] at member
    rcases member with rfl | inside | rfl | inside
    · decide
    · exact first inside
    · decide
    · exact ih inside

/-- Of two neighbours one at least is a mark. -/
def Apart (lexemes : List Lexeme) : Prop :=
  lexemes.IsChain fun left right => left.isMark = true ∨ right.isMark = true

theorem Ends.isMark {lexemes : List Lexeme} (ends : Ends lexemes) :
    ∀ next ∈ lexemes.head?, next.isMark = true := by
  rintro next leads
  obtain rfl | ⟨c, rest, rfl, -⟩ := ends
  · cases leads
  · cases leads
    rfl

theorem Ordered.apart {lexemes : List Lexeme} (ordered : Ordered lexemes) : Apart lexemes := by
  induction lexemes with
  | nil => exact .nil
  | cons lexeme rest ih =>
    cases lexeme with
    | mark => exact List.isChain_cons.2 ⟨fun _ _ => .inl rfl, ih ordered⟩
    | name =>
      obtain ⟨⟨further, rfl⟩, onward⟩ := ordered
      refine List.isChain_cons.2 ⟨fun next leads => ?_, ih onward⟩
      cases leads
      exact .inr rfl
    | string | number | word =>
      exact List.isChain_cons.2 ⟨fun next leads => .inr (ordered.1.isMark next leads), ih ordered.2⟩

/-- White space stands where it may, the marks are known, and no two other lexemes are neighbours. -/
structure Laid (trailing : List Char) (parts : List Spaced) : Prop where
  blank_trailing : Blank trailing
  blank : ∀ part ∈ parts, Blank part.space
  known : ∀ c, .mark c ∈ parts.map Spaced.lexeme → c ∈ markCharacters
  apart : Apart (parts.map Spaced.lexeme)

theorem Document.laid (document : Document) : Laid document.trailing document.parts :=
  ⟨document.blank_trailing, document.blank, fun _ member => document.derives.mark_mem member,
    document.ordered.apart⟩

namespace Laid

variable {trailing : List Char} {part : Spaced} {parts : List Spaced}

theorem tail (laid : Laid trailing (part :: parts)) : Laid trailing parts where
  blank_trailing := laid.blank_trailing
  blank other member := laid.blank other (List.mem_cons_of_mem part member)
  known c member := laid.known c (List.mem_cons_of_mem _ member)
  apart := (List.isChain_cons.1 laid.apart).2

theorem mark_behind (laid : Laid trailing (part :: parts)) (other : part.lexeme.isMark = false) :
    ∀ next ∈ (parts.map Spaced.lexeme).head?, next.isMark = true := by
  intro next leads
  have either := (List.isChain_cons.1 laid.apart).1 next leads
  exact either.resolve_left (by simp [other])

end Laid

/-! ## One rule -/

open Pattern

theorem touching_of_isSpace {c : Char} (space : isSpace c = true) : touching c = false := by
  simp only [isSpace, Bool.or_eq_true, decide_eq_true_eq, or_assoc] at space
  rcases space with rfl | rfl | rfl | rfl <;> decide +kernel

theorem touching_of_mark {c : Char} (known : c ∈ markCharacters) : touching c = false := by
  simp only [markCharacters, List.mem_cons, List.not_mem_nil, or_false] at known
  rcases known with rfl | rfl | rfl | rfl | rfl | rfl <;> decide +kernel

theorem not_word_of_touching {c : Char} (free : touching c = false) : CharSet.word c = false :=
  (Bool.or_eq_false_iff.1 free).1

/-- A word or a number may start behind this text. -/
def Loose (before : List Char) (lexemes : List Lexeme) : Prop :=
  (∀ next ∈ lexemes.head?, next.isMark = true) ∨ startsIn CharSet.word before = false

section

open Piece

variable {trailing : List Char} {parts : List Spaced}

theorem Laid.touching_openText {seen : List TokenType} (laid : Laid trailing parts)
    (ends : ∀ next ∈ (parts.map Spaced.lexeme).head?, next.isMark = true) :
    startsIn touching (openText seen (row trailing parts)) = false := by
  have spaced : ∀ space, Blank space → ∀ text, startsIn touching text = false →
      startsIn touching (space ++ text) = false := by
    intro space blank text free
    cases space with
    | nil => exact free
    | cons c space => exact touching_of_isSpace (blank c List.mem_cons_self)
  cases parts with
  | nil => exact spaced trailing laid.blank_trailing [] rfl
  | cons part parts =>
    refine spaced part.space (laid.blank part List.mem_cons_self) _ ?_
    obtain ⟨space, lexeme⟩ := part
    have mark := ends lexeme rfl
    cases lexeme with
    | mark c =>
      rw [openText]
      split
      · rfl
      · exact touching_of_mark (laid.known c List.mem_cons_self)
    | _ => cases mark

theorem Loose.space {space before : List Char} {lexemes : List Lexeme} (loose : Loose before lexemes)
    (blank : Blank space) : Loose (space.reverse ++ before) lexemes := by
  refine loose.imp_right fun free => ?_
  rcases List.eq_nil_or_concat space with rfl | ⟨front, c, rfl⟩
  · exact free
  · have last := not_word_of_touching (touching_of_isSpace (blank c (by simp)))
    simpa [startsIn] using last

theorem Laid.loose {part : Spaced} (laid : Laid trailing (part :: parts)) (before : List Char) :
    Loose (part.lexeme.text.reverse ++ before) (parts.map Spaced.lexeme) := by
  have behind := laid.mark_behind
  obtain ⟨space, lexeme⟩ := part
  cases lexeme with
  | mark c => exact .inr (not_word_of_touching (touching_of_mark (laid.known c List.mem_cons_self)))
  | _ => exact .inl (behind rfl)

/-- A rule takes out of a JSON text the lexemes of its type, when it matches each of them where it may stand and no
match starts anywhere else. -/
theorem carves_row {rule : Rule} {seen : List TokenType} {set : CharSet} (opens : rule.pattern.OpensAt set)
    (fresh : rule.type ∉ seen) (off_space : ∀ c, isSpace c = true → set c = false)
    (laid : Laid trailing parts)
    (off_others : ∀ part ∈ parts, part.lexeme.type ∉ rule.type :: seen →
      ∀ c ∈ part.lexeme.text, set c = false)
    (matched : ∀ part ∈ parts, part.lexeme.type = rule.type → ∀ before rest,
      (part.lexeme.isMark = false → startsIn CharSet.word before = false ∧ startsIn touching rest = false) →
      rule.pattern.matchLength? before (part.lexeme.text ++ rest) = some part.lexeme.text.length)
    {before : List Char} (loose : Loose before (parts.map Spaced.lexeme)) :
    rule.Carves seen before (row trailing parts) := by
  have missed : ∀ {space : List Char} {before : List Char} {row : List Piece}, Blank space →
      rule.Carves seen (space.reverse ++ before) row → rule.Carves seen before (⟨space, none⟩ :: row) := by
    intro space before row blank onward
    exact .missed rfl (Rule.misses_of_opensAt opens (fun c member => off_space c (blank c member)) _ _) onward
  induction parts generalizing before with
  | nil => exact missed laid.blank_trailing .nil
  | cons part parts ih =>
    have blank := laid.blank part List.mem_cons_self
    have onward := ih laid.tail
      (fun other member => off_others other (List.mem_cons_of_mem part member))
      (fun other member => matched other (List.mem_cons_of_mem part member))
      (laid.loose (part.space.reverse ++ before))
    refine missed blank ?_
    by_cases found : isSeen seen ⟨part.lexeme.text, some part.lexeme.type⟩ = true
    · exact .seen found onward
    by_cases own : part.lexeme.type = rule.type
    · have here := matched part List.mem_cons_self own (part.space.reverse ++ before)
        (openText seen (row trailing parts)) fun other =>
          ⟨(loose.space blank).resolve_left fun mark => by simp [mark part.lexeme rfl] at other,
            laid.tail.touching_openText (laid.mark_behind other)⟩
      have some_text : part.lexeme.text ≠ [] :=
        List.length_pos_iff.1 (Pattern.matchLength?_pos here)
      rw [own]
      exact .matched fresh some_text here onward
    · have other : part.lexeme.type ∉ rule.type :: seen := by
        intro member
        rcases List.mem_cons.1 member with same | earlier
        · exact own same
        · exact found (by simpa [isSeen] using earlier)
      have unseen : isSeen (rule.type :: seen) ⟨part.lexeme.text, some part.lexeme.type⟩ = false := by
        simpa [isSeen] using other
      exact .missed unseen (Rule.misses_of_opensAt opens (off_others part List.mem_cons_self other) _ _) onward

end

end CodeColor.Json
