import CodeColor.Proofs.Markup.Colored
import Mathlib.Data.List.Infix

/-!
How often a tag stands in markup. Only the tags that rendering writes count, as escaped values hold none.

Main statement: `occurrences_markup`.
-/

namespace CodeColor.Markup

/-- At how many places of the text the part starts. -/
def occurrences (part text : List Char) : Nat :=
  text.tails.countP part.isPrefixOf

/-- Of the two tags of an element, exactly one goes on like this behind its `<`. -/
def OncePerElement (tag : List Char) : Prop :=
  ∀ type opened closed,
    (tag.isPrefixOf (tagText type ++ opened)).toNat + (tag.isPrefixOf ("/span>".toList ++ closed)).toNat = 1

theorem occurrences_cons (part : List Char) (c : Char) (text : List Char) :
    occurrences part (c :: text) = occurrences part text + (part.isPrefixOf (c :: text)).toNat := by
  unfold occurrences
  rw [List.tails_cons, List.countP_cons]
  cases part.isPrefixOf (c :: text) <;> rfl

theorem occurrences_bracket (tag text : List Char) :
    occurrences ('<' :: tag) ('<' :: text) = occurrences ('<' :: tag) text + (tag.isPrefixOf text).toNat := by
  rw [occurrences_cons, List.isPrefixOf_cons_cons_self]

theorem occurrences_append {text : List Char} (tagless : '<' ∉ text) (tag rest : List Char) :
    occurrences ('<' :: tag) (text ++ rest) = occurrences ('<' :: tag) rest := by
  induction text with
  | nil => rfl
  | cons c text ih =>
    have other : ('<' == c) = false := by
      apply beq_false_of_ne
      rintro rfl
      exact tagless List.mem_cons_self
    have none : ('<' :: tag).isPrefixOf (c :: (text ++ rest)) = false := by
      rw [List.isPrefixOf_cons_cons, other, Bool.false_and]
    rw [List.cons_append, occurrences_cons, none, ih fun member => tagless (List.mem_cons_of_mem _ member)]
    rfl

theorem occurrences_element {tag : List Char} (once : OncePerElement tag) {type : TokenType}
    (colored : type.color?.isSome) (element : type ≠ .text) (value : String) (rest : List Char) :
    occurrences ('<' :: tag) (chunk true type value ++ rest) = occurrences ('<' :: tag) rest + 1 := by
  have whole : '<' ∉ "/span>".toList := by decide
  have some_tag := bracket_not_mem_element colored value
  have counted := once type ('>' :: (written true value).toList ++ '<' :: ("/span>".toList ++ rest)) rest
  calc
    _ = occurrences ('<' :: tag) ('<' :: ((tagText type ++ '>' :: (written true value).toList) ++
        '<' :: ("/span>".toList ++ rest))) := by rw [chunk_element element]
    _ = occurrences ('<' :: tag) rest + (tag.isPrefixOf ("/span>".toList ++ rest)).toNat +
        (tag.isPrefixOf (tagText type ++ ('>' :: (written true value).toList ++
          '<' :: ("/span>".toList ++ rest)))).toNat := by
      rw [occurrences_bracket, occurrences_append some_tag, occurrences_bracket, occurrences_append whole,
        List.append_assoc]
    _ = occurrences ('<' :: tag) rest + 1 := by omega

/-- Such a tag stands in the markup once for each token but plain text. -/
theorem occurrences_markup {tag : List Char} (once : OncePerElement tag) {tokens : List Token}
    (colored : Colored tokens) :
    occurrences ('<' :: tag) (markup true tokens) = tokens.countP fun token => token.type ≠ .text := by
  induction tokens with
  | nil => rfl
  | cons token tokens ih =>
    obtain ⟨first, rest⟩ := colored_cons.1 colored
    have onward := ih rest
    rw [markup_cons]
    by_cases text : token.type = .text
    · rw [chunk_text text, occurrences_append (bracket_not_mem_written token.value), onward,
        List.countP_cons_of_neg (by simp [text])]
    · rw [occurrences_element once first text, onward, List.countP_cons_of_pos (by simp [text])]

theorem closing_once : OncePerElement "/span>".toList := by
  intro type opened closed
  have start : "span class=\"".toList = 's' :: "pan class=\"".toList := by decide
  have whole : "/span>".toList.isPrefixOf ("/span>".toList ++ closed) = true :=
    List.isPrefixOf_iff_prefix.2 (List.prefix_append _ _)
  unfold tagText
  rw [whole, start]
  rfl

theorem opening_once : OncePerElement "span ".toList := by
  intro type opened closed
  have start : "span class=\"".toList = "span ".toList ++ "class=\"".toList := by decide
  have whole : ∀ text, "span ".toList.isPrefixOf ("span ".toList ++ text) = true :=
    fun text => List.isPrefixOf_iff_prefix.2 (List.prefix_append _ _)
  unfold tagText
  rw [start]
  simp only [List.append_assoc]
  rw [whole]
  rfl

end CodeColor.Markup
