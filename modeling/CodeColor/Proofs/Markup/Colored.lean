import CodeColor.Proofs.Markup.Unescape

/-!
The markup of tokens that all have colours, character by character.

Main statement: `render_eq_ok`. It leaves rendering without failures, as a row of chunks.
-/

namespace CodeColor

def Colored (tokens : List Token) : Prop :=
  ∀ token ∈ tokens, token.type.color?.isSome

instance (tokens : List Token) : Decidable (Colored tokens) :=
  inferInstanceAs (Decidable (∀ token ∈ tokens, token.type.color?.isSome))

theorem colored_cons {token : Token} {tokens : List Token} :
    Colored (token :: tokens) ↔ token.type.color?.isSome ∧ Colored tokens :=
  List.forall_mem_cons

namespace TokenType

theorem mem_palette {type : TokenType} (colored : type.color?.isSome) :
    (type, type.color?.getD "") ∈ palette := by
  obtain ⟨color, found⟩ := Option.isSome_iff_exists.1 colored
  obtain ⟨before, behind, whole, _⟩ := List.lookup_eq_some_iff.1 found
  rw [found, whole]
  exact List.mem_append_right _ List.mem_cons_self

theorem palette_plain {entry : TokenType × String} (member : entry ∈ palette) {c : Char}
    (inside : c ∈ entry.1.name.toList ++ entry.2.toList) : c ∉ ['&', '<', '>', '"', '\x27'] := by
  have clear : ∀ entry ∈ palette, (entry.1.name.toList ++ entry.2.toList).all fun c =>
      c ∉ ['&', '<', '>', '"', '\x27'] := by
    decide
  exact Markup.not_mem_of_all (clear entry member) inside

end TokenType

namespace Markup

def tagText (type : TokenType) : List Char :=
  "span class=\"".toList ++ (type.name.toList ++
    ("\" style=\"color:".toList ++ ((type.color?.getD "").toList ++ ['"'])))

theorem toList_opening (type : TokenType) :
    (opening type (type.color?.getD "")).toList = '<' :: (tagText type ++ ['>']) := by
  have first : "<span class=\"".toList = '<' :: "span class=\"".toList := by decide
  have last : "\">".toList = ['"', '>'] := by decide
  unfold opening tagText
  rw [String.toList_append, String.toList_append, String.toList_append, String.toList_append, first, last]
  simp only [List.append_assoc, List.cons_append, List.nil_append]

theorem toList_closing : closing.toList = '<' :: "/span>".toList := by decide

theorem tagText_plain {type : TokenType} (colored : type.color?.isSome) {c : Char}
    (member : c ∈ tagText type) : c ∉ ['&', '<', '>'] := by
  have first : ∀ c ∈ "span class=\"".toList, c ∉ ['&', '<', '>'] := fun _ => not_mem_of_all (by decide)
  have middle : ∀ c ∈ "\" style=\"color:".toList, c ∉ ['&', '<', '>'] :=
    fun _ => not_mem_of_all (by decide)
  have last : ∀ c ∈ ['"'], c ∉ ['&', '<', '>'] := fun _ => not_mem_of_all (by decide)
  have among : ∀ c ∈ type.name.toList ++ (type.color?.getD "").toList, c ∉ ['&', '<', '>'] := by
    intro c inside reserved
    have entry := TokenType.mem_palette colored
    exact TokenType.palette_plain entry inside (List.mem_append_left ['"', '\x27'] reserved)
  unfold tagText at member
  rcases List.mem_append.1 member with inside | inside
  · exact first c inside
  rcases List.mem_append.1 inside with inside | inside
  · exact among c (List.mem_append_left _ inside)
  rcases List.mem_append.1 inside with inside | inside
  · exact middle c inside
  rcases List.mem_append.1 inside with inside | inside
  · exact among c (List.mem_append_right _ inside)
  · exact last c inside

theorem toList_written (text : String) : (written true text).toList = text.toList.flatMap escapeChar := by
  have same : written true text = escape text := rfl
  rw [same, escape, String.toList_ofList]

theorem bracket_not_mem_written (text : String) : '<' ∉ (written true text).toList := by
  intro member
  rw [toList_written] at member
  exact mem_escape member List.mem_cons_self

theorem written_append (first second : String) :
    (written true first).toList ++ (written true second).toList = (written true (first ++ second)).toList := by
  rw [toList_written, toList_written, toList_written, String.toList_append, List.flatMap_append]

def chunk (escaped : Bool) (type : TokenType) (value : String) : List Char :=
  if type = .text then (written escaped value).toList
  else '<' :: (tagText type ++ '>' :: ((written escaped value).toList ++ '<' :: "/span>".toList))

theorem chunk_text {type : TokenType} (text : type = .text) (escaped : Bool) (value : String) :
    chunk escaped type value = (written escaped value).toList := if_pos text

theorem bracket_not_mem_element {type : TokenType} (colored : type.color?.isSome) (value : String) :
    '<' ∉ tagText type ++ '>' :: (written true value).toList := by
  intro member
  rcases List.mem_append.1 member with inside | inside
  · exact tagText_plain colored inside (by decide)
  · rcases List.mem_cons.1 inside with same | inside
    · cases same
    · exact bracket_not_mem_written value inside

theorem chunk_element {type : TokenType} (element : type ≠ .text) (escaped : Bool) (value : String)
    (rest : List Char) :
    chunk escaped type value ++ rest =
      '<' :: ((tagText type ++ '>' :: (written escaped value).toList) ++
        '<' :: ("/span>".toList ++ rest)) := by
  unfold chunk
  rw [if_neg element]
  simp only [List.append_assoc, List.cons_append]

theorem chunk_parts {type : TokenType} (element : type ≠ .text) (escaped : Bool) (value : String)
    (rest : List Char) :
    chunk escaped type value ++ rest =
      '<' :: (tagText type ++ ['>']) ++ ((written escaped value).toList ++ ("</span>".toList ++ rest)) := by
  have whole := chunk_element element escaped value rest
  simp only [List.append_assoc, List.cons_append] at whole ⊢
  exact whole

theorem markup_ofToken {token : Token} (colored : token.type.color?.isSome) (escaped : Bool) :
    (Fragment.ofToken token).markup escaped =
      .ok (String.ofList (chunk escaped token.type token.value)) := by
  obtain ⟨color, found⟩ := Option.isSome_iff_exists.1 colored
  have tag := toList_opening token.type
  rw [found, Option.getD_some] at tag
  unfold Fragment.markup Fragment.ofToken chunk
  by_cases plain : token.type = .text
  · simp only [plain, if_true, String.ofList_toList]
  · simp only [if_neg plain, wrap, found]
    refine congrArg Except.ok (String.toList_inj.1 ?_)
    simp only [String.toList_append, String.toList_ofList, tag, toList_closing, List.append_assoc,
      List.cons_append, List.nil_append]

def markup (escaped : Bool) (tokens : List Token) : List Char :=
  tokens.flatMap fun token => chunk escaped token.type token.value

theorem markup_cons (escaped : Bool) (token : Token) (tokens : List Token) :
    markup escaped (token :: tokens) =
      chunk escaped token.type token.value ++ markup escaped tokens := List.flatMap_cons

theorem mapM_markup {tokens : List Token} (colored : Colored tokens) (escaped : Bool) :
    (tokens.map Fragment.ofToken).mapM (Fragment.markup escaped) =
      .ok (tokens.map fun token => String.ofList (chunk escaped token.type token.value)) := by
  induction tokens with
  | nil => rfl
  | cons token tokens ih =>
    obtain ⟨first, rest⟩ := colored_cons.1 colored
    rw [List.map_cons, List.mapM_cons, markup_ofToken first, ih rest]
    rfl

theorem render_eq_ok {tokens : List Token} (colored : Colored tokens) (escaped : Bool) :
    render escaped tokens = .ok (String.ofList (markup escaped tokens)) := by
  unfold render renderFragments
  rw [mapM_markup colored]
  refine congrArg Except.ok (String.toList_inj.1 ?_)
  rw [String.toList_join, List.flatMap_map, String.toList_ofList]
  simp only [String.toList_ofList]
  rfl

end Markup

end CodeColor
