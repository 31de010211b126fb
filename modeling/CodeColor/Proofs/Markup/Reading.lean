import CodeColor.Proofs.Claim.Partition
import CodeColor.Proofs.Language.Colors
import CodeColor.Proofs.Markup.Visible

/-!
Reading markup back. Every `<` of escaped markup is one that rendering wrote, so the markup is cut there,
and each part between two of them is read by itself.

Main statements: `read_markup` and `escaped_markup_shows_tokens`.
-/

namespace CodeColor.Markup

def behindTag (part : List Char) : List Char :=
  (part.dropWhile fun c => c ≠ '>').drop 1

def namedType (part : List Char) : TokenType :=
  ⟨String.ofList ((part.drop "span class=\"".length).takeWhile fun c => c ≠ '"')⟩

def readText (text : List Char) : String := String.ofList (unescape text)

/-- What the part behind a `<` shows. -/
def readPart : List Char → List Shown
  | '/' :: part => plain (readText (behindTag part))
  | part => [(namedType part, readText (behindTag part))]

def read (markup : List Char) : List Shown :=
  match markup.splitOn '<' with
  | [] => []
  | first :: parts => plain (readText first) ++ parts.flatMap readPart

theorem read_without_tags {text : List Char} (tagless : '<' ∉ text) : read text = plain (readText text) := by
  rw [read, List.splitOn_eq_singleton tagless]
  exact List.append_nil _

theorem read_cut {text : List Char} (tagless : '<' ∉ text) (rest : List Char) :
    read (text ++ '<' :: rest) = plain (readText text) ++ (rest.splitOn '<').flatMap readPart := by
  rw [read, List.splitOn_append_cons_self_of_not_mem tagless]

theorem readText_written (text : String) : readText (written true text).toList = text := by
  have whole := unescape_escape text.toList []
  rw [List.append_nil] at whole
  rw [readText, toList_written, whole, unescape, List.append_nil, String.ofList_toList]

theorem behindTag_append {tag : List Char} (open_tag : '>' ∉ tag) (rest : List Char) :
    behindTag (tag ++ '>' :: rest) = rest := by
  have within : ∀ c ∈ tag, decide (c ≠ '>') = true := by
    intro c member
    apply decide_eq_true
    rintro rfl
    exact open_tag member
  unfold behindTag
  rw [List.dropWhile_append_of_pos within, List.dropWhile_cons_of_neg (by decide), List.drop_one,
    List.tail_cons]

theorem namedType_tagText {type : TokenType} (colored : type.color?.isSome) (rest : List Char) :
    namedType (tagText type ++ rest) = type := by
  have entry := TokenType.mem_palette colored
  have within : ∀ c ∈ type.name.toList, decide (c ≠ '"') = true := by
    intro c member
    apply decide_eq_true
    rintro rfl
    exact TokenType.palette_plain entry (List.mem_append_left _ member) (by decide)
  have quote : "\" style=\"color:".toList = '"' :: " style=\"color:".toList := by decide
  unfold namedType tagText
  rw [List.append_assoc, ← String.length_toList, List.drop_left, quote]
  simp only [List.append_assoc, List.cons_append]
  rw [List.takeWhile_append_of_pos within, List.takeWhile_cons_of_neg (by decide), List.append_nil,
    String.ofList_toList]

theorem readPart_element {type : TokenType} (colored : type.color?.isSome) (value : String) :
    readPart (tagText type ++ '>' :: (written true value).toList) = [(type, value)] := by
  have start : "span class=\"".toList = 's' :: "pan class=\"".toList := by decide
  have open_tag : '>' ∉ tagText type := by
    intro member
    exact tagText_plain colored member (by decide)
  have opened : readPart (tagText type ++ '>' :: (written true value).toList) =
      [(namedType (tagText type ++ '>' :: (written true value).toList),
        readText (behindTag (tagText type ++ '>' :: (written true value).toList)))] := by
    unfold tagText
    rw [start]
    rfl
  rw [opened, namedType_tagText colored, behindTag_append open_tag, readText_written]

theorem readPart_closing (text : List Char) :
    readPart ("/span>".toList ++ text) = plain (readText text) := by
  have cut : "/span>".toList ++ text = '/' :: ("span".toList ++ '>' :: text) := rfl
  rw [cut, readPart, behindTag_append (by decide)]

theorem flatMap_readPart_closing (markup : List Char) :
    (("/span>".toList ++ markup).splitOn '<').flatMap readPart = read markup := by
  have whole : '<' ∉ "/span>".toList := by decide
  by_cases tags : '<' ∈ markup
  · obtain ⟨first, rest, rfl, tagless⟩ := List.eq_append_cons_of_mem tags
    have some_part : '<' ∉ "/span>".toList ++ first := by
      intro member
      exact (List.mem_append.1 member).elim whole tagless
    rw [read_cut tagless, ← List.append_assoc, List.splitOn_append_cons_self_of_not_mem some_part,
      List.flatMap_cons, readPart_closing]
  · have some_part : '<' ∉ "/span>".toList ++ markup := by
      intro member
      exact (List.mem_append.1 member).elim whole tags
    rw [read_without_tags tags, List.splitOn_eq_singleton some_part, List.flatMap_cons, readPart_closing,
      List.flatMap_nil, List.append_nil]

theorem read_element {type : TokenType} (colored : type.color?.isSome) (element : type ≠ .text)
    (held value : String) (markup : List Char) :
    read ((written true held).toList ++ (chunk true type value ++ markup)) =
      plain held ++ (type, value) :: read markup := by
  calc
    _ = plain (readText (written true held).toList) ++
        (((tagText type ++ '>' :: (written true value).toList) ++
          '<' :: ("/span>".toList ++ markup)).splitOn '<').flatMap readPart := by
      rw [chunk_element element, read_cut (bracket_not_mem_written held)]
    _ = plain held ++ (readPart (tagText type ++ '>' :: (written true value).toList) ++
        (("/span>".toList ++ markup).splitOn '<').flatMap readPart) := by
      rw [readText_written, List.splitOn_append_cons_self_of_not_mem (bracket_not_mem_element colored value),
        List.flatMap_cons]
    _ = plain held ++ (type, value) :: read markup := by
      rw [readPart_element colored, flatMap_readPart_closing, List.singleton_append]

theorem read_behind (held : String) {tokens : List Token} (colored : Colored tokens) :
    read ((written true held).toList ++ markup true tokens) =
      normal ((.text, held) :: tokens.map fun token => (token.type, token.value)) := by
  induction tokens generalizing held with
  | nil =>
    rw [List.map_nil, normal_plain, markup, List.flatMap_nil, List.append_nil,
      read_without_tags (bracket_not_mem_written held), readText_written]
  | cons token tokens ih =>
    obtain ⟨first, rest⟩ := colored_cons.1 colored
    rw [markup_cons, List.map_cons]
    by_cases text : token.type = .text
    · rw [chunk_text text, ← List.append_assoc, written_append, ih _ rest, text, normal_join]
    · have behind := ih "" rest
      have empty : (written true "").toList = [] := rfl
      rw [empty, List.nil_append, normal_empty] at behind
      rw [read_element first text, behind, normal_plain_element text]

theorem read_markup {tokens : List Token} (colored : Colored tokens) :
    read (markup true tokens) = visible tokens := by
  have whole := read_behind "" colored
  rw [normal_empty] at whole
  exact whole

theorem flatMap_chunk_visible (tokens : List Token) :
    ((visible tokens).flatMap fun part => chunk true part.1 part.2) = markup true tokens := by
  apply flatMap_visible
  · rfl
  · intro first second
    exact (written_append first second).symm

theorem flatMap_value_visible (tokens : List Token) :
    ((visible tokens).flatMap fun part => part.2.toList) =
      (String.join (tokens.map Token.value)).toList := by
  rw [flatMap_visible rfl fun first second => String.toList_append, String.toList_join, List.flatMap_map]

theorem render_eq_iff {first second : List Token} (colored : Colored first) (colored' : Colored second) :
    render true first = render true second ↔ visible first = visible second := by
  rw [render_eq_ok colored, render_eq_ok colored']
  constructor
  · intro same
    have chars : markup true first = markup true second := String.ofList_injective (Except.ok.inj same)
    rw [← read_markup colored, ← read_markup colored', chars]
  · intro same
    rw [← flatMap_chunk_visible first, ← flatMap_chunk_visible second, same]

theorem highlight_injective (language? : Option String) {first second : String}
    (same : highlight language? true first = highlight language? true second) : first = second := by
  rw [highlight_eq_render, highlight_eq_render,
    render_eq_iff (colored_tokenize _ _) (colored_tokenize _ _)] at same
  have values : ∀ code, ((visible (tokenize language? code)).flatMap fun part => part.2.toList) =
      code.toList := by
    intro code
    have covers : Token.Covers code (tokenize language? code) := Grammar.covers_tokenize _ code
    rw [flatMap_value_visible, covers.source]
  apply String.toList_inj.1
  rw [← values first, ← values second, same]

/-- Escaped markup shows its tokens and nothing else: it is the same for two lists of tokens exactly if these
show the same, it can be read back, and no two codes of a language have it in common. -/
theorem escaped_markup_shows_tokens :
    (∀ first second, Colored first → Colored second →
      (render true first = render true second ↔ visible first = visible second)) ∧
    (∀ tokens, Colored tokens →
      ∃ text, render true tokens = .ok text ∧ read text.toList = visible tokens) ∧
    ∀ (language? : Option String) (first second : String),
      highlight language? true first = highlight language? true second → first = second := by
  refine ⟨fun first second => render_eq_iff, ?_, fun language? first second => highlight_injective language?⟩
  intro tokens colored
  refine ⟨_, render_eq_ok colored true, ?_⟩
  rw [String.toList_ofList, read_markup colored]

/-- Two lists that show the same, and values that look like tags and like escaped text. -/
theorem escaped_markup_shows_forged_tags :
    let first : List Token :=
      [⟨.keyword, "</span><span class=\"tag\">", 1, 1⟩, ⟨.text, "", 1, 1⟩, ⟨.string, "", 1, 1⟩, ⟨.text, "&l", 1, 1⟩,
        ⟨.text, "t;</span>", 1, 1⟩]
    let second : List Token :=
      [⟨.keyword, "</span><span class=\"tag\">", 1, 1⟩, ⟨.string, "", 1, 1⟩, ⟨.text, "&lt;</span>", 1, 1⟩]
    render true first = render true second ∧
      (∃ text, render true first = .ok text ∧ read text.toList =
        [(.keyword, "</span><span class=\"tag\">"), (.string, ""), (.text, "&lt;</span>")]) ∧
      highlight (some "json") true "<" ≠ highlight (some "json") true "&lt;" := by
  intro first second
  have colored : Colored first := by decide
  have colored' : Colored second := by decide
  have shown : visible first =
      [(.keyword, "</span><span class=\"tag\">"), (.string, ""), (.text, "&lt;</span>")] := by
    decide +kernel
  have shown' : visible second = visible first := by decide +kernel
  obtain ⟨same, readable, injective⟩ := escaped_markup_shows_tokens
  refine ⟨(same first second colored colored').2 shown'.symm, ?_, ?_⟩
  · rw [← shown]
    exact readable first colored
  · intro forged
    exact absurd (injective _ _ _ forged) (by decide)

end CodeColor.Markup
