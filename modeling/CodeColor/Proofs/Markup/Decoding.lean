import CodeColor.Proofs.Language.Colors

/-!
Escaped markup and raw markup side by side. What rendering writes of its own holds no `&`, so one pass that reads
the references back changes the values only, and no reference comes about where two parts meet.

Main statements: `unescape_markup` and `decoded_markup_is_raw`.
-/

namespace CodeColor.Markup

theorem unescape_written (text : String) (rest : List Char) :
    unescape ((written true text).toList ++ rest) = (written false text).toList ++ unescape rest := by
  rw [toList_written]
  exact unescape_escape text.toList rest

theorem reference_not_mem_tag {type : TokenType} (colored : type.color?.isSome) :
    '&' ∉ '<' :: (tagText type ++ ['>']) := by
  intro member
  rw [List.mem_cons, List.mem_append] at member
  rcases member with same | inside | same
  · exact absurd same (by decide)
  · exact tagText_plain colored inside List.mem_cons_self
  · exact absurd same (by decide)

theorem unescape_chunk {type : TokenType} (colored : type.color?.isSome) (value : String) (rest : List Char) :
    unescape (chunk true type value ++ rest) = chunk false type value ++ unescape rest := by
  by_cases text : type = .text
  · rw [chunk_text text, chunk_text text]
    exact unescape_written value rest
  · have closing : '&' ∉ "</span>".toList := by decide
    rw [chunk_parts text, chunk_parts text, unescape_append (reference_not_mem_tag colored), unescape_written,
      unescape_append closing]

theorem unescape_markup {tokens : List Token} (colored : Colored tokens) (rest : List Char) :
    unescape (markup true tokens ++ rest) = markup false tokens ++ unescape rest := by
  induction tokens with
  | nil => rfl
  | cons token tokens ih =>
    obtain ⟨first, others⟩ := colored_cons.1 colored
    calc
      _ = unescape (chunk true token.type token.value ++ (markup true tokens ++ rest)) := by
        rw [markup_cons, List.append_assoc]
      _ = chunk false token.type token.value ++ unescape (markup true tokens ++ rest) :=
        unescape_chunk first token.value _
      _ = chunk false token.type token.value ++ (markup false tokens ++ unescape rest) := by rw [ih others]
      _ = markup false (token :: tokens) ++ unescape rest := by rw [markup_cons, List.append_assoc]

/-- One pass over escaped markup that replaces the references by their characters gives the raw markup, for
tokens of any values and for code in any language. -/
theorem decoded_markup_is_raw :
    (∀ tokens, Colored tokens →
      ∃ escaped raw, render true tokens = .ok escaped ∧ render false tokens = .ok raw ∧
        unescape escaped.toList = raw.toList) ∧
    ∀ (language? : Option String) (code : String),
      ∃ escaped raw, highlight language? true code = .ok escaped ∧ highlight language? false code = .ok raw ∧
        unescape escaped.toList = raw.toList := by
  have rendered : ∀ tokens, Colored tokens →
      ∃ escaped raw, render true tokens = .ok escaped ∧ render false tokens = .ok raw ∧
        unescape escaped.toList = raw.toList := by
    intro tokens colored
    have whole := unescape_markup colored []
    have done : unescape [] = [] := by rw [unescape]
    rw [done, List.append_nil, List.append_nil] at whole
    refine ⟨_, _, render_eq_ok colored true, render_eq_ok colored false, ?_⟩
    rw [String.toList_ofList, String.toList_ofList]
    exact whole
  refine ⟨rendered, ?_⟩
  intro language? code
  rw [highlight_eq_render, highlight_eq_render]
  exact rendered (tokenize language? code) (colored_tokenize language? code)

/-- References that the values hold, or that they would make up between them, are read back by one level only. -/
theorem decoded_markup_is_raw_of_references :
    let tokens : List Token :=
      [⟨.operator, "&", 1, 1⟩, ⟨.text, "lt", 1, 2⟩, ⟨.text, ";", 1, 4⟩, ⟨.string, "&amp;lt;</span>", 1, 5⟩]
    Colored tokens ∧
      (∃ escaped raw, render true tokens = .ok escaped ∧ render false tokens = .ok raw ∧
        unescape escaped.toList = raw.toList) ∧
      ∃ escaped raw, highlight (some "css") true "a &amp;lt; b" = .ok escaped ∧
        highlight (some "css") false "a &amp;lt; b" = .ok raw ∧ unescape escaped.toList = raw.toList ∧
        raw = "a &amp;lt; b" := by
  intro tokens
  have colored : Colored tokens := by decide
  obtain ⟨rendered, highlighted⟩ := decoded_markup_is_raw
  obtain ⟨escaped, raw, first, second, decoded⟩ := highlighted (some "css") "a &amp;lt; b"
  have plain : (highlight (some "css") false "a &amp;lt; b").toOption = some "a &amp;lt; b" := by decide +kernel
  have same : raw = "a &amp;lt; b" := by
    rw [second] at plain
    exact Option.some.inj plain
  exact ⟨colored, rendered tokens colored, escaped, raw, first, second, decoded, same⟩

end CodeColor.Markup
