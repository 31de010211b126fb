import CodeColor.Highlight
import CodeColor.Proofs.Claim.Place
import CodeColor.Proofs.Claim.Refinement
import CodeColor.Proofs.Markup.Colored

/-!
Every token of the five languages has a colour, so highlighting does not fail.

Main statements: `colored_tokenize`, `highlight_eq_render` and `highlight_renders_tokens`.
-/

namespace CodeColor

theorem Language.colored_rule (language : Language) :
    ∀ rule ∈ language.grammar, rule.type.color?.isSome := by
  cases language <;> decide

theorem Piece.colored_tokenType {piece : Piece}
    (colored : ∀ type, piece.type? = some type → type.color?.isSome) :
    piece.tokenType.color?.isSome := by
  have plain : TokenType.text.color?.isSome := by decide
  unfold Piece.tokenType
  split
  next => exact plain
  next type typed =>
    split
    · exact plain
    · exact colored type typed

theorem Grammar.colored_tokenize {grammar : Grammar}
    (colored : ∀ rule ∈ grammar, rule.type.color?.isSome) (code : String) :
    Colored (grammar.tokenize code) := by
  intro token member
  unfold Grammar.tokenize at member
  split at member
  next => cases member
  next =>
    obtain ⟨before, piece, stands, rfl⟩ := Piece.mem_ofPieces.1 member
    apply Piece.colored_tokenType
    intro type typed
    obtain ⟨rule, listed, rfl⟩ := grammar.exists_rule_of_mem_claim stands.mem typed
    exact colored rule listed

theorem colored_tokenize (language? : Option String) (code : String) :
    Colored (tokenize language? code) := by
  apply Grammar.colored_tokenize
  intro rule member
  unfold Grammar.named? at member
  cases found : language?.bind Language.ofName? with
  | none =>
    rw [found] at member
    cases member
  | some language =>
    rw [found] at member
    exact language.colored_rule rule member

theorem tokenize_without_rules (code : String) :
    Grammar.tokenize [] code = if code = "" then [] else [⟨.text, code, 1, 1⟩] := by
  unfold Grammar.tokenize
  split
  · rfl
  · change [Token.mk .text (String.ofList code.toList) 1 1] = _
    rw [String.ofList_toList]

theorem render_without_rules (escaped : Bool) (code : String) :
    Markup.render escaped (Grammar.tokenize [] code) = .ok (Markup.written escaped code) := by
  rw [tokenize_without_rules]
  split
  next empty =>
    subst empty
    cases escaped <;> rfl
  next =>
    change Except.ok (String.join [Markup.written escaped code]) = _
    rw [String.join_cons, String.join_nil, String.append_empty]

theorem highlight_eq_render (language? : Option String) (escaped : Bool) (code : String) :
    highlight language? escaped code = Markup.render escaped (tokenize language? code) := by
  unfold highlight tokenize
  cases Grammar.named? language? with
  | none => exact (render_without_rules escaped code).symm
  | some grammar => rfl

theorem Grammar.named?_eq_none {language? : Option String}
    (other : ∀ language : Language, language? ≠ some language.name) : named? language? = none := by
  cases language? with
  | none => rfl
  | some name =>
    have absent : Language.ofName? name = none := by
      refine List.find?_eq_none.2 fun language _ named => ?_
      exact other language (congrArg some (of_decide_eq_true named).symm)
    rw [named?, Option.bind_some, absent]
    rfl

/-- Highlighting gives markup for every code in every language, and it is the markup of the tokens, which all have
colours. In what is none of the five languages there is at most one token, and the code stays as it is. -/
theorem highlight_renders_tokens (language? : Option String) (escaped : Bool) (code : String) :
    ∃ markup, highlight language? escaped code = .ok markup ∧
      Markup.render escaped (tokenize language? code) = .ok markup ∧
      (∀ token ∈ tokenize language? code, token.type.color?.isSome) ∧
      ((∀ language : Language, language? ≠ some language.name) →
        tokenize language? code = (if code = "" then [] else [⟨.text, code, 1, 1⟩]) ∧
          markup = Markup.written escaped code) := by
  have colored := colored_tokenize language? code
  have rendered := Markup.render_eq_ok colored escaped
  have highlighted := (highlight_eq_render language? escaped code).trans rendered
  refine ⟨_, highlighted, rendered, colored, fun other => ?_⟩
  have absent := Grammar.named?_eq_none other
  constructor
  · rw [tokenize, absent]
    exact tokenize_without_rules code
  · rw [highlight, absent] at highlighted
    exact (Except.ok.inj highlighted).symm

/-- The name of a language in capitals is none of the five names. -/
theorem highlight_renders_tokens_of_capital_name :
    (∀ language : Language, some "JS" ≠ some language.name) ∧
      ∃ markup, highlight (some "JS") true "<b>" = .ok markup ∧
        Markup.render true (tokenize (some "JS") "<b>") = .ok markup ∧
        tokenize (some "JS") "<b>" = [⟨.text, "<b>", 1, 1⟩] ∧ markup = "&lt;b&gt;" := by
  have other : ∀ language : Language, some "JS" ≠ some language.name := by
    intro language
    cases language <;> decide
  obtain ⟨markup, highlighted, rendered, -, plain⟩ := highlight_renders_tokens (some "JS") true "<b>"
  exact ⟨other, markup, highlighted, rendered, plain other⟩

end CodeColor
