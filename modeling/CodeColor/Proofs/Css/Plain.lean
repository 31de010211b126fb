import CodeColor.Language.Basic
import CodeColor.Proofs.Claim.Gap
import CodeColor.Proofs.Css.Stylesheet
import CodeColor.Proofs.Pattern.Words

/-!
Plain stylesheets under the grammar of CSS: the rules take out of them one selector for each block, and the property
and the value of each declaration.

Main statement: `tokenize_stylesheet`.
-/

namespace CodeColor.Css

open Language.Css Pattern Piece
open Text (Blank OffBlank)

theorem selectorCharacter_eq : selectorCharacter = isSelectorPart := by
  funext c
  change (CharSet.alphanumeric c || _) = _
  rw [CharSet.alphanumeric_eq]
  rfl

theorem propertyCharacter_eq : propertyCharacter = isPropertyPart := by
  funext c
  change (CharSet.letter c || ['-'].contains c) = _
  rw [CharSet.letter_eq]
  simp [isPropertyPart]

theorem isSelectorPart_of_isPropertyPart {c : Char} (part : isPropertyPart c = true) : isSelectorPart c = true := by
  simp only [isPropertyPart, Bool.or_eq_true, decide_eq_true_eq] at part
  rcases part with letter | rfl
  · simp [isSelectorPart, Char.isAlphanum, letter]
  · decide

/-! ## All parts of a stylesheet -/

/-- A name may start behind the text. -/
def Fresh (before : List Char) : Prop :=
  startsIn isSelectorPart before = false

theorem Fresh.behind_space {before space : List Char} (fresh : Fresh before) (blank : Blank space) :
    Fresh (space.reverse ++ before) := by
  have outside : ∀ c ∈ space, isSelectorPart c = false := blank.off (by decide)
  exact startsIn_reverse_append_of_not outside fresh

/-- What a rule does with each part of a stylesheet, wherever the part stands. -/
structure Reads (rule : Rule) (seen : List TokenType) : Prop where
  space {before space : List Char} (fresh : Fresh before) (blank : Blank space) (rest : List Char) :
    rule.Misses before space rest
  brace {before : List Char} (fresh : Fresh before) (rest : List Char) : rule.Misses before ['}'] rest
  selector {before : List Char} {row : List Piece} (fresh : Fresh before) (name : Name isSelectorPart)
    (onward : rule.Carves seen ((name.upTo '{').reverse ++ before) row) :
    rule.Carves seen before (⟨name.upTo '{', some .selector⟩ :: row)
  body {before : List Char} {row : List Piece} (fresh : Fresh before) (declaration : Declaration)
    (onward : rule.Carves seen (declaration.value.reverse ++ ((declaration.property.upTo ':').reverse ++ before))
      (⟨[';'], none⟩ :: row)) :
    rule.Carves seen before (declaration.body ++ row)
  semicolon (declaration : Declaration) (before rest : List Char) :
    rule.Misses (declaration.value.reverse ++ before) [';'] rest

def border : Border := ⟨Fresh, fun _ => True⟩

namespace Reads

variable {rule : Rule} {seen : List TokenType} (reads : Reads rule seen)

include reads

theorem passes_space {space : List Char} (blank : Blank space) : rule.Passes seen border [⟨space, none⟩] where
  behind fresh := by
    rw [source_cons, source_nil, List.append_nil]
    exact fresh.behind_space blank
  ahead _ := trivial
  carves fresh _ onward := by
    rw [source_cons, source_nil, List.append_nil] at onward
    exact .missed rfl (reads.space fresh blank _) onward

theorem passes_brace : rule.Passes seen border [⟨['}'], none⟩] where
  behind _ := rfl
  ahead _ := trivial
  carves fresh _ onward := .missed rfl (reads.brace fresh _) onward

theorem passes_selector (name : Name isSelectorPart) :
    rule.Passes seen border [⟨name.upTo '{', some .selector⟩] where
  behind _ := by
    have mark : isSelectorPart '{' = false := by decide
    simpa [border, Fresh, Piece.source, Name.upTo, startsIn] using mark
  ahead _ := trivial
  carves fresh _ onward := by
    rw [source_cons, source_nil, List.append_nil] at onward
    exact reads.selector fresh name onward

theorem passes_body (declaration : Declaration) : rule.Passes seen border declaration.body where
  behind _ := by
    have mark : isSelectorPart ';' = false := by decide
    simpa [border, Fresh, Piece.source, Declaration.body, startsIn] using mark
  ahead _ := trivial
  carves fresh _ onward := by
    apply reads.body fresh declaration
    apply Rule.Carves.missed rfl (reads.semicolon declaration _ _)
    simpa [Piece.source, Declaration.body] using onward

theorem passes_block (block : Block) : rule.Passes seen border block.pieces := by
  have declarations : rule.Passes seen border (block.declarations.flatMap Declaration.pieces) := by
    apply Rule.Passes.flatMap
    intro declaration _
    exact (reads.passes_space declaration.blank_space).append (reads.passes_body declaration)
  have closing := (reads.passes_space block.blank_closing).append reads.passes_brace
  have opening := reads.passes_selector block.selector
  exact (reads.passes_space block.blank_space).append (opening.append (declarations.append closing))

theorem carves_sheet (sheet : Stylesheet) : rule.Carves seen [] sheet.pieces := by
  have blocks : rule.Passes seen border (sheet.blocks.flatMap Block.pieces) :=
    Rule.Passes.flatMap fun block _ => reads.passes_block block
  have whole := blocks.append (reads.passes_space sheet.blank_trailing)
  exact whole.carves_row rfl trivial

end Reads

theorem reads_of_opensAt {rule : Rule} {set : CharSet} (types : List TokenType) (opens : rule.pattern.OpensAt set)
    (off : OffBlank set) (brace : set '}' = false) (semicolon : set ';' = false) :
    Reads rule (types ++ [.value, .property, .selector, .comment]) := by
  have seen : ∀ {type : TokenType} (text : List Char), type ∈ [TokenType.value, .property, .selector, .comment] →
      isSeen (types ++ [.value, .property, .selector, .comment]) ⟨text, some type⟩ = true := by
    intro type text member
    have member : type ∈ types ++ [.value, .property, .selector, .comment] := List.mem_append_right types member
    simpa [isSeen] using member
  constructor
  case space => exact fun _ blank rest => Rule.misses_of_opensAt opens (blank.off off) _ rest
  case brace => exact fun _ rest => Rule.misses_mark opens brace _ rest
  case selector => exact fun _ name onward => .seen (seen _ (by simp)) onward
  case body => exact fun _ _ onward => .seen (seen _ (by simp)) (.seen (seen _ (by simp)) onward)
  case semicolon => exact fun _ _ rest => Rule.misses_mark opens semicolon _ rest

/-! ## Names up to a mark -/

/-- A name that is not the end of a longer one, up to the mark. -/
def upTo (isPart : CharSet) (mark : Char) : Pattern :=
  guard (.notAfter isPart) ++ oneOrMore isPart ++ many .blank ++ literal [mark]

theorem selector_eq : Language.Css.selector = upTo isSelectorPart '{' := by
  rw [← selectorCharacter_eq]
  rfl

theorem property_eq : Language.Css.property = upTo isPropertyPart ':' := by
  rw [← propertyCharacter_eq]
  rfl

section

variable {isPart : CharSet} {mark : Char}

theorem upTo_opensAt : (upTo isPart mark).OpensAt isPart :=
  ((OpensAt.guard _ (OpensAt.one.append _)).append _).append _

theorem upTo_match (name : Name isPart) (off : OffBlank isPart) (outside : isPart.or .blank mark = false)
    {before : List Char} (free : startsIn isPart before = false) (rest : List Char) :
    (upTo isPart mark).matchLength? before (name.upTo mark ++ rest) = some (name.upTo mark).length := by
  obtain ⟨part, space⟩ := Bool.or_eq_false_iff.1 outside
  have ends : startsIn CharSet.blank (mark :: rest) = false := space
  have stops : startsIn isPart (name.gap ++ mark :: rest) = false := by
    cases gap : name.gap with
    | nil => exact part
    | cons c gap => exact name.blank_gap.off off c (by rw [gap]; exact List.mem_cons_self)
  have marked : (literal [mark]).run accept
      ⟨name.gap.reverse ++ (name.letters.reverse ++ before), mark :: rest,
        0 + name.letters.length + name.gap.length⟩ =
      some ⟨mark :: (name.gap.reverse ++ (name.letters.reverse ++ before)), rest,
        0 + name.letters.length + name.gap.length + 1⟩ :=
    (run_literal [mark] _ rest _).trans (accept_eq_some (Nat.succ_ne_zero _))
  have spaced := run_many_greedy name.blank_gap ends _ _ marked
  have named := run_oneOrMore_greedy name.some_letters name.parts stops spaced
  have guarded : Guard.holds (.notAfter isPart) ⟨before, name.letters ++ (name.gap ++ mark :: rest), 0⟩ = true := by
    simp [Guard.holds, free]
  have split : name.upTo mark ++ rest = name.letters ++ (name.gap ++ mark :: rest) := by simp [Name.upTo]
  have size : 0 + name.letters.length + name.gap.length + 1 = (name.upTo mark).length := by
    simp [Name.upTo]
    omega
  rw [matchLength?_eq_run, upTo, split, run_append, run_append, run_append, run_guard guarded, named,
    Option.map_some, size]

theorem not_mem_upTo (name : Name isPart) {c : Char} (outside : isPart.or .blank c = false) (other : c ≠ mark) :
    c ∉ name.upTo mark := by
  obtain ⟨part, space⟩ := Bool.or_eq_false_iff.1 outside
  intro member
  simp only [Name.upTo, List.mem_append, List.mem_singleton] at member
  rcases member with letter | gap | same
  · exact CharSet.not_mem name.parts part letter
  · exact CharSet.not_mem name.blank_gap space gap
  · exact other same

theorem upTo_misses {rule : Rule} (same : rule.pattern = upTo isPart mark) {c : Char}
    (outside : isPart.or .blank c = false) (other : c ≠ mark) {gap : List Char} (absent : mark ∉ gap)
    (before rest : List Char) : rule.Misses before gap (c :: rest) := by
  have letters : ∀ d, isPart d = true → isPart.or .blank d = true := fun d inside => by simp [CharSet.or, inside]
  have blanks : ∀ d, CharSet.blank d = true → isPart.or .blank d = true := fun d inside => by simp [CharSet.or, inside]
  have only : (guard (.notAfter isPart) ++ oneOrMore isPart ++ many .blank).TakesOnly (isPart.or .blank) :=
    ((TakesOnly.guard _).append ((TakesOnly.one letters).append (.many letters))).append (.many blanks)
  exact Rule.misses_of_leadsTo same only absent (leadsTo_cons_of_not outside other rest) before

end

/-! ## The rules -/

def commentRule : Rule := ⟨"comment", Language.Lexeme.enclosedComment "/*" "*/", .comment⟩

def selectorRule : Rule := ⟨"selector", Language.Css.selector, .selector⟩

def propertyRule : Rule := ⟨"property", Language.Css.property, .property⟩

def valueRule : Rule := ⟨"value", Language.Css.value, .value⟩

def unitRule : Rule := ⟨"unit", measure, .number⟩

def stringRule : Rule := ⟨"string", Language.Lexeme.plainString, .string⟩

theorem Declaration.not_mem_value (declaration : Declaration) {c : Char} (mark : isValuePart c = false) :
    c ∉ declaration.value :=
  CharSet.not_mem declaration.parts mark

theorem reads_selectors : Reads selectorRule [.comment] := by
  have same : selectorRule.pattern = upTo isSelectorPart '{' := selector_eq
  have opens : selectorRule.pattern.OpensAt isSelectorPart := by
    rw [same]
    exact upTo_opensAt
  have brace : CharSet.or isSelectorPart .blank '{' = false := by decide
  constructor
  case space => exact fun _ blank rest => Rule.misses_of_opensAt opens (blank.off (by decide)) _ rest
  case brace => exact fun _ rest => Rule.misses_mark opens (by decide) _ rest
  case selector =>
    intro before row fresh name onward
    have here := upTo_match name (by decide) brace fresh (openText [.comment] row)
    rw [← same] at here
    exact .matched (by decide) (name.upTo_ne_nil '{') here onward
  case body =>
    intro before row _ declaration onward
    have absent : '{' ∉ declaration.property.upTo ':' ++ declaration.value := by
      rw [List.mem_append, not_or]
      exact ⟨not_mem_upTo _ (by decide) (by decide), declaration.not_mem_value (by decide)⟩
    have missed : selectorRule.Misses before (declaration.property.upTo ':' ++ declaration.value)
        (';' :: openText [.comment] row) := upTo_misses same (by decide) (by decide) absent _ _
    obtain ⟨property, value⟩ := Rule.misses_append.1 missed
    exact .missed rfl property (.missed rfl value onward)
  case semicolon => exact fun _ _ rest => Rule.misses_mark opens (by decide) _ rest

theorem reads_properties : Reads propertyRule [.selector, .comment] := by
  have same : propertyRule.pattern = upTo isPropertyPart ':' := property_eq
  have opens : propertyRule.pattern.OpensAt isPropertyPart := by
    rw [same]
    exact upTo_opensAt
  constructor
  case space => exact fun _ blank rest => Rule.misses_of_opensAt opens (blank.off (by decide)) _ rest
  case brace => exact fun _ rest => Rule.misses_mark opens (by decide) _ rest
  case selector => exact fun _ name onward => .seen rfl onward
  case body =>
    intro before row fresh declaration onward
    have free : startsIn isPropertyPart before = false :=
      startsIn_anti (fun _ => isSelectorPart_of_isPropertyPart) fresh
    have colon : CharSet.or isPropertyPart .blank ':' = false := by decide
    have property := upTo_match declaration.property (by decide) colon free
      (openText [.selector, .comment] (⟨declaration.value, some .value⟩ :: ⟨[';'], none⟩ :: row))
    rw [← same] at property
    have value : propertyRule.Misses ((declaration.property.upTo ':').reverse ++ before) declaration.value
        (';' :: openText [.selector, .comment] row) :=
      upTo_misses same (by decide) (by decide) (declaration.not_mem_value (by decide)) _ _
    exact .matched (by decide) (declaration.property.upTo_ne_nil ':') property (.missed rfl value onward)
  case semicolon => exact fun _ _ rest => Rule.misses_mark opens (by decide) _ rest

def colon : CharSet := .among [':']

theorem colon_of_ne {c : Char} (other : c ≠ ':') : colon c = false := by
  simpa [colon, CharSet.among] using other

theorem value_misses {before gap : List Char} (free : startsIn colon before = false) (absent : ':' ∉ gap)
    (rest : List Char) : valueRule.Misses before gap rest := by
  intro passed c later split
  have other : ∀ d ∈ gap, d ≠ ':' := fun d member same => absent (same ▸ member)
  have behind : startsIn colon (passed.reverse ++ before) = false :=
    startsIn_reverse_append_of_not (fun d member => colon_of_ne (other d (by simp [split, member]))) free
  have leads : ¬ [':'] <+: c :: later ++ rest :=
    fun leads => other c (by simp [split]) (List.cons_prefix_cons.1 leads).1.symm
  have guarded : Guard.holds (.after colon) ⟨passed.reverse ++ before, c :: later ++ rest, 0⟩ = false := behind
  change ((exactly ":" ||| guard (.after colon)) ++ oneOrMore (.except [';', '}'])).matchLength? _ _ = none
  rw [matchLength?_eq_run, run_append, run_or, exactly, run_literal_absent leads, run_guard_absent guarded]
  rfl

theorem value_match (before : List Char) (declaration : Declaration) (rest : List Char) :
    valueRule.pattern.matchLength? (':' :: before) (declaration.value ++ ';' :: rest) =
      some declaration.value.length := by
  have leads : ¬ [':'] <+: declaration.value ++ ';' :: rest := by
    intro leads
    obtain ⟨c, value, same⟩ := List.exists_cons_of_ne_nil declaration.some_value
    rw [same] at leads
    have member : ':' ∈ declaration.value := by
      rw [same, (List.cons_prefix_cons.1 leads).1]
      exact List.mem_cons_self
    exact declaration.not_mem_value (by decide) member
  have guarded : Guard.holds (.after colon) ⟨':' :: before, declaration.value ++ ';' :: rest, 0⟩ = true := rfl
  have inside : ∀ c ∈ declaration.value, CharSet.except [';', '}'] c = true := by
    intro c member
    have semicolon : c ≠ ';' := fun same => declaration.not_mem_value (c := ';') (by decide) (same ▸ member)
    have brace : c ≠ '}' := fun same => declaration.not_mem_value (c := '}') (by decide) (same ▸ member)
    simp [CharSet.except, semicolon, brace]
  have stops : startsIn (.except [';', '}']) (';' :: rest) = false := rfl
  have some_taken : 0 + declaration.value.length ≠ 0 := by
    have positive := List.length_pos_iff.2 declaration.some_value
    omega
  have taken : (oneOrMore (.except [';', '}'])).run accept ⟨':' :: before, declaration.value ++ ';' :: rest, 0⟩ =
      some ⟨declaration.value.reverse ++ ':' :: before, ';' :: rest, 0 + declaration.value.length⟩ :=
    run_oneOrMore_greedy declaration.some_value inside stops (accept_eq_some some_taken)
  change ((exactly ":" ||| guard (.after colon)) ++ oneOrMore (.except [';', '}'])).matchLength? _ _ = _
  rw [matchLength?_eq_run, run_append, run_or, exactly, run_literal_absent leads, run_guard guarded, taken]
  simp

theorem Fresh.not_colon {before : List Char} (fresh : Fresh before) : startsIn colon before = false := by
  have part : ∀ c, colon c = true → isSelectorPart c = true := by
    intro c member
    have same : c = ':' := by simpa [colon, CharSet.among] using member
    rw [same]
    rfl
  exact startsIn_anti part fresh

theorem Declaration.not_colon_behind_value (declaration : Declaration) (before : List Char) :
    startsIn colon (declaration.value.reverse ++ before) = false := by
  obtain ⟨c, value, same⟩ := List.exists_cons_of_ne_nil declaration.some_value
  have other : ∀ d ∈ c :: value, colon d = false := by
    intro d member
    apply colon_of_ne
    rintro rfl
    exact declaration.not_mem_value (by decide) (same ▸ member)
  obtain ⟨first, others⟩ := List.forall_mem_cons.1 other
  rw [same, List.reverse_cons, List.append_assoc]
  exact startsIn_reverse_append_of_not others first

theorem reads_values : Reads valueRule [.property, .selector, .comment] := by
  constructor
  case space =>
    intro before space fresh blank rest
    exact value_misses fresh.not_colon (CharSet.not_mem blank (by decide)) rest
  case brace => exact fun fresh rest => value_misses fresh.not_colon (by simp) rest
  case selector => exact fun _ name onward => .seen rfl onward
  case body =>
    intro before row _ declaration onward
    have last : (declaration.property.upTo ':').reverse ++ before =
        ':' :: (declaration.property.gap.reverse ++ (declaration.property.letters.reverse ++ before)) := by
      simp [Name.upTo]
    have value := value_match (declaration.property.gap.reverse ++ (declaration.property.letters.reverse ++ before))
      declaration (openText [.property, .selector, .comment] row)
    rw [← last] at value
    exact .seen rfl (.matched (by decide) declaration.some_value value onward)
  case semicolon =>
    intro declaration before rest
    exact value_misses (declaration.not_colon_behind_value before) (by simp) rest

theorem comment_misses_value (declaration : Declaration) (before rest : List Char) :
    commentRule.Misses before declaration.value (';' :: rest) := by
  apply Rule.misses_of_no_opener rfl
  intro passed c later split
  change ¬ ['/', '*'] <+: c :: later ++ ';' :: rest
  intro leads
  obtain ⟨rfl, behind⟩ := List.cons_prefix_cons.1 leads
  cases later with
  | nil => exact absurd (List.cons_prefix_cons.1 behind).1 (by decide)
  | cons d later =>
    obtain ⟨rfl, -⟩ := List.cons_prefix_cons.1 behind
    apply declaration.no_comment
    rw [split]
    exact ⟨passed, later, by simp⟩

theorem reads_comments : Reads commentRule [] := by
  have opens : commentRule.pattern.OpensAt (.among ['/']) := ((OpensAt.literal rfl _).append _).append _
  have off : OffBlank (.among ['/']) := by decide
  have name_misses : ∀ {isPart : CharSet} (mark : Char) (name : Name isPart), isPart.or .blank '/' = false →
      '/' ≠ mark → ∀ before rest, commentRule.Misses before (name.upTo mark) rest := by
    intro isPart mark name outside other before rest
    apply Rule.misses_of_opensAt opens
    intro c member
    have distinct : c ≠ '/' := fun same => not_mem_upTo name outside other (same ▸ member)
    simpa [CharSet.among] using distinct
  constructor
  case space => exact fun _ blank rest => Rule.misses_of_opensAt opens (blank.off off) _ rest
  case brace => exact fun _ rest => Rule.misses_mark opens (by decide) _ rest
  case selector => exact fun _ name onward => .missed rfl (name_misses '{' name (by decide) (by decide) _ _) onward
  case body =>
    intro before row _ declaration onward
    have property := name_misses ':' declaration.property (by decide) (by decide) before
      (openText [] (⟨declaration.value, some .value⟩ :: ⟨[';'], none⟩ :: row))
    have value := comment_misses_value declaration ((declaration.property.upTo ':').reverse ++ before)
      (openText [] row)
    exact .missed rfl property (.missed rfl value onward)
  case semicolon => exact fun _ _ rest => Rule.misses_mark opens (by decide) _ rest

theorem reads_units : Reads unitRule [.value, .property, .selector, .comment] := by
  have opens : unitRule.pattern.OpensAt .digit := (((OpensAt.guard _ (OpensAt.one.append _))).append _).append _
  exact reads_of_opensAt [] opens (by decide) (by decide) (by decide)

theorem reads_strings : Reads stringRule [.number, .value, .property, .selector, .comment] :=
  reads_of_opensAt [.number] plainString_opensAt (by decide) (by decide) (by decide)

/-! ## The tokens -/

/-- The tokens of a plain stylesheet, plain text left out: of each block the selector, and of each declaration the
property and the value. No token is of another type. -/
theorem tokenize_stylesheet (sheet : Stylesheet) :
    Token.lexemes (tokenize (some "css") (String.ofList sheet.text)) = sheet.lexemes ∧
      ∀ token ∈ tokenize (some "css") (String.ofList sheet.text),
        token.type ∈ [TokenType.text, .value, .property, .selector] := by
  have carves : Grammar.Carves [] sheet.pieces Language.Css.grammar :=
    ⟨reads_comments.carves_sheet sheet, reads_selectors.carves_sheet sheet, reads_properties.carves_sheet sheet,
      reads_values.carves_sheet sheet, reads_units.carves_sheet sheet, reads_strings.carves_sheet sheet, trivial⟩
  have tokens : Token.lexemes (tokenize (some "css") (String.ofList (source sheet.pieces))) = sheet.lexemes :=
    Language.css.lexemes_tokenize carves sheet.filterMap_pieces (by decide) fun _ => Stylesheet.mem_lexemes
  rw [sheet.source_pieces] at tokens
  refine ⟨tokens, ?_⟩
  intro token member
  by_cases plain : token.type = .text
  · exact plain ▸ List.mem_cons_self
  · have found := Token.mem_lexemes.2 ⟨token, member, plain, rfl⟩
    rw [tokens] at found
    exact List.mem_cons_of_mem _ (Stylesheet.mem_lexemes found).1

def sampleSheet : Stylesheet where
  blocks := [⟨[], ⟨"a:hover".toList, [' '], by decide, List.all_eq_true.1 (by decide), by decide⟩,
      [⟨[' '], ⟨"width".toList, [' '], by decide, List.all_eq_true.1 (by decide), by decide⟩, " 10px".toList,
          by decide, by decide, List.all_eq_true.1 (by decide), by decide⟩,
        ⟨['\n'], ⟨"content".toList, [], by decide, List.all_eq_true.1 (by decide), Text.blank_nil⟩, "\"1/2\"".toList,
          by decide, by decide, List.all_eq_true.1 (by decide), by decide⟩],
      [' '], Text.blank_nil, by decide⟩,
    ⟨['\n'], ⟨"#b.c".toList, [], by decide, List.all_eq_true.1 (by decide), Text.blank_nil⟩, [], [], by decide,
      Text.blank_nil⟩]
  trailing := ['\n']
  blank_trailing := by decide

theorem tokenize_stylesheet_sample :
    let code := "a:hover \x7b width : 10px;\ncontent:\"1/2\"; \x7d\n#b.c\x7b\x7d\n"
    sampleSheet.text = code.toList ∧ Token.lexemes (tokenize (some "css") code) =
      [(.selector, "a:hover \x7b"), (.property, "width :"), (.value, " 10px"), (.property, "content:"),
        (.value, "\"1/2\""), (.selector, "#b.c\x7b")] := by
  intro code
  have text : sampleSheet.text = code.toList := by decide
  have tokens := (tokenize_stylesheet sampleSheet).1
  rw [text, String.ofList_toList] at tokens
  refine ⟨text, tokens.trans ?_⟩
  decide

end CodeColor.Css
