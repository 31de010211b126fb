import CodeColor.Proofs.Claim.Carving
import CodeColor.Proofs.Claim.Leftover
import CodeColor.Proofs.Language.Colors
import CodeColor.Proofs.Pattern.Spelling
import CodeColor.Proofs.Pattern.Words
import Mathlib.Data.List.Infix

/-!
Taking the tags out of markup that is not escaped. Values may hold parts of tags. A tag has no second `<`, so one
that starts in a value ends before the next tag that rendering wrote, and the values alone hold it already.

Main statements: `strips_strip`, `remainder_markup` and `stripped_markup_is_source`.
-/

namespace CodeColor

namespace Pattern

def times (set : CharSet) : Nat → Pattern
  | 0 => nothing
  | count + 1 => one set ++ times set count

theorem run_times {set : CharSet} {next : Cursor → Option Cursor} {text : List Char}
    (inside : ∀ c ∈ text, set c = true) (before rest : List Char) (taken : Nat) :
    (times set text.length).run next ⟨before, text ++ rest, taken⟩ =
      next ⟨text.reverse ++ before, rest, taken + text.length⟩ := by
  induction text generalizing before taken with
  | nil => rfl
  | cons c text ih =>
    obtain ⟨first, others⟩ := List.forall_mem_cons.1 inside
    rw [List.length_cons, times, run_append, List.cons_append, run_one first, ih others, List.reverse_cons,
      List.append_assoc, Nat.add_assoc, Nat.add_comm 1]
    rfl

theorem Spells.of_times {set : CharSet} {count : Nat} {text : List Char}
    (spelled : (times set count).Spells text) : text.length = count ∧ ∀ c ∈ text, set c = true := by
  induction count generalizing text with
  | zero =>
    have empty : text = [] := spelled
    subst empty
    exact ⟨rfl, by simp⟩
  | succ count ih =>
    obtain ⟨_, behind, rfl, ⟨c, inside, rfl⟩, further⟩ := spelled
    obtain ⟨size, others⟩ := ih further
    exact ⟨congrArg Nat.succ size, List.forall_mem_cons.2 ⟨inside, others⟩⟩

theorem Spells.of_oneOrMore {set : CharSet} {text : List Char} (spelled : (oneOrMore set).Spells text) :
    text ≠ [] ∧ ∀ c ∈ text, set c = true := by
  obtain ⟨_, behind, rfl, ⟨c, inside, rfl⟩, others⟩ := spelled
  exact ⟨List.cons_ne_nil c behind, List.forall_mem_cons.2 ⟨inside, others⟩⟩

end Pattern

namespace Piece

def unclaimed (pieces : List Piece) : List Char :=
  source (pieces.filter fun piece => piece.type?.isNone)

theorem unclaimed_free (held : List Char) : unclaimed (free held []) = held := by
  cases held with
  | nil => rfl
  | cons c held => exact List.append_nil (c :: held)

theorem unclaimed_append (first second : List Piece) :
    unclaimed (first ++ second) = unclaimed first ++ unclaimed second := by
  rw [unclaimed, List.filter_append, source_append]
  rfl

theorem unclaimed_cons_claimed (text : List Char) (type : TokenType) (pieces : List Piece) :
    unclaimed (⟨text, some type⟩ :: pieces) = unclaimed pieces := rfl

end Piece

namespace Markup

/-! ## Tags -/

def smallLetter : CharSet := CharSet.between 'a' 'z'

def openingText (name color : List Char) : List Char :=
  "<span class=\"".toList ++ (name ++ ("\" style=\"color:#".toList ++ (color ++ "\">".toList)))

/-- The text of a tag, whatever type and colour it names. -/
inductive Tag : List Char → Prop where
  | opening {name color : List Char} (some_name : name ≠ []) (letters : ∀ c ∈ name, smallLetter c = true)
      (size : color.length = 6) (digits : ∀ c ∈ color, CharSet.hexDigit c = true) :
      Tag (openingText name color)
  | closing : Tag "</span>".toList

/-- No tag stands in the text. -/
def Tagless (text : List Char) : Prop :=
  ∀ tag, Tag tag → ¬ tag <:+: text

def openingTag : Pattern :=
  .exactly "<span class=\"" ++ (.oneOrMore smallLetter ++
    (.exactly "\" style=\"color:#" ++ (.times .hexDigit 6 ++ .exactly "\">")))

def tagRule : Rule := ⟨"tag", openingTag ||| .exactly "</span>", .tag⟩

/-- The text without its tags, which are found in one pass from left to right. -/
def strip (text : String) : String :=
  String.ofList (Piece.unclaimed (Grammar.claim [tagRule] text.toList))

theorem tag_of_spells {text : List Char} (spelled : tagRule.pattern.Spells text) : Tag text := by
  rcases spelled with opening | closing
  · obtain ⟨_, _, rfl, rfl, name, _, rfl, named, _, _, rfl, rfl, color, _, rfl, colored, rfl⟩ := opening
    obtain ⟨some_name, letters⟩ := named.of_oneOrMore
    obtain ⟨size, digits⟩ := colored.of_times
    exact .opening some_name letters size digits
  · have same : text = "</span>".toList := closing
    exact same ▸ .closing

theorem run_openingTag {next : Cursor → Option Cursor} {name color : List Char} (some_name : name ≠ [])
    (letters : ∀ c ∈ name, smallLetter c = true) (size : color.length = 6)
    (digits : ∀ c ∈ color, CharSet.hexDigit c = true) {before rest : List Char} {taken : Nat} {stop : Cursor}
    (found : next ⟨(openingText name color).reverse ++ before, rest, taken + (openingText name color).length⟩ =
      some stop) :
    openingTag.run next ⟨before, openingText name color ++ rest, taken⟩ = some stop := by
  have quoted : startsIn smallLetter ("\" style=\"color:#".toList ++ (color ++ ("\">".toList ++ rest))) = false := rfl
  unfold openingTag openingText
  simp only [List.append_assoc]
  rw [Pattern.run_append, Pattern.exactly, Pattern.run_literal, Pattern.run_append]
  refine Pattern.run_oneOrMore_greedy some_name letters quoted ?_
  rw [Pattern.run_append, Pattern.exactly, Pattern.run_literal, Pattern.run_append, ← size,
    Pattern.run_times digits, Pattern.exactly, Pattern.run_literal]
  rw [← found]
  unfold openingText
  simp only [List.reverse_append, List.append_assoc, List.length_append, Nat.add_assoc]

namespace Tag

theorem bracket {tag : List Char} (spelled : Tag tag) : ∃ inner, tag = '<' :: inner ∧ '<' ∉ inner := by
  cases spelled with
  | closing => exact ⟨"/span>".toList, rfl, by decide⟩
  | @opening name color some_name letters size digits =>
    have no_name : '<' ∉ name := fun member => absurd (letters _ member) (by decide)
    have no_color : '<' ∉ color := fun member => absurd (digits _ member) (by decide)
    refine ⟨"span class=\"".toList ++ (name ++ ("\" style=\"color:#".toList ++ (color ++ "\">".toList))), rfl, ?_⟩
    simp only [List.mem_append, not_or]
    exact ⟨by decide, no_name, by decide, no_color, by decide⟩

theorem ne_nil {tag : List Char} (spelled : Tag tag) : tag ≠ [] := by
  obtain ⟨inner, rfl, -⟩ := spelled.bracket
  exact List.cons_ne_nil _ _

theorem matched {tag : List Char} (spelled : Tag tag) (before rest : List Char) :
    tagRule.pattern.matchLength? before (tag ++ rest) = some tag.length := by
  have some_text : 0 + tag.length ≠ 0 := by
    have size := List.length_pos_iff.2 spelled.ne_nil
    omega
  have choice : tagRule.pattern = (openingTag ||| .exactly "</span>") := rfl
  have found : tagRule.pattern.run Pattern.accept ⟨before, tag ++ rest, 0⟩ =
      some ⟨tag.reverse ++ before, rest, 0 + tag.length⟩ := by
    rw [choice, Pattern.run_or]
    cases spelled with
    | closing =>
      have absent : ¬ "<span class=\"".toList <+: "</span>".toList ++ rest := by
        simp
      have missing : openingTag.run Pattern.accept ⟨before, "</span>".toList ++ rest, 0⟩ = none := by
        rw [openingTag, Pattern.run_append]
        exact Pattern.run_literal_absent absent
      rw [missing, Option.none_or, Pattern.exactly, Pattern.run_literal, Pattern.accept_eq_some some_text]
    | @opening name color some_name letters size digits =>
      rw [run_openingTag some_name letters size digits (Pattern.accept_eq_some some_text), Option.some_or]
  rw [Pattern.matchLength?_eq_run, found, Option.map_some, Nat.zero_add]

end Tag

theorem tag_of_match {before after : List Char} (found : tagRule.pattern.matchLength? before after ≠ none) :
    ∃ tag, Tag tag ∧ tag <+: after := by
  obtain ⟨length, matched⟩ := Option.ne_none_iff_exists'.1 found
  exact ⟨after.take length, tag_of_spells (Pattern.spells_of_matchLength? matched), List.take_prefix length after⟩

theorem tagless_iff {text : List Char} :
    Tagless text ↔ ∀ rest ∈ text.tails, tagRule.pattern.matchLength? [] rest = none := by
  constructor
  · intro tagless rest member
    by_contra found
    obtain ⟨tag, spelled, leads⟩ := tag_of_match found
    exact tagless tag spelled (leads.isInfix.trans ((List.mem_tails rest text).1 member).isInfix)
  · intro missed tag spelled inside
    obtain ⟨front, rest, whole⟩ := inside
    have stands : tag ++ rest ∈ text.tails := by
      rw [List.mem_tails, ← whole, List.append_assoc]
      exact List.suffix_append front (tag ++ rest)
    have matched := spelled.matched [] rest
    rw [missed _ stands] at matched
    cases matched

instance (text : List Char) : Decidable (Tagless text) := decidable_of_iff' _ tagless_iff

theorem Tagless.tail {front text : List Char} (tagless : Tagless (front ++ text)) : Tagless text :=
  fun tag spelled inside => tagless tag spelled (inside.trans (List.suffix_append front text).isInfix)

theorem tag_of_color {type : TokenType} (colored : type.color?.isSome) :
    Tag ('<' :: (tagText type ++ ['>'])) := by
  have entries : ∀ entry ∈ TokenType.palette,
      (entry.1.name ≠ "" ∧ entry.1.name.toList.all smallLetter) ∧
        entry.2.toList.head? = some '#' ∧ entry.2.toList.tail.length = 6 ∧
          entry.2.toList.tail.all CharSet.hexDigit := by
    decide
  obtain ⟨⟨some_name, letters⟩, mark, size, digits⟩ := entries _ (TokenType.mem_palette colored)
  obtain ⟨color, whole⟩ := List.head?_eq_some_iff.1 mark
  dsimp only at some_name letters mark size digits whole
  rw [whole, List.tail_cons] at size digits
  have same : '<' :: (tagText type ++ ['>']) = openingText type.name.toList color := by
    unfold tagText openingText
    rw [whole]
    simp
  rw [same]
  refine .opening ?_ (List.all_eq_true.1 letters) size (List.all_eq_true.1 digits)
  intro empty
  exact some_name (String.toList_inj.1 empty)

/-! ## One pass -/

/-- From left to right, a tag that starts at the place is left out, and where none starts the character stays. -/
inductive Strips : List Char → List Char → Prop where
  | done : Strips [] []
  | tag {tag rest left : List Char} (spelled : Tag tag) (onward : Strips rest left) : Strips (tag ++ rest) left
  | kept {c : Char} {rest left : List Char} (free : ∀ tag, Tag tag → ¬ tag <+: c :: rest)
      (onward : Strips rest left) : Strips (c :: rest) (c :: left)

theorem Strips.of_misses {before gap rest left : List Char} (missed : tagRule.Misses before gap rest)
    (onward : Strips rest left) : Strips (gap ++ rest) (gap ++ left) := by
  induction gap generalizing before with
  | nil => exact onward
  | cons c gap ih =>
    refine .kept ?_ (ih missed.tail)
    rintro tag spelled ⟨behind, whole⟩
    have here : tagRule.pattern.matchLength? before (c :: (gap ++ rest)) = none := missed [] c gap rfl
    have matched := spelled.matched before behind
    rw [whole] at matched
    cases here.symm.trans matched

theorem strips_of_cuts {before after : List Char} {pieces : List Piece} (cuts : tagRule.Cuts before after pieces) :
    Strips after (Piece.unclaimed pieces) := by
  induction cuts with
  | @rest before gap missed =>
    have whole := Strips.of_misses missed .done
    rw [List.append_nil] at whole
    rwa [Piece.unclaimed_free]
  | @found before gap claimed rest pieces missed _ matched _ ih =>
    have spelled := tag_of_spells (Pattern.spells_of_matchLength? matched)
    rw [List.take_left] at spelled
    rw [Piece.unclaimed_append, Piece.unclaimed_free, Piece.unclaimed_cons_claimed]
    exact Strips.of_misses missed (.tag spelled ih)

theorem strips_strip (text : String) : Strips text.toList (strip text).toList := by
  rw [strip, String.toList_ofList]
  exact strips_of_cuts (Grammar.cuts_single tagRule text.toList)

example : strip "</sp</span>an>" = "</span>" := by decide +kernel

/-! ## Values in front of tags -/

def values (tokens : List Token) : List Char :=
  tokens.flatMap fun token => token.value.toList

theorem values_cons (token : Token) (tokens : List Token) :
    values (token :: tokens) = token.value.toList ++ values tokens := List.flatMap_cons

/-- What stands in the markup in front of its first tag also stands at the start of the text. -/
def StartsAs (markup text : List Char) : Prop :=
  ∀ part, '<' ∉ part → part <+: markup → part <+: text

theorem startsAs_tag (inner text : List Char) : StartsAs ('<' :: inner) text := by
  intro part no_bracket leads
  rcases List.prefix_cons_iff.1 leads with rfl | ⟨behind, rfl, -⟩
  · exact List.nil_prefix
  · exact absurd List.mem_cons_self no_bracket

theorem StartsAs.append {markup text : List Char} (starts : StartsAs markup text) (front : List Char) :
    StartsAs (front ++ markup) (front ++ text) := by
  intro part no_bracket leads
  rcases List.prefix_or_prefix_of_prefix leads (List.prefix_append front markup) with inside | ⟨behind, rfl⟩
  · exact inside.trans (List.prefix_append front text)
  · apply (List.prefix_append_right_inj front).2
    apply starts
    · exact fun member => no_bracket (List.mem_append_right front member)
    · exact (List.prefix_append_right_inj front).1 leads

theorem chunk_unescaped {type : TokenType} (element : type ≠ .text) (value : String) (rest : List Char) :
    chunk false type value ++ rest =
      '<' :: (tagText type ++ ['>']) ++ (value.toList ++ ("</span>".toList ++ rest)) :=
  chunk_parts element false value rest

theorem startsAs_values (tokens : List Token) : StartsAs (markup false tokens) (values tokens) := by
  induction tokens with
  | nil => exact fun part _ leads => leads
  | cons token tokens ih =>
    rw [markup_cons, values_cons]
    by_cases text : token.type = .text
    · rw [chunk_text text]
      exact ih.append token.value.toList
    · rw [chunk_unescaped text]
      exact startsAs_tag _ _

theorem misses_of_tagless {value text rest : List Char} (tagless : Tagless (value ++ text))
    (starts : StartsAs rest text) (before : List Char) : tagRule.Misses before value rest := by
  intro passed c later split
  by_contra found
  obtain ⟨tag, spelled, leads⟩ := tag_of_match found
  obtain ⟨inner, rfl, no_bracket⟩ := spelled.bracket
  rw [List.cons_append, List.cons_prefix_cons] at leads
  obtain ⟨rfl, leads⟩ := leads
  have inside : '<' :: inner <+: '<' :: (later ++ text) :=
    List.cons_prefix_cons.2 ⟨rfl, starts.append later inner no_bracket leads⟩
  refine tagless _ spelled ?_
  rw [split, List.append_assoc]
  exact inside.isInfix.trans (List.suffix_append passed _).isInfix

/-! ## Stripping -/

/-- What stripping leaves, where the text stands behind `before` and `held` has been passed since the last tag. -/
def remainder (before held text : List Char) : List Char :=
  Piece.unclaimed (tagRule.cut [] before held 0 text).reverse

theorem remainder_nil (before held : List Char) : remainder before held [] = held.reverse := by
  rw [remainder, Rule.cut, Piece.reverse_free, Piece.unclaimed_free]

theorem remainder_tag {tag : List Char} (spelled : Tag tag) (before held rest : List Char) :
    remainder before held (tag ++ rest) = held.reverse ++ remainder (tag.reverse ++ before) [] rest := by
  unfold remainder
  rw [Rule.cut_matched spelled.ne_nil (spelled.matched before rest), List.reverse_append, List.reverse_cons,
    Piece.reverse_free, List.append_assoc, Piece.unclaimed_append, Piece.unclaimed_free, List.singleton_append,
    Piece.unclaimed_cons_claimed]

theorem remainder_value {value text rest : List Char} (tagless : Tagless (value ++ text))
    (starts : StartsAs rest text) (before held : List Char) :
    remainder before held (value ++ rest) = remainder (value.reverse ++ before) (value.reverse ++ held) rest := by
  unfold remainder
  rw [Rule.cut_misses (misses_of_tagless tagless starts before)]

theorem remainder_markup {tokens : List Token} (colored : Colored tokens) (tagless : Tagless (values tokens))
    (before held : List Char) : remainder before held (markup false tokens) = held.reverse ++ values tokens := by
  induction tokens generalizing before held with
  | nil => exact (remainder_nil before held).trans (List.append_nil _).symm
  | cons token tokens ih =>
    obtain ⟨first, rest⟩ := colored_cons.1 colored
    rw [values_cons] at tagless
    rw [markup_cons, values_cons]
    by_cases text : token.type = .text
    · calc
        _ = remainder before held (token.value.toList ++ markup false tokens) := by
          rw [chunk_text text]
          rfl
        _ = _ := remainder_value tagless (startsAs_values tokens) before held
        _ = (token.value.toList.reverse ++ held).reverse ++ values tokens := ih rest tagless.tail _ _
        _ = held.reverse ++ (token.value.toList ++ values tokens) := by
          rw [List.reverse_append, List.reverse_reverse, List.append_assoc]
    · have closed : StartsAs ("</span>".toList ++ markup false tokens) (values tokens) := startsAs_tag _ _
      rw [chunk_unescaped text, remainder_tag (tag_of_color first), remainder_value tagless closed,
        remainder_tag .closing, ih rest tagless.tail, List.append_nil, List.reverse_reverse]
      rfl

theorem strip_markup {tokens : List Token} (colored : Colored tokens) (tagless : Tagless (values tokens)) :
    strip (String.ofList (markup false tokens)) = String.ofList (values tokens) := by
  have whole := remainder_markup colored tagless [] []
  rw [strip, String.toList_ofList, Grammar.claim_single]
  exact congrArg String.ofList whole

/-- Markup that is not escaped is the values of its tokens again without its tags, so highlighting keeps the code,
unless the values hold a whole tag of their own. -/
theorem stripped_markup_is_source :
    (∀ tokens, Colored tokens → Tagless (String.join (tokens.map Token.value)).toList →
      ∃ markup, render false tokens = .ok markup ∧ strip markup = String.join (tokens.map Token.value)) ∧
    ∀ (language? : Option String) (code : String), Tagless code.toList →
      ∃ markup, highlight language? false code = .ok markup ∧ strip markup = code := by
  have rendered : ∀ tokens, Colored tokens → Tagless (String.join (tokens.map Token.value)).toList →
      ∃ markup, render false tokens = .ok markup ∧ strip markup = String.join (tokens.map Token.value) := by
    intro tokens colored tagless
    have joined : values tokens = (String.join (tokens.map Token.value)).toList := by
      rw [String.toList_join, List.flatMap_map]
      rfl
    rw [← joined] at tagless
    refine ⟨_, render_eq_ok colored false, ?_⟩
    rw [strip_markup colored tagless, joined, String.ofList_toList]
  refine ⟨rendered, ?_⟩
  intro language? code tagless
  have covers : Token.Covers code (tokenize language? code) := Grammar.covers_tokenize _ code
  have source := covers.source
  rw [highlight_eq_render]
  have whole := rendered (tokenize language? code) (colored_tokenize language? code)
  rw [source] at whole
  exact whole tagless

/-- Values that begin and end tags, which no tag of the markup completes. -/
theorem stripped_markup_is_source_of_partial_tags :
    let tokens : List Token :=
      [⟨.keyword, "<span class=\"", 1, 1⟩, ⟨.text, "</span", 1, 14⟩, ⟨.string, "/span", 1, 20⟩, ⟨.text, "<", 1, 25⟩]
    let code := "<span class=\"tag\" style=\"color:#12345</span <b>>"
    (Colored tokens ∧ Tagless "<span class=\"</span/span<".toList ∧ Tagless code.toList) ∧
      (∃ markup, render false tokens = .ok markup ∧ strip markup = "<span class=\"</span/span<") ∧
      ∃ markup, highlight (some "html") false code = .ok markup ∧ strip markup = code := by
  intro tokens code
  have colored : Colored tokens := by decide
  have values : String.join (tokens.map Token.value) = "<span class=\"</span/span<" := by decide
  have tagless : Tagless "<span class=\"</span/span<".toList := by decide +kernel
  have tagless' : Tagless code.toList := by decide +kernel
  obtain ⟨rendered, highlighted⟩ := stripped_markup_is_source
  have whole := rendered tokens colored
  rw [values] at whole
  exact ⟨⟨colored, tagless, tagless'⟩, whole tagless, highlighted (some "html") code tagless'⟩

end Markup

end CodeColor
