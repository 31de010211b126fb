import CodeColor.Proofs.Claim.Spent
import CodeColor.Proofs.Html.Plain
import CodeColor.Proofs.Token.Members

/-!
Tags under the grammar of HTML, whatever the text is. Only comments are taken before tags, and as they start with a
bracket, none of them starts within a tag or goes on with its name. So nothing but comments can hide a tag.

Main statement: `tags_are_complete`. It rests on `tag_matches_iff`, which says what the rule for tags takes, and on
`tag_stands_iff`, which says where it does.
-/

namespace CodeColor.Html

open Pattern Piece

/-! ## The rule for tags -/

/-- The text starts with the bracket that closes a tag, or with one that opens a tag and a letter behind it. -/
inductive StartsTag : List Char → Prop
  | closing (more : List Char) : StartsTag ('>' :: more)
  | named {bracket : List Char} (known : bracket ∈ [['<'], ['<', '/']]) {c : Char} (letter : c.isAlpha = true)
    (more : List Char) : StartsTag (bracket ++ c :: more)

/-- The text in front of `after` is what a tag token may be: the bracket that closes a tag, or one that opens a tag,
with the name, which no letter or digit follows. -/
inductive TagText (after : List Char) : List Char → Prop
  | closing : TagText after ['>']
  | named {bracket : List Char} (known : bracket ∈ [['<'], ['<', '/']]) (name : Name Char.isAlphanum)
    (ends : startsIn Char.isAlphanum after = false) : TagText after (bracket ++ name.text)

variable {text after before rest : List Char}

theorem exists_name {c : Char} (letter : c.isAlpha = true) (text : List Char) :
    ∃ (name : Name Char.isAlphanum) (after : List Char),
      c :: text = name.text ++ after ∧ startsIn Char.isAlphanum after = false := by
  have parts : ∀ d ∈ text.takeWhile Char.isAlphanum, d.isAlphanum = true :=
    fun _ member => List.mem_takeWhile_imp member
  have ends := startsIn_dropWhile Char.isAlphanum text
  refine ⟨⟨c, text.takeWhile Char.isAlphanum, letter, parts⟩, text.dropWhile Char.isAlphanum, ?_, ends⟩
  rw [Name.text, List.cons_append, List.takeWhile_append_dropWhile]

theorem StartsTag.ne_nil (starts : StartsTag text) : text ≠ [] := by
  cases starts <;> simp

theorem StartsTag.append (starts : StartsTag text) (rest : List Char) : StartsTag (text ++ rest) := by
  cases starts with
  | closing more => exact .closing (more ++ rest)
  | named known letter more =>
    rw [List.append_assoc]
    exact .named known letter (more ++ rest)

theorem StartsTag.exists_tag (starts : StartsTag text) : ∃ tag after, text = tag ++ after ∧ TagText after tag := by
  cases starts with
  | closing more => exact ⟨['>'], more, rfl, .closing⟩
  | @named bracket known c letter more =>
    obtain ⟨name, after, same, ends⟩ := exists_name letter more
    exact ⟨bracket ++ name.text, after, by rw [same, List.append_assoc], .named known name ends⟩

theorem TagText.exists_bracket (tag : TagText after text) :
    ∃ c inside, text = c :: inside ∧ ∀ d ∈ inside, brackets d = false := by
  cases tag with
  | closing => exact ⟨'>', [], rfl, by simp⟩
  | named known name ends =>
    have less : '<' ∉ name.text := name.not_mem (by decide) (by decide)
    have greater : '>' ∉ name.text := name.not_mem (by decide) (by decide)
    have off := off_brackets less greater
    simp only [List.mem_cons, List.not_mem_nil, or_false] at known
    rcases known with rfl | rfl
    · exact ⟨'<', name.text, rfl, off⟩
    · exact ⟨'<', '/' :: name.text, rfl, List.forall_mem_cons.2 ⟨by decide, off⟩⟩

theorem TagText.matches (tag : TagText rest text) (before : List Char) : tagRule.Matches before text rest := by
  refine ⟨?_, ?_⟩
  · obtain ⟨c, inside, rfl, -⟩ := tag.exists_bracket
    exact List.cons_ne_nil c inside
  · cases tag with
    | closing => exact tagEnd_match before rest
    | named known name ends => exact named_match known name ends before

theorem startsTag_of_spells (spelled : tagRule.pattern.Spells text) : StartsTag text := by
  rw [tag_eq] at spelled
  rcases spelled with ⟨_, name, rfl, ⟨_, _, rfl, ⟨_, slash, rfl, rfl, spelled⟩, c, letter, rfl⟩, -⟩ | rfl
  · rw [CharSet.letter_eq] at letter
    have starts : StartsTag ((['<'] ++ slash) ++ c :: name) := by
      apply StartsTag.named _ letter
      rcases spelled with rfl | rfl <;> simp
    simpa using starts
  · exact .closing []

/-- The rule takes tags, and these whole. -/
theorem tag_matches_iff : tagRule.Matches before text rest ↔ TagText rest text := by
  constructor
  · intro matched
    obtain ⟨tag, after, same, spells⟩ := ((startsTag_of_spells matched.spells).append rest).exists_tag
    obtain rfl := matched.unique (spells.matches before) same.symm
    rwa [List.append_cancel_left same]
  · exact fun tag => tag.matches before

theorem apart_tag : tagRule.Apart := by
  intro before c text rest matched
  obtain ⟨d, inside, same, off⟩ := (tag_matches_iff.1 matched).exists_bracket
  obtain ⟨rfl, rfl⟩ := List.cons.inj same
  exact Rule.misses_of_opensAt tag_opensAt off _ _

/-! ## Comments before it -/

variable {code start : List Char} {type : TokenType}

theorem starts_comment (stands : Stands ⟨text, some type⟩ start (Grammar.claim [commentRule] code)) :
    type = .comment ∧ ∃ more, text = '<' :: more := by
  obtain ⟨rule, member, typed, spelled⟩ := Grammar.spells_of_stands stands
  rw [List.mem_singleton.1 member] at typed spelled
  obtain ⟨_, _, rfl, ⟨_, more, rfl, rfl, -⟩, -⟩ := spelled
  exact ⟨typed.symm, _, rfl⟩

theorem startsIn_behind_tag (some_text : text ≠ []) (whole : code = start ++ (text ++ after))
    (free : LiesFree text rest start (Grammar.claim [commentRule] code)) :
    startsIn Char.isAlphanum rest = startsIn Char.isAlphanum after := by
  have tidy : Tidy (Grammar.claim [commentRule] code) := Grammar.tidy_claim _ (by simp [whole, some_text])
  refine free.startsIn_eq tidy ((Grammar.source_claim _ code).trans whole) fun next type stands => ?_
  obtain ⟨-, more, rfl⟩ := starts_comment stands
  rfl

theorem TagText.of_startsIn (tag : TagText rest text)
    (same : startsIn Char.isAlphanum rest = startsIn Char.isAlphanum after) : TagText after text := by
  cases tag with
  | closing => exact .closing
  | named known name ends => exact .named known name (same.symm.trans ends)

theorem TagText.not_within (tag : TagText after text) {more : List Char}
    (same : start ++ (text ++ after) = before ++ '<' :: more) (later : start.length < before.length) :
    start.length + text.length ≤ before.length := by
  obtain ⟨c, inside, rfl, off⟩ := tag.exists_bracket
  rcases List.append_eq_append_iff.1 same with ⟨further, rfl, behind⟩ | ⟨further, rfl, -⟩
  · cases further with
    | nil => simp at later
    | cons d further =>
      obtain ⟨-, onward⟩ := List.cons.inj behind
      rcases List.append_eq_append_iff.1 onward with ⟨gap, rfl, -⟩ | ⟨within, rfl, split⟩
      · simp only [List.length_append, List.length_cons]
        omega
      · cases within with
        | nil => simp
        | cons e within =>
          obtain ⟨rfl, -⟩ := List.cons.inj split
          exact absurd (off '<' (by simp)) (by decide)
  · simp only [List.length_append] at later
    omega

theorem TagText.clear (tag : TagText after text) (whole : code = start ++ (text ++ after))
    (outside : ∀ before other, Stands ⟨other, some .comment⟩ before (Grammar.claim [commentRule] code) →
      ¬ Within (before.length, before.length + other.length) start.length) :
    Clear text start (Grammar.claim [commentRule] code) := by
  intro before other type stands
  obtain ⟨rfl, more, rfl⟩ := starts_comment stands
  obtain ⟨rest, split⟩ := Grammar.code_eq_of_stands stands
  have apart := outside before _ stands
  by_cases later : start.length < before.length
  · exact .inr (tag.not_within (whole.symm.trans split) later)
  · left
    unfold Within at apart
    dsimp only at apart
    omega

/-! ## All tags -/

/-- The tags are claimed where they start outside of comments. -/
theorem tag_stands_iff :
    Stands ⟨text, some .tag⟩ start (Language.Html.grammar.claim code) ↔
      ∃ after, code = start ++ (text ++ after) ∧ TagText after text ∧
        ∀ before other, Stands ⟨other, some .comment⟩ before (Language.Html.grammar.claim code) →
          ¬ Within (before.length, before.length + other.length) start.length := by
  have split : Language.Html.grammar = [commentRule] ++ tagRule :: [attributeRule, stringRule] := rfl
  have comments {other before : List Char} : Stands ⟨other, some .comment⟩ before (Language.Html.grammar.claim code) ↔
      Stands ⟨other, some .comment⟩ before (Grammar.claim [commentRule] code) := by
    rw [split]
    exact Grammar.stands_first_iff (by decide)
  have middle : Stands ⟨text, some .tag⟩ start (Language.Html.grammar.claim code) ↔
      ∃ rest, LiesFree text rest start (Grammar.claim [commentRule] code) ∧
        tagRule.Matches start.reverse text rest := by
    rw [split]
    exact Grammar.stands_middle_iff apart_tag (by decide) (by decide)
  simp only [comments, tag_matches_iff] at middle ⊢
  constructor
  · intro stands
    obtain ⟨after, whole⟩ := Grammar.code_eq_of_stands stands
    obtain ⟨rest, free, tag⟩ := middle.1 stands
    have some_text : text ≠ [] := (tag.matches []).some_text
    refine ⟨after, whole, tag.of_startsIn (startsIn_behind_tag some_text whole free), ?_⟩
    intro before other comment within
    have apart := free.clear before other .comment comment
    have positive := List.length_pos_iff.2 some_text
    unfold Within at within
    dsimp only at within
    omega
  · intro ⟨after, whole, tag, outside⟩
    have some_text : text ≠ [] := (tag.matches []).some_text
    have tidy : Tidy (Grammar.claim [commentRule] code) := Grammar.tidy_claim _ (by simp [whole, some_text])
    obtain ⟨rest, free⟩ := tidy.liesFree_of_clear some_text ((Grammar.source_claim _ code).trans whole)
      (tag.clear whole outside)
    exact middle.2 ⟨rest, free, tag.of_startsIn (startsIn_behind_tag some_text whole free).symm⟩

theorem not_within_other {pieces : List Piece} {left right other : List Char} {type? : Option TokenType}
    (stands : Stands ⟨left ++ right, type?⟩ start pieces) (some_right : right ≠ [])
    (claimed : Stands ⟨other, some type⟩ before pieces) (different : type? ≠ some type) :
    ¬ Within (before.length, before.length + other.length) (start ++ left).length := by
  intro within
  have positive := List.length_pos_iff.2 some_right
  have apart := stands.disjoint claimed
  simp only [mk.injEq, different, and_false, false_or, List.length_append] at apart
  simp only [Within, List.length_append] at within
  omega

theorem not_startsTag {left right : List Char} {type? : Option TokenType}
    (stands : Stands ⟨left ++ right, type?⟩ start (Language.Html.grammar.claim code))
    (no_comment : type? ≠ some .comment) (no_tag : type? ≠ some .tag) : ¬ StartsTag right := by
  intro starts
  obtain ⟨after, whole⟩ := Grammar.code_eq_of_stands stands
  obtain ⟨tag, behind, same, spelled⟩ := (starts.append after).exists_tag
  have some_tag := List.length_pos_iff.2 (spelled.matches []).some_text
  have split : code = (start ++ left) ++ (tag ++ behind) := by rw [whole, ← same]; simp
  have placed : Stands ⟨tag, some .tag⟩ (start ++ left) (Language.Html.grammar.claim code) :=
    tag_stands_iff.2 ⟨behind, split, spelled, fun before comment claimed =>
      not_within_other stands starts.ne_nil claimed no_comment⟩
  exact not_within_other stands starts.ne_nil placed no_tag ⟨Nat.le_refl _, Nat.lt_add_of_pos_right some_tag⟩

/-- The stretch is a tag that starts outside of comments. -/
structure IsTag (code : List Char) (spans : List Span) (extent : Nat × Nat) : Prop where
  outside : ∀ comment ∈ Span.extents .comment spans, ¬ Within comment extent.1
  spelled : ∃ before text after, code = before ++ (text ++ after) ∧ TagText after text ∧
    extent = (before.length, before.length + text.length)

/-- The tag tokens are the tags that start outside of comments, each with all of its name. So a tag starts in no token
that is text, an attribute or a string. -/
theorem tags_are_complete (code : String) :
    let tokens := tokenize (some "html") code
    (∀ extent, extent ∈ Span.extents .tag (Token.spans tokens) ↔ IsTag code.toList (Token.spans tokens) extent) ∧
      ∀ token ∈ tokens, token.type ∈ [.text, .attributeName, .string] →
        ∀ left right, token.value.toList = left ++ right → ¬ StartsTag right := by
  intro tokens
  have extents {type : TokenType} (listed : type ∈ [.tag, .comment]) {extent : Nat × Nat} :
      extent ∈ Span.extents type (Token.spans tokens) ↔
        ∃ before text, Stands ⟨text, some type⟩ before (Language.Html.grammar.claim code.toList) ∧
          extent = (before.length, before.length + text.length) := by
    have named : ∀ type ∈ [TokenType.tag, .comment], type.name ≠ "" ∧ type ≠ .text := by decide
    exact Language.html.mem_extents_iff (named type listed).1 (named type listed).2
  constructor
  · intro extent
    rw [extents (by decide)]
    constructor
    · intro ⟨before, text, stands, same⟩
      obtain ⟨after, whole, tag, outside⟩ := tag_stands_iff.1 stands
      refine ⟨fun comment member => ?_, before, text, after, whole, tag, same⟩
      obtain ⟨front, other, claimed, rfl⟩ := (extents (by decide)).1 member
      rw [same]
      exact outside front other claimed
    · intro ⟨outside, before, text, after, whole, tag, same⟩
      refine ⟨before, text, tag_stands_iff.2 ⟨after, whole, tag, fun front other claimed => ?_⟩, same⟩
      rw [same] at outside
      exact outside _ ((extents (by decide)).2 ⟨front, other, claimed, rfl⟩)
  · intro token member typed left right split
    have grammar : tokens = Language.Html.grammar.tokenize code := tokenize_name .html code
    rw [grammar, Grammar.mem_tokenize_iff (by decide)] at member
    obtain ⟨start, ⟨text, type?⟩, stands, rfl⟩ := member
    obtain rfl : text = left ++ right := by simpa [Piece.tokenAt] using split
    have no_comment : TokenType.comment ∉ [TokenType.text, .attributeName, .string] := by decide
    have no_tag : TokenType.tag ∉ [TokenType.text, .attributeName, .string] := by decide
    apply not_startsTag stands
    · rintro rfl
      exact no_comment typed
    · rintro rfl
      exact no_tag typed

/-- A comment cuts a name off, and hides the tag in it; the tag in the value of an attribute is one. -/
theorem tags_are_complete_around_comment :
    let code := "<<h1<!--<b>--></i a=\"<u>\">"
    let tokens := tokenize (some "html") code
    Span.extents .tag (Token.spans tokens) = [(1, 4), (14, 17), (21, 23), (23, 24), (25, 26)] ∧
      IsTag code.toList (Token.spans tokens) (14, 17) ∧ ¬ IsTag code.toList (Token.spans tokens) (8, 10) ∧
      ⟨.text, "<", 1, 1⟩ ∈ tokens ∧ ¬ StartsTag ['<'] := by
  intro code tokens
  have extents : Span.extents .tag (Token.spans tokens) = [(1, 4), (14, 17), (21, 23), (23, 24), (25, 26)] := by
    decide +kernel
  have text : ⟨.text, "<", 1, 1⟩ ∈ tokens := by decide +kernel
  obtain ⟨tags, others⟩ := tags_are_complete code
  refine ⟨extents, (tags _).1 ?_, fun hidden => ?_, text, others _ text (by decide) [] ['<'] (by decide)⟩
  · rw [extents]
    decide
  · have listed := (tags _).2 hidden
    rw [extents] at listed
    exact absurd listed (by decide)

end CodeColor.Html
