import CodeColor.Proofs.Claim.Spent
import CodeColor.Proofs.Css.Plain
import CodeColor.Proofs.Token.Members

/-!
Values under the grammar of CSS, whatever the text is. A value goes from a colon, or from right behind one, to the end
of the declaration, unless something that is claimed before comes in its way; and right behind each colon there is a
value, unless something that is claimed before is there.

Main statement: `values_are_complete`. It rests on `value_length` and `value_takes`, which say what the rule for values
takes and where.
-/

namespace CodeColor.Css

open Language.Css Pattern Piece

/-! ## The rule for values -/

def valueCharacter : CharSet := .except [';', '}']

theorem valueCharacter_iff {c : Char} : valueCharacter c = true ↔ c ≠ ';' ∧ c ≠ '}' := by
  simp [valueCharacter, CharSet.except]

theorem startsIn_colon {text : List Char} : startsIn colon text = true ↔ ∃ more, text = ':' :: more := by
  cases text with
  | nil => simp [startsIn]
  | cons c text => simp [startsIn, colon, CharSet.among]

theorem run_value (next : Cursor → Option Cursor) (cursor : Cursor) :
    valueRule.pattern.run next cursor =
      ((exactly ":").run (fun place => (oneOrMore valueCharacter).run next place) cursor).or
        ((guard (.after colon)).run (fun place => (oneOrMore valueCharacter).run next place) cursor) :=
  run_or (exactly ":") (guard (.after colon)) cursor

section

variable {before text : List Char}

/-- What the rule takes, it takes up to the end of the declaration, from a colon or from right behind one. -/
theorem value_length {length : Nat} (found : valueRule.pattern.matchLength? before text = some length) :
    length = (text.takeWhile valueCharacter).length ∧
      (startsIn colon before = true ∨ startsIn colon text = true) := by
  rw [matchLength?_eq_run, run_value] at found
  obtain ⟨stop, reached, rfl⟩ := Option.map_eq_some_iff.1 found
  rcases Option.or_eq_some_iff.1 reached with along | ⟨-, behind⟩
  · by_cases leads : [':'] <+: text
    · obtain ⟨more, rfl⟩ := leads
      have further : (oneOrMore valueCharacter).run accept ⟨':' :: before, more, 0 + 1⟩ = some stop :=
        (run_literal [':'] before more 0).symm.trans along
      refine ⟨?_, .inr rfl⟩
      rw [taken_of_run_oneOrMore _ further, List.singleton_append, List.takeWhile_cons_of_pos rfl, List.length_cons]
      omega
    · rw [exactly, run_literal_absent leads] at along
      cases along
  · cases sees : Guard.holds (.after colon) ⟨before, text, 0⟩ with
    | true =>
      rw [run_guard sees] at behind
      exact ⟨(taken_of_run_oneOrMore _ behind).trans (Nat.zero_add _), .inl sees⟩
    | false =>
      rw [run_guard_absent sees] at behind
      cases behind

/-- Right behind a colon the rule takes every character that does not end the declaration. -/
theorem value_takes (sees : startsIn colon before = true) {c : Char} (inside : valueCharacter c = true) :
    valueRule.pattern.matchLength? before (c :: text) ≠ none := by
  have guarded : Guard.holds (.after colon) ⟨before, c :: text, 0⟩ = true := sees
  intro absent
  rw [matchLength?_eq_run, Option.map_eq_none_iff, run_value, Option.or_eq_none_iff, run_guard guarded,
    run_oneOrMore inside] at absent
  cases absent.2

theorem inside_of_matches {rest : List Char} (matched : valueRule.Matches before text rest) :
    (∀ c ∈ text, valueCharacter c = true) ∧ startsIn valueCharacter rest = false := by
  obtain ⟨size, -⟩ := value_length matched.length
  have whole : (text ++ rest).takeWhile valueCharacter ++ (text ++ rest).dropWhile valueCharacter = text ++ rest :=
    List.takeWhile_append_dropWhile
  obtain ⟨run, behind⟩ := List.append_inj whole size.symm
  constructor
  · intro c member
    rw [← run] at member
    exact List.mem_takeWhile_imp member
  · rw [← behind]
    exact startsIn_dropWhile valueCharacter (text ++ rest)

end

/-! ## Values among the pieces -/

def earlierRules : Grammar := [commentRule, selectorRule, propertyRule]

/-- The types whose tokens are taken before values are. -/
def shields : List TokenType := [.comment, .selector, .property]

theorem shields_named : ∀ type ∈ .value :: shields, type.name ≠ "" ∧ type ≠ .text := by decide

theorem mem_extents_css {code : String} {type : TokenType} (listed : type ∈ .value :: shields) {extent : Nat × Nat} :
    extent ∈ Span.extents type (Token.spans (tokenize (some "css") code)) ↔
      ∃ before text, Stands ⟨text, some type⟩ before (Language.css.grammar.claim code.toList) ∧
        extent = (before.length, before.length + text.length) := by
  obtain ⟨named, element⟩ := shields_named type listed
  exact Language.css.mem_extents_iff named element

/-- At the place a declaration or the code ends, or a token starts that is taken before values are. -/
def StopsAt (code : List Char) (spans : List Span) (place : Nat) : Prop :=
  place = code.length ∨ code[place]? = some ';' ∨ code[place]? = some '}' ∨
    ∃ type ∈ shields, ∃ extent ∈ Span.extents type spans, extent.1 = place

/-- The stretch starts with a colon or right behind one, no declaration ends in it, and it does not stop before it
has to. -/
structure IsValue (code : List Char) (spans : List Span) (extent : Nat × Nat) : Prop where
  colon : code[extent.1]? = some ':' ∨ ∃ place, place + 1 = extent.1 ∧ code[place]? = some ':'
  inside : ∀ place, Within extent place → code[place]? ≠ some ';' ∧ code[place]? ≠ some '}'
  stops : StopsAt code spans extent.2

variable {code : String} {text before : List Char}

theorem exists_free_of_value (stands : Stands ⟨text, some .value⟩ before (Language.css.grammar.claim code.toList)) :
    ∃ rest, LiesFree text rest before (earlierRules.claim code.toList) ∧
      valueRule.Matches before.reverse text rest :=
  Grammar.matched_of_stands_middle (by decide) (by decide) stands

theorem mem_extents_of_earlier {type : TokenType}
    (stands : Stands ⟨text, some type⟩ before (earlierRules.claim code.toList)) :
    type ∈ shields ∧ (before.length, before.length + text.length) ∈
      Span.extents type (Token.spans (tokenize (some "css") code)) := by
  have listed : type ∈ shields := Grammar.type_mem_of_stands stands
  have refines := Grammar.refines_claim_append earlierRules [valueRule, unitRule, stringRule] code.toList
  exact ⟨listed, (mem_extents_css (List.mem_cons_of_mem _ listed)).2 ⟨before, text, refines.keeps stands, rfl⟩⟩

theorem stopsAt_of_not {code : List Char} {spans : List Span} {front rest : List Char} (whole : code = front ++ rest)
    (outside : startsIn valueCharacter rest = false) : StopsAt code spans front.length := by
  cases rest with
  | nil => exact .inl (by rw [whole, List.append_nil])
  | cons c rest =>
    have found : code[front.length]? = some c := by simp [whole]
    have marks : c = ';' ∨ c = '}' := by
      by_contra other
      have inside : valueCharacter c = true := valueCharacter_iff.2 (not_or.1 other)
      rw [startsIn, inside] at outside
      cases outside
    rcases marks with rfl | rfl
    · exact .inr (.inl found)
    · exact .inr (.inr (.inl found))

theorem stopsAt_value (stands : Stands ⟨text, some .value⟩ before (Language.css.grammar.claim code.toList)) :
    StopsAt code.toList (Token.spans (tokenize (some "css") code)) (before.length + text.length) := by
  obtain ⟨rest, free, matched⟩ := exists_free_of_value stands
  have outside := (inside_of_matches matched).2
  obtain ⟨after, whole⟩ := Grammar.code_eq_of_stands stands
  have split : code.toList = (before ++ text) ++ after := by rw [whole, List.append_assoc]
  have tidy : Tidy (earlierRules.claim code.toList) := earlierRules.tidy_claim (by simp [whole, matched.some_text])
  rw [← List.length_append]
  rcases free.behind tidy ((earlierRules.source_claim _).trans whole) with rfl | ⟨next, type, more, rfl, claimed⟩
  · exact stopsAt_of_not split outside
  · -- What is free behind the value starts with a mark that no value can take; without it, the next token starts.
    by_cases none_free : rest = []
    · rw [none_free, List.append_nil] at claimed
      obtain ⟨listed, member⟩ := mem_extents_of_earlier claimed
      exact .inr (.inr (.inr ⟨type, listed, _, member, rfl⟩))
    · exact stopsAt_of_not split (by rwa [startsIn_append none_free])

theorem isValue_of_stands (stands : Stands ⟨text, some .value⟩ before (Language.css.grammar.claim code.toList)) :
    IsValue code.toList (Token.spans (tokenize (some "css") code)) (before.length, before.length + text.length) where
  colon := by
    obtain ⟨rest, -, matched⟩ := exists_free_of_value stands
    obtain ⟨after, whole⟩ := Grammar.code_eq_of_stands stands
    rcases (value_length matched.length).2 with sees | leads
    · obtain ⟨front, last⟩ := startsIn_colon.1 sees
      have split : before = front.reverse ++ [':'] := by rw [← List.reverse_reverse before, last, List.reverse_cons]
      exact .inr ⟨front.length, by simp [split], by simp [whole, split]⟩
    · rw [startsIn_append matched.some_text] at leads
      obtain ⟨more, own⟩ := startsIn_colon.1 leads
      exact .inl (by simp [whole, own])
  inside := by
    intro place within
    obtain ⟨rest, -, matched⟩ := exists_free_of_value stands
    obtain ⟨left, c, right, own, found⟩ := Grammar.exists_split_of_stands stands within
    have member : c ∈ text := by simp [own]
    have marks := valueCharacter_iff.1 ((inside_of_matches matched).1 c member)
    simpa [found] using marks
  stops := stopsAt_value stands

/-! ## Places behind colons -/

theorem misses_of_free {gap : List Char}
    (stands : Stands ⟨gap, none⟩ before ((earlierRules ++ [valueRule]).claim code.toList)) :
    ∃ rest, valueRule.Misses before.reverse gap rest := by
  rw [Grammar.claim_append] at stands
  obtain ⟨rest, missed⟩ := Rule.misses_of_stands_claimFrom stands
  rw [List.append_nil] at missed
  exact ⟨rest, missed⟩

theorem not_free_behind_colon {left right : List Char} {c : Char}
    (sees : startsIn colon (before ++ left).reverse = true) (inside : valueCharacter c = true) :
    ¬ Stands ⟨left ++ c :: right, none⟩ before ((earlierRules ++ [valueRule]).claim code.toList) := by
  intro stands
  obtain ⟨rest, missed⟩ := misses_of_free stands
  rw [List.reverse_append] at sees
  exact value_takes sees inside (missed left c right rfl)

theorem exists_extent_behind_colon {place : Nat} {c : Char} (sees : code.toList[place]? = some ':')
    (found : code.toList[place + 1]? = some c) (inside : valueCharacter c = true) :
    ∃ type ∈ .value :: shields, ∃ extent ∈ Span.extents type (Token.spans (tokenize (some "css") code)),
      Within extent (place + 1) := by
  obtain ⟨front, rest, whole, size⟩ := exists_split_of_getElem? found
  have last : front.getLast? = some ':' := by
    rw [whole, List.getElem?_append_left (by omega)] at sees
    rw [List.getLast?_eq_getElem?, size]
    exact sees
  have behind : startsIn colon front.reverse = true := by
    obtain ⟨earlier, rfl⟩ := List.getLast?_eq_some_iff.1 last
    rw [List.reverse_append]
    rfl
  have source := (earlierRules ++ [valueRule]).source_claim code.toList
  obtain ⟨before, left, right, type?, rfl, stands⟩ := exists_stands (source.trans whole)
  cases type? with
  | none => exact absurd stands (not_free_behind_colon behind inside)
  | some type =>
    have types : (earlierRules ++ [valueRule]).map Rule.type ⊆ .value :: shields := by decide
    have listed := types (Grammar.type_mem_of_stands stands)
    have refines := Grammar.refines_claim_append (earlierRules ++ [valueRule]) [unitRule, stringRule] code.toList
    have kept := refines.keeps stands
    refine ⟨type, listed, _, (mem_extents_css listed).2 ⟨before, _, kept, rfl⟩, ?_⟩
    rw [List.length_append] at size
    simp only [Within, List.length_append, List.length_cons]
    omega

/-! ## All values -/

/-- Each value token starts with a colon or right behind one, no declaration ends in it, and it goes on until a
declaration, the code or the free text ends. And what comes right behind a colon is a value, if it ends no declaration,
or it is in a comment, a selector or a property. -/
theorem values_are_complete (code : String) :
    let spans := Token.spans (tokenize (some "css") code)
    (∀ extent ∈ Span.extents .value spans, IsValue code.toList spans extent) ∧
      ∀ place c, code.toList[place]? = some ':' → code.toList[place + 1]? = some c → c ≠ ';' ∧ c ≠ '}' →
        ∃ type ∈ .value :: shields, ∃ extent ∈ Span.extents type spans, Within extent (place + 1) := by
  intro spans
  constructor
  · intro extent member
    obtain ⟨before, text, stands, rfl⟩ := (mem_extents_css List.mem_cons_self).1 member
    exact isValue_of_stands stands
  · intro place c sees found other
    exact exists_extent_behind_colon sees found (valueCharacter_iff.2 other)

/-- A property cuts the value before it in two, and within a comment a colon has no value. -/
theorem values_are_complete_around_property :
    let code := "a: url(b:c) /* d:e */ f \x7d"
    let spans := Token.spans (tokenize (some "css") code)
    (2, 7) ∈ Span.extents .value spans ∧ IsValue code.toList spans (2, 7) ∧
      ∃ type ∈ .value :: shields, ∃ extent ∈ Span.extents type spans, Within extent 17 := by
  intro code spans
  have member : (2, 7) ∈ Span.extents .value spans := by decide +kernel
  have complete := values_are_complete code
  exact ⟨member, complete.1 _ member, complete.2 16 'e' (by decide) (by decide) (by decide)⟩

end CodeColor.Css
