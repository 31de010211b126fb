import CodeColor.Proofs.Markup.Colored
import CodeColor.Proofs.Token.Members

/-!
Where rendering fails. It goes through the fragments from left to right and stops at the first one that it cannot do
with, whether it escapes the values or not: what is missing there is the value, or else the type, or else the colour of
the type. So a highlighted source fails at the first of its tokens that has no colour, whichever rule claimed it.

Main statement: `rendering_fails_at_first_fault`. It rests on `Markup.renderFragments_eq_error_iff` for fragments, and
on `Grammar.highlight_eq_error_iff` for a source.
-/

namespace CodeColor

namespace Markup

/-! ## One fragment -/

/-- There is a value, and a type that is plain text or has a colour. -/
structure Fragment.Sound (fragment : Fragment) : Prop where
  value : fragment.value? ≠ none
  type : fragment.type? ≠ none
  color : ∀ type, fragment.type? = some type → type = .text ∨ type.color? ≠ none

/-- What rendering looks for in vain: the value first, whatever the type is, then the type, and then its colour. -/
inductive Fragment.Misses : Fragment → RenderError → Prop where
  | value (type? : Option TokenType) : Misses ⟨type?, none⟩ .missingValue
  | type (value : String) : Misses ⟨none, some value⟩ .missingType
  | color {type : TokenType} (value : String) (element : type ≠ .text) (uncolored : type.color? = none) :
      Misses ⟨some type, some value⟩ (.uncolored type)

namespace Fragment

variable {fragment : Fragment} {error other : RenderError}

theorem sound_or_misses (fragment : Fragment) : fragment.Sound ∨ ∃ error, fragment.Misses error := by
  obtain ⟨type?, value?⟩ := fragment
  cases value? with
  | none => exact .inr ⟨_, .value type?⟩
  | some value =>
    cases type? with
    | none => exact .inr ⟨_, .type value⟩
    | some type =>
      by_cases fine : type = .text ∨ type.color? ≠ none
      · exact .inl ⟨Option.some_ne_none value, Option.some_ne_none type, fun _ same => Option.some.inj same ▸ fine⟩
      · rw [not_or, not_not] at fine
        exact .inr ⟨_, .color value fine.1 fine.2⟩

theorem Misses.not_sound (misses : fragment.Misses error) : ¬ fragment.Sound := by
  intro sound
  cases misses with
  | value => exact sound.value rfl
  | type => exact sound.type rfl
  | color value element uncolored => exact (sound.color _ rfl).elim element fun colored => colored uncolored

theorem Misses.markup_eq_error (misses : fragment.Misses error) (escaped : Bool) :
    fragment.markup escaped = .error error := by
  cases misses with
  | value => rfl
  | type => rfl
  | color value element uncolored => simp only [markup, if_neg element, wrap, uncolored]

theorem Sound.exists_markup (sound : fragment.Sound) (escaped : Bool) : ∃ text, fragment.markup escaped = .ok text := by
  obtain ⟨type?, value?⟩ := fragment
  obtain ⟨value, rfl⟩ := Option.ne_none_iff_exists'.1 sound.value
  obtain ⟨type, rfl⟩ := Option.ne_none_iff_exists'.1 sound.type
  by_cases plain : type = .text
  · exact ⟨_, if_pos plain⟩
  · obtain ⟨color, found⟩ := Option.ne_none_iff_exists'.1 ((sound.color type rfl).resolve_left plain)
    exact ⟨opening type color ++ written escaped value ++ closing, by simp only [markup, if_neg plain, wrap, found]⟩

end Fragment

/-! ## Fragments in a row -/

/-- The first fragment that rendering cannot do with, and what it looks for there. -/
def FirstFault (fragments : List Fragment) (error : RenderError) : Prop :=
  ∃ before fragment after, fragments = before ++ fragment :: after ∧ (∀ earlier ∈ before, earlier.Sound) ∧
    fragment.Misses error

variable {escaped : Bool} {fragment : Fragment} {fragments : List Fragment} {error : RenderError}

theorem sound_or_firstFault (fragments : List Fragment) :
    (∀ fragment ∈ fragments, fragment.Sound) ∨ ∃ error, FirstFault fragments error := by
  induction fragments with
  | nil => exact .inl fun _ member => absurd member List.not_mem_nil
  | cons first fragments ih =>
    rcases first.sound_or_misses with sound | ⟨error, misses⟩
    · rcases ih with others | ⟨error, before, fragment, after, rfl, fine, misses⟩
      · exact .inl (List.forall_mem_cons.2 ⟨sound, others⟩)
      · exact .inr ⟨error, first :: before, fragment, after, rfl, List.forall_mem_cons.2 ⟨sound, fine⟩, misses⟩
    · exact .inr ⟨error, [], first, fragments, rfl, fun _ member => absurd member List.not_mem_nil, misses⟩

theorem renderFragments_cons {text : String} (rendered : fragment.markup escaped = .ok text)
    (fragments : List Fragment) :
    renderFragments escaped (fragment :: fragments) = (renderFragments escaped fragments).map (text ++ ·) := by
  rw [renderFragments, List.mapM_cons, rendered, renderFragments]
  cases fragments.mapM (Fragment.markup escaped) with
  | error error => rfl
  | ok texts => exact congrArg Except.ok (String.join_cons ..)

theorem renderFragments_of_sound (sound : ∀ fragment ∈ fragments, fragment.Sound) (escaped : Bool) :
    ∃ markup, renderFragments escaped fragments = .ok markup := by
  induction fragments with
  | nil => exact ⟨"", rfl⟩
  | cons first fragments ih =>
    obtain ⟨fine, others⟩ := List.forall_mem_cons.1 sound
    obtain ⟨text, rendered⟩ := fine.exists_markup escaped
    obtain ⟨markup, onward⟩ := ih others
    refine ⟨text ++ markup, ?_⟩
    rw [renderFragments_cons rendered, onward]
    rfl

theorem renderFragments_of_fault (fault : FirstFault fragments error) (escaped : Bool) :
    renderFragments escaped fragments = .error error := by
  obtain ⟨before, fragment, after, rfl, sound, misses⟩ := fault
  induction before with
  | nil =>
    rw [List.nil_append, renderFragments, List.mapM_cons, misses.markup_eq_error]
    rfl
  | cons first before ih =>
    obtain ⟨fine, others⟩ := List.forall_mem_cons.1 sound
    obtain ⟨text, rendered⟩ := fine.exists_markup escaped
    rw [List.cons_append, renderFragments_cons rendered, ih others]
    rfl

theorem renderFragments_eq_error_iff :
    renderFragments escaped fragments = .error error ↔ FirstFault fragments error := by
  constructor
  · intro failed
    rcases sound_or_firstFault fragments with sound | ⟨other, fault⟩
    · obtain ⟨markup, rendered⟩ := renderFragments_of_sound sound escaped
      rw [rendered] at failed
      cases failed
    · rw [renderFragments_of_fault fault] at failed
      cases failed
      exact fault
  · exact fun fault => renderFragments_of_fault fault escaped

theorem exists_renderFragments_iff :
    (∃ markup, renderFragments escaped fragments = .ok markup) ↔ ∀ fragment ∈ fragments, fragment.Sound := by
  constructor
  · rintro ⟨markup, rendered⟩
    apply (sound_or_firstFault fragments).resolve_right
    rintro ⟨error, fault⟩
    rw [renderFragments_of_fault fault] at rendered
    cases rendered
  · exact fun sound => renderFragments_of_sound sound escaped

/-! ## Tokens -/

theorem misses_ofToken {token : Token} :
    (Fragment.ofToken token).Misses error ↔ token.type.color? = none ∧ error = .uncolored token.type := by
  constructor
  · intro misses
    cases misses with
    | color _ _ uncolored => exact ⟨uncolored, rfl⟩
  · rintro ⟨uncolored, rfl⟩
    have element : token.type ≠ .text := by
      intro text
      rw [text] at uncolored
      cases uncolored
    exact .color token.value element uncolored

theorem sound_ofToken {token : Token} : (Fragment.ofToken token).Sound ↔ token.type.color? ≠ none := by
  constructor
  · intro sound uncolored
    exact (misses_ofToken.2 ⟨uncolored, rfl⟩).not_sound sound
  · intro colored
    apply (Fragment.sound_or_misses _).resolve_right
    rintro ⟨error, misses⟩
    exact colored (misses_ofToken.1 misses).1

theorem firstFault_map_iff {tokens : List Token} :
    FirstFault (tokens.map Fragment.ofToken) error ↔ ∃ before token after, tokens = before ++ token :: after ∧
      (∀ earlier ∈ before, earlier.type.color? ≠ none) ∧ token.type.color? = none ∧
        error = .uncolored token.type := by
  constructor
  · rintro ⟨_, _, _, split, sound, misses⟩
    obtain ⟨before, behind, rfl, rfl, further⟩ := List.map_eq_append_iff.1 split
    obtain ⟨token, after, rfl, rfl, rfl⟩ := List.map_eq_cons_iff.1 further
    refine ⟨before, token, after, rfl, ?_, misses_ofToken.1 misses⟩
    exact fun earlier member => sound_ofToken.1 (sound _ (List.mem_map_of_mem member))
  · rintro ⟨before, token, after, rfl, colored, uncolored, same⟩
    refine ⟨before.map Fragment.ofToken, _, after.map Fragment.ofToken, List.map_append, ?_,
      misses_ofToken.2 ⟨uncolored, same⟩⟩
    intro fragment member
    obtain ⟨earlier, inside, rfl⟩ := List.mem_map.1 member
    exact sound_ofToken.2 (colored earlier inside)

end Markup

namespace Grammar

open Markup

variable {grammar : Grammar} {escaped : Bool} {code : String} {token : Token} {error : RenderError}

/-- The token has no colour, and any other one without colour comes later in the source. -/
structure FirstUncolored (grammar : Grammar) (code : String) (token : Token) : Prop where
  member : token ∈ grammar.tokenize code
  uncolored : token.type.color? = none
  first : ∀ other ∈ grammar.tokenize code, other.type.color? = none → other = token ∨ token.ComesBefore other

theorem firstUncolored_iff :
    grammar.FirstUncolored code token ↔ ∃ before after, grammar.tokenize code = before ++ token :: after ∧
      (∀ earlier ∈ before, earlier.type.color? ≠ none) ∧ token.type.color? = none := by
  have ordered : (grammar.tokenize code).Pairwise Token.ComesBefore := (grammar.placed_tokenize code).ordered
  constructor
  · rintro ⟨member, uncolored, first⟩
    obtain ⟨before, after, whole⟩ := List.append_of_mem member
    rw [whole] at ordered
    refine ⟨before, after, whole, ?_, uncolored⟩
    intro earlier inside missing
    have comes := (List.pairwise_append.1 ordered).2.2 earlier inside token List.mem_cons_self
    rcases first earlier (whole ▸ List.mem_append_left _ inside) missing with rfl | behind
    · exact irrefl earlier comes
    · have around : earlier.ComesBefore earlier := Position.Precedes.trans comes behind
      exact irrefl earlier around
  · rintro ⟨before, after, whole, colored, uncolored⟩
    rw [whole] at ordered
    have behind := (List.pairwise_cons.1 (List.pairwise_append.1 ordered).2.1).1
    refine ⟨whole ▸ List.mem_append_right _ List.mem_cons_self, uncolored, ?_⟩
    intro other member missing
    rw [whole] at member
    rcases List.mem_append.1 member with earlier | member
    · exact absurd missing (colored other earlier)
    · exact (List.mem_cons.1 member).imp_right (behind other)

theorem highlight_eq_error_iff :
    grammar.highlight escaped code = .error error ↔
      ∃ token, grammar.FirstUncolored code token ∧ error = .uncolored token.type := by
  have failed : grammar.highlight escaped code = .error error ↔
      FirstFault ((grammar.tokenize code).map Fragment.ofToken) error := renderFragments_eq_error_iff
  rw [failed, firstFault_map_iff]
  simp only [firstUncolored_iff]
  constructor
  · rintro ⟨before, token, after, whole, colored, uncolored, same⟩
    exact ⟨token, ⟨before, after, whole, colored, uncolored⟩, same⟩
  · rintro ⟨token, ⟨before, after, whole, colored, uncolored⟩, same⟩
    exact ⟨before, token, after, whole, colored, uncolored, same⟩

theorem exists_highlight_error_iff :
    (∃ error, grammar.highlight escaped code = .error error) ↔
      ∃ token ∈ grammar.tokenize code, token.type.color? = none := by
  constructor
  · rintro ⟨error, failed⟩
    obtain ⟨token, first, -⟩ := highlight_eq_error_iff.1 failed
    exact ⟨token, first.member, first.uncolored⟩
  · rintro ⟨token, member, uncolored⟩
    cases rendered : grammar.highlight escaped code with
    | error error => exact ⟨error, rfl⟩
    | ok markup =>
      have sound := exists_renderFragments_iff.1 ⟨markup, rendered⟩
      exact absurd uncolored (sound_ofToken.1 (sound _ (List.mem_map_of_mem member)))

end Grammar

open Markup

/-- Whether values are escaped or not, fragments are rendered exactly if each of them has a value and a type, and the
type is plain text or has a colour. Otherwise rendering fails for the first fragment of which this is not true: it names
the value if that is missing, else the type if that is missing, else the type without colour. So highlighting a source
fails exactly if a token has no colour, and names the type of the first such token in the source. -/
theorem rendering_fails_at_first_fault :
    (∀ (escaped : Bool) (fragments : List Fragment),
      ((∃ markup, renderFragments escaped fragments = .ok markup) ↔ ∀ fragment ∈ fragments, fragment.Sound) ∧
      ∀ error, renderFragments escaped fragments = .error error ↔ FirstFault fragments error) ∧
    (RenderError.missingValue.key = "value" ∧ RenderError.missingType.key = "type" ∧
      ∀ type, (RenderError.uncolored type).key = type.name) ∧
    ∀ (grammar : Grammar) (escaped : Bool) (code : String),
      ((∃ error, grammar.highlight escaped code = .error error) ↔
        ∃ token ∈ grammar.tokenize code, token.type.color? = none) ∧
      ∀ error, grammar.highlight escaped code = .error error ↔
        ∃ token, grammar.FirstUncolored code token ∧ error = .uncolored token.type := by
  refine ⟨?_, ⟨rfl, rfl, fun type => rfl⟩, ?_⟩
  · intro escaped fragments
    exact ⟨exists_renderFragments_iff, fun error => renderFragments_eq_error_iff⟩
  · intro grammar escaped code
    exact ⟨Grammar.exists_highlight_error_iff, fun error => Grammar.highlight_eq_error_iff⟩

/-- The missing value comes behind a sound fragment, in front of a missing type. In the source the text of the second
rule comes first. -/
theorem rendering_fails_at_first_fault_in_source_order :
    let fragments : List Fragment := [⟨some .text, some "a"⟩, ⟨some ⟨"late"⟩, none⟩, ⟨none, some "b"⟩]
    let grammar : Grammar := [Rule.literal "late" "b" none, Rule.literal "early" "a" none]
    renderFragments true fragments = .error .missingValue ∧ renderFragments false fragments = .error .missingValue ∧
      grammar.highlight true "1ab" = .error (.uncolored ⟨"early"⟩) ∧
      grammar.highlight false "1ab" = .error (.uncolored ⟨"early"⟩) := by
  intro fragments grammar
  obtain ⟨rendered, -, highlighted⟩ := rendering_fails_at_first_fault
  have tokens : grammar.tokenize "1ab" =
      [⟨.text, "1", 1, 1⟩, ⟨⟨"early"⟩, "a", 1, 2⟩, ⟨⟨"late"⟩, "b", 1, 3⟩] := by decide
  have sound : ∀ earlier ∈ [(⟨some .text, some "a"⟩ : Fragment)], earlier.Sound := by
    intro earlier member
    rw [List.mem_singleton.1 member]
    exact ⟨by decide, by decide, fun type same => .inl (Option.some.inj same).symm⟩
  have failed (escaped : Bool) : renderFragments escaped fragments = .error .missingValue :=
    ((rendered escaped fragments).2 _).2 ⟨_, _, _, rfl, sound, .value _⟩
  have named (escaped : Bool) : grammar.highlight escaped "1ab" = .error (.uncolored ⟨"early"⟩) := by
    have first : grammar.FirstUncolored "1ab" ⟨⟨"early"⟩, "a", 1, 2⟩ := by
      constructor
      · rw [tokens]
        decide
      · rfl
      · rw [tokens]
        decide
    exact ((highlighted grammar escaped "1ab").2 _).2 ⟨_, first, rfl⟩
  exact ⟨failed true, failed false, named true, named false⟩

end CodeColor
