import CodeColor.Proofs.Claim.Carving

/-!
Claiming stretch by stretch. The rules can also settle a text by recursion: the first rule takes its matches out of a
stretch, and each gap that is left is settled by the other rules on its own, before the next gap is looked at.

Main statement: `claim_goes_stretch_by_stretch`. It rests on `Rule.weave_of_cuts` for one rule in one stretch, and on
`Grammar.spans_foldl` for all rules in all stretches.
-/

namespace CodeColor

/-! ## The recursion -/

/-- Start and stop of the matches that take some text, from left to right, the first of them at the place or behind it.
The text before a match is real text, and behind it the text ends where the stretch stops. -/
def Rule.matchesIn (rule : Rule) (code : List Char) (place stop : Nat) : List (Nat × Nat) :=
  if place < stop then
    match found : rule.pattern.matchLength? (code.take place).reverse ((code.take stop).drop place) with
    | none => rule.matchesIn code (place + 1) stop
    | some length => (place, place + length) :: rule.matchesIn code (place + length) stop
  else []
termination_by stop - place
decreasing_by
  · omega
  · have positive := Pattern.matchLength?_pos found
    omega

namespace Span

def ofGap (inside : Nat → Nat → List Span) (start stop : Nat) : List Span :=
  if start < stop then inside start stop else []

/-- The matches as spans of the type, and between them, in front of them and behind them the spans of the gaps. -/
def weave (inside : Nat → Nat → List Span) (type : TokenType) (stop place : Nat) : List (Nat × Nat) → List Span
  | [] => ofGap inside place stop
  | (first, last) :: found =>
    ofGap inside place first ++ ⟨first, last, some type⟩ :: weave inside type stop last found

def Holds (span other : Span) : Prop :=
  span.start ≤ other.start ∧ other.stop ≤ span.stop

instance (span other : Span) : Decidable (span.Holds other) :=
  inferInstanceAs (Decidable (_ ∧ _))

end Span

/-- The spans of one stretch, which the rules settle on its own. -/
def Grammar.claimStretch (code : List Char) : Grammar → Nat → Nat → List Span
  | [], start, stop => if start < stop then [⟨start, stop, none⟩] else []
  | rule :: rules, start, stop =>
    Span.weave (Grammar.claimStretch code rules) rule.type stop start (rule.matchesIn code start stop)

/-! ## Stretches -/

/-- The text comes in the code right behind `before`, and goes up to the place. -/
structure Stretch (code before text : List Char) (stop : Nat) : Prop where
  inside : ∃ after, code = before ++ (text ++ after)
  last : stop = before.length + text.length

namespace Stretch

variable {code before text gap rest : List Char} {stop : Nat}

theorem all (code : List Char) : Stretch code [] code code.length :=
  ⟨⟨[], (List.append_nil code).symm⟩, (Nat.zero_add _).symm⟩

theorem take_before (stretch : Stretch code before text stop) : code.take before.length = before := by
  obtain ⟨after, whole⟩ := stretch.inside
  rw [whole, List.take_left]

theorem drop_take (stretch : Stretch code before text stop) : (code.take stop).drop before.length = text := by
  obtain ⟨after, whole⟩ := stretch.inside
  rw [stretch.last, whole, ← List.length_append, ← List.append_assoc, List.take_left, List.drop_left]

theorem lt (stretch : Stretch code before text stop) (some_text : text ≠ []) : before.length < stop := by
  have positive := List.length_pos_iff.2 some_text
  rw [stretch.last]
  omega

theorem behind (stretch : Stretch code before (gap ++ rest) stop) : Stretch code (before ++ gap) rest stop := by
  obtain ⟨after, whole⟩ := stretch.inside
  refine ⟨⟨after, by rw [whole, List.append_assoc, List.append_assoc]⟩, ?_⟩
  rw [stretch.last, List.length_append, List.length_append, Nat.add_assoc]

theorem front (stretch : Stretch code before (gap ++ rest) stop) :
    Stretch code before gap (before.length + gap.length) := by
  obtain ⟨after, whole⟩ := stretch.inside
  exact ⟨⟨rest ++ after, by rw [whole, List.append_assoc]⟩, rfl⟩

end Stretch

/-! ## One rule in one stretch -/

namespace Rule

variable {rule : Rule} {code before text gap rest : List Char} {stop : Nat}

theorem matchesIn_end (rule : Rule) (code : List Char) (stop : Nat) : rule.matchesIn code stop stop = [] := by
  rw [matchesIn, if_neg (Nat.lt_irrefl stop)]

theorem matchesIn_none {c : Char} (stretch : Stretch code before (c :: text) stop)
    (absent : rule.pattern.matchLength? before.reverse (c :: text) = none) :
    rule.matchesIn code before.length stop = rule.matchesIn code (before ++ [c]).length stop := by
  rw [← stretch.drop_take, ← congrArg List.reverse stretch.take_before] at absent
  rw [matchesIn, if_pos (stretch.lt (List.cons_ne_nil c text)), List.length_append]
  split
  next => rfl
  next length found =>
    rw [absent] at found
    cases found

theorem matchesIn_some (stretch : Stretch code before (text ++ rest) stop) (some_text : text ≠ [])
    (found : rule.pattern.matchLength? before.reverse (text ++ rest) = some text.length) :
    rule.matchesIn code before.length stop =
      (before.length, (before ++ text).length) :: rule.matchesIn code (before ++ text).length stop := by
  rw [← stretch.drop_take, ← congrArg List.reverse stretch.take_before] at found
  rw [matchesIn, if_pos (stretch.lt (List.append_ne_nil_of_left_ne_nil some_text rest)), List.length_append]
  split
  next absent =>
    rw [found] at absent
    cases absent
  next length same =>
    obtain rfl : text.length = length := Option.some.inj (found.symm.trans same)
    rfl

theorem matchesIn_gap (stretch : Stretch code before (gap ++ rest) stop)
    (missed : rule.Misses before.reverse gap rest) :
    rule.matchesIn code before.length stop = rule.matchesIn code (before ++ gap).length stop := by
  induction gap generalizing before with
  | nil => rw [List.append_nil]
  | cons c gap ih =>
    have here : rule.pattern.matchLength? before.reverse (c :: (gap ++ rest)) = none := missed [] c gap rfl
    have further : rule.Misses (before ++ [c]).reverse gap rest := by
      rw [List.reverse_append]
      exact missed.tail
    have next : Stretch code before ([c] ++ (gap ++ rest)) stop := stretch
    rw [matchesIn_none stretch here, ih next.behind further, List.append_assoc]
    rfl

end Rule

/-! ## Rows of pieces -/

namespace Piece

def settled (inside : Nat → Nat → List Span) (offset : Nat) (piece : Piece) : List Span :=
  match piece.type? with
  | some _ => [piece.spanAt offset]
  | none => inside offset (offset + piece.text.length)

/-- What comes of a row of pieces that starts at the offset. -/
def settledFrom (inside : Nat → Nat → List Span) (offset : Nat) (pieces : List Piece) : List Span :=
  (along offsetPast (settled inside) offset pieces).flatten

variable {inside : Nat → Nat → List Span}

theorem settledFrom_nil (offset : Nat) : settledFrom inside offset [] = [] := rfl

theorem settledFrom_cons (offset : Nat) (piece : Piece) (pieces : List Piece) :
    settledFrom inside offset (piece :: pieces) =
      settled inside offset piece ++ settledFrom inside (offset + piece.text.length) pieces := rfl

theorem settledFrom_append (offset : Nat) (first second : List Piece) :
    settledFrom inside offset (first ++ second) =
      settledFrom inside offset first ++ settledFrom inside (offset + (source first).length) second := by
  rw [settledFrom, along_append steady_offsetPast, List.flatten_append]
  rfl

theorem settledFrom_free (offset : Nat) (gap : List Char) :
    settledFrom inside offset (free gap []) = Span.ofGap inside offset (offset + gap.length) := by
  cases gap with
  | nil => exact (if_neg (Nat.lt_irrefl offset)).symm
  | cons c gap =>
    have some_gap : offset < offset + (c :: gap).length := Nat.lt_add_of_pos_right (Nat.succ_pos _)
    rw [Span.ofGap, if_pos some_gap, free_cons, settledFrom_cons, settledFrom_nil, List.append_nil]
    rfl

theorem mem_settledFrom {offset : Nat} {pieces : List Piece} {span : Span} :
    span ∈ settledFrom inside offset pieces ↔
      ∃ before piece, Stands piece before pieces ∧ span ∈ settled inside (offset + before.length) piece := by
  simp only [settledFrom, List.mem_flatten, mem_along steady_offsetPast, offsetPast]
  constructor
  · rintro ⟨spans, ⟨before, piece, stands, rfl⟩, member⟩
    exact ⟨before, piece, stands, member⟩
  · rintro ⟨before, piece, stands, member⟩
    exact ⟨_, ⟨before, piece, stands, rfl⟩, member⟩

end Piece

namespace Rule

open Piece

variable {rule : Rule} {code before text : List Char} {stop : Nat}

theorem weave_of_cuts {inside : Nat → Nat → List Span} {past : List Char} {pieces : List Piece}
    (cuts : rule.Cuts past text pieces) (behind : before.reverse = past) (stretch : Stretch code before text stop) :
    Span.weave inside rule.type stop before.length (rule.matchesIn code before.length stop) =
      settledFrom inside before.length pieces := by
  induction cuts generalizing before with
  | @rest past gap missed =>
    subst behind
    rw [← List.append_nil gap] at stretch
    have done : stop = (before ++ gap).length := stretch.behind.last
    rw [matchesIn_gap stretch missed, ← done, matchesIn_end, Span.weave, settledFrom_free, done, List.length_append]
  | @found past gap claimed rest pieces missed some_text matched _ ih =>
    subst behind
    rw [← List.reverse_append] at matched
    have onward := ih (by rw [List.reverse_append, List.reverse_append]) stretch.behind.behind
    rw [matchesIn_gap stretch missed, matchesIn_some stretch.behind some_text matched, Span.weave, onward,
      settledFrom_append, settledFrom_free, source_free, settledFrom_cons]
    simp only [List.length_append]
    rfl

theorem claimStretch_cons (rules : Grammar) (stretch : Stretch code before text stop) :
    Grammar.claimStretch code (rule :: rules) before.length stop =
      settledFrom (rules.claimStretch code) before.length (rule.divide before.reverse ⟨text, none⟩) :=
  weave_of_cuts (rule.cuts_cut before.reverse text) rfl stretch

theorem settledFrom_claimFrom (rules : Grammar) {pieces : List Piece}
    (stretch : Stretch code before (source pieces) stop) :
    settledFrom (rules.claimStretch code) before.length (rule.claimFrom [] before.reverse pieces) =
      settledFrom (Grammar.claimStretch code (rule :: rules)) before.length pieces := by
  induction pieces generalizing before with
  | nil => rfl
  | cons piece pieces ih =>
    rw [source_cons] at stretch
    have onward := ih stretch.behind
    rw [List.reverse_append, List.length_append] at onward
    have here : settledFrom (rules.claimStretch code) before.length (rule.divide before.reverse piece) =
        settled (Grammar.claimStretch code (rule :: rules)) before.length piece := by
      obtain ⟨text, type?⟩ := piece
      cases type? with
      | some type => exact List.append_nil _
      | none => exact (claimStretch_cons rules stretch.front).symm
    rw [claimFrom_cons, settledFrom_append, source_divide, onward, here, settledFrom_cons]

end Rule

/-! ## All rules in all stretches -/

namespace Grammar

open Piece

theorem settledFrom_no_rule (code : List Char) {pieces : List Piece}
    (some_text : ∀ piece ∈ pieces, piece.text ≠ []) (offset : Nat) :
    settledFrom (claimStretch code []) offset pieces = along offsetPast spanAt offset pieces := by
  induction pieces generalizing offset with
  | nil => rfl
  | cons piece pieces ih =>
    obtain ⟨first, others⟩ := List.forall_mem_cons.1 some_text
    have single : settled (claimStretch code []) offset piece = [piece.spanAt offset] := by
      obtain ⟨text, type?⟩ := piece
      cases type? with
      | some type => rfl
      | none => exact if_pos (Nat.lt_add_of_pos_right (List.length_pos_iff.2 first))
    rw [settledFrom_cons, ih others, along, single]
    rfl

theorem spans_foldl (rules : Grammar) {pieces : List Piece} (tidy : Tidy pieces) :
    spans (rules.foldl (fun pieces rule => rule.claim pieces) pieces) =
      settledFrom (rules.claimStretch (source pieces)) 0 pieces := by
  induction rules generalizing pieces with
  | nil => rw [List.foldl_nil, spans_eq, settledFrom_no_rule _ tidy.some_text]
  | cons rule rules ih =>
    have kept : Tidy (rule.claim pieces) := rule.tidy_claimFrom [] tidy
    have onward := ih kept
    rw [rule.source_claim pieces] at onward
    exact onward.trans (Rule.settledFrom_claimFrom rules (.all (source pieces)))

theorem spans_claim_append (first others : Grammar) {code : List Char} (some_code : code ≠ []) :
    spans ((first ++ others).claim code) = settledFrom (others.claimStretch code) 0 (first.claim code) := by
  have onward := others.spans_foldl (first.tidy_claim some_code)
  rw [first.source_claim] at onward
  rw [← onward, claim, List.foldl_append]
  rfl

end Grammar

/-! ## What is settled in a stretch -/

namespace Span

/-- The span lies between the two places, and there is some text in it. -/
def LiesBetween (start stop : Nat) (span : Span) : Prop :=
  start ≤ span.start ∧ span.start < span.stop ∧ span.stop ≤ stop

/-- The spans that come of a stretch lie in it. -/
def StaysInside (code : List Char) (inside : Nat → Nat → List Span) : Prop :=
  ∀ before text stop, Stretch code before text stop →
    ∀ span ∈ inside before.length stop, span.LiesBetween before.length stop

end Span

namespace Piece

variable {code before : List Char} {pieces : List Piece} {stop : Nat}

theorem liesBetween_of_mem_settledFrom {inside : Nat → Nat → List Span} (stays : Span.StaysInside code inside)
    (some_text : ∀ piece ∈ pieces, piece.text ≠ []) (stretch : Stretch code before (source pieces) stop)
    {span : Span} (member : span ∈ settledFrom inside before.length pieces) :
    span.LiesBetween before.length stop := by
  obtain ⟨lead, ⟨text, type?⟩, stands, settled⟩ := mem_settledFrom.1 member
  obtain ⟨rest, split⟩ := stands.source_eq
  rw [split] at stretch
  have placed := stretch.behind
  have bounds : span.LiesBetween (before ++ lead).length ((before ++ lead).length + text.length) := by
    rw [← List.length_append] at settled
    cases type? with
    | some type =>
      have positive := List.length_pos_iff.2 (some_text _ stands.mem)
      rw [List.mem_singleton.1 settled]
      exact ⟨Nat.le_refl _, Nat.lt_add_of_pos_right positive, Nat.le_refl _⟩
    | none => exact stays _ _ _ placed.front span settled
  have last := placed.last
  simp only [Span.LiesBetween, List.length_append] at bounds last ⊢
  omega

end Piece

theorem Grammar.staysInside_claimStretch (code : List Char) (rules : Grammar) :
    Span.StaysInside code (rules.claimStretch code) := by
  induction rules with
  | nil =>
    intro before text stop _ span member
    rw [claimStretch] at member
    split at member
    next some_text =>
      rw [List.mem_singleton.1 member]
      exact ⟨Nat.le_refl _, some_text, Nat.le_refl _⟩
    next => cases member
  | cons rule rules ih =>
    intro before text stop stretch span member
    rw [Rule.claimStretch_cons rules stretch] at member
    have some_text : ∀ piece ∈ rule.divide before.reverse ⟨text, none⟩, piece.text ≠ [] :=
      (rule.cuts_cut before.reverse text).tidy.some_text
    have same : Piece.source (rule.divide before.reverse ⟨text, none⟩) = text := rule.source_divide _ _
    rw [← same] at stretch
    exact Piece.liesBetween_of_mem_settledFrom ih some_text stretch member

theorem Piece.filter_settledFrom (rules : Grammar) {text before : List Char} {pieces : List Piece}
    (some_text : ∀ piece ∈ pieces, piece.text ≠ []) (stands : Stands ⟨text, none⟩ before pieces) :
    (settledFrom (rules.claimStretch (source pieces)) 0 pieces).filter (spanAt before.length ⟨text, none⟩).Holds =
      rules.claimStretch (source pieces) before.length (before.length + text.length) := by
  obtain ⟨lead, later, rfl, rfl⟩ := stands.exists_row
  obtain ⟨some_lead, some_own, some_later⟩ := by simpa using List.forall_mem_append.1 some_text
  have whole : source (lead ++ ⟨text, none⟩ :: later) = source lead ++ (text ++ source later) := by
    rw [source_append, source_cons]
  rw [whole]
  have all := Stretch.all (source lead ++ (text ++ source later))
  have front : Stretch _ [] (source lead) (0 + (source lead).length) := all.front
  have own : Stretch _ (source lead) text ((source lead).length + text.length) := all.behind.front
  have behind : Stretch _ (source lead ++ text) (source later) _ := all.behind.behind
  have stays := rules.staysInside_claimStretch (source lead ++ (text ++ source later))
  generalize source lead ++ (text ++ source later) = code at front own behind stays
  have none_before : (settledFrom (rules.claimStretch code) 0 lead).filter
      (spanAt (source lead).length ⟨text, none⟩).Holds = [] := by
    apply List.filter_eq_nil_iff.2
    intro span member
    have bounds := liesBetween_of_mem_settledFrom stays some_lead front member
    rw [decide_eq_true_eq, Span.Holds]
    simp only [spanAt, Span.LiesBetween, List.length_nil] at bounds ⊢
    omega
  have all_inside : (rules.claimStretch code (source lead).length ((source lead).length + text.length)).filter
      (spanAt (source lead).length ⟨text, none⟩).Holds =
      rules.claimStretch code (source lead).length ((source lead).length + text.length) := by
    apply List.filter_eq_self.2
    intro span member
    have bounds := stays _ _ _ own span member
    exact decide_eq_true ⟨bounds.1, bounds.2.2⟩
  have none_behind : (settledFrom (rules.claimStretch code) ((source lead).length + text.length) later).filter
      (spanAt (source lead).length ⟨text, none⟩).Holds = [] := by
    apply List.filter_eq_nil_iff.2
    intro span member
    rw [← List.length_append] at member
    have bounds := liesBetween_of_mem_settledFrom stays some_later behind member
    rw [decide_eq_true_eq, Span.Holds]
    simp only [spanAt, Span.LiesBetween, List.length_append] at bounds ⊢
    omega
  rw [settledFrom_append, settledFrom_cons, Nat.zero_add, List.filter_append, List.filter_append, none_before,
    none_behind, List.append_nil]
  exact all_inside

/-- The spans of a text are those of the recursion over the whole of it. And if the first rules leave a stretch free,
what the others make of it is what the recursion makes of this stretch alone, however the rest of the text is cut. -/
theorem claim_goes_stretch_by_stretch (grammar : Grammar) (code : String) (some_code : code ≠ "") :
    Piece.spans (grammar.claim code.toList) = grammar.claimStretch code.toList 0 code.length ∧
      ∀ first others, grammar = first ++ others →
        ∀ gap ∈ Piece.spans (first.claim code.toList), gap.type? = none →
          (Piece.spans (grammar.claim code.toList)).filter gap.Holds =
            others.claimStretch code.toList gap.start gap.stop := by
  have some_text := toList_ne_nil some_code
  constructor
  · have whole := Grammar.spans_claim_append [] grammar some_text
    rw [List.nil_append] at whole
    rw [whole, ← String.length_toList]
    change grammar.claimStretch code.toList 0 (0 + code.toList.length) ++ [] = _
    rw [List.append_nil, Nat.zero_add]
  · rintro first others rfl gap member free
    obtain ⟨before, ⟨text, type?⟩, stands, rfl⟩ := Piece.mem_spans.1 member
    obtain rfl : type? = none := free
    have alone := Piece.filter_settledFrom others (first.tidy_claim some_text).some_text stands
    rw [first.source_claim] at alone
    rw [Grammar.spans_claim_append first others some_text]
    exact alone

/-- In front of the dash neither word stands free, and the last rule takes a letter; behind the dash a word does. -/
theorem claim_goes_stretch_by_stretch_around_dash :
    let first : Grammar := [Rule.literal "dash" "-" none]
    let others : Grammar :=
      [Rule.words "word" [⟨"a", by decide⟩, ⟨"ab", by decide⟩] none, Rule.literal "letter" "b" none]
    let code := "aab-ab"
    code ≠ "" ∧
      Piece.spans ((first ++ others).claim code.toList) = (first ++ others).claimStretch code.toList 0 code.length ∧
      ⟨0, 3, none⟩ ∈ Piece.spans (first.claim code.toList) ∧
      ⟨4, 6, none⟩ ∈ Piece.spans (first.claim code.toList) ∧
      others.claimStretch code.toList 0 3 = [⟨0, 2, none⟩, ⟨2, 3, some ⟨"letter"⟩⟩] ∧
      others.claimStretch code.toList 4 6 = [⟨4, 6, some ⟨"word"⟩⟩] := by
  intro first others code
  have some_code : code ≠ "" := by decide
  have left : ⟨0, 3, none⟩ ∈ Piece.spans (first.claim code.toList) := by decide
  have right : ⟨4, 6, none⟩ ∈ Piece.spans (first.claim code.toList) := by decide
  obtain ⟨whole, alone⟩ := claim_goes_stretch_by_stretch (first ++ others) code some_code
  refine ⟨some_code, whole, left, right, ?_, ?_⟩
  · exact (alone first others rfl _ left rfl).symm.trans (by decide)
  · exact (alone first others rfl _ right rfl).symm.trans (by decide)

end CodeColor
