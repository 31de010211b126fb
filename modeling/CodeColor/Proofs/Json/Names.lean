import CodeColor.Language.Json
import CodeColor.Proofs.Json.Row

/-!
Which literals of a JSON text the grammar takes for names of members. A name is sought from every quote that is still
free, be it the first or the last quote of a literal or one within it.

Main statement: `carves_names`.
-/

namespace CodeColor.Json

open Pattern

/-! ## The pattern -/

/-- A colon comes first, perhaps behind white space. -/
def colonAhead (text : List Char) : Bool :=
  startsIn (· == ':') (text.dropWhile CharSet.blank)

/-- A colon follows on the next quote, perhaps behind white space. -/
def quoteThenColon : List Char → Bool
  | [] => false
  | c :: text => if c = '"' then colonAhead text else quoteThenColon text

def quote : CharSet := (· == '"')

theorem quoteThenColon_append {text : List Char} (plain : '"' ∉ text) (rest : List Char) :
    quoteThenColon (text ++ rest) = quoteThenColon rest := by
  induction text with
  | nil => rfl
  | cons c text ih =>
    simp only [List.mem_cons, not_or] at plain
    rw [List.cons_append, quoteThenColon, if_neg (Ne.symm plain.1), ih plain.2]

theorem exists_of_quoteThenColon {text : List Char} (found : quoteThenColon text = true) :
    ∃ body rest, text = body ++ '"' :: rest ∧ '"' ∉ body ∧ colonAhead rest = true := by
  induction text with
  | nil => cases found
  | cons c text ih =>
    rw [quoteThenColon] at found
    split at found
    next quoted => exact ⟨[], text, by rw [quoted]; rfl, List.not_mem_nil, found⟩
    next other =>
      obtain ⟨body, rest, rfl, plain, colon⟩ := ih found
      refine ⟨c :: body, rest, rfl, ?_, colon⟩
      simpa [plain] using Ne.symm other

section

variable {next : Cursor → Option Cursor}

theorem run_colonAhead (cursor : Cursor) :
    (ahead (many .blank ++ exactly ":")).run next cursor =
      if colonAhead cursor.after then next cursor else none := by
  obtain ⟨before, after, taken⟩ := cursor
  have waits : ∀ stop : Cursor, startsIn CharSet.blank stop.after = true →
      (exactly ":").run some stop = none :=
    fun stop blank => run_literal_outside (c := ':') (by decide) blank
  have found : ((many .blank ++ exactly ":").run some ⟨before, after, taken⟩).isSome = colonAhead after := by
    rw [run_append, run_many_dropWhile waits, colonAhead]
    cases behind : after.dropWhile CharSet.blank with
    | nil => rfl
    | cons c rest =>
      by_cases colon : c = ':'
      · subst colon
        exact congrArg Option.isSome (run_literal [':'] _ rest _)
      · rw [exactly, run_literal_absent (by simpa using Ne.symm colon)]
        simp [startsIn, colon]
  rw [run, found]

def keyEnd : Pattern := exactly "\"" ++ ahead (many .blank ++ exactly ":")

theorem run_key (cursor : Cursor) :
    Language.Json.key.run next cursor =
      (literal ['"']).run (fun stop => (one (.except ['"'])).run
        (fun stop => (many (.except ['"'])).run (keyEnd.run next) stop) stop) cursor := rfl

theorem run_key_body {body rest : List Char} (plain : '"' ∉ body) (some_text : body ≠ [])
    (stops : startsIn (.except ['"']) rest = false) (before : List Char) :
    Language.Json.key.run next ⟨before, '"' :: (body ++ rest), 0⟩ =
      keyEnd.run next ⟨body.reverse ++ '"' :: before, rest, body.length + 1⟩ := by
  obtain ⟨c, body, rfl⟩ := List.exists_cons_of_ne_nil some_text
  simp only [List.mem_cons, not_or] at plain
  have first : CharSet.except ['"'] c = true := by simpa [CharSet.except] using Ne.symm plain.1
  have inside : ∀ d ∈ body, CharSet.except ['"'] d = true := by
    intro d member
    have other : d ≠ '"' := fun same => plain.2 (same ▸ member)
    simpa [CharSet.except] using other
  have waits : ∀ stop : Cursor, startsIn (.except ['"']) stop.after = true →
      keyEnd.run next stop = none :=
    fun stop other => run_literal_outside (c := '"') (by decide) other
  have whole := run_many_until inside stops (c :: '"' :: before) 2 waits
  have size : 2 + body.length = (c :: body).length + 1 := by
    rw [List.length_cons]
    omega
  change _ = keyEnd.run next ⟨(c :: body).reverse ++ '"' :: before, rest, (c :: body).length + 1⟩
  rw [← size, List.reverse_cons, List.append_assoc]
  refine Eq.trans ?_ whole
  refine (run_key _).trans ((run_literal ['"'] before (c :: body ++ rest) 0).trans ?_)
  exact run_one first ('"' :: before) (body ++ rest) 1

theorem run_key_end (before rest : List Char) (taken : Nat) :
    keyEnd.run next ⟨before, '"' :: rest, taken⟩ =
      if colonAhead rest then next ⟨'"' :: before, rest, taken + 1⟩ else none := by
  have closed : (literal ['"']).run (fun stop => (ahead (many .blank ++ exactly ":")).run next stop)
      ⟨before, ['"'] ++ rest, taken⟩ =
      (ahead (many .blank ++ exactly ":")).run next ⟨'"' :: before, rest, taken + 1⟩ :=
    run_literal ['"'] before rest taken
  exact closed.trans (run_colonAhead _)

end

theorem key_match {body rest : List Char} (plain : '"' ∉ body) (some_text : body ≠ [])
    (colon : colonAhead rest = true) (before : List Char) :
    Language.Json.key.matchLength? before (Lexeme.quoted body ++ rest) =
      some (Lexeme.quoted body).length := by
  have split : Lexeme.quoted body ++ rest = '"' :: (body ++ '"' :: rest) := by simp [Lexeme.quoted]
  rw [split, matchLength?_eq_run, run_key_body plain some_text rfl, run_key_end, if_pos colon,
    accept_eq_some (Nat.succ_ne_zero _)]
  simp [Lexeme.quoted]

theorem key_none {text : List Char} (before : List Char)
    (absent : startsIn quote text = true ∨ quoteThenColon text = false) :
    Language.Json.key.matchLength? before ('"' :: text) = none := by
  by_cases closes : startsIn (.except ['"']) text = false
  · have opened : Language.Json.key.run accept ⟨before, '"' :: text, 0⟩ = none :=
      (run_key _).trans ((run_literal ['"'] before text 0).trans (run_one_absent closes))
    rw [matchLength?_eq_run, opened]
    rfl
  · obtain ⟨body, rest, rfl, plain, stops, some_text⟩ : ∃ body rest, text = body ++ rest ∧ '"' ∉ body ∧
        startsIn (.except ['"']) rest = false ∧ body ≠ [] := by
      refine ⟨text.takeWhile (CharSet.except ['"']), text.dropWhile (CharSet.except ['"']),
        List.takeWhile_append_dropWhile.symm, ?_, startsIn_dropWhile _ text, ?_⟩
      · intro member
        exact absurd (List.mem_takeWhile_imp member) (by decide)
      · intro empty
        cases text with
        | nil => exact closes rfl
        | cons c text =>
          have first : CharSet.except ['"'] c = true := by simpa [startsIn] using closes
          simp [first] at empty
    rw [matchLength?_eq_run, run_key_body plain some_text stops]
    cases rest with
    | nil => rfl
    | cons c rest =>
      have same : c = '"' := by simpa [startsIn, CharSet.except] using stops
      subst same
      have colon : colonAhead rest = false := by
        rw [quoteThenColon_append plain] at absent
        refine absent.resolve_left fun quoted => ?_
        obtain ⟨d, body, rfl⟩ := List.exists_cons_of_ne_nil some_text
        exact plain (beq_iff_eq.1 quoted ▸ List.mem_cons_self)
      rw [run_key_end, colon]
      rfl

theorem key_opensAt : Language.Json.key.OpensAt quote :=
  (((OpensAt.literal rfl []).append _).append _).append _

theorem quoted_of_key_match {before text after : List Char}
    (matched : Language.Json.key.matchLength? before (text ++ after) = some text.length) :
    ∃ body, text = Lexeme.quoted body ∧ '"' ∉ body := by
  obtain ⟨more, split⟩ : ∃ more, text ++ after = '"' :: more := by
    have opens : startsIn quote (text ++ after) = true := by
      by_contra other
      rw [key_opensAt.matchLength?_eq_none before (Bool.eq_false_iff.2 other)] at matched
      cases matched
    cases whole : text ++ after with
    | nil => simp [whole, startsIn] at opens
    | cons c more =>
      rw [whole] at opens
      exact ⟨more, by rw [beq_iff_eq.1 opens]⟩
  have present : ¬ (startsIn quote more = true ∨ quoteThenColon more = false) := by
    intro absent
    rw [split, key_none before absent] at matched
    cases matched
  rw [not_or, Bool.not_eq_false] at present
  obtain ⟨body, rest, rfl, plain, colon⟩ := exists_of_quoteThenColon present.2
  have some_text : body ≠ [] := by
    rintro rfl
    exact present.1 rfl
  have whole : text ++ after = Lexeme.quoted body ++ rest := by
    rw [split]
    simp [Lexeme.quoted]
  rw [whole, key_match plain some_text colon] at matched
  exact ⟨body, (List.append_inj whole (Option.some.inj matched).symm).1, plain⟩

/-! ## Calm texts -/

/-- No colon follows on a quote in the text. -/
def Quiet : List Char → Prop
  | [] => True
  | c :: text => (c = '"' → colonAhead text = false) ∧ Quiet text

/-- The lexemes hold no name but those of the members, and those are found: they have no quotes in them, no colon
follows on the quotes in other literals, and none follows on a first quote where the quote before it is free.
That is what `pending` says of the last quote in front of the lexemes. -/
def Calm (pending : Bool) : List Lexeme → Prop
  | [] => True
  | .name content :: rest =>
    '"' ∉ content ∧ (pending = true → colonAhead content = false) ∧ Calm content.isEmpty rest
  | .string content :: rest =>
    Quiet content ∧ (pending = true → colonAhead content = false) ∧ Calm true rest
  | _ :: rest => Calm pending rest

/-- Only literals hold quotes. -/
def Quoteless (lexemes : List Lexeme) : Prop :=
  ∀ lexeme ∈ lexemes, lexeme.isLiteral = false → '"' ∉ lexeme.text

theorem quote_not_mem_of_blank {space : List Char} (blank : Blank space) : '"' ∉ space :=
  fun member => absurd (blank '"' member) (by decide)

theorem colonAhead_append_blank {space : List Char} (blank : Blank space) (text : List Char) :
    colonAhead (space ++ text) = colonAhead text := by
  induction space with
  | nil => rfl
  | cons c space ih =>
    have first := blank_of_isSpace (blank c List.mem_cons_self)
    have onward := ih fun d member => blank d (List.mem_cons_of_mem c member)
    rwa [colonAhead, List.cons_append, List.dropWhile_cons, if_pos first]

theorem colonAhead_append_quote (content rest : List Char) :
    colonAhead (content ++ '"' :: rest) = colonAhead content := by
  induction content with
  | nil => rfl
  | cons c content ih =>
    by_cases blank : CharSet.blank c = true
    · rw [colonAhead, colonAhead, List.cons_append, List.dropWhile_cons, List.dropWhile_cons, if_pos blank,
        if_pos blank]
      exact ih
    · rw [colonAhead, colonAhead, List.cons_append, List.dropWhile_cons, List.dropWhile_cons, if_neg blank,
        if_neg blank]
      rfl

theorem quoteThenColon_content {content rest : List Char} (quiet : Quiet content)
    (behind : colonAhead rest = false) : quoteThenColon (content ++ '"' :: rest) = false := by
  induction content with
  | nil => exact behind
  | cons c content ih =>
    rw [List.cons_append, quoteThenColon]
    split
    next quoted => rw [colonAhead_append_quote, quiet.1 quoted]
    next => exact ih quiet.2

variable {trailing : List Char} {parts : List Spaced}

theorem colonAhead_ends (laid : Laid trailing parts) (ends : Ends (parts.map Spaced.lexeme)) :
    colonAhead (written parts ++ trailing) = false := by
  cases parts with
  | nil =>
    have whole := colonAhead_append_blank laid.blank_trailing []
    rw [List.append_nil] at whole
    exact whole
  | cons part parts =>
    obtain ⟨space, lexeme⟩ := part
    obtain none | ⟨c, rest, leads, known⟩ := ends
    · cases none
    · cases leads
      have blank : Blank space := laid.blank _ List.mem_cons_self
      have split : written (⟨space, .mark c⟩ :: parts) ++ trailing =
          space ++ c :: (written parts ++ trailing) := by simp [written, Lexeme.text]
      rw [split, colonAhead_append_blank blank]
      simp only [List.mem_cons, List.not_mem_nil, or_false] at known
      rcases known with rfl | rfl | rfl <;> rfl

theorem colonAhead_colon {part : Spaced} (blank : Blank part.space) (colon : part.lexeme = .mark ':') :
    colonAhead (written (part :: parts) ++ trailing) = true := by
  obtain ⟨space, lexeme⟩ := part
  subst colon
  have split : written (⟨space, .mark ':'⟩ :: parts) ++ trailing =
      space ++ ':' :: (written parts ++ trailing) := by simp [written, Lexeme.text]
  rw [split, colonAhead_append_blank blank]
  rfl

theorem quoteThenColon_calm (laid : Laid trailing parts) (quoteless : Quoteless (parts.map Spaced.lexeme))
    (calm : Calm true (parts.map Spaced.lexeme)) : quoteThenColon (written parts ++ trailing) = false := by
  induction parts with
  | nil =>
    have whole := quoteThenColon_append (quote_not_mem_of_blank laid.blank_trailing) []
    rw [List.append_nil] at whole
    exact whole
  | cons part parts ih =>
    obtain ⟨space, lexeme⟩ := part
    have plain := quote_not_mem_of_blank (laid.blank _ List.mem_cons_self)
    have onward := ih laid.tail fun other member => quoteless other (List.mem_cons_of_mem _ member)
    have split : written (⟨space, lexeme⟩ :: parts) ++ trailing =
        space ++ (lexeme.text ++ (written parts ++ trailing)) := by simp [written]
    rw [split, quoteThenColon_append plain]
    have first : ∀ content, colonAhead content = false →
        quoteThenColon (Lexeme.quoted content ++ (written parts ++ trailing)) = false := by
      intro content far
      have whole := colonAhead_append_quote content (written parts ++ trailing)
      rw [far] at whole
      simpa [Lexeme.quoted, quoteThenColon] using whole
    cases lexeme with
    | name content => exact first content (calm.2.1 rfl)
    | string content => exact first content (calm.2.1 rfl)
    | mark c => rw [quoteThenColon_append (quoteless _ List.mem_cons_self rfl), onward calm]
    | number text => rw [quoteThenColon_append (quoteless _ List.mem_cons_self rfl), onward calm]
    | word text => rw [quoteThenColon_append (quoteless _ List.mem_cons_self rfl), onward calm]

/-! ## The rule -/

def keyRule : Rule := ⟨"key", Language.Json.key, .property⟩

theorem keyRule_misses {text : List Char} (plain : '"' ∉ text) (before rest : List Char) :
    keyRule.Misses before text rest := by
  refine Rule.misses_of_opensAt key_opensAt (fun c member => ?_) before rest
  exact beq_eq_false_iff_ne.2 fun same => plain (same ▸ member)

theorem keyRule_misses_quote {before gap rest : List Char}
    (absent : startsIn quote (gap ++ rest) = true ∨ quoteThenColon (gap ++ rest) = false)
    (missed : keyRule.Misses ('"' :: before) gap rest) : keyRule.Misses before ('"' :: gap) rest :=
  Rule.misses_cons (key_none before absent) missed

section

variable {content rest : List Char} (next : quoteThenColon rest = false)
include next

theorem keyRule_misses_content (quiet : Quiet content) (behind : colonAhead rest = false)
    (before : List Char) : keyRule.Misses before (content ++ ['"']) rest := by
  induction content generalizing before with
  | nil => exact keyRule_misses_quote (.inr next) (Rule.misses_nil _ _ _)
  | cons c content ih =>
    have onward := ih quiet.2 (c :: before)
    refine Rule.misses_cons ?_ onward
    by_cases quoted : c = '"'
    · subst quoted
      have far := quoteThenColon_content quiet.2 behind
      rw [List.append_cons] at far
      exact key_none before (.inr far)
    · exact key_opensAt.matchLength?_eq_none before (beq_eq_false_iff_ne.2 quoted)

theorem keyRule_misses_string (quiet : Quiet content) (behind : colonAhead rest = false)
    (before : List Char) : keyRule.Misses before (Lexeme.quoted content) rest := by
  refine keyRule_misses_quote (.inr ?_) (keyRule_misses_content next quiet behind _)
  rw [List.append_assoc]
  exact quoteThenColon_content quiet behind

theorem keyRule_misses_void (before : List Char) : keyRule.Misses before (Lexeme.quoted []) rest :=
  keyRule_misses_quote (.inl rfl) (keyRule_misses_quote (.inr next) (Rule.misses_nil _ _ _))

end

/-- The rule for names takes the names with content out of a calm text, and nothing else. -/
theorem carves_names (laid : Laid trailing parts) (ordered : Ordered (parts.map Spaced.lexeme))
    (quoteless : Quoteless (parts.map Spaced.lexeme)) {pending : Bool}
    (calm : Calm pending (parts.map Spaced.lexeme)) (before : List Char) :
    keyRule.Carves [] before (row trailing parts) := by
  have missed : ∀ {text before : List Char} {type? : Option TokenType} {pieces : List Piece},
      Piece.isSeen [.property] ⟨text, type?⟩ = false →
      keyRule.Misses before text (Piece.source pieces) →
      keyRule.Carves [] (text.reverse ++ before) pieces →
      keyRule.Carves [] before (⟨text, type?⟩ :: pieces) := by
    intro text before type? pieces unseen missed onward
    rw [← Piece.openText_nil] at missed
    exact .missed unseen missed onward
  induction parts generalizing before pending with
  | nil => exact missed rfl (keyRule_misses (quote_not_mem_of_blank laid.blank_trailing) _ _) .nil
  | cons part parts ih =>
    have blank := laid.blank _ List.mem_cons_self
    refine missed rfl (keyRule_misses (quote_not_mem_of_blank blank) _ _) ?_
    have onward := ih laid.tail
    have quotelessOnward : Quoteless (parts.map Spaced.lexeme) :=
      fun lexeme member => quoteless lexeme (List.mem_cons_of_mem _ member)
    obtain ⟨space, lexeme⟩ := part
    have plain := quoteless lexeme List.mem_cons_self
    cases lexeme with
    | mark c =>
      exact missed rfl (keyRule_misses (plain rfl) _ _) (onward ordered quotelessOnward calm _)
    | number text =>
      exact missed rfl (keyRule_misses (plain rfl) _ _) (onward ordered.2 quotelessOnward calm _)
    | word text =>
      exact missed rfl (keyRule_misses (plain rfl) _ _) (onward ordered.2 quotelessOnward calm _)
    | string content =>
      obtain ⟨quiet, -, calmOnward⟩ := calm
      refine missed rfl ?_ (onward ordered.2 quotelessOnward calmOnward _)
      rw [source_row]
      exact keyRule_misses_string (quoteThenColon_calm laid.tail quotelessOnward calmOnward) quiet
        (colonAhead_ends laid.tail ordered.1) _
    | name content =>
      obtain ⟨unquoted, -, calmOnward⟩ := calm
      have further := onward ordered.2 quotelessOnward calmOnward
      by_cases void : content = []
      · subst void
        refine missed rfl ?_ (further _)
        rw [source_row]
        exact keyRule_misses_void (quoteThenColon_calm laid.tail quotelessOnward calmOnward) _
      · have colon : colonAhead (Piece.source (row trailing parts)) = true := by
          obtain ⟨⟨behind, leads⟩, -⟩ := ordered
          cases parts with
          | nil => cases leads
          | cons next parts =>
            rw [source_row]
            exact colonAhead_colon (laid.tail.blank _ List.mem_cons_self) (List.cons.inj leads).1
        have type : (Lexeme.name content).type = keyRule.type := if_neg void
        rw [type]
        refine .matched (List.not_mem_nil) (List.cons_ne_nil _ _) ?_ (further _)
        rw [Piece.openText_nil]
        exact key_match unquoted void colon _

end CodeColor.Json
