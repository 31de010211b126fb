import CodeColor.Proofs.Claim.Partition
import CodeColor.Proofs.Language.Colors
import CodeColor.Proofs.Markup.Tags
import CodeColor.Proofs.Service.LocalHost
import CodeColor.Proofs.Service.Submission
import CodeColor.Proofs.Text.Names

/-!
The parts of the answer to a highlighting request, which are computed apart from each other, and how they
agree.

Main statement: `highlight_answer_agrees`.
-/

namespace CodeColor

theorem TokenType.eq_iff_name {first second : TokenType} : first = second ↔ first.name = second.name := by
  cases first
  cases second
  simp

namespace Service

/-! ## Counts -/

/-- The counts, by name, are those of the tokens' types other than plain text. -/
structure CountsAgree (tokens : List Token) (counts : List (String × Nat)) : Prop where
  distinct : (counts.map Prod.fst).Nodup
  mem_iff : ∀ name count, (name, count) ∈ counts ↔
    name ≠ TokenType.text.name ∧ (∃ token ∈ tokens, token.type.name = name) ∧
      count = tokens.countP fun token => token.type.name = name

/-- The types of the tokens that are not plain text, one for each token. -/
def claimedTypes (tokens : List Token) : List TokenType :=
  (tokens.map Token.type).filter (· ≠ .text)

theorem length_claimedTypes (tokens : List Token) :
    (claimedTypes tokens).length = tokens.countP fun token => token.type ≠ .text := by
  unfold claimedTypes
  rw [← List.countP_eq_length_filter, List.countP_map]
  rfl

theorem mem_claimedTypes {type : TokenType} {tokens : List Token} :
    type ∈ claimedTypes tokens ↔ type ≠ .text ∧ ∃ token ∈ tokens, token.type = type := by
  simp [claimedTypes, and_comm]

theorem count_claimedTypes {type : TokenType} (element : type ≠ .text) (tokens : List Token) :
    (claimedTypes tokens).count type = tokens.countP fun token => token.type.name = type.name := by
  unfold claimedTypes
  rw [List.count_filter (by simpa using element), List.count, List.countP_map]
  apply List.countP_congr
  intro token _
  simp [TokenType.eq_iff_name]

/-- The types in the order in which they come first, each with its number. -/
def tally (types : List TokenType) : List (TokenType × Nat) :=
  types.eraseDups.map fun type => (type, types.count type)

theorem bump_map {type : TokenType} {keys : List TokenType} (distinct : keys.Nodup) (number : TokenType → Nat) :
    bump type (keys.map fun key => (key, number key)) =
      if type ∈ keys then keys.map fun key => (key, number key + if key = type then 1 else 0)
      else keys.map (fun key => (key, number key)) ++ [(type, 1)] := by
  induction keys with
  | nil => rfl
  | cons key keys ih =>
    obtain ⟨fresh, others⟩ := List.nodup_cons.1 distinct
    rw [List.map_cons, bump]
    by_cases same : key = type
    · subst same
      rw [if_pos rfl, if_pos List.mem_cons_self, List.map_cons, if_pos rfl]
      congr 1
      refine List.map_congr_left fun other member => ?_
      have apart : other ≠ key := fun equal => fresh (equal ▸ member)
      rw [if_neg apart, Nat.add_zero]
    · have member : type ∈ key :: keys ↔ type ∈ keys := by simp [Ne.symm same]
      rw [if_neg same, ih others]
      simp only [member]
      split
      next => rw [List.map_cons, if_neg same, Nat.add_zero]
      next => rfl

theorem bump_tally (types : List TokenType) (type : TokenType) : bump type (tally types) = tally (types ++ [type]) := by
  unfold tally
  rw [bump_map (nodup_eraseDups types), eraseDups_concat]
  simp only [List.mem_eraseDups]
  have one (key : TokenType) : [type].count key = if key = type then 1 else 0 := by
    by_cases same : key = type
    · rw [if_pos same, same, List.count_singleton_self]
    · rw [if_neg same, List.count_eq_zero_of_not_mem (mt List.mem_singleton.1 same)]
  split
  next => simp only [List.count_append, one]
  next fresh =>
    rw [List.map_append]
    congr 1
    · refine List.map_congr_left fun key member => ?_
      have apart : key ≠ type := fun same => fresh (same ▸ List.mem_eraseDups.1 member)
      rw [List.count_append, one, if_neg apart, Nat.add_zero]
    · rw [List.map_singleton, List.count_append, one, if_pos rfl, List.count_eq_zero_of_not_mem fresh, Nat.zero_add]

theorem foldl_bump (types others : List TokenType) :
    others.foldl (fun counts type => bump type counts) (tally types) = tally (types ++ others) := by
  induction others generalizing types with
  | nil => rw [List.foldl_nil, List.append_nil]
  | cons type others ih => rw [List.foldl_cons, bump_tally, ih, List.append_assoc, List.singleton_append]

theorem countByType_eq (tokens : List Token) : countByType tokens = tally (claimedTypes tokens) := by
  have counted := foldl_bump [] (claimedTypes tokens)
  rw [List.nil_append, claimedTypes, List.foldl_filter, List.foldl_map] at counted
  rw [countByType, claimedTypes, ← counted]
  congr 1
  funext counts token
  by_cases plain : token.type = .text <;> simp [plain]

theorem foldl_add_bump (type : TokenType) (counts : List (TokenType × Nat)) (start : Nat) :
    (bump type counts).foldl (fun sum entry => sum + entry.2) start =
      counts.foldl (fun sum entry => sum + entry.2) (start + 1) := by
  induction counts generalizing start with
  | nil => rfl
  | cons entry counts ih =>
    obtain ⟨other, count⟩ := entry
    rw [bump]
    split
    next => rw [List.foldl_cons, List.foldl_cons, Nat.add_right_comm, Nat.add_assoc]
    next => rw [List.foldl_cons, List.foldl_cons, ih, Nat.add_right_comm]

theorem total_tally (types : List TokenType) : total (tally types) = types.length := by
  have onto (start : Nat) : (tally types).foldl (fun sum entry => sum + entry.2) start = start + types.length := by
    induction types using List.reverseRecOn generalizing start with
    | nil => rfl
    | append_singleton types type ih =>
      rw [← bump_tally, foldl_add_bump, ih, List.length_append, List.length_singleton, Nat.add_right_comm,
        Nat.add_assoc]
  rw [total, onto, Nat.zero_add]

theorem total_countByType (tokens : List Token) :
    total (countByType tokens) = tokens.countP fun token => token.type ≠ .text := by
  rw [countByType_eq, total_tally, length_claimedTypes]

def namedCounts (tokens : List Token) : List (String × Nat) :=
  (countByType tokens).map fun (type, count) => (type.name, count)

theorem mem_namedCounts {name : String} {count : Nat} {tokens : List Token} :
    (name, count) ∈ namedCounts tokens ↔
      ⟨name⟩ ∈ claimedTypes tokens ∧ count = (claimedTypes tokens).count ⟨name⟩ := by
  unfold namedCounts
  rw [countByType_eq, tally]
  simp only [List.map_map, List.mem_map, List.mem_eraseDups, Function.comp_apply, Prod.mk.injEq]
  constructor
  · rintro ⟨type, member, rfl, rfl⟩
    exact ⟨member, rfl⟩
  · rintro ⟨member, rfl⟩
    exact ⟨_, member, rfl, rfl⟩

theorem counts_agree (tokens : List Token) : CountsAgree tokens (namedCounts tokens) := by
  constructor
  · have names : (namedCounts tokens).map Prod.fst =
        (claimedTypes tokens).eraseDups.map TokenType.name := by
      unfold namedCounts
      rw [countByType_eq, tally, List.map_map, List.map_map]
      rfl
    have injective : Function.Injective TokenType.name := fun _ _ same => TokenType.eq_iff_name.2 same
    rw [names]
    exact (nodup_eraseDups _).map injective
  · intro name count
    rw [mem_namedCounts, mem_claimedTypes]
    have named : ∀ type : TokenType, type = ⟨name⟩ ↔ type.name = name := fun _ => TokenType.eq_iff_name
    have element : (⟨name⟩ : TokenType) ≠ .text ↔ name ≠ TokenType.text.name := TokenType.eq_iff_name.not
    simp only [named]
    constructor
    · rintro ⟨⟨other, occurs⟩, rfl⟩
      exact ⟨element.1 other, occurs, count_claimedTypes other tokens⟩
    · rintro ⟨other, occurs, rfl⟩
      exact ⟨⟨element.2 other, occurs⟩, (count_claimedTypes (element.2 other) tokens).symm⟩

theorem countsToJson_eq (tokens : List Token) :
    countsToJson (countByType tokens) = .object
      [("total", .nat (tokens.countP fun token => token.type ≠ .text)),
        ("by_type", .object ((namedCounts tokens).map fun (name, count) => (name, .nat count)))] := by
  unfold countsToJson namedCounts
  rw [total_countByType, List.map_map]
  rfl

/-! ## Answers -/

/-- The parts of an answer agree with each other and with the code that was submitted. -/
structure Highlighted.Agrees (escaped : Bool) (code : String) (highlighted : Highlighted) : Prop where
  source : String.join (highlighted.tokens.map Token.value) = code
  markup_eq : highlight (some highlighted.language) escaped code = .ok highlighted.markup
  tags : escaped = true → ∀ tag ∈ ["</span>", "<span "],
    Markup.occurrences tag.toList highlighted.markup.toList =
      highlighted.tokens.countP fun token => token.type ≠ .text

theorem highlightAs_eq_ok (language confidence : String) (escaped : Bool) (code : String) :
    highlightAs language confidence escaped code =
      .ok ⟨language, confidence, String.ofList (Markup.markup escaped (tokenize (some language) code)),
        tokenize (some language) code⟩ := by
  simp only [highlightAs]
  rw [Markup.render_eq_ok (colored_tokenize _ _)]

theorem agrees_highlightAs {language confidence : String} {escaped : Bool} {code : String}
    {highlighted : Highlighted} (found : highlightAs language confidence escaped code = .ok highlighted) :
    highlighted.Agrees escaped code := by
  have colored := colored_tokenize (some language) code
  have covers : Token.Covers code (tokenize (some language) code) := Grammar.covers_tokenize _ code
  rw [highlightAs_eq_ok] at found
  cases found
  constructor
  · exact covers.source
  · rw [highlight_eq_render, Markup.render_eq_ok colored]
  · rintro rfl tag member
    have closing : "</span>".toList = '<' :: "/span>".toList := by decide
    have opening : "<span ".toList = '<' :: "span ".toList := by decide
    rw [String.toList_ofList]
    rcases List.mem_cons.1 member with rfl | member
    · rw [closing, Markup.occurrences_markup Markup.closing_once colored]
    · rw [List.mem_singleton.1 member, opening, Markup.occurrences_markup Markup.opening_once colored]

theorem agrees_highlightWith {nesting : Nat} {options : Options} {code : String} {highlighted : Highlighted}
    (found : highlightWith nesting options code = .ok highlighted) : highlighted.Agrees options.escaped code := by
  unfold highlightWith at found
  split at found
  next =>
    split at found
    next => cases found
    next =>
      split at found
      next => cases found
      next => exact agrees_highlightAs found
  next => exact agrees_highlightAs found

theorem Highlighted.toJson_eq (highlighted : Highlighted) :
    highlighted.toJson = .object
      [("language", .string highlighted.language),
        ("confidence", .string highlighted.confidence),
        ("html", .string highlighted.markup),
        ("tokens", .array (highlighted.tokens.map Token.toJson)),
        ("stats", .object
          [("total", .nat (highlighted.tokens.countP fun token => token.type ≠ .text)),
            ("by_type", .object ((namedCounts highlighted.tokens).map fun (name, count) =>
              (name, .nat count)))])] := by
  unfold Highlighted.toJson
  rw [countsToJson_eq]

/-- The parts of an accepted answer agree: the tokens make up the submitted code, the markup is that of the code
in the answered language, and the numbers are those of the tokens and of the markup's elements. -/
theorem highlight_answer_agrees {host : Host} {request : Request}
    (routed : host.destination request.method request.path = ⟨.route .highlight, false⟩)
    (accepted : (answer host request).status = 200) :
    ∃ (submission : Json) (code : String) (escaped : Bool) (highlighted : Highlighted) (counts : List (String × Nat)),
      host.submitted request.body? = .ok submission ∧
      submission.field? "code" = some (.string code) ∧
      (submission.field? "escape" = some (.bool escaped) ∨
        submission.field? "escape" = none ∧ escaped = true) ∧
      (answer host request).content = .json (.object
        [("language", .string highlighted.language),
          ("confidence", .string highlighted.confidence),
          ("html", .string highlighted.markup),
          ("tokens", .array (highlighted.tokens.map Token.toJson)),
          ("stats", .object
            [("total", .nat (highlighted.tokens.countP fun token => token.type ≠ .text)),
              ("by_type", .object (counts.map fun (name, count) => (name, .nat count)))])]) ∧
      highlighted.Agrees escaped code ∧ CountsAgree highlighted.tokens counts := by
  obtain ⟨submission, highlighted, given, found⟩ := exists_highlighted routed accepted
  have response := answer_highlight routed given found
  obtain ⟨code, options, code_read, options_read, whole⟩ := highlightSubmission_eq_ok.1 found
  obtain ⟨code_given, _, _⟩ := readCode_eq_ok.1 code_read
  have escaped := readEscaped_eq_ok.1 (readOptions_eq_ok.1 options_read).2
  rw [highlighted.toJson_eq] at response
  exact ⟨submission, code, options.escaped, highlighted, namedCounts highlighted.tokens, given, code_given, escaped,
    congrArg Response.content response, agrees_highlightWith whole, counts_agree highlighted.tokens⟩

/-- Code that looks like an element, with nothing said on escapes. -/
theorem highlight_answer_agrees_on_markup :
    let request : Request :=
      ⟨"POST", "/api/highlight",
        some ⟨"application/json", "\x7b\"code\": \"<span class=a></span>\", \"language\": \" HTML\"\x7d"⟩,
        standardLimit⟩
    localHost.destination request.method request.path = ⟨.route .highlight, false⟩ ∧
      (answer localHost request).status = 200 ∧
      ∃ (value : Json) (highlighted : Highlighted), (answer localHost request).content = .json value ∧
        value.field? "html" = some (.string highlighted.markup) ∧
        highlighted.Agrees true "<span class=a></span>" := by
  intro request
  have routed : localHost.destination request.method request.path = ⟨.route .highlight, false⟩ :=
    destination_of_route .highlight
  have accepted : (answer localHost request).status = 200 := by decide +kernel
  have submitted_code : (localHost.field? request.body? "code").bind Json.string? = some "<span class=a></span>" := by
    decide +kernel
  have no_escape : (localHost.field? request.body? "escape").bind Json.bool? = none := by decide +kernel
  obtain ⟨submission, code, escaped, highlighted, counts, given, code_given, flag, content, agrees, -⟩ :=
    highlight_answer_agrees routed accepted
  rw [Host.field?_eq given, code_given] at submitted_code
  rw [Host.field?_eq given] at no_escape
  cases submitted_code
  rcases flag with flag | ⟨-, rfl⟩
  · rw [flag] at no_escape
    cases no_escape
  · exact ⟨routed, accepted, _, highlighted, content, rfl, agrees⟩

end Service

end CodeColor
