import CodeColor.Proofs.Detection.Judgement
import CodeColor.Proofs.Pattern.Lines
import CodeColor.Proofs.Pattern.Stops

/-!
Detection of JSON texts. The marks around an array or an object speak for JSON, and without string literals hardly
anything in the text speaks for another language.

Main statement: `detect_document`.
-/

namespace CodeColor

theorem exists_last_line (text : List Char) :
    ∃ front line, text = front ++ line ∧ (∀ c ∈ line, CharSet.inLine c = true) ∧
      startsIn .inLine front.reverse = false := by
  refine ⟨(text.reverse.dropWhile CharSet.inLine).reverse, (text.reverse.takeWhile CharSet.inLine).reverse, ?_, ?_, ?_⟩
  · rw [← List.reverse_append, List.takeWhile_append_dropWhile, List.reverse_reverse]
  · exact fun c member => List.mem_takeWhile_imp (List.mem_reverse.1 member)
  · rw [List.reverse_reverse]
    exact startsIn_dropWhile CharSet.inLine text.reverse

open Pattern Json

/-! ## Brackets -/

namespace Evidence

variable {space rest front trailing : List Char} {first last : Char}

theorem mem_indent_of_isSpace {c : Char} (space : isSpace c = true) (no_return : c ≠ '\r')
    (in_line : CharSet.inLine c = true) : CharSet.among [' ', '\t'] c = true := by
  simp only [isSpace, Bool.or_eq_true, decide_eq_true_eq] at space
  rcases space with ((rfl | rfl) | rfl) | rfl
  · rfl
  · rfl
  · cases in_line
  · exact absurd rfl no_return

def opening : Pattern := guard .lineStart ++ indent ++ one (.among ['{', '['])

def closing : Pattern := one (.among [']', '}']) ++ gap ++ guard .lineEnd

theorem opening_occurs (blank : Blank space) (no_return : '\r' ∉ space) (opens : first ∈ ['[', '{']) :
    opening.occursIn (space ++ first :: rest) = true := by
  obtain ⟨front, line, rfl, in_line, start⟩ := exists_last_line space
  have indented : ∀ c ∈ line, CharSet.among [' ', '\t'] c = true := by
    intro c member
    have inside : c ∈ front ++ line := List.mem_append_right front member
    exact mem_indent_of_isSpace (blank c inside) (fun same => no_return (same ▸ inside)) (in_line c member)
  have bracket : CharSet.among ['{', '['] first = true := by
    simp only [List.mem_cons, List.not_mem_nil, or_false] at opens
    rcases opens with rfl | rfl <;> rfl
  have line_start : Guard.lineStart.holds ⟨front.reverse, line ++ first :: rest, 0⟩ = true := by
    rw [Guard.holds, breaks_eq, start]
    rfl
  have taken : (indent ++ one (.among ['{', '['])).Spells (line ++ [first]) :=
    ⟨line, [first], rfl, indented, first, bracket, rfl⟩
  have passes := Cursor.passes_behind (line ++ [first]) front.reverse rest 0
  rw [List.append_assoc, List.singleton_append] at passes
  have found := mem_ends_of_spells rfl taken passes
  obtain ⟨middle, behind_line, behind_mark⟩ := mem_ends_append.1 found
  refine occursIn_iff.2 ⟨⟨front.reverse, line ++ first :: rest, 0⟩, _, ?_, rfl, mem_ends_append.2
    ⟨middle, mem_ends_append.2 ⟨_, mem_ends_guard.2 ⟨line_start, rfl⟩, behind_line⟩, behind_mark⟩⟩
  rw [Cursor.In, List.reverse_reverse, List.append_assoc]

theorem closing_occurs (blank : Blank trailing) (closes : last ∈ [']', '}']) :
    closing.occursIn (front ++ last :: trailing) = true := by
  have bracket : CharSet.among [']', '}'] last = true := by
    simp only [List.mem_cons, List.not_mem_nil, or_false] at closes
    rcases closes with rfl | rfl <;> rfl
  have taken : (one (.among [']', '}']) ++ gap).Spells (last :: trailing) :=
    ⟨[last], trailing, rfl, ⟨last, bracket, rfl⟩, fun c member => blank_of_isSpace (blank c member)⟩
  have passes := Cursor.passes_behind (last :: trailing) front.reverse [] 0
  rw [List.append_nil] at passes
  have found := mem_ends_of_spells rfl taken passes
  refine occursIn_iff.2 ⟨⟨front.reverse, last :: trailing, 0⟩, _, ?_, rfl, mem_ends_append.2
    ⟨_, found, mem_ends_guard.2 ⟨rfl, rfl⟩⟩⟩
  rw [Cursor.In, List.reverse_reverse]

theorem score_of_weak {evidence : Evidence} {pattern : Pattern} {text : List Char} (weak : pattern ∈ evidence.weak)
    (occurs : pattern.occursIn text = true) : 1 ≤ evidence.score text := by
  have some_weak : 0 < evidence.weak.countP (·.occursIn text) := List.countP_pos_iff.2 ⟨pattern, weak, occurs⟩
  unfold score
  omega

theorem score_of_both {evidence : Evidence} {heavy light : Pattern} {text : List Char}
    (strong : heavy ∈ evidence.strong) (occurs : heavy.occursIn text = true) (weak : light ∈ evidence.weak)
    (also : light.occursIn text = true) : 4 ≤ evidence.score text := by
  have some_strong : 0 < evidence.strong.countP (·.occursIn text) := List.countP_pos_iff.2 ⟨heavy, strong, occurs⟩
  have some_weak : 0 < evidence.weak.countP (·.occursIn text) := List.countP_pos_iff.2 ⟨light, weak, also⟩
  unfold score
  omega

theorem opening_mem : opening ∈ Evidence.json.strong := List.mem_cons_self

theorem closing_mem : closing ∈ Evidence.json.weak := List.mem_cons_of_mem _ List.mem_cons_self

end Evidence

/-! ## Texts without string literals -/

namespace Json

/-- The lexeme is no string literal, and no colon, which comes only behind one. -/
def Lexeme.Unquoted : Lexeme → Prop
  | mark c => c ∈ ['[', ']', '{', '}', ',']
  | name _ | string _ => False
  | number _ | word _ => True

theorem Derives.unquoted {role : Role} {lexemes : List Lexeme} (derives : Derives role lexemes)
    (no_literal : ∀ lexeme ∈ lexemes, lexeme.isLiteral = false) : ∀ lexeme ∈ lexemes, lexeme.Unquoted := by
  induction derives with
  | number text | word text => exact fun lexeme member => List.mem_singleton.1 member ▸ trivial
  | string content => cases no_literal _ List.mem_cons_self
  | emptyArray | emptyObject => simp [Lexeme.Unquoted]
  | array _ ih | object _ ih =>
    have inside := (List.forall_mem_append.1 (List.forall_mem_cons.1 no_literal).2).1
    refine List.forall_mem_cons.2 ⟨by simp [Lexeme.Unquoted], List.forall_mem_append.2 ⟨ih inside, ?_⟩⟩
    simp [Lexeme.Unquoted]
  | lastItem _ ih => exact ih no_literal
  | item _ _ first ih =>
    obtain ⟨front, rest⟩ := List.forall_mem_append.1 no_literal
    have back := (List.forall_mem_cons.1 rest).2
    exact List.forall_mem_append.2
      ⟨first front, List.forall_mem_cons.2 ⟨by simp [Lexeme.Unquoted], ih back⟩⟩
  | lastMember | member => cases no_literal _ List.mem_cons_self

/-- The characters of JSON texts without string literals: marks, numbers, named values and white space. -/
def unquotedAlphabet : List Char :=
  "[]\x7b\x7d,+-.0123456789eEnulltruefalseNaNInfinity \t\n\r".toList

theorem mem_digits_of_isDecimal {c : Char} (decimal : isDecimal c = true) : c ∈ "0123456789".toList := by
  have points : (List.range' 48 10).map Char.ofNat = "0123456789".toList := by decide
  rw [isDecimal, Bool.and_eq_true, decide_eq_true_eq, decide_eq_true_eq] at decimal
  have above : 48 ≤ c.toNat := decimal.1
  have below : c.toNat ≤ 57 := decimal.2
  rw [← points]
  exact List.mem_map.2 ⟨c.toNat, List.mem_range'_1.2 (by omega), Char.ofNat_toNat c⟩

theorem mem_unquotedAlphabet_of_isDecimal {c : Char} (decimal : isDecimal c = true) : c ∈ unquotedAlphabet := by
  have digits : "0123456789".toList ⊆ unquotedAlphabet := by decide
  exact digits (mem_digits_of_isDecimal decimal)

theorem mem_unquotedAlphabet_of_isSpace {c : Char} (space : isSpace c = true) : c ∈ unquotedAlphabet := by
  simp only [isSpace, Bool.or_eq_true, decide_eq_true_eq] at space
  rcases space with ((rfl | rfl) | rfl) | rfl <;> decide

theorem Numeral.unquoted {numeral : Numeral} (formed : numeral.Formed) : numeral.text ⊆ unquotedAlphabet := by
  have digits {digits : List Char} (spelled : Digits digits) : digits ⊆ unquotedAlphabet :=
    fun c member => mem_unquotedAlphabet_of_isDecimal (spelled.2 c member)
  have fraction : numeral.fraction ⊆ unquotedAlphabet := by
    rcases formed.fraction with none | ⟨further, spelled, decimal⟩
    · rw [none]
      exact List.nil_subset _
    · rw [spelled]
      exact List.cons_subset.2 ⟨by decide, digits decimal⟩
  have exponent : numeral.exponent ⊆ unquotedAlphabet := by
    rcases formed.exponent with none | ⟨letter, sign, further, spelled, letters, signs, decimal⟩
    · rw [none]
      exact List.nil_subset _
    · have known : ['e', 'E'] ⊆ unquotedAlphabet := by decide
      have signed : ∀ sign ∈ [[], ['+'], ['-']], sign ⊆ unquotedAlphabet := by decide
      rw [spelled]
      exact List.cons_subset.2 ⟨known letters, List.append_subset.2 ⟨signed sign signs, digits decimal⟩⟩
  have sign : (if numeral.negative then ['-'] else []) ⊆ unquotedAlphabet := by
    split <;> decide
  exact List.append_subset.2 ⟨sign, List.append_subset.2
    ⟨digits formed.whole.digits, List.append_subset.2 ⟨fraction, exponent⟩⟩⟩

theorem Lexeme.Unquoted.text_subset {lexeme : Lexeme} (unquoted : lexeme.Unquoted) (spelled : lexeme.Spelled) :
    lexeme.text ⊆ unquotedAlphabet := by
  cases lexeme with
  | mark c =>
    have marks : ['[', ']', '{', '}', ','] ⊆ unquotedAlphabet := by decide
    exact List.cons_subset.2 ⟨marks unquoted, List.nil_subset _⟩
  | name content | string content => cases unquoted
  | number text =>
    obtain ⟨numeral, rfl, spelled⟩ := spelled
    exact Numeral.unquoted spelled.toFormed
  | word text =>
    have words : ∀ word ∈ ["null".toList, "true".toList, "false".toList, "NaN".toList, "Infinity".toList,
        "-Infinity".toList], word ⊆ unquotedAlphabet := by decide
    exact words text spelled

theorem Lexeme.quote_mem {lexeme : Lexeme} (literal : lexeme.isLiteral = true) : '"' ∈ lexeme.text := by
  cases lexeme with
  | mark c | number text | word text => cases literal
  | name content | string content => exact List.mem_cons_self

theorem Document.text_subset {document : Document} (spelled : document.Spelled) (unquoted : '"' ∉ document.text) :
    document.text ⊆ unquotedAlphabet := by
  have inside {part : Spaced} (member : part ∈ document.parts) : part.lexeme.text ⊆ document.text := by
    intro c found
    exact List.mem_append_left _ (List.mem_flatMap.2 ⟨part, member, List.mem_append_right _ found⟩)
  have no_literal : ∀ lexeme ∈ document.parts.map Spaced.lexeme, lexeme.isLiteral = false := by
    refine List.forall_mem_map.2 fun part member => Bool.eq_false_iff.2 fun literal => ?_
    exact unquoted (inside member (Lexeme.quote_mem literal))
  have lexemes := List.forall_mem_map.1 (document.derives.unquoted no_literal)
  have written_inside : written document.parts ⊆ unquotedAlphabet := by
    intro c found
    obtain ⟨part, member, here⟩ := List.mem_flatMap.1 found
    rcases List.mem_append.1 here with space | text
    · exact mem_unquotedAlphabet_of_isSpace (document.blank part member c space)
    · exact (lexemes part member).text_subset (spelled part member) text
  exact List.append_subset.2
    ⟨written_inside, fun c found => mem_unquotedAlphabet_of_isSpace (document.blank_trailing c found)⟩

end Json

/-! ## Scores -/

namespace Scores

variable {nesting : Nat} {source : String} {scores : Scores}

theorem get_ofSource_le_of_unquoted (unquoted : source.toList ⊆ unquotedAlphabet)
    (scored : ofSource nesting source = .ok scores) {language : Language} (other : language ≠ .json) :
    scores.get language ≤ 5 := by
  obtain ⟨parses, -, rfl⟩ := ofSource_eq_ok.1 scored
  have most : ∀ language : Language,
      (ofEvidence source.toList).get language ≤ language.evidence.limit unquotedAlphabet :=
    fun language => get_ofEvidence_le language fun c member => unquoted member
  have html : Language.html.evidence.limit unquotedAlphabet = 0 := by decide +kernel
  have css : Language.css.evidence.limit unquotedAlphabet = 4 := by decide +kernel
  have js : Language.js.evidence.limit unquotedAlphabet = 2 := by decide +kernel
  have ts : Language.ts.evidence.limit unquotedAlphabet = 3 := by decide +kernel
  cases language with
  | html =>
    have few := most .html
    rw [get_settled (by decide) (by decide)]
    omega
  | css =>
    have few := most .css
    rw [get_settled (by decide) (by decide)]
    omega
  | js =>
    have few := most .js
    rw [get_settled (by decide) (by decide)]
    omega
  | ts =>
    have few := most .ts
    have also := most .js
    rw [get_settled_ts]
    split <;> omega
  | json => exact absurd rfl other

theorem json_settled (text : List Char) :
    ((ofEvidence text).settled true).json = Evidence.json.score text + 10 := rfl

variable (parses : parsesAsJson nesting source = .ok true)
include parses

theorem ofSource_of_document : ofSource nesting source = .ok ((ofEvidence source.toList).settled true) :=
  ofSource_eq_ok.2 ⟨true, parses, rfl⟩

theorem le_json_of_document : 11 ≤ ((ofEvidence source.toList).settled true).json := by
  obtain ⟨-, document, -, container, text⟩ := parsesAsJson_iff.1 parses
  obtain ⟨space, first, inside, last, whole, -, -, closes⟩ := Document.text_brackets container
  have occurs : Evidence.closing.occursIn source.toList = true := by
    rw [← text, whole, ← List.cons_append, ← List.append_assoc]
    exact Evidence.closing_occurs document.blank_trailing closes
  have some_points := Evidence.score_of_weak Evidence.closing_mem occurs
  rw [json_settled]
  omega

theorem le_json_of_opening (no_return : '\r' ∉ source.toList.takeWhile fun c => c ≠ '[' && c ≠ '{') :
    14 ≤ ((ofEvidence source.toList).settled true).json := by
  obtain ⟨-, document, -, container, text⟩ := parsesAsJson_iff.1 parses
  obtain ⟨space, first, inside, last, whole, blank, opens, closes⟩ := Document.text_brackets container
  have closing_found : Evidence.closing.occursIn source.toList = true := by
    rw [← text, whole, ← List.cons_append, ← List.append_assoc]
    exact Evidence.closing_occurs document.blank_trailing closes
  have opening_found : Evidence.opening.occursIn source.toList = true := by
    have no_mark : ∀ c ∈ space, (c ≠ '[' && c ≠ '{') = true := by
      intro c member
      have known := blank c member
      simp only [isSpace, Bool.or_eq_true, decide_eq_true_eq] at known
      rcases known with ((rfl | rfl) | rfl) | rfl <;> rfl
    rw [← text, whole, List.takeWhile_append_of_pos no_mark, List.mem_append, not_or] at no_return
    rw [← text, whole]
    exact Evidence.opening_occurs blank no_return.1 opens
  have some_points := Evidence.score_of_both Evidence.opening_mem opening_found Evidence.closing_mem closing_found
  rw [json_settled]
  omega

end Scores

/-! ## Verdicts -/

section

variable {nesting : Nat} {source : String} (parses : parsesAsJson nesting source = .ok true)
include parses

theorem exists_detect_of_document :
    ∃ language confidence, detect nesting source = .ok ⟨some language, confidence⟩ ∧
      confidence ∈ [.medium, .high] := by
  have scored := Scores.ofSource_of_document parses
  have enough : 11 ≤ ((Scores.ofEvidence source.toList).settled true).get .json := Scores.le_json_of_document parses
  have recognised := Nat.le_trans (by decide : Scores.threshold ≤ 11) enough
  obtain ⟨language, confidence, verdict⟩ := Scores.exists_verdict recognised
  obtain ⟨-, leads, merits⟩ := Scores.verdict_eq_some_iff.1 verdict
  refine ⟨language, confidence, detect_eq_ok.2 ⟨_, scored, verdict⟩, ?_⟩
  cases merits with
  | high => decide
  | medium => decide
  | low unsure unlikely =>
    have more := leads.get_le .json
    exact absurd (.inl (by omega)) unlikely

theorem detect_of_unquoted_document (unquoted : '"' ∉ source.toList) :
    detect nesting source = .ok ⟨some .json, .high⟩ := by
  have scored := Scores.ofSource_of_document parses
  obtain ⟨-, document, spelled, -, text⟩ := parsesAsJson_iff.1 parses
  have alphabet : source.toList ⊆ unquotedAlphabet := by
    rw [← text] at unquoted ⊢
    exact Document.text_subset spelled unquoted
  generalize whole : (Scores.ofEvidence source.toList).settled true = scores at scored
  have enough : 11 ≤ scores.get .json := whole ▸ Scores.le_json_of_document parses
  have few : ∀ other, other ≠ .json → scores.get other ≤ 5 :=
    fun other apart => Scores.get_ofSource_le_of_unquoted alphabet scored apart
  have leads : scores.Leads .json := by
    refine ⟨[.html, .css, .js, .ts], [], rfl, fun other member => ?_, by simp⟩
    have apart : other ≠ .json := by
      rintro rfl
      simp at member
    have less := few other apart
    omega
  have ahead : scores.AheadBy 3 .json := by
    intro other apart
    have less := few other apart
    omega
  have sure : scores.Sure .json := ⟨by omega, ahead⟩
  have verdict := Scores.verdict_eq_some_iff.2 ⟨Nat.le_trans (by decide) enough, leads, .high sure⟩
  exact detect_eq_ok.2 ⟨scores, scored, verdict⟩

/-- A JSON text has the points for being one and those for its last mark, and those for its first mark too unless a
carriage return comes before it. That is enough for some language to be told with medium confidence at least; and
without string literals it is JSON for sure. -/
theorem detect_document :
    (∃ scores, Scores.ofSource nesting source = .ok scores ∧ 11 ≤ scores.json ∧
      ('\r' ∉ source.toList.takeWhile (fun c => c ≠ '[' && c ≠ '{') → 14 ≤ scores.json)) ∧
      (∃ language confidence, detect nesting source = .ok ⟨some language, confidence⟩ ∧
        confidence ∈ [.medium, .high]) ∧
      ('"' ∉ source.toList → detect nesting source = .ok ⟨some .json, .high⟩) :=
  ⟨⟨_, Scores.ofSource_of_document parses, Scores.le_json_of_document parses, Scores.le_json_of_opening parses⟩,
    exists_detect_of_document parses, detect_of_unquoted_document parses⟩

end

/-- There is no string literal in it, and the line before the first bracket ends with a line feed alone. -/
theorem detect_document_of_array :
    let nesting := Json.standardNesting
    let source := "\n [1, [-2.5e3, null], \x7b\x7d]\n"
    parsesAsJson nesting source = .ok true ∧
      (∃ scores, Scores.ofSource nesting source = .ok scores ∧ 14 ≤ scores.json) ∧
      detect nesting source = .ok ⟨some .json, .high⟩ := by
  intro nesting source
  have parses : parsesAsJson nesting source = .ok true := by decide +kernel
  obtain ⟨⟨scores, scored, -, opening⟩, -, unquoted⟩ := detect_document parses
  exact ⟨parses, ⟨scores, scored, opening (by decide +kernel)⟩, unquoted (by decide +kernel)⟩

end CodeColor
