import CodeColor.Proofs.Claim.Lines
import CodeColor.Proofs.Token.Position

/-!
Tokens line by line. If the rules look for words and for literals without line feeds, a line feed cuts the source in two
parts that have nothing to do with each other: apart from plain text, its tokens are those of the first part, and then
those of the second part, as many lines further down.

Main statement: `lines_have_tokens_of_their_own`.
-/

namespace CodeColor

/-! ## Further down -/

def Position.down (lines : Nat) (position : Position) : Position :=
  ⟨position.line + lines, position.column⟩

def Token.down (lines : Nat) (token : Token) : Token :=
  { token with line := token.line + lines }

namespace Position

theorem past_down (lines : Nat) (position : Position) (text : List Char) :
    (position.down lines).past text = (position.past text).down lines := by
  induction text generalizing position with
  | nil => rfl
  | cons c text ih =>
    have next : (position.down lines).next c = (position.next c).down lines := by
      unfold Position.next
      split
      · exact congrArg (Position.mk · 1) (Nat.add_right_comm position.line lines 1)
      · rfl
    change ((position.down lines).next c).past text = _
    rw [next, ih]
    rfl

theorem past_feed (text : List Char) : start.past (text ++ ['\n']) = start.down (1 + text.count '\n') := by
  rw [past_snoc, past_start, Position.next, if_pos rfl]
  exact congrArg (Position.mk · 1) (Nat.add_comm _ 1)

end Position

namespace Piece

theorem along_down (lines : Nat) (position : Position) (pieces : List Piece) :
    along Position.past tokenAt (position.down lines) pieces =
      (along Position.past tokenAt position pieces).map (Token.down lines) := by
  induction pieces generalizing position with
  | nil => rfl
  | cons piece pieces ih =>
    rw [along, along, Position.past_down, ih]
    rfl

/-! ## Tokens that are no plain text -/

/-- The tokens of a row that starts at the position, without those of plain text. -/
def properTokens (position : Position) (pieces : List Piece) : List Token :=
  (along Position.past tokenAt position pieces).filter (·.type ≠ .text)

theorem properTokens_free (position : Position) (text : List Char) (row : List Piece) :
    properTokens position (⟨text, none⟩ :: row) = properTokens (position.past text) row :=
  List.filter_cons_of_neg (by simp [tokenAt, tokenType])

theorem properTokens_append (position : Position) (left right : List Piece) :
    properTokens position (left ++ right) =
      properTokens position left ++ properTokens (position.past (source left)) right := by
  rw [properTokens, along_append steady_past, List.filter_append]
  rfl

theorem properTokens_attach (position : Position) (piece : Piece) (row : List Piece) :
    properTokens position (attach piece row) = properTokens position (piece :: row) := by
  obtain ⟨text, type?⟩ := piece
  cases type? with
  | some type => rfl
  | none =>
    cases row with
    | nil => rfl
    | cons first row =>
      obtain ⟨more, type?⟩ := first
      cases type? with
      | some type => rfl
      | none =>
        rw [attach_free, properTokens_free, properTokens_free, properTokens_free, Position.past_append]

theorem properTokens_join (position : Position) (left right : List Piece) :
    properTokens position (join left right) =
      properTokens position left ++ properTokens (position.past (source left)) right := by
  rw [← properTokens_append]
  induction left generalizing position with
  | nil => rfl
  | cons piece left ih =>
    have onward := ih (position.past piece.text)
    rw [join_cons, properTokens_attach, List.cons_append]
    simp only [properTokens, along, List.filter_cons] at onward ⊢
    rw [onward]

theorem properTokens_down (lines : Nat) (position : Position) (pieces : List Piece) :
    properTokens (position.down lines) pieces = (properTokens position pieces).map (Token.down lines) := by
  rw [properTokens, along_down, List.filter_map]
  rfl

end Piece

/-! ## Grammars -/

namespace Grammar

open Piece

theorem tokenize_eq (grammar : Grammar) (code : String) :
    grammar.tokenize code =
      Token.ofPieces (grammar.foldl (fun pieces rule => rule.claim pieces) (free code.toList [])) := by
  unfold tokenize
  split
  next empty =>
    subst empty
    exact (congrArg Token.ofPieces (foldl_no_piece grammar)).symm
  next some_code =>
    obtain ⟨c, rest, same⟩ := List.exists_cons_of_ne_nil (toList_ne_nil some_code)
    rw [same]
    rfl

theorem properTokens_tokenize (grammar : Grammar) (code : String) :
    (grammar.tokenize code).filter (·.type ≠ .text) =
      properTokens .start (grammar.foldl (fun pieces rule => rule.claim pieces) (free code.toList [])) := by
  rw [tokenize_eq, ofPieces_eq]
  rfl

theorem free_lines (front back : List Char) :
    free (front ++ '\n' :: back) [] = join (free front []) (attach feed (free back [])) := by
  cases front <;> cases back <;> simp [free, join, attach, feed]

theorem properTokens_lines {grammar : Grammar} (linewise : grammar.Linewise) (front back : String) :
    (grammar.tokenize (front ++ "\n" ++ back)).filter (·.type ≠ .text) =
      (grammar.tokenize front).filter (·.type ≠ .text) ++
        ((grammar.tokenize back).filter (·.type ≠ .text)).map (Token.down (1 + front.toList.count '\n')) := by
  have whole : (front ++ "\n" ++ back).toList = front.toList ++ '\n' :: back.toList := by simp
  rw [properTokens_tokenize, properTokens_tokenize, properTokens_tokenize, whole, free_lines,
    foldl_lines linewise (tidy_free _) (tidy_free _), properTokens_join, properTokens_attach]
  change _ ++ properTokens _ (⟨['\n'], none⟩ :: _) = _
  rw [properTokens_free, source_foldl, source_free, ← Position.past_append, Position.past_feed, properTokens_down]

end Grammar

/-- A rule for plain words, or for a literal in which there is no line feed. -/
inductive Rule.InLine : Rule → Prop
  | literal (name text : String) (type? : Option String) (absent : '\n' ∉ text.toList) :
      InLine (Rule.literal name text type?)
  | words (name : String) (words : List PlainWord) (type? : Option String) : InLine (Rule.words name words type?)

theorem PlainWord.feed_not_mem (word : PlainWord) : '\n' ∉ word.text.toList := by
  intro member
  have known := List.all_eq_true.1 word.plain '\n' member
  exact absurd known (by decide +kernel)

theorem Rule.InLine.linewise {rule : Rule} (inLine : rule.InLine) : rule.pattern.linewise = true := by
  cases inLine with
  | literal name text type? absent => exact Pattern.linewise_literal absent
  | words name words type? =>
    refine Pattern.linewise_wholeWord fun text member => ?_
    obtain ⟨word, -, rfl⟩ := List.mem_map.1 member
    exact word.feed_not_mem

/-- If a grammar has only rules for plain words and for literals without line feeds, the tokens of a source that are no
plain text are those of the part in front of a line feed and then those of the part behind it: of the same type and
value, in the same column, and further down by the lines of the first part. -/
theorem lines_have_tokens_of_their_own (grammar : Grammar) (inLine : ∀ rule ∈ grammar, rule.InLine)
    (front back : String) :
    (grammar.tokenize (front ++ "\n" ++ back)).filter (·.type ≠ .text) =
      (grammar.tokenize front).filter (·.type ≠ .text) ++
        ((grammar.tokenize back).filter (·.type ≠ .text)).map fun token =>
          ⟨token.type, token.value, token.line + (1 + front.toList.count '\n'), token.column⟩ :=
  Grammar.properTokens_lines (fun rule member => (inLine rule member).linewise) front back

/-- The seam is the end of a word and stands within a literal, and the first part has two lines. -/
theorem lines_have_tokens_of_their_own_at_dashes :
    let grammar : Grammar :=
      [Rule.words "word" [⟨"a", by decide⟩, ⟨"ab", by decide⟩] none, Rule.literal "dashes" "--" none]
    let front := "a--\n-ab-"
    let back := "-ab--"
    (∀ rule ∈ grammar, rule.InLine) ∧
      (grammar.tokenize (front ++ "\n" ++ back)).filter (·.type ≠ .text) =
        [⟨⟨"word"⟩, "a", 1, 1⟩, ⟨⟨"dashes"⟩, "--", 1, 2⟩, ⟨⟨"word"⟩, "ab", 2, 2⟩] ++
          [⟨⟨"word"⟩, "ab", 3, 2⟩, ⟨⟨"dashes"⟩, "--", 3, 4⟩] := by
  intro grammar front back
  have inLine : ∀ rule ∈ grammar, rule.InLine := by
    intro rule member
    rcases List.mem_cons.1 member with rfl | member
    · exact .words _ _ _
    · rw [List.mem_singleton.1 member]
      exact .literal _ _ _ (by decide)
  have first : (grammar.tokenize front).filter (·.type ≠ .text) =
      [⟨⟨"word"⟩, "a", 1, 1⟩, ⟨⟨"dashes"⟩, "--", 1, 2⟩, ⟨⟨"word"⟩, "ab", 2, 2⟩] := by decide +kernel
  have second : (grammar.tokenize back).filter (·.type ≠ .text) =
      [⟨⟨"word"⟩, "ab", 1, 2⟩, ⟨⟨"dashes"⟩, "--", 1, 4⟩] := by decide +kernel
  have feeds : front.toList.count '\n' = 1 := by decide
  refine ⟨inLine, (lines_have_tokens_of_their_own grammar inLine front back).trans ?_⟩
  rw [first, second, feeds]
  rfl

end CodeColor
