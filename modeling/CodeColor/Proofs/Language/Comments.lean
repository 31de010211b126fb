import CodeColor.Proofs.Claim.Leftover
import CodeColor.Proofs.Comment.Scanner
import CodeColor.Proofs.Pattern.Run

/-!
The comments of a source are those that a scanner finds in it.

Main statement: `comments_eq_scan`.
-/

namespace CodeColor

namespace Comment

open Pattern

/-- The pattern matches where a comment of one of the styles starts, and takes that comment. -/
def Follows (styles : List Style) (pattern : Pattern) : Prop :=
  ∀ before text, pattern.matchLength? before text = length? styles text

theorem length?_cons (style : Style) (styles : List Style) (text : List Char) :
    length? (style :: styles) text = (style.length? text).or (length? styles text) := by
  rw [length?, List.findSome?_cons]
  cases style.length? text <;> rfl

theorem run_few_through {mark : List Char} (some_mark : mark ≠ []) (before text : List Char) {taken : Nat}
    (some_taken : taken ≠ 0) :
    ∃ stop, (few .any).run (fun place => (literal mark ||| guard .stretchEnd).run accept place)
        ⟨before, text, taken⟩ = some stop ∧
      stop.taken = taken + lengthThrough mark text := by
  simp only [run]
  induction text generalizing before taken with
  | nil =>
    have absent : ¬ mark <+: [] := fun found => some_mark (List.prefix_nil.1 found)
    refine ⟨⟨before, [], taken⟩, ?_, rfl⟩
    rw [Cursor.firstInRun?, run_or, run_literal_absent absent, run_guard rfl]
    exact accept_eq_some some_taken
  | cons c text ih =>
    rw [Cursor.firstInRun?, run_or, lengthThrough]
    by_cases found : mark <+: c :: text
    · obtain ⟨rest, split⟩ := found
      have some_more : taken + mark.length ≠ 0 := by omega
      rw [← split, run_literal, accept_eq_some some_more, if_pos (List.prefix_append mark rest)]
      exact ⟨_, rfl, rfl⟩
    · obtain ⟨stop, reached, size⟩ := ih (c :: before) (Nat.succ_ne_zero taken)
      rw [run_literal_absent found, run_guard_absent rfl, if_neg found]
      exact ⟨stop, reached, by omega⟩

theorem follows_enclosed (opener closer : String) (some_opener : opener.toList ≠ [])
    (some_closer : closer.toList ≠ []) :
    Follows [⟨opener.toList, .behind closer.toList, some_opener⟩]
      (Language.Lexeme.enclosedComment opener closer) := by
  intro before text
  rw [length?_cons, Style.length?]
  by_cases found : opener.toList <+: text
  · obtain ⟨rest, rfl⟩ := found
    have some_taken : 0 + opener.toList.length ≠ 0 := by
      have positive := List.length_pos_iff.2 some_opener
      omega
    obtain ⟨stop, reached, size⟩ :=
      run_few_through some_closer (opener.toList.reverse ++ before) rest some_taken
    rw [if_pos (List.prefix_append _ _), List.drop_left, matchLength?_eq_run, Language.Lexeme.enclosedComment,
      run_append, run_append, exactly, run_literal, exactly, reached, Option.map_some, size]
    simp [Closing.length]
  · rw [if_neg found, matchLength?_eq_run, Language.Lexeme.enclosedComment, run_append, run_append, exactly,
      run_literal_absent found]
    rfl

theorem follows_line (opener : String) (some_opener : opener.toList ≠ []) :
    Follows [⟨opener.toList, .lineEnd, some_opener⟩] (exactly opener ++ many .inLine) := by
  intro before text
  rw [length?_cons, Style.length?]
  by_cases found : opener.toList <+: text
  · obtain ⟨rest, rfl⟩ := found
    have positive := List.length_pos_iff.2 some_opener
    have inside : ∀ c ∈ rest.takeWhile CharSet.inLine, CharSet.inLine c = true :=
      fun _ member => List.mem_takeWhile_imp member
    have some_taken :
        0 + opener.toList.length + (rest.takeWhile CharSet.inLine).length ≠ 0 := by omega
    have line := run_many_greedy inside (startsIn_dropWhile CharSet.inLine rest)
      (opener.toList.reverse ++ before) (0 + opener.toList.length) (accept_eq_some some_taken)
    rw [List.takeWhile_append_dropWhile] at line
    have same : (fun c => decide (c ≠ '\n')) = CharSet.inLine := by
      funext c
      simp [CharSet.inLine, CharSet.except]
    rw [if_pos (List.prefix_append _ _), List.drop_left, matchLength?_eq_run, run_append, exactly, run_literal,
      line, Closing.length, same]
    simp
  · rw [if_neg found, matchLength?_eq_run, run_append, exactly, run_literal_absent found]
    rfl

theorem Follows.or {first second : Pattern} {left right : List Style} (here : Follows left first)
    (there : Follows right second) : Follows (left ++ right) (first ||| second) := by
  intro before text
  rw [matchLength?_or, here, there, length?, length?, length?, List.findSome?_append]

end Comment

theorem Rule.Cuts.extents_eq {rule : Rule} {styles : List Comment.Style}
    (follows : Comment.Follows styles rule.pattern) {before text : List Char} {pieces : List Piece}
    (cuts : rule.Cuts before text pieces) (offset : Nat) :
    Piece.extentsFrom rule.type offset pieces = Comment.scanFrom styles offset text := by
  induction cuts generalizing offset with
  | @rest before gap missed =>
    have absent : ∀ passed c later, gap = passed ++ c :: later →
        Comment.length? styles (c :: later ++ []) = none :=
      fun passed c later split => (follows _ _).symm.trans (missed passed c later split)
    have passed := Comment.scanFrom_gap offset absent
    rw [List.append_nil] at passed
    rw [passed, Piece.extentsFrom_free, Comment.scanFrom]
  | @found before gap claimed rest pieces missed some_text matched _ ih =>
    have absent : ∀ passed c later, gap = passed ++ c :: later →
        Comment.length? styles (c :: later ++ (claimed ++ rest)) = none :=
      fun passed c later split => (follows _ _).symm.trans (missed passed c later split)
    have passed := Comment.scanFrom_gap offset absent
    have here := (follows _ _).symm.trans matched
    obtain ⟨c, claimed, rfl⟩ := List.exists_cons_of_ne_nil some_text
    rw [List.cons_append] at here
    have onward := Comment.scanFrom_some (offset + gap.length) here
    have behind : (c :: (claimed ++ rest)).drop (c :: claimed).length = rest := List.drop_left
    rw [behind] at onward
    rw [passed, Piece.extentsFrom_append, Piece.extentsFrom_free, Piece.source_free, Piece.extentsFrom_cons,
      if_pos rfl, ih]
    exact onward.symm

namespace Grammar

theorem extents_first {pattern : Pattern} (others : Grammar) {styles : List Comment.Style}
    (follows : Comment.Follows styles pattern) (other : .comment ∉ others.map Rule.type)
    (text : List Char) :
    Piece.extentsFrom .comment 0 (Grammar.claim (⟨"comment", pattern, .comment⟩ :: others) text) =
      Comment.scan styles text := by
  have refines := refines_claim_append [⟨"comment", pattern, .comment⟩] others text
  rw [List.singleton_append] at refines
  rw [refines.extents_eq other]
  exact (cuts_single ⟨"comment", pattern, .comment⟩ text).extents_eq follows 0

theorem extents_of_not_mem {grammar : Grammar} {type : TokenType}
    (other : type ∉ grammar.map Rule.type) (text : List Char) :
    Piece.extentsFrom type 0 (grammar.claim text) = [] := by
  have refines : Piece.Refines (grammar.map Rule.type) [⟨text, none⟩] (grammar.claim text) :=
    grammar.refines_foldl _
  rw [refines.extents_eq other, Piece.extentsFrom_cons]
  rfl

end Grammar

theorem Language.extents_comment (language : Language) (text : List Char) :
    Piece.extentsFrom .comment 0 (language.grammar.claim text) =
      Comment.scan language.commentStyles text := by
  have element := Comment.follows_enclosed "<!--" "-->" (by decide) (by decide)
  have block := Comment.follows_enclosed "/*" "*/" (by decide) (by decide)
  have script := (Comment.follows_line "//" (by decide)).or block
  cases language with
  | html => exact Grammar.extents_first Html.grammar.tail element (by decide) text
  | css => exact Grammar.extents_first Css.grammar.tail block (by decide) text
  | js => exact Grammar.extents_first JavaScript.grammar.tail script (by decide) text
  | ts => exact Grammar.extents_first TypeScript.grammar.tail script (by decide) text
  | json =>
    have none : TokenType.comment ∉ json.grammar.map Rule.type := by decide
    rw [Grammar.extents_of_not_mem none]
    exact (Comment.scanFrom_of_no_style 0 text).symm

/-- The comment tokens of a source are the comments that a scanner finds in it from left to right. So no other
token has an opener in it; JSON has no comments and no openers. -/
theorem comments_eq_scan (language : Language) (code : String) :
    let spans := Token.spans (tokenize (some language.name) code)
    Span.extents .comment spans = Comment.scan language.commentStyles code.toList ∧
      ∀ place, Comment.Opens language.commentStyles (code.toList.drop place) →
        ∀ span ∈ spans, span.start ≤ place → place < span.stop → span.type? = some .comment := by
  intro spans
  have extents : Span.extents .comment spans = Comment.scan language.commentStyles code.toList := by
    have some_name : TokenType.comment.name ≠ "" := by decide
    rw [← language.extents_comment, ← Grammar.extents_tokenize some_name (by decide), ← tokenize_name]
  refine ⟨extents, ?_⟩
  intro place opens span member first last
  obtain ⟨extent, found, before, behind⟩ := Comment.exists_of_opens 0 opens
  rw [Nat.zero_add] at before behind
  change extent ∈ Comment.scan _ _ at found
  rw [← extents] at found
  obtain ⟨other, comment, rfl⟩ := List.mem_map.1 found
  obtain ⟨listed, typed⟩ := List.mem_filter.1 comment
  have same := Token.span_unique member listed ⟨first, last⟩ ⟨before, behind⟩
  rw [same]
  exact of_decide_eq_true typed

/-- A slash may belong to an opener or a closer, but not to both, and openers within a comment do not count. -/
theorem comments_eq_scan_of_nested_openers :
    let code := "1 /*/ // */ 2//3"
    let spans := Token.spans (tokenize (some Language.js.name) code)
    Comment.scan Language.js.commentStyles code.toList = [(2, 11), (13, 16)] ∧
      Comment.Opens Language.js.commentStyles (code.toList.drop 6) ∧
      ∃ span ∈ spans, span.start ≤ 6 ∧ 6 < span.stop ∧ span.type? = some .comment := by
  intro code spans
  have scanned : Span.extents .comment spans = [(2, 11), (13, 16)] := by decide +kernel
  have opens : Comment.Opens Language.js.commentStyles (code.toList.drop 6) :=
    ⟨_, List.mem_cons_self, by decide⟩
  have member : ⟨2, 11, some .comment⟩ ∈ spans := by decide +kernel
  obtain ⟨found, typed⟩ := comments_eq_scan .js code
  exact ⟨found.symm.trans scanned, opens, _, member, by decide, by decide,
    typed 6 opens _ member (by decide) (by decide)⟩

end CodeColor
