import CodeColor.Language.Basic
import CodeColor.Proofs.Claim.Gap
import CodeColor.Proofs.Html.Markup
import CodeColor.Proofs.Pattern.Words

/-!
Plain markup under the grammar of HTML: the rules take out of it the brackets of the tags, the names of the attributes
and their values.

Main statement: `tokenize_markup`.
-/

namespace CodeColor.Html

open Language.Html Pattern Piece
open Text (Blank OffBlank)

theorem attributeTail_eq : attributeTail = isAttributePart := by
  funext c
  change (CharSet.alphanumeric c || ['-'].contains c) = _
  rw [CharSet.alphanumeric_eq]
  simp [isAttributePart]

/-! ## All parts of markup -/

/-- What a rule does with each part of markup, wherever the part stands. -/
structure Reads (rule : Rule) (seen : List TokenType) : Prop where
  plain {before content : List Char} {row : List Piece} (bare : ∀ c ∈ content, isTextPart c = true)
    (ahead : .tag ∈ seen → '=' ∉ openText seen row) : rule.Misses before content (openText seen row)
  named {before : List Char} {row : List Piece} {bracket : List Char} (known : bracket ∈ [['<'], ['<', '/']])
    (name : Name Char.isAlphanum) (ends : startsIn Char.isAlphanum (openText seen row) = false)
    (onward : rule.Carves seen ((bracket ++ name.text).reverse ++ before) row) :
    rule.Carves seen before (tagStart bracket name :: row)
  space {before space : List Char} {row : List Piece} (blank : Blank space) :
    rule.Misses before space (openText seen (tagEnd :: row))
  bracket {before : List Char} {row : List Piece} (onward : rule.Carves seen ('>' :: before) row) :
    rule.Carves seen before (tagEnd :: row)
  entry {before : List Char} {row : List Piece} (entry : Attribute)
    (onward : rule.Carves seen
      (entry.quoted.reverse ++ (entry.start.reverse ++ (entry.space.reverse ++ before))) row) :
    rule.Carves seen before (entry.pieces ++ row)

def anywhere : Border := ⟨fun _ => True, fun _ => True⟩

/-- Where the tags are claimed already, no equals sign is free in front of the next tag. -/
def border (seen : List TokenType) : Border :=
  ⟨fun _ => True, fun row => .tag ∈ seen → '=' ∉ openText seen row⟩

theorem isAlphanum_of_blank {c : Char} (blank : CharSet.blank c = true) : Char.isAlphanum c = false := by
  have off : OffBlank Char.isAlphanum := by decide
  exact off.eq_false blank

theorem startsIn_tagEnd (seen : List TokenType) (row : List Piece) :
    startsIn Char.isAlphanum (openText seen (tagEnd :: row)) = false := by
  rw [openText]
  split <;> rfl

theorem startsIn_openText (seen : List TokenType) (entries : List Attribute) {space : List Char} (blank : Blank space)
    (row : List Piece) :
    startsIn Char.isAlphanum
      (openText seen (entries.flatMap Attribute.pieces ++ ([⟨space, none⟩, tagEnd] ++ row))) = false := by
  have spaced : ∀ {space rest : List Char}, Blank space → startsIn Char.isAlphanum rest = false →
      startsIn Char.isAlphanum (space ++ rest) = false := by
    intro space rest blank ends
    cases space with
    | nil => exact ends
    | cons c space => exact isAlphanum_of_blank (blank c List.mem_cons_self)
  cases entries with
  | nil => exact spaced blank (startsIn_tagEnd seen row)
  | cons entry entries =>
    have name : ∀ row,
        startsIn Char.isAlphanum (openText seen (⟨entry.start, some .attributeName⟩ :: row)) = false := by
      intro row
      rw [openText]
      split
      · rfl
      · exact isAlphanum_of_blank entry.blank_lead
    exact spaced entry.blank_space (name _)

namespace Reads

variable {rule : Rule} {seen : List TokenType} (reads : Reads rule seen)
include reads

theorem passes_entries (entries : List Attribute) :
    rule.Passes seen anywhere (entries.flatMap Attribute.pieces) := by
  apply Rule.Passes.flatMap
  intro entry _
  constructor
  case behind => exact fun _ => trivial
  case ahead => exact fun _ => trivial
  case carves =>
    intro before row _ _ onward
    apply reads.entry entry
    simpa [Piece.source, Attribute.pieces] using onward

theorem passes_item (item : Item) : rule.Passes seen (border seen) item.pieces := by
  have tagged : ∀ {text : List Char} {row : List Piece}, .tag ∈ seen →
      '=' ∉ openText seen (⟨text, some .tag⟩ :: row) := by
    intro text row member
    have found : isSeen seen ⟨text, some .tag⟩ = true := by simpa [isSeen] using member
    rw [openText, if_pos found]
    exact List.not_mem_nil
  cases item with
  | plain content bare =>
    constructor
    case behind => exact fun _ => trivial
    case ahead =>
      intro row rest member
      change '=' ∉ content ++ openText seen row
      rw [List.mem_append, not_or]
      exact ⟨CharSet.not_mem bare (by decide), rest member⟩
    case carves =>
      intro before row _ rest onward
      rw [Item.pieces, source_cons, source_nil, List.append_nil] at onward
      exact .missed rfl (reads.plain bare rest) onward
  | closing name =>
    constructor
    case behind => exact fun _ => trivial
    case ahead => exact fun _ => tagged
    case carves =>
      intro before row _ _ onward
      apply reads.named (by simp) name (startsIn_tagEnd seen row)
      apply reads.bracket
      simpa [Piece.source, Item.pieces, Html.tagStart, Html.tagEnd] using onward
  | opening name entries space blank =>
    constructor
    case behind => exact fun _ => trivial
    case ahead => exact fun _ => tagged
    case carves =>
      intro before row _ _ onward
      rw [Item.pieces, List.cons_append, List.append_assoc]
      apply reads.named (by simp) name (startsIn_openText seen entries blank row)
      apply (reads.passes_entries entries).carves trivial trivial
      apply Rule.Carves.missed rfl (reads.space blank)
      apply reads.bracket
      simpa [Item.pieces, Piece.source, Html.tagStart, Html.tagEnd] using onward

theorem carves_markup (markup : List Item) : rule.Carves seen [] (pieces markup) := by
  have items : rule.Passes seen (border seen) (pieces markup) :=
    Rule.Passes.flatMap fun item _ => reads.passes_item item
  exact items.carves_row trivial fun _ => List.not_mem_nil

end Reads

/-! ## Rules that start at brackets -/

def brackets : CharSet := .among ['<', '>']

theorem off_brackets {text : List Char} (less : '<' ∉ text) (greater : '>' ∉ text) :
    ∀ c ∈ text, brackets c = false := by
  intro c member
  have first : c ≠ '<' := fun same => less (same ▸ member)
  have second : c ≠ '>' := fun same => greater (same ▸ member)
  simp [brackets, CharSet.among, first, second]

theorem Name.not_mem {isPart : Char → Bool} (name : Name isPart) {c : Char} (letter : c.isAlpha = false)
    (part : isPart c = false) : c ∉ name.text := by
  intro member
  rcases List.mem_cons.1 member with rfl | further
  · exact Bool.false_ne_true (letter.symm.trans name.letter)
  · exact CharSet.not_mem name.parts part further

theorem Name.first_ne {isPart : Char → Bool} (name : Name isPart) {c : Char} (letter : c.isAlpha = false) :
    name.first ≠ c := by
  rintro rfl
  exact Bool.false_ne_true (letter.symm.trans name.letter)

theorem Attribute.off_brackets (entry : Attribute) :
    ∀ c ∈ entry.space ++ (entry.start ++ entry.quoted), brackets c = false := by
  have off : OffBlank brackets := by decide
  intro c member
  simp only [List.mem_append, start, quoted, List.mem_cons, List.not_mem_nil, or_false] at member
  rcases member with space | (rfl | name | rfl) | rfl | value | rfl
  · exact off.eq_false (entry.blank_space c space)
  · exact off.eq_false entry.blank_lead
  · have less := entry.name.not_mem (by decide : Char.isAlpha '<' = false) (by decide)
    have greater := entry.name.not_mem (by decide : Char.isAlpha '>' = false) (by decide)
    exact Html.off_brackets less greater c name
  · decide
  · decide
  · have less := CharSet.not_mem entry.parts (by decide : isValuePart '<' = false)
    have greater := CharSet.not_mem entry.parts (by decide : isValuePart '>' = false)
    exact Html.off_brackets less greater c value
  · decide

section

variable {rule : Rule} {seen : List TokenType} (opens : rule.pattern.OpensAt brackets)
include opens

theorem misses_plain {content : List Char} (bare : ∀ c ∈ content, isTextPart c = true)
    (before rest : List Char) : rule.Misses before content rest := by
  apply Rule.misses_of_opensAt opens
  exact off_brackets (CharSet.not_mem bare (by decide)) (CharSet.not_mem bare (by decide))

theorem misses_space {space : List Char} (blank : Blank space) (before rest : List Char) :
    rule.Misses before space rest :=
  Rule.misses_of_opensAt opens (blank.off (by decide)) before rest

theorem carves_entry {before : List Char} {row : List Piece} (entry : Attribute)
    (name : isSeen (rule.type :: seen) ⟨entry.start, some .attributeName⟩ = false)
    (value : isSeen (rule.type :: seen) ⟨entry.quoted, some .string⟩ = false)
    (onward : rule.Carves seen
      (entry.quoted.reverse ++ (entry.start.reverse ++ (entry.space.reverse ++ before))) row) :
    rule.Carves seen before (entry.pieces ++ row) := by
  have off := entry.off_brackets
  simp only [List.forall_mem_append] at off
  obtain ⟨space, start, quoted⟩ := off
  apply Rule.Carves.missed rfl (Rule.misses_of_opensAt opens space _ _)
  apply Rule.Carves.missed name (Rule.misses_of_opensAt opens start _ _)
  exact Rule.Carves.missed value (Rule.misses_of_opensAt opens quoted _ _) onward

end

def commentRule : Rule := ⟨"comment", Language.Lexeme.enclosedComment "<!--" "-->", .comment⟩

def tagRule : Rule := ⟨"tag", tag, .tag⟩

theorem comment_misses {c : Char} (other : c ≠ '!') {text : List Char} (off : ∀ d ∈ c :: text, d ≠ '<')
    (before rest : List Char) : commentRule.Misses before (['<'] ++ c :: text) rest := by
  have opens : commentRule.pattern.OpensAt (.among ['<']) := ((OpensAt.literal rfl _).append _).append _
  rw [Rule.misses_append]
  constructor
  · apply Rule.misses_of_no_opener rfl
    intro passed d later split
    cases passed with
    | cons e passed => simp at split
    | nil =>
      obtain ⟨rfl, rfl⟩ := List.cons.inj split
      change ¬ ['<', '!', '-', '-'] <+: '<' :: c :: (text ++ rest)
      intro leads
      have second := (List.cons_prefix_cons.1 (List.cons_prefix_cons.1 leads).2).1
      exact other second.symm
  · apply Rule.misses_of_opensAt opens
    intro d member
    simpa [CharSet.among] using off d member

theorem reads_comments : Reads commentRule [] := by
  have less : commentRule.pattern.OpensAt (.among ['<']) := ((OpensAt.literal rfl _).append _).append _
  have opens : commentRule.pattern.OpensAt brackets := less.mono (by simp +contextual [brackets, CharSet.among])
  constructor
  case plain => exact fun bare _ => misses_plain opens bare _ _
  case space => exact fun blank => misses_space opens blank _ _
  case bracket =>
    intro before row onward
    exact .missed rfl (Rule.misses_mark less (by decide) _ _) onward
  case entry => exact fun entry onward => carves_entry opens entry rfl rfl onward
  case named =>
    intro before row bracket known name _ onward
    have letters : ∀ d ∈ name.text, d ≠ '<' := by
      rintro d member rfl
      exact name.not_mem (by decide) (by decide) member
    have first : name.first ≠ '!' := name.first_ne (by decide)
    have missed : commentRule.Misses before (bracket ++ name.text) (openText [] row) := by
      simp only [List.mem_cons, List.not_mem_nil, or_false] at known
      rcases known with rfl | rfl
      · exact comment_misses first letters _ _
      · exact comment_misses (by decide) (List.forall_mem_cons.2 ⟨by decide, letters⟩) _ _
    exact .missed rfl missed onward

theorem name_run (name : Name Char.isAlphanum) {rest : List Char} (ends : startsIn Char.isAlphanum rest = false)
    (before : List Char) (taken : Nat) :
    (one .letter).run (fun stop => (many .alphanumeric).run accept stop) ⟨before, name.text ++ rest, taken⟩ =
      some ⟨name.text.reverse ++ before, rest, taken + name.text.length⟩ := by
  have letter : CharSet.letter name.first = true := by
    rw [CharSet.letter_eq]
    exact name.letter
  have some_taken : taken + 1 + name.further.length ≠ 0 := by omega
  rw [Name.text, List.cons_append, run_one letter, CharSet.alphanumeric_eq,
    run_many_greedy name.parts ends _ _ (accept_eq_some some_taken)]
  simp [Nat.add_comm, Nat.add_left_comm]

theorem tag_eq : tagRule.pattern =
    (literal ['<'] ++ (literal ['/'] ||| nothing) ++ one .letter ++ many .alphanumeric ||| literal ['>']) := rfl

theorem named_match {bracket : List Char} (known : bracket ∈ [['<'], ['<', '/']]) (name : Name Char.isAlphanum)
    {rest : List Char} (ends : startsIn Char.isAlphanum rest = false) (before : List Char) :
    tagRule.pattern.matchLength? before (bracket ++ name.text ++ rest) = some (bracket ++ name.text).length := by
  have start : (literal ['<'] ++ (literal ['/'] ||| nothing) ++ one .letter ++ many .alphanumeric).run accept
      ⟨before, bracket ++ name.text ++ rest, 0⟩ =
      some ⟨(bracket ++ name.text).reverse ++ before, rest, (bracket ++ name.text).length⟩ := by
    simp only [List.mem_cons, List.not_mem_nil, or_false] at known
    rcases known with rfl | rfl
    · have slash : ¬ ['/'] <+: name.text ++ rest := by
        intro leads
        exact name.first_ne (by decide) (List.cons_prefix_cons.1 leads).1.symm
      have inside := name_run name ends ('<' :: before) 1
      rw [List.append_assoc, run_append, run_append, run_append, run_literal, run_or, run_literal_absent slash,
        Option.none_or]
      rw [List.length_append, List.reverse_append, List.append_assoc]
      exact inside
    · have inside := name_run name ends ('/' :: '<' :: before) 2
      have split : ['<', '/'] ++ name.text ++ rest = ['<'] ++ (['/'] ++ (name.text ++ rest)) := by simp
      rw [split, run_append, run_append, run_append, run_literal, run_or, run_literal]
      rw [List.length_append, List.reverse_append, List.append_assoc]
      exact congrArg (Option.or · _) inside
  rw [tag_eq, matchLength?_eq_run, run_or, start]
  rfl

theorem tagEnd_match (before rest : List Char) : tagRule.pattern.matchLength? before ('>' :: rest) = some 1 := by
  have less : ¬ ['<'] <+: '>' :: rest := fun leads => absurd (List.cons_prefix_cons.1 leads).1 (by decide)
  rw [tag_eq, matchLength?_eq_run, run_or, run_append, run_append, run_append, run_literal_absent less, Option.none_or]
  exact congrArg (Option.map Cursor.taken) (run_literal ['>'] before rest 0)

theorem tag_opensAt : tagRule.pattern.OpensAt brackets := by
  have first : (literal ['<'] ++ (literal ['/'] ||| nothing) ++ one .letter ++ many .alphanumeric).OpensAt brackets :=
    (((OpensAt.literal rfl _).append _).append _).append _
  exact first.or (.literal rfl _)

theorem reads_tags : Reads tagRule [.comment] := by
  have opens := tag_opensAt
  constructor
  case plain => exact fun bare _ => misses_plain opens bare _ _
  case space => exact fun blank => misses_space opens blank _ _
  case bracket =>
    intro before row onward
    exact .matched (by decide) (by simp) (tagEnd_match _ _) onward
  case entry => exact fun entry onward => carves_entry opens entry rfl rfl onward
  case named =>
    intro before row bracket known name ends onward
    exact .matched (by decide) (by simp [Name.text]) (named_match known name ends before) onward

/-! ## Attributes and strings -/

def attributeRule : Rule := ⟨"attribute", attributeStart, .attributeName⟩

def stringRule : Rule := ⟨"string", Language.Lexeme.plainString, .string⟩

theorem attribute_eq : attributeRule.pattern =
    one .blank ++ one Char.isAlpha ++ many isAttributePart ++ literal ['='] := by
  rw [← CharSet.letter_eq, ← attributeTail_eq]
  rfl

theorem attribute_opensAt : attributeRule.pattern.OpensAt .blank := by
  rw [attribute_eq]
  exact ((OpensAt.one.append _).append _).append _

theorem attribute_match (entry : Attribute) (before rest : List Char) :
    attributeRule.pattern.matchLength? before (entry.start ++ rest) = some entry.start.length := by
  have ends : startsIn isAttributePart ('=' :: rest) = false := rfl
  have marked : (literal ['=']).run accept
      ⟨entry.name.further.reverse ++ entry.name.first :: entry.lead :: before, '=' :: rest,
        1 + 1 + entry.name.further.length⟩ =
      some ⟨'=' :: (entry.name.further.reverse ++ entry.name.first :: entry.lead :: before), rest,
        1 + 1 + entry.name.further.length + 1⟩ :=
    (run_literal ['='] _ rest _).trans (accept_eq_some (Nat.succ_ne_zero _))
  have split : entry.start ++ rest = entry.lead :: entry.name.first :: (entry.name.further ++ '=' :: rest) := by
    simp [Attribute.start, Name.text]
  have size : 1 + 1 + entry.name.further.length + 1 = entry.start.length := by
    simp only [Attribute.start, Name.text, List.length_cons, List.length_append, List.length_nil]
    omega
  rw [matchLength?_eq_run, attribute_eq, split, run_append, run_append, run_append, run_one entry.blank_lead,
    run_one entry.name.letter, run_many_greedy entry.name.parts ends _ _ marked, Option.map_some, size]

theorem attribute_misses_space {space rest : List Char} (blank : Blank space)
    (ends : startsIn Char.isAlpha rest = false) (before : List Char) : attributeRule.Misses before space rest := by
  have off : OffBlank Char.isAlpha := by decide
  intro passed c later split
  have next : startsIn Char.isAlpha (later ++ rest) = false := by
    cases later with
    | nil => exact ends
    | cons d later => exact off.eq_false (blank d (by simp [split]))
  have here : CharSet.blank c = true := blank c (by simp [split])
  rw [matchLength?_eq_run, attribute_eq, run_append, run_append, run_append, List.cons_append, run_one here,
    run_one_absent next]
  rfl

theorem attribute_misses {gap rest : List Char} (absent : '=' ∉ gap)
    (blocked : leadsTo (CharSet.blank.or isAttributePart) '=' rest = false) (before : List Char) :
    attributeRule.Misses before gap rest := by
  have blanks : ∀ c, CharSet.blank c = true → CharSet.blank.or isAttributePart c = true :=
    fun c inside => by simp [CharSet.or, inside]
  have parts : ∀ c, isAttributePart c = true → CharSet.blank.or isAttributePart c = true :=
    fun c inside => by simp [CharSet.or, inside]
  have letters : ∀ c, Char.isAlpha c = true → CharSet.blank.or isAttributePart c = true :=
    fun c inside => parts c (by simp [isAttributePart, Char.isAlphanum, inside])
  have only : (one .blank ++ one Char.isAlpha ++ many isAttributePart).TakesOnly (CharSet.blank.or isAttributePart) :=
    ((TakesOnly.one blanks).append (.one letters)).append (.many parts)
  exact Rule.misses_of_leadsTo attribute_eq only absent blocked before

theorem reads_attributes : Reads attributeRule [.tag, .comment] := by
  constructor
  case plain =>
    intro before content row bare ahead
    have absent : '=' ∉ content := CharSet.not_mem bare (by decide)
    exact attribute_misses absent (leadsTo_of_not_mem (ahead (by decide))) before
  case named => exact fun _ name _ onward => .seen rfl onward
  case space => exact fun blank => attribute_misses_space blank rfl _
  case bracket => exact fun onward => .seen rfl onward
  case entry =>
    intro before row entry onward
    have off : OffBlank Char.isAlpha := by decide
    have lead : startsIn Char.isAlpha (entry.start ++ (entry.quoted ++ openText [.tag, .comment] row)) = false :=
      off.eq_false entry.blank_lead
    have space := attribute_misses_space entry.blank_space lead before
    have start := attribute_match entry (entry.space.reverse ++ before)
      (entry.quoted ++ openText [.tag, .comment] row)
    have absent : '=' ∉ '"' :: entry.value := by
      rw [List.mem_cons, not_or]
      exact ⟨by decide, CharSet.not_mem entry.parts (by decide)⟩
    have blocked : leadsTo (CharSet.blank.or isAttributePart) '=' ('"' :: openText [.tag, .comment] row) = false :=
      leadsTo_cons_of_not (by decide) (by decide) _
    have inside := attribute_misses absent blocked (entry.start.reverse ++ (entry.space.reverse ++ before))
    have quote : attributeRule.Misses
        (('"' :: entry.value).reverse ++ (entry.start.reverse ++ (entry.space.reverse ++ before))) ['"']
        (openText [.tag, .comment] row) := Rule.misses_mark attribute_opensAt (by decide) _ _
    have quoted : attributeRule.Misses (entry.start.reverse ++ (entry.space.reverse ++ before)) entry.quoted
        (openText [.tag, .comment] row) := Rule.misses_append.2 ⟨inside, quote⟩
    exact .missed rfl space (.matched (by decide) (List.cons_ne_nil _ _) start (.missed rfl quoted onward))

theorem reads_strings : Reads stringRule [.attributeName, .tag, .comment] := by
  have opens : stringRule.pattern.OpensAt (.among ['"', '\x27']) := plainString_opensAt
  have off : OffBlank (.among ['"', '\x27']) := by decide
  constructor
  case plain =>
    intro before content row bare _
    apply Rule.misses_of_opensAt opens
    intro c member
    have double : c ≠ '"' := fun same => CharSet.not_mem (c := '"') bare (by decide) (same ▸ member)
    have single : c ≠ '\x27' := fun same => CharSet.not_mem (c := '\x27') bare (by decide) (same ▸ member)
    simp [CharSet.among, double, single]
  case named => exact fun _ name _ onward => .seen rfl onward
  case space => exact fun blank => Rule.misses_of_opensAt opens (blank.off off) _ _
  case bracket => exact fun onward => .seen rfl onward
  case entry =>
    intro before row entry onward
    have space : stringRule.Misses before entry.space (openText [.attributeName, .tag, .comment]
        (⟨entry.start, some .attributeName⟩ :: ⟨entry.quoted, some .string⟩ :: row)) :=
      Rule.misses_of_opensAt opens (entry.blank_space.off off) _ _
    have plain : '"' ∉ entry.value := CharSet.not_mem entry.parts (by decide)
    have quoted : stringRule.pattern.matchLength? (entry.start.reverse ++ (entry.space.reverse ++ before))
        (entry.quoted ++ openText [.attributeName, .tag, .comment] row) = some entry.quoted.length := by
      have split : entry.quoted ++ openText [.attributeName, .tag, .comment] row =
          '"' :: (entry.value ++ '"' :: openText [.attributeName, .tag, .comment] row) := by simp [Attribute.quoted]
      have size : entry.quoted.length = entry.value.length + 2 := by simp [Attribute.quoted]
      rw [split, size]
      exact (matchLength?_or _ _ _ _).trans (congrArg (Option.or · _) (quoted_match plain _ _))
    exact .missed rfl space (.seen rfl (.matched (by decide) (List.cons_ne_nil _ _) quoted onward))

/-! ## The tokens -/

/-- The tokens of plain markup, plain text left out: of each tag the brackets, the first with the name, and between them
of each attribute the name and the value. -/
theorem tokenize_markup (markup : List Item) :
    Token.lexemes (tokenize (some "html") (String.ofList (text markup))) = lexemes markup := by
  have carves : Grammar.Carves [] (pieces markup) Language.Html.grammar :=
    ⟨reads_comments.carves_markup markup, reads_tags.carves_markup markup, reads_attributes.carves_markup markup,
      reads_strings.carves_markup markup, trivial⟩
  have tokens : Token.lexemes (tokenize (some "html") (String.ofList (source (pieces markup)))) = lexemes markup :=
    Language.html.lexemes_tokenize carves (filterMap_pieces markup) (by decide) fun _ => mem_lexemes
  rwa [source_pieces] at tokens

def sampleMarkup : List Item :=
  [.opening ⟨'h', ['1'], by decide, List.all_eq_true.1 (by decide)⟩
      [⟨[], ' ', ⟨'i', ['d'], by decide, List.all_eq_true.1 (by decide)⟩, ['x'], Text.blank_nil, by decide,
          List.all_eq_true.1 (by decide)⟩,
        ⟨['\t'], '\n', ⟨'d', "ata-a".toList, by decide, List.all_eq_true.1 (by decide)⟩, "it\x27s b".toList,
          by decide, by decide, List.all_eq_true.1 (by decide)⟩]
      ['\t'] (by decide),
    .plain " a b".toList (List.all_eq_true.1 (by decide)),
    .closing ⟨'h', ['1'], by decide, List.all_eq_true.1 (by decide)⟩]

theorem tokenize_markup_sample :
    let code := "<h1 id=\"x\"\t\ndata-a=\"it\x27s b\"\t> a b</h1>"
    text sampleMarkup = code.toList ∧ Token.lexemes (tokenize (some "html") code) =
      [(.tag, "<h1"), (.attributeName, " id="), (.string, "\"x\""), (.attributeName, "\ndata-a="),
        (.string, "\"it\x27s b\""), (.tag, ">"), (.tag, "</h1"), (.tag, ">")] := by
  intro code
  have written : text sampleMarkup = code.toList := by decide
  have tokens := tokenize_markup sampleMarkup
  rw [written, String.ofList_toList] at tokens
  refine ⟨written, tokens.trans ?_⟩
  decide

end CodeColor.Html
