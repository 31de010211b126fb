import CodeColor.Proofs.Json.Acceptance

/-!
Texts that are nested too deeply. The reader gives up at a mark that opens a level too many, where everything in front
of it may start a JSON text. It does not look at what comes behind the mark.

Main statements: `read_eq_tooDeep_iff`, `parsesAsJson_eq_tooDeep_iff` and `overflows_brackets`.
-/

namespace CodeColor.Json

/-- The lexemes start what makes up the role, and the last of them opens a level so deep. -/
inductive Opens : Nat → Role → List Lexeme → Prop
  | here {mark : Char} (opening : mark ∈ ['[', '{']) : Opens 1 .value [.mark mark]
  | array {depth : Nat} {items : List Lexeme} (inside : Opens depth .items items) :
      Opens (depth + 1) .value (.mark '[' :: items)
  | object {depth : Nat} {members : List Lexeme} (inside : Opens depth .members members) :
      Opens (depth + 1) .value (.mark '{' :: members)
  | item {depth : Nat} {value : List Lexeme} (inside : Opens depth .value value) : Opens depth .items value
  | laterItem {depth : Nat} {item onward : List Lexeme} (value : Derives .value item)
      (inside : Opens depth .items onward) : Opens depth .items (item ++ .mark ',' :: onward)
  | member {depth : Nat} {content : List Char} {value : List Lexeme} (inside : Opens depth .value value) :
      Opens depth .members (.name content :: .mark ':' :: value)
  | laterMember {depth : Nat} {content : List Char} {value onward : List Lexeme} (given : Derives .value value)
      (inside : Opens depth .members onward) :
      Opens depth .members (.name content :: .mark ':' :: (value ++ .mark ',' :: onward))

/-- A start of the text opens more levels in the role than there is room for. -/
def Role.Overflows (role : Role) (nesting : Nat) (text : List Char) : Prop :=
  ∃ depth parts rest, nesting < depth ∧ text = written parts ++ rest ∧ Sound parts ∧
    Opens depth role (parts.map Spaced.lexeme)

/-- The text is nested too deeply, however it goes on. -/
def Overflows (nesting : Nat) (text : List Char) : Prop :=
  Role.value.Overflows nesting text

theorem Overflows.mono {less more : Nat} {text : List Char} (few : less ≤ more) (overflows : Overflows more text) :
    Overflows less text := by
  obtain ⟨depth, parts, rest, deep, split, sound, opens⟩ := overflows
  exact ⟨depth, parts, rest, Nat.lt_of_le_of_lt few deep, split, sound, opens⟩

/-! ## Where the reader gives up -/

section

variable {nesting : Nat} {space text behind : List Char}

theorem overflows_opening {mark : Char} (blank : Blank space) (opening : mark ∈ ['[', '{']) :
    Role.value.Overflows 0 (space ++ mark :: text) := by
  refine ⟨1, [⟨space, .mark mark⟩], text, Nat.one_pos, by simp [written, Lexeme.text], ?_, .here opening⟩
  exact List.forall_mem_singleton.2 ⟨blank, trivial⟩

theorem overflows_between {role : Role} {mark : Char} (blank : Blank space) (inside : role.Overflows nesting text)
    (opens : ∀ {depth : Nat} {lexemes : List Lexeme}, Opens depth role lexemes →
      Opens (depth + 1) .value (.mark mark :: lexemes)) :
    Role.value.Overflows (nesting + 1) (space ++ mark :: text) := by
  obtain ⟨depth, parts, rest, deep, rfl, sound, inner⟩ := inside
  refine ⟨depth + 1, ⟨space, .mark mark⟩ :: parts, rest, Nat.succ_lt_succ deep, by simp [written, Lexeme.text], ?_,
    opens inner⟩
  exact List.forall_mem_cons.2 ⟨⟨blank, trivial⟩, sound⟩

theorem overflows_item (value : Role.value.Overflows nesting text) : Role.items.Overflows nesting text := by
  obtain ⟨depth, parts, rest, deep, split, sound, inner⟩ := value
  exact ⟨depth, parts, rest, deep, split, sound, .item inner⟩

theorem overflows_laterItem (value : StartsUpTo .value ',' text behind)
    (onward : Role.items.Overflows nesting behind) : Role.items.Overflows nesting text := by
  obtain ⟨gap, blankGap, parts, rfl, derived, sound⟩ := value
  obtain ⟨depth, others, rest, deep, rfl, soundOthers, inner⟩ := onward
  refine ⟨depth, parts ++ ⟨gap, .mark ','⟩ :: others, rest, deep, by simp [written, Lexeme.text], ?_, ?_⟩
  · exact List.forall_mem_append.2 ⟨sound, List.forall_mem_cons.2 ⟨⟨blankGap, trivial⟩, soundOthers⟩⟩
  · simpa using Opens.laterItem derived inner

variable {content gap : List Char} (blank : Blank space) (spelled : Content content) (blankGap : Blank gap)
include blank spelled blankGap

theorem overflows_member (value : Role.value.Overflows nesting text) :
    Role.members.Overflows nesting (space ++ (Lexeme.quoted content ++ (gap ++ ':' :: text))) := by
  obtain ⟨depth, parts, rest, deep, rfl, sound, inner⟩ := value
  refine ⟨depth, ⟨space, .name content⟩ :: ⟨gap, .mark ':'⟩ :: parts, rest, deep, by simp [written, Lexeme.text], ?_,
    .member inner⟩
  exact List.forall_mem_cons.2 ⟨⟨blank, spelled⟩, List.forall_mem_cons.2 ⟨⟨blankGap, trivial⟩, sound⟩⟩

theorem overflows_laterMember (value : StartsUpTo .value ',' text behind)
    (onward : Role.members.Overflows nesting behind) :
    Role.members.Overflows nesting (space ++ (Lexeme.quoted content ++ (gap ++ ':' :: text))) := by
  obtain ⟨comma, blankComma, parts, rfl, derived, sound⟩ := value
  obtain ⟨depth, others, rest, deep, rfl, soundOthers, inner⟩ := onward
  refine ⟨depth, ⟨space, .name content⟩ :: ⟨gap, .mark ':'⟩ :: (parts ++ ⟨comma, .mark ','⟩ :: others), rest, deep,
    by simp [written, Lexeme.text], ?_, ?_⟩
  · refine List.forall_mem_cons.2 ⟨⟨blank, spelled⟩, List.forall_mem_cons.2 ⟨⟨blankGap, trivial⟩, ?_⟩⟩
    exact List.forall_mem_append.2 ⟨sound, List.forall_mem_cons.2 ⟨⟨blankComma, trivial⟩, soundOthers⟩⟩
  · simpa using Opens.laterMember derived inner

end

theorem formed_ne_tooDeep {α : Type} {result : Option α} : formed result ≠ .error .tooDeep := by
  cases result <;> simp [formed]

def ValueDeep (fuel : Nat) : Prop :=
  ∀ {nesting : Nat} {space text : List Char}, Blank space → readValue fuel nesting text = .error .tooDeep →
    Role.value.Overflows nesting (space ++ text)

def ItemsDeep (fuel : Nat) : Prop :=
  ∀ {nesting : Nat} {done : List Json} {space text : List Char}, Blank space →
    readItems fuel nesting done text = .error .tooDeep → Role.items.Overflows nesting (space ++ text)

def MembersDeep (fuel : Nat) : Prop :=
  ∀ {nesting : Nat} {done : List (String × Json)} {space text : List Char}, Blank space →
    readMembers fuel nesting done text = .error .tooDeep → Role.members.Overflows nesting (space ++ text)

theorem valueDeep_succ {fuel : Nat} (items : ItemsDeep fuel) (members : MembersDeep fuel) : ValueDeep (fuel + 1) := by
  intro nesting space text blank deep
  unfold readValue at deep
  split at deep
  next => exact absurd deep formed_ne_tooDeep
  next text =>
    split at deep
    next => exact overflows_opening blank (by decide)
    next nesting =>
      split at deep
      next => cases deep
      next =>
        obtain ⟨gap, blankGap, split⟩ := skipSpace_eq text
        have inside := items blankGap deep
        rw [← split] at inside
        exact overflows_between blank inside .array
  next text =>
    split at deep
    next => exact overflows_opening blank (by decide)
    next nesting =>
      split at deep
      next => cases deep
      next =>
        obtain ⟨gap, blankGap, split⟩ := skipSpace_eq text
        have inside := members blankGap deep
        rw [← split] at inside
        exact overflows_between blank inside .object
  next => exact absurd deep formed_ne_tooDeep

theorem itemsDeep_succ {fuel : Nat} (value : ValueDeep fuel) (items : ItemsDeep fuel) : ItemsDeep (fuel + 1) := by
  intro nesting done space text blank deep
  unfold readItems at deep
  split at deep
  next failure given =>
    cases deep
    exact overflows_item (value blank given)
  next found behind given =>
    have starts := (sound_of_fuel fuel).1 blank given
    split at deep
    next => cases deep
    next further next =>
      obtain ⟨gap, blankGap, split⟩ := skipSpace_eq further
      have onward := items blankGap deep
      rw [← split] at onward
      exact overflows_laterItem (startsUpTo_of_starts starts next) onward
    next => cases deep

theorem membersDeep_succ {fuel : Nat} (value : ValueDeep fuel) (members : MembersDeep fuel) :
    MembersDeep (fuel + 1) := by
  intro nesting done space text blank deep
  unfold readMembers at deep
  split at deep
  next text =>
    split at deep
    next => cases deep
    next name behindName literal =>
      obtain ⟨content, rfl, spelled⟩ := content_of_readString literal
      split at deep
      next behindColon colon =>
        obtain ⟨gap, blankGap, splitName⟩ := skipSpace_eq behindName
        obtain ⟨lead, blankLead, splitColon⟩ := skipSpace_eq behindColon
        rw [colon] at splitName
        have named : space ++ '"' :: (content ++ '"' :: behindName) =
            space ++ (Lexeme.quoted content ++ (gap ++ ':' :: behindColon)) := by
          rw [splitName]
          simp [Lexeme.quoted]
        rw [named]
        split at deep
        next failure given =>
          cases deep
          have inside := value blankLead given
          rw [← splitColon] at inside
          exact overflows_member blank spelled blankGap inside
        next found behind given =>
          have starts := (sound_of_fuel fuel).1 blankLead given
          rw [← splitColon] at starts
          split at deep
          next => cases deep
          next further next =>
            obtain ⟨comma, blankComma, split⟩ := skipSpace_eq further
            have onward := members blankComma deep
            rw [← split] at onward
            exact overflows_laterMember blank spelled blankGap (startsUpTo_of_starts starts next) onward
          next => cases deep
      next => cases deep
  next => cases deep

theorem deep_of_fuel (fuel : Nat) : ValueDeep fuel ∧ ItemsDeep fuel ∧ MembersDeep fuel := by
  induction fuel with
  | zero =>
    refine ⟨?_, ?_, ?_⟩
    · intro nesting space text _ deep
      cases deep
    · intro nesting done space text _ deep
      cases deep
    · intro nesting done space text _ deep
      cases deep
  | succ fuel ih =>
    obtain ⟨value, items, members⟩ := ih
    exact ⟨valueDeep_succ items members, itemsDeep_succ value items, membersDeep_succ value members⟩

/-! ## Where it has to -/

/-- With two units of fuel for each lexeme the reader gets to the end of the parts and gives up there, where there is
room for fewer levels. -/
def GivesUp (depth : Nat) (parts : List Spaced) : Role → Prop
  | .value => ∀ (fuel nesting : Nat) (rest : List Char), nesting < depth → 2 * parts.length ≤ fuel →
    readValue fuel nesting (skipSpace (written parts ++ rest)) = .error .tooDeep
  | .items => ∀ (fuel nesting : Nat) (rest : List Char) (done : List Json), nesting < depth →
    2 * parts.length < fuel → readItems fuel nesting done (skipSpace (written parts ++ rest)) = .error .tooDeep
  | .members => ∀ (fuel nesting : Nat) (rest : List Char) (done : List (String × Json)), nesting < depth →
    2 * parts.length < fuel → readMembers fuel nesting done (skipSpace (written parts ++ rest)) = .error .tooDeep

section

variable {depth : Nat} {parts : List Spaced} {lexemes : List Lexeme}

theorem givesUp_opening {mark : Char} (opening : mark ∈ ['[', '{'])
    (whole : parts.map Spaced.lexeme = .mark mark :: lexemes) (sound : Sound parts)
    (inside : ∀ (others : List Spaced) (space : List Char) (fuel nesting : Nat) (rest : List Char),
      others.map Spaced.lexeme = lexemes → Sound others → Blank space → nesting + 1 < depth →
      2 * others.length < fuel →
      readValue (fuel + 1) (nesting + 1) (skipSpace (space ++ mark :: (written others ++ rest))) = .error .tooDeep) :
    GivesUp depth parts .value := by
  obtain ⟨⟨space, _⟩, others, rfl, rfl, further⟩ := List.map_eq_cons_iff.1 whole
  obtain ⟨⟨blank, -⟩, soundOthers⟩ := List.forall_mem_cons.1 sound
  intro fuel nesting rest deep enough
  rw [List.length_cons] at enough
  obtain ⟨fuel, rfl⟩ : ∃ less, fuel = less + 1 := ⟨fuel - 1, by omega⟩
  have split : written (⟨space, .mark mark⟩ :: others) ++ rest = space ++ mark :: (written others ++ rest) := by
    simp [written, Lexeme.text]
  rw [split]
  cases nesting with
  | zero => exact readValue_opening opening blank
  | succ nesting => exact inside others space fuel nesting rest further soundOthers blank deep (by omega)

theorem Opens.givesUp {role : Role} (opens : Opens depth role lexemes) (whole : parts.map Spaced.lexeme = lexemes)
    (sound : Sound parts) : GivesUp depth parts role := by
  induction opens generalizing parts with
  | here opening =>
    refine givesUp_opening opening whole sound fun _ _ _ _ _ _ _ _ deep _ => ?_
    omega
  | array _ ih =>
    refine givesUp_opening (by decide) whole sound fun others space fuel nesting rest same sound blank deep enough => ?_
    have items := ih same sound fuel nesting rest [] (Nat.lt_of_succ_lt_succ deep) enough
    rw [readValue_array blank (by simp [items]), items]
  | object _ ih =>
    refine givesUp_opening (by decide) whole sound fun others space fuel nesting rest same sound blank deep enough => ?_
    have members := ih same sound fuel nesting rest [] (Nat.lt_of_succ_lt_succ deep) enough
    rw [readValue_object blank (by simp [members]), members]
  | item _ ih =>
    intro fuel nesting rest done deep enough
    obtain ⟨fuel, rfl⟩ : ∃ less, fuel = less + 1 := ⟨fuel - 1, by omega⟩
    exact readItems_error (ih whole sound fuel nesting rest deep (Nat.le_of_lt_succ enough))
  | laterItem value _ ih =>
    intro fuel nesting rest done deep enough
    obtain ⟨fuel, rfl⟩ : ∃ less, fuel = less + 1 := ⟨fuel - 1, by omega⟩
    have enough_value : parts.length ≤ fuel := by omega
    rcases (readable value).read_comma whole sound enough_value nesting rest with
      earlier | ⟨found, gap, further, read, blank, back, soundFurther, fewer⟩
    · exact readItems_error earlier
    · rw [readItems_comma read blank]
      exact ih back soundFurther fuel nesting rest (found :: done) deep (by omega)
  | member _ ih =>
    intro fuel nesting rest done deep enough
    obtain ⟨fuel, rfl⟩ : ∃ less, fuel = less + 1 := ⟨fuel - 1, by omega⟩
    obtain ⟨further, same, soundFurther, fewer, named⟩ := exists_given whole sound
    obtain ⟨name, members⟩ := named fuel nesting rest done
    rw [members, ih same soundFurther fuel nesting rest deep (by omega)]
  | laterMember given _ ih =>
    intro fuel nesting rest done deep enough
    obtain ⟨fuel, rfl⟩ : ∃ less, fuel = less + 1 := ⟨fuel - 1, by omega⟩
    obtain ⟨further, same, soundFurther, fewer, named⟩ := exists_given whole sound
    obtain ⟨name, members⟩ := named fuel nesting rest done
    rw [members]
    have enough_value : further.length ≤ fuel := by omega
    rcases (readable given).read_comma same soundFurther enough_value nesting rest with
      earlier | ⟨found, comma, onward, read, blankComma, back, soundOnward, shorter⟩
    · rw [earlier]
    · rw [read]
      dsimp only
      rw [skipSpace_mark blankComma rfl]
      exact ih back soundOnward fuel nesting rest ((name, found) :: done) deep (by omega)

end

/-! ## Whole texts -/

theorem read_eq_tooDeep_iff {nesting : Nat} {text : List Char} :
    read nesting text = .error .tooDeep ↔ Overflows nesting text := by
  unfold Json.read
  constructor
  · intro deep
    split at deep
    next =>
      split at deep
      next => cases deep
      next => cases deep
    next failure given =>
      cases deep
      obtain ⟨space, blank, split⟩ := skipSpace_eq text
      have inside := (deep_of_fuel _).1 blank given
      rwa [← split] at inside
  · rintro ⟨depth, parts, rest, deep, rfl, sound, opens⟩
    have few := length_le_written sound
    have enough : 2 * parts.length ≤ 2 * (written parts ++ rest).length + 2 := by
      rw [List.length_append]
      omega
    rw [opens.givesUp rfl sound _ nesting rest deep enough]

theorem parsesAsJson_eq_tooDeep_iff {nesting : Nat} {source : String} :
    parsesAsJson nesting source = .error .tooDeep ↔ Overflows nesting source.toList :=
  parsesAsJson_eq_tooDeep.trans read_eq_tooDeep_iff

theorem exists_parsesAsJson {nesting : Nat} {source : String} (shallow : ¬ Overflows nesting source.toList) :
    ∃ parses, parsesAsJson nesting source = .ok parses := by
  rw [← read_eq_tooDeep_iff] at shallow
  unfold parsesAsJson
  split
  next => exact ⟨_, rfl⟩
  next => exact ⟨false, rfl⟩
  next deep => exact absurd deep shallow

theorem overflows_brackets {nesting count : Nat} (more : nesting < count) (rest : List Char) :
    Overflows nesting (List.replicate count '[' ++ rest) := by
  have opens : ∀ further : Nat, Opens (further + 1) .value (List.replicate (further + 1) (.mark '[')) := by
    intro further
    induction further with
    | zero => exact .here (by decide)
    | succ further ih => exact .array (.item ih)
  obtain ⟨further, rfl⟩ : ∃ further, count = further + 1 := ⟨count - 1, by omega⟩
  refine ⟨further + 1, List.replicate (further + 1) ⟨[], .mark '['⟩, rest, more, ?_, ?_, ?_⟩
  · simp [written, Lexeme.text, List.flatMap_replicate]
  · intro part member
    rw [List.eq_of_mem_replicate member]
    exact ⟨blank_nil, trivial⟩
  · rw [List.map_replicate]
    exact opens further

theorem overflows_replicate {nesting count : Nat} (more : nesting < count) :
    Overflows nesting (String.ofList (List.replicate count '[')).toList := by
  rw [String.toList_ofList, ← List.append_nil (List.replicate count '[')]
  exact overflows_brackets more []

/-! ## The mark that is too much -/

theorem Opens.last {depth : Nat} {role : Role} {lexemes : List Lexeme} (opens : Opens depth role lexemes) :
    ∃ front mark, lexemes = front ++ [.mark mark] ∧ mark ∈ ['[', '{'] := by
  induction opens with
  | @here mark opening => exact ⟨[], mark, rfl, opening⟩
  | item _ ih => exact ih
  | array _ ih | object _ ih =>
    obtain ⟨front, mark, rfl, opening⟩ := ih
    exact ⟨_ :: front, mark, rfl, opening⟩
  | @laterItem _ item _ _ _ ih =>
    obtain ⟨front, mark, rfl, opening⟩ := ih
    exact ⟨item ++ .mark ',' :: front, mark, by simp, opening⟩
  | @member _ content _ _ ih =>
    obtain ⟨front, mark, rfl, opening⟩ := ih
    exact ⟨.name content :: .mark ':' :: front, mark, rfl, opening⟩
  | @laterMember _ content value _ _ _ ih =>
    obtain ⟨front, mark, rfl, opening⟩ := ih
    exact ⟨.name content :: .mark ':' :: (value ++ .mark ',' :: front), mark, by simp, opening⟩

theorem overflows_iff {nesting : Nat} {text : List Char} :
    Overflows nesting text ↔ ∃ front mark rest, text = front ++ mark :: rest ∧ mark ∈ ['[', '{'] ∧
      ∀ other, Overflows nesting (front ++ mark :: other) := by
  constructor
  · rintro ⟨depth, parts, rest, deep, rfl, sound, opens⟩
    obtain ⟨front, mark, lexemes, opening⟩ := opens.last
    obtain ⟨others, last, rfl, -, single⟩ := List.map_eq_append_iff.1 lexemes
    obtain ⟨⟨space, _⟩, rfl, rfl⟩ := List.map_eq_singleton_iff.1 single
    have split (rest : List Char) : written (others ++ [⟨space, .mark mark⟩]) ++ rest =
        written others ++ space ++ mark :: rest := by simp [written, Lexeme.text]
    refine ⟨written others ++ space, mark, rest, split rest, opening, fun other => ?_⟩
    exact ⟨depth, _, other, deep, (split other).symm, sound, opens⟩
  · rintro ⟨front, mark, rest, rfl, -, overflows⟩
    exact overflows rest

theorem Overflows.append {nesting : Nat} {text : List Char} (overflows : Overflows nesting text) (more : List Char) :
    Overflows nesting (text ++ more) := by
  obtain ⟨front, mark, rest, rfl, -, always⟩ := overflows_iff.1 overflows
  rw [List.append_assoc]
  exact always (rest ++ more)

theorem isSpace_opening {mark : Char} (opening : mark ∈ ['[', '{']) : isSpace mark = false := by
  simp only [List.mem_cons, List.not_mem_nil, or_false] at opening
  rcases opening with rfl | rfl <;> rfl

theorem overflows_append_blank {nesting : Nat} {text space : List Char} (blank : Blank space) :
    Overflows nesting (text ++ space) ↔ Overflows nesting text := by
  refine ⟨fun overflows => ?_, fun overflows => overflows.append space⟩
  obtain ⟨front, mark, rest, split, opening, always⟩ := overflows_iff.1 overflows
  have outside : mark ∉ space := fun inside =>
    Bool.false_ne_true ((isSpace_opening opening).symm.trans (blank mark inside))
  rcases List.append_eq_append_iff.1 split with ⟨more, rfl, behind⟩ | ⟨more, rfl, behind⟩
  · exact absurd (by simp [behind]) outside
  · cases more with
    | nil =>
      rw [List.nil_append] at behind
      exact absurd (by simp [← behind]) outside
    | cons c more =>
      obtain ⟨rfl, -⟩ := List.cons.inj behind
      exact always more

end CodeColor.Json
