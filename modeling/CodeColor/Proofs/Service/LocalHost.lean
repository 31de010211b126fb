import CodeColor.Proofs.Text.Case
import CodeColor.Service.LocalHost

/-!
The local host does what is documented of the framework.

Main statement: `localHost_documented`.
-/

namespace CodeColor

namespace Text

theorem lowerBetween_ascii {c : Char} (ascii : c.toNat < 128) (before after : List Char) :
    lowerBetween before c after = [c.toLower] := by
  have points : ∀ point < 128, Char.ofNat (lowerPoint caseRuns point) = (Char.ofNat point).toLower := by
    decide +kernel
  have other {letter : Char} (beyond : 128 ≤ letter.toNat) : c ≠ letter := by
    rintro rfl
    omega
  rw [lowerBetween, if_neg (other (by decide)), if_neg (other (by decide)), points c.toNat ascii, Char.ofNat_toNat]

theorem lower_ascii {text : List Char} (ascii : ∀ c ∈ text, c.toNat < 128) : lower text = text.map Char.toLower := by
  have onto (before : List Char) : lowerOnto before [] text = text.map Char.toLower := by
    induction text generalizing before with
    | nil => rfl
    | cons c text ih =>
      rw [lowerOnto_cons, lowerBetween_ascii (ascii c List.mem_cons_self), ih fun d member =>
        ascii d (List.mem_cons_of_mem c member)]
      rfl
  exact onto []

theorem trimEnds_eq_self {isSpace : Char → Bool} {text : List Char} (visible : ∀ c ∈ text, isSpace c = false) :
    trimEnds isSpace text = text := by
  have front {text : List Char} (visible : ∀ c ∈ text, isSpace c = false) : text.dropWhile isSpace = text := by
    cases text with
    | nil => rfl
    | cons c text => exact List.dropWhile_cons_of_neg (by simp [visible c])
  unfold trimEnds
  rw [front visible, front fun c member => visible c (List.mem_reverse.1 member), List.reverse_reverse]

end Text

namespace Service

open LocalHost

theorem mediaType_append {type parameters : String} (bare : BareType type)
    (behind : parameters = "" ∨ parameters.toList.head? = some ';') :
    mediaType (type ++ parameters) = String.ofList (type.toList.map Char.toLower) := by
  have before : (type ++ parameters).toList.takeWhile (· ≠ ';') = type.toList := by
    rw [String.toList_append, List.takeWhile_append_of_pos fun c member => by simpa using (bare c member).2.2]
    have none : parameters.toList.takeWhile (· ≠ ';') = [] := by
      rcases behind with rfl | starts
      · rfl
      · obtain ⟨rest, split⟩ := List.head?_eq_some_iff.1 starts
        rw [split]
        rfl
    rw [none, List.append_nil]
  have visible : ∀ c ∈ type.toList, isOptionalSpace c = false := by
    intro c member
    have high : '!' ≤ c := (bare c member).1
    simp only [isOptionalSpace, Bool.or_eq_false_iff, decide_eq_false_iff_not]
    constructor <;> rintro rfl <;> exact absurd high (by decide)
  have ascii : ∀ c ∈ type.toList, c.toNat < 128 := by
    intro c member
    have low : c.toNat ≤ '~'.toNat := (bare c member).2.1
    have tilde : '~'.toNat = 126 := by decide
    omega
  unfold mediaType
  dsimp only
  rw [before, Text.trimEnds_eq_self visible, Text.lower_ascii ascii]

theorem place_of_path (route : Route) :
    Place.ofPath? (Target.ofText route.path.toList).path = some (.route route) := by
  cases route <;> decide

theorem destination_of_route (route : Route) : destination route.method route.path = ⟨.route route, false⟩ := by
  have plain : (Target.ofText route.path.toList).isSocket = false := by cases route <;> decide
  have accepted : (Place.route route).accepts (Text.asciiUpper route.method.toList) = true := by cases route <;> decide
  have no_options : Text.asciiUpper route.method.toList ≠ "OPTIONS".toList := by cases route <;> decide
  have no_head : Text.asciiUpper route.method.toList ≠ "HEAD".toList := by cases route <;> decide
  simp only [destination, LocalHost.handler, place_of_path, guarded, accepted, plain, Place.handler, if_neg no_options,
    no_head, decide_false, ↓reduceIte, Bool.false_eq_true]

theorem localHost_value : localHost.value = value Json.standardNesting := by
  rw [localHost]

theorem localHost_mediaType : localHost.mediaType = mediaType := by
  rw [localHost]

theorem localHost_documented : localHost.Documented Json.standardNesting := by
  constructor
  case media_type =>
    intro type parameters bare behind
    rw [localHost_mediaType, mediaType_append bare behind]
  case body_room => decide
  case no_body => rfl
  case other_type =>
    intro body other
    rw [localHost_mediaType] at other
    rw [localHost_value, value, if_neg other]
  case json_type =>
    intro body counted
    rw [localHost_mediaType] at counted
    rw [localHost_value, value, if_pos counted]
  case routed => exact destination_of_route

end Service

end CodeColor
