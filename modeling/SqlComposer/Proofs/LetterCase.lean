import Mathlib
import SqlComposer.Proofs.Noise

/-!
# Letters in either case

The reader of a statement tells no letter from the same letter in upper case. So the kind is that
of the text in upper case, and texts that differ in the case of letters have the same kind.
-/

namespace SqlComposer

/-- A text with some of its ASCII letters in the other case. -/
def Text.Recased (s t : List Char) : Prop :=
  List.Forall₂ (fun c d => d = c ∨ d = c.toUpper ∨ d = c.toLower) s t

theorem Text.Recased.map_toUpper {s t : List Char} (h : Recased s t) :
    t.map Char.toUpper = s.map Char.toUpper := by
  induction h with
  | nil => rfl
  | @cons c d s t hd _ ih =>
    rw [List.map_cons, List.map_cons, ih]
    rcases hd with rfl | rfl | rfl
    · rfl
    · rw [Char.toUpper_toUpper_eq_toUpper]
    · rw [Char.toUpper_toLower_eq_toUpper]

namespace Kind

/-! ## Characters -/

theorem toUpper_of_not_isAlpha {c : Char} (h : c.isAlpha = false) : c.toUpper = c := by
  apply Char.toUpper_eq_of_not_isLower
  intro hlower
  rw [Char.isAlpha, hlower, Bool.or_true] at h
  exact nomatch h

theorem toUpper_eq_iff {c m : Char} (hm : m.isAlpha = false) :
    c.toUpper = m ↔ c = m := by
  constructor
  · rintro rfl
    rw [Char.isAlpha_toUpper_eq_isAlpha] at hm
    exact (toUpper_of_not_isAlpha hm).symm
  · rintro rfl
    exact toUpper_of_not_isAlpha hm

theorem head?_toUpper_eq_iff {s : List Char} {m : Char} (hm : m.isAlpha = false) :
    (s.map Char.toUpper).head? = some m ↔ s.head? = some m := by
  cases s with
  | nil => simp
  | cons c s => simpa using toUpper_eq_iff hm

theorem toUpper_beq {c m : Char} (hm : m.isAlpha = false) :
    (c.toUpper == m) = (c == m) := by
  rw [Bool.eq_iff_iff, beq_iff_eq, beq_iff_eq, toUpper_eq_iff hm]

theorem head?_toUpper_beq {s : List Char} {m : Char} (hm : m.isAlpha = false) :
    ((s.map Char.toUpper).head? == some m) = (s.head? == some m) := by
  rw [Bool.eq_iff_iff, beq_iff_eq, beq_iff_eq, head?_toUpper_eq_iff hm]

theorem startsWord_toUpper (c : Char) : startsWord c.toUpper = startsWord c := by
  rw [startsWord, startsWord, Char.isAlpha_toUpper_eq_isAlpha, toUpper_beq (m := '_') rfl]

theorem continuesWord_of_isAlpha {c : Char} (h : c.isAlpha = true) : continuesWord c = true := by
  simp [continuesWord, Char.isAlphanum, h]

theorem continuesWord_toUpper (c : Char) : continuesWord c.toUpper = continuesWord c := by
  cases h : c.isAlpha with
  | false => rw [toUpper_of_not_isAlpha h]
  | true => simp [continuesWord, Char.isAlphanum, h]

theorem isBlank_toUpper (c : Char) : Text.isBlank c.toUpper = Text.isBlank c := by
  cases h : c.isAlpha with
  | false => rw [toUpper_of_not_isAlpha h]
  | true =>
    have hword := continuesWord_of_isAlpha h
    have hupper := (continuesWord_toUpper c).trans hword
    exact (Text.isBlank_of_isWordChar hupper).trans (Text.isBlank_of_isWordChar hword).symm

/-! ## Readers -/

theorem skipNoise_toUpper (place : Noise) (s : List Char) :
    skipNoise place (s.map Char.toUpper) = (skipNoise place s).map Char.toUpper := by
  induction s generalizing place with
  | nil => simp [skipNoise]
  | cons c s ih =>
    rw [List.map_cons]
    cases place with
    | code =>
      rw [skipNoise, skipNoise, isBlank_toUpper, toUpper_beq (m := '(') rfl,
        toUpper_beq (m := '-') rfl, toUpper_beq (m := '/') rfl,
        head?_toUpper_beq (m := '-') rfl, head?_toUpper_beq (m := '*') rfl]
      simp only [apply_ite (List.map Char.toUpper), ih, List.map_cons]
    | lineComment =>
      rw [skipNoise, skipNoise, ih]
      simp only [toUpper_eq_iff (m := '\n') rfl]
    | blockComment star =>
      rw [skipNoise, skipNoise, toUpper_beq (m := '/') rfl, toUpper_beq (m := '*') rfl, ih]

theorem startsWith_toUpper (word : String) (s : List Char) :
    startsWith word (s.map Char.toUpper) = startsWith word s := by
  have htwice : Char.toUpper ∘ Char.toUpper = Char.toUpper :=
    funext Char.toUpper_toUpper_eq_toUpper
  rw [startsWith, startsWith, ← List.map_take, List.map_map, htwice]

theorem enter_toUpper (depth : Nat) (c : Char) (s : List Char) :
    enter depth c.toUpper (s.map Char.toUpper).head? = enter depth c s.head? := by
  unfold enter
  simp only [toUpper_eq_iff (m := '(') rfl, toUpper_eq_iff (m := ')') rfl,
    toUpper_eq_iff (m := '\'') rfl, toUpper_eq_iff (m := '"') rfl,
    toUpper_eq_iff (m := '-') rfl, head?_toUpper_eq_iff (m := '-') rfl, startsWord_toUpper,
    Char.toUpper_toUpper_eq_toUpper]
  by_cases hmark : c = '\'' ∨ c = '"'
  · have hupper : c.toUpper = c := toUpper_of_not_isAlpha (by rcases hmark with rfl | rfl <;> rfl)
    rw [hupper]
  · rw [if_neg hmark, if_neg hmark]

/-- If it is between quotes, no letter ends them. -/
def Place.Apt (place : Place) : Prop := ∀ mark, place = .quoted mark → mark.isAlpha = false

theorem Place.apt_code : code.Apt := fun _ h => nomatch h

theorem Place.apt_word (letters : List Char) : (word letters).Apt := fun _ h => nomatch h

theorem Place.apt_enter (depth : Nat) (c : Char) (next : Option Char) :
    (enter depth c next).1.Apt := by
  intro mark hmark
  unfold enter at hmark
  split_ifs at hmark with _ _ hquote
  · obtain rfl := Place.quoted.inj hmark
    rcases hquote with rfl | rfl <;> rfl

theorem firstMain?_toUpper {place : Place} (hplace : place.Apt) (depth : Nat) (s : List Char) :
    firstMain? place depth (s.map Char.toUpper) = firstMain? place depth s := by
  induction s generalizing place depth with
  | nil => rfl
  | cons c s ih =>
    have hentered := ih (Place.apt_enter depth c s.head?) (enter depth c s.head?).2
    rw [List.map_cons]
    cases place with
    | code => rw [firstMain?, firstMain?, enter_toUpper, hentered]
    | lineComment =>
      rw [firstMain?, firstMain?]
      simp only [toUpper_eq_iff (m := '\n') rfl]
      apply ih
      split
      · exact Place.apt_code
      · intro mark hmark
        cases hmark
    | quoted mark =>
      rw [firstMain?, firstMain?]
      simp only [toUpper_eq_iff (hplace mark rfl)]
      apply ih
      split
      · exact Place.apt_code
      · exact hplace
    | word letters =>
      rw [firstMain?, firstMain?, continuesWord_toUpper, enter_toUpper, hentered,
        Char.toUpper_toUpper_eq_toUpper, ih (Place.apt_word _)]

/-! ## No influence on the kind -/

theorem ofSql_toUpper (s : List Char) :
    ofSql (String.ofList (s.map Char.toUpper)) = ofSql (String.ofList s) := by
  rw [ofSql_eq_ofStart, ofSql_eq_ofStart, skipNoise_toUpper]
  unfold ofStart
  simp only [startsWith_toUpper, firstMain?_toUpper Place.apt_code]

theorem ofSql_recased {s t : List Char} (h : Text.Recased s t) :
    ofSql (String.ofList t) = ofSql (String.ofList s) := by
  rw [← ofSql_toUpper t, h.map_toUpper, ofSql_toUpper]

end Kind

end SqlComposer
