import SqlComposer.Decimal.Reader
import SqlComposer.Error

/-!
# Integers as text

The texts that are read as an integer of 64 bits: digits behind an optional sign, as long as the
number fits. Every such integer is read back from its decimal form.
-/

namespace SqlComposer.Decimal

/-- ASCII digits, at least one. -/
def IsNumber (digits : List Char) : Prop := digits ≠ [] ∧ ∀ c ∈ digits, c.isDigit

/-- A decimal number, with or without a sign, and the integer it writes. -/
inductive Writes : List Char → Int → Prop where
  | bare {digits : List Char} (h : IsNumber digits) :
    Writes digits (Nat.ofDigitChars 10 digits 0 : Nat)
  | plus {digits : List Char} (h : IsNumber digits) :
    Writes ('+' :: digits) (Nat.ofDigitChars 10 digits 0 : Nat)
  | minus {digits : List Char} (h : IsNumber digits) :
    Writes ('-' :: digits) (-(Nat.ofDigitChars 10 digits 0 : Nat))

/-! ## Digits -/

theorem le_ofDigitChars (s : List Char) (acc : Nat) : acc ≤ Nat.ofDigitChars 10 s acc := by
  induction s generalizing acc with
  | nil => exact Nat.le_refl acc
  | cons c s ih =>
    rw [Nat.ofDigitChars_cons]
    exact Nat.le_trans (by omega) (ih _)

theorem readDigits_eq_ok_iff {limit acc n : Nat} {overflow : Fault} {s : List Char}
    (hacc : acc ≤ limit) : readDigits limit overflow acc s = .ok n ↔
      (∀ c ∈ s, c.isDigit) ∧ Nat.ofDigitChars 10 s acc = n ∧ n ≤ limit := by
  induction s generalizing acc with
  | nil =>
    rw [readDigits, Except.ok.injEq, Nat.ofDigitChars_nil]
    constructor
    · rintro rfl
      exact ⟨by simp, rfl, hacc⟩
    · exact fun h => h.2.1
  | cons c s ih =>
    rw [readDigits, Nat.ofDigitChars_cons, List.forall_mem_cons]
    by_cases hc : c.isDigit
    · rw [digit?, if_pos hc, Nat.mul_comm 10 acc]
      simp only
      split
      · next hlimit =>
        have hle := le_ofDigitChars s (acc * 10 + (c.toNat - '0'.toNat))
        constructor
        · exact fun h => nomatch h
        · rintro ⟨-, rfl, hn⟩
          omega
      · next hlimit =>
        rw [ih (Nat.not_lt.mp hlimit)]
        simp [hc]
    · rw [digit?, if_neg hc]
      simp [hc]

/-! ## Signs -/

/-- A number with the sign that was split off. -/
def signed (negative : Bool) (n : Nat) : Int := if negative then -n else n

theorem writes_iff {s : List Char} {i : Int} : Writes s i ↔
    IsNumber (splitSign s).2 ∧
      i = signed (splitSign s).1 (Nat.ofDigitChars 10 (splitSign s).2 0) := by
  constructor
  · intro h
    cases h with
    | bare h =>
      have hsplit : splitSign s = (false, s) := by
        unfold splitSign
        split
        · exact absurd (h.2 _ List.mem_cons_self) (by decide)
        · exact absurd (h.2 _ List.mem_cons_self) (by decide)
        · rfl
      rw [hsplit]
      exact ⟨h, rfl⟩
    | plus h => exact ⟨h, rfl⟩
    | minus h => exact ⟨h, rfl⟩
  · unfold splitSign
    split
    · rintro ⟨h, rfl⟩
      exact .minus h
    · rintro ⟨h, rfl⟩
      exact .plus h
    · rintro ⟨h, rfl⟩
      exact .bare h

theorem not_isNumber_nil : ¬ IsNumber [] := fun h => h.1 rfl

theorem ofInt_eq_iff {i : Int} {n : Int64} (hlow : -(Nat.pow 2 63 : Nat) ≤ i)
    (hhigh : i < (Nat.pow 2 63 : Nat)) : Int64.ofInt i = n ↔ n.toInt = i := by
  rw [← Int64.toInt_inj, Int64.toInt_ofInt_of_le hlow hhigh]
  exact eq_comm

/-- Digits are read up to a limit, which is as far as the integers with the sign go. -/
theorem readSigned_eq_ok_iff {limit : Nat} {overflow : Fault} {digits : List Char} {negative : Bool}
    {n : Int64} {f : Nat → Int64} (hne : digits ≠ [])
    (hf : ∀ m ≤ limit, f m = n ↔ n.toInt = signed negative m)
    (hlimit : ∀ m, n.toInt = signed negative m → m ≤ limit) :
    (do return f (← readDigits limit overflow 0 digits)) = .ok n ↔
      IsNumber digits ∧ n.toInt = signed negative (Nat.ofDigitChars 10 digits 0) := by
  rw [Except.bind_eq_ok, IsNumber, and_iff_right hne]
  simp only [readDigits_eq_ok_iff (Nat.zero_le _)]
  constructor
  · rintro ⟨m, ⟨hdigits, rfl, hm⟩, hn⟩
    exact ⟨hdigits, (hf _ hm).mp (Except.ok.inj hn)⟩
  · rintro ⟨hdigits, hn⟩
    have hm := hlimit _ hn
    exact ⟨_, ⟨hdigits, rfl, hm⟩, congrArg Except.ok ((hf _ hm).mpr hn)⟩

/-- Exactly the texts of the integers of 64 bits are read. -/
theorem readInt_eq_ok_iff {text : String} {n : Int64} :
    readInt text = .ok n ↔ Writes text.toList n.toInt := by
  have hlow := n.le_toInt
  have hhigh := n.toInt_lt
  rw [writes_iff, readInt]
  split
  · next h =>
    rw [h]
    exact ⟨fun h => (nomatch h), fun h => absurd h.1 not_isNumber_nil⟩
  · split
    · next h =>
      rw [h]
      exact ⟨fun h => (nomatch h), fun h => absurd h.1 not_isNumber_nil⟩
    · next digits hne h =>
      rw [h]
      refine readSigned_eq_ok_iff hne (fun m hm => ?_) (fun m hm => ?_)
      · change Int64.ofInt (-m) = n ↔ n.toInt = -m
        exact ofInt_eq_iff (by rw [Nat.pow_eq] at hm ⊢; omega) (by rw [Nat.pow_eq]; omega)
      · rw [Nat.pow_eq]
        simp only [signed, if_true] at hm
        omega
    · next digits hne h =>
      rw [h]
      refine readSigned_eq_ok_iff hne (fun m hm => ?_) (fun m hm => ?_)
      · change Int64.ofInt m = n ↔ n.toInt = m
        exact ofInt_eq_iff (by omega) (by rw [Nat.pow_eq] at hm ⊢; omega)
      · rw [Nat.pow_eq]
        simp only [signed, Bool.false_eq_true, if_false] at hm
        omega

/-! ## Decimal forms -/

theorem isNumber_toDigits (n : Nat) : IsNumber (Nat.toDigits 10 n) :=
  ⟨Nat.toDigits_ne_nil, fun _ hc => Nat.isDigit_of_mem_toDigits (by decide) (by decide) hc⟩

theorem writes_toString (i : Int) : Writes (toString i).toList i := by
  cases i with
  | ofNat n =>
    have htext : (toString (Int.ofNat n)).toList = Nat.toDigits 10 n := Nat.toList_repr
    have h := Writes.bare (isNumber_toDigits n)
    rw [Nat.ofDigitChars_ten_toDigits] at h
    rw [htext]
    exact h
  | negSucc n =>
    have htext : (toString (Int.negSucc n)).toList = '-' :: Nat.toDigits 10 (n + 1) := by
      rw [← Nat.toList_repr]
      exact String.toList_append
    have h := Writes.minus (isNumber_toDigits (n + 1))
    rw [Nat.ofDigitChars_ten_toDigits] at h
    rw [htext]
    exact h

end SqlComposer.Decimal
