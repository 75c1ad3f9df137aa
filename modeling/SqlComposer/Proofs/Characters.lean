import Mathlib.Data.List.Chain
import SqlComposer.Decimal.Fixed
import SqlComposer.Text.Upper

/-!
# Which characters are written

Signs such as quotes, parentheses and colons mean something in SQL. Upper case keeps every sign and
makes no new one, and numbers have no sign but a minus in front.
-/

namespace SqlComposer.Text

/-! ## Upper case -/

/-- A character of ASCII that is neither a letter nor a digit nor NUL. -/
def isSign (c : Char) : Bool := 0 < c.toNat && c.toNat < 128 && !c.isAlphanum

theorem isSign_ofNat_of_le {n : Nat} (h : 128 ≤ n) : isSign (Char.ofNat n) = false := by
  by_cases hn : n.isValidChar
  · have hnat : (Char.ofNat n).toNat = n := by
      rw [Char.ofNat, dif_pos hn]
      rfl
    rw [isSign, hnat, decide_eq_false (Nat.not_lt_of_le h), Bool.and_false, Bool.false_and]
  · rw [Char.ofNat, dif_neg hn]
    rfl

/-- The code points of upper case that are no signs. -/
def unsigned (n : Nat) : Bool := 128 ≤ n || (65 ≤ n && n ≤ 90)

theorem isSign_ofNat {n : Nat} (h : unsigned n = true) : isSign (Char.ofNat n) = false := by
  have hletters : ∀ n < 91, 65 ≤ n → isSign (Char.ofNat n) = false := by decide
  simp only [unsigned, Bool.or_eq_true, Bool.and_eq_true, decide_eq_true_eq] at h
  rcases h with h | ⟨hlow, hhigh⟩
  · exact isSign_ofNat_of_le h
  · exact hletters n (by omega) hlow

theorem caseExpansions_unsigned :
    caseExpansions.all (fun e => !e.upper.isEmpty && e.upper.all unsigned) = true := by decide

theorem caseRuns_unsigned :
    caseRuns.all (fun r => decide (128 ≤ r.first + r.shift) ||
      (r.first == r.last && unsigned (r.first + r.shift).toNat)) = true := by decide

theorem unsigned_shifted {r : CaseRun} (hr : r ∈ caseRuns) {n m : Nat}
    (h : r.shifted? n = some m) : unsigned m = true := by
  have hrun := List.all_eq_true.mp caseRuns_unsigned r hr
  unfold CaseRun.shifted? at h
  split at h
  · next hn =>
    obtain ⟨hlow, hhigh, -⟩ := hn
    obtain rfl := Option.some.inj h
    simp only [Bool.or_eq_true, decide_eq_true_eq, Bool.and_eq_true, beq_iff_eq] at hrun
    rcases hrun with hrun | ⟨hsame, hrun⟩
    · simp only [unsigned, Bool.or_eq_true, decide_eq_true_eq]
      left
      omega
    · obtain rfl : n = r.first := by omega
      exact hrun
  · simp at h

theorem upperCodes_unsigned {n : Nat} (h : 128 ≤ n) :
    upperCodes n ≠ [] ∧ ∀ m ∈ upperCodes n, unsigned m = true := by
  unfold upperCodes
  split
  · next e he =>
    have := List.all_eq_true.mp caseExpansions_unsigned e (List.mem_of_find?_eq_some he)
    simpa using this
  · refine ⟨by simp, fun m hm => ?_⟩
    obtain rfl := List.mem_singleton.mp hm
    cases hf : caseRuns.findSome? (·.shifted? n) with
    | none => simp [unsigned, h]
    | some m =>
      obtain ⟨r, hr, hshift⟩ := List.exists_of_findSome?_eq_some hf
      exact unsigned_shifted hr hshift

/-- A sign is its own upper case, and nothing else becomes a sign. -/
theorem upperChar_cases (c : Char) :
    upperChar c = [c] ∨ upperChar c ≠ [] ∧ ∀ x ∈ upperChar c, isSign x = false := by
  unfold upperChar
  split
  · next hc =>
    have hascii : ∀ n < 128, (Char.ofNat n).toUpper = Char.ofNat n ∨
        isSign (Char.ofNat n).toUpper = false := by decide
    have := hascii c.toNat hc
    rw [Char.ofNat_toNat] at this
    rcases this with h | h
    · exact Or.inl (by rw [h])
    · exact Or.inr (by simpa using h)
  · next hc =>
    obtain ⟨hne, hall⟩ := upperCodes_unsigned (Nat.le_of_not_lt hc)
    refine Or.inr ⟨by simpa using hne, fun x hx => ?_⟩
    obtain ⟨m, hm, rfl⟩ := List.mem_map.mp hx
    exact isSign_ofNat (hall m hm)

theorem upper_eq (s : String) : (upper s).toList = s.toList.flatMap upperChar := by
  rw [upper, String.toList_ofList]

theorem mem_of_mem_upper {s : String} {c : Char} (hc : isSign c = true)
    (h : c ∈ (upper s).toList) : c ∈ s.toList := by
  rw [upper_eq] at h
  obtain ⟨x, hx, hcx⟩ := List.mem_flatMap.mp h
  rcases upperChar_cases x with hsame | ⟨-, hnone⟩
  · rw [hsame, List.mem_singleton] at hcx
    rwa [hcx]
  · simp [hnone c hcx] at hc

/-- Upper case brings no two signs together. -/
theorem isChain_flatMap_upperChar {R : Char → Char → Prop}
    (hR : ∀ x y, ¬ R x y → isSign x = true ∧ isSign y = true) {s : List Char}
    (h : s.IsChain R) : (s.flatMap upperChar).IsChain R := by
  have hfree : ∀ {x y}, isSign x = false ∨ isSign y = false → R x y := by
    intro x y hxy
    by_contra hn
    obtain ⟨hx, hy⟩ := hR x y hn
    simp [hx, hy] at hxy
  induction s with
  | nil => exact .nil
  | cons c s ih =>
    rw [List.flatMap_cons, List.isChain_append]
    -- Two signs side by side are both left as they are, so they were side by side before.
    refine ⟨?_, ih h.tail, fun x hx y hy => ?_⟩
    · rcases upperChar_cases c with hc | ⟨-, hc⟩
      · rw [hc]
        exact .singleton c
      · refine List.isChain_iff_getElem.mpr fun i hi => ?_
        exact hfree (Or.inl (hc _ (List.getElem_mem _)))
    · rcases upperChar_cases c with hc | ⟨-, hc⟩
      · obtain rfl : c = x := by simpa [hc] using hx
        rcases s with _ | ⟨d, s⟩
        · simp at hy
        · rcases upperChar_cases d with hd | ⟨hne, hd⟩
          · obtain rfl : d = y := by simpa [hd] using hy
            exact (List.isChain_cons_cons.mp h).1
          · rw [List.flatMap_cons, List.head?_append_of_ne_nil _ hne] at hy
            exact hfree (Or.inr (hd y (List.mem_of_head? hy)))
      · exact hfree (Or.inl (hc x (List.mem_of_getLast? hx)))

/-! ## Numbers -/

/-- Letters, digits and what stands between words. -/
def isPlain (c : Char) : Bool := c.isAlphanum || [' ', ',', '.', '=', '*', '_'].contains c

theorem isPlain_of_isDigit {c : Char} (h : c.isDigit = true) : isPlain c = true := by
  simp [isPlain, Char.isAlphanum, h]

theorem isPlain_toDigits (n : Nat) : ∀ c ∈ Nat.toDigits 10 n, isPlain c = true := fun _ hc =>
  isPlain_of_isDigit (Nat.isDigit_of_mem_toDigits (by decide) (by decide) hc)

theorem isPlain_toString (n : Nat) : ∀ c ∈ (toString n).toList, isPlain c = true := by
  rw [Nat.toString_eq_ofList_toDigits, String.toList_ofList]
  exact isPlain_toDigits n

/-- Perhaps a minus, and plain characters behind it. -/
def IsNumeral (s : String) : Prop :=
  ∃ negative t, s = Decimal.sign negative ++ t ∧ ∀ c ∈ t.toList, isPlain c = true

theorem isNumeral_toString (n : Int) : IsNumeral (toString n) := by
  cases n with
  | ofNat n =>
    refine ⟨false, toString n, ?_, isPlain_toString n⟩
    rw [Decimal.sign, if_neg Bool.false_ne_true, String.empty_append]
    rfl
  | negSucc n => exact ⟨true, toString (n + 1), rfl, isPlain_toString (n + 1)⟩

theorem isPlain_pointed (places n : Nat) :
    ∀ c ∈ (Decimal.pointed places n).toList, isPlain c = true := by
  intro c hc
  simp only [Decimal.pointed, Decimal.padded, String.toList_append, String.toList_ofList,
    List.mem_append, List.mem_replicate] at hc
  rcases hc with (hc | hc) | ⟨-, rfl⟩ | hc
  · exact isPlain_toString _ c hc
  · obtain rfl : c = '.' := by simpa using hc
    decide
  · decide
  · exact isPlain_toDigits _ c hc

theorem isNumeral_fixed (places : Nat) (x : Float) : IsNumeral (Decimal.fixed places x) := by
  unfold Decimal.fixed
  split
  · exact ⟨false, "NaN", rfl, List.all_eq_true.mp (by decide)⟩
  · next negative _ => exact ⟨negative, "inf", rfl, List.all_eq_true.mp (by decide)⟩
  · next negative _ _ _ => exact ⟨negative, _, rfl, isPlain_pointed places _⟩

end SqlComposer.Text
