import Mathlib.Data.String.Basic

/-!
# The order of the bytes

Texts are compared by their characters, one after the other. That is the order of their bytes in
UTF-8 as well: of two characters the smaller one has a smaller byte at the first place where they
differ.
-/

namespace SqlComposer.Text

/-- The bytes of a text in UTF-8. -/
def utf8 (s : String) : List UInt8 := s.toByteArray.data.toList

/-- At the first place where two lists differ, the left one has less. -/
inductive Below {α : Type} [LT α] : List α → List α → Prop where
  | head {x y : α} {u v : List α} (h : x < y) : Below (x :: u) (y :: v)
  | tail {x : α} {u v : List α} (h : Below u v) : Below (x :: u) (x :: v)

section Below

variable {α β : Type} [LT α] [LT β]

theorem Below.lt {u v : List α} (h : Below u v) : u < v := by
  induction h with
  | head h => exact .rel h
  | tail _ ih => exact .cons ih

theorem Below.append {u v : List α} (h : Below u v) (a b : List α) : Below (u ++ a) (v ++ b) := by
  induction h with
  | head h => exact .head h
  | tail _ ih => exact .tail ih

theorem Below.append_left {a b : List α} (h : Below a b) (u : List α) :
    Below (u ++ a) (u ++ b) := by
  induction u with
  | nil => exact h
  | cons x u ih => exact .tail ih

theorem flatMap_lt_flatMap {f : β → List α} (hne : ∀ c, f c ≠ [])
    (hf : ∀ c d, c < d → Below (f c) (f d)) {s t : List β} (h : s < t) :
    s.flatMap f < t.flatMap f := by
  induction h with
  | nil =>
    rw [List.flatMap_nil, List.flatMap_cons]
    obtain ⟨x, u, hx⟩ := List.exists_cons_of_ne_nil (hne _)
    rw [hx]
    exact .nil
  | rel h =>
    rw [List.flatMap_cons, List.flatMap_cons]
    exact ((hf _ _ h).append _ _).lt
  | cons _ ih =>
    rw [List.flatMap_cons, List.flatMap_cons]
    exact List.Lex.append_left _ ih _

end Below

theorem ofNat_lt_ofNat {m n : Nat} (h : m < n) (hn : n < 256) : UInt8.ofNat m < UInt8.ofNat n :=
  (UInt8.ofNat_lt_iff_lt (h.trans hn) hn).mpr h

/-- The bits of a code point are cut into groups of six from the right. Of two code points the
larger one is ahead in the groups in front of the last, or the same there and ahead in the last. -/
theorem below_groups {m n : Nat} {u v : List UInt8} (h : m < n)
    (hahead : m / 64 < n / 64 → Below u v) (hsame : m / 64 = n / 64 → u = v) :
    Below (u ++ [UInt8.ofNat (m % 64 + 128)]) (v ++ [UInt8.ofNat (n % 64 + 128)]) := by
  rcases Nat.lt_or_eq_of_le (Nat.div_le_div_right (c := 64) h.le) with hdiv | hdiv
  · exact (hahead hdiv).append _ _
  · rw [hsame hdiv]
    exact Below.append_left (.head (ofNat_lt_ofNat (by omega) (by omega))) v

theorem below_two {m n : Nat} (h : m < n) (hn : n ≤ 0x7ff) :
    Below ([UInt8.ofNat (m / 64 % 32 + 192)] ++ [UInt8.ofNat (m % 64 + 128)])
      ([UInt8.ofNat (n / 64 % 32 + 192)] ++ [UInt8.ofNat (n % 64 + 128)]) := by
  refine below_groups h (fun hahead => ?_) (fun hsame => by rw [hsame])
  exact .head (ofNat_lt_ofNat (by omega) (by omega))

theorem below_three {m n : Nat} (h : m < n) (hn : n ≤ 0xffff) :
    Below ([UInt8.ofNat (m / 4096 % 16 + 224)] ++ [UInt8.ofNat (m / 64 % 64 + 128)] ++
        [UInt8.ofNat (m % 64 + 128)])
      ([UInt8.ofNat (n / 4096 % 16 + 224)] ++ [UInt8.ofNat (n / 64 % 64 + 128)] ++
        [UInt8.ofNat (n % 64 + 128)]) := by
  rw [show 4096 = 64 * 64 from rfl, ← Nat.div_div_eq_div_mul, ← Nat.div_div_eq_div_mul]
  refine below_groups h (fun hahead => ?_) (fun hsame => by rw [hsame])
  refine below_groups hahead (fun hahead => ?_) (fun hsame => by rw [hsame])
  exact .head (ofNat_lt_ofNat (by omega) (by omega))

theorem below_four {m n : Nat} (h : m < n) (hn : n < 0x110000) :
    Below ([UInt8.ofNat (m / 262144 % 8 + 240)] ++ [UInt8.ofNat (m / 4096 % 64 + 128)] ++
        [UInt8.ofNat (m / 64 % 64 + 128)] ++ [UInt8.ofNat (m % 64 + 128)])
      ([UInt8.ofNat (n / 262144 % 8 + 240)] ++ [UInt8.ofNat (n / 4096 % 64 + 128)] ++
        [UInt8.ofNat (n / 64 % 64 + 128)] ++ [UInt8.ofNat (n % 64 + 128)]) := by
  rw [show 262144 = 64 * 64 * 64 from rfl, show 4096 = 64 * 64 from rfl]
  simp only [← Nat.div_div_eq_div_mul]
  refine below_groups h (fun hahead => ?_) (fun hsame => by rw [hsame])
  refine below_groups hahead (fun hahead => ?_) (fun hsame => by rw [hsame])
  refine below_groups hahead (fun hahead => ?_) (fun hsame => by rw [hsame])
  exact .head (ofNat_lt_ofNat (by omega) (by omega))

/-- A code point with more bytes has the larger first byte. -/
theorem below_utf8EncodeChar {c d : Char} (h : c < d) :
    Below (String.utf8EncodeChar c) (String.utf8EncodeChar d) := by
  have hlt : c.val.toNat < d.val.toNat := h
  have hmax : d.val.toNat < 0x110000 := by
    rcases d.valid with h | h <;> omega
  simp only [String.utf8EncodeChar]
  generalize c.val.toNat = m at hlt ⊢
  generalize d.val.toNat = n at hlt hmax ⊢
  by_cases hm : m ≤ 0x7f
  · rw [if_pos hm]
    split_ifs <;> exact .head (ofNat_lt_ofNat (by omega) (by omega))
  rw [if_neg hm, if_neg (by omega : ¬ n ≤ 0x7f)]
  by_cases hm : m ≤ 0x7ff
  · rw [if_pos hm]
    split_ifs with hn
    · exact below_two hlt hn
    all_goals exact .head (ofNat_lt_ofNat (by omega) (by omega))
  rw [if_neg hm, if_neg (by omega : ¬ n ≤ 0x7ff)]
  by_cases hm : m ≤ 0xffff
  · rw [if_pos hm]
    split_ifs with hn
    · exact below_three hlt hn
    · exact .head (ofNat_lt_ofNat (by omega) (by omega))
  rw [if_neg hm, if_neg (by omega : ¬ n ≤ 0xffff)]
  exact below_four hlt hmax

theorem utf8_eq_flatMap (s : String) : utf8 s = s.toList.flatMap String.utf8EncodeChar := by
  rw [utf8, ← String.utf8Encode_toList, List.utf8Encode, List.data_toByteArray]

theorem utf8_lt_utf8 {s t : String} (h : s < t) : utf8 s < utf8 t := by
  rw [utf8_eq_flatMap, utf8_eq_flatMap]
  exact flatMap_lt_flatMap (fun _ => String.utf8EncodeChar_ne_nil)
    (fun _ _ => below_utf8EncodeChar) h

end SqlComposer.Text
