import Mathlib.Data.List.Infix
import Mathlib.Data.List.TakeWhile

/-!
# Texts as bytes

A text is stored in UTF-8. A reader of the bytes counts offsets and takes slices, and a slice has to
begin and to end between characters. In the bytes of a character beyond ASCII no ASCII character
is found, so what is passed byte by byte is passed character by character.
-/

namespace SqlComposer.Text

/-- The bytes of a text, each as the character that has its number. -/
def bytes (s : List Char) : List Char := (s.flatMap String.utf8EncodeChar).map Char.ofUInt8

/-- A text cut at an offset in bytes, if that is between characters. -/
def splitAt? : Nat → List Char → Option (List Char × List Char)
  | 0, s => some ([], s)
  | _ + 1, [] => none
  | n + 1, c :: s =>
    if c.utf8Size ≤ n + 1 then (splitAt? (n + 1 - c.utf8Size) s).map fun (u, v) => (c :: u, v)
    else none

/-- The offset of the first place where a mark stands. -/
def find? (mark : List Char) : List Char → Option Nat
  | [] => none
  | c :: s =>
    if mark.isPrefixOf (c :: s) then some 0 else (find? mark s).map (c.utf8Size + ·)

/-! ## Bytes -/

variable {c : Char} {s u v : List Char}

theorem bytes_append (s t : List Char) : bytes (s ++ t) = bytes s ++ bytes t := by simp [bytes]

theorem bytes_cons (c : Char) (s : List Char) : bytes (c :: s) = bytes [c] ++ bytes s :=
  bytes_append [c] s

theorem length_bytes_singleton (c : Char) : (bytes [c]).length = c.utf8Size := by
  simp [bytes]

theorem length_bytes_cons (c : Char) (s : List Char) :
    (bytes (c :: s)).length = c.utf8Size + (bytes s).length := by
  rw [bytes_cons, List.length_append, length_bytes_singleton]

theorem exists_bytes_eq_cons (c : Char) : ∃ b rest, bytes [c] = b :: rest :=
  List.exists_cons_of_length_pos (length_bytes_singleton c ▸ c.utf8Size_pos)

theorem length_le_bytes (s : List Char) : s.length ≤ (bytes s).length := by
  induction s with
  | nil => exact le_rfl
  | cons c s ih =>
    have hpos := c.utf8Size_pos
    rw [length_bytes_cons, List.length_cons]
    omega

theorem utf8Size_of_ascii (h : c.toNat < 128) : c.utf8Size = 1 :=
  Char.utf8Size_eq_one_iff.mpr (UInt32.le_iff_toNat_le.mpr (Nat.lt_succ_iff.mp h))

theorem toNat_ofUInt8 {n : Nat} (h : n < 256) : (Char.ofUInt8 (UInt8.ofNat n)).toNat = n := by
  have hbyte : (UInt8.ofNat n).toNat = n := UInt8.toNat_ofNat_of_lt' h
  exact (UInt8.toNat_toUInt32 _).trans hbyte

theorem bytes_of_ascii (h : c.toNat < 128) : bytes [c] = [c] := by
  have hbyte : Char.ofUInt8 (UInt8.ofNat c.toNat) = c := by
    rw [← Char.toNat_inj, toNat_ofUInt8 (by omega)]
  have hsingle : String.utf8EncodeChar c = [UInt8.ofNat c.toNat] :=
    String.utf8EncodeChar_eq_singleton (utf8Size_of_ascii h)
  rw [bytes, List.flatMap_singleton, hsingle, List.map_singleton, hbyte]

theorem length_bytes_concat (h : c.toNat < 128) (s : List Char) :
    (bytes (s ++ [c])).length = (bytes s).length + 1 := by
  rw [bytes_append, bytes_of_ascii h, List.length_append, List.length_singleton]

/-- The bytes of a character beyond ASCII are beyond ASCII. -/
theorem not_ascii_of_mem_bytes (h : 128 ≤ c.toNat) {b : Char} (hb : b ∈ bytes [c]) :
    128 ≤ b.toNat := by
  have hbyte : ∀ n, 128 ≤ n → n < 256 → 128 ≤ (Char.ofUInt8 (UInt8.ofNat n)).toNat :=
    fun n hlow hhigh => (toNat_ofUInt8 hhigh).symm ▸ hlow
  rw [bytes, List.flatMap_singleton, String.utf8EncodeChar] at hb
  have hlarge : ¬ c.val.toNat ≤ 127 := Nat.not_le.mpr h
  rw [if_neg hlarge] at hb
  split at hb
  · simp only [List.map_cons, List.map_nil, List.mem_cons, List.not_mem_nil, or_false] at hb
    rcases hb with rfl | rfl <;> exact hbyte _ (by omega) (by omega)
  split at hb
  · simp only [List.map_cons, List.map_nil, List.mem_cons, List.not_mem_nil, or_false] at hb
    rcases hb with rfl | rfl | rfl <;> exact hbyte _ (by omega) (by omega)
  · simp only [List.map_cons, List.map_nil, List.mem_cons, List.not_mem_nil, or_false] at hb
    rcases hb with rfl | rfl | rfl | rfl <;> exact hbyte _ (by omega) (by omega)

theorem head?_bytes_eq_iff {m : Char} (hm : m.toNat < 128) :
    (bytes s).head? = some m ↔ s.head? = some m := by
  cases s with
  | nil => rfl
  | cons c s =>
    rw [bytes_cons, List.head?_cons, Option.some_inj]
    rcases Nat.lt_or_ge c.toNat 128 with hc | hc
    · rw [bytes_of_ascii hc, List.singleton_append, List.head?_cons, Option.some_inj]
    · constructor
      · intro hhead
        have hmem : m ∈ bytes [c] := by
          obtain ⟨b, rest, hbytes⟩ := exists_bytes_eq_cons c
          rw [hbytes, List.cons_append, List.head?_cons, Option.some_inj] at hhead
          rw [hbytes, hhead]
          exact List.mem_cons_self
        exact absurd hm (Nat.not_lt.mpr (not_ascii_of_mem_bytes hc hmem))
      · rintro rfl
        omega

/-- A test that does not tell the characters beyond ASCII apart passes as much, byte by byte. -/
theorem takeWhile_bytes {p : Char → Bool} (other : Bool)
    (hp : ∀ c, 128 ≤ c.toNat → p c = other) (s : List Char) : (bytes s).takeWhile p = bytes (s.takeWhile p) := by
  induction s with
  | nil => rfl
  | cons c s ih =>
    rw [bytes_cons]
    rcases Nat.lt_or_ge c.toNat 128 with hc | hc
    · rw [bytes_of_ascii hc, List.singleton_append, List.takeWhile_cons, List.takeWhile_cons]
      split
      · rw [ih, bytes_cons, bytes_of_ascii hc, List.singleton_append]
      · rfl
    · have hbytes : ∀ b ∈ bytes [c], p b = other :=
        fun b hb => hp b (not_ascii_of_mem_bytes hc hb)
      rw [List.takeWhile_cons, hp c hc]
      cases other with
      | true =>
        rw [List.takeWhile_append_of_pos hbytes, ih, if_pos rfl, ← bytes_cons]
      | false =>
        obtain ⟨b, rest, hcons⟩ := exists_bytes_eq_cons c
        have hb : p b = false := hbytes b (hcons ▸ List.mem_cons_self)
        rw [hcons, List.cons_append, List.takeWhile_cons, hb]
        rfl

/-! ## Slices -/

theorem splitAt?_append (u v : List Char) : splitAt? (bytes u).length (u ++ v) = some (u, v) := by
  induction u with
  | nil => cases v <;> rfl
  | cons c u ih =>
    obtain ⟨k, hk⟩ := Nat.exists_eq_add_one_of_ne_zero c.utf8Size_pos.ne'
    have hlength : (bytes (c :: u)).length = k + (bytes u).length + 1 := by
      rw [length_bytes_cons, hk]
      omega
    rw [hlength, List.cons_append, splitAt?, if_pos (by omega)]
    have hrest : k + (bytes u).length + 1 - c.utf8Size = (bytes u).length := by omega
    rw [hrest, ih]
    rfl

theorem splitAt?_eq_some_iff {n : Nat} :
    splitAt? n s = some (u, v) ↔ s = u ++ v ∧ n = (bytes u).length := by
  constructor
  · intro h
    induction s generalizing n u with
    | nil =>
      cases n with
      | zero => cases h; exact ⟨rfl, rfl⟩
      | succ n => exact nomatch h
    | cons c s ih =>
      cases n with
      | zero => cases h; exact ⟨rfl, rfl⟩
      | succ n =>
        rw [splitAt?] at h
        split at h
        · next hfits =>
          obtain ⟨⟨u', v'⟩, hsplit, heq⟩ := Option.map_eq_some_iff.mp h
          cases heq
          obtain ⟨rfl, hn⟩ := ih hsplit
          refine ⟨rfl, ?_⟩
          rw [length_bytes_cons]
          omega
        · exact nomatch h
  · rintro ⟨rfl, rfl⟩
    exact splitAt?_append u v

/-! ## Marks -/

theorem find?_eq_none {mark : List Char} (h : ¬ mark <:+: s) : find? mark s = none := by
  induction s with
  | nil => rfl
  | cons c s ih =>
    rw [List.infix_cons_iff, not_or] at h
    rw [find?, if_neg (by simpa using h.1), ih h.2]
    rfl

/-- A mark is found where it stands first. -/
theorem find?_append {mark : List Char} (hne : mark ≠ [])
    (h : ¬ mark <:+: u ++ mark.dropLast) (v : List Char) :
    find? mark (u ++ (mark ++ v)) = some (bytes u).length := by
  induction u with
  | nil =>
    obtain ⟨c, rest, rfl⟩ := List.exists_cons_of_ne_nil hne
    rw [List.nil_append, List.cons_append, find?, if_pos]
    · rfl
    · rw [List.isPrefixOf_iff_prefix]
      exact List.prefix_append (c :: rest) v
  | cons c u ih =>
    rw [List.cons_append, List.infix_cons_iff, not_or] at h
    rw [List.cons_append, find?, if_neg, ih h.2, length_bytes_cons]
    · rfl
    · rw [List.isPrefixOf_iff_prefix]
      intro hprefix
      apply h.1
      refine List.prefix_of_prefix_length_le hprefix ?_ ?_
      · rw [← List.cons_append, ← List.cons_append, List.prefix_append_right_inj]
        exact (List.dropLast_prefix mark).trans (List.prefix_append mark v)
      · have hpos := List.length_pos_iff.mpr hne
        rw [List.length_cons, List.length_append, List.length_dropLast]
        omega

end SqlComposer.Text
