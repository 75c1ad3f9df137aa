import SqlComposer.Text.Replacement
import SqlComposer.Text.Literal

/-!
# What the second phase meets

Seen from its keys alone, the pass of `replaceAll` takes a text apart into characters that stay
and keys that give way. Which keys it meets, and where, does not depend on what is put in their
places.
-/

namespace SqlComposer.Text

/-- What the pass meets at a place: a character that stays, or a key. -/
inductive Met where
  | char (c : Char)
  | key (k : String)
deriving DecidableEq, Repr

/-- What stands in the place afterwards, when `texts` gives the texts of the keys. -/
def Met.write (texts : String → List Char) : Met → List Char
  | .char c => [c]
  | .key k => texts k

def longestKey (keys : List String) (s : List Char) : Option String :=
  (longestAt (keys.map (⟨·, ""⟩)) s).map (·.key)

/-- Everything the pass meets, in order. As in `replaceFrom`, the first argument counts the
characters of a key that are still to be skipped. -/
def meets (keys : List String) : Nat → List Char → List Met
  | _, [] => []
  | skip + 1, _ :: s => meets keys skip s
  | 0, c :: s =>
    match longestKey keys (c :: s) with
    | some k => .key k :: meets keys (k.length - 1) s
    | none => .char c :: meets keys 0 s

/-! ## The longest key -/

theorem starts_iff {r : Replacement} {s : List Char} :
    r.starts s = true ↔ r.key ≠ "" ∧ r.key.toList <+: s := by
  simp [Replacement.starts]

theorem longestAt_cons (r : Replacement) (table : List Replacement) (s : List Char) :
    longestAt (r :: table) s =
      if r.starts s then some (r.longer (longestAt table s)) else longestAt table s := rfl

theorem longer_eq_or (a : Replacement) (b : Option Replacement) :
    a.longer b = a ∨ b = some (a.longer b) := by
  cases b with
  | none => exact Or.inl rfl
  | some b =>
    simp only [Replacement.longer]
    split
    · exact Or.inr rfl
    · exact Or.inl rfl

theorem longestAt_mem {table : List Replacement} {s : List Char} {r : Replacement}
    (h : longestAt table s = some r) : r ∈ table ∧ r.starts s = true := by
  induction table with
  | nil => simp [longestAt] at h
  | cons a table ih =>
    rw [longestAt_cons] at h
    split at h
    · next ha =>
      obtain rfl : a.longer (longestAt table s) = r := by simpa using h
      rcases longer_eq_or a (longestAt table s) with he | he
      · rw [he]; exact ⟨List.mem_cons_self, ha⟩
      · exact ⟨List.mem_cons_of_mem _ (ih he).1, (ih he).2⟩
    · exact ⟨List.mem_cons_of_mem _ (ih h).1, (ih h).2⟩

theorem longestAt_eq_none_iff {table : List Replacement} {s : List Char} :
    longestAt table s = none ↔ ∀ r ∈ table, r.starts s = false := by
  induction table with
  | nil => simp [longestAt]
  | cons a table ih =>
    rw [longestAt_cons]
    by_cases ha : a.starts s = true
    · simp [ha]
    · simp [ha, ih]

/-- No key that starts the text is longer than the one that is taken. -/
theorem length_le_longestAt {table : List Replacement} {s : List Char} {r : Replacement}
    (h : longestAt table s = some r) {a : Replacement} (ha : a ∈ table)
    (hs : a.starts s = true) : a.key.length ≤ r.key.length := by
  induction table generalizing r with
  | nil => simp at ha
  | cons b table ih =>
    rw [longestAt_cons] at h
    split at h
    · obtain rfl : b.longer (longestAt table s) = r := by simpa using h
      rcases hb : longestAt table s with _ | best
      · rcases List.mem_cons.mp ha with rfl | ha
        · simp [Replacement.longer]
        · simp [longestAt_eq_none_iff.mp hb a ha] at hs
      · simp only [Replacement.longer]
        rcases List.mem_cons.mp ha with rfl | ha
        · split <;> omega
        · have := ih hb ha
          split <;> omega
    · next hn =>
      rcases List.mem_cons.mp ha with rfl | ha
      · exact absurd hs hn
      · exact ih h ha

theorem eq_of_isPrefix_of_length_eq {a b : String} {s : List Char} (ha : a.toList <+: s)
    (hb : b.toList <+: s) (h : a.length = b.length) : a = b := by
  have hlen : a.toList.length = b.toList.length := by
    rw [String.length_toList, String.length_toList, h]
  exact String.toList_inj.mp
    ((List.prefix_of_prefix_length_le ha hb (Nat.le_of_eq hlen)).eq_of_length hlen)

theorem longestKey_eq_none_iff {keys : List String} {s : List Char} :
    longestKey keys s = none ↔ ∀ k ∈ keys, k ≠ "" → ¬ k.toList <+: s := by
  rw [longestKey, Option.map_eq_none_iff, longestAt_eq_none_iff]
  simp only [List.forall_mem_map, Bool.eq_false_iff, ne_eq, starts_iff, not_and]

/-- The longest key is not empty, starts the text, and no longer one does. -/
theorem longestKey_eq_some_iff {keys : List String} {s : List Char} {k : String} :
    longestKey keys s = some k ↔ (k ∈ keys ∧ k ≠ "" ∧ k.toList <+: s) ∧
      ∀ a ∈ keys, a ≠ "" → a.toList <+: s → a.length ≤ k.length := by
  constructor
  · intro h
    obtain ⟨r, hr, rfl⟩ := Option.map_eq_some_iff.mp h
    obtain ⟨hmem, hstarts⟩ := longestAt_mem hr
    obtain ⟨a, ha, rfl⟩ := List.mem_map.mp hmem
    refine ⟨⟨ha, starts_iff.mp hstarts⟩, fun b hb hne hpre => ?_⟩
    exact length_le_longestAt hr (List.mem_map_of_mem hb) (starts_iff.mpr ⟨hne, hpre⟩)
  · rintro ⟨⟨hk, hne, hpre⟩, hmax⟩
    rcases h : longestKey keys s with _ | b
    · exact absurd hpre (longestKey_eq_none_iff.mp h k hk hne)
    · obtain ⟨r, hr, rfl⟩ := Option.map_eq_some_iff.mp h
      obtain ⟨hmem, hstarts⟩ := longestAt_mem hr
      obtain ⟨b, hb, rfl⟩ := List.mem_map.mp hmem
      obtain ⟨hbne, hbpre⟩ := starts_iff.mp hstarts
      have hle := length_le_longestAt hr (List.mem_map_of_mem hk) (starts_iff.mpr ⟨hne, hpre⟩)
      have := eq_of_isPrefix_of_length_eq hbpre hpre (Nat.le_antisymm (hmax b hb hbne hbpre) hle)
      rw [this]

/-- Only the set of keys counts, and the empty key never does. -/
theorem longestKey_congr {keys keys' : List String} (h : ∀ k ≠ "", k ∈ keys ↔ k ∈ keys')
    (s : List Char) : longestKey keys s = longestKey keys' s := by
  apply Option.ext
  intro k
  rw [longestKey_eq_some_iff, longestKey_eq_some_iff]
  grind

theorem meets_congr {keys keys' : List String} (h : ∀ k ≠ "", k ∈ keys ↔ k ∈ keys')
    (skip : Nat) (s : List Char) : meets keys skip s = meets keys' skip s := by
  induction s generalizing skip with
  | nil => cases skip <;> rfl
  | cons c s ih => cases skip <;> simp [meets, ih, longestKey_congr h]

/-! ## The pass -/

theorem longestKey_map_key (table : List Replacement) (s : List Char) :
    longestKey (table.map (·.key)) s = (longestAt table s).map (·.key) := by
  rcases h : longestAt table s with _ | r
  · rw [Option.map_none, longestKey_eq_none_iff, List.forall_mem_map]
    intro r hr hne hpre
    have := longestAt_eq_none_iff.mp h r hr
    simp [starts_iff.mpr ⟨hne, hpre⟩] at this
  · obtain ⟨hmem, hstarts⟩ := longestAt_mem h
    rw [Option.map_some, longestKey_eq_some_iff]
    refine ⟨⟨List.mem_map_of_mem hmem, starts_iff.mp hstarts⟩, ?_⟩
    rw [List.forall_mem_map]
    exact fun a ha hne hpre => length_le_longestAt h ha (starts_iff.mpr ⟨hne, hpre⟩)

/-- Among equal keys, the first counts. -/
theorem find?_longestAt {table : List Replacement} {s : List Char} {r : Replacement}
    (h : longestAt table s = some r) : table.find? (·.key == r.key) = some r := by
  induction table generalizing r with
  | nil => simp [longestAt] at h
  | cons a table ih =>
    have hstarts := (longestAt_mem h).2
    -- Only a longer key takes the place of an earlier one, so never an equal one.
    rw [longestAt_cons] at h
    split at h
    · rcases hb : longestAt table s with _ | b
      · obtain rfl : a = r := by simpa [hb, Replacement.longer] using h
        simp
      · simp only [hb, Replacement.longer, Option.some.injEq] at h
        split at h
        · next hlt =>
          subst h
          have hne : a.key ≠ b.key := fun he => by simp [he] at hlt
          simpa [List.find?_cons, hne] using ih hb
        · obtain rfl := h
          simp
    · next hn =>
      have hne : a.key ≠ r.key := fun he => by
        rw [starts_iff] at hn hstarts
        exact hn (he ▸ hstarts)
      simpa [List.find?_cons, hne] using ih h

/-- The pass writes what it meets. -/
theorem replaceFrom_eq (table : List Replacement) (texts : String → List Char)
    (htexts : ∀ r, table.find? (·.key == r.key) = some r → r.text.toList = texts r.key)
    (skip : Nat) (s : List Char) :
    replaceFrom table skip s =
      (meets (table.map (·.key)) skip s).flatMap (Met.write texts) := by
  induction s generalizing skip with
  | nil => cases skip <;> rfl
  | cons c s ih =>
    cases skip with
    | succ skip => simpa [replaceFrom, meets] using ih skip
    | zero =>
      rw [replaceFrom, meets, longestKey_map_key]
      rcases h : longestAt table (c :: s) with _ | r
      · simp [Met.write, ih]
      · simp [Met.write, ih, htexts r (find?_longestAt h)]

theorem meets_drop (keys : List String) (skip : Nat) (s : List Char) :
    meets keys skip s = meets keys 0 (s.drop skip) := by
  induction s generalizing skip with
  | nil => cases skip <;> rfl
  | cons c s ih =>
    cases skip with
    | zero => rfl
    | succ n => simpa [meets] using ih n

theorem meets_key {keys : List String} {k : String} {s : List Char}
    (h : longestKey keys (k.toList ++ s) = some k) :
    meets keys 0 (k.toList ++ s) = .key k :: meets keys 0 s := by
  obtain ⟨⟨-, hne, -⟩, -⟩ := longestKey_eq_some_iff.mp h
  rcases hk : k.toList with _ | ⟨c, cs⟩
  · exact absurd (String.toList_eq_nil_iff.mp hk) hne
  · have hlen : k.length = cs.length + 1 := by rw [← String.length_toList, hk]; rfl
    rw [hk, List.cons_append] at h
    rw [List.cons_append, meets, h]
    simp only [hlen, Nat.add_sub_cancel]
    rw [meets_drop, List.drop_left]

/-! ## A character that is in no key -/

theorem isPrefix_append_cons_iff {k s t : List Char} {c : Char} (hc : c ∉ k) :
    k <+: s ++ c :: t ↔ k <+: s := by
  refine ⟨fun h => ?_, fun h => h.trans (List.prefix_append _ _)⟩
  rcases List.prefix_or_prefix_of_prefix h (List.prefix_append s (c :: t)) with h' | ⟨u, rfl⟩
  · exact h'
  · rw [List.prefix_append_right_inj] at h
    cases u with
    | nil => simp
    | cons d u =>
      obtain ⟨rfl, -⟩ := List.cons_prefix_cons.mp h
      simp at hc

theorem longestAt_append_cons {table : List Replacement} {c : Char}
    (hc : ∀ r ∈ table, c ∉ r.key.toList) (s t : List Char) :
    longestAt table (s ++ c :: t) = longestAt table s := by
  induction table with
  | nil => rfl
  | cons r table ih =>
    have hstarts : r.starts (s ++ c :: t) = r.starts s := by
      rw [Bool.eq_iff_iff, starts_iff, starts_iff,
        isPrefix_append_cons_iff (hc r List.mem_cons_self)]
    rw [longestAt_cons, longestAt_cons, hstarts, ih fun a ha => hc a (List.mem_cons_of_mem _ ha)]

/-- The pass goes up to the character, and begins anew behind it. -/
theorem replaceFrom_append_cons {table : List Replacement} {c : Char}
    (hc : ∀ r ∈ table, c ∉ r.key.toList) (s t : List Char) :
    replaceFrom table 0 (s ++ c :: t) = replaceFrom table 0 s ++ c :: replaceFrom table 0 t := by
  suffices h : ∀ skip ≤ s.length, replaceFrom table skip (s ++ c :: t) =
      replaceFrom table skip s ++ c :: replaceFrom table 0 t from h 0 (Nat.zero_le _)
  induction s with
  | nil =>
    intro skip hskip
    obtain rfl : skip = 0 := Nat.le_zero.mp hskip
    have hnone : longestAt table (c :: t) = none := by
      rw [longestAt_eq_none_iff]
      intro r hr
      rw [Bool.eq_false_iff, ne_eq, starts_iff]
      rintro ⟨hne, hpre⟩
      have hnil := (isPrefix_append_cons_iff (s := []) (hc r hr)).mp hpre
      exact hne (String.toList_eq_nil_iff.mp (List.prefix_nil.mp hnil))
    simp [replaceFrom, hnone]
  | cons d s ih =>
    intro skip hskip
    cases skip with
    | succ skip => exact ih skip (by simpa using hskip)
    | zero =>
      have hlongest := longestAt_append_cons hc (d :: s) t
      rw [List.cons_append] at hlongest
      rw [List.cons_append, replaceFrom, replaceFrom, hlongest]
      rcases h : longestAt table (d :: s) with _ | r
      · simp [ih 0 (Nat.zero_le _)]
      · have hlen := (starts_iff.mp (longestAt_mem h).2).2.length_le
        rw [String.length_toList, List.length_cons] at hlen
        simp [ih (r.key.length - 1) (by omega)]

end SqlComposer.Text
