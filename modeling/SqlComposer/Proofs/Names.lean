import SqlComposer.Proofs.Meeting
import SqlComposer.Quoting

/-!
# What a name is made of

The parts of a name have no characters but those of the name and of the table prefix, and no mark.
-/

namespace SqlComposer

namespace Text

theorem mem_of_mem_replaceFrom {mark : String} {skip : Nat} {s : List Char} {c : Char}
    (h : c ∈ replaceFrom [⟨mark, ""⟩] skip s) : c ∈ s := by
  induction s generalizing skip with
  | nil => cases skip <;> simp [replaceFrom] at h
  | cons e s ih =>
    cases skip with
    | succ skip => exact List.mem_cons_of_mem _ (ih h)
    | zero =>
      rw [replaceFrom] at h
      split at h
      · next r hr =>
        obtain rfl := List.mem_singleton.mp (longestAt_mem hr).1
        exact List.mem_cons_of_mem _ (ih (by simpa using h))
      · rcases List.mem_cons.mp h with rfl | h
        · exact List.mem_cons_self
        · exact List.mem_cons_of_mem _ (ih h)

theorem mem_of_mem_strip {mark s : String} {c : Char} (h : c ∈ (strip mark s).toList) :
    c ∈ s.toList := by
  rw [strip, replaceAll, String.toList_ofList] at h
  exact mem_of_mem_replaceFrom h

/-! ## A mark of one character -/

def without (mark : Char) (s : String) : String := String.ofList (s.toList.filter (· ≠ mark))

theorem replaceFrom_mark {mark : String} {m : Char} (hm : mark.toList = [m]) (s : List Char) :
    replaceFrom [⟨mark, ""⟩] 0 s = s.filter (· ≠ m) := by
  have hlen : mark.length = 1 := by rw [← String.length_toList, hm]; rfl
  have hne : mark ≠ "" := by
    intro h
    simp [h] at hm
  induction s with
  | nil => rfl
  | cons c s ih =>
    have hstarts : Replacement.starts ⟨mark, ""⟩ (c :: s) = decide (c = m) := by
      rw [Bool.eq_iff_iff, starts_iff, hm]
      simp [hne, eq_comm]
    rw [replaceFrom, longestAt_cons, hstarts]
    by_cases hc : c = m
    · simp [hc, longestAt, Replacement.longer, hlen, ih]
    · simp [hc, longestAt, ih]

theorem strip_eq_without {mark : String} {m : Char} (hm : mark.toList = [m]) (s : String) :
    strip mark s = without m s := by
  rw [strip, replaceAll, replaceFrom_mark hm, without]

theorem not_mem_strip {mark : String} {m : Char} (hm : mark.toList = [m]) (s : String) :
    m ∉ (strip mark s).toList := by
  simp [strip_eq_without hm, without]

/-! ## Parts -/

theorem splitAt_eq_splitOn (c : Char) (s : List Char) : splitAt c s = s.splitOn c := by
  induction s with
  | nil => rfl
  | cons d s ih =>
    rw [splitAt, ih, List.splitOn_cons_eq_if_modifyHead]
    by_cases hd : d = c
    · simp [hd]
    · cases h : s.splitOn c with
      | nil => exact absurd h (ih ▸ splitAt_ne_nil c s)
      | cons piece rest => simp [hd]

theorem dotted_append_dot (s t : String) : dotted (s ++ "." ++ t) = dotted s ++ dotted t := by
  have htext : (s ++ "." ++ t).toList = s.toList ++ '.' :: t.toList := by simp
  rw [dotted, htext, splitAt_eq_splitOn, List.splitOn_append_cons_self, List.map_append, dotted,
    dotted, splitAt_eq_splitOn, splitAt_eq_splitOn]

theorem dotted_eq_singleton {s : String} (h : '.' ∉ s.toList) : dotted s = [s] := by
  rw [dotted, splitAt_eq_splitOn, List.splitOn_eq_singleton h]
  simp

theorem two_le_length_dotted {s : String} (h : '.' ∈ s.toList) : 2 ≤ (dotted s).length := by
  obtain ⟨left, right, hs⟩ := List.append_of_mem h
  have hstring : s = String.ofList left ++ "." ++ String.ofList right := by
    rw [← String.toList_inj, hs]
    simp
  have hleft := List.length_pos_iff.mpr (splitAt_ne_nil '.' left)
  have hright := List.length_pos_iff.mpr (splitAt_ne_nil '.' right)
  rw [hstring, dotted_append_dot, List.length_append, dotted, dotted, List.length_map,
    List.length_map, String.toList_ofList, String.toList_ofList]
  omega

theorem mem_of_mem_splitAt {mark : Char} {s piece : List Char} (h : piece ∈ splitAt mark s)
    {c : Char} (hc : c ∈ piece) : c ∈ s := by
  induction s generalizing piece with
  | nil =>
    obtain rfl : piece = [] := by simpa [splitAt] using h
    simp at hc
  | cons e s ih =>
    rw [splitAt] at h
    split at h
    · rcases List.mem_cons.mp h with rfl | h
      · simp at hc
      · exact List.mem_cons_of_mem _ (ih h hc)
    · rcases hs : splitAt mark s with _ | ⟨first, rest⟩
      · exact absurd hs (splitAt_ne_nil mark s)
      · rw [hs] at h ih
        rcases List.mem_cons.mp h with rfl | h
        · rcases List.mem_cons.mp hc with rfl | hc
          · exact List.mem_cons_self
          · exact List.mem_cons_of_mem _ (ih List.mem_cons_self hc)
        · exact List.mem_cons_of_mem _ (ih (List.mem_cons_of_mem _ h) hc)

theorem mem_of_mem_dotted {s part : String} (h : part ∈ dotted s) {c : Char}
    (hc : c ∈ part.toList) : c ∈ s.toList := by
  obtain ⟨piece, hpiece, rfl⟩ := List.mem_map.mp h
  rw [String.toList_ofList] at hc
  exact mem_of_mem_splitAt hpiece hc

end Text

namespace Quoting

variable {q : Quoting} {part : String} {parts : List String}

theorem mem_prefixLast (h : part ∈ q.prefixLast parts) :
    part ∈ parts ∨ ∃ last ∈ parts, part = q.tablePrefix ++ last := by
  fun_induction prefixLast with
  | case1 => simp at h
  | case2 last => exact Or.inr ⟨last, by simp, by simpa using h⟩
  | case3 p rest _ ih =>
    rcases List.mem_cons.mp h with rfl | h
    · exact Or.inl List.mem_cons_self
    · rcases ih h with h | ⟨last, hlast, rfl⟩
      · exact Or.inl (List.mem_cons_of_mem _ h)
      · exact Or.inr ⟨last, List.mem_cons_of_mem _ hlast, rfl⟩

theorem mem_prefixQualifier (h : part ∈ q.prefixQualifier parts) :
    part ∈ parts ∨ ∃ table ∈ parts, part = q.tablePrefix ++ table := by
  fun_induction prefixQualifier with
  | case1 => simp at h
  | case2 table column =>
    rcases List.mem_cons.mp h with rfl | h
    · exact Or.inr ⟨table, by simp, rfl⟩
    · exact Or.inl (List.mem_cons_of_mem _ h)
  | case3 p rest _ ih =>
    rcases List.mem_cons.mp h with rfl | h
    · exact Or.inl List.mem_cons_self
    · rcases ih h with h | ⟨last, hlast, rfl⟩
      · exact Or.inl (List.mem_cons_of_mem _ h)
      · exact Or.inr ⟨last, List.mem_cons_of_mem _ hlast, rfl⟩

theorem prefixLast_ne_nil (h : parts ≠ []) : q.prefixLast parts ≠ [] := by
  obtain ⟨part, rest, rfl⟩ := List.exists_cons_of_ne_nil h
  cases rest <;> simp [prefixLast]

theorem prefixQualifier_ne_nil (h : parts ≠ []) : q.prefixQualifier parts ≠ [] := by
  obtain ⟨part, rest, rfl⟩ := List.exists_cons_of_ne_nil h
  rcases rest with _ | ⟨next, _ | ⟨last, rest⟩⟩ <;> simp [prefixQualifier]

theorem parts_ne_nil (role : Role) (name : String) : q.parts role name ≠ [] := by
  have hdotted : Text.dotted (q.strip name) ≠ [] := by
    simpa [Text.dotted] using Text.splitAt_ne_nil '.' (q.strip name).toList
  cases role with
  | column => exact prefixQualifier_ne_nil hdotted
  | table => exact prefixLast_ne_nil hdotted
  | plain => exact hdotted

/-- The characters of a part come from the name without its marks, or from the table prefix. -/
theorem mem_of_mem_parts {role : Role} {name : String} (h : part ∈ q.parts role name) {c : Char}
    (hc : c ∈ part.toList) : c ∈ (q.strip name).toList ∨ c ∈ q.tablePrefix.toList := by
  have hdotted : part ∈ Text.dotted (q.strip name) ∨
      ∃ table ∈ Text.dotted (q.strip name), part = q.tablePrefix ++ table := by
    cases role with
    | column => exact mem_prefixQualifier h
    | table => exact mem_prefixLast h
    | plain => exact Or.inl h
  rcases hdotted with h | ⟨table, htable, rfl⟩
  · exact Or.inl (Text.mem_of_mem_dotted h hc)
  · rw [String.toList_append, List.mem_append] at hc
    exact hc.symm.imp_left (Text.mem_of_mem_dotted htable)

end Quoting

end SqlComposer
