import SqlComposer.Proofs.Filters
import SqlComposer.Proofs.Meeting

/-!
# Between breaks

No key goes beyond a blank or a parenthesis when none has these in it. So what stands between them
is taken by itself: two texts that differ there alone come to the same if these two parts do.
-/

namespace SqlComposer

namespace Text

/-- The characters that stand around an operand. -/
def isBreak (c : Char) : Bool := c == ' ' || c == '(' || c == ')'

def BreaksBefore (pre : String) : Prop := ∀ c ∈ pre.toList.getLast?, isBreak c = true

def BreaksBehind (post : String) : Prop := ∀ c ∈ post.toList.head?, isBreak c = true

/-- Two texts, not empty, that have `s` and `t` in one place between breaks. -/
structure Swap (s t a b : String) : Prop where
  left : a ≠ ""
  right : b ≠ ""
  place : ∃ pre post, BreaksBefore pre ∧ BreaksBehind post ∧
    a = pre ++ s ++ post ∧ b = pre ++ t ++ post

theorem BreaksBefore.append {front pre : String} (hfront : BreaksBefore front)
    (h : BreaksBefore pre) : BreaksBefore (front ++ pre) := by
  intro c hc
  rw [String.toList_append, List.getLast?_append] at hc
  cases hlast : pre.toList.getLast? with
  | none => exact hfront c (by simpa [hlast] using hc)
  | some d =>
    obtain rfl : d = c := by simpa [hlast] using hc
    exact h d hlast

theorem breaksBefore_word (front : String) {word : String}
    (h : ∃ c ∈ word.toList.getLast?, isBreak c = true) : BreaksBefore (front ++ word) := by
  obtain ⟨b, hb, hbreak⟩ := h
  intro c hc
  rw [String.toList_append, List.getLast?_append, hb] at hc
  obtain rfl : b = c := by simpa using hc
  exact hbreak

theorem BreaksBefore.of_ne_empty {pre : String} (h : BreaksBefore pre) (hne : pre ≠ "")
    (front : String) : BreaksBefore (front ++ pre) := by
  obtain ⟨c, hc⟩ := Option.ne_none_iff_exists'.mp
    (mt List.getLast?_eq_none_iff.mp (mt String.toList_eq_nil_iff.mp hne))
  exact breaksBefore_word front ⟨c, hc, h c hc⟩

theorem breaksBehind_word {word : String} (h : ∃ c ∈ word.toList.head?, isBreak c = true)
    (behind : String) : BreaksBehind (word ++ behind) := by
  obtain ⟨b, hb, hbreak⟩ := h
  intro c hc
  rw [String.toList_append, List.head?_append, hb] at hc
  obtain rfl : b = c := by simpa using hc
  exact hbreak

theorem BreaksBehind.append {post behind : String} (h : BreaksBehind post)
    (hbehind : BreaksBehind behind) : BreaksBehind (post ++ behind) := by
  intro c hc
  rw [String.toList_append, List.head?_append] at hc
  cases hhead : post.toList.head? with
  | none => exact hbehind c (by simpa [hhead] using hc)
  | some d =>
    obtain rfl : d = c := by simpa [hhead] using hc
    exact h d hhead

theorem breaksBefore_empty : BreaksBefore "" := nofun

theorem breaksBehind_empty : BreaksBehind "" := nofun

theorem Swap.within {s t a b : String} (h : Swap s t a b) {front behind : String}
    (hfront : BreaksBefore front) (hbehind : BreaksBehind behind) :
    Swap s t (front ++ a ++ behind) (front ++ b ++ behind) := by
  obtain ⟨ha, hb, pre, post, hpre, hpost, rfl, rfl⟩ := h
  refine ⟨?_, ?_, front ++ pre, post ++ behind, hfront.append hpre, hpost.append hbehind, ?_, ?_⟩
  · simp only [ne_eq, String.append_eq_empty_iff] at ha ⊢
    tauto
  · simp only [ne_eq, String.append_eq_empty_iff] at hb ⊢
    tauto
  · simp only [String.append_assoc]
  · simp only [String.append_assoc]

/-! ## The pass over such texts -/

variable {table : List Replacement}

section

variable (htable : ∀ r ∈ table, ∀ c ∈ r.key.toList, isBreak c = false)

include htable

theorem not_mem_key {c : Char} (hc : isBreak c = true) : ∀ r ∈ table, c ∉ r.key.toList := by
  intro r hr hmem
  rw [htable r hr c hmem] at hc
  exact nomatch hc

theorem replaceFrom_before {pre : List Char} (hpre : ∀ c ∈ pre.getLast?, isBreak c = true)
    (s : List Char) :
    replaceFrom table 0 (pre ++ s) = replaceFrom table 0 pre ++ replaceFrom table 0 s := by
  rcases List.eq_nil_or_concat' pre with rfl | ⟨u, c, rfl⟩
  · rfl
  · have hc := not_mem_key htable (hpre c (by simp))
    rw [List.append_assoc, List.singleton_append, replaceFrom_append_cons hc,
      replaceFrom_append_cons hc, List.append_assoc]
    rfl

theorem replaceFrom_behind {post : List Char} (hpost : ∀ c ∈ post.head?, isBreak c = true)
    (s : List Char) :
    replaceFrom table 0 (s ++ post) = replaceFrom table 0 s ++ replaceFrom table 0 post := by
  cases post with
  | nil => simp [replaceFrom]
  | cons c u =>
    have hc := not_mem_key htable (hpost c rfl)
    have hnil := replaceFrom_append_cons hc [] u
    rw [List.nil_append] at hnil
    rw [replaceFrom_append_cons hc, hnil]
    rfl

/-- Between breaks, the pass takes a text by itself. -/
theorem replaceAll_between {pre post : String} (hpre : BreaksBefore pre)
    (hpost : BreaksBehind post) (s : String) :
    replaceAll table (pre ++ s ++ post) =
      replaceAll table pre ++ replaceAll table s ++ replaceAll table post := by
  unfold replaceAll
  rw [← String.toList_inj, String.toList_append, String.toList_append,
    replaceFrom_behind htable hpost, replaceFrom_before htable hpre]
  simp

theorem Swap.replaceAll_eq {s t a b : String} (h : Swap s t a b)
    (hst : replaceAll table s = replaceAll table t) :
    replaceAll table a = replaceAll table b := by
  obtain ⟨-, -, pre, post, hpre, hpost, rfl, rfl⟩ := h
  rw [replaceAll_between htable hpre hpost, replaceAll_between htable hpre hpost, hst]

end

theorem replaceFrom_of_not_infix {s : List Char}
    (h : ∀ r ∈ table, r.key ≠ "" → ¬ r.key.toList <:+: s) : replaceFrom table 0 s = s := by
  induction s with
  | nil => rfl
  | cons c s ih =>
    have hnone : longestAt table (c :: s) = none := by
      rw [longestAt_eq_none_iff]
      intro r hr
      rw [Bool.eq_false_iff, ne_eq, starts_iff]
      rintro ⟨hne, hpre⟩
      exact h r hr hne hpre.isInfix
    rw [replaceFrom, hnone]
    exact congrArg (c :: ·) (ih fun r hr hne hin => h r hr hne (List.infix_cons hin))

/-- A key alone gives way to its text, as no other key in it is longer. -/
theorem replaceAll_key {k text : String} (hk : k ≠ "")
    (hfind : table.find? (·.key == k) = some ⟨k, text⟩) : replaceAll table k = text := by
  have hlongest : longestKey (table.map (·.key)) k.toList = some k := by
    refine longestKey_eq_some_iff.mpr ⟨⟨?_, hk, List.prefix_refl _⟩, fun a _ _ hpre => ?_⟩
    · exact List.mem_map.mpr ⟨_, List.mem_of_find?_eq_some hfind, rfl⟩
    · rw [← String.length_toList, ← String.length_toList]
      exact hpre.length_le
  rw [longestKey_map_key] at hlongest
  obtain ⟨r, hr, hkey⟩ := Option.map_eq_some_iff.mp hlongest
  have hsame := find?_longestAt hr
  rw [hkey, hfind] at hsame
  obtain rfl := Option.some.inj hsame
  obtain ⟨c, s, hcs⟩ := List.exists_cons_of_ne_nil (mt String.toList_eq_nil_iff.mp hk)
  have hlength : k.length - 1 = s.length := by
    rw [← String.length_toList, hcs]
    rfl
  rw [hcs] at hr
  rw [replaceAll, hcs, replaceFrom, hr]
  simp only [hlength]
  rw [replaceFrom_drop, List.drop_length]
  simp [replaceFrom]

/-! ## Trimming -/

/-- Behind `lead`, nothing of the text is trimmed away. -/
def Stays (lead text : String) : Prop :=
  (∃ c ∈ text.toList.getLast?, isBlank c = false) ∧
    (Visible lead ∨ ∃ c ∈ text.toList.head?, isBlank c = false)

theorem Stays.ne_empty {lead text : String} (h : Stays lead text) : text ≠ "" := by
  rintro rfl
  obtain ⟨⟨c, hc, -⟩, -⟩ := h
  exact nomatch hc

theorem trimStart_of_head {s : List Char} (h : ∃ c ∈ s.head?, isBlank c = false) :
    trimStart s = s := by
  obtain ⟨c, hc, hvisible⟩ := h
  obtain ⟨u, rfl⟩ := List.head?_eq_some_iff.mp hc
  exact List.dropWhile_cons_of_neg (by simp [hvisible])

theorem trimStart_append {lead text : String}
    (h : Visible lead ∨ ∃ c ∈ text.toList.head?, isBlank c = false) :
    trimStart (lead.toList ++ text.toList) = trimStart lead.toList ++ text.toList := by
  unfold trimStart
  rw [List.dropWhile_append]
  split
  · next hblank =>
    rcases h with ⟨c, hc, hvisible⟩ | h
    · have hnil := List.isEmpty_iff.mp hblank
      exact absurd (mem_trimStart hc hvisible) (by simp [trimStart, hnil])
    · rw [List.isEmpty_iff.mp hblank]
      exact trimStart_of_head h
  · rfl

theorem Stays.trim_eq {lead text : String} (h : Stays lead text) :
    trim (lead ++ text) = String.ofList (trimStart lead.toList) ++ text := by
  obtain ⟨⟨c, hc, hvisible⟩, hstart⟩ := h
  unfold trim
  rw [String.toList_append, trimStart_append hstart, trimStart_of_head, List.reverse_reverse]
  · simp
  · refine ⟨c, ?_, hvisible⟩
    rw [List.head?_reverse, List.getLast?_append, hc]
    rfl

/-- What is left of a text that ends with a break, ends with it, too. -/
theorem BreaksBefore.trimStart {lead : String} (h : BreaksBefore lead) :
    BreaksBefore (String.ofList (trimStart lead.toList)) := by
  intro c hc
  rw [String.toList_ofList] at hc
  apply h
  have hlead := List.takeWhile_append_dropWhile (p := isBlank) (l := lead.toList)
  rw [← hlead, List.getLast?_append]
  unfold Text.trimStart at hc
  rw [hc]
  rfl

end Text

end SqlComposer
