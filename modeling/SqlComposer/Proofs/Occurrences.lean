import Mathlib.Data.List.Induction
import Mathlib.Data.List.Nodup

/-!
# One entry for each key

Entries with keys are settled in a list one after the other: an entry comes into the place of the
earlier one that has its key, or else to the end. Each key is then there once. The first entry with
a key decides on the place, and the last one stands there.
-/

namespace SqlComposer

/-! ## First occurrences -/

/-- What occurs in a list, each text once, in the order in which they occur first. -/
structure FirstOccurrences (all firsts : List String) : Prop where
  once : firsts.Nodup
  mem : ∀ s, s ∈ firsts ↔ s ∈ all
  order : firsts.Pairwise fun s t => all.idxOf s < all.idxOf t

namespace FirstOccurrences

variable {all firsts firsts' : List String} {s : String}

theorem nil : FirstOccurrences [] [] := ⟨List.nodup_nil, by simp, List.Pairwise.nil⟩

theorem order_append (h : FirstOccurrences all firsts) (rest : List String) :
    firsts.Pairwise fun s t => (all ++ rest).idxOf s < (all ++ rest).idxOf t := by
  refine h.order.imp_of_mem fun hs ht hlt => ?_
  rwa [List.idxOf_append_of_mem ((h.mem _).mp hs), List.idxOf_append_of_mem ((h.mem _).mp ht)]

theorem again (h : FirstOccurrences all firsts) (hs : s ∈ all) :
    FirstOccurrences (all ++ [s]) firsts := by
  refine ⟨h.once, fun t => ?_, h.order_append [s]⟩
  rw [h.mem, List.mem_append, List.mem_singleton]
  exact ⟨.inl, fun ht => ht.elim id fun heq => heq ▸ hs⟩

theorem new (h : FirstOccurrences all firsts) (hs : s ∉ all) :
    FirstOccurrences (all ++ [s]) (firsts ++ [s]) := by
  have hfirsts : s ∉ firsts := mt (h.mem s).mp hs
  refine ⟨?_, fun t => ?_, ?_⟩
  · rw [List.nodup_append]
    refine ⟨h.once, List.nodup_singleton s, fun t ht t' ht' heq => hfirsts ?_⟩
    obtain rfl := List.mem_singleton.mp ht'
    exact heq ▸ ht
  · rw [List.mem_append, List.mem_append, h.mem]
  · rw [List.pairwise_append]
    refine ⟨h.order_append [s], List.pairwise_singleton _ s, fun t ht t' ht' => ?_⟩
    obtain rfl := List.mem_singleton.mp ht'
    have hall : t ∈ all := (h.mem t).mp ht
    rw [List.idxOf_append_of_mem hall, List.idxOf_append_of_notMem hs]
    exact Nat.lt_of_lt_of_le (List.idxOf_lt_length_iff.mpr hall) (Nat.le_add_right _ _)

/-- Of texts that follow, each once, those come behind that are not there already. -/
theorem append (h : FirstOccurrences all firsts) {more : List String} (hmore : more.Nodup) :
    FirstOccurrences (all ++ more) (firsts ++ more.filter (· ∉ all)) := by
  induction more generalizing all firsts with
  | nil => simpa using h
  | cons s more ih =>
    obtain ⟨hs, hmore⟩ := List.nodup_cons.mp hmore
    have hrest : more.filter (· ∉ all ++ [s]) = more.filter (· ∉ all) := by
      refine List.filter_congr fun t ht => ?_
      have hne : t ≠ s := fun heq => hs (heq ▸ ht)
      simp [hne]
    rw [List.append_cons]
    by_cases hall : s ∈ all
    · rw [List.filter_cons_of_neg (by simpa using hall), ← hrest]
      exact ih (h.again hall) hmore
    · rw [List.filter_cons_of_pos (by simpa using hall), ← hrest, List.append_cons firsts]
      exact ih (h.new hall) hmore

/-- There is one such list. -/
theorem unique (h : FirstOccurrences all firsts) (h' : FirstOccurrences all firsts') :
    firsts = firsts' := by
  have hperm : firsts.Perm firsts' :=
    (List.perm_ext_iff_of_nodup h.once h'.once).mpr fun s => (h.mem s).trans (h'.mem s).symm
  exact hperm.eq_of_pairwise (fun s t _ _ hst hts => absurd hst (Nat.lt_asymm hts)) h.order h'.order

theorem eraseDups (all : List String) : FirstOccurrences all all.eraseDups := by
  induction all using List.reverseRecOn with
  | nil => exact nil
  | append_singleton all s ih =>
    rw [List.eraseDups_append]
    by_cases hs : s ∈ all
    · have hnone : [s].removeAll all = [] := by simp [List.removeAll, hs]
      rw [hnone, List.eraseDups_nil, List.append_nil]
      exact ih.again hs
    · have hone : [s].removeAll all = [s] := by simp [List.removeAll, hs]
      rw [hone]
      exact ih.new hs

theorem iff_eq_eraseDups : FirstOccurrences all firsts ↔ firsts = all.eraseDups :=
  ⟨fun h => h.unique (eraseDups all), fun h => h ▸ eraseDups all⟩

end FirstOccurrences

/-! ## Last entries -/

section Arranged

variable {α : Type} (key : α → String)

/-- The last entry that has its key. -/
def LastOf (all : List α) (a : α) : Prop :=
  ∃ before after, all = before ++ a :: after ∧ ∀ later ∈ after, key later ≠ key a

/-- Puts an entry in the place of the one that has its key, or at the end. -/
def settle (a : α) : List α → List α
  | [] => [a]
  | b :: rest => if key b = key a then a :: rest else b :: settle a rest

/-- What is left of entries: each key in the order in which it comes first, and under it what is
found from the end. -/
structure Arranged (all left : List α) : Prop where
  keys : FirstOccurrences (all.map key) (left.map key)
  lookup : ∀ k, left.find? (key · == k) = all.reverse.find? (key · == k)

variable {key} {all left : List α} {a : α}

theorem lastOf_iff {k : String} :
    LastOf key all a ∧ key a = k ↔ all.reverse.find? (key · == k) = some a := by
  unfold LastOf
  rw [List.find?_eq_some_iff_append, beq_iff_eq]
  constructor
  · rintro ⟨⟨before, after, rfl, hafter⟩, rfl⟩
    refine ⟨rfl, after.reverse, before.reverse, by simp, fun later hlater => ?_⟩
    simpa using hafter later (List.mem_reverse.mp hlater)
  · rintro ⟨rfl, after, before, hall, hafter⟩
    refine ⟨⟨before.reverse, after.reverse, ?_, fun later hlater => ?_⟩, rfl⟩
    · rw [← List.reverse_reverse all, hall]
      simp
    · simpa using hafter later (List.mem_reverse.mp hlater)

theorem lastOf_cons {b : α} : LastOf key (b :: all) a ↔
    (a = b ∧ ∀ later ∈ all, key later ≠ key b) ∨ LastOf key all a := by
  constructor
  · rintro ⟨before, after, h, hafter⟩
    cases before with
    | nil =>
      obtain ⟨rfl, rfl⟩ := List.cons.inj h
      exact .inl ⟨rfl, hafter⟩
    | cons _ before => exact .inr ⟨before, after, (List.cons.inj h).2, hafter⟩
  · rintro (⟨rfl, hafter⟩ | ⟨before, after, rfl, hafter⟩)
    · exact ⟨[], all, rfl, hafter⟩
    · exact ⟨b :: before, after, rfl, hafter⟩

theorem find?_of_nodup (h : (left.map key).Nodup) (ha : a ∈ left) :
    left.find? (key · == key a) = some a := by
  cases hfind : left.find? (key · == key a) with
  | none =>
    have hnone := List.find?_eq_none.mp hfind a ha
    exact absurd (beq_self_eq_true (key a)) hnone
  | some b =>
    have hb : b ∈ left := List.mem_of_find?_eq_some hfind
    have hkey : key b = key a := by simpa using List.find?_some hfind
    rw [List.inj_on_of_nodup_map h hb ha hkey]

/-! ## One entry more -/

theorem keys_settle (h : key a ∈ left.map key) : (settle key a left).map key = left.map key := by
  induction left with
  | nil => simp at h
  | cons b left ih =>
    rw [settle]
    split
    · next heq => rw [List.map_cons, List.map_cons, heq]
    · next hne =>
      rw [List.map_cons, List.map_cons, ih]
      exact (List.mem_cons.mp h).resolve_left fun heq => hne heq.symm

theorem settle_new (h : key a ∉ left.map key) : settle key a left = left ++ [a] := by
  induction left with
  | nil => rfl
  | cons b left ih =>
    rw [List.map_cons, List.mem_cons, not_or] at h
    rw [settle, if_neg fun heq => h.1 heq.symm, ih h.2]
    rfl

theorem find?_settle (a : α) (left : List α) (k : String) :
    (settle key a left).find? (key · == k) =
      if key a = k then some a else left.find? (key · == k) := by
  induction left with
  | nil => by_cases h : key a = k <;> simp [settle, h]
  | cons b left ih =>
    rw [settle]
    split
    · next hba =>
      -- Both have one key: it is `k` for both, or both are passed over.
      by_cases h : key a = k <;> simp [h, hba]
    · next hba =>
      by_cases hb : key b = k
      · have ha : key a ≠ k := fun ha => hba (hb.trans ha.symm)
        simp [hb, ha]
      · simp [hb, ih]

namespace Arranged

theorem nil : Arranged key [] [] := ⟨.nil, fun _ => rfl⟩

theorem concat (h : Arranged key all left) (a : α) :
    Arranged key (all ++ [a]) (settle key a left) := by
  constructor
  · rw [List.map_append, List.map_singleton]
    by_cases ha : key a ∈ all.map key
    · rw [keys_settle ((h.keys.mem _).mpr ha)]
      exact h.keys.again ha
    · rw [settle_new (mt (h.keys.mem _).mp ha), List.map_append, List.map_singleton]
      exact h.keys.new ha
  · intro k
    rw [find?_settle, List.reverse_append, List.reverse_singleton, List.singleton_append]
    by_cases ha : key a = k <;> simp [ha, h.lookup]

theorem append (h : Arranged key all left) (more : List α) :
    Arranged key (all ++ more) (more.foldl (fun left a => settle key a left) left) := by
  induction more generalizing all left with
  | nil => rwa [List.append_nil]
  | cons a more ih =>
    rw [List.append_cons, List.foldl_cons]
    exact ih (h.concat a)

theorem of_nodup (h : (all.map key).Nodup) : Arranged key all all := by
  induction all using List.reverseRecOn with
  | nil => exact nil
  | append_singleton all a ih =>
    rw [List.map_append, List.nodup_append] at h
    have hnew : key a ∉ all.map key := fun ha => h.2.2 _ ha _ (by simp) rfl
    have harranged := (ih h.1).concat a
    rwa [settle_new hnew] at harranged

theorem lastOf (h : Arranged key all left) (ha : a ∈ left) : LastOf key all a := by
  have hfind := (h.lookup (key a)).symm.trans (find?_of_nodup h.keys.once ha)
  exact (lastOf_iff.mpr hfind).1

theorem mem_iff (h : Arranged key all left) : a ∈ left ↔ LastOf key all a := by
  refine ⟨h.lastOf, fun ha => ?_⟩
  have hfind := lastOf_iff.mp ⟨ha, rfl⟩
  exact List.mem_of_find?_eq_some ((h.lookup (key a)).trans hfind)

end Arranged

end Arranged

end SqlComposer
