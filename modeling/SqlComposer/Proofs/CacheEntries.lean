import Mathlib.Data.String.Basic
import SqlComposer.Cache

/-!
# The entries of the cache

What a step does to the entries. Reading and dropping add nothing, and storing leaves one entry
under its key.
-/

namespace SqlComposer

namespace Keyed

variable {α : Type}

/-- Keys in strictly ascending order, so no key occurs twice. -/
def Sorted (entries : List (Entry α)) : Prop := entries.Pairwise fun a b => a.key < b.key

theorem Sorted.erase {entries : List (Entry α)} (h : Sorted entries) (key : String) :
    Sorted (erase key entries) := List.Pairwise.filter _ h

theorem mem_put {key : String} {value : α} {entries : List (Entry α)} (h : Sorted entries)
    {e : Entry α} (he : e ∈ put key value entries) :
    e = ⟨key, value⟩ ∨ (e ∈ entries ∧ e.key ≠ key) := by
  induction entries with
  | nil =>
    left
    simpa [put] using he
  | cons a rest ih =>
    unfold Sorted at h
    rw [List.pairwise_cons] at h
    obtain ⟨hfirst, hrest⟩ := h
    unfold put at he
    split at he
    · next hkey =>
      rcases List.mem_cons.mp he with rfl | he
      · exact Or.inl rfl
      · have hlt := hfirst e he
        rw [hkey] at hlt
        exact Or.inr ⟨List.mem_cons_of_mem _ he, ne_of_gt hlt⟩
    · next hkey =>
      split at he
      · next hlt =>
        rcases List.mem_cons.mp he with rfl | he
        · exact Or.inl rfl
        · refine Or.inr ⟨he, ?_⟩
          rcases List.mem_cons.mp he with rfl | he
          · exact hkey
          · exact ne_of_gt (lt_trans hlt (hfirst e he))
      · rcases List.mem_cons.mp he with rfl | he
        · exact Or.inr ⟨List.mem_cons_self, hkey⟩
        · rcases ih hrest he with h | ⟨hmem, hne⟩
          · exact Or.inl h
          · exact Or.inr ⟨List.mem_cons_of_mem _ hmem, hne⟩

theorem Sorted.put {entries : List (Entry α)} (h : Sorted entries) (key : String) (value : α) :
    Sorted (put key value entries) := by
  induction entries with
  | nil => exact List.pairwise_singleton _ _
  | cons a rest ih =>
    unfold Sorted at h
    rw [List.pairwise_cons] at h
    obtain ⟨hfirst, hrest⟩ := h
    unfold Keyed.put
    split
    · next hkey =>
      subst hkey
      exact List.pairwise_cons.mpr ⟨hfirst, hrest⟩
    · next hkey =>
      split
      · next hlt =>
        refine List.pairwise_cons.mpr ⟨fun b hb => ?_, List.pairwise_cons.mpr ⟨hfirst, hrest⟩⟩
        rcases List.mem_cons.mp hb with rfl | hb
        · exact hlt
        · exact lt_trans hlt (hfirst b hb)
      · next hlt =>
        refine List.pairwise_cons.mpr ⟨fun b hb => ?_, ih hrest⟩
        rcases mem_put hrest hb with rfl | ⟨hb, -⟩
        · exact lt_of_le_of_ne (not_lt.mp hlt) hkey
        · exact hfirst b hb

end Keyed

namespace MemoryCache

variable {c : MemoryCache} {now : Moment} {key : String} {rows : List Row} {e : Entry Stored}

theorem exists_of_get (h : (c.get now key).1 = some rows) :
    ∃ e ∈ c.entries, e.key = key ∧ e.value.rows = rows ∧ now < e.value.expires := by
  unfold get at h
  split at h
  · exact nomatch h
  · next stored hstored =>
    split at h
    · exact nomatch h
    · next hexpires =>
      unfold Keyed.get? at hstored
      obtain ⟨e, he, rfl⟩ := Option.map_eq_some_iff.mp hstored
      refine ⟨e, List.mem_of_find?_eq_some he, ?_, Option.some.inj h, not_le.mp hexpires⟩
      simpa using List.find?_some he

theorem entries_get (c : MemoryCache) (now : Moment) (key : String) :
    (c.get now key).2.entries = c.entries ∨
      (c.get now key).2.entries = Keyed.erase key c.entries := by
  unfold get
  split
  · exact Or.inl rfl
  · split
    · exact Or.inr rfl
    · exact Or.inl rfl

theorem mem_of_mem_get (h : e ∈ (c.get now key).2.entries) : e ∈ c.entries := by
  rcases c.entries_get now key with heq | heq
  · rwa [heq] at h
  · rw [heq] at h
    exact List.mem_of_mem_filter h

theorem sorted_get (h : Keyed.Sorted c.entries) : Keyed.Sorted (c.get now key).2.entries := by
  rcases c.entries_get now key with heq | heq
  · rwa [heq]
  · rw [heq]
    exact h.erase key

theorem sublist_evict (capacity : Nat) (order : List String) (entries : List (Entry Stored)) :
    (evict capacity order entries).2.Sublist entries := by
  induction order generalizing entries with
  | nil => exact List.Sublist.refl _
  | cons key order ih =>
    unfold evict
    split
    · exact (ih _).trans List.filter_sublist
    · exact List.Sublist.refl _

theorem sublist_set {lifetime : Duration} {c' : MemoryCache}
    (h : c.set now key rows lifetime = .ok c') :
    c'.entries.Sublist (Keyed.put key ⟨rows, now + lifetime.nanos⟩ c.entries) := by
  unfold set at h
  simp only at h
  split at h
  · obtain rfl := Except.ok.inj h
    exact (sublist_evict _ _ _).trans List.filter_sublist
  · exact nomatch h

/-- Behind a store, its rows are the only ones under its key. -/
theorem mem_set (hsorted : Keyed.Sorted c.entries) {lifetime : Duration} {c' : MemoryCache}
    (h : c.set now key rows lifetime = .ok c') (he : e ∈ c'.entries) :
    e = ⟨key, rows, now + lifetime.nanos⟩ ∨ (e ∈ c.entries ∧ e.key ≠ key) :=
  Keyed.mem_put hsorted ((sublist_set h).subset he)

theorem sorted_set (hsorted : Keyed.Sorted c.entries) {lifetime : Duration} {c' : MemoryCache}
    (h : c.set now key rows lifetime = .ok c') : Keyed.Sorted c'.entries :=
  (hsorted.put _ _).sublist (sublist_set h)

theorem set_eq_error (c : MemoryCache) (key : String) (rows : List Row) {lifetime : Duration}
    (h : clockEnd ≤ now + lifetime.nanos) : c.set now key rows lifetime = .error .clockOverflow := by
  unfold set
  simp only [if_neg (not_lt.mpr h)]

theorem exists_set (c : MemoryCache) (key : String) (rows : List Row) {lifetime : Duration}
    (h : now + lifetime.nanos < clockEnd) : ∃ c', c.set now key rows lifetime = .ok c' := by
  unfold set
  simp only [if_pos h]
  exact ⟨_, rfl⟩

end MemoryCache

/-- On one connection, statements with different SQL have different keys. -/
theorem cacheKey_inj {connection sql sql' : String}
    (h : cacheKey connection sql = cacheKey connection sql') : sql = sql' := by
  unfold cacheKey at h
  simpa using h

end SqlComposer
