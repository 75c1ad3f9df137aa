import Mathlib.Data.List.Nodup
import SqlComposer.Proofs.CacheEntries

/-!
# The cache as one list

A list of entries, the least recently used first, does the work of the map and the queue. Each
function of the cache does to its two parts what the list does as a whole.
-/

namespace SqlComposer

/-! ## Keys that occur once -/

namespace Keyed

variable {α : Type} {entries l : List (Entry α)} {key : String} {e : Entry α}

theorem Sorted.nodup_keys (h : Sorted entries) : (entries.map (·.key)).Nodup := by
  unfold List.Nodup
  rw [List.pairwise_map]
  apply h.imp
  intro a b hlt
  exact ne_of_lt hlt

theorem eq_of_key_eq (h : (l.map (·.key)).Nodup) {a b : Entry α} (ha : a ∈ l) (hb : b ∈ l)
    (hkey : a.key = b.key) : a = b := List.inj_on_of_nodup_map h ha hb hkey

theorem find?_eq_some_iff (h : (l.map (·.key)).Nodup) :
    l.find? (·.key = key) = some e ↔ e ∈ l ∧ e.key = key := by
  constructor
  · intro hfind
    have hkey := List.find?_some hfind
    simp only [decide_eq_true_eq] at hkey
    exact ⟨List.mem_of_find?_eq_some hfind, hkey⟩
  · rintro ⟨hmem, rfl⟩
    cases hfind : l.find? (·.key = e.key) with
    | none =>
      have := List.find?_eq_none.mp hfind e hmem
      simp at this
    | some a =>
      have hkey := List.find?_some hfind
      simp only [decide_eq_true_eq] at hkey
      rw [eq_of_key_eq h (List.mem_of_find?_eq_some hfind) hmem hkey]

theorem find?_perm (h : (l.map (·.key)).Nodup) (hp : entries.Perm l) (key : String) :
    entries.find? (·.key = key) = l.find? (·.key = key) := by
  have h' : (entries.map (·.key)).Nodup := (hp.map _).nodup_iff.mpr h
  ext e
  rw [find?_eq_some_iff h', find?_eq_some_iff h, hp.mem_iff]

theorem erase_eq_self (h : ∀ e ∈ entries, e.key ≠ key) : erase key entries = entries := by
  unfold erase
  rw [List.filter_eq_self]
  intro e he
  simpa using h e he

/-- What is put stands for what was there under its key. -/
theorem put_perm (h : Sorted entries) (key : String) (value : α) :
    (put key value entries).Perm (erase key entries ++ [⟨key, value⟩]) := by
  induction entries with
  | nil => exact List.Perm.refl _
  | cons e rest ih =>
    unfold Sorted at h
    rw [List.pairwise_cons] at h
    obtain ⟨hfirst, hrest⟩ := h
    unfold put
    split
    · next hkey =>
      have hother : ∀ a ∈ rest, a.key ≠ key := by
        intro a ha
        rw [← hkey]
        exact (hfirst a ha).ne'
      have herase : erase key (e :: rest) = rest := by
        unfold erase
        rw [List.filter_cons_of_neg (by simp [hkey])]
        exact erase_eq_self hother
      rw [herase]
      exact (List.perm_append_singleton _ _).symm
    · next hkey =>
      have herase : erase key (e :: rest) = e :: erase key rest := by
        unfold erase
        rw [List.filter_cons_of_pos (by simp [hkey])]
      rw [herase]
      split
      · next hlt =>
        rw [erase_eq_self fun a ha => (lt_trans hlt (hfirst a ha)).ne']
        exact (List.perm_append_singleton _ _).symm
      · exact (ih hrest).cons e

end Keyed

/-! ## The list -/

/-- Entries with their rows and the end of their lifetime, the least recently used first. -/
abbrev Recency := List (Entry Stored)

namespace Recency

def without (key : String) (l : Recency) : Recency := l.filter (·.key ≠ key)

def fresh (now : Moment) (l : Recency) : Recency := l.filter (now < ·.value.expires)

/-- The entries used last, as many as there is room for. -/
def newest (capacity : Nat) (l : Recency) : Recency := l.drop (l.length - capacity)

/-- The rows under a key. An expired entry is dropped, another one moves to the end. -/
def get (now : Moment) (key : String) (l : Recency) : Option (List Row) × Recency :=
  match l.find? (·.key = key) with
  | none => (none, l)
  | some e =>
    if e.value.expires ≤ now then (none, without key l)
    else (some e.value.rows, without key l ++ [e])

/-- The new entry comes to the end in the place of an earlier one. Then what has expired goes, and
after that what there is no room for. -/
def set (capacity : Nat) (now : Moment) (key : String) (rows : List Row) (lifetime : Duration)
    (l : Recency) : Recency :=
  newest capacity (fresh now (without key l ++ [⟨key, rows, now + lifetime.nanos⟩]))

theorem map_without (key : String) (l : Recency) :
    (without key l).map (·.key) = (l.map (·.key)).filter (· ≠ key) := by
  unfold without
  rw [List.filter_map]
  rfl

theorem nodup_moved {l : Recency} (h : (l.map (·.key)).Nodup) (e : Entry Stored) :
    ((without e.key l ++ [e]).map (·.key)).Nodup := by
  rw [List.map_append, map_without]
  apply List.Nodup.append (h.filter _) (List.nodup_singleton _)
  intro key hkey hlast
  obtain rfl := List.mem_singleton.mp hlast
  simp at hkey

theorem length_newest_le (capacity : Nat) (l : Recency) :
    (newest capacity l).length ≤ capacity := by
  unfold newest
  rw [List.length_drop]
  omega

theorem newest_concat {capacity : Nat} (hroom : 0 < capacity) (l : Recency) (e : Entry Stored) :
    ∃ rest, newest capacity (l ++ [e]) = rest ++ [e] ∧ rest.Sublist l := by
  unfold newest
  rw [List.drop_append_of_le_length (by rw [List.length_append, List.length_singleton]; omega)]
  exact ⟨_, rfl, List.drop_sublist _ _⟩

/-- What was set is there as long as it lives. -/
theorem get_set {capacity : Nat} (hroom : 0 < capacity) (now : Moment) (key : String)
    (rows : List Row) {lifetime : Duration} (hlifetime : 0 < lifetime.nanos) (l : Recency)
    {later : Moment} (hlater : later < now + lifetime.nanos) :
    (get later key (set capacity now key rows lifetime l)).1 = some rows := by
  have hfresh : fresh now (without key l ++ [⟨key, rows, now + lifetime.nanos⟩]) =
      fresh now (without key l) ++ [⟨key, rows, now + lifetime.nanos⟩] := by
    unfold fresh
    rw [List.filter_append, List.filter_cons_of_pos (by simpa using hlifetime), List.filter_nil]
  unfold set
  rw [hfresh]
  obtain ⟨rest, hnewest, hrest⟩ := newest_concat hroom (fresh now (without key l))
    ⟨key, rows, now + lifetime.nanos⟩
  have hother : rest.find? (·.key = key) = none := by
    rw [List.find?_eq_none]
    intro e he
    have hwithout := List.mem_of_mem_filter (hrest.subset he)
    simpa using (List.mem_filter.mp hwithout).2
  have hfind : List.find? (fun e : Entry Stored => e.key = key)
      (rest ++ [⟨key, rows, now + lifetime.nanos⟩]) = some ⟨key, rows, now + lifetime.nanos⟩ := by
    rw [List.find?_append, hother, Option.none_or, List.find?_cons_of_pos (by simp)]
  rw [hnewest, get, hfind]
  simp only [if_neg (Nat.not_le.mpr hlater)]

end Recency

/-! ## Each function of the cache -/

namespace MemoryCache

/-- The queue has the keys of the list, and the map has its entries. -/
structure Represents (c : MemoryCache) (l : Recency) : Prop where
  order : c.order = l.map (·.key)
  entries : c.entries.Perm l
  sorted : Keyed.Sorted c.entries

variable {c : MemoryCache} {l : Recency} {now : Moment} {key : String}

namespace Represents

theorem nodup (h : c.Represents l) : (l.map (·.key)).Nodup :=
  (h.entries.map _).nodup_iff.mp h.sorted.nodup_keys

theorem empty (capacity : Nat) : (empty capacity).Represents [] :=
  ⟨rfl, List.Perm.refl _, List.Pairwise.nil⟩

theorem remove (h : c.Represents l) (key : String) :
    (c.remove key).Represents (Recency.without key l) where
  order := by
    unfold MemoryCache.remove
    simp only [h.order, Recency.map_without]
  entries := h.entries.filter _
  sorted := h.sorted.erase key

theorem promote (h : c.Represents l) {e : Entry Stored} (he : e ∈ l) :
    (c.promote e.key).Represents (Recency.without e.key l ++ [e]) where
  order := by
    unfold MemoryCache.promote
    simp only [h.order, List.map_append, Recency.map_without, List.map_cons, List.map_nil]
  entries := by
    have hnodup : l.Nodup := List.Nodup.of_map _ h.nodup
    have hmoved : (Recency.without e.key l ++ [e]).Nodup :=
      List.Nodup.of_map _ (Recency.nodup_moved h.nodup e)
    apply h.entries.trans
    rw [List.perm_ext_iff_of_nodup hnodup hmoved]
    intro a
    simp only [Recency.without, List.mem_append, List.mem_filter, List.mem_singleton,
      decide_eq_true_eq]
    constructor
    · intro ha
      by_cases hkey : a.key = e.key
      · exact Or.inr (Keyed.eq_of_key_eq h.nodup ha he hkey)
      · exact Or.inl ⟨ha, hkey⟩
    · rintro (⟨ha, -⟩ | rfl)
      · exact ha
      · exact he
  sorted := h.sorted

theorem get (h : c.Represents l) (now : Moment) (key : String) :
    (c.get now key).1 = (Recency.get now key l).1 ∧
      (c.get now key).2.Represents (Recency.get now key l).2 := by
  unfold MemoryCache.get Recency.get Keyed.get?
  rw [Keyed.find?_perm h.nodup h.entries key]
  cases hfind : l.find? (·.key = key) with
  | none => exact ⟨rfl, h⟩
  | some e =>
    obtain ⟨he, rfl⟩ := (Keyed.find?_eq_some_iff h.nodup).mp hfind
    simp only [Option.map_some]
    split
    · exact ⟨rfl, h.remove e.key⟩
    · exact ⟨rfl, h.promote he⟩

/-- A new entry in the map, and its key at the end of the queue. -/
theorem put (h : c.Represents l) (key : String) (stored : Stored) :
    ({ c with entries := Keyed.put key stored c.entries }.promote key).Represents
      (Recency.without key l ++ [Entry.mk key stored]) where
  order := by
    unfold MemoryCache.promote
    simp only [h.order, List.map_append, Recency.map_without, List.map_cons, List.map_nil]
  entries := (Keyed.put_perm h.sorted key stored).trans ((h.entries.filter _).append_right _)
  sorted := h.sorted.put key stored

theorem dropExpired (h : c.Represents l) (now : Moment) :
    (c.dropExpired now).Represents (Recency.fresh now l) where
  order := by
    unfold MemoryCache.dropExpired Recency.fresh
    simp only [h.order, List.filter_map]
    congr 1
    apply List.filter_congr
    intro e he
    -- A key stays in the queue exactly if its own entry stays in the map.
    rw [Function.comp_apply, Bool.eq_iff_iff, List.any_eq_true]
    constructor
    · rintro ⟨a, ha, hkey⟩
      obtain ⟨ha, hfresh⟩ := List.mem_filter.mp ha
      rw [decide_eq_true_eq] at hkey
      rwa [Keyed.eq_of_key_eq h.nodup (h.entries.mem_iff.mp ha) he hkey] at hfresh
    · intro hfresh
      exact ⟨e, List.mem_filter.mpr ⟨h.entries.mem_iff.mpr he, hfresh⟩, by simp⟩
  entries := h.entries.filter _
  sorted := h.sorted.filter _

/-- The loop takes keys from the front of the queue as long as the map is too large, so it drops
as many entries from the front of the list. -/
theorem evict_eq (capacity : Nat) {entries : List (Entry Stored)} {l : Recency}
    (hnodup : (l.map (·.key)).Nodup) (hperm : entries.Perm l) :
    (evict capacity (l.map (·.key)) entries).1 = (Recency.newest capacity l).map (·.key) ∧
      (evict capacity (l.map (·.key)) entries).2.Perm (Recency.newest capacity l) := by
  unfold Recency.newest
  induction l generalizing entries with
  | nil =>
    rw [List.drop_nil]
    exact ⟨rfl, hperm⟩
  | cons e l ih =>
    have hlength : entries.length = l.length + 1 := hperm.length_eq
    rw [List.map_cons, evict]
    split
    · next hroom =>
      rw [List.map_cons, List.nodup_cons] at hnodup
      obtain ⟨hfirst, hrest⟩ := hnodup
      have herase : (Keyed.erase e.key entries).Perm l := by
        have hrest : Keyed.erase e.key (e :: l) = l := by
          unfold Keyed.erase
          rw [List.filter_cons_of_neg (by simp)]
          apply Keyed.erase_eq_self
          intro a ha hkey
          exact hfirst (hkey ▸ List.mem_map_of_mem ha)
        rw [← hrest]
        exact hperm.filter _
      have hdrop : (e :: l).drop ((e :: l).length - capacity) = l.drop (l.length - capacity) := by
        have : (e :: l).length - capacity = l.length - capacity + 1 := by
          simp only [List.length_cons]
          omega
        rw [this, List.drop_succ_cons]
      rw [hdrop]
      exact ih hrest herase
    · next hroom =>
      have : (e :: l).length - capacity = 0 := by
        simp only [List.length_cons]
        omega
      rw [this, List.drop_zero]
      exact ⟨rfl, hperm⟩

theorem shrink (h : c.Represents l) : c.shrink.Represents (Recency.newest c.capacity l) := by
  have hevict := evict_eq c.capacity h.nodup h.entries
  rw [← h.order] at hevict
  exact ⟨hevict.1, hevict.2, h.sorted.sublist (sublist_evict _ _ _)⟩

theorem set (h : c.Represents l) (now : Moment) (key : String) (rows : List Row)
    {lifetime : Duration} (hclock : now + lifetime.nanos < clockEnd) :
    ∃ c', c.set now key rows lifetime = .ok c' ∧ c'.capacity = c.capacity ∧
      c'.Represents (Recency.set c.capacity now key rows lifetime l) := by
  unfold MemoryCache.set
  simp only [if_pos hclock]
  exact ⟨_, rfl, rfl, ((h.put key _).dropExpired now).shrink⟩

end Represents

end MemoryCache

end SqlComposer
