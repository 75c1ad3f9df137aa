import Mathlib.Data.List.Induction
import SqlComposer.Proofs.Recency

/-!
# Runs of the cache

Any number of calls, each at a moment of its own, of the cache and of the list. The two answer
alike, and the list is in the order in which its keys were last used. So the cache drops an entry
that has not expired only when it is full of others that were used later.
-/

namespace SqlComposer

/-! ## Calls -/

inductive CacheCall where
  | get (key : String)
  | set (key : String) (rows : List Row) (lifetime : Duration)
  | remove (key : String)
  | clear

structure CacheStep where
  now : Moment
  call : CacheCall

/-- The rows of a hit. A call may crash. -/
abbrev CacheAnswer := Outcome (Option (List Row))

/-- Whether a call itself takes away what is under a key. -/
def CacheCall.Replaces (key : String) : CacheCall → Prop
  | .get _ => False
  | .set key' _ _ | .remove key' => key' = key
  | .clear => True

def MemoryCache.perform (c : MemoryCache) (s : CacheStep) : CacheAnswer × MemoryCache :=
  match s.call with
  | .get key => (.ok (c.get s.now key).1, (c.get s.now key).2)
  | .set key rows lifetime =>
    match c.set s.now key rows lifetime with
    | .ok c' => (.ok none, c')
    | .error e => (.error e, c)
  | .remove key => (.ok none, c.remove key)
  | .clear => (.ok none, c.clear)

/-- What a call does to the list. A lifetime whose end the clock cannot name changes nothing. -/
def Recency.perform (capacity : Nat) (l : Recency) (s : CacheStep) : CacheAnswer × Recency :=
  match s.call with
  | .get key => (.ok (get s.now key l).1, (get s.now key l).2)
  | .set key rows lifetime =>
    if s.now + lifetime.nanos < clockEnd then (.ok none, set capacity s.now key rows lifetime l)
    else (.error .clockOverflow, l)
  | .remove key => (.ok none, without key l)
  | .clear => (.ok none, [])

/-! ## Runs -/

/-- A state with the calls that led to it and their answers, in order. -/
structure Logged (τ : Type) where
  state : τ
  log : List (CacheStep × CacheAnswer)

namespace Logged

variable {τ : Type} (perform : τ → CacheStep → CacheAnswer × τ)

def step (l : Logged τ) (s : CacheStep) : Logged τ :=
  ⟨(perform l.state s).2, l.log ++ [(s, (perform l.state s).1)]⟩

def run (start : τ) (steps : List CacheStep) : Logged τ := steps.foldl (step perform) ⟨start, []⟩

theorem run_concat (start : τ) (steps : List CacheStep) (s : CacheStep) :
    run perform start (steps ++ [s]) = (run perform start steps).step perform s := by
  unfold run
  rw [List.foldl_append]
  rfl

end Logged

/-! ## What a log says about keys -/

/-- The key that a call uses: a hit and a store are uses. -/
def used : CacheStep × CacheAnswer → Option String
  | (⟨_, .get key⟩, .ok (some _)) => some key
  | (⟨_, .set key _ _⟩, .ok _) => some key
  | _ => none

/-- What a call stores. -/
def stored : CacheStep × CacheAnswer → Option (Entry Stored)
  | (⟨now, .set key rows lifetime⟩, .ok _) => some ⟨key, rows, now + lifetime.nanos⟩
  | _ => none

def uses (log : List (CacheStep × CacheAnswer)) : List String := log.filterMap used

/-- What the last store under a key has put there. -/
def lastStored (key : String) (log : List (CacheStep × CacheAnswer)) : Option Stored :=
  Keyed.get? key (log.filterMap stored).reverse

/-- Key `a` is used behind the last use of key `b`. -/
def UsedAfter (keys : List String) (a b : String) : Prop :=
  ∃ earlier later, keys = earlier ++ b :: later ∧ b ∉ later ∧ a ∈ later

theorem exists_last_use {b : String} {keys : List String} (h : b ∈ keys) :
    ∃ earlier later, keys = earlier ++ b :: later ∧ b ∉ later := by
  obtain ⟨later, earlier, heq, hlater⟩ := List.eq_append_cons_of_mem (List.mem_reverse.mpr h)
  refine ⟨earlier.reverse, later.reverse, ?_, by simpa using hlater⟩
  rw [← List.reverse_reverse keys, heq]
  simp

theorem UsedAfter.concat {keys : List String} {a b key : String} (h : UsedAfter keys a b)
    (hb : b ≠ key) : UsedAfter (keys ++ [key]) a b := by
  obtain ⟨earlier, later, rfl, hlater, ha⟩ := h
  refine ⟨earlier, later ++ [key], by simp, ?_, by simp [ha]⟩
  simp [hlater, hb]

theorem usedAfter_concat {keys : List String} {b key : String} (h : b ∈ keys) (hb : b ≠ key) :
    UsedAfter (keys ++ [key]) key b := by
  obtain ⟨earlier, later, rfl, hlater⟩ := exists_last_use h
  refine ⟨earlier, later ++ [key], by simp, ?_, by simp⟩
  simp [hlater, hb]

/-! ## The order of the list -/

namespace Recency

/-- The list is in the order of the last uses, and each entry is what was stored last. -/
structure Ordered (log : List (CacheStep × CacheAnswer)) (l : Recency) : Prop where
  order : l.Pairwise fun b a => UsedAfter (uses log) a.key b.key
  used : ∀ e ∈ l, e.key ∈ uses log
  last : ∀ e ∈ l, lastStored e.key log = some e.value

variable {log : List (CacheStep × CacheAnswer)} {l l' : Recency} {x : CacheStep × CacheAnswer}

theorem Ordered.sublist (h : Ordered log l) (hl : l'.Sublist l) : Ordered log l' :=
  ⟨h.order.sublist hl, fun e he => h.used e (hl.subset he), fun e he => h.last e (hl.subset he)⟩

theorem lastStored_concat (key : String) :
    lastStored key (log ++ [x]) = match stored x with
      | some e => if e.key = key then some e.value else lastStored key log
      | none => lastStored key log := by
  unfold lastStored
  rw [List.filterMap_append, List.reverse_append]
  cases hx : stored x with
  | none => simp [hx]
  | some e => simp [hx, Keyed.get?_cons]

/-- A call that uses nothing changes no order. -/
theorem Ordered.idle (h : Ordered log l) (hused : SqlComposer.used x = none)
    (hstored : stored x = none) : Ordered (log ++ [x]) l := by
  have huses : uses (log ++ [x]) = uses log := by simp [uses, hused]
  refine ⟨?_, ?_, ?_⟩
  · rw [huses]
    exact h.order
  · rw [huses]
    exact h.used
  · intro e he
    rw [lastStored_concat, hstored]
    exact h.last e he

/-- The entry that is used comes to the end. -/
theorem Ordered.push (h : Ordered log l) {e : Entry Stored}
    (hused : SqlComposer.used x = some e.key) (hlast : lastStored e.key (log ++ [x]) = some e.value)
    (hother : ∀ key, key ≠ e.key → lastStored key (log ++ [x]) = lastStored key log) :
    Ordered (log ++ [x]) (without e.key l ++ [e]) := by
  have huses : uses (log ++ [x]) = uses log ++ [e.key] := by simp [uses, hused]
  have hmem : ∀ a ∈ without e.key l, a ∈ l ∧ a.key ≠ e.key := by
    intro a ha
    simpa [without] using ha
  have hwithout : (without e.key l).Sublist l := List.filter_sublist
  have hrest := h.sublist hwithout
  refine ⟨?_, ?_, ?_⟩
  · rw [huses, List.pairwise_append]
    refine ⟨?_, List.pairwise_singleton _ _, ?_⟩
    · apply hrest.order.imp_of_mem
      intro b a hb ha hba
      exact hba.concat (hmem b hb).2
    · intro b hb a ha
      obtain rfl := List.mem_singleton.mp ha
      exact usedAfter_concat (hrest.used b hb) (hmem b hb).2
  · intro a ha
    rw [huses, List.mem_append]
    rcases List.mem_append.mp ha with ha | ha
    · exact Or.inl (hrest.used a ha)
    · rw [List.mem_singleton.mp ha]
      exact Or.inr (List.mem_singleton_self _)
  · intro a ha
    rcases List.mem_append.mp ha with ha | ha
    · rw [hother a.key (hmem a ha).2]
      exact hrest.last a ha
    · rw [List.mem_singleton.mp ha]
      exact hlast

/-- A store before anything is dropped. -/
theorem Ordered.store (h : Ordered log l) (now : Moment) (key : String) (rows : List Row)
    (lifetime : Duration) :
    Ordered (log ++ [(⟨now, .set key rows lifetime⟩, .ok none)])
      (without key l ++ [⟨key, rows, now + lifetime.nanos⟩]) := by
  apply h.push (e := ⟨key, rows, now + lifetime.nanos⟩) rfl
  · rw [lastStored_concat]
    simp [stored]
  · intro other hother
    rw [lastStored_concat]
    simp [stored, Ne.symm hother]

/-- One call keeps the list in order. -/
theorem Ordered.step (h : Ordered log l) (capacity : Nat) (s : CacheStep) :
    Ordered (log ++ [(s, (l.perform capacity s).1)]) (l.perform capacity s).2 := by
  obtain ⟨now, call⟩ := s
  cases call with
  | get key =>
    simp only [perform, get]
    cases hfind : l.find? (·.key = key) with
    | none => exact h.idle rfl rfl
    | some e =>
      have hkey := List.find?_some hfind
      simp only [decide_eq_true_eq] at hkey
      subst hkey
      simp only
      by_cases hexpired : e.value.expires ≤ now
      · rw [if_pos hexpired]
        exact (h.idle rfl rfl).sublist List.filter_sublist
      · rw [if_neg hexpired]
        apply h.push rfl
        · rw [lastStored_concat]
          exact h.last e (List.mem_of_find?_eq_some hfind)
        · intro key _
          exact lastStored_concat key
  | set key rows lifetime =>
    unfold perform set newest fresh
    simp only
    split
    · exact (h.store now key rows lifetime).sublist
        ((List.drop_sublist _ _).trans List.filter_sublist)
    · exact h.idle rfl rfl
  | remove key => exact (h.idle rfl rfl).sublist List.filter_sublist
  | clear => exact (h.idle rfl rfl).sublist (List.nil_sublist _)

/-- A store drops an entry that has not expired only if those that stay fill the list, and all of
them have been used since. -/
theorem Ordered.evicted (h : Ordered log l) {capacity : Nat} {now : Moment} {key : String}
    {rows : List Row} {lifetime : Duration} {e : Entry Stored} (he : e ∈ l) (hkey : e.key ≠ key)
    (hfresh : now < e.value.expires) (hgone : e ∉ set capacity now key rows lifetime l) :
    (set capacity now key rows lifetime l).length = capacity ∧
      ∀ a ∈ set capacity now key rows lifetime l, now < a.value.expires ∧
        UsedAfter (uses (log ++ [(⟨now, .set key rows lifetime⟩, .ok none)])) a.key e.key := by
  have hsublist : ∀ l, (fresh now l).Sublist l := fun _ => List.filter_sublist
  have hstore := (h.store now key rows lifetime).sublist (hsublist _)
  unfold set newest at hgone ⊢
  generalize hkept : fresh now (without key l ++ [⟨key, rows, now + lifetime.nanos⟩]) = kept
    at hgone hstore ⊢
  have hlive : ∀ a ∈ kept, now < a.value.expires := by
    intro a ha
    rw [← hkept] at ha
    simpa using (List.mem_filter.mp ha).2
  have hmem : e ∈ kept := by
    rw [← hkept]
    simp [fresh, without, he, hkey, hfresh]
  have hsplit := List.take_append_drop (kept.length - capacity) kept
  rw [← hsplit, List.mem_append] at hmem
  have hfirst := hmem.resolve_right hgone
  have hpositive := List.length_pos_of_mem hfirst
  rw [List.length_take] at hpositive
  refine ⟨?_, ?_⟩
  · rw [List.length_drop]
    omega
  · intro a ha
    have horder := hstore.order
    rw [← hsplit, List.pairwise_append] at horder
    exact ⟨hlive a (List.mem_of_mem_drop ha), horder.2.2 e hfirst a ha⟩

/-- An entry that has not expired stays unless the call is about its key, or evicts it. -/
theorem Ordered.lost (h : Ordered log l) (hnodup : (l.map (·.key)).Nodup) (capacity : Nat)
    (s : CacheStep) {e : Entry Stored} (he : e ∈ l) (hfresh : s.now < e.value.expires)
    (hgone : e ∉ (l.perform capacity s).2) :
    s.call.Replaces e.key ∨
      ((l.perform capacity s).2.length = capacity ∧
        ∀ a ∈ (l.perform capacity s).2, s.now < a.value.expires ∧
          UsedAfter (uses (log ++ [(s, (l.perform capacity s).1)])) a.key e.key) := by
  obtain ⟨now, call⟩ := s
  cases call with
  | get key =>
    exfalso
    apply hgone
    simp only [perform, get]
    cases hfind : l.find? (·.key = key) with
    | none => exact he
    | some found =>
      obtain ⟨hfound, rfl⟩ := (Keyed.find?_eq_some_iff hnodup).mp hfind
      simp only
      by_cases hkey : e.key = found.key
      · obtain rfl := Keyed.eq_of_key_eq hnodup he hfound hkey
        rw [if_neg (not_le.mpr hfresh)]
        simp
      · split
        · simp [without, he, hkey]
        · simp [without, he, hkey]
  | set key rows lifetime =>
    by_cases hkey : e.key = key
    · exact Or.inl hkey.symm
    · simp only [perform] at hgone ⊢
      by_cases hclock : now + lifetime.nanos < clockEnd
      · rw [if_pos hclock] at hgone ⊢
        exact Or.inr (h.evicted he hkey hfresh hgone)
      · rw [if_neg hclock] at hgone
        exact absurd he hgone
  | remove key =>
    by_cases hkey : e.key = key
    · exact Or.inl hkey.symm
    · exact absurd (by simp [perform, without, he, hkey]) hgone
  | clear => exact Or.inl trivial

theorem length_perform_le (capacity : Nat) {l : Recency} (h : l.length ≤ capacity) (s : CacheStep) :
    (l.perform capacity s).2.length ≤ capacity := by
  obtain ⟨now, call⟩ := s
  have hwithout : ∀ key, (without key l).length ≤ capacity := fun key =>
    (List.length_filter_le _ _).trans h
  cases call with
  | get key =>
    simp only [perform, get]
    cases hfind : l.find? (·.key = key) with
    | none => exact h
    | some e =>
      simp only
      split
      · exact hwithout key
      · have hshorter : (without key l).length < l.length := by
          unfold without
          rw [List.length_filter_lt_length_iff_exists]
          exact ⟨e, List.mem_of_find?_eq_some hfind, by simpa using List.find?_some hfind⟩
        rw [List.length_append, List.length_singleton]
        omega
  | set key rows lifetime =>
    simp only [perform]
    split
    · exact length_newest_le _ _
    · exact h
  | remove key => exact hwithout key
  | clear => exact Nat.zero_le _

end Recency

/-! ## The cache and the list -/

namespace MemoryCache

theorem capacity_get (c : MemoryCache) (now : Moment) (key : String) :
    (c.get now key).2.capacity = c.capacity := by
  unfold get
  split
  · rfl
  · split
    · rfl
    · rfl

/-- A call does to the cache what it does to the list. -/
theorem Represents.perform {c : MemoryCache} {l : Recency} (h : c.Represents l) (s : CacheStep) :
    (c.perform s).1 = (l.perform c.capacity s).1 ∧
      (c.perform s).2.Represents (l.perform c.capacity s).2 ∧
      (c.perform s).2.capacity = c.capacity := by
  obtain ⟨now, call⟩ := s
  cases call with
  | get key =>
    obtain ⟨hanswer, hstate⟩ := h.get now key
    exact ⟨congrArg Except.ok hanswer, hstate, c.capacity_get now key⟩
  | set key rows lifetime =>
    simp only [MemoryCache.perform, Recency.perform]
    by_cases hclock : now + lifetime.nanos < clockEnd
    · obtain ⟨c', hset, hcapacity, hstate⟩ := h.set now key rows hclock
      rw [hset, if_pos hclock]
      exact ⟨rfl, hstate, hcapacity⟩
    · rw [c.set_eq_error key rows (not_lt.mp hclock), if_neg hclock]
      exact ⟨rfl, h, rfl⟩
  | remove key => exact ⟨rfl, h.remove key, rfl⟩
  | clear => exact ⟨rfl, Represents.empty c.capacity, rfl⟩

/-- Cache and list have come the same way. -/
structure Tracks (capacity : Nat) (c : Logged MemoryCache) (l : Logged Recency) : Prop where
  log : c.log = l.log
  represents : c.state.Represents l.state
  bound : c.state.capacity = capacity
  ordered : l.state.Ordered l.log
  room : l.state.length ≤ capacity

theorem Tracks.step {capacity : Nat} {c : Logged MemoryCache} {l : Logged Recency}
    (h : Tracks capacity c l) (s : CacheStep) :
    Tracks capacity (c.step perform s) (l.step (Recency.perform capacity) s) := by
  obtain ⟨hanswer, hstate, hcapacity⟩ := h.represents.perform s
  rw [h.bound] at hanswer hstate hcapacity
  refine ⟨?_, hstate, hcapacity, h.ordered.step capacity s, Recency.length_perform_le _ h.room s⟩
  simp only [Logged.step, h.log, hanswer]

theorem Tracks.run (capacity : Nat) (steps : List CacheStep) :
    Tracks capacity (.run perform (.empty capacity) steps)
      (.run (Recency.perform capacity) [] steps) := by
  induction steps using List.reverseRecOn with
  | nil =>
    have hordered : Recency.Ordered [] [] := ⟨List.Pairwise.nil, by simp, by simp⟩
    exact ⟨rfl, .empty capacity, rfl, hordered, Nat.zero_le _⟩
  | append_singleton steps s ih =>
    rw [Logged.run_concat, Logged.run_concat]
    exact ih.step s

/-- What a run leaves in the cache, next to what it leaves in the list. -/
structure LeastRecent (capacity : Nat) (c : Logged MemoryCache) (l : Logged Recency) : Prop where
  /-- The calls have the answers of the list. -/
  log : c.log = l.log
  order : c.state.order = l.state.map (·.key)
  entries : c.state.entries.Perm l.state
  /-- The queue holds the keys of the map, each of them once. -/
  queue : c.state.order.Perm (c.state.entries.map (·.key)) ∧ c.state.order.Nodup
  room : c.state.size ≤ capacity
  /-- The keys stand in the order of their last uses. -/
  recent : c.state.order.Pairwise fun b a => UsedAfter (uses c.log) a b
  last : ∀ e ∈ c.state.entries, lastStored e.key c.log = some e.value
  /-- Whatever is called next, an entry that has not expired and that the call does not replace is
  lost only to a cache full of entries that have not expired either and were used after it. -/
  lost : ∀ s, ∀ e ∈ c.state.entries, s.now < e.value.expires →
    e ∉ (c.state.perform s).2.entries →
    s.call.Replaces e.key ∨
      ((c.state.perform s).2.size = capacity ∧
        ∀ a ∈ (c.state.perform s).2.entries, s.now < a.value.expires ∧
          UsedAfter (uses (c.step perform s).log) a.key e.key)

/-- Every run leaves the cache as the list says, whatever the moments of its calls. -/
theorem leastRecent_run (capacity : Nat) (steps : List CacheStep) :
    LeastRecent capacity (.run perform (.empty capacity) steps)
      (.run (Recency.perform capacity) [] steps) := by
  have h := Tracks.run capacity steps
  generalize Logged.run perform (.empty capacity) steps = c at h ⊢
  generalize Logged.run (Recency.perform capacity) [] steps = l at h ⊢
  have hrep := h.represents
  refine ⟨h.log, hrep.order, hrep.entries, ⟨?_, ?_⟩, ?_, ?_, ?_, ?_⟩
  · rw [hrep.order]
    exact (hrep.entries.map _).symm
  · rw [hrep.order]
    exact hrep.nodup
  · exact hrep.entries.length_eq.trans_le h.room
  · rw [hrep.order, h.log, List.pairwise_map]
    exact h.ordered.order
  · intro e he
    rw [h.log]
    exact h.ordered.last e (hrep.entries.mem_iff.mp he)
  · intro s e he hfresh hgone
    obtain ⟨hanswer, hstate, -⟩ := hrep.perform s
    rw [h.bound] at hanswer hstate
    rw [hstate.entries.mem_iff] at hgone
    rcases h.ordered.lost hrep.nodup capacity s (hrep.entries.mem_iff.mp he) hfresh hgone with
      hreplaces | ⟨hfull, hlater⟩
    · exact Or.inl hreplaces
    · refine Or.inr ⟨hstate.entries.length_eq.trans hfull, ?_⟩
      intro a ha
      have hlog : (c.step perform s).log = l.log ++ [(s, (l.state.perform capacity s).1)] := by
        simp only [Logged.step, h.log, hanswer]
      rw [hlog]
      exact hlater a (hstate.entries.mem_iff.mp ha)

example :
    (Logged.run perform (.empty 2)
      [⟨0, .set "a" [] ⟨9⟩⟩, ⟨0, .set "b" [] ⟨9⟩⟩, ⟨1, .get "a"⟩, ⟨2, .set "c" [] ⟨9⟩⟩]).state.order =
      ["a", "c"] := rfl

end MemoryCache

end SqlComposer
