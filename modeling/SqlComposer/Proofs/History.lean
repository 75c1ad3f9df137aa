import SqlComposer.Proofs.CacheEntries
import SqlComposer.Proofs.Interleaving

/-!
# What the history says

A history is genuine when every deed in it is what the driver and the cache would have given at
that point. Then the cache holds, under each SQL, nothing but the rows of the last store.
-/

namespace SqlComposer

variable {σ ι : Type}

/-! ## Single acts -/

namespace Act

variable (conn : Connection σ) (moment : Moment)

def onServer : Act → σ → σ
  | .called call _, server => (conn.answer call server).2
  | _, server => server

def onCache : Act → MemoryCache → MemoryCache
  | .missed sql, c | .served sql _, c => (c.get moment (cacheKey conn.name sql)).2
  | .stored sql rows lifetime, c =>
    match c.set moment (cacheKey conn.name sql) rows lifetime with
    | .ok c => c
    | .error _ => c
  | .called _ _, c | .overflown _, c => c

/-- What the act says is what the driver or the cache gives. -/
def Honest (c : MemoryCache) (server : σ) : Act → Prop
  | .missed sql => (c.get moment (cacheKey conn.name sql)).1 = none
  | .served sql rows => (c.get moment (cacheKey conn.name sql)).1 = some rows
  | .called call answer => (conn.answer call server).1 = answer
  | .stored _ _ lifetime => moment + lifetime.nanos < clockEnd
  | .overflown lifetime => clockEnd ≤ moment + lifetime.nanos

def isStore (sql : String) : Act → Bool
  | .stored sql' _ _ => sql' = sql
  | _ => false

end Act

/-! ## Histories -/

variable (conn : Connection σ) (server : σ) (capacity : Nat)

def serverAfter (history : List (Deed ι)) : σ :=
  history.foldr (fun d s => d.act.onServer conn s) server

def cacheAfter (history : List (Deed ι)) : MemoryCache :=
  history.foldr (fun d c => d.act.onCache conn d.moment c) (.empty capacity)

def Genuine : List (Deed ι) → Prop
  | [] => True
  | d :: earlier =>
    d.act.Honest conn d.moment (cacheAfter conn capacity earlier) (serverAfter conn server earlier) ∧
      (∀ d' ∈ earlier, d'.moment ≤ d.moment) ∧ Genuine earlier

def lastStore (sql : String) (history : List (Deed ι)) : Option (Deed ι) :=
  history.find? (·.act.isStore sql)

variable {conn server capacity}

theorem Genuine.suffix {later earlier : List (Deed ι)}
    (h : Genuine conn server capacity (later ++ earlier)) : Genuine conn server capacity earlier := by
  induction later with
  | nil => exact h
  | cons d later ih => exact ih h.2.2

theorem Genuine.honest {history : List (Deed ι)} (h : Genuine conn server capacity history)
    {d : Deed ι} (hd : d ∈ history) : ∃ c s, d.act.Honest conn d.moment c s := by
  obtain ⟨later, earlier, rfl⟩ := List.append_of_mem hd
  exact ⟨_, _, h.suffix.1⟩

/-! ## What the cache holds -/

/-- Every entry has the rows of the last store under its SQL, until their lifetime is over. -/
structure Current (connection : String) (history : List (Deed ι)) (c : MemoryCache) : Prop where
  sorted : Keyed.Sorted c.entries
  last : ∀ e ∈ c.entries, ∃ sql i moment lifetime,
    e.key = cacheKey connection sql ∧ e.value.expires = moment + lifetime.nanos ∧
      lastStore sql history = some ⟨i, moment, .stored sql e.value.rows lifetime⟩

theorem Current.get {history : List (Deed ι)} {c : MemoryCache} (h : Current conn.name history c)
    (now : Moment) (key : String) : Current conn.name history (c.get now key).2 :=
  ⟨MemoryCache.sorted_get h.sorted, fun e he => h.last e (MemoryCache.mem_of_mem_get he)⟩

theorem lastStore_cons_of_not {d : Deed ι} {sql : String} (h : d.act.isStore sql = false)
    (history : List (Deed ι)) : lastStore sql (d :: history) = lastStore sql history := by
  unfold lastStore
  rw [List.find?_cons, h]

theorem Current.cons {history : List (Deed ι)} {c : MemoryCache} (h : Current conn.name history c)
    {d : Deed ι} (hd : ∀ sql, d.act.isStore sql = false) : Current conn.name (d :: history) c := by
  refine ⟨h.sorted, fun e he => ?_⟩
  obtain ⟨sql, i, moment, lifetime, hkey, hexpires, hlast⟩ := h.last e he
  rw [← lastStore_cons_of_not (hd sql)] at hlast
  exact ⟨sql, i, moment, lifetime, hkey, hexpires, hlast⟩

theorem Current.set {history : List (Deed ι)} {c c' : MemoryCache}
    (h : Current conn.name history c) {i : ι} {moment : Moment} {sql : String} {rows : List Row}
    {lifetime : Duration} (hset : c.set moment (cacheKey conn.name sql) rows lifetime = .ok c') :
    Current conn.name (⟨i, moment, .stored sql rows lifetime⟩ :: history) c' := by
  refine ⟨MemoryCache.sorted_set h.sorted hset, fun e he => ?_⟩
  rcases MemoryCache.mem_set h.sorted hset he with rfl | ⟨he, hne⟩
  · refine ⟨sql, i, moment, lifetime, rfl, rfl, ?_⟩
    simp [lastStore, Act.isStore]
  · obtain ⟨sql', j, moment', lifetime', hkey, hexpires, hlast⟩ := h.last e he
    have hsql : sql ≠ sql' := by
      rintro rfl
      exact hne hkey
    have hnot : (Act.stored sql rows lifetime).isStore sql' = false := by
      simpa [Act.isStore] using hsql
    refine ⟨sql', j, moment', lifetime', hkey, hexpires, ?_⟩
    rw [lastStore_cons_of_not hnot]
    exact hlast

/-- One deed keeps the cache current. -/
theorem Current.step {history : List (Deed ι)} {c : MemoryCache} (h : Current conn.name history c)
    {d : Deed ι} (hd : d.act.Honest conn d.moment c server) :
    Current conn.name (d :: history) (d.act.onCache conn d.moment c) := by
  obtain ⟨i, moment, act⟩ := d
  cases act with
  | missed sql => exact (h.get _ _).cons fun _ => rfl
  | served sql rows => exact (h.get _ _).cons fun _ => rfl
  | called call answer => exact h.cons fun _ => rfl
  | overflown lifetime => exact h.cons fun _ => rfl
  | stored sql rows lifetime =>
    obtain ⟨c', hc'⟩ := MemoryCache.exists_set c (cacheKey conn.name sql) rows hd
    simp only [Act.onCache, hc']
    exact h.set hc'

theorem Genuine.current {history : List (Deed ι)} (h : Genuine conn server capacity history) :
    Current conn.name history (cacheAfter conn capacity history) := by
  induction history with
  | nil => exact ⟨List.Pairwise.nil, by simp [cacheAfter, MemoryCache.empty]⟩
  | cons d earlier ih => exact (ih h.2.2).step h.1

/-- Rows from the cache are those of the last store, and their lifetime is not over. -/
theorem Genuine.served {history later earlier : List (Deed ι)} {i : ι} {moment : Moment}
    {sql : String} {rows : List Row} (h : Genuine conn server capacity history)
    (heq : history = later ++ ⟨i, moment, .served sql rows⟩ :: earlier) :
    ∃ j stored lifetime,
      lastStore sql earlier = some ⟨j, stored, .stored sql rows lifetime⟩ ∧
        stored ≤ moment ∧ moment - stored < lifetime.nanos := by
  rw [heq] at h
  obtain ⟨hhonest, hmoments, hearlier⟩ := h.suffix
  obtain ⟨e, he, hkey, rfl, hfresh⟩ := MemoryCache.exists_of_get hhonest
  obtain ⟨sql', j, stored, lifetime, hkey', hexpires, hlast⟩ := hearlier.current.last e he
  obtain rfl := cacheKey_inj (hkey.symm.trans hkey')
  have hmem := List.mem_of_find?_eq_some hlast
  have hle : stored ≤ moment := hmoments _ hmem
  rw [hexpires] at hfresh
  exact ⟨j, stored, lifetime, hlast, hle, Nat.sub_lt_left_of_lt_add hle hfresh⟩

end SqlComposer
