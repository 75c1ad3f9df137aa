import Mathlib.Tactic.TFAE
import SqlComposer.Connection.Replay
import SqlComposer.Proofs.Faithful
import SqlComposer.Proofs.Recency

/-!
# Connections that share a cache

A key has the name of a connection and a statement in it, with marks around them that may occur in
both. Two connections never have a key in common exactly if neither name, with the quote behind it,
begins with the other one and the marks behind that. Then nobody is served what another connection
has stored.
-/

namespace SqlComposer

/-! ## Keys -/

/-- What stands between the name and the statement. -/
def keyMark : List Char := ['"', ',', ' ', '"']

/-- The name `b`, with the quote behind it, begins like a key of a connection called `a`. -/
def Imitates (b a : String) : Prop := a.toList ++ keyMark <+: b.toList ++ ['"']

instance (b a : String) : Decidable (Imitates b a) :=
  inferInstanceAs (Decidable (_ <+: _))

/-- Keys of `a` and `b`, where `b` has taken the first part of the statement into its name. -/
def Torn (a s b t : List Char) : Prop :=
  ∃ middle, b ++ ['"'] = a ++ keyMark ++ middle ∧ s = middle ++ ',' :: ' ' :: '"' :: t

theorem cacheKey_eq_iff_fields {a b s t : String} :
    cacheKey a s = cacheKey b t ↔
      a.toList ++ (keyMark ++ s.toList) = b.toList ++ (keyMark ++ t.toList) := by
  have hmark : "\", \"".toList = keyMark := rfl
  unfold cacheKey
  rw [← String.toList_inj]
  simp only [String.toList_append, hmark, List.append_assoc, List.append_right_inj]
  simp only [← List.append_assoc, List.append_left_inj]

theorem Torn.fields_eq {a s b t : List Char} (h : Torn a s b t) :
    a ++ (keyMark ++ s) = b ++ (keyMark ++ t) := by
  obtain ⟨middle, hname, rfl⟩ := h
  calc a ++ (keyMark ++ (middle ++ ',' :: ' ' :: '"' :: t))
      = a ++ keyMark ++ middle ++ (',' :: ' ' :: '"' :: t) := by simp
    _ = b ++ ['"'] ++ (',' :: ' ' :: '"' :: t) := by rw [hname]
    _ = b ++ (keyMark ++ t) := by simp [keyMark]

/-- What the longer name has more is the marks up to the last quote, or all of them and more. -/
theorem torn_of_fields_eq {a s rest t : List Char} (hrest : rest ≠ [])
    (h : keyMark ++ s = rest ++ (keyMark ++ t)) : Torn a s (a ++ rest) t := by
  match rest with
  | [] => exact absurd rfl hrest
  | [_] => simp [keyMark] at h
  | [_, _] => simp [keyMark] at h
  | [_, _, _] =>
    simp only [keyMark, List.cons_append, List.nil_append, List.cons.injEq] at h
    obtain ⟨rfl, rfl, rfl, -, rfl⟩ := h
    exact ⟨[], by simp [keyMark], rfl⟩
  | _ :: _ :: _ :: _ :: middle =>
    simp only [keyMark, List.cons_append, List.nil_append, List.cons.injEq] at h
    obtain ⟨rfl, rfl, rfl, rfl, rfl⟩ := h
    exact ⟨middle ++ ['"'], by simp [keyMark], by simp⟩

/-- Two keys are the same for the same fields, and where one name has torn a statement apart. -/
theorem cacheKey_eq_iff {a b s t : String} :
    cacheKey a s = cacheKey b t ↔
      (a = b ∧ s = t) ∨ Torn a.toList s.toList b.toList t.toList ∨
        Torn b.toList t.toList a.toList s.toList := by
  rw [cacheKey_eq_iff_fields]
  constructor
  · intro h
    rcases List.append_eq_append_iff.mp h with ⟨rest, hb, hs⟩ | ⟨rest, ha, ht⟩
    · rw [hb]
      by_cases hrest : rest = []
      · subst hrest
        rw [List.append_nil] at hb
        exact .inl ⟨String.toList_inj.mp hb.symm, String.toList_inj.mp (List.append_cancel_left hs)⟩
      · exact .inr (.inl (torn_of_fields_eq hrest hs))
    · rw [ha]
      by_cases hrest : rest = []
      · subst hrest
        rw [List.append_nil] at ha
        exact .inl ⟨String.toList_inj.mp ha, String.toList_inj.mp (List.append_cancel_left ht).symm⟩
      · exact .inr (.inr (torn_of_fields_eq hrest ht))
  · rintro (⟨rfl, rfl⟩ | h | h)
    · rfl
    · exact h.fields_eq
    · exact h.fields_eq.symm

theorem Torn.imitates {a s b t : String} (h : Torn a.toList s.toList b.toList t.toList) :
    Imitates b a := by
  obtain ⟨middle, hname, -⟩ := h
  exact ⟨middle, hname.symm⟩

theorem Imitates.ne {a b : String} (h : Imitates b a) : a ≠ b := by
  rintro rfl
  have hle := h.length_le
  simp [keyMark] at hle

/-- Whatever the second statement is, there is one that gives it away under the other name. -/
theorem Imitates.exists_cacheKey_eq {a b : String} (h : Imitates b a) (t : String) :
    ∃ s, cacheKey a s = cacheKey b t := by
  obtain ⟨middle, hname⟩ := h
  refine ⟨String.ofList (middle ++ ',' :: ' ' :: '"' :: t.toList), ?_⟩
  rw [cacheKey_eq_iff, String.toList_ofList]
  exact .inr (.inl ⟨middle, hname.symm, rfl⟩)

/-! ## What an act leaves in the cache -/

variable {σ ι : Type}

namespace Act

variable {conn : Connection σ} {moment : Moment} {c : MemoryCache} {server : σ} {a : Act}

theorem sorted_onCache (h : Keyed.Sorted c.entries) (conn : Connection σ) (moment : Moment)
    (a : Act) : Keyed.Sorted (a.onCache conn moment c).entries := by
  cases a with
  | missed sql | served sql rows => exact MemoryCache.sorted_get h
  | called call answer | overflown lifetime => exact h
  | stored sql rows lifetime =>
    cases hset : c.set moment (cacheKey conn.name sql) rows lifetime with
    | ok c' =>
      simp only [onCache, hset]
      exact MemoryCache.sorted_set h hset
    | error failure =>
      simp only [onCache, hset]
      exact h

/-- An entry was there before, or it is what the act has stored. -/
theorem mem_onCache (h : Keyed.Sorted c.entries) {e : Entry Stored}
    (he : e ∈ (a.onCache conn moment c).entries) :
    e ∈ c.entries ∨
      ∃ sql lifetime, a = .stored sql e.value.rows lifetime ∧ e.key = cacheKey conn.name sql := by
  cases a with
  | missed sql | served sql rows => exact .inl (MemoryCache.mem_of_mem_get he)
  | called call answer | overflown lifetime => exact .inl he
  | stored sql rows lifetime =>
    cases hset : c.set moment (cacheKey conn.name sql) rows lifetime with
    | error failure =>
      simp only [onCache, hset] at he
      exact .inl he
    | ok c' =>
      simp only [onCache, hset] at he
      rcases MemoryCache.mem_set h hset he with rfl | ⟨he, -⟩
      · exact .inr ⟨sql, lifetime, rfl, rfl⟩
      · exact .inl he

end Act

theorem Story.sql_of_served {e : Errand} {conn : Connection σ} {phase : Phase} {acts : List Act}
    {sql : String} {rows : List Row} (h : Story e conn phase acts)
    (hserved : .served sql rows ∈ acts) : e.sql conn = .ok sql := by
  have hmissed (job : Job) : .served sql rows ∉ job.missed.toList := by
    intro hmem
    exact nomatch (Job.mem_missed hmem).2
  cases h with
  | ready | unrendered hsql => exact nomatch hserved
  | served hsql hreads =>
    obtain ⟨rfl, rfl⟩ := Act.served.inj (List.mem_singleton.mp hserved)
    exact hsql
  | asking hsql => exact absurd hserved (hmissed _)
  | failed hsql | storing hsql =>
    rcases List.mem_cons.mp hserved with hcall | hserved
    · exact nomatch hcall
    · exact absurd hserved (hmissed _)
  | ended hsql =>
    rcases List.mem_append.mp hserved with hstored | hserved
    · obtain ⟨r, lifetime, -, -, hact⟩ := Job.mem_stored hstored
      exact nomatch hact
    · rcases List.mem_cons.mp hserved with hcall | hserved
      · exact nomatch hcall
      · exact absurd hserved (hmissed _)
  | overflown hsql hlifetime =>
    rcases List.mem_cons.mp hserved with hover | hserved
    · exact nomatch hover
    · rcases List.mem_cons.mp hserved with hcall | hserved
      · exact nomatch hcall
      · exact absurd hserved (hmissed _)

/-! ## Executions on several connections -/

/-- A statement to be executed, with the connection it is executed on. -/
structure Guest (σ : Type) where
  conn : Connection σ
  errand : Errand

namespace Guest

def name (g : Guest σ) : String := g.conn.name

def sql (g : Guest σ) : Outcome String := g.errand.sql g.conn

end Guest

namespace World

variable [DecidableEq ι] {guests : ι → Guest σ}

/-- One step, by the one whose turn it is, on a connection of its own. -/
def shift (guests : ι → Guest σ) (w : World σ ι) : Move ι → World σ ι
  | .wait d => { w with session := { w.session with now := w.session.now + d.nanos } }
  | .turn i => w.move (guests i).conn (fun j => (guests j).errand) (.turn i)

def share (guests : ι → Guest σ) (w : World σ ι) (moves : List (Move ι)) : World σ ι :=
  moves.foldl (shift guests) w

/-- Whoever is served rows is served what a connection of the same name has stored under the same
SQL, where its driver has given them. -/
def Own (guests : ι → Guest σ) (w : World σ ι) : Prop :=
  ∀ i sql rows, .served sql rows ∈ w.acts i → (guests i).sql = .ok sql ∧
    ∃ j lifetime r, .stored sql rows lifetime ∈ w.acts j ∧ (guests j).name = (guests i).name ∧
      (guests j).sql = .ok sql ∧ r.rows = rows ∧
      w.calls j = [((guests j).errand.call sql, .ok (.rows r))]

/-- Somebody has stored rows under a key. -/
def Held (guests : ι → Guest σ) (w : World σ ι) (key : String) (rows : List Row) : Prop :=
  ∃ j sql lifetime, .stored sql rows lifetime ∈ w.acts j ∧ key = cacheKey (guests j).name sql

/-- What is in the cache, and what was served from it, somebody has stored under that key. -/
structure Guarded (guests : ι → Guest σ) (w : World σ ι) : Prop where
  story : ∀ i, Story (guests i).errand (guests i).conn (w.phase i) (w.acts i)
  entries : ∃ c, w.session.cache = some c ∧ Keyed.Sorted c.entries ∧
    ∀ e ∈ c.entries, Held guests w e.key e.value.rows
  served : ∀ i sql rows, .served sql rows ∈ w.acts i →
    Held guests w (cacheKey (guests i).name sql) rows

theorem guarded_start (guests : ι → Guest σ) (server : σ) (capacity : Nat) (now : Moment) :
    Guarded guests (start server capacity now) :=
  ⟨fun _ => .ready, ⟨.empty capacity, rfl, List.Pairwise.nil, fun _ h => nomatch h⟩,
    fun _ _ _ h => nomatch h⟩

theorem Guarded.wait {w : World σ ι} (h : Guarded guests w) (d : Duration) :
    Guarded guests (w.shift guests (.wait d)) :=
  ⟨h.story, h.entries, h.served⟩

theorem Held.mono {w w' : World σ ι} {key : String} {rows : List Row} (h : Held guests w key rows)
    (hacts : ∀ j, ∀ a ∈ w.acts j, a ∈ w'.acts j) : Held guests w' key rows := by
  obtain ⟨j, sql, lifetime, hstored, hkey⟩ := h
  exact ⟨j, sql, lifetime, hacts j _ hstored, hkey⟩

theorem Guarded.turn {w : World σ ι} (h : Guarded guests w) (i : ι) :
    Guarded guests (w.shift guests (.turn i)) := by
  obtain ⟨c, hcache, hsorted, hheld⟩ := h.entries
  obtain ⟨hsound, hstory⟩ := (h.story i).turn hcache
  have hacts (j : ι) : (w.shift guests (.turn i)).acts j = _ := acts_turn w i j
  have hgrow : ∀ j, ∀ a ∈ w.acts j, a ∈ (w.shift guests (.turn i)).acts j := by
    intro j a ha
    rw [hacts]
    split
    · next hj =>
      subst hj
      exact List.mem_append_right _ ha
    · exact ha
  have hnew : ∀ a, ((guests i).errand.turn (guests i).conn w.session (w.phase i)).act = some a →
      a ∈ (w.shift guests (.turn i)).acts i := by
    intro a ha
    rw [hacts, if_pos rfl, ha]
    exact List.mem_append_left _ (Option.mem_toList.mpr rfl)
  have hlook : ∀ key rows, (c.get w.session.now key).1 = some rows →
      Held guests (w.shift guests (.turn i)) key rows := by
    intro key rows hget
    obtain ⟨e, he, rfl, rfl, -⟩ := MemoryCache.exists_of_get hget
    exact (hheld e he).mono hgrow
  refine ⟨fun j => ?_, ?_, fun j sql rows hserved => ?_⟩
  · rw [hacts]
    unfold shift move
    by_cases hj : j = i
    · subst hj
      simpa using hstory
    · simpa [hj] using h.story j
  · refine ⟨_, hsound.cache, ?_, fun e he => ?_⟩
    · cases ((guests i).errand.turn (guests i).conn w.session (w.phase i)).act with
      | none => exact hsorted
      | some a => exact a.sorted_onCache hsorted _ _
    · cases hact : ((guests i).errand.turn (guests i).conn w.session (w.phase i)).act with
      | none =>
        rw [hact] at he
        exact (hheld e he).mono hgrow
      | some a =>
        rw [hact] at he
        rcases Act.mem_onCache hsorted he with he | ⟨sql, lifetime, rfl, hkey⟩
        · exact (hheld e he).mono hgrow
        · exact ⟨i, sql, lifetime, hnew _ hact, hkey⟩
  · rw [hacts] at hserved
    split at hserved
    · next hj =>
      subst hj
      rcases List.mem_append.mp hserved with hserved | hserved
      · exact hlook _ _ (hsound.honest _ (Option.mem_toList.mp hserved))
      · exact (h.served j sql rows hserved).mono hgrow
    · exact (h.served j sql rows hserved).mono hgrow

theorem Guarded.share {w : World σ ι} (h : Guarded guests w) (moves : List (Move ι)) :
    Guarded guests (w.share guests moves) := by
  induction moves generalizing w with
  | nil => exact h
  | cons m moves ih =>
    cases m with
    | wait d => exact ih (h.wait d)
    | turn i => exact ih (h.turn i)

/-- With keys that tell names and statements apart, everybody keeps to their own rows. -/
theorem Guarded.own {w : World σ ι} (h : Guarded guests w)
    (hkeys : ∀ i j s t, cacheKey (guests i).name s = cacheKey (guests j).name t →
      (guests i).name = (guests j).name ∧ s = t) : Own guests w := by
  intro i sql rows hserved
  obtain ⟨j, sql', lifetime, hstored, hkey⟩ := h.served i sql rows hserved
  obtain ⟨hname, rfl⟩ := hkeys i j sql sql' hkey
  refine ⟨(h.story i).sql_of_served hserved, j, lifetime, ?_⟩
  obtain ⟨sql', hsql, hcases⟩ := (h.story j).mem_cases hstored
  rcases hcases with ⟨-, hread⟩ | ⟨call, answer, hcall⟩ | ⟨lifetime', hover⟩ |
    ⟨r, lifetime', hact, -, hcalls⟩
  · exact nomatch hread
  · exact nomatch hcall
  · exact nomatch hover
  · obtain ⟨rfl, rfl, rfl⟩ := Act.stored.inj hact
    exact ⟨r, hstored, hname.symm, hsql, rfl, hcalls⟩

end World

/-! ## Strangers -/

namespace Job

variable {job : Job} {s : Session σ} {c : MemoryCache}

theorem look_of_get (hcache : s.cache = some c) (hreads : job.reads = true) {rows : List Row}
    (hget : (c.get s.now job.key).1 = some rows) :
    (job.look s).phase = .ended (.ok (.rows ⟨rows, 0, true⟩)) ∧
      (job.look s).act = some (.served job.call.sql rows) := by
  unfold look
  rw [hcache, probe_of_reads hreads, hget]
  exact ⟨rfl, rfl⟩

theorem keep_of_set (hcache : s.cache = some c) {lifetime : Duration}
    (hlifetime : job.lifetime = some lifetime) {r : ResultSet} {c' : MemoryCache}
    (hset : c.set s.now job.key r.rows lifetime = .ok c') :
    job.keep (.rows r) s = ⟨{ s with cache := some c' }, .ended (.ok (.rows r)),
      some (.stored job.call.sql r.rows lifetime)⟩ := by
  unfold keep store stored
  rw [hcache, hlifetime]
  simp only [hset]
  rfl

end Job

namespace Guest

/-- A SELECT on a connection with this name, whose rows may be served for a nanosecond. -/
def selecting (name sql : String) : Guest Replay where
  conn := ⟨name, Dialect.standard.quoting "", Replay.answer⟩
  errand := ⟨.raw ⟨.select, sql, ⟨.empty, { lifetime := some ⟨1⟩ }, none⟩⟩, .empty⟩

def job (g : Guest σ) (sql : String) : Job := g.errand.job g.conn sql

theorem sql_selecting (name sql : String) : (selecting name sql).sql = .ok sql :=
  congrArg Except.ok (Text.replaceAll_nil sql)

theorem turn_ready {g : Guest σ} {sql : String} (h : g.sql = .ok sql) (s : Session σ) :
    g.errand.turn g.conn s .ready = (g.job sql).look s := by
  have hsql : g.errand.sql g.conn = .ok sql := h
  simp only [Errand.turn, hsql]
  rfl

def pair (first second : Guest Replay) : Bool → Guest Replay
  | true => first
  | false => second

end Guest

namespace World

variable [DecidableEq ι] {guests : ι → Guest σ}

theorem shift_turn (w : World σ ι) (i : ι) {t : Turn σ}
    (h : (guests i).errand.turn (guests i).conn w.session (w.phase i) = t) :
    w.shift guests (.turn i) = ⟨t.session, Function.update w.phase i t.phase,
      (t.act.map (⟨i, w.session.now, ·⟩)).toList ++ w.history⟩ := by
  subst h
  rfl

/-- What the first of two has stored, the second is served if the keys are the same. -/
theorem acts_colliding {a s b t : String} (h : cacheKey a s = cacheKey b t) (r : ResultSet) :
    ((start ⟨[.ok (.rows r)], []⟩ 1 0).share (Guest.pair (.selecting a s) (.selecting b t))
      [.turn true, .turn true, .turn true, .turn false]).acts false = [.served t r.rows] := by
  let guests := Guest.pair (.selecting a s) (.selecting b t)
  let job := (guests true).job s
  obtain ⟨c, hset, -, hc⟩ := (MemoryCache.Represents.empty 1).set 0 (cacheKey a s) r.rows
    (show 0 + (Duration.mk 1).nanos < clockEnd by decide)
  have hget : (c.get 0 (cacheKey b t)).1 = some r.rows := by
    rw [← h, (hc.get 0 _).1]
    exact Recency.get_set Nat.one_pos 0 _ r.rows Nat.one_pos [] Nat.one_pos
  let asked : Session Replay := ⟨⟨[.ok (.rows r)], []⟩, some (.empty 1), 0,
    [.executing .select job.shownSql]⟩
  let called : Session Replay := { asked with server := ⟨[], [job.call]⟩ }
  let w₀ : World Replay Bool := start ⟨[.ok (.rows r)], []⟩ 1 0
  let w₁ : World Replay Bool :=
    ⟨asked, Function.update w₀.phase true (.asking job), [⟨true, 0, .missed s⟩]⟩
  let w₂ : World Replay Bool :=
    ⟨called, Function.update w₁.phase true (.storing job (.rows r)),
      ⟨true, 0, .called job.call (.ok (.rows r))⟩ :: w₁.history⟩
  let w₃ : World Replay Bool :=
    ⟨{ called with cache := some c }, Function.update w₂.phase true (.ended (.ok (.rows r))),
      ⟨true, 0, .stored s r.rows ⟨1⟩⟩ :: w₂.history⟩
  have hkeep : job.keep (.rows r) called =
      ⟨{ called with cache := some c }, .ended (.ok (.rows r)), some (.stored s r.rows ⟨1⟩)⟩ :=
    Job.keep_of_set rfl rfl hset
  have h₁ : w₀.shift guests (.turn true) = w₁ :=
    shift_turn w₀ true (Guest.turn_ready (g := guests true) (Guest.sql_selecting a s) w₀.session)
  have h₂ : w₁.shift guests (.turn true) = w₂ := shift_turn w₁ true rfl
  have h₃ : w₂.shift guests (.turn true) = w₃ := shift_turn w₂ true hkeep
  have h₄ : (w₃.shift guests (.turn false)).acts false = [.served t r.rows] := by
    rw [shift_turn w₃ false (Guest.turn_ready (g := guests false) (Guest.sql_selecting b t) _)]
    have hact : (((guests false).job t).look w₃.session).act = some (.served t r.rows) :=
      (Job.look_of_get rfl rfl hget).2
    simp only [acts, hact]
    rfl
  rw [← h₃, ← h₂, ← h₁] at h₄
  exact h₄

/-- Connections with these names have no key in common and are never served each other's rows,
exactly if none of the names imitates another. -/
theorem own_tfae (names : Set String) : List.TFAE [
    ∀ a ∈ names, ∀ b ∈ names, ∀ s t, cacheKey a s = cacheKey b t → a = b ∧ s = t,
    ∀ (σ ι : Type) [DecidableEq ι] (guests : ι → Guest σ), (∀ i, (guests i).name ∈ names) →
      ∀ (server : σ) (capacity : Nat) (now : Moment) (moves : List (Move ι)),
        Own guests ((start server capacity now).share guests moves),
    ∀ a ∈ names, ∀ b ∈ names, ¬ Imitates b a] := by
  tfae_have 3 → 1 := by
    intro h a ha b hb s t hkey
    rcases cacheKey_eq_iff.mp hkey with heq | htorn | htorn
    · exact heq
    · exact absurd htorn.imitates (h a ha b hb)
    · exact absurd htorn.imitates (h b hb a ha)
  tfae_have 1 → 2 := by
    intro h σ ι _ guests hnames server capacity now moves
    exact ((guarded_start guests server capacity now).share moves).own
      fun i j => h _ (hnames i) _ (hnames j)
  tfae_have 2 → 3 := by
    intro h a ha b hb himitates
    obtain ⟨s, hkey⟩ := himitates.exists_cacheKey_eq ""
    have hown := h Replay Bool (.pair (.selecting a s) (.selecting b "")) (by
      rintro (- | -)
      · exact hb
      · exact ha) ⟨[.ok (.rows ⟨[], 0, false⟩)], []⟩ 1 0
      [.turn true, .turn true, .turn true, .turn false]
    have hacts := acts_colliding hkey ⟨[], 0, false⟩
    obtain ⟨-, j, lifetime, r, hstored, hname, -⟩ := hown false "" [] (by simp [hacts])
    cases j with
    | true => exact himitates.ne hname
    | false => simp [hacts] at hstored
  tfae_finish

/-- Two names and two statements that make one key, so the one is served the rows of the other. -/
theorem served_other_name :
    let app := "app"
    let other := "app\", \"SELECT \"a"
    let sql := "SELECT \"a\", \"SELECT 1 --\" FROM \"t\""
    let rest := "SELECT 1 --\" FROM \"t\""
    let rows : ResultSet := ⟨[⟨["a"], [.int 7]⟩], 1, false⟩
    app ≠ other ∧ sql ≠ rest ∧ cacheKey app sql = cacheKey other rest ∧
      ((start ⟨[.ok (.rows rows)], []⟩ 1 0).share
        (Guest.pair (.selecting app sql) (.selecting other rest))
        [.turn true, .turn true, .turn true, .turn false]).acts false =
          [.served rest rows.rows] := by
  intro app other sql rest rows
  have hkey : cacheKey app sql = cacheKey other rest := by decide
  exact ⟨by decide, by decide, hkey, acts_colliding hkey rows⟩

end World

end SqlComposer
