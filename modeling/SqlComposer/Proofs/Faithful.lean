import SqlComposer.Connection.Replay
import SqlComposer.Proofs.History

/-!
# Cached executions are faithful

However the steps of executions come, each of them does what it would do alone, but for the rows
that are served: those come from the execution that was the last to store rows under the same SQL.
-/

namespace SqlComposer

variable {σ ι : Type}

theorem keptFor_eq_some {kind : Kind} {lifetime : Option Duration} {l : Duration} :
    keptFor kind lifetime = some l ↔ lifetime = some l ∧ kind = .select ∧ 0 < l.nanos := by
  unfold keptFor
  rw [Option.filter_eq_some_iff, Bool.and_eq_true, decide_eq_true_eq, decide_eq_true_eq]

/-! ## The story of one execution -/

/-- What an execution has done, the last act first, when it has come to a phase. -/
inductive Story (e : Errand) (conn : Connection σ) : Phase → List Act → Prop
  | ready : Story e conn .ready []
  | unrendered {failure : Failure} (h : e.sql conn = .error failure) :
      Story e conn (.ended (.error failure)) []
  | served {sql : String} {rows : List Row} (h : e.sql conn = .ok sql)
      (hreads : (e.job conn sql).reads = true) :
      Story e conn (.ended (.ok (.rows ⟨rows, 0, true⟩))) [.served sql rows]
  | asking {sql : String} (h : e.sql conn = .ok sql) :
      Story e conn (.asking (e.job conn sql)) (e.job conn sql).missed.toList
  | failed {sql : String} {error : Error} (h : e.sql conn = .ok sql) :
      Story e conn (.ended (.error (.error error)))
        (.called (e.job conn sql).call (.error error) :: (e.job conn sql).missed.toList)
  | storing {sql : String} {output : Output} (h : e.sql conn = .ok sql) :
      Story e conn (.storing (e.job conn sql) output)
        (.called (e.job conn sql).call (.ok output) :: (e.job conn sql).missed.toList)
  | ended {sql : String} {output : Output} (h : e.sql conn = .ok sql) :
      Story e conn (.ended (.ok output)) (((e.job conn sql).stored output).toList ++
        .called (e.job conn sql).call (.ok output) :: (e.job conn sql).missed.toList)
  | overflown {sql : String} {output : Output} {lifetime : Duration} (h : e.sql conn = .ok sql)
      (hlifetime : (e.job conn sql).lifetime = some lifetime) :
      Story e conn (.ended (.error .clockOverflow)) (.overflown lifetime ::
        .called (e.job conn sql).call (.ok output) :: (e.job conn sql).missed.toList)

structure Turn.Sound (t : Turn σ) (conn : Connection σ) (s : Session σ) (c : MemoryCache) :
    Prop where
  now : t.session.now = s.now
  honest : ∀ a, t.act = some a → a.Honest conn s.now c s.server
  server : t.session.server = t.act.elim s.server fun a => a.onServer conn s.server
  cache : t.session.cache = some (t.act.elim c fun a => a.onCache conn s.now c)

theorem Turn.Sound.idle {t : Turn σ} {conn : Connection σ} {s : Session σ} {c : MemoryCache}
    (hact : t.act = none) (hnow : t.session.now = s.now) (hserver : t.session.server = s.server)
    (hcache : t.session.cache = some c) : t.Sound conn s c where
  now := hnow
  honest a ha := by simp [hact] at ha
  server := by rw [hact, hserver, Option.elim_none]
  cache := by rw [hact, hcache, Option.elim_none]

namespace Job

variable {conn : Connection σ} {s : Session σ} {c : MemoryCache} {job : Job}

theorem probe_of_reads (h : job.reads = true) (now : Moment) (c : MemoryCache) :
    job.probe now (some c) = ((c.get now job.key).1, some (c.get now job.key).2) := by
  unfold reads at h
  rw [Bool.and_eq_true, Bool.not_eq_true', Option.isSome_iff_exists] at h
  obtain ⟨⟨lifetime, hlifetime⟩, hforce⟩ := h
  unfold probe
  rw [hlifetime]
  simp [hforce]

theorem probe_of_not_reads (h : job.reads = false) (now : Moment) (c : MemoryCache) :
    job.probe now (some c) = (none, some c) := by
  unfold reads at h
  unfold probe
  cases hlifetime : job.lifetime with
  | none => rfl
  | some lifetime =>
    rw [hlifetime] at h
    have hforce : job.force = true := by simpa using h
    simp [hforce]

theorem sound_look (hkey : job.key = cacheKey conn.name job.call.sql) (hcache : s.cache = some c) :
    (job.look s).Sound conn s c := by
  unfold look
  cases hreads : job.reads with
  | false =>
    rw [hcache, probe_of_not_reads hreads]
    unfold missed
    rw [hreads]
    exact .idle rfl rfl rfl rfl
  | true =>
    rw [hcache, probe_of_reads hreads]
    cases hget : (c.get s.now job.key).1 with
    | some rows =>
      refine ⟨rfl, fun a ha => ?_, rfl, ?_⟩
      · obtain rfl := Option.some.inj ha
        rw [hkey] at hget
        exact hget
      · simp [Act.onCache, ← hkey, Session.log]
    | none =>
      unfold missed
      rw [hreads]
      refine ⟨rfl, fun a ha => ?_, rfl, ?_⟩
      · obtain rfl := Option.some.inj ha
        rw [hkey] at hget
        exact hget
      · simp [Act.onCache, ← hkey, Session.log]

theorem look_cases (hcache : s.cache = some c) :
    ((job.look s).phase = .asking job ∧ (job.look s).act = job.missed) ∨
      ∃ rows, job.reads = true ∧ (job.look s).phase = .ended (.ok (.rows ⟨rows, 0, true⟩)) ∧
        (job.look s).act = some (.served job.call.sql rows) := by
  unfold look
  rw [hcache]
  cases hreads : job.reads with
  | false =>
    rw [probe_of_not_reads hreads]
    exact Or.inl ⟨rfl, rfl⟩
  | true =>
    rw [probe_of_reads hreads]
    cases (c.get s.now job.key).1 with
    | some rows => exact Or.inr ⟨rows, rfl, rfl, rfl⟩
    | none => exact Or.inl ⟨rfl, rfl⟩

theorem sound_consult (hcache : s.cache = some c) : (job.consult conn s).Sound conn s c := by
  unfold consult Connection.ask
  rcases hanswer : conn.answer job.call s.server with ⟨error | output, server⟩
  · refine ⟨rfl, fun a ha => ?_, ?_, hcache⟩
    · obtain rfl := Option.some.inj ha
      exact congrArg Prod.fst hanswer
    · simp [Act.onServer, hanswer, Session.log]
  · refine ⟨rfl, fun a ha => ?_, ?_, hcache⟩
    · obtain rfl := Option.some.inj ha
      exact congrArg Prod.fst hanswer
    · simp [Act.onServer, hanswer]

theorem consult_cases (job : Job) (conn : Connection σ) (s : Session σ) :
    (∃ error, (job.consult conn s).phase = .ended (.error (.error error)) ∧
        (job.consult conn s).act = some (.called job.call (.error error))) ∨
      ∃ output, (job.consult conn s).phase = .storing job output ∧
        (job.consult conn s).act = some (.called job.call (.ok output)) := by
  unfold consult Connection.ask
  rcases conn.answer job.call s.server with ⟨error | output, server⟩
  · exact Or.inl ⟨error, rfl, rfl⟩
  · exact Or.inr ⟨output, rfl, rfl⟩

theorem sound_keep (hkey : job.key = cacheKey conn.name job.call.sql) (hcache : s.cache = some c)
    (output : Output) :
    (job.keep output s).Sound conn s c ∧
      (((job.keep output s).phase = .ended (.ok output) ∧
          (job.keep output s).act = job.stored output) ∨
        ∃ lifetime, job.lifetime = some lifetime ∧
          (job.keep output s).phase = .ended (.error .clockOverflow) ∧
          (job.keep output s).act = some (.overflown lifetime)) := by
  unfold keep store stored
  rw [hcache]
  cases hlifetime : job.lifetime with
  | none => exact ⟨.idle rfl rfl rfl rfl, Or.inl ⟨rfl, rfl⟩⟩
  | some lifetime =>
    cases output with
    | rows r =>
      rcases lt_or_ge (s.now + lifetime.nanos) clockEnd with hclock | hclock
      · obtain ⟨c', hc'⟩ := c.exists_set job.key r.rows hclock
        simp only [hc']
        refine ⟨⟨rfl, fun a ha => ?_, rfl, ?_⟩, Or.inl ⟨rfl, rfl⟩⟩
        · obtain rfl := Option.some.inj ha
          exact hclock
        · rw [hkey] at hc'
          simp [Act.onCache, hc']
      · simp only [c.set_eq_error job.key r.rows hclock]
        refine ⟨⟨rfl, fun a ha => ?_, rfl, hcache⟩, Or.inr ⟨lifetime, rfl, rfl, rfl⟩⟩
        obtain rfl := Option.some.inj ha
        exact hclock
    | inserted id n => exact ⟨.idle rfl rfl rfl rfl, Or.inl ⟨rfl, rfl⟩⟩
    | affected n => exact ⟨.idle rfl rfl rfl rfl, Or.inl ⟨rfl, rfl⟩⟩

end Job

/-- Each step continues the story, and does only what its act says. -/
theorem Story.turn {e : Errand} {conn : Connection σ} {phase : Phase} {acts : List Act}
    {s : Session σ} {c : MemoryCache} (h : Story e conn phase acts)
    (hcache : s.cache = some c) :
    (e.turn conn s phase).Sound conn s c ∧
      Story e conn (e.turn conn s phase).phase ((e.turn conn s phase).act.toList ++ acts) := by
  cases h with
  | ready =>
    cases hsql : e.sql conn with
    | error failure =>
      simp only [Errand.turn, hsql]
      exact ⟨.idle rfl rfl rfl hcache, .unrendered hsql⟩
    | ok sql =>
      simp only [Errand.turn, hsql]
      refine ⟨Job.sound_look rfl hcache, ?_⟩
      rcases Job.look_cases hcache with ⟨hphase, hact⟩ | ⟨rows, hreads, hphase, hact⟩
      · rw [hphase, hact, List.append_nil]
        exact .asking hsql
      · rw [hphase, hact]
        exact .served hsql hreads
  | asking hsql =>
    refine ⟨Job.sound_consult hcache, ?_⟩
    unfold Errand.turn
    rcases Job.consult_cases _ conn s with ⟨error, hphase, hact⟩ | ⟨output, hphase, hact⟩
    · rw [hphase, hact]
      exact .failed hsql
    · rw [hphase, hact]
      exact .storing hsql
  | @storing sql output hsql =>
    obtain ⟨hsound, hcases⟩ := @Job.sound_keep _ conn s c (e.job conn sql) rfl hcache output
    refine ⟨hsound, ?_⟩
    unfold Errand.turn
    rcases hcases with ⟨hphase, hact⟩ | ⟨lifetime, hlifetime, hphase, hact⟩
    · rw [hphase, hact]
      exact .ended hsql
    · rw [hphase, hact]
      exact .overflown hsql hlifetime
  | unrendered hsql => exact ⟨.idle rfl rfl rfl hcache, .unrendered hsql⟩
  | served hsql hreads => exact ⟨.idle rfl rfl rfl hcache, .served hsql hreads⟩
  | failed hsql => exact ⟨.idle rfl rfl rfl hcache, .failed hsql⟩
  | ended hsql => exact ⟨.idle rfl rfl rfl hcache, .ended hsql⟩
  | overflown hsql hlifetime => exact ⟨.idle rfl rfl rfl hcache, .overflown hsql hlifetime⟩

/-! ## What a story tells -/

section

variable {e : Errand} {conn : Connection σ} {phase : Phase} {acts : List Act} {sql : String}

theorem Job.force_of_reads {job : Job} (h : job.reads = true) : job.force = false := by
  unfold Job.reads at h
  rw [Bool.and_eq_true, Bool.not_eq_true'] at h
  exact h.2

theorem Job.mem_missed {job : Job} {a : Act} (h : a ∈ job.missed.toList) :
    job.reads = true ∧ a = .missed job.call.sql := by
  unfold Job.missed at h
  split at h
  · next hreads => exact ⟨hreads, by simpa using h⟩
  · simp at h

theorem Job.mem_stored {job : Job} {output : Output} {a : Act}
    (h : a ∈ (job.stored output).toList) : ∃ r lifetime, output = .rows r ∧
      job.lifetime = some lifetime ∧ a = .stored job.call.sql r.rows lifetime := by
  unfold Job.stored at h
  split at h
  · next lifetime r hlifetime => exact ⟨r, lifetime, rfl, hlifetime, by simpa using h⟩
  · simp at h

theorem Job.calls_missed (job : Job) : job.missed.toList.filterMap Act.call? = [] := by
  rw [List.filterMap_eq_nil_iff]
  intro a ha
  rw [(Job.mem_missed ha).2]
  rfl

theorem Job.calls_stored (job : Job) (output : Output) :
    (job.stored output).toList.filterMap Act.call? = [] := by
  rw [List.filterMap_eq_nil_iff]
  intro a ha
  obtain ⟨r, lifetime, -, -, rfl⟩ := Job.mem_stored ha
  rfl

/-- An execution that has ended was served, or has asked the driver and stored what it may. -/
theorem Story.ended_cases {result : Outcome Output} (h : Story e conn (.ended result) acts)
    (hsql : e.sql conn = .ok sql) :
    (∃ rows, acts = [.served sql rows] ∧ result = .ok (.rows ⟨rows, 0, true⟩)) ∨
      (∃ error, acts.filterMap Act.call? = [(e.call sql, .error error)] ∧
        result = .error (.error error)) ∨
      (∃ output, acts.filterMap Act.call? = [(e.call sql, .ok output)] ∧ result = .ok output ∧
        ∀ a ∈ (e.job conn sql).stored output, a ∈ acts) ∨
      ∃ output lifetime, acts.filterMap Act.call? = [(e.call sql, .ok output)] ∧
        .overflown lifetime ∈ acts ∧ (e.job conn sql).lifetime = some lifetime ∧
          result = .error .clockOverflow := by
  cases h with
  | unrendered hfailure =>
    rw [hsql] at hfailure
    exact nomatch hfailure
  | @served sql' rows hsql' =>
    obtain rfl := Except.ok.inj (hsql.symm.trans hsql')
    exact Or.inl ⟨rows, rfl, rfl⟩
  | @failed sql' error hsql' =>
    obtain rfl := Except.ok.inj (hsql.symm.trans hsql')
    refine Or.inr (Or.inl ⟨error, ?_, rfl⟩)
    simp only [List.filterMap_cons, Act.call?, Job.calls_missed]
    rfl
  | @ended sql' output hsql' =>
    obtain rfl := Except.ok.inj (hsql.symm.trans hsql')
    refine Or.inr (Or.inr (Or.inl ⟨output, ?_, rfl, fun a ha => ?_⟩))
    · simp only [List.filterMap_append, List.filterMap_cons, Act.call?, Job.calls_missed,
        Job.calls_stored]
      rfl
    · exact List.mem_append_left _ (Option.mem_toList.mpr ha)
  | @overflown sql' output lifetime hsql' hlifetime =>
    obtain rfl := Except.ok.inj (hsql.symm.trans hsql')
    refine Or.inr (Or.inr (Or.inr ⟨output, lifetime, ?_, List.mem_cons_self, hlifetime, rfl⟩))
    simp only [List.filterMap_cons, Act.call?, Job.calls_missed]
    rfl

theorem Job.missed_cases {job : Job} {a : Act} (h : a ∈ job.missed.toList) :
    job.reads = true ∧ a.isRead = true := by
  obtain ⟨hreads, rfl⟩ := Job.mem_missed h
  exact ⟨hreads, rfl⟩

/-- An act is a look into the cache, a call, a store of what was answered to the only call, or what
is left of one. -/
theorem Story.mem_cases {a : Act} (h : Story e conn phase acts) (ha : a ∈ acts) :
    ∃ sql, e.sql conn = .ok sql ∧
      (((e.job conn sql).reads = true ∧ a.isRead = true) ∨
        (∃ call answer, a = .called call answer) ∨ (∃ lifetime, a = .overflown lifetime) ∨
        ∃ r lifetime, a = .stored sql r.rows lifetime ∧
          (e.job conn sql).lifetime = some lifetime ∧
          acts.filterMap Act.call? = [(e.call sql, .ok (.rows r))]) := by
  cases h with
  | ready => exact nomatch ha
  | unrendered hsql => exact nomatch ha
  | served hsql hreads =>
    obtain rfl := List.mem_singleton.mp ha
    exact ⟨_, hsql, Or.inl ⟨hreads, rfl⟩⟩
  | asking hsql => exact ⟨_, hsql, Or.inl (Job.missed_cases ha)⟩
  | failed hsql =>
    refine ⟨_, hsql, ?_⟩
    rcases List.mem_cons.mp ha with rfl | ha
    · exact Or.inr (Or.inl ⟨_, _, rfl⟩)
    · exact Or.inl (Job.missed_cases ha)
  | storing hsql =>
    refine ⟨_, hsql, ?_⟩
    rcases List.mem_cons.mp ha with rfl | ha
    · exact Or.inr (Or.inl ⟨_, _, rfl⟩)
    · exact Or.inl (Job.missed_cases ha)
  | @ended sql output hsql =>
    refine ⟨sql, hsql, ?_⟩
    rcases List.mem_append.mp ha with ha | ha
    · obtain ⟨r, lifetime, rfl, hlifetime, rfl⟩ := Job.mem_stored ha
      refine Or.inr (Or.inr (Or.inr ⟨r, lifetime, rfl, hlifetime, ?_⟩))
      simp only [List.filterMap_append, List.filterMap_cons, Act.call?, Job.calls_missed,
        Job.calls_stored]
      rfl
    · rcases List.mem_cons.mp ha with rfl | ha
      · exact Or.inr (Or.inl ⟨_, _, rfl⟩)
      · exact Or.inl (Job.missed_cases ha)
  | overflown hsql =>
    refine ⟨_, hsql, ?_⟩
    rcases List.mem_cons.mp ha with rfl | ha
    · exact Or.inr (Or.inr (Or.inl ⟨_, rfl⟩))
    · rcases List.mem_cons.mp ha with rfl | ha
      · exact Or.inr (Or.inl ⟨_, _, rfl⟩)
      · exact Or.inl (Job.missed_cases ha)

theorem Story.unrendered_cases {failure : Failure} (h : Story e conn phase acts)
    (hsql : e.sql conn = .error failure) :
    acts = [] ∧ (phase = .ready ∨ phase = .ended (.error failure)) := by
  have hnone : acts = [] := by
    refine List.eq_nil_iff_forall_not_mem.mpr fun a ha => ?_
    obtain ⟨sql, hok, -⟩ := h.mem_cases ha
    rw [hsql] at hok
    exact nomatch hok
  refine ⟨hnone, ?_⟩
  cases h with
  | ready => exact Or.inl rfl
  | unrendered hfailure =>
    rw [Except.error.inj (hsql.symm.trans hfailure)]
    exact Or.inr rfl
  | asking hok | served hok _ | failed hok | storing hok | ended hok | overflown hok _ =>
    rw [hsql] at hok
    exact nomatch hok

end

/-! ## All executions -/

namespace World

variable [DecidableEq ι] {conn : Connection σ} {errands : ι → Errand} {server : σ}
variable {capacity : Nat}

/-- Every execution has its story, and the session is what the history made of it. -/
structure Sound (conn : Connection σ) (errands : ι → Errand) (server : σ) (capacity : Nat)
    (w : World σ ι) : Prop where
  story : ∀ i, Story (errands i) conn (w.phase i) (w.acts i)
  genuine : Genuine conn server capacity w.history
  past : ∀ d ∈ w.history, d.moment ≤ w.session.now
  server : w.session.server = serverAfter conn server w.history
  cache : w.session.cache = some (cacheAfter conn capacity w.history)

theorem sound_start (conn : Connection σ) (errands : ι → Errand) (server : σ) (capacity : Nat)
    (now : Moment) : Sound conn errands server capacity (start server capacity now) :=
  ⟨fun _ => .ready, trivial, by simp [start], rfl, rfl⟩

theorem Sound.wait {w : World σ ι} (h : Sound conn errands server capacity w) (d : Duration) :
    Sound conn errands server capacity (w.move conn errands (.wait d)) :=
  ⟨h.story, h.genuine, fun d' hd => Nat.le_add_right_of_le (h.past d' hd), h.server, h.cache⟩

theorem acts_turn (w : World σ ι) (i j : ι) :
    (w.move conn errands (.turn i)).acts j =
      if j = i then ((errands i).turn conn w.session (w.phase i)).act.toList ++ w.acts i
      else w.acts j := by
  unfold acts move
  simp only [List.filter_append, List.map_append]
  by_cases hj : j = i
  · subst hj
    rw [if_pos rfl]
    cases ((errands j).turn conn w.session (w.phase j)).act <;> simp
  · rw [if_neg hj]
    have hi : ¬ i = j := fun h => hj h.symm
    cases ((errands i).turn conn w.session (w.phase i)).act <;> simp [hi]

theorem Sound.turn {w : World σ ι} (h : Sound conn errands server capacity w) (i : ι) :
    Sound conn errands server capacity (w.move conn errands (.turn i)) := by
  obtain ⟨⟨hnow, hhonest, hserver, hcache⟩, hstory⟩ := (h.story i).turn h.cache
  rw [h.server] at hhonest hserver
  have hall : ∀ j, Story (errands j) conn ((w.move conn errands (.turn i)).phase j)
      ((w.move conn errands (.turn i)).acts j) := by
    intro j
    rw [acts_turn]
    unfold move
    by_cases hj : j = i
    · subst hj
      simpa using hstory
    · simpa [hj] using h.story j
  unfold move at hall ⊢
  simp only at hall ⊢
  -- The history grows by the act of the turn, which is honest about the session before it.
  cases hact : ((errands i).turn conn w.session (w.phase i)).act with
  | none =>
    rw [hact] at hall hserver hcache
    refine ⟨hall, h.genuine, fun d hd => ?_, hserver, hcache⟩
    exact (h.past d hd).trans_eq hnow.symm
  | some a =>
    rw [hact] at hall hserver hcache
    refine ⟨hall, ⟨hhonest a hact, h.past, h.genuine⟩, fun d hd => ?_, hserver, hcache⟩
    rcases List.mem_cons.mp hd with rfl | hd
    · exact hnow.ge
    · exact (h.past d hd).trans_eq hnow.symm

theorem Sound.run {w : World σ ι} (h : Sound conn errands server capacity w)
    (moves : List (Move ι)) : Sound conn errands server capacity (w.run conn errands moves) := by
  induction moves generalizing w with
  | nil => exact h
  | cons m moves ih =>
    cases m with
    | wait d => exact ih (h.wait d)
    | turn i => exact ih (h.turn i)

def calls (w : World σ ι) (i : ι) : List (DriverCall × Except Error Output) :=
  (w.acts i).filterMap Act.call?

/-- What can be relied on, whatever the order of the steps. -/
structure Faithful (conn : Connection σ) (errands : ι → Errand) (server : σ) (capacity : Nat)
    (w : World σ ι) : Prop where
  /-- Rows marked as cached are those of the last store under the same SQL, whose lifetime is not
  over, unless the driver has marked its answer itself. -/
  cached : ∀ i r, w.phase i = .ended (.ok (.rows r)) → r.cached = true →
    (∃ call s, w.calls i = [(call, .ok (.rows r))] ∧ (conn.answer call s).1 = .ok (.rows r)) ∨
      w.calls i = [] ∧ ∃ sql later moment earlier j stored lifetime,
        (errands i).sql conn = .ok sql ∧
          w.history = later ++ ⟨i, moment, .served sql r.rows⟩ :: earlier ∧
          lastStore sql earlier = some ⟨j, stored, .stored sql r.rows lifetime⟩ ∧
          stored ≤ moment ∧ moment - stored < lifetime.nanos
  /-- Only a SELECT with a positive lifetime stores, and only rows that the driver gave it. -/
  stored : ∀ j moment sql rows lifetime, ⟨j, moment, .stored sql rows lifetime⟩ ∈ w.history →
    (errands j).sql conn = .ok sql ∧ (errands j).statement.kind = .select ∧
      (errands j).statement.request.options.lifetime = some lifetime ∧ 0 < lifetime.nanos ∧
      ∃ r, r.rows = rows ∧ w.calls j = [((errands j).call sql, .ok (.rows r))]
  /-- An execution whose rows are not served asks the driver once and has its answer, unless the
  clock overflows. -/
  ended : ∀ i result sql, w.phase i = .ended result → (errands i).sql conn = .ok sql →
    (∃ rows, w.acts i = [.served sql rows] ∧ result = .ok (.rows ⟨rows, 0, true⟩)) ∨
      ∃ answer, w.calls i = [((errands i).call sql, answer)] ∧
        (result = answer.mapError .error ∨
          result = .error .clockOverflow ∧ ∃ moment lifetime,
            ⟨i, moment, .overflown lifetime⟩ ∈ w.history ∧
            (errands i).statement.request.options.lifetime = some lifetime ∧
            clockEnd ≤ moment + lifetime.nanos)
  /-- The rows of the driver are stored where they may be, whether the cache was read or not. -/
  kept : ∀ i r sql lifetime, w.phase i = .ended (.ok (.rows r)) →
    w.calls i = [((errands i).call sql, .ok (.rows r))] → (errands i).statement.kind = .select →
    (errands i).statement.request.options.lifetime = some lifetime → 0 < lifetime.nanos →
    .stored sql r.rows lifetime ∈ w.acts i
  forced : ∀ i, (errands i).statement.request.options.force = true →
    ∀ a ∈ w.acts i, a.isRead = false
  unrendered : ∀ i failure, (errands i).sql conn = .error failure →
    w.acts i = [] ∧ (w.phase i = .ready ∨ w.phase i = .ended (.error failure))
  genuine : Genuine conn server capacity w.history
  server : w.session.server = serverAfter conn server w.history
  cache : w.session.cache = some (cacheAfter conn capacity w.history)

theorem mem_acts {w : World σ ι} {i : ι} {a : Act} :
    a ∈ w.acts i ↔ ∃ moment, ⟨i, moment, a⟩ ∈ w.history := by
  unfold acts
  simp only [List.mem_map, List.mem_filter, decide_eq_true_eq]
  constructor
  · rintro ⟨⟨j, moment, b⟩, ⟨hmem, rfl⟩, rfl⟩
    exact ⟨moment, hmem⟩
  · rintro ⟨moment, hmem⟩
    exact ⟨⟨i, moment, a⟩, ⟨hmem, rfl⟩, rfl⟩

theorem Sound.ended_ok {w : World σ ι} (h : Sound conn errands server capacity w) {i : ι}
    {output : Output} (hphase : w.phase i = .ended (.ok output)) :
    ∃ sql, (errands i).sql conn = .ok sql ∧
      ((∃ rows, w.acts i = [.served sql rows] ∧ output = .rows ⟨rows, 0, true⟩) ∨
        w.calls i = [((errands i).call sql, .ok output)] ∧
          ∀ a ∈ ((errands i).job conn sql).stored output, a ∈ w.acts i) := by
  have hstory := h.story i
  rw [hphase] at hstory
  cases hsql : (errands i).sql conn with
  | error failure =>
    obtain ⟨-, hready | hfailed⟩ := hstory.unrendered_cases hsql
    · exact nomatch hready
    · exact nomatch hfailed
  | ok sql =>
    refine ⟨sql, rfl, ?_⟩
    rcases hstory.ended_cases hsql with ⟨rows, hacts, hr⟩ | ⟨error, -, herror⟩ |
      ⟨o, hcalls, ho, hs⟩ | ⟨o, lifetime, -, -, -, hover⟩
    · exact Or.inl ⟨rows, hacts, Except.ok.inj hr⟩
    · exact nomatch herror
    · obtain rfl := Except.ok.inj ho
      exact Or.inr ⟨hcalls, hs⟩
    · exact nomatch hover

theorem mem_calls {w : World σ ι} {i : ι} {call : DriverCall} {answer : Except Error Output}
    (hcalls : w.calls i = [(call, answer)]) :
    ∃ moment, ⟨i, moment, .called call answer⟩ ∈ w.history := by
  have hmem : (call, answer) ∈ w.calls i := by
    rw [hcalls]
    exact List.mem_singleton_self _
  unfold calls at hmem
  obtain ⟨a, ha, hcall⟩ := List.mem_filterMap.mp hmem
  cases a with
  | called call' answer' =>
    obtain ⟨rfl, rfl⟩ := Prod.mk.inj (Option.some.inj hcall)
    exact mem_acts.mp ha
  | missed sql | served sql rows | stored sql rows lifetime | overflown lifetime =>
    exact nomatch hcall

theorem Sound.faithful {w : World σ ι} (h : Sound conn errands server capacity w) :
    Faithful conn errands server capacity w where
  cached i r hphase hcached := by
    obtain ⟨sql, hsql, hcases⟩ := h.ended_ok hphase
    rcases hcases with ⟨rows, hacts, hr⟩ | ⟨hcalls, -⟩
    · obtain rfl := Output.rows.inj hr
      have hserved : .served sql rows ∈ w.acts i := by
        rw [hacts]
        exact List.mem_singleton_self _
      obtain ⟨moment, hmem⟩ := mem_acts.mp hserved
      obtain ⟨later, earlier, heq⟩ := List.append_of_mem hmem
      obtain ⟨j, stored, lifetime, hlast, hle, hlt⟩ := h.genuine.served heq
      refine Or.inr ⟨?_, sql, later, moment, earlier, j, stored, lifetime, hsql, heq, hlast, hle, hlt⟩
      unfold calls
      rw [hacts]
      rfl
    · obtain ⟨moment, hmem⟩ := mem_calls hcalls
      obtain ⟨c, s, hs⟩ := h.genuine.honest hmem
      exact Or.inl ⟨_, s, hcalls, hs⟩
  stored j moment sql rows lifetime hmem := by
    obtain ⟨sql', hsql, hcases⟩ := (h.story j).mem_cases (mem_acts.mpr ⟨moment, hmem⟩)
    rcases hcases with ⟨-, hread⟩ | ⟨call, answer, hcall⟩ | ⟨lifetime', hover⟩ |
      ⟨r, lifetime', hstored, hkept, hcalls⟩
    · exact nomatch hread
    · exact nomatch hcall
    · exact nomatch hover
    · obtain ⟨rfl, rfl, rfl⟩ := Act.stored.inj hstored
      obtain ⟨hlifetime, hkind, hpositive⟩ := keptFor_eq_some.mp hkept
      exact ⟨hsql, hkind, hlifetime, hpositive, r, rfl, hcalls⟩
  ended i result sql hphase hsql := by
    have hstory := h.story i
    rw [hphase] at hstory
    rcases hstory.ended_cases hsql with hserved | ⟨error, hcalls, rfl⟩ | ⟨output, hcalls, rfl, -⟩ |
      ⟨output, lifetime, hcalls, hover, hlifetime, hresult⟩
    · exact Or.inl hserved
    · exact Or.inr ⟨.error error, hcalls, Or.inl rfl⟩
    · exact Or.inr ⟨.ok output, hcalls, Or.inl rfl⟩
    · obtain ⟨moment, hmem⟩ := mem_acts.mp hover
      obtain ⟨c, s, hclock⟩ := h.genuine.honest hmem
      exact Or.inr ⟨.ok output, hcalls, Or.inr ⟨hresult, moment, lifetime, hmem,
        (keptFor_eq_some.mp hlifetime).1, hclock⟩⟩
  kept i r sql lifetime hphase hcalls hkind hlifetime hpositive := by
    obtain ⟨sql', hsql, hcases⟩ := h.ended_ok hphase
    rcases hcases with ⟨rows, hacts, -⟩ | ⟨hcalls', hstored⟩
    · unfold calls at hcalls
      rw [hacts] at hcalls
      exact nomatch hcalls
    · rw [hcalls'] at hcalls
      obtain rfl : sql' = sql := congrArg DriverCall.sql (Prod.mk.inj (List.cons.inj hcalls).1).1
      refine hstored _ ?_
      have hlifetime' : ((errands i).job conn sql').lifetime = some lifetime :=
        keptFor_eq_some.mpr ⟨hlifetime, hkind, hpositive⟩
      unfold Job.stored
      rw [hlifetime']
      rfl
  forced i hforce a ha := by
    obtain ⟨sql, -, hcases⟩ := (h.story i).mem_cases ha
    rcases hcases with ⟨hreads, -⟩ | ⟨call, answer, rfl⟩ | ⟨lifetime, rfl⟩ | ⟨r, lifetime, rfl, -⟩
    · have hfree : (errands i).statement.request.options.force = false :=
        Job.force_of_reads hreads
      rw [hforce] at hfree
      exact nomatch hfree
    · rfl
    · rfl
    · rfl
  unrendered i failure hsql := (h.story i).unrendered_cases hsql
  genuine := h.genuine
  server := h.server
  cache := h.cache

/-- Whatever the statements, the driver, and the order of the steps, executions are faithful. -/
theorem faithful_run (conn : Connection σ) (errands : ι → Errand) (server : σ) (capacity : Nat)
    (now : Moment) (moves : List (Move ι)) :
    Faithful conn errands server capacity
      ((start server capacity now).run conn errands moves) :=
  ((sound_start conn errands server capacity now).run moves).faithful

end World

/-- Counts something, and lets the rows be served for a second. -/
def Errand.counting : Errand where
  statement := .raw ⟨.select, "SELECT n", ⟨.empty, { lifetime := some ⟨1000000000⟩ }, none⟩⟩
  cells := ⟨[]⟩

example :
    let r : ResultSet := { rows := [⟨["n"], [.int 1]⟩] }
    let w : World Replay (Fin 2) := World.start ⟨[.ok (.rows r)], []⟩ 4 0
    (w.run ⟨"main", Dialect.standard.quoting "", Replay.answer⟩ (fun _ => .counting)
      [.turn 0, .turn 0, .turn 0, .wait ⟨999999999⟩, .turn 1]).phase 1 =
        .ended (.ok (.rows { r with cached := true })) := rfl

end SqlComposer
