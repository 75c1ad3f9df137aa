import Mathlib.Tactic.TFAE
import SqlComposer.Proofs.Faithful
import SqlComposer.Proofs.Lookups
import SqlComposer.Proofs.Writes

/-!
# Lifetimes that end

Rows are stored with the moment at which their lifetime ends, and the clock may have no name for it.
Then the execution stops behind the call of its driver. A lifetime stops nobody up to a moment if it
is zero, or ends in time when it begins at that moment, and only then.
-/

namespace SqlComposer

variable {σ : Type}

/-! ## Rendering does without the clock -/

theorem Cells.text_ne_clockOverflow (cells : Cells) (q : Quoting) (depth : Nat) (id : CellId) :
    cells.text q depth id ≠ .error .clockOverflow := by
  induction depth generalizing id with
  | zero => simp [text]
  | succ depth ih =>
    intro h
    obtain ⟨next, hnext⟩ := (Value.asks q (cells.get id)).exists_crash (by simp) h
    exact ih next hnext

theorem Statement.toSql_ne_clockOverflow (s : Statement) (cells : Cells) (q : Quoting) :
    s.toSql (cells.context q) ≠ .error .clockOverflow := by
  intro h
  obtain ⟨id, hcell⟩ := (Statement.asks q s).exists_crash (by simp) h
  exact cells.text_ne_clockOverflow q _ id hcell

/-! ## One execution -/

namespace Job

variable {job : Job} {conn : Connection σ} {s : Session σ}

/-- The job has rows to store, and the clock cannot name the end of their lifetime. -/
def Overflows (job : Job) (now : Moment) (cache : Option MemoryCache) (output : Output) : Prop :=
  ∃ lifetime r, job.lifetime = some lifetime ∧ cache.isSome ∧ output = .rows r ∧
    clockEnd ≤ now + lifetime.nanos

theorem store_of_overflows {now : Moment} {cache : Option MemoryCache} {output : Output}
    (h : job.Overflows now cache output) : job.store now output cache = .error .clockOverflow := by
  obtain ⟨lifetime, r, hlifetime, hcache, rfl, hclock⟩ := h
  obtain ⟨c, rfl⟩ := Option.isSome_iff_exists.mp hcache
  unfold store
  simp only [hlifetime, c.set_eq_error job.key r.rows hclock]
  rfl

theorem exists_store {now : Moment} {cache : Option MemoryCache} {output : Output}
    (h : ¬ job.Overflows now cache output) : ∃ cache', job.store now output cache = .ok cache' := by
  unfold store
  cases hlifetime : job.lifetime with
  | none => exact ⟨cache, rfl⟩
  | some lifetime =>
    cases cache with
    | none => exact ⟨none, rfl⟩
    | some c =>
      cases output with
      | inserted id n => exact ⟨some c, rfl⟩
      | affected n => exact ⟨some c, rfl⟩
      | rows r =>
        have hclock : now + lifetime.nanos < clockEnd := by
          rw [← Nat.not_le]
          exact fun hend => h ⟨lifetime, r, hlifetime, rfl, rfl, hend⟩
        obtain ⟨c', hset⟩ := c.exists_set job.key r.rows hclock
        exact ⟨some c', by simp only [hset]; rfl⟩

theorem isSome_probe (job : Job) (now : Moment) (cache : Option MemoryCache) :
    (job.probe now cache).2.isSome = cache.isSome := by
  unfold probe
  split
  · split <;> rfl
  · rfl

theorem run_of_hit {rows : List Row} (h : (job.probe s.now s.cache).1 = some rows) :
    (job.run conn s).1 = .ok (.rows ⟨rows, 0, true⟩) := by
  unfold run
  rcases hprobe : job.probe s.now s.cache with ⟨found, cache⟩
  rw [hprobe] at h
  obtain rfl : found = some rows := h
  rfl

theorem run_of_failed (h : (job.probe s.now s.cache).1 = none) {error : Error}
    (hanswer : (conn.answer job.call s.server).1 = .error error) :
    (job.run conn s).1 = .error (.error error) := by
  unfold run
  rcases hprobe : job.probe s.now s.cache with ⟨found, cache⟩
  rw [hprobe] at h
  obtain rfl : found = none := h
  simp only [Connection.ask, Session.log, hanswer]

theorem run_of_answered (h : (job.probe s.now s.cache).1 = none) {output : Output}
    (hanswer : (conn.answer job.call s.server).1 = .ok output) :
    (job.run conn s).1 =
      (job.store s.now output (job.probe s.now s.cache).2).map fun _ => output := by
  unfold run
  rcases hprobe : job.probe s.now s.cache with ⟨found, cache⟩
  rw [hprobe] at h
  obtain rfl : found = none := h
  simp only [Connection.ask, Session.log, hanswer]
  cases job.store s.now output cache with
  | ok cache' => rfl
  | error failure => rfl

/-- The clock stops a job exactly if the driver gives rows that overflow it. -/
theorem run_eq_clockOverflow_iff : (job.run conn s).1 = .error .clockOverflow ↔
    (job.probe s.now s.cache).1 = none ∧
      ∃ output, (conn.answer job.call s.server).1 = .ok output ∧
        job.Overflows s.now s.cache output := by
  cases hprobe : (job.probe s.now s.cache).1 with
  | some rows => simp [run_of_hit hprobe]
  | none =>
    cases hanswer : (conn.answer job.call s.server).1 with
    | error failure => simp [run_of_failed hprobe hanswer]
    | ok output =>
      have hcache : job.Overflows s.now (job.probe s.now s.cache).2 output ↔
          job.Overflows s.now s.cache output := by
        unfold Overflows
        rw [isSome_probe]
      rw [run_of_answered hprobe hanswer]
      by_cases hover : job.Overflows s.now s.cache output
      · rw [store_of_overflows (hcache.mpr hover)]
        exact iff_of_true rfl ⟨rfl, output, rfl, hover⟩
      · obtain ⟨cache', hstore⟩ := exists_store (mt hcache.mp hover)
        rw [hstore]
        refine iff_of_false (fun h => nomatch h) ?_
        rintro ⟨-, output', houtput, hover'⟩
        obtain rfl := Except.ok.inj houtput
        exact hover hover'

end Job

/-- An execution overflows the clock exactly if its statement is rendered, no rows are in the cache
for it, and the driver gives rows that overflow it. -/
theorem Statement.execute_eq_clockOverflow_iff (st : Statement) (cells : Cells)
    (conn : Connection σ) (s : Session σ) :
    (st.execute cells conn s).1 = .error .clockOverflow ↔
      ∃ sql, st.toSql (cells.context conn.quoting) = .ok sql ∧
        ((st.job conn.name sql).probe s.now s.cache).1 = none ∧
        ∃ output, (conn.answer (st.job conn.name sql).call s.server).1 = .ok output ∧
          (st.job conn.name sql).Overflows s.now s.cache output := by
  unfold execute
  cases hsql : st.toSql (cells.context conn.quoting) with
  | error failure =>
    have hne : failure ≠ .clockOverflow := by
      rintro rfl
      exact st.toSql_ne_clockOverflow cells conn.quoting hsql
    simp [hne]
  | ok sql => simp [Job.run_eq_clockOverflow_iff]

/-! ## Up to a moment -/

/-- Rows may be kept that long, whenever that begins until `now`. -/
def Duration.Ends (l : Duration) (now : Moment) : Prop := l.nanos = 0 ∨ now + l.nanos < clockEnd

theorem Duration.Ends.lt {l : Duration} {now moment : Moment} (h : l.Ends now)
    (hmoment : moment ≤ now) (hpositive : 0 < l.nanos) : moment + l.nanos < clockEnd := by
  rcases h with hzero | hlt
  · rw [hzero] at hpositive
    exact absurd hpositive (Nat.lt_irrefl 0)
  · exact Nat.lt_of_le_of_lt (Nat.add_le_add_right hmoment _) hlt

/-- A SELECT whose lifetime ends is answered with the rows of the cache, or else of its driver. -/
theorem Statement.execute_of_ends {l : Duration} {now : Moment} (h : l.Ends now) {st : Statement}
    {cells : Cells} {conn : Connection σ} {s : Session σ} {sql : String} {r : ResultSet}
    (hkind : st.kind = .select) (hlifetime : st.request.options.lifetime = some l)
    (hnow : s.now ≤ now) (hsql : st.toSql (cells.context conn.quoting) = .ok sql)
    (hanswer : (conn.answer ⟨.select, sql, st.request.options.shape⟩ s.server).1 =
      .ok (.rows r)) :
    (st.execute cells conn s).1 = .ok (.rows
      ((((st.job conn.name sql).probe s.now s.cache).1.map
        fun rows => ⟨rows, 0, true⟩).getD r)) := by
  unfold Statement.execute
  simp only [hsql]
  cases hprobe : ((st.job conn.name sql).probe s.now s.cache).1 with
  | some rows => exact Job.run_of_hit hprobe
  | none =>
    have hcall : (st.job conn.name sql).call = ⟨.select, sql, st.request.options.shape⟩ := by
      unfold Statement.job
      rw [hkind]
    rw [← hcall] at hanswer
    have hfits : ¬ (st.job conn.name sql).Overflows s.now
        ((st.job conn.name sql).probe s.now s.cache).2 (.rows r) := by
      rintro ⟨l', r', hl', -, -, hlate⟩
      obtain ⟨hrequest, -, hpositive⟩ := keptFor_eq_some.mp hl'
      obtain rfl := Option.some.inj (hlifetime.symm.trans hrequest)
      exact absurd hlate (Nat.not_le.mpr (h.lt hnow hpositive))
    obtain ⟨cache', hstore⟩ := Job.exists_store hfits
    rw [Job.run_of_answered hprobe hanswer, hstore]
    rfl

/-- A query that overflows the clock as soon as its driver has answered. -/
theorem execute_overflowing {l : Duration} {now : Moment} (h : ¬ l.Ends now) :
    ((keptQuery "SELECT 1" l .assoc).execute .empty .replaying
      ⟨.rowless, some (.empty 1), now, []⟩).1 = .error .clockOverflow := by
  unfold Duration.Ends at h
  rw [not_or, Nat.not_lt] at h
  have hkind : Kind.ofSql "SELECT 1" = .select := by decide
  have hlifetime := lifetime_keptJob hkind (Nat.pos_of_ne_zero h.1) "" .assoc
  rw [execute_keptQuery, Job.run_eq_clockOverflow_iff]
  refine ⟨?_, .rows ⟨[], 0, false⟩, rfl, l, ⟨[], 0, false⟩, hlifetime, rfl, rfl, h.2⟩
  show ((keptJob "" "SELECT 1" l .assoc).probe now (some (.empty 1))).1 = none
  unfold Job.probe
  rw [hlifetime]
  rfl

namespace World

variable {ι : Type} [DecidableEq ι] {conn : Connection σ} {errands : ι → Errand}

/-- One who has all the turns does what it would do alone. -/
theorem run_replicate {w : World σ ι} {i : ι} {t : Turn σ} (hsession : t.session = w.session)
    (hphase : t.phase = w.phase i) (n : Nat) :
    (w.run conn errands (List.replicate n (.turn i))).session =
        ((errands i).turns conn n t).session ∧
      (w.run conn errands (List.replicate n (.turn i))).phase i =
        ((errands i).turns conn n t).phase := by
  induction n generalizing w t with
  | zero => exact ⟨hsession.symm, hphase.symm⟩
  | succ n ih =>
    rw [List.replicate_succ, Errand.turns, hsession, hphase]
    refine ih rfl ?_
    unfold move
    simp only [Function.update_self]

theorem Sound.not_clockOverflow {server : σ} {capacity : Nat} {w : World σ ι}
    (h : Sound conn errands server capacity w) {now : Moment} (hnow : w.session.now ≤ now)
    (hends : ∀ i l, (errands i).statement.request.options.lifetime = some l → l.Ends now) (i : ι) :
    w.phase i ≠ .ended (.error .clockOverflow) := by
  intro hphase
  have hstory := h.story i
  rw [hphase] at hstory
  cases hsql : (errands i).sql conn with
  | error failure =>
    obtain ⟨-, hready | hfailed⟩ := hstory.unrendered_cases hsql
    · exact nomatch hready
    · cases hfailed
      exact (errands i).statement.toSql_ne_clockOverflow _ _ hsql
  | ok sql =>
    rcases hstory.ended_cases hsql with ⟨_, -, hresult⟩ | ⟨_, -, hresult⟩ | ⟨_, -, hresult, -⟩ |
      ⟨_, lifetime, -, hover, hlifetime, -⟩
    · exact nomatch hresult
    · exact nomatch hresult
    · exact nomatch hresult
    · obtain ⟨moment, hdeed⟩ := mem_acts.mp hover
      obtain ⟨c, s, hlate⟩ := h.genuine.honest hdeed
      have hmoment := Nat.le_trans (h.past _ hdeed) hnow
      have hkept := keptFor_eq_some.mp hlifetime
      exact absurd hlate (Nat.not_le.mpr ((hends i lifetime hkept.1).lt hmoment hkept.2.2))

theorem run_overflowing {l : Duration} {now : Moment} (h : ¬ l.Ends now) :
    let w := (start .rowless 1 now).run .replaying
      (fun _ : Unit => ⟨keptQuery "SELECT 1" l .assoc, .empty⟩) (List.replicate 3 (.turn ()))
    w.session.now = now ∧ w.phase () = .ended (.error .clockOverflow) := by
  intro w
  let errand : Errand := ⟨keptQuery "SELECT 1" l .assoc, .empty⟩
  let alone : Turn Replay := ⟨⟨.rowless, some (.empty 1), now, []⟩, .ready, none⟩
  have hrun : w.session = (errand.turns .replaying 3 alone).session ∧
      w.phase () = (errand.turns .replaying 3 alone).phase := run_replicate rfl rfl 3
  obtain ⟨hphase, hsession⟩ := errand.turns_eq_execute .replaying alone.session
  constructor
  · rw [hrun.1, hsession, execute_keptQuery, Job.now_run]
  · rw [hrun.2, hphase, execute_overflowing h]

end World

/-- Until `now` a lifetime overflows no execution exactly if it is zero, or ends in time when it
begins then. Alone, a SELECT with this lifetime is answered with the rows of its driver or of the
cache. Side by side, whatever comes between the steps of executions, none of them is stopped. -/
theorem Duration.ends_tfae (l : Duration) (now : Moment) : List.TFAE [
    ∀ (σ : Type) (conn : Connection σ) (s : Session σ) (st : Statement) (cells : Cells)
      (sql : String) (r : ResultSet), st.kind = .select → st.request.options.lifetime = some l →
      s.cache.isSome → s.now ≤ now → st.toSql (cells.context conn.quoting) = .ok sql →
      (conn.answer ⟨.select, sql, st.request.options.shape⟩ s.server).1 = .ok (.rows r) →
        (st.execute cells conn s).1 = .ok (.rows
          ((((st.job conn.name sql).probe s.now s.cache).1.map
            fun rows => ⟨rows, 0, true⟩).getD r)),
    ∀ (σ ι : Type) [DecidableEq ι] (conn : Connection σ) (errands : ι → Errand) (server : σ)
      (capacity : Nat) (start : Moment) (moves : List (Move ι)),
      (∀ i, (errands i).statement.request.options.lifetime = some l) →
      ((World.start server capacity start).run conn errands moves).session.now ≤ now →
        ∀ i, ((World.start server capacity start).run conn errands moves).phase i ≠
          .ended (.error .clockOverflow),
    l.nanos = 0 ∨ now + l.nanos < clockEnd] := by
  tfae_have 3 → 1 := by
    intro h σ conn s st cells sql r hkind hlifetime _ hnow hsql hanswer
    exact Statement.execute_of_ends h hkind hlifetime hnow hsql hanswer
  tfae_have 3 → 2 := by
    intro h σ ι _ conn errands server capacity start moves hlifetime hnow
    refine ((World.sound_start conn errands server capacity start).run moves).not_clockOverflow hnow
      fun i l' hl' => ?_
    obtain rfl := Option.some.inj ((hlifetime i).symm.trans hl')
    exact h
  tfae_have 1 → 3 := by
    intro h
    by_contra hlate
    have hkind : Kind.ofSql "SELECT 1" = .select := by decide
    have hsql := toSql_keptQuery "SELECT 1" l .assoc
      (Cells.empty.context Connection.replaying.quoting)
    have hok := h Replay .replaying ⟨.rowless, some (.empty 1), now, []⟩
      (keptQuery "SELECT 1" l .assoc) .empty "SELECT 1" ⟨[], 0, false⟩ hkind rfl rfl
      (Nat.le_refl now) hsql rfl
    rw [execute_overflowing hlate] at hok
    exact nomatch hok
  tfae_have 2 → 3 := by
    intro h
    by_contra hlate
    obtain ⟨hnow, hphase⟩ := World.run_overflowing hlate
    exact h Replay Unit .replaying _ .rowless 1 now _ (fun _ => rfl) hnow.le () hphase
  tfae_finish

/-- The longest lifetime of whole seconds overflows the clock at once, behind the call of the
driver. -/
theorem Duration.longest_overflows :
    ∃ l, Duration.ofParts? (Nat.pow 2 64 - 1) 0 = some l ∧
      let done := (keptQuery "SELECT 1" l .assoc).execute .empty .replaying
        ⟨.rowless, some (.empty 1), 0, []⟩
      done.1 = .error .clockOverflow ∧
        done.2.server = (Replay.answer ⟨.select, "SELECT 1", .assoc⟩ .rowless).2 := by
  refine ⟨.ofParts (Nat.pow 2 64 - 1) 0, by decide, execute_overflowing ?_, ?_⟩
  · unfold Duration.Ends
    decide
  · rw [execute_keptQuery, Job.server_run_of_miss rfl]
    rfl

end SqlComposer
