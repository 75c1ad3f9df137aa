import Mathlib.Tactic.TFAE
import SqlComposer.Connection.Replay
import SqlComposer.Proofs.Interleaving
import SqlComposer.Proofs.MainStatement
import SqlComposer.Proofs.Recency

/-!
# Writes in a WITH statement

A definition of a WITH statement may write, and the kind of the statement does not show it. Every
execution reaches the driver if the main statement writes, or if no rows are kept. Otherwise the
rows of one execution answer the next one, and what a definition would have written is lost.
-/

namespace SqlComposer

/-! ## WITH statements in parts -/

/-- A query that WITH puts in front: a head such as `gone AS `, and a body in parentheses. -/
structure Definition where
  head : List Char
  body : List Char
  head_items : ∀ s, Kind.Items false (head ++ '(' :: s) ('(' :: s)
  body_items : ∀ s, Kind.Items true (body ++ ')' :: s) (')' :: s)

def Definition.text (d : Definition) : List Char := ' ' :: (d.head ++ '(' :: (d.body ++ [')']))

structure WithStatement where
  keyword : List Char
  first : Definition
  others : List Definition
  main : List Char
  /-- The kind of the main statement. -/
  kind : Kind
  keyword_eq : keyword.map Char.toUpper = "WITH".toList
  leads : Kind.Leads main kind

namespace WithStatement

def othersText (others : List Definition) (main : List Char) : List Char :=
  others.flatMap (fun d => ',' :: d.text) ++ main

def sql (q : WithStatement) : String :=
  String.ofList (q.keyword ++ (q.first.text ++ othersText q.others q.main))

/-- One of the three words that write stands in front. -/
def Writes (s : List Char) : Prop :=
  ∃ kind ∈ [Kind.insert, .update, .delete], Kind.startsWith kind.keyword s = true

instance (s : List Char) : Decidable (Writes s) :=
  inferInstanceAs (Decidable (∃ kind ∈ [Kind.insert, .update, .delete], _))

end WithStatement

namespace Kind

theorem isPlain_comma (s : List Char) : IsPlain ',' s := by simp [IsPlain, startsWord]

theorem Items.definition (d : Definition) {s r : List Char} (rest : Items false s r) :
    Items false (d.text ++ s) r := by
  have hbody : Items true (d.body ++ ')' :: s) (')' :: s) := d.body_items s
  have hhead := (d.head_items (d.body ++ ')' :: s)).trans (.group hbody rest)
  have hitems := Items.plain (isPlain_blank _) hhead
  simpa [Definition.text] using hitems

theorem Items.definitions (others : List Definition) (main : List Char) :
    Items false (WithStatement.othersText others main) main := by
  induction others with
  | nil => exact .nil _ _
  | cons d others ih =>
    have hitems := Items.plain (isPlain_comma _) (Items.definition d ih)
    simpa [WithStatement.othersText] using hitems

theorem Leads.of_items {s r : List Char} {kind : Kind} (h : Items false s r) (hr : Leads r kind) :
    Leads s kind := by
  cases hr with
  | main items hw hend => exact .main (h.trans items) hw hend
  | none items => exact .none (h.trans items)

/-- What the definitions do has no influence on the kind. -/
theorem ofSql_withStatement (q : WithStatement) : ofSql q.sql = q.kind := by
  have hitems : Items false (q.first.text ++ WithStatement.othersText q.others q.main) q.main :=
    .definition q.first (.definitions q.others q.main)
  have hend : EndsWord (q.first.text ++ WithStatement.othersText q.others q.main) := by
    simp [EndsWord, Definition.text, continuesWord]
  have hscan : Scan 0 (q.keyword ++ (q.first.text ++ WithStatement.othersText q.others q.main)) 0
      (q.first.text ++ WithStatement.othersText q.others q.main) :=
    .word (isWord_with q.keyword_eq) hend (fun _ => not_isMain_with q.keyword_eq) (.nil _ _)
  unfold WithStatement.sql
  rw [ofSql_eq_firstMain? q.keyword_eq, hscan.firstMain?_eq,
    (q.leads.of_items hitems).firstMain?_eq]

end Kind

/-! ## What one execution does -/

variable {σ : Type}

/-- The connection, with a server that keeps the calls. -/
def Connection.recorded (conn : Connection σ) : Connection (σ × List DriverCall) where
  name := conn.name
  quoting := conn.quoting
  answer := fun call (server, calls) =>
    let (answer, server) := conn.answer call server
    (answer, server, calls ++ [call])

/-- A query written by hand, whose rows may be kept. -/
def keptQuery (sql : String) (lifetime : Duration) (shape : Shape) : Statement :=
  let request := Request.empty.apply (.cached lifetime)
  .raw { RawQuery.ofSql sql with request := request.apply (.shape shape) }

theorem toSql_keptQuery (sql : String) (lifetime : Duration) (shape : Shape) (ctx : Context) :
    (keptQuery sql lifetime shape).toSql ctx = .ok sql := by
  have htemplate : (keptQuery sql lifetime shape).template ctx = .ok ⟨sql, .ok []⟩ := rfl
  unfold Statement.toSql Template.fill
  rw [htemplate]
  exact congrArg Except.ok (Text.replaceAll_nil sql)

def keptJob (name sql : String) (lifetime : Duration) (shape : Shape) : Job where
  call := ⟨.ofSql sql, sql, shape⟩
  key := cacheKey name sql
  lifetime := keptFor (.ofSql sql) (some lifetime)
  force := false

theorem job_keptQuery (name sql : String) (lifetime : Duration) (shape : Shape) :
    (keptQuery sql lifetime shape).job name sql = keptJob name sql lifetime shape := rfl

theorem execute_keptQuery (sql : String) (lifetime : Duration) (shape : Shape) (cells : Cells)
    (conn : Connection σ) (s : Session σ) :
    (keptQuery sql lifetime shape).execute cells conn s =
      (keptJob conn.name sql lifetime shape).run conn s := by
  unfold Statement.execute
  rw [toSql_keptQuery, ← job_keptQuery]

theorem keptFor_of_select {lifetime : Duration} (h : 0 < lifetime.nanos) :
    keptFor .select (some lifetime) = some lifetime := by
  simp [keptFor, h]

theorem keptFor_eq_none_iff {kind : Kind} {lifetime : Duration} :
    keptFor kind (some lifetime) = none ↔ kind ≠ .select ∨ lifetime.nanos = 0 := by
  unfold keptFor
  rw [Option.filter_eq_none_iff]
  constructor
  · intro h
    have hfails := h lifetime rfl
    rw [Bool.and_eq_true, decide_eq_true_eq, decide_eq_true_eq, not_and, Nat.pos_iff_ne_zero,
      not_not] at hfails
    exact or_iff_not_imp_left.mpr fun hkind => hfails (not_not.mp hkind)
  · rintro (hkind | hzero) l hl
    · simp [hkind]
    · obtain rfl := Option.some.inj hl
      simp [hzero]

theorem lifetime_keptJob {sql : String} (hkind : Kind.ofSql sql = .select) {lifetime : Duration}
    (h : 0 < lifetime.nanos) (name : String) (shape : Shape) :
    (keptJob name sql lifetime shape).lifetime = some lifetime := by
  unfold keptJob
  rw [hkind, keptFor_of_select h]

/-- The driver was called once, and its answer is the answer. -/
structure Performed (call : DriverCall) (conn : Connection σ) (s : Session (σ × List DriverCall))
    (done : Outcome Output × Session (σ × List DriverCall)) : Prop where
  answer : done.1 = (conn.answer call s.server.1).1.mapError .error
  calls : done.2.server.2 = s.server.2 ++ [call]

namespace Job

variable {job : Job} {s : Session σ}

/-- Without a lifetime the cache is neither read nor written. -/
theorem performed_of_not_kept (h : job.lifetime = none) (conn : Connection σ)
    (s : Session (σ × List DriverCall)) :
    Performed job.call conn s (job.run conn.recorded s) := by
  rcases hanswer : conn.answer job.call s.server.1 with ⟨failure | output, server⟩
  · unfold Job.run Job.probe
    simp only [h, Connection.ask, Connection.recorded, Session.log, hanswer]
    exact ⟨by rw [hanswer]; rfl, rfl⟩
  · unfold Job.run Job.probe Job.store
    simp only [h, Connection.ask, Connection.recorded, Session.log, hanswer]
    exact ⟨by rw [hanswer]; rfl, rfl⟩

/-- Rows that the cache has answer, and the server notices nothing. -/
theorem server_run_of_hit {conn : Connection σ} {rows : List Row}
    (h : (job.probe s.now s.cache).1 = some rows) : (job.run conn s).2.server = s.server := by
  unfold Job.run
  rcases hprobe : job.probe s.now s.cache with ⟨found, cache⟩
  rw [hprobe] at h
  obtain rfl : found = some rows := h
  rfl

theorem server_run_of_miss {conn : Connection σ} (h : (job.probe s.now s.cache).1 = none) :
    (job.run conn s).2.server = (conn.answer job.call s.server).2 := by
  unfold Job.run
  rcases hprobe : job.probe s.now s.cache with ⟨found, cache⟩
  rw [hprobe] at h
  obtain rfl : found = none := h
  simp only [Connection.ask, Session.log]
  split
  · next hasked => rw [← (Prod.mk.inj hasked).2]
  · next hasked =>
    rw [← (Prod.mk.inj hasked).2]
    split <;> rfl

theorem now_run (job : Job) (conn : Connection σ) (s : Session σ) :
    (job.run conn s).2.now = s.now := by
  unfold Job.run
  rcases job.probe s.now s.cache with ⟨_ | rows, cache⟩
  · simp only [Connection.ask, Session.log]
    split
    · next hasked =>
      rw [← (Prod.mk.inj hasked).2]
    · next hasked =>
      rw [← (Prod.mk.inj hasked).2]
      split <;> rfl
  · rfl

/-- Rows that the driver gives are stored, and answer the next job with the same key as long as
they live. -/
theorem probe_of_stored {conn : Connection σ} {r : ResultSet} {server : σ} {c : MemoryCache}
    {l : Recency} {lifetime : Duration} (hlifetime : job.lifetime = some lifetime)
    (hprobe : job.probe s.now s.cache = (none, some c)) (hl : c.Represents l)
    (hroom : 0 < c.capacity) (hanswer : conn.answer job.call s.server = (.ok (.rows r), server))
    (hclock : s.now + lifetime.nanos < clockEnd) (hpositive : 0 < lifetime.nanos)
    {next : Job} (hkey : next.key = job.key) (hreads : next.lifetime.isSome = true)
    (hforce : next.force = false) {later : Moment} (hlater : later < s.now + lifetime.nanos) :
    (next.probe later (job.run conn s).2.cache).1 = some r.rows := by
  obtain ⟨c', hset, -, hc'⟩ := hl.set s.now job.key r.rows hclock
  have hcache : (job.run conn s).2.cache = some c' := by
    unfold Job.run
    simp only [hprobe, Connection.ask, Session.log, hanswer, Job.store, hlifetime, hset]
    rfl
  obtain ⟨kept, hkept⟩ := Option.isSome_iff_exists.mp hreads
  have hget : (c'.get later next.key).1 = some r.rows := by
    rw [hkey, (hc'.get later job.key).1]
    exact Recency.get_set hroom s.now job.key r.rows hpositive l hlater
  rw [hcache]
  unfold Job.probe
  simp only [hkept, hforce, hget]
  rfl

end Job

/-! ## Sessions -/

/-- The session behind an execution, when some time has passed. -/
def Session.pass (conn : Connection σ) (s : Session σ) (e : Errand × Duration) : Session σ :=
  let s := (e.1.statement.execute e.1.cells conn s).2
  { s with now := s.now + e.2.nanos }

def Session.after (conn : Connection σ) (s : Session σ) (earlier : List (Errand × Duration)) :
    Session σ :=
  earlier.foldl (pass conn) s

theorem Session.server_pass (conn : Connection σ) (s : Session σ) (e : Errand × Duration) :
    (s.pass conn e).server = (e.1.statement.execute e.1.cells conn s).2.server := rfl

theorem Session.pass_keptQuery (conn : Connection σ) (s : Session σ) (sql : String)
    (lifetime : Duration) (shape : Shape) (cells : Cells) (d : Duration) :
    s.pass conn (⟨keptQuery sql lifetime shape, cells⟩, d) =
      { ((keptJob conn.name sql lifetime shape).run conn s).2 with now := s.now + d.nanos } := by
  unfold Session.pass
  simp only [execute_keptQuery, Job.now_run]

/-- Rows that an execution stores answer the next one as long as they live. The server is called
for the first one only. -/
theorem server_execute_again {sql : String} (hkind : Kind.ofSql sql = .select)
    {conn : Connection σ} {s s' : Session σ} {c : MemoryCache} {l : Recency}
    (hcache : s.cache = some c) (hl : c.Represents l) (hroom : 0 < c.capacity)
    (hmiss : c.get s.now (cacheKey conn.name sql) = (none, c)) {shape : Shape} {r : ResultSet}
    {server : σ} (hanswer : conn.answer ⟨.select, sql, shape⟩ s.server = (.ok (.rows r), server))
    {first : Duration} (hfirst : 0 < first.nanos) (hclock : s.now + first.nanos < clockEnd)
    {d : Duration} (hd : d.nanos < first.nanos) {cells : Cells}
    (hs' : s' = s.pass conn (⟨keptQuery sql first shape, cells⟩, d)) {lifetime : Duration}
    (hlifetime : 0 < lifetime.nanos) (shape' : Shape) (cells' : Cells) :
    s'.server = server ∧
      ((keptQuery sql lifetime shape').execute cells' conn s').2.server = server := by
  have hlife := lifetime_keptJob hkind hfirst conn.name shape
  have hprobe : (keptJob conn.name sql first shape).probe s.now s.cache = (none, some c) := by
    unfold Job.probe
    rw [hlife, hcache]
    simp [keptJob, hmiss]
  have hcall : (keptJob conn.name sql first shape).call = ⟨.select, sql, shape⟩ := by
    unfold keptJob
    rw [hkind]
  have hhit : ((keptJob conn.name sql lifetime shape').probe s'.now s'.cache).1 = some r.rows := by
    have hreads : (keptJob conn.name sql lifetime shape').lifetime.isSome = true := by
      rw [lifetime_keptJob hkind hlifetime]
      rfl
    rw [hs', Session.pass_keptQuery]
    have hlater : s.now + d.nanos < s.now + first.nanos := Nat.add_lt_add_left hd s.now
    rw [← hcall] at hanswer
    refine Job.probe_of_stored hlife hprobe hl hroom hanswer hclock hfirst ?_ hreads ?_ hlater
    · rfl
    · rfl
  have hserver : s'.server = server := by
    rw [hs', Session.pass_keptQuery]
    simp only
    rw [Job.server_run_of_miss (congrArg Prod.fst hprobe), hcall, hanswer]
  rw [execute_keptQuery, Job.server_run_of_hit hhit]
  exact ⟨hserver, hserver⟩

/-- A driver that replays answers, under the first dialect. -/
def Connection.replaying : Connection Replay where
  name := ""
  quoting := Dialect.standard.quoting ""
  answer := Replay.answer

/-- The next call is answered with a table without rows. -/
def Replay.rowless : Replay := ⟨[.ok (.rows ⟨[], 0, false⟩)], []⟩

namespace WithStatement

/-- Executed with a lifetime for its rows, the statement reaches the driver. -/
def Reaches (q : WithStatement) (lifetime : Duration) (shape : Shape) (cells : Cells)
    (conn : Connection σ) (s : Session (σ × List DriverCall)) : Prop :=
  Performed ⟨q.kind, q.sql, shape⟩ conn s
    ((keptQuery q.sql lifetime shape).execute cells conn.recorded s)

/-- Behind an execution that stored its rows, a SELECT does not reach the driver. -/
theorem not_reaches_again {q : WithStatement} (hkind : q.kind = .select) {lifetime : Duration}
    (hlifetime : 0 < lifetime.nanos) (shape : Shape) (cells : Cells)
    {s : Session (Replay × List DriverCall)}
    (hs : s = .pass Connection.replaying.recorded ⟨(.rowless, []), some (.empty 1), 0, []⟩
      (⟨keptQuery q.sql ⟨1⟩ shape, cells⟩, ⟨0⟩)) :
    ¬ q.Reaches lifetime shape cells .replaying s := by
  have hsql : Kind.ofSql q.sql = .select := (Kind.ofSql_withStatement q).trans hkind
  obtain ⟨hserver, hagain⟩ := server_execute_again hsql rfl (.empty 1) Nat.one_pos rfl rfl
    Nat.one_pos (by decide) Nat.one_pos hs hlifetime shape cells
  rintro ⟨-, hcalls⟩
  rw [hagain, hserver] at hcalls
  simp at hcalls

/-- A statement with definitions reaches the driver on every execution exactly if its main
statement is no SELECT, or no rows are kept. -/
theorem reaches_tfae (q : WithStatement) (lifetime : Duration) (shape : Shape) (cells : Cells) :
    List.TFAE [
      ∀ (σ : Type) (conn : Connection σ) (s : Session (σ × List DriverCall)),
        q.Reaches lifetime shape cells conn s,
      ∀ (σ : Type) (conn : Connection σ) (server : σ) (capacity : Nat) (now : Moment)
        (earlier : List (Errand × Duration)),
        q.Reaches lifetime shape cells conn
          (.after conn.recorded ⟨(server, []), some (.empty capacity), now, []⟩ earlier),
      q.kind ≠ .select ∨ lifetime.nanos = 0] := by
  tfae_have 1 → 2 := by
    intro h σ conn server capacity now earlier
    exact h σ conn _
  tfae_have 2 → 3 := by
    intro h
    by_contra hnot
    rw [not_or, not_not, ← ne_eq, ← Nat.pos_iff_ne_zero] at hnot
    obtain ⟨hkind, hlifetime⟩ := hnot
    exact not_reaches_again hkind hlifetime shape cells rfl
      (h Replay .replaying .rowless 1 0 [(⟨keptQuery q.sql ⟨1⟩ shape, cells⟩, ⟨0⟩)])
  tfae_have 3 → 1 := by
    intro h σ conn s
    have hlifetime : (keptJob conn.name q.sql lifetime shape).lifetime = none := by
      unfold keptJob
      rw [Kind.ofSql_withStatement]
      exact keptFor_eq_none_iff.mpr h
    have hcall : (keptJob conn.name q.sql lifetime shape).call = ⟨q.kind, q.sql, shape⟩ := by
      unfold keptJob
      rw [Kind.ofSql_withStatement]
    unfold Reaches
    rw [execute_keptQuery, ← hcall]
    exact Job.performed_of_not_kept hlifetime conn s
  tfae_finish

/-- A deletion in front of a SELECT. -/
def gone : WithStatement where
  keyword := ['W', 'I', 'T', 'H']
  first :=
    { head := "gone AS ".toList
      body := "DELETE FROM t RETURNING id".toList
      head_items := by
        intro s
        refine .spaced (w := ['g', 'o', 'n', 'e']) (by decide) (by decide) ?_
        exact .spaced (w := ['A', 'S']) (by decide) (by decide) (.nil _ _)
      body_items := by
        intro s
        refine .spaced (w := "DELETE".toList) (by decide) (by simp) ?_
        refine .spaced (w := "FROM".toList) (by decide) (by simp) ?_
        refine .spaced (w := ['t']) (by decide) (by simp) ?_
        refine .spaced (w := "RETURNING".toList) (by decide) (by simp) ?_
        exact .word (w := ['i', 'd']) (by decide) (Kind.endsWord_closing s) (by simp) (.nil _ _) }
  others := []
  main := " SELECT id FROM gone".toList
  kind := .select
  keyword_eq := by decide
  leads := .main (w := "SELECT".toList) (.plain (Kind.isPlain_blank _) (.nil _ _))
    (by decide) (by decide)

/-- The same in front of another deletion. -/
def emptied : WithStatement :=
  { gone with
    main := " DELETE FROM u".toList
    kind := .delete
    leads := .main (w := "DELETE".toList) (.plain (Kind.isPlain_blank _) (.nil _ _))
      (by decide) (by decide) }

/-- A lifetime and an earlier execution make no difference to it. -/
theorem emptied_reaches :
    emptied.sql = "WITH gone AS (DELETE FROM t RETURNING id) DELETE FROM u" ∧
      emptied.Reaches ⟨1⟩ .assoc .empty .replaying
        (.after Connection.replaying.recorded ⟨(.rowless, []), some (.empty 1), 0, []⟩
          [(⟨keptQuery emptied.sql ⟨1⟩ .assoc, .empty⟩, ⟨0⟩)]) := by
  have hreaches := ((reaches_tfae emptied ⟨1⟩ .assoc .empty).out 1 2).mpr (Or.inl (by decide))
  exact ⟨by decide, hreaches Replay .replaying .rowless 1 0 _⟩

/-- Executed twice, the deletion is sent once. -/
theorem gone_sent_once :
    gone.sql = "WITH gone AS (DELETE FROM t RETURNING id) SELECT id FROM gone" ∧
      Writes gone.first.body ∧
      (Session.after .replaying ⟨.rowless, some (.empty 1), 0, []⟩
        [(⟨keptQuery gone.sql ⟨1⟩ .assoc, .empty⟩, ⟨0⟩),
          (⟨keptQuery gone.sql ⟨1⟩ .assoc, .empty⟩, ⟨0⟩)]).server.calls =
        [⟨.select, gone.sql, .assoc⟩] := by
  have hkind : Kind.ofSql gone.sql = .select := Kind.ofSql_withStatement gone
  refine ⟨by decide, by decide, ?_⟩
  rw [Session.after, List.foldl_cons, List.foldl_cons, List.foldl_nil, Session.server_pass]
  generalize hs : Session.pass .replaying ⟨.rowless, some (.empty 1), 0, []⟩ _ = s
  obtain ⟨-, hagain⟩ := server_execute_again hkind rfl (.empty 1) Nat.one_pos rfl rfl Nat.one_pos
    (by decide) Nat.one_pos hs.symm (Nat.one_pos : 0 < (Duration.mk 1).nanos) .assoc .empty
  rw [hagain]
  rfl

end WithStatement

end SqlComposer
