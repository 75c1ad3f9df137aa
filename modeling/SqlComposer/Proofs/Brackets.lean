import SqlComposer.Connection.Program
import SqlComposer.Connection.Replay

/-!
# Every block is closed

What a program sends, in order, with the block that each START TRANSACTION, COMMIT and ROLLBACK
belongs to. A block that could be opened is closed once, behind all that its body has sent, and the
result of the body says how. Only a crash leaves blocks open.
-/

namespace SqlComposer

variable {σ α β : Type}

/-! ## What the driver hears -/

/-- A call of the driver with the answer to it. -/
abbrev Exchange := DriverCall × Except Error Output

/-- The connection, with a server that keeps all calls and answers. -/
def Connection.overheard (conn : Connection σ) : Connection (σ × List Exchange) where
  name := conn.name
  quoting := conn.quoting
  answer := fun call (server, log) =>
    let (answer, server) := conn.answer call server
    (answer, server, log ++ [(call, answer)])

/-- The session, with a server that has kept `log`. -/
def Session.hearing (s : Session σ) (log : List Exchange) : Session (σ × List Exchange) where
  server := (s.server, log)
  cache := s.cache
  now := s.now
  events := s.events

/-- One call, and who made it. -/
inductive Sent where
  /-- A statement of the code itself. -/
  | statement (call : DriverCall) (answer : Except Error Output)
  | start (level : Option IsolationLevel) (answer : Except Error Output)
  | commit (answer : Except Error Output)
  | rollback (answer : Except Error Output)

/-- How a transaction is started, with the isolation level that it asks for. -/
def IsolationLevel.opening : Option IsolationLevel → String
  | none => "START TRANSACTION"
  | some .readUncommitted => "START TRANSACTION ISOLATION LEVEL READ UNCOMMITTED"
  | some .readCommitted => "START TRANSACTION ISOLATION LEVEL READ COMMITTED"
  | some .repeatableRead => "START TRANSACTION ISOLATION LEVEL REPEATABLE READ"
  | some .serializable => "START TRANSACTION ISOLATION LEVEL SERIALIZABLE"

theorem beginSql_eq_opening (level : Option IsolationLevel) :
    beginSql level = IsolationLevel.opening level := by
  cases level with
  | none => rfl
  | some level => cases level <;> rfl

namespace Sent

def exchange : Sent → Exchange
  | statement call answer => (call, answer)
  | start level answer => (⟨.other, IsolationLevel.opening level, .assoc⟩, answer)
  | commit answer => (⟨.other, "COMMIT", .assoc⟩, answer)
  | rollback answer => (⟨.other, "ROLLBACK", .assoc⟩, answer)

/-- How many blocks are open behind a call, if it closes none that is not open. -/
def step (n : Nat) : Sent → Option Nat
  | statement _ _ => some n
  | start _ (.ok _) => some (n + 1)
  | start _ (.error _) => some n
  | commit _ | rollback _ => if n = 0 then none else some (n - 1)

/-- Every block is closed, and none before it is open. -/
def Nested (sents : List Sent) : Prop := sents.foldlM step 0 = some 0

end Sent

/-! ## Courses -/

/-- What code may send from a session on, what it comes to, and in which session. -/
abbrev Course (σ α : Type) := Session σ → List Sent → Outcome α × Session σ → Prop

namespace Course

def attempt (course : Course σ α) : Course σ (Except Error α) := fun s sents result =>
  ∃ outcome s', course s sents (outcome, s') ∧ result = (Outcome.attempt outcome, s')

def bind (course : Course σ α) (next : α → Course σ β) : Course σ β := fun s sents result =>
  (∃ before a s' behind, sents = before ++ behind ∧ course s before (.ok a, s') ∧
      next a s' behind result) ∨
    ∃ e s', course s sents (.error e, s') ∧ result = (.error e, s')

end Course

def Failure.isCrash : Failure → Bool
  | .error _ => false
  | _ => true

variable (conn : Connection σ)

/-- The driver gives this answer to this call, and the session goes from `s` to `s'`. -/
def Connection.Answers (sent : Sent) (s s' : Session σ) : Prop :=
  conn.ask sent.exchange.1 s = (sent.exchange.2, s')

/-- The last call of a block, by what its body has come to, and what the block comes to: its value,
or an error that leaves the code around it too. -/
inductive Connection.Closes : Outcome α → Session σ → Sent →
    Outcome (Except Error α) × Session σ → Prop
  | committed {a : α} {ended : Output} {s s' : Session σ}
      (hend : conn.Answers (.commit (.ok ended)) s s') :
      Closes (.ok a) s (.commit (.ok ended)) (.ok (.ok a), s')
  | uncommitted {a : α} {e : Error} {s s' : Session σ}
      (hend : conn.Answers (.commit (.error e)) s s') :
      Closes (.ok a) s (.commit (.error e)) (.error (.error e), s')
  | undone {e : Error} {ended : Output} {s s' : Session σ}
      (hend : conn.Answers (.rollback (.ok ended)) s s') :
      Closes (.error (.error e)) s (.rollback (.ok ended)) (.ok (.error e), s')
  /-- When ROLLBACK fails too, the error names both. -/
  | stuck {e r : Error} {s s' : Session σ} (hend : conn.Answers (.rollback (.error r)) s s') :
      Closes (.error (.error e)) s (.rollback (.error r))
        (.ok (.error (.other (e.message ++ " (rollback failed: " ++ r.message ++ ")"))), s')

/-- A block that could be opened sends what its body sends, and then one last call. -/
inductive Course.Block (level : Option IsolationLevel) (body : Course σ α) (s : Session σ) :
    List Sent → Outcome (Except Error α) × Session σ → Prop
  /-- Nothing is sent behind a START TRANSACTION that fails. -/
  | refused {e : Error} {s₁ : Session σ} (hstart : conn.Answers (.start level (.error e)) s s₁) :
      Block level body s [.start level (.error e)] (.error (.error e), s₁)
  | closed {started : Output} {inner : List Sent} {outcome : Outcome α} {closing : Sent}
      {s₁ s₂ : Session σ} {r : Outcome (Except Error α) × Session σ}
      (hstart : conn.Answers (.start level (.ok started)) s s₁)
      (hbody : body s₁ inner (outcome, s₂)) (hend : conn.Closes outcome s₂ closing r) :
      Block level body s (.start level (.ok started) :: (inner ++ [closing])) r
  /-- Nothing is sent behind a crash. -/
  | crashed {started : Output} {inner : List Sent} {crash : Failure} {s₁ s₂ : Session σ}
      (hstart : conn.Answers (.start level (.ok started)) s s₁)
      (hbody : body s₁ inner (.error crash, s₂)) (hcrash : crash.isCrash = true) :
      Block level body s (.start level (.ok started) :: inner) (.error crash, s₂)

/-- An execution sends nothing, or the rendered statement once. -/
inductive Statement.Sends (statement : Statement) (cells : Cells) (s : Session σ) :
    List Sent → Outcome Output × Session σ → Prop
  | unrendered {e : Failure} (h : statement.toSql (cells.context conn.quoting) = .error e) :
      Sends statement cells s [] (.error e, s)
  | served {sql : String} {rows : List Row} {cache : Option MemoryCache}
      (h : statement.toSql (cells.context conn.quoting) = .ok sql)
      (hprobe : (statement.job conn.name sql).probe s.now s.cache = (some rows, cache)) :
      Sends statement cells s [] ((statement.job conn.name sql).run conn s)
  | asked {sql : String} {cache : Option MemoryCache}
      (h : statement.toSql (cells.context conn.quoting) = .ok sql)
      (hprobe : (statement.job conn.name sql).probe s.now s.cache = (none, cache)) :
      Sends statement cells s
        [.statement (statement.job conn.name sql).call
          (conn.ask (statement.job conn.name sql).call s).1]
        ((statement.job conn.name sql).run conn s)

def Program.course {α : Type} : Program α → Course σ α
  | .done result => fun s sents r => sents = [] ∧ r = (result.mapError .error, s)
  | .call c next => fun s sents r =>
    ∃ answer s' behind, conn.Answers (.statement c answer) s s' ∧
      sents = .statement c answer :: behind ∧ (next answer).course s' behind r
  | .execute statement cells next =>
    (Course.attempt (statement.Sends conn cells)).bind fun result => (next result).course
  | .attempt inner next => inner.course.attempt.bind fun result => (next result).course
  | .transaction level body next =>
    Course.bind (.Block conn level body.course) fun result => (next result).course

variable {conn}

/-! ## Blocks, one by one -/

namespace Connection

variable {s s' : Session σ}

theorem exists_answers (conn : Connection σ) (who : Except Error Output → Sent) {call : DriverCall}
    (hwho : ∀ answer, (who answer).exchange = (call, answer)) (s : Session σ) :
    ∃ answer s', conn.Answers (who answer) s s' := by
  refine ⟨(conn.ask call s).1, (conn.ask call s).2, ?_⟩
  rw [Answers, hwho]

theorem answers_unique {sent sent' : Sent} {s₁ s₂ : Session σ} (h : conn.Answers sent s s₁)
    (h' : conn.Answers sent' s s₂) (hcall : sent.exchange.1 = sent'.exchange.1) :
    (sent.exchange.2, s₁) = (sent'.exchange.2, s₂) := by
  unfold Answers at h h'
  rw [← h, ← h', hcall]

theorem answers_overheard {sent : Sent} (h : conn.Answers sent s s') (log : List Exchange) :
    conn.overheard.Answers sent (s.hearing log) (s'.hearing (log ++ [sent.exchange])) := by
  unfold Answers at h ⊢
  have hask : conn.overheard.ask sent.exchange.1 (s.hearing log) =
      ((conn.ask sent.exchange.1 s).1, (conn.ask sent.exchange.1 s).2.hearing
        (log ++ [(sent.exchange.1, (conn.ask sent.exchange.1 s).1)])) := rfl
  rw [hask, h]

theorem send_of_ask {sql : String} {answer : Except Error Output}
    (h : conn.ask ⟨.other, sql, .assoc⟩ s = (answer, s')) :
    conn.send sql s = (answer.map fun _ => (), s') := by
  unfold send
  rw [h]

theorem begin_of_answers {level : Option IsolationLevel} {answer : Except Error Output}
    (h : conn.Answers (.start level answer) s s') :
    conn.begin level s = (answer.map fun _ => (), s') := by
  rw [begin, beginSql_eq_opening]
  exact send_of_ask h

theorem commit_of_answers {answer : Except Error Output} (h : conn.Answers (.commit answer) s s') :
    conn.commit s = (answer.map fun _ => (), s') := send_of_ask h

theorem rollback_of_answers {answer : Except Error Output}
    (h : conn.Answers (.rollback answer) s s') :
    conn.rollback s = (answer.map fun _ => (), s') := send_of_ask h

end Connection

namespace Connection.Closes

variable {outcome : Outcome α} {s : Session σ} {closing closing' : Sent}
variable {r r' : Outcome (Except Error α) × Session σ}

theorem close_eq (h : conn.Closes outcome s closing r) : conn.close outcome s = r := by
  unfold Connection.close
  cases h with
  | committed hend | uncommitted hend => simp only [commit_of_answers hend, Except.map]
  | undone hend | stuck hend => simp only [undo, rollback_of_answers hend, Except.map]

theorem overheard (h : conn.Closes outcome s closing r) (log : List Exchange) :
    conn.overheard.Closes outcome (s.hearing log) closing
      (r.1, r.2.hearing (log ++ [closing.exchange])) := by
  cases h with
  | committed hend => exact .committed (answers_overheard hend log)
  | uncommitted hend => exact .uncommitted (answers_overheard hend log)
  | undone hend => exact .undone (answers_overheard hend log)
  | stuck hend => exact .stuck (answers_overheard hend log)

theorem unique (h : conn.Closes outcome s closing r) (h' : conn.Closes outcome s closing' r') :
    closing' = closing := by
  cases h <;> cases h' <;> grind [Answers, Sent.exchange]

/-- Every outcome but a crash has its closing. -/
theorem exists_closing (conn : Connection σ) (outcome : Outcome α) (s : Session σ) :
    (∃ closing r, conn.Closes outcome s closing r) ∨
      ∃ crash, outcome = .error crash ∧ crash.isCrash = true := by
  rcases outcome with f | a
  · cases f with
    | error e =>
      obtain ⟨ended, s', hend⟩ := conn.exists_answers .rollback (fun _ => rfl) s
      cases ended with
      | ok ended => exact .inl ⟨_, _, .undone hend⟩
      | error r => exact .inl ⟨_, _, .stuck hend⟩
    | _ => exact .inr ⟨_, rfl, rfl⟩
  · obtain ⟨ended, s', hend⟩ := conn.exists_answers .commit (fun _ => rfl) s
    cases ended with
    | ok ended => exact .inl ⟨_, _, .committed hend⟩
    | error e => exact .inl ⟨_, _, .uncommitted hend⟩

theorem not_crash {crash : Failure} (hcrash : crash.isCrash = true) :
    ¬ conn.Closes (.error crash : Outcome α) s closing r := by
  intro h
  cases h <;> exact nomatch hcrash

end Connection.Closes

namespace Course.Block

variable {level : Option IsolationLevel} {course : Course σ α} {action : Action σ α}
variable {s : Session σ} {sents sents' : List Sent} {r r' : Outcome (Except Error α) × Session σ}

theorem exists_result (hbody : ∀ s, ∃ inner r, course s inner r) (s : Session σ) :
    ∃ sents r, Block conn level course s sents r := by
  obtain ⟨started, s₁, hstart⟩ := conn.exists_answers (.start level) (fun _ => rfl) s
  cases started with
  | error e => exact ⟨_, _, .refused hstart⟩
  | ok started =>
    obtain ⟨inner, ⟨outcome, s₂⟩, hinner⟩ := hbody s₁
    rcases Connection.Closes.exists_closing conn outcome s₂ with
      ⟨closing, r, hend⟩ | ⟨crash, rfl, hcrash⟩
    · exact ⟨_, _, .closed hstart hinner hend⟩
    · exact ⟨_, _, .crashed hstart hinner hcrash⟩

theorem run_eq (h : Block conn level course s sents r)
    (hbody : ∀ {s inner r}, course s inner r → action s = r) : conn.block level action s = r := by
  unfold Connection.block
  cases h with
  | refused hstart => simp only [Connection.begin_of_answers hstart, Except.map]
  | closed hstart hinner hend =>
    simp only [Connection.begin_of_answers hstart, Except.map, hbody hinner, hend.close_eq]
  | @crashed _ _ crash _ _ hstart hinner hcrash =>
    simp only [Connection.begin_of_answers hstart, Except.map, hbody hinner]
    cases crash with
    | error e => exact nomatch hcrash
    | _ => rfl

/-- The rules hold on the overheard connection too, behind what its server has heard before. -/
theorem overheard {hears : Action (σ × List Exchange) α} (h : Block conn level course s sents r)
    (hbody : ∀ {s inner r}, course s inner r → ∀ log,
      hears (s.hearing log) = (r.1, r.2.hearing (log ++ inner.map Sent.exchange)))
    (log : List Exchange) :
    conn.overheard.block level hears (s.hearing log) =
      (r.1, r.2.hearing (log ++ sents.map Sent.exchange)) := by
  suffices hblock : Block conn.overheard level (fun s _ r => hears s = r) (s.hearing log) sents
      (r.1, r.2.hearing (log ++ sents.map Sent.exchange)) from run_eq hblock id
  cases h with
  | refused hstart => exact .refused (conn.answers_overheard hstart log)
  | @closed started inner outcome closing _ _ _ hstart hinner hend =>
    have hlog : log ++ (.start level (.ok started) :: (inner ++ [closing])).map Sent.exchange =
        log ++ [Sent.exchange (.start level (.ok started))] ++ inner.map Sent.exchange ++
          [closing.exchange] := by simp
    rw [hlog]
    exact .closed (conn.answers_overheard hstart log) (hbody hinner _) (hend.overheard _)
  | crashed hstart hinner hcrash =>
    rw [List.map_cons, List.append_cons]
    exact .crashed (conn.answers_overheard hstart log) (hbody hinner _) hcrash

theorem unique (h : Block conn level course s sents r) (h' : Block conn level course s sents' r')
    (hbody : ∀ {s inner r inner' r'}, course s inner r → course s inner' r' →
      inner' = inner ∧ r' = r) : sents' = sents := by
  cases h with
  | refused hstart =>
    cases h' with
    | refused hstart' => cases Connection.answers_unique hstart hstart' rfl; rfl
    | closed hstart' => cases Connection.answers_unique hstart hstart' rfl
    | crashed hstart' => cases Connection.answers_unique hstart hstart' rfl
  | closed hstart hinner hend =>
    cases h' with
    | refused hstart' => cases Connection.answers_unique hstart hstart' rfl
    | closed hstart' hinner' hend' =>
      cases Connection.answers_unique hstart hstart' rfl
      obtain ⟨rfl, heq⟩ := hbody hinner hinner'
      cases heq
      rw [hend.unique hend']
    | crashed hstart' hinner' hcrash' =>
      cases Connection.answers_unique hstart hstart' rfl
      cases (hbody hinner hinner').2
      exact absurd hend (Connection.Closes.not_crash hcrash')
  | crashed hstart hinner hcrash =>
    cases h' with
    | refused hstart' => cases Connection.answers_unique hstart hstart' rfl
    | closed hstart' hinner' hend' =>
      cases Connection.answers_unique hstart hstart' rfl
      cases (hbody hinner hinner').2
      exact absurd hend' (Connection.Closes.not_crash hcrash)
    | crashed hstart' hinner' hcrash' =>
      cases Connection.answers_unique hstart hstart' rfl
      rw [(hbody hinner hinner').1]

end Course.Block

/-! ## The rules are the run -/

/-- The rules of `course` leave `action` no choice, and `hears` is the same action when the server
keeps what it hears. -/
structure Course.Describes (course : Course σ α) (action : Action σ α)
    (hears : Action (σ × List Exchange) α) : Prop where
  exists_result : ∀ s, ∃ sents r, course s sents r
  run_eq : ∀ {s sents r}, course s sents r → action s = r
  overheard : ∀ {s sents r}, course s sents r → ∀ log,
    hears (s.hearing log) = (r.1, r.2.hearing (log ++ sents.map Sent.exchange))
  unique : ∀ {s sents r sents' r'}, course s sents r → course s sents' r' → sents' = sents

namespace Course.Describes

variable {course : Course σ α} {action : Action σ α} {hears : Action (σ × List Exchange) α}

theorem attempt (h : course.Describes action hears) :
    course.attempt.Describes action.attempt hears.attempt where
  exists_result s := by
    obtain ⟨sents, r, hcourse⟩ := h.exists_result s
    exact ⟨sents, _, _, _, hcourse, rfl⟩
  run_eq := by
    rintro s sents r ⟨outcome, s', hcourse, rfl⟩
    simp only [Action.attempt, h.run_eq hcourse]
  overheard := by
    rintro s sents r ⟨outcome, s', hcourse, rfl⟩ log
    simp only [Action.attempt, h.overheard hcourse log]
  unique := by
    rintro s sents r sents' r' ⟨_, _, hcourse, -⟩ ⟨_, _, hcourse', -⟩
    exact h.unique hcourse hcourse'

theorem bind (h : course.Describes action hears) {next : α → Course σ β}
    {go : α → Action σ β} {goHearing : α → Action (σ × List Exchange) β}
    (hnext : ∀ a, (next a).Describes (go a) (goHearing a)) :
    (course.bind next).Describes (action.bind go) (hears.bind goHearing) where
  exists_result s := by
    obtain ⟨sents, ⟨outcome, s'⟩, hcourse⟩ := h.exists_result s
    cases outcome with
    | error e => exact ⟨sents, _, .inr ⟨e, s', hcourse, rfl⟩⟩
    | ok a =>
      obtain ⟨behind, r, hbehind⟩ := (hnext a).exists_result s'
      exact ⟨_, r, .inl ⟨sents, a, s', behind, rfl, hcourse, hbehind⟩⟩
  run_eq := by
    rintro s sents r (⟨before, a, s', behind, rfl, hbefore, hbehind⟩ | ⟨e, s', hleft, rfl⟩)
    · simp only [Action.bind, h.run_eq hbefore, (hnext a).run_eq hbehind]
    · simp only [Action.bind, h.run_eq hleft]
  overheard := by
    rintro s sents r (⟨before, a, s', behind, rfl, hbefore, hbehind⟩ | ⟨e, s', hleft, rfl⟩) log
    · simp only [Action.bind, h.overheard hbefore, (hnext a).overheard hbehind, List.map_append,
        List.append_assoc]
    · simp only [Action.bind, h.overheard hleft]
  unique := by
    rintro s sents r sents' r' (⟨before, a, s₁, behind, rfl, hbefore, hbehind⟩ | ⟨e, s₁, hleft, -⟩)
      (⟨before', a', s₂, behind', rfl, hbefore', hbehind'⟩ | ⟨e', s₂, hleft', -⟩)
    · have heq := (h.run_eq hbefore).symm.trans (h.run_eq hbefore')
      cases heq
      rw [h.unique hbefore hbefore', (hnext a).unique hbehind hbehind']
    · have heq := (h.run_eq hbefore).symm.trans (h.run_eq hleft')
      cases heq
    · have heq := (h.run_eq hleft).symm.trans (h.run_eq hbefore')
      cases heq
    · exact h.unique hleft hleft'

theorem block (h : course.Describes action hears) (level : Option IsolationLevel) :
    Course.Describes (.Block conn level course) (conn.block level action)
      (conn.overheard.block level hears) where
  exists_result := Block.exists_result h.exists_result
  run_eq hblock := hblock.run_eq h.run_eq
  overheard hblock := hblock.overheard h.overheard
  unique hblock hblock' := hblock.unique hblock' fun hinner hinner' =>
    ⟨h.unique hinner hinner', (h.run_eq hinner').symm.trans (h.run_eq hinner)⟩

end Course.Describes

namespace Job

variable {job : Job} {s : Session σ} {cache : Option MemoryCache}

theorem run_overheard_of_hit {rows : List Row}
    (h : job.probe s.now s.cache = (some rows, cache)) (log : List Exchange) :
    job.run conn.overheard (s.hearing log) =
      ((job.run conn s).1, (job.run conn s).2.hearing log) := by
  have hhearing : job.probe (s.hearing log).now (s.hearing log).cache = (some rows, cache) := h
  unfold run
  rw [h, hhearing]
  rfl

theorem run_overheard_of_miss (h : job.probe s.now s.cache = (none, cache)) (log : List Exchange) :
    job.run conn.overheard (s.hearing log) =
      ((job.run conn s).1,
        (job.run conn s).2.hearing (log ++ [(job.call, (conn.ask job.call s).1)])) := by
  rcases hanswer : conn.answer job.call s.server with ⟨answer, server⟩
  unfold run
  simp only [h, Connection.ask, Connection.overheard, Session.log, Session.hearing, hanswer]
  cases answer with
  | error e => rfl
  | ok output =>
    dsimp only
    cases job.store s.now output cache <;> rfl

end Job

namespace Statement.Sends

variable {statement : Statement} {cells : Cells} {s : Session σ} {sents sents' : List Sent}
variable {r r' : Outcome Output × Session σ}

theorem exists_result (statement : Statement) (cells : Cells) (s : Session σ) :
    ∃ sents r, statement.Sends conn cells s sents r := by
  cases hsql : statement.toSql (cells.context conn.quoting) with
  | error e => exact ⟨_, _, .unrendered hsql⟩
  | ok sql =>
    cases hprobe : (statement.job conn.name sql).probe s.now s.cache with
    | mk rows cache =>
      cases rows with
      | none => exact ⟨_, _, .asked hsql hprobe⟩
      | some rows => exact ⟨_, _, .served hsql hprobe⟩

theorem run_eq (h : statement.Sends conn cells s sents r) : statement.execute cells conn s = r := by
  unfold Statement.execute
  cases h with
  | unrendered h => rw [h]
  | served h hprobe => rw [h]
  | asked h hprobe => rw [h]

theorem overheard (h : statement.Sends conn cells s sents r) (log : List Exchange) :
    statement.execute cells conn.overheard (s.hearing log) =
      (r.1, r.2.hearing (log ++ sents.map Sent.exchange)) := by
  have hquoting : conn.overheard.quoting = conn.quoting := rfl
  have hname : conn.overheard.name = conn.name := rfl
  unfold Statement.execute
  rw [hquoting, hname]
  cases h with
  | unrendered h => simp only [h, List.map_nil, List.append_nil]
  | served h hprobe =>
    simp only [h, Job.run_overheard_of_hit hprobe, List.map_nil, List.append_nil]
  | asked h hprobe =>
    simp only [h, Job.run_overheard_of_miss hprobe]
    rfl

theorem unique (h : statement.Sends conn cells s sents r)
    (h' : statement.Sends conn cells s sents' r') : sents' = sents := by
  cases h <;> cases h' <;> grind

theorem describes (statement : Statement) (cells : Cells) :
    Course.Describes (statement.Sends conn cells) (statement.execute cells conn)
      (statement.execute cells conn.overheard) where
  exists_result := exists_result statement cells
  run_eq := run_eq
  overheard := overheard
  unique := unique

end Statement.Sends

namespace Program

theorem describes_call {call : DriverCall} {next : Except Error Output → Program α}
    (ih : ∀ answer, ((next answer).course conn).Describes ((next answer).run conn)
      ((next answer).run conn.overheard)) :
    ((Program.call call next).course conn).Describes ((Program.call call next).run conn)
      ((Program.call call next).run conn.overheard) where
  exists_result s := by
    obtain ⟨answer, s', hanswer⟩ := conn.exists_answers (.statement call) (fun _ => rfl) s
    obtain ⟨behind, r, hbehind⟩ := (ih answer).exists_result s'
    exact ⟨_, r, answer, s', behind, hanswer, rfl, hbehind⟩
  run_eq := by
    rintro s sents r ⟨answer, s', behind, hanswer, rfl, hbehind⟩
    have hask : conn.ask call s = (answer, s') := hanswer
    simp only [run, hask, (ih answer).run_eq hbehind]
  overheard := by
    rintro s sents r ⟨answer, s', behind, hanswer, rfl, hbehind⟩ log
    have hask : conn.overheard.ask call (s.hearing log) =
        (answer, s'.hearing (log ++ [(call, answer)])) := conn.answers_overheard hanswer log
    simp only [run, hask, (ih answer).overheard hbehind]
    simp [Sent.exchange]
  unique := by
    rintro s sents r sents' r' ⟨answer, s₁, behind, hanswer, rfl, hbehind⟩
      ⟨answer', s₂, behind', hanswer', rfl, hbehind'⟩
    have hask : (answer, s₁) = (answer', s₂) := hanswer.symm.trans hanswer'
    cases hask
    rw [(ih answer).unique hbehind hbehind']

theorem describes_done (result : Except Error α) :
    ((done result).course conn).Describes ((done result).run conn)
      ((done result).run conn.overheard) where
  exists_result s := ⟨[], _, rfl, rfl⟩
  run_eq := by
    rintro s sents r ⟨rfl, rfl⟩
    rfl
  overheard := by
    rintro s sents r ⟨rfl, rfl⟩ log
    simp only [run, List.map_nil, List.append_nil]
  unique := by
    rintro s sents r sents' r' ⟨rfl, -⟩ ⟨rfl, -⟩
    rfl

theorem describes (conn : Connection σ) (p : Program α) :
    (p.course conn).Describes (p.run conn) (p.run conn.overheard) := by
  induction p with
  | done result => exact describes_done result
  | call c next ih => exact describes_call ih
  | execute statement cells next ih =>
    exact (Statement.Sends.describes statement cells).attempt.bind ih
  | attempt inner next ihInner ih => exact ihInner.attempt.bind ih
  | transaction level body next ihBody ih => exact (ihBody.block level).bind ih

end Program

/-! ## Nothing is closed that is not open -/

def Outcome.crashed : Outcome α → Bool
  | .ok _ => false
  | .error f => f.isCrash

theorem Outcome.crashed_attempt (outcome : Outcome α) :
    crashed (attempt outcome) = crashed outcome := by
  rcases outcome with f | a
  · cases f <;> rfl
  · rfl

namespace Connection.Closes

variable {outcome : Outcome α} {s : Session σ} {closing : Sent}
variable {r : Outcome (Except Error α) × Session σ}

theorem crashed_eq (h : conn.Closes outcome s closing r) : Outcome.crashed outcome = false := by
  cases h <;> rfl

theorem step_eq (h : conn.Closes outcome s closing r) (n : Nat) :
    Sent.step (n + 1) closing = some n := by
  cases h <;> rfl

end Connection.Closes

/-- Code closes what it opens, and nothing else. Only a crash leaves blocks open. -/
def Course.Nests (course : Course σ α) : Prop :=
  ∀ s sents r, course s sents r → ∀ n, ∃ k,
    sents.foldlM Sent.step n = some (n + k) ∧ (Outcome.crashed r.1 = false → k = 0)

namespace Course.Nests

variable {course : Course σ α}

theorem attempt (h : course.Nests) : course.attempt.Nests := by
  rintro s sents r ⟨outcome, s', hcourse, rfl⟩ n
  rw [Outcome.crashed_attempt]
  exact h s sents _ hcourse n

theorem bind (h : course.Nests) {next : α → Course σ β} (hnext : ∀ a, (next a).Nests) :
    (course.bind next).Nests := by
  rintro s sents r (⟨before, a, s', behind, rfl, hbefore, hbehind⟩ | ⟨e, s', hleft, rfl⟩) n
  · obtain ⟨k, hfold, hk⟩ := h s before _ hbefore n
    obtain rfl : k = 0 := hk rfl
    obtain ⟨m, hfold', hm⟩ := hnext a s' behind r hbehind n
    refine ⟨m, ?_, hm⟩
    rw [List.foldlM_append, hfold]
    exact hfold'
  · exact h s sents _ hleft n

/-- The blocks of the body stand one level higher, and the last call comes down again. -/
theorem block (h : course.Nests) (level : Option IsolationLevel) :
    Course.Nests (.Block conn level course) := by
  intro s sents r hblock n
  cases hblock with
  | refused hstart => exact ⟨0, rfl, fun _ => rfl⟩
  | @closed started inner outcome closing s₁ s₂ r hstart hbody hend =>
    obtain ⟨k, hfold, hk⟩ := h s₁ inner _ hbody (n + 1)
    obtain rfl : k = 0 := hk hend.crashed_eq
    refine ⟨0, ?_, fun _ => rfl⟩
    have hopening : Sent.step n (.start level (.ok started)) = some (n + 1) := rfl
    simp [hopening, hfold, hend.step_eq]
  | @crashed started inner crash s₁ s₂ hstart hbody hcrash =>
    obtain ⟨k, hfold, -⟩ := h s₁ inner _ hbody (n + 1)
    refine ⟨1 + k, ?_, fun hr => ?_⟩
    · rw [List.foldlM_cons, ← Nat.add_assoc]
      exact hfold
    · rw [Outcome.crashed, hcrash] at hr
      exact nomatch hr

theorem sends (statement : Statement) (cells : Cells) :
    Course.Nests (statement.Sends conn cells) := by
  intro s sents r hsends n
  cases hsends <;> exact ⟨0, rfl, fun _ => rfl⟩

end Course.Nests

theorem Program.nests (conn : Connection σ) (p : Program α) : (p.course conn).Nests := by
  induction p with
  | done result =>
    rintro s sents r ⟨rfl, -⟩ n
    exact ⟨0, rfl, fun _ => rfl⟩
  | call c next ih =>
    rintro s sents r ⟨answer, s', behind, -, rfl, hbehind⟩ n
    exact ih answer s' behind r hbehind n
  | execute statement cells next ih => exact (Course.Nests.sends statement cells).attempt.bind ih
  | attempt inner next ihInner ih => exact ihInner.attempt.bind ih
  | transaction level body next ihBody ih => exact (ihBody.block level).bind ih

/-- The driver hears what the rules of the program say and nothing else, with the outcome they say.
Unless the run crashes, all blocks are closed again, the inner ones first. -/
theorem Program.bracketed (p : Program α) (conn : Connection σ) (s : Session σ) :
    ∃ sents,
      p.run conn.overheard (s.hearing []) =
          ((p.run conn s).1, (p.run conn s).2.hearing (sents.map Sent.exchange)) ∧
        (∀ sents' r, p.course conn s sents' r ↔ sents' = sents ∧ r = p.run conn s) ∧
        (Outcome.crashed (p.run conn s).1 = false → Sent.Nested sents) := by
  have hp := p.describes conn
  obtain ⟨sents, r, hcourse⟩ := hp.exists_result s
  have hrun := hp.run_eq hcourse
  rw [hrun]
  refine ⟨sents, hp.overheard hcourse [], fun sents' r' => ⟨fun hcourse' => ?_, ?_⟩, fun hr => ?_⟩
  · exact ⟨hp.unique hcourse hcourse', (hp.run_eq hcourse').symm.trans hrun⟩
  · rintro ⟨rfl, rfl⟩
    exact hcourse
  · obtain ⟨k, hfold, hk⟩ := p.nests conn s sents r hcourse 0
    obtain rfl : k = 0 := hk hr
    exact hfold

/-- The body of the outer block catches the error of the inner one. -/
example :
    let inner : Program Unit := .transaction none (.done (.error (.other "no"))) .done
    let outer : Program Unit := .transaction none (.attempt inner fun _ => .done (.ok ())) .done
    let conn : Connection Replay := ⟨"", Dialect.standard.quoting "", Replay.answer⟩
    (outer.run conn ⟨⟨[], []⟩, none, 0, []⟩).2.server.calls.map (·.sql) =
      ["START TRANSACTION", "START TRANSACTION", "ROLLBACK", "COMMIT"] := rfl

end SqlComposer
