import Mathlib.Data.List.Infix
import SqlComposer.Postgres.Catalog
import SqlComposer.Proofs.Segmentation

/-!
# Calls of the catalog

A query of the catalog is a text with holes, and each of them is there once. The driver is called
with this text and a literal in each hole, whatever the names have in them. The cache has no part in
it.
-/

namespace SqlComposer

/-! ## Holes -/

/-- The key stands in the text once, between `before` and `after`. -/
def Text.Once (key text before after : String) : Prop :=
  ∀ u v : String, text = u ++ key ++ v ↔ u = before ∧ v = after

namespace Text

/-- The key that is met, if it is no character. -/
def Met.key? : Met → Option String
  | .char _ => none
  | .key k => some k

theorem Met.write_of_key?_none {ms : List Met} (h : ∀ m ∈ ms, m.key? = none) :
    ∃ plain : String, ∀ texts, ms.flatMap (Met.write texts) = plain.toList := by
  induction ms with
  | nil => exact ⟨"", fun _ => rfl⟩
  | cons m ms ih =>
    rw [List.forall_mem_cons] at h
    obtain ⟨plain, hplain⟩ := ih h.2
    cases m with
    | char c =>
      refine ⟨String.ofList (c :: plain.toList), fun texts => ?_⟩
      rw [List.flatMap_cons, hplain, String.toList_ofList]
      rfl
    | key k => exact nomatch h.1

/-- What is met up to the first key is written as it is. -/
theorem Met.exists_hole {ms : List Met} {k : String} {ks : List String}
    (h : ms.filterMap Met.key? = k :: ks) :
    ∃ (plain : String) (rest : List Met), rest.filterMap Met.key? = ks ∧ ∀ texts,
      ms.flatMap (Met.write texts) =
        plain.toList ++ texts k ++ rest.flatMap (Met.write texts) := by
  obtain ⟨front, m, rest, rfl, hfront, hm, hrest⟩ := List.filterMap_eq_cons_iff.mp h
  obtain ⟨plain, hplain⟩ := Met.write_of_key?_none hfront
  cases m with
  | char c => exact nomatch hm
  | key k' =>
    obtain rfl := Option.some.inj hm
    refine ⟨plain, rest, hrest, fun texts => ?_⟩
    rw [List.flatMap_append, List.flatMap_cons, hplain, List.append_assoc]
    rfl

theorem Segments.flatMap_toList {keys : List String} {s : List Char} {ms : List Met}
    (h : Segments keys s ms) : ms.flatMap (Met.write String.toList) = s := by
  induction h with
  | nil => rfl
  | key _ _ _ _ ih => rw [List.flatMap_cons, ih]; rfl
  | char _ _ ih => rw [List.flatMap_cons, ih]; rfl

/-- The places of a key are where the ends of the text start with it. -/
theorem once_of_countP {key text before after : String} (htext : text = before ++ key ++ after)
    (hcount : text.toList.tails.countP (key.toList.isPrefixOf ·) = 1) :
    Once key text before after := by
  intro u v
  constructor
  · intro h
    rw [List.countP_eq_length_filter] at hcount
    obtain ⟨place, hplace⟩ := List.length_eq_one_iff.mp hcount
    have hmem {x y : String} (hxy : text = x ++ key ++ y) : key.toList ++ y.toList = place := by
      rw [← List.mem_singleton, ← hplace, List.mem_filter]
      refine ⟨(List.mem_tails _ _).mpr ⟨x.toList, ?_⟩, by simp⟩
      rw [hxy, String.toList_append, String.toList_append, List.append_assoc]
    have hv : v = after := by
      rw [← String.toList_inj, ← List.append_cancel_left_eq key.toList, hmem h, hmem htext]
    refine ⟨?_, hv⟩
    rw [hv, htext] at h
    simpa using h.symm
  · rintro ⟨rfl, rfl⟩
    exact htext

theorem replaceAll_toList (table : List Replacement) (text : String) :
    (replaceAll table text).toList = (meets (table.map (·.key)) 0 text.toList).flatMap
      (Met.write fun k => (((table.find? (·.key == k)).map (·.text)).getD "").toList) := by
  rw [replaceAll, String.toList_ofList]
  refine replaceFrom_eq table _ (fun r hr => ?_) 0 text.toList
  rw [hr]
  rfl

variable {k k' text : String}

/-- A pass that meets one key fills one hole. -/
theorem exists_hole (hmet : (meets [k] 0 text.toList).filterMap Met.key? = [k])
    (hcount : text.toList.tails.countP (k.toList.isPrefixOf ·) = 1) :
    ∃ head tail, Once k text head tail ∧
      ∀ t, replaceAll [⟨k, t⟩] text = head ++ t ++ tail := by
  obtain ⟨head, rest, hrest, hhead⟩ := Met.exists_hole hmet
  obtain ⟨tail, htail⟩ := Met.write_of_key?_none (List.filterMap_eq_nil_iff.mp hrest)
  simp only [htail] at hhead
  refine ⟨head, tail, once_of_countP ?_ hcount, fun t => ?_⟩
  · rw [← String.toList_inj, ← (segments_meets [k] text.toList).flatMap_toList, hhead]
    simp
  · rw [← String.toList_inj, replaceAll_toList]
    simp only [List.map_cons, List.map_nil, hhead]
    simp

/-- A pass that meets two keys fills two holes. -/
theorem exists_holes (hne : k ≠ k')
    (hmet : (meets [k, k'] 0 text.toList).filterMap Met.key? = [k, k'])
    (hcount : text.toList.tails.countP (k.toList.isPrefixOf ·) = 1)
    (hcount' : text.toList.tails.countP (k'.toList.isPrefixOf ·) = 1) :
    ∃ head middle tail, Once k text head (middle ++ k' ++ tail) ∧
      Once k' text (head ++ k ++ middle) tail ∧
      ∀ t t', replaceAll [⟨k, t⟩, ⟨k', t'⟩] text = head ++ t ++ middle ++ t' ++ tail := by
  obtain ⟨head, rest, hrest, hhead⟩ := Met.exists_hole hmet
  obtain ⟨middle, rest', hrest', hmiddle⟩ := Met.exists_hole hrest
  obtain ⟨tail, htail⟩ := Met.write_of_key?_none (List.filterMap_eq_nil_iff.mp hrest')
  simp only [hmiddle, htail] at hhead
  have htext : text = head ++ k ++ (middle ++ k' ++ tail) := by
    rw [← String.toList_inj, ← (segments_meets [k, k'] text.toList).flatMap_toList, hhead]
    simp
  refine ⟨head, middle, tail, once_of_countP htext hcount, once_of_countP ?_ hcount', ?_⟩
  · rw [htext]
    simp [String.append_assoc]
  · intro t t'
    rw [← String.toList_inj, replaceAll_toList]
    simp only [List.map_cons, List.map_nil, hhead]
    simp [hne]

end Text

/-! ## Calls -/

variable {σ α : Type}

/-- The session behind a call of the driver. The log has the call, and the error if that is the
answer. -/
def Session.called (s : Session σ) (call : DriverCall) (answer : Except Error Output) (server : σ) :
    Session σ :=
  let shown := Text.cut logLimit call.sql
  { s with
    server := server
    events := s.events ++ .executing call.kind shown ::
      match answer with
      | .ok _ => []
      | .error e => [.failed call.kind shown e.message] }

/-- The action calls the driver once, whatever is in the cache, and reads what it answers. Nothing
changes but the server and the log. -/
def Connection.OneCall (conn : Connection σ) (call : DriverCall)
    (read : ResultSet → Except Error α) (action : Action σ α) : Prop :=
  ∀ s : Session σ,
    let (answer, server) := conn.answer call s.server
    action s = ((answer.bind fun output => output.intoRows.bind read).mapError .error,
      s.called call answer server)

theorem Job.run_of_unkept {job : Job} (h : job.lifetime = none) (conn : Connection σ)
    (s : Session σ) :
    let (answer, server) := conn.answer job.call s.server
    job.run conn s = (answer.mapError .error, s.called job.call answer server) := by
  have hprobe : job.probe s.now s.cache = (none, s.cache) := by
    unfold probe
    rw [h]
  have hstore (output : Output) : job.store s.now output s.cache = .ok s.cache := by
    unfold store
    rw [h]
  unfold run
  rw [hprobe]
  cases hanswer : (conn.answer job.call s.server).1 with
  | error e =>
    simp only [Connection.ask, Session.log, Session.called, Job.shownSql, hanswer]
    rw [List.append_assoc]
    rfl
  | ok output =>
    simp only [Connection.ask, Session.log, Session.called, Job.shownSql, hanswer, hstore]
    rfl

/-- A statement without a lifetime has nothing to do with the cache. -/
theorem Statement.oneCall_fetch {st : Statement} {cells : Cells} {conn : Connection σ}
    {sql : String} (hsql : st.toSql (cells.context conn.quoting) = .ok sql)
    (hlifetime : st.request.options.lifetime = none) :
    conn.OneCall ⟨st.kind, sql, st.request.options.shape⟩ .ok (st.fetch cells conn) := by
  intro s
  have hkept : (st.job conn.name sql).lifetime = none := by
    unfold job
    rw [hlifetime]
    rfl
  have hcall : (st.job conn.name sql).call = ⟨st.kind, sql, st.request.options.shape⟩ := rfl
  unfold fetch execute
  simp only [hsql, Job.run_of_unkept hkept conn s, hcall]
  cases (conn.answer ⟨st.kind, sql, st.request.options.shape⟩ s.server).1 with
  | error e => rfl
  | ok output => cases output <;> rfl

theorem Connection.OneCall.reading {conn : Connection σ} {call : DriverCall}
    {fetch : Action σ ResultSet} (h : conn.OneCall call .ok fetch)
    (read : ResultSet → Except Error α) :
    conn.OneCall call read fun session =>
      match fetch session with
      | (.ok rows, session) => ((read rows).mapError .error, session)
      | (.error e, session) => (.error e, session) := by
  intro s
  simp only [h s]
  cases (conn.answer call s.server).1 with
  | error e => rfl
  | ok output => cases output <;> rfl

namespace Postgres

theorem tablesSql_hole : ∃ head tail, Text.Once ":like" tablesSql head tail ∧
    ∀ like, Text.replaceAll [⟨":like", like⟩] tablesSql = head ++ like ++ tail := by
  -- The kernel is slow to decode a long text, so the characters of each literal are written out.
  refine Text.exists_hole ?_ ?_ <;> unfold tablesSql <;>
    simp only [String.toList_append, String.reduceToList]
  · decide +kernel
  · decide +kernel

theorem columnsSql_holes : ∃ head middle tail,
    Text.Once ":table" columnsSql head (middle ++ ":like" ++ tail) ∧
    Text.Once ":like" columnsSql (head ++ ":table" ++ middle) tail ∧
    ∀ table like, Text.replaceAll [⟨":table", table⟩, ⟨":like", like⟩] columnsSql =
      head ++ table ++ middle ++ like ++ tail := by
  refine Text.exists_holes (by decide) ?_ ?_ ?_ <;> unfold columnsSql <;>
    simp only [String.toList_append, String.reduceToList]
  · decide +kernel
  · decide +kernel
  · decide +kernel

theorem toSql_tablesQuery (tablePrefix : String) (like : Option String) (cells : Cells) :
    (tablesQuery like).toSql (cells.context (quoting tablePrefix)) =
      .ok (Text.replaceAll [⟨":like", Dialect.standard.literal (like.getD "%")⟩] tablesSql) := rfl

theorem toSql_columnsQuery (tablePrefix table : String) (like : Option String) (cells : Cells) :
    (columnsQuery tablePrefix table like).toSql (cells.context (quoting tablePrefix)) =
      .ok (Text.replaceAll [⟨":table", Dialect.standard.literal (tablePrefix ++ table)⟩,
        ⟨":like", Dialect.standard.literal (like.getD "%")⟩] columnsSql) := rfl

/-- Either query of the catalog is a single call of the driver, with the literals in the holes of
its text. What the literals have in them is not looked at again, nor is the cache. -/
theorem catalog_calls (b : Backend σ) (settings : Settings) (table : String)
    (like : Option String) :
    let conn := connection b settings
    let literal := Dialect.standard.literal
    (∃ head tail, Text.Once ":like" tablesSql head tail ∧
      conn.OneCall ⟨.select, head ++ literal (like.getD "%") ++ tail, .assoc⟩
        (fun r => r.rows.mapM (textColumn · "table_name")) (listTables conn like)) ∧
    ∃ head middle tail,
      Text.Once ":table" columnsSql head (middle ++ ":like" ++ tail) ∧
      Text.Once ":like" columnsSql (head ++ ":table" ++ middle) tail ∧
      conn.OneCall
        ⟨.select, head ++ literal (settings.tablePrefix ++ table) ++ middle ++
          literal (like.getD "%") ++ tail, .assoc⟩
        (fun r => r.rows.mapM columnInfo) (listColumns conn table like) := by
  intro conn literal
  constructor
  · obtain ⟨head, tail, honce, hfill⟩ := tablesSql_hole
    have hsql := toSql_tablesQuery settings.tablePrefix like .empty
    rw [hfill] at hsql
    have hfetch : conn.OneCall _ .ok _ := Statement.oneCall_fetch hsql rfl
    exact ⟨head, tail, honce, hfetch.reading _⟩
  · obtain ⟨head, middle, tail, htable, hlike, hfill⟩ := columnsSql_holes
    have hsql := toSql_columnsQuery settings.tablePrefix table like .empty
    rw [hfill] at hsql
    have hfetch : conn.OneCall _ .ok _ := Statement.oneCall_fetch hsql rfl
    exact ⟨head, middle, tail, htable, hlike, hfetch.reading _⟩

end Postgres

end SqlComposer
