import SqlComposer.Postgres.Replay
import SqlComposer.Proofs.Columns
import SqlComposer.Proofs.Integers

/-!
# Decoding rows

What the text of a cell denotes in a column of a type, said without the reader. A query gives the
rows of the server, one for one, if every column finds a cell with a value in each of them. Or else
it gives no rows at all, but an error that names the first column without one in the first such row.
-/

namespace SqlComposer

/-! ## Results -/

/-- A list is cut at its head, or else its tail is cut. -/
theorem exists_cut_cons {α : Type} {P : List α → α → Prop} {a : α} {as : List α} :
    (∃ before x after, a :: as = before ++ x :: after ∧ P before x) ↔
      P [] a ∨ ∃ before x after, as = before ++ x :: after ∧ P (a :: before) x := by
  constructor
  · rintro ⟨before, x, after, hcut, h⟩
    cases before with
    | nil =>
      cases hcut
      exact .inl h
    | cons b before =>
      cases hcut
      exact .inr ⟨before, x, after, rfl, h⟩
  · rintro (h | ⟨before, x, after, rfl, h⟩)
    · exact ⟨[], a, as, rfl, h⟩
    · exact ⟨a :: before, x, after, rfl, h⟩

namespace Except

variable {ε δ α β : Type}

theorem map_eq_ok_iff {x : Except ε α} {f : α → β} {b : β} :
    x.map f = .ok b ↔ ∃ a, x = .ok a ∧ f a = b := by
  cases x <;> simp [Except.map]

theorem map_eq_error_iff {x : Except ε α} {f : α → β} {e : ε} :
    x.map f = .error e ↔ x = .error e := by
  cases x <;> simp [Except.map]

theorem mapError_eq_ok_iff {x : Except ε α} {f : ε → δ} {a : α} :
    x.mapError f = .ok a ↔ x = .ok a := by
  cases x <;> simp [Except.mapError]

theorem mapError_eq_error_iff {x : Except ε α} {f : ε → δ} {d : δ} :
    x.mapError f = .error d ↔ ∃ e, x = .error e ∧ d = f e := by
  cases x <;> simp [Except.mapError, eq_comm]

/-- The first failure counts. -/
theorem mapM_eq_error_iff {f : α → Except ε β} {as : List α} {e : ε} :
    as.mapM f = .error e ↔ ∃ before a after, as = before ++ a :: after ∧
      (∀ earlier ∈ before, ∃ b, f earlier = .ok b) ∧ f a = .error e := by
  induction as with
  | nil => simp [pure, Except.pure]
  | cons a as ih =>
    rw [List.mapM_cons, exists_cut_cons]
    simp only [List.forall_mem_cons, and_assoc]
    cases ha : f a with
    | error e' => simp [bind, Except.bind]
    | ok b =>
      have hrest : (do return b :: (← as.mapM f)) = .error e ↔ as.mapM f = .error e := by
        cases as.mapM f <;> simp [bind, Except.bind, pure, Except.pure]
      exact hrest.trans (by simp [ih])

theorem exists_mapM_eq_ok_iff {f : α → Except ε β} {as : List α} :
    (∃ bs, as.mapM f = .ok bs) ↔ ∀ a ∈ as, ∃ b, f a = .ok b := by
  induction as with
  | nil => simp [pure, Except.pure]
  | cons a as ih =>
    rw [List.forall_mem_cons, ← ih, List.mapM_cons]
    cases f a <;> cases as.mapM f <;> simp [bind, Except.bind, pure, Except.pure]

end Except

namespace Postgres

/-! ## Cells -/

def integerTypes : List String := ["int2", "int4", "int8", "oid"]

def floatTypes : List String := ["float4", "float8"]

/-- The value that a text denotes in a column of a type. -/
inductive Denotes (type : String) : String → Value → Prop where
  | true (h : type = "bool") : Denotes type "t" (.bool true)
  | false (h : type = "bool") : Denotes type "f" (.bool false)
  | int {raw : String} {n : Int64} (h : type ∈ integerTypes)
    (hn : Decimal.Writes raw.toList n.toInt) : Denotes type raw (.int n)
  | float {raw : String} {x : Float} (h : type ∈ floatTypes)
    (hx : Decimal.readFloat raw = .ok x) : Denotes type raw (.float x)
  | text {raw : String} (hbool : type ≠ "bool") (hint : type ∉ integerTypes)
    (hfloat : type ∉ floatTypes) : Denotes type raw (.text raw)

/-- What a cell holds: NULL in any column, or what its text denotes. -/
inductive Column.Holds (column : Column) : Option String → Value → Prop where
  | null : Holds column none .null
  | text {raw : String} {v : Value} (h : Denotes column.type raw v) : Holds column (some raw) v

theorem cellFormat_of_integer : ∀ type ∈ integerTypes, cellFormat type = .int := by decide

theorem cellFormat_of_float : ∀ type ∈ floatTypes, cellFormat type = .float := by decide

theorem cellFormat_of_text {type : String} (hbool : type ≠ "bool") (hint : type ∉ integerTypes)
    (hfloat : type ∉ floatTypes) : cellFormat type = .text :=
  (if_neg hbool).trans ((if_neg hint).trans (if_neg hfloat))

theorem cellFormat_cases (type : String) :
    (type = "bool" ∧ cellFormat type = .bool) ∨
      (type ∈ integerTypes ∧ cellFormat type = .int) ∨
      (type ∈ floatTypes ∧ cellFormat type = .float) ∨
      (type ≠ "bool" ∧ type ∉ integerTypes ∧ type ∉ floatTypes) ∧ cellFormat type = .text := by
  by_cases hbool : type = "bool"
  · exact .inl ⟨hbool, if_pos hbool⟩
  by_cases hint : type ∈ integerTypes
  · exact .inr (.inl ⟨hint, cellFormat_of_integer type hint⟩)
  by_cases hfloat : type ∈ floatTypes
  · exact .inr (.inr (.inl ⟨hfloat, cellFormat_of_float type hfloat⟩))
  · exact .inr (.inr (.inr ⟨⟨hbool, hint, hfloat⟩, cellFormat_of_text hbool hint hfloat⟩))

/-- A text is read exactly if it denotes a value, and then as this value. -/
theorem readCell_eq_ok_iff {type raw : String} {v : Value} :
    readCell type raw = .ok v ↔ Denotes type raw v := by
  unfold readCell
  constructor
  · rcases cellFormat_cases type with ⟨htype, hformat⟩ | ⟨htype, hformat⟩ | ⟨htype, hformat⟩ |
      ⟨⟨hbool, hint, hfloat⟩, hformat⟩
    · simp only [hformat]
      split
      · rintro ⟨rfl⟩
        next htrue => exact htrue ▸ .true htype
      · split
        · rintro ⟨rfl⟩
          next hfalse => exact hfalse ▸ .false htype
        · exact fun h => nomatch h
    · simp only [hformat]
      intro h
      obtain ⟨n, hn, rfl⟩ := Except.map_eq_ok_iff.mp (Except.mapError_eq_ok_iff.mp h)
      exact .int htype (Decimal.readInt_eq_ok_iff.mp hn)
    · simp only [hformat]
      intro h
      obtain ⟨x, hx, rfl⟩ := Except.map_eq_ok_iff.mp (Except.mapError_eq_ok_iff.mp h)
      exact .float htype hx
    · simp only [hformat]
      rintro ⟨rfl⟩
      exact .text hbool hint hfloat
  · intro h
    cases h with
    | true h => rw [h]; rfl
    | false h => rw [h]; rfl
    | int h hn =>
      simp only [cellFormat_of_integer type h, Decimal.readInt_eq_ok_iff.mpr hn]
      rfl
    | float h hx =>
      simp only [cellFormat_of_float type h, hx]
      rfl
    | text hbool hint hfloat => simp only [cellFormat_of_text hbool hint hfloat]

theorem decodeCell_eq_ok_iff {column : Column} {cell : Option String} {v : Value} :
    decodeCell column cell = .ok v ↔ column.Holds cell v := by
  cases cell with
  | none =>
    constructor
    · intro h
      cases h
      exact .null
    · intro h
      cases h
      rfl
  | some raw =>
    rw [decodeCell, Except.mapError_eq_ok_iff, readCell_eq_ok_iff]
    constructor
    · exact .text
    · intro h
      cases h with
      | text h => exact h

/-! ## Rows -/

/-- In a row, the column with number `i` finds a cell that holds a value. -/
def Column.Finds (column : Column) (cells : List (Option String)) (i : Nat) (v : Value) : Prop :=
  ∃ cell, cells[i]? = some cell ∧ column.Holds cell v

/-- Why the column with number `i` finds no value: there is no cell, or its text cannot be read. -/
inductive Column.Lacks (column : Column) (i : Nat) : Option (Option String) → String → Prop where
  | missing : Lacks column i none ("invalid column \x60" ++ toString i ++ "\x60")
  | unreadable {raw message : String} (h : readCell column.type raw = .error message) :
    Lacks column i (some (some raw)) message

/-- Every column finds a value. -/
def Fits (columns : List Column) (cells : List (Option String)) : Prop :=
  ∀ (i : Nat) (column : Column), columns[i]? = some column → ∃ v, column.Finds cells i v

/-- The row has the names of the columns, and for each of them the value that it finds. -/
def Decoded (columns : List Column) (cells : List (Option String)) (row : Row) : Prop :=
  row.columns = columns.map (·.name) ∧ row.values.length = columns.length ∧
    ∀ (i : Nat) (column : Column) (v : Value), columns[i]? = some column → row.values[i]? = some v →
      column.Finds cells i v

/-- An error that names the first column without a value. The numbers of the columns start at
`index`. -/
def BlamesFrom (index : Nat) (columns : List Column) (cells : List (Option String)) (e : Error) :
    Prop :=
  ∃ (i : Nat) (column : Column) (message : String), columns[i]? = some column ∧
    (∀ j < i, ∀ earlier : Column, columns[j]? = some earlier → ∃ v, earlier.Finds cells j v) ∧
    column.Lacks (index + i) cells[i]? message ∧ e = .decode column.name message

variable {columns : List Column} {column : Column}
variable {cells : List (Option String)} {values : List Value}

/-- A statement about all places of two lists is one about their heads and one about their tails. -/
theorem forall_getElem?_cons {α β : Type} {P : Nat → α → β → Prop} {a : α} {as : List α} {b : β}
    {bs : List β} :
    (∀ (i : Nat) (x : α) (y : β), (a :: as)[i]? = some x → (b :: bs)[i]? = some y → P i x y) ↔
      P 0 a b ∧ ∀ (i : Nat) (x : α) (y : β), as[i]? = some x → bs[i]? = some y → P (i + 1) x y := by
  rw [← Nat.and_forall_add_one]
  simp

theorem Column.finds_zero_iff {cell : Option String} {v : Value} :
    column.Finds (cell :: cells) 0 v ↔ column.Holds cell v := by
  simp [Column.Finds]

theorem Column.finds_succ_iff {cell : Option String} {i : Nat} {v : Value} :
    column.Finds (cell :: cells) (i + 1) v ↔ column.Finds cells i v := by
  simp [Column.Finds]

theorem Column.not_finds_nil {i : Nat} {v : Value} : ¬ column.Finds [] i v := by
  simp [Column.Finds]

theorem decodeCells_cons_eq_ok_iff {index : Nat} {cell : Option String} :
    decodeCells index (column :: columns) (cell :: cells) = .ok values ↔
      ∃ v rest, column.Holds cell v ∧ decodeCells (index + 1) columns cells = .ok rest ∧
        values = v :: rest := by
  simp only [decodeCells, Except.bind_eq_ok, decodeCell_eq_ok_iff, pure, Except.pure,
    Except.ok.injEq]
  constructor
  · rintro ⟨v, hv, rest, hrest, rfl⟩
    exact ⟨v, rest, hv, hrest, rfl⟩
  · rintro ⟨v, rest, hv, hrest, rfl⟩
    exact ⟨v, hv, rest, hrest, rfl⟩

theorem decodeCells_eq_ok_iff {index : Nat} : decodeCells index columns cells = .ok values ↔
    values.length = columns.length ∧ ∀ (i : Nat) (column : Column) (v : Value),
      columns[i]? = some column → values[i]? = some v → column.Finds cells i v := by
  induction columns generalizing index cells values with
  | nil =>
    rw [decodeCells, Except.ok.injEq]
    simp [eq_comm]
  | cons column columns ih =>
    cases cells with
    | nil =>
      rw [decodeCells]
      cases values with
      | nil => simp
      | cons v values => simp [forall_getElem?_cons, Column.not_finds_nil]
    | cons cell cells =>
      rw [decodeCells_cons_eq_ok_iff]
      cases values with
      | nil => simp
      | cons v values =>
        rw [forall_getElem?_cons]
        simp only [Column.finds_zero_iff, Column.finds_succ_iff, List.length_cons,
          Nat.add_right_cancel_iff, List.cons.injEq, ih]
        constructor
        · rintro ⟨_, _, hv, ⟨hlength, hrest⟩, rfl, rfl⟩
          exact ⟨hlength, hv, hrest⟩
        · rintro ⟨hlength, hv, hrest⟩
          exact ⟨v, values, hv, ⟨hlength, hrest⟩, rfl, rfl⟩

theorem decodeCells_cons_eq_error_iff {index : Nat} {cell : Option String} {e : Error} :
    decodeCells index (column :: columns) (cell :: cells) = .error e ↔
      decodeCell column cell = .error e ∨
        (∃ v, column.Holds cell v) ∧ decodeCells (index + 1) columns cells = .error e := by
  simp only [decodeCells, ← decodeCell_eq_ok_iff]
  cases decodeCell column cell <;> cases decodeCells (index + 1) columns cells <;>
    simp [bind, Except.bind, pure, Except.pure]

theorem decodeCell_eq_error_iff {index : Nat} {cell : Option String} {e : Error} :
    decodeCell column cell = .error e ↔
      ∃ message, column.Lacks index (some cell) message ∧ e = .decode column.name message := by
  cases cell with
  | none =>
    refine ⟨fun h => (nomatch h), ?_⟩
    rintro ⟨message, hlacks, -⟩
    cases hlacks
  | some raw =>
    rw [decodeCell, Except.mapError_eq_error_iff]
    constructor
    · rintro ⟨message, h, rfl⟩
      exact ⟨message, .unreadable h, rfl⟩
    · rintro ⟨message, hlacks, rfl⟩
      cases hlacks with
      | unreadable h => exact ⟨message, h, rfl⟩

theorem not_blamesFrom_nil {index : Nat} {e : Error} : ¬ BlamesFrom index [] cells e := by
  simp [BlamesFrom]

theorem blamesFrom_cons_nil {index : Nat} {e : Error} : BlamesFrom index (column :: columns) [] e ↔
    e = .decode column.name ("invalid column \x60" ++ toString index ++ "\x60") := by
  constructor
  · rintro ⟨i, blamed, message, hcolumn, hearlier, hlacks, rfl⟩
    cases i with
    | zero =>
      cases hcolumn
      cases hlacks
      rfl
    | succ i =>
      obtain ⟨v, hv⟩ := hearlier 0 i.succ_pos column rfl
      exact absurd hv Column.not_finds_nil
  · rintro rfl
    exact ⟨0, column, _, rfl, fun j hj => absurd hj j.not_lt_zero, .missing, rfl⟩

theorem blamesFrom_cons_cons {index : Nat} {cell : Option String} {e : Error} :
    BlamesFrom index (column :: columns) (cell :: cells) e ↔
      (∃ message, column.Lacks index (some cell) message ∧ e = .decode column.name message) ∨
        (∃ v, column.Holds cell v) ∧ BlamesFrom (index + 1) columns cells e := by
  rw [BlamesFrom, ← Nat.or_exists_add_one]
  refine or_congr (by simp) ?_
  simp only [BlamesFrom, Nat.forall_lt_succ_left, List.getElem?_cons_zero, List.getElem?_cons_succ,
    Column.finds_zero_iff, Column.finds_succ_iff, Option.some.injEq, forall_eq',
    Nat.add_right_comm index 1, ← Nat.add_assoc]
  constructor
  · rintro ⟨i, blamed, message, hcolumn, ⟨hfirst, hearlier⟩, hlacks⟩
    exact ⟨hfirst, i, blamed, message, hcolumn, hearlier, hlacks⟩
  · rintro ⟨hfirst, i, blamed, message, hcolumn, hearlier, hlacks⟩
    exact ⟨i, blamed, message, hcolumn, ⟨hfirst, hearlier⟩, hlacks⟩

/-- The cells of a row are not decoded exactly if a column is to blame. -/
theorem decodeCells_eq_error_iff {index : Nat} {e : Error} :
    decodeCells index columns cells = .error e ↔ BlamesFrom index columns cells e := by
  induction columns generalizing index cells with
  | nil => exact ⟨fun h => (nomatch h), fun h => absurd h not_blamesFrom_nil⟩
  | cons column columns ih =>
    cases cells with
    | nil => rw [decodeCells, blamesFrom_cons_nil, Except.error.injEq, eq_comm]
    | cons cell cells =>
      rw [decodeCells_cons_eq_error_iff, blamesFrom_cons_cons, ih,
        decodeCell_eq_error_iff]

theorem Column.Lacks.not_finds {i : Nat} {message : String} {v : Value}
    (h : column.Lacks i cells[i]? message) : ¬ column.Finds cells i v := by
  rintro ⟨cell, hcell, hv⟩
  rw [hcell] at h
  cases h with
  | unreadable h =>
    cases hv with
    | text hv =>
      rw [readCell_eq_ok_iff.mpr hv] at h
      cases h

variable {rows : List (List (Option String))}

theorem decodeRow_eq_ok_iff {row : Row} :
    decodeRow columns cells = .ok row ↔ Decoded columns cells row := by
  rw [decodeRow, Except.bind_eq_ok]
  simp only [decodeCells_eq_ok_iff]
  constructor
  · rintro ⟨values, hvalues, hrow⟩
    cases hrow
    exact ⟨rfl, hvalues⟩
  · rintro ⟨hcolumns, hvalues⟩
    exact ⟨row.values, hvalues, by rw [← hcolumns]; rfl⟩

theorem decodeRow_eq_error_iff {e : Error} :
    decodeRow columns cells = .error e ↔ BlamesFrom 0 columns cells e := by
  rw [← decodeCells_eq_error_iff, decodeRow]
  cases decodeCells 0 columns cells <;> simp [bind, Except.bind, pure, Except.pure]

/-- A row in which every column finds a value is decoded, since no column is to blame. -/
theorem fits_iff_exists_decodeRow :
    Fits columns cells ↔ ∃ row, decodeRow columns cells = .ok row := by
  constructor
  · intro hfits
    cases hrow : decodeRow columns cells with
    | ok row => exact ⟨row, rfl⟩
    | error e =>
      obtain ⟨i, column, message, hcolumn, -, hlacks, -⟩ := decodeRow_eq_error_iff.mp hrow
      obtain ⟨v, hv⟩ := hfits i column hcolumn
      rw [Nat.zero_add] at hlacks
      exact absurd hv hlacks.not_finds
  · rintro ⟨row, hrow⟩ i column hcolumn
    obtain ⟨-, hlength, hvalues⟩ := decodeRow_eq_ok_iff.mp hrow
    have hi : i < row.values.length := hlength ▸ (List.getElem?_eq_some_iff.mp hcolumn).1
    exact ⟨_, hvalues i column _ hcolumn (List.getElem?_eq_getElem hi)⟩

/-! ## Queries -/

theorem mapM_decodeRow_eq_ok_iff {decoded : List Row} :
    rows.mapM (decodeRow columns) = .ok decoded ↔ List.Forall₂ (Decoded columns) rows decoded := by
  rw [Except.mapM_eq_ok]
  simp only [decodeRow_eq_ok_iff]

theorem mapM_decodeRow_eq_error_iff {e : Error} :
    rows.mapM (decodeRow columns) = .error e ↔
      ∃ before cells after, rows = before ++ cells :: after ∧
        (∀ earlier ∈ before, Fits columns earlier) ∧ BlamesFrom 0 columns cells e := by
  rw [Except.mapM_eq_error_iff]
  simp only [decodeRow_eq_error_iff, fits_iff_exists_decodeRow]

variable {σ : Type}

theorem Backend.select_eq (b : Backend σ) (sql : String) {s s₁ s₂ : σ}
    (hprepare : b.prepare sql s = (.ok columns, s₁)) (hrows : b.rows sql s₁ = (.ok rows, s₂)) :
    b.select sql s = ((rows.mapM (decodeRow columns)).map (.rows ⟨·, 0, false⟩), s₂) := by
  simp only [Backend.select, hprepare, hrows]

/-- A query whose server reports no error gives all rows, or it blames one column of one row. -/
theorem select_decodes (b : Backend σ) (settings : Settings) (shape : Shape) (sql : String)
    {s s₁ s₂ : σ} (hprepare : b.prepare sql s = (.ok columns, s₁))
    (hrows : b.rows sql s₁ = (.ok rows, s₂)) :
    let answer := (connection b settings).answer ⟨.select, sql, shape⟩ s
    answer.2 = s₂ ∧
    ((∃ output, answer.1 = .ok output) ↔ ∀ cells ∈ rows, Fits columns cells) ∧
    (∀ output, answer.1 = .ok output ↔ ∃ decoded, output = .rows ⟨decoded, 0, false⟩ ∧
      List.Forall₂ (Decoded columns) rows decoded) ∧
    (∀ e, answer.1 = .error e ↔ ∃ before cells after, rows = before ++ cells :: after ∧
      (∀ earlier ∈ before, Fits columns earlier) ∧ BlamesFrom 0 columns cells e) ∧
    ∀ column : Column, column.type ∈ integerTypes → ∀ n : Int64,
      decodeCell column (some (toString n.toInt)) = .ok (.int n) := by
  have hanswer : (connection b settings).answer ⟨.select, sql, shape⟩ s =
      ((rows.mapM (decodeRow columns)).map (.rows ⟨·, 0, false⟩), s₂) :=
    b.select_eq sql hprepare hrows
  simp only [hanswer, true_and]
  refine ⟨?_, ?_, ?_, ?_⟩
  · simp only [fits_iff_exists_decodeRow, ← Except.exists_mapM_eq_ok_iff, Except.map_eq_ok_iff]
    exact ⟨fun ⟨_, decoded, hdecoded, _⟩ => ⟨decoded, hdecoded⟩,
      fun ⟨decoded, hdecoded⟩ => ⟨_, decoded, hdecoded, rfl⟩⟩
  · intro output
    rw [Except.map_eq_ok_iff]
    simp only [mapM_decodeRow_eq_ok_iff]
    constructor
    · rintro ⟨decoded, hdecoded, rfl⟩
      exact ⟨decoded, rfl, hdecoded⟩
    · rintro ⟨decoded, rfl, hdecoded⟩
      exact ⟨decoded, hdecoded, rfl⟩
  · intro e
    rw [Except.map_eq_error_iff, mapM_decodeRow_eq_error_iff]
  · intro column htype n
    exact decodeCell_eq_ok_iff.mpr (.text (.int htype (Decimal.writes_toString n.toInt)))

/-- The second row lacks its second cell, so there are no rows at all. -/
theorem select_decodes_ragged :
    let columns : List Column := [⟨"id", "int8"⟩, ⟨"ok", "bool"⟩]
    let rows : List (List (Option String)) := [[some "-7", some "t"], [none], [some "x", none]]
    let server : Replay := ⟨[.result columns rows "SELECT 3"], [], none, false⟩
    ∃ prepared answered : Replay,
      Replay.backend.prepare "SELECT id, ok FROM t" server = (.ok columns, prepared) ∧
      Replay.backend.rows "SELECT id, ok FROM t" prepared = (.ok rows, answered) ∧
      ((connection Replay.backend {}).answer ⟨.select, "SELECT id, ok FROM t", .assoc⟩ server).1 =
        .error (.decode "ok" "invalid column \x601\x60") := by
  intro columns rows server
  refine ⟨_, _, rfl, rfl, ?_⟩
  have h := select_decodes Replay.backend {} .assoc "SELECT id, ok FROM t" (s := server) rfl rfl
  refine (h.2.2.2.1 _).mpr ⟨[[some "-7", some "t"]], [none], [[some "x", none]], rfl, ?_, ?_⟩
  · rintro earlier hearlier
    rw [List.mem_singleton.mp hearlier]
    exact fits_iff_exists_decodeRow.mpr ⟨_, rfl⟩
  · refine ⟨1, ⟨"ok", "bool"⟩, _, rfl, fun j hj earlier hcolumn => ?_, .missing, rfl⟩
    cases Nat.lt_one_iff.mp hj
    cases hcolumn
    exact ⟨.null, none, rfl, .null⟩

end Postgres

end SqlComposer
