import Mathlib.Data.List.Forall2
import Mathlib.Data.List.Induction
import SqlComposer.Proofs.Recency
import SqlComposer.Rows.Record

/-!
# Columns with one name

A row is read by the names of its columns. Of several columns with one name the first counts where a
value is asked for, and the last where the row is read as JSON or as a record. The two ways give the
same for a name exactly if the first and the last of its columns are the same as JSON.
-/

namespace SqlComposer

/-! ## What a list of entries has under a key -/

namespace Keyed

variable {α β : Type} {key : String} {entries : List (Entry α)}

theorem isSome_get? : (get? key entries).isSome ↔ ∃ e ∈ entries, e.key = key := by
  unfold get?
  simp

theorem get?_eq_none : get? key entries = none ↔ ∀ e ∈ entries, e.key ≠ key := by
  unfold get?
  simp

theorem get?_append_of_ne {before : List (Entry α)} (h : ∀ e ∈ before, e.key ≠ key)
    (rest : List (Entry α)) : get? key (before ++ rest) = get? key rest := by
  unfold get?
  rw [List.find?_append, List.find?_eq_none.mpr (by simpa using h), Option.none_or]

theorem get?_cons_self (value : α) (rest : List (Entry α)) :
    get? key (⟨key, value⟩ :: rest) = some value := by
  rw [get?_cons, if_pos rfl]

theorem exists_append_of_get? {value : α} (h : get? key entries = some value) :
    ∃ before after, entries = before ++ ⟨key, value⟩ :: after ∧ ∀ e ∈ before, e.key ≠ key := by
  unfold get? at h
  obtain ⟨⟨key', value'⟩, hfind, rfl⟩ := Option.map_eq_some_iff.mp h
  obtain ⟨hkey, before, after, hentries, hbefore⟩ := List.find?_eq_some_iff_append.mp hfind
  obtain rfl : key' = key := by simpa using hkey
  exact ⟨before, after, hentries, by simpa using hbefore⟩

theorem get?_map (f : α → β) :
    get? key (entries.map fun e => ⟨e.key, f e.value⟩) = (get? key entries).map f := by
  induction entries with
  | nil => rfl
  | cons e rest ih =>
    rw [List.map_cons, get?_cons, get?_cons, ih]
    split <;> rfl

/-- Of entries with one key the last one counts. -/
theorem get?_ofList : get? key (ofList entries) = get? key entries.reverse := by
  induction entries using List.reverseRecOn with
  | nil => rfl
  | append_singleton entries e ih =>
    have hput : ofList (entries ++ [e]) = put e.key e.value (ofList entries) := by
      unfold ofList
      rw [List.foldl_append]
      rfl
    rw [hput, get?_put, ih, List.reverse_append]
    exact (get?_cons key e entries.reverse).symm

theorem sorted_ofList (entries : List (Entry α)) : Sorted (ofList entries) := by
  induction entries using List.reverseRecOn with
  | nil => exact List.Pairwise.nil
  | append_singleton entries e ih =>
    unfold ofList at ih ⊢
    rw [List.foldl_append]
    exact ih.put e.key e.value

theorem Sorted.get?_eq_some (h : Sorted entries) {value : α} :
    get? key entries = some value ↔ ⟨key, value⟩ ∈ entries := by
  unfold get?
  rw [Option.map_eq_some_iff]
  constructor
  · rintro ⟨⟨key', value'⟩, hfind, rfl⟩
    obtain ⟨hmem, rfl⟩ := (find?_eq_some_iff h.nodup_keys).mp hfind
    exact hmem
  · intro hmem
    exact ⟨_, (find?_eq_some_iff h.nodup_keys).mpr ⟨hmem, rfl⟩, rfl⟩

end Keyed

/-! ## The cells of a row -/

namespace Row

variable {row : Row} {c : String} {v w : Value}

/-- The values under the names of their columns. What one of the two lists has more is left out. -/
def cells (row : Row) : List (Entry Value) := row.columns.zipWith (⟨·, ·⟩) row.values

/-- A name has several columns, with `v` in the first one and `w` in the last one. -/
def Repeats (row : Row) (c : String) (v w : Value) : Prop :=
  ∃ before between after, row.cells = before ++ ⟨c, v⟩ :: (between ++ ⟨c, w⟩ :: after) ∧
    (∀ e ∈ before, e.key ≠ c) ∧ ∀ e ∈ after, e.key ≠ c

/-- The first and the last cell of a name are the same as JSON. -/
def Settles (row : Row) (c : String) : Prop := ∀ v w, row.Repeats c v w → v.toJson = w.toJson

theorem get?_eq_cells (row : Row) (c : String) : row.get? c = Keyed.get? c row.cells := by
  obtain ⟨columns, values⟩ := row
  unfold get? cells
  induction columns generalizing values with
  | nil => rfl
  | cons column columns ih =>
    cases values with
    | nil => simp
    | cons v values =>
      rw [List.zipWith_cons_cons, Keyed.get?_cons, List.idxOf?_cons]
      by_cases hc : column = c
      · simp [hc]
      · rw [if_neg hc, ← ih values]
        rw [if_neg (mt beq_iff_eq.mp hc), Option.bind_map]
        rfl

theorem members_eq_cells (row : Row) :
    row.members = Keyed.ofList (row.cells.map fun e => ⟨e.key, e.value.toJson⟩) := by
  unfold members cells
  rw [List.map_zipWith]

theorem sorted_members (row : Row) : Keyed.Sorted row.members := Keyed.sorted_ofList _

theorem get?_members (row : Row) (c : String) :
    Keyed.get? c row.members = (Keyed.get? c row.cells.reverse).map Value.toJson := by
  rw [members_eq_cells, Keyed.get?_ofList, ← List.map_reverse, Keyed.get?_map]

theorem Repeats.get?_eq (h : row.Repeats c v w) : row.get? c = some v := by
  obtain ⟨before, between, after, hcells, hbefore, -⟩ := h
  rw [get?_eq_cells, hcells, Keyed.get?_append_of_ne hbefore, Keyed.get?_cons_self]

theorem Repeats.get?_members (h : row.Repeats c v w) :
    Keyed.get? c row.members = some w.toJson := by
  obtain ⟨before, between, after, hcells, -, hafter⟩ := h
  have hlast : row.cells.reverse =
      after.reverse ++ ⟨c, w⟩ :: (before ++ ⟨c, v⟩ :: between).reverse := by
    rw [hcells]
    simp
  rw [Row.get?_members, hlast, Keyed.get?_append_of_ne (by simpa using hafter),
    Keyed.get?_cons_self]
  rfl

/-- Both ways find a name, or neither does. -/
theorem isSome_members (row : Row) (c : String) :
    (Keyed.get? c row.members).isSome = (row.get? c).isSome := by
  rw [Bool.eq_iff_iff, get?_members, Option.isSome_map, get?_eq_cells, Keyed.isSome_get?,
    Keyed.isSome_get?]
  simp

/-- Cut at the first and at the last cell of a name. -/
theorem cells_cases (row : Row) (c : String) :
    row.get? c = none ∨
      (∃ v, row.get? c = some v ∧ Keyed.get? c row.cells.reverse = some v) ∨
      ∃ v w, row.Repeats c v w := by
  rw [get?_eq_cells]
  cases hfirst : Keyed.get? c row.cells with
  | none => exact .inl rfl
  | some v =>
    obtain ⟨before, rest, hcells, hbefore⟩ := Keyed.exists_append_of_get? hfirst
    cases hlast : Keyed.get? c rest.reverse with
    | none =>
      refine .inr (.inl ⟨v, rfl, ?_⟩)
      rw [hcells, List.reverse_append, List.reverse_cons, List.append_assoc,
        Keyed.get?_append_of_ne (Keyed.get?_eq_none.mp hlast)]
      exact Keyed.get?_cons_self v _
    | some w =>
      obtain ⟨after, between, hrest, hafter⟩ := Keyed.exists_append_of_get? hlast
      rw [List.reverse_eq_iff, List.reverse_append, List.reverse_cons, List.append_assoc] at hrest
      refine .inr (.inr ⟨v, w, before, between.reverse, after.reverse, ?_, hbefore, ?_⟩)
      · rw [hcells, hrest]
        rfl
      · simpa using hafter

/-- The two ways give the same for a name exactly if its first and its last cell do. -/
theorem get?_members_eq_iff (row : Row) (c : String) :
    Keyed.get? c row.members = (row.get? c).map Value.toJson ↔ row.Settles c := by
  constructor
  · intro h v w hrepeats
    rw [hrepeats.get?_eq, hrepeats.get?_members] at h
    exact (Option.some.inj h).symm
  · intro h
    rcases row.cells_cases c with hnone | ⟨v, hfirst, hlast⟩ | ⟨v, w, hrepeats⟩
    · have hmembers := row.isSome_members c
      rw [hnone, Option.isSome_none, Option.isSome_eq_false_iff, Option.isNone_iff_eq_none]
        at hmembers
      rw [hmembers, hnone, Option.map_none]
    · rw [get?_members, hfirst, hlast]
    · rw [hrepeats.get?_eq, hrepeats.get?_members, Option.map_some, h v w hrepeats]

end Row

/-! ## Records -/

theorem forall₂_congr_of_mem {α β : Type} {R S : α → β → Prop} {as : List α} {bs : List β}
    (h : ∀ a ∈ as, ∀ b, R a b ↔ S a b) : List.Forall₂ R as bs ↔ List.Forall₂ S as bs := by
  constructor
  · intro hR
    exact ((List.forall₂_and_left as bs).mpr ⟨fun _ ha => ha, hR⟩).imp fun a b hab =>
      (h a hab.1 b).mp hab.2
  · intro hS
    exact ((List.forall₂_and_left as bs).mpr ⟨fun _ ha => ha, hS⟩).imp fun a b hab =>
      (h a hab.1 b).mpr hab.2

theorem exists_of_forall₂ {α β : Type} {R : α → β → Prop} {as : List α} {bs : List β}
    (h : List.Forall₂ R as bs) : ∀ a ∈ as, ∃ b, R a b := by
  induction h with
  | nil => exact fun _ ha => nomatch ha
  | cons hab _ ih =>
    intro a ha
    rcases List.mem_cons.mp ha with rfl | ha
    · exact ⟨_, hab⟩
    · exact ih a ha

theorem Except.mapM_eq_ok {ε α β : Type} {f : α → Except ε β} {as : List α} {bs : List β} :
    as.mapM f = .ok bs ↔ List.Forall₂ (fun a b => f a = .ok b) as bs := by
  induction as generalizing bs with
  | nil =>
    rw [List.mapM_nil, List.forall₂_nil_left_iff]
    exact ⟨fun h => (Except.ok.inj h).symm, fun h => congrArg Except.ok h.symm⟩
  | cons a as ih =>
    rw [List.mapM_cons, bind_eq_ok, List.forall₂_cons_left_iff]
    simp only [bind_eq_ok, ih]
    constructor
    · rintro ⟨b, hb, rest, hrest, h⟩
      exact ⟨b, rest, hb, hrest, (Except.ok.inj h).symm⟩
    · rintro ⟨b, rest, hb, hrest, rfl⟩
      exact ⟨b, hb, rest, hrest, rfl⟩

namespace Record

variable {fields : List Field} {members : List (Entry Json)} {values : List (Entry Value)}

theorem readMembers_cons {key : String} {j : Json} {rest : List (Entry Json)} {field : Field}
    (h : fields.find? (·.name = key) = some field) :
    readMembers fields (⟨key, j⟩ :: rest) = .ok values ↔
      ∃ v, readField field.type j = .ok v ∧ ∃ rest', readMembers fields rest = .ok rest' ∧
        values = ⟨key, v⟩ :: rest' := by
  cases hread : readField field.type j with
  | error message => simp [readMembers, h, hread]
  | ok v =>
    simp only [readMembers, h, hread, Except.bind_eq_ok, Except.ok.injEq, exists_eq_left', pure,
      Except.pure]
    simp only [eq_comm]

/-- What was read has a value for a field where the object has one, read as its type. -/
theorem readMembers_get? (hnames : (fields.map (·.name)).Nodup)
    (h : readMembers fields members = .ok values) {field : Field} (hfield : field ∈ fields) :
    Option.Rel (fun j v => readField field.type j = .ok v) (Keyed.get? field.name members)
      (Keyed.get? field.name values) := by
  induction members generalizing values with
  | nil =>
    obtain rfl : [] = values := Except.ok.inj h
    exact .none
  | cons e rest ih =>
    obtain ⟨key, j⟩ := e
    cases hfind : fields.find? (·.name = key) with
    | none =>
      have hne : key ≠ field.name := by
        have := List.find?_eq_none.mp hfind field hfield
        simpa [eq_comm] using this
      rw [readMembers, hfind] at h
      rw [Keyed.get?_cons, if_neg hne]
      exact ih h
    | some found =>
      obtain ⟨v, hread, values, hvalues, rfl⟩ := (readMembers_cons hfind).mp h
      obtain rfl : found.name = key := by simpa using List.find?_some hfind
      rw [Keyed.get?_cons, Keyed.get?_cons]
      by_cases hname : found.name = field.name
      · obtain rfl := List.inj_on_of_nodup_map hnames (List.mem_of_find?_eq_some hfind) hfield hname
        rw [if_pos rfl, if_pos rfl]
        exact .some hread
      · rw [if_neg hname, if_neg hname]
        exact ih hvalues

theorem exists_readMembers (h : ∀ field ∈ fields, ∀ j, ⟨field.name, j⟩ ∈ members →
      ∃ v, readField field.type j = .ok v) : ∃ values, readMembers fields members = .ok values := by
  induction members with
  | nil => exact ⟨[], rfl⟩
  | cons e rest ih =>
    obtain ⟨key, j⟩ := e
    obtain ⟨values, hvalues⟩ := ih fun field hfield j hj =>
      h field hfield j (List.mem_cons_of_mem _ hj)
    cases hfind : fields.find? (·.name = key) with
    | none => exact ⟨values, by rw [readMembers, hfind, hvalues]⟩
    | some field =>
      obtain rfl : field.name = key := by simpa using List.find?_some hfind
      obtain ⟨v, hread⟩ := h field (List.mem_of_find?_eq_some hfind) j List.mem_cons_self
      exact ⟨_, (readMembers_cons hfind).mpr ⟨v, hread, values, hvalues, rfl⟩⟩

/-- A field and the value that was found for it. Only an optional one may be missing. -/
def Fills (field : Field) (value : Option Json) (e : Entry Value) : Prop :=
  e.key = field.name ∧
    match value with
    | some j => readField field.type j = .ok e.value
    | none => (∃ type, field.type = .optional type) ∧ e.value = .null

theorem complete_eq_ok {field : Field} {e : Entry Value} {value : Option Json}
    (h : Option.Rel (fun j v => readField field.type j = .ok v) value
      (Keyed.get? field.name values)) :
    complete values field = .ok e ↔ Fills field value e := by
  obtain ⟨name, type⟩ := field
  obtain ⟨key, v⟩ := e
  unfold complete Fills
  cases hget : Keyed.get? name values with
  | none =>
    rw [hget] at h
    cases h
    cases type <;> simp [eq_comm]
  | some v' =>
    rw [hget] at h
    cases h with
    | some hread => simp [hread, eq_comm]

end Record

namespace Row

/-- A record is filled with the members under the names of its fields. -/
theorem toRecord_eq_ok_iff {fields : List Field} (hnames : (fields.map (·.name)).Nodup) (row : Row)
    (record : List (Entry Value)) :
    row.toRecord fields = .ok record ↔ List.Forall₂
      (fun field e => Record.Fills field (Keyed.get? field.name row.members) e) fields record := by
  unfold toRecord
  rw [Except.bind_eq_ok]
  constructor
  · rintro ⟨values, hvalues, hrecord⟩
    refine (forall₂_congr_of_mem fun field hfield e => ?_).mp (Except.mapM_eq_ok.mp hrecord)
    exact Record.complete_eq_ok (Record.readMembers_get? hnames hvalues hfield)
  · intro h
    have hreadable : ∀ field ∈ fields, ∀ j, ⟨field.name, j⟩ ∈ row.members →
        ∃ v, Record.readField field.type j = .ok v := by
      intro field hfield j hj
      obtain ⟨e, -, hread⟩ := exists_of_forall₂ h field hfield
      rw [row.sorted_members.get?_eq_some.mpr hj] at hread
      exact ⟨e.value, hread⟩
    obtain ⟨values, hvalues⟩ := Record.exists_readMembers hreadable
    refine ⟨values, hvalues, Except.mapM_eq_ok.mpr ?_⟩
    refine (forall₂_congr_of_mem fun field hfield e => ?_).mpr h
    exact Record.complete_eq_ok (Record.readMembers_get? hnames hvalues hfield)

end Row

/-- Both ways to read a row by the names of its columns find the same names. They give the same for
a name exactly if its first and its last cell are the same as JSON. Rows where that is so for the
names of all fields are read as records of what is found directly. -/
theorem ResultSet.columns_by_name (r : ResultSet) :
    (∀ row ∈ r.rows, ∀ c : String,
      (Keyed.get? c row.members).isSome = (row.get? c).isSome ∧
        (Keyed.get? c row.members = (row.get? c).map Value.toJson ↔ row.Settles c)) ∧
      ∀ fields : List Field, (fields.map (·.name)).Nodup →
        (∀ row ∈ r.rows, ∀ field ∈ fields, row.Settles field.name) →
        ∀ records, r.toRecords fields = .ok records ↔ List.Forall₂ (fun row record =>
          List.Forall₂ (fun field e =>
            Record.Fills field ((row.get? field.name).map Value.toJson) e) fields record)
          r.rows records := by
  refine ⟨fun row _ c => ⟨row.isSome_members c, row.get?_members_eq_iff c⟩, ?_⟩
  intro fields hnames hsettles records
  unfold ResultSet.toRecords
  rw [Except.mapM_eq_ok]
  refine forall₂_congr_of_mem fun row hrow record => ?_
  rw [row.toRecord_eq_ok_iff hnames]
  refine forall₂_congr_of_mem fun field hfield e => ?_
  rw [(row.get?_members_eq_iff field.name).mpr (hsettles row hrow field hfield)]

/-- Of two columns with one name the one is found directly, and the other is read as JSON. -/
theorem Row.columns_apart :
    let row : Row := ⟨["id", "id"], [.int 1, .int 2]⟩
    row.get? "id" = some (.int 1) ∧ Keyed.get? "id" row.members = some (.int 2) ∧
      Keyed.get? "id" row.members ≠ (row.get? "id").map Value.toJson ∧
      row.toRecord [⟨"id", .int⟩] = .ok [⟨"id", .int 2⟩] := by
  refine ⟨rfl, rfl, ?_, rfl⟩
  intro h
  exact absurd (Json.int.inj (Option.some.inj h)) (by decide)

end SqlComposer
