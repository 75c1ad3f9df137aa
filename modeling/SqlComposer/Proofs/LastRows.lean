import SqlComposer.Proofs.ByteOrder
import SqlComposer.Proofs.Columns

/-!
# Maps from rows

A result set as a map from one column to another. Several rows may come to one key, also by
different values: NULL and the empty text, or a number and its digits. The last of them has the say,
whatever it has in the other column.
-/

namespace SqlComposer

/-! ## Keys -/

/-- The key that a value stands for: its own text, none for NULL, or else its text as JSON. -/
inductive Value.Spells : Value → String → Prop where
  | text (s : String) : Spells (.text s) s
  | null : Spells .null ""
  | json {v : Value} (hnull : v.isNull = false) (htext : v.text? = none) : Spells v v.toJson.compact

theorem Value.spells_iff {v : Value} {s : String} : v.Spells s ↔ ResultSet.keyOf v = s := by
  constructor
  · intro h
    cases h with
    | text s => rfl
    | null => rfl
    | json hnull htext =>
      cases v with
      | null => exact nomatch hnull
      | text s => exact nomatch htext
      | _ => rfl
  · rintro rfl
    cases v with
    | text s => exact .text s
    | null => exact .null
    | _ => exact .json rfl rfl

namespace Row

variable {row : Row} {c k s : String} {v : Value}

/-- The first column with a name has a value. -/
def Holds (row : Row) (c : String) (v : Value) : Prop :=
  ∃ before after, row.columns = before ++ c :: after ∧ c ∉ before ∧
    row.values[before.length]? = some v

/-- A row has a value in a column, and the value stands for a key. -/
def Labels (row : Row) (k s : String) : Prop := ∃ v, row.Holds k v ∧ v.Spells s

theorem get?_eq_some_iff : row.get? c = some v ↔ row.Holds c v := by
  unfold get? Holds
  rw [Option.bind_eq_some_iff]
  constructor
  · rintro ⟨i, hi, hv⟩
    obtain ⟨hlt, hc, hfirst⟩ := List.idxOf?_eq_some_iff.mp hi
    refine ⟨row.columns.take i, row.columns.drop (i + 1), ?_, ?_, ?_⟩
    · rw [← hc, List.getElem_cons_drop, List.take_append_drop]
    · intro hmem
      obtain ⟨j, hj, hjc⟩ := List.mem_take_iff_getElem.mp hmem
      exact hfirst j (by omega) hjc
    · rwa [List.length_take_of_le (by omega)]
  · rintro ⟨before, after, hcolumns, hbefore, hv⟩
    refine ⟨before.length, ?_, hv⟩
    refine List.idxOf?_eq_some_iff.mpr ⟨by simp [hcolumns], by simp [hcolumns], ?_⟩
    intro j hj hjc
    simp only [hcolumns, List.getElem_append_left hj] at hjc
    exact hbefore (hjc ▸ List.getElem_mem hj)

theorem get?_eq_none_iff : row.get? c = none ↔ ∀ v, ¬ row.Holds c v := by
  simp only [← get?_eq_some_iff, Option.eq_none_iff_forall_ne_some, ne_eq]

theorem labels_iff : row.Labels k s ↔ (row.get? k).map ResultSet.keyOf = some s := by
  unfold Labels
  simp only [Option.map_eq_some_iff, get?_eq_some_iff, Value.spells_iff]

/-- What a row has in a column. A row without a value there has NULL. -/
def Shows (row : Row) (c : String) (w : Value) : Prop :=
  row.Holds c w ∨ ((∀ v, ¬ row.Holds c v) ∧ w = .null)

theorem shows_iff {w : Value} : row.Shows c w ↔ (row.get? c).getD .null = w := by
  unfold Shows
  rw [← get?_eq_some_iff, ← get?_eq_none_iff]
  cases row.get? c with
  | none => simp [eq_comm]
  | some v => simp

/-- What a row puts into the map. -/
def pair? (k v : String) (row : Row) : Option (Entry Value) :=
  (row.get? k).map fun key => ⟨ResultSet.keyOf key, (row.get? v).getD .null⟩

theorem labels_iff_any (v : String) :
    row.Labels k s ↔ (row.pair? k v).any (·.key = s) = true := by
  rw [labels_iff, pair?]
  cases row.get? k <;> simp

theorem pair?_of_labels (v : String) (h : row.Labels k s) :
    row.pair? k v = some ⟨s, (row.get? v).getD .null⟩ := by
  obtain ⟨key, hkey, rfl⟩ := Option.map_eq_some_iff.mp (labels_iff.mp h)
  rw [pair?, hkey, Option.map_some]

end Row

/-! ## Maps -/

namespace ResultSet

variable {rows : List Row} {r : ResultSet} {k v s : String} {w : Value}

theorem asMap_eq (r : ResultSet) (k v : String) :
    r.asMap k v = Keyed.ofList (r.rows.filterMap (Row.pair? k v)) := rfl

/-- The last row with a key has the say. -/
def LastShows (rows : List Row) (k v s : String) (w : Value) : Prop :=
  ∃ before row after, rows = before ++ row :: after ∧ row.Labels k s ∧
    (∀ later ∈ after, ¬ later.Labels k s) ∧ row.Shows v w

theorem get?_entries : Keyed.get? s (rows.filterMap (Row.pair? k v)).reverse = some w ↔
    LastShows rows k v s w := by
  unfold Keyed.get? LastShows
  rw [← List.filterMap_reverse, List.find?_filterMap, Option.map_eq_some_iff]
  simp only [Option.bind_eq_some_iff, List.find?_eq_some_iff_append]
  constructor
  · rintro ⟨e, ⟨row, ⟨hlabels, after, before, hrows, hlater⟩, he⟩, rfl⟩
    have hlabels := (Row.labels_iff_any v).mpr hlabels
    refine ⟨before.reverse, row, after.reverse, ?_, hlabels, ?_, ?_⟩
    · rw [← List.reverse_reverse rows, hrows]
      simp
    · intro later hmem
      rw [Row.labels_iff_any v]
      simpa using hlater later (List.mem_reverse.mp hmem)
    · rw [Row.pair?_of_labels v hlabels] at he
      exact Row.shows_iff.mpr (congrArg Entry.value (Option.some.inj he))
  · rintro ⟨before, row, after, rfl, hlabels, hlater, hshows⟩
    have hany := (Row.labels_iff_any v).mp hlabels
    refine ⟨⟨s, w⟩, ⟨row, ⟨hany, after.reverse, before.reverse, ?_, ?_⟩, ?_⟩, rfl⟩
    · simp
    · intro later hmem
      have hnot := hlater later (List.mem_reverse.mp hmem)
      rw [Row.labels_iff_any v] at hnot
      simpa using hnot
    · rw [Row.pair?_of_labels v hlabels, Row.shows_iff.mp hshows]

theorem mem_asMap : ⟨s, w⟩ ∈ r.asMap k v ↔ LastShows r.rows k v s w := by
  rw [asMap_eq, ← (Keyed.sorted_ofList _).get?_eq_some, Keyed.get?_ofList, get?_entries]

/-- Where some row has a key, there is a last one. -/
theorem exists_lastShows : (∃ w, LastShows rows k v s w) ↔ ∃ row ∈ rows, row.Labels k s := by
  constructor
  · rintro ⟨w, before, row, after, rfl, hlabels, -, -⟩
    exact ⟨row, by simp, hlabels⟩
  · intro h
    induction rows with
    | nil => simp at h
    | cons row rows ih =>
      by_cases hlater : ∃ later ∈ rows, later.Labels k s
      · obtain ⟨w, before, last, after, rfl, hlast⟩ := ih hlater
        exact ⟨w, row :: before, last, after, rfl, hlast⟩
      · have hlabels : row.Labels k s := by
          obtain ⟨found, hmem, hlabels⟩ := h
          rcases List.mem_cons.mp hmem with rfl | hmem
          · exact hlabels
          · exact absurd ⟨found, hmem, hlabels⟩ hlater
        exact ⟨_, [], row, rows, rfl, hlabels, fun later hmem h => hlater ⟨later, hmem, h⟩,
          Row.shows_iff.mpr rfl⟩

/-- The keys are those of the rows, in strictly ascending order of their bytes. Under each stands
what its last row shows in the other column. A row without a value in the key column changes
nothing. -/
theorem asMap_last (r : ResultSet) (k v : String) :
    (r.asMap k v).Pairwise (fun a b => Text.utf8 a.key < Text.utf8 b.key) ∧
      (∀ s, (∃ w, ⟨s, w⟩ ∈ r.asMap k v) ↔ ∃ row ∈ r.rows, row.Labels k s) ∧
      (∀ s w, ⟨s, w⟩ ∈ r.asMap k v ↔ LastShows r.rows k v s w) ∧
      ∀ before row after, r.rows = before ++ row :: after → (∀ key, ¬ row.Holds k key) →
        { r with rows := before ++ after }.asMap k v = r.asMap k v := by
  refine ⟨?_, fun s => ?_, fun s w => mem_asMap, ?_⟩
  · exact (Keyed.sorted_ofList _).imp Text.utf8_lt_utf8
  · simp only [mem_asMap, exists_lastShows]
  · intro before row after hrows hnone
    have hskip : row.pair? k v = none := by
      rw [Row.pair?, Row.get?_eq_none_iff.mpr hnone, Option.map_none]
    simp only [asMap_eq, hrows, List.filterMap_append, List.filterMap_cons_none hskip]

/-- A number and its digits are one key. The last row with it has nothing to show. -/
example : asMap ⟨[⟨["k", "v"], [.int 1, .text "a"]⟩, ⟨["v"], [.text "b"]⟩, ⟨["k"], [.text "1"]⟩],
    0, false⟩ "k" "v" = [⟨"1", .null⟩] := rfl

end ResultSet

end SqlComposer
