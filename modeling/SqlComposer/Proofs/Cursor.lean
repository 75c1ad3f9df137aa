import Mathlib.Data.List.Induction
import SqlComposer.Rows.ResultSet

/-!
# The cursor

Any number of calls that read a result set or move its cursor. The rows stay what they are, and
every answer is told from them and from the place where the cursor stood. A loop that takes rows until
there is none left visits those from the cursor on, each of them once and in order.
-/

namespace SqlComposer

/-! ## Calls -/

inductive CursorCall where
  | next
  | seek (position : Nat)
  | rewind
  | current
  | get (column : String)

inductive CursorAnswer where
  | row (row : Option Row)
  | value (v : Option Value)
  /-- Whether there is a row to move to. -/
  | moved (found : Bool)
  | done

def CursorCall.isNext : CursorCall → Bool
  | .next => true
  | _ => false

/-- Whether a call puts the cursor elsewhere than on the next row. -/
def CursorCall.Jumps : CursorCall → Prop
  | .seek _ | .rewind => True
  | .next | .current | .get _ => False

/-- What a call answers and where the cursor stands behind it, if it stood at `p` before. -/
inductive CursorCall.Gives (rows : List Row) (p : Nat) :
    CursorCall → CursorAnswer → Nat → Prop where
  | next {row : Row} (h : rows[p]? = some row) : Gives rows p .next (.row (some row)) (p + 1)
  | exhausted (h : p = rows.length) : Gives rows p .next (.row none) p
  | seek {n : Nat} (h : n < rows.length) : Gives rows p (.seek n) (.moved true) n
  | astray {n : Nat} (h : rows.length ≤ n) : Gives rows p (.seek n) (.moved false) p
  | rewind : Gives rows p .rewind .done 0
  | current : Gives rows p .current (.row rows[p]?) p
  | get {column : String} :
    Gives rows p (.get column) (.value (rows[p]?.bind (·.get? column))) p

namespace ResultSet

def perform (r : ResultSet) : CursorCall → CursorAnswer × ResultSet
  | .next => (.row r.next.1, r.next.2)
  | .seek n => (.moved (r.seek n).1, (r.seek n).2)
  | .rewind => (.done, r.rewind)
  | .current => (.row r.current?, r)
  | .get column => (.value (r.get? column), r)

def after (r : ResultSet) (calls : List CursorCall) : ResultSet :=
  calls.foldl (fun r call => (r.perform call).2) r

/-- The rows that a run is given by its calls of `next`. -/
def taken : ResultSet → List CursorCall → List Row
  | _, [] => []
  | r, .next :: calls => r.next.1.toList ++ taken r.next.2 calls
  | r, call :: calls => taken (r.perform call).2 calls

/-- A loop that calls `next` until it is given no row: what it visits, and what it leaves. -/
inductive Visits : ResultSet → List Row → ResultSet → Prop where
  | stop {r r' : ResultSet} (h : r.next = (none, r')) : Visits r [] r'
  | row {r r' r'' : ResultSet} {row : Row} {visited : List Row} (h : r.next = (some row, r'))
    (rest : Visits r' visited r'') : Visits r (row :: visited) r''

/-! ## One call -/

variable {rows : List Row} {p : Nat} {cached : Bool}

theorem next_of_lt (h : p < rows.length) :
    (mk rows p cached).next = (some rows[p], ⟨rows, p + 1, cached⟩) := by
  simp only [next, current?, List.getElem?_eq_getElem h]

theorem next_of_le (h : rows.length ≤ p) :
    (mk rows p cached).next = (none, ⟨rows, p, cached⟩) := by
  simp only [next, current?, List.getElem?_eq_none h]

theorem seek_of_lt {n : Nat} (h : n < rows.length) :
    (mk rows p cached).seek n = (true, ⟨rows, n, cached⟩) := if_pos h

theorem seek_of_le {n : Nat} (h : rows.length ≤ n) :
    (mk rows p cached).seek n = (false, ⟨rows, p, cached⟩) := if_neg (Nat.not_lt.mpr h)

/-- No call leads the cursor further than behind the last row. -/
theorem gives_perform (h : p ≤ rows.length) (cached : Bool) (call : CursorCall) :
    ∃ p' ≤ rows.length, (mk rows p cached |>.perform call).2 = ⟨rows, p', cached⟩ ∧
      call.Gives rows p (mk rows p cached |>.perform call).1 p' := by
  cases call with
  | next =>
    rcases Nat.lt_or_eq_of_le h with hlt | rfl
    · simp only [perform, next_of_lt hlt]
      exact ⟨p + 1, hlt, rfl, .next (List.getElem?_eq_getElem hlt)⟩
    · simp only [perform, next_of_le (Nat.le_refl _)]
      exact ⟨_, Nat.le_refl _, rfl, .exhausted rfl⟩
  | seek n =>
    rcases Nat.lt_or_ge n rows.length with hn | hn
    · simp only [perform, seek_of_lt hn]
      exact ⟨n, Nat.le_of_lt hn, rfl, .seek hn⟩
    · simp only [perform, seek_of_le hn]
      exact ⟨p, h, rfl, .astray hn⟩
  | rewind => exact ⟨0, Nat.zero_le _, rfl, .rewind⟩
  | current => exact ⟨p, h, rfl, .current⟩
  | get column => exact ⟨p, h, rfl, .get⟩

end ResultSet

theorem CursorCall.Gives.unique {rows : List Row} {p : Nat} {call : CursorCall}
    {answer answer' : CursorAnswer} {p₁ p₂ : Nat} (h : call.Gives rows p answer p₁)
    (h' : call.Gives rows p answer' p₂) : answer = answer' ∧ p₁ = p₂ := by
  cases h with
  | next h =>
    cases h' with
    | next h' => rw [h] at h'; cases h'; exact ⟨rfl, rfl⟩
    | exhausted h' => simp [h'] at h
  | exhausted h =>
    cases h' with
    | next h' => simp [h] at h'
    | exhausted h' => exact ⟨rfl, rfl⟩
  | seek h =>
    cases h' with
    | seek h' => exact ⟨rfl, rfl⟩
    | astray h' => exact absurd h (Nat.not_lt.mpr h')
  | astray h =>
    cases h' with
    | seek h' => exact absurd h' (Nat.not_lt.mpr h)
    | astray h' => exact ⟨rfl, rfl⟩
  | rewind => cases h'; exact ⟨rfl, rfl⟩
  | current => cases h'; exact ⟨rfl, rfl⟩
  | get => cases h'; exact ⟨rfl, rfl⟩

namespace ResultSet

variable {rows : List Row} {p : Nat} {cached : Bool}

theorem perform_eq_iff (h : p ≤ rows.length) {call : CursorCall} {answer : CursorAnswer}
    {r : ResultSet} :
    (mk rows p cached).perform call = (answer, r) ↔
      ∃ p', r = ⟨rows, p', cached⟩ ∧ call.Gives rows p answer p' := by
  obtain ⟨p', -, hstate, hgives⟩ := gives_perform h cached call
  constructor
  · intro heq
    rw [heq] at hstate hgives
    exact ⟨p', hstate, hgives⟩
  · rintro ⟨p'', rfl, hgives'⟩
    obtain ⟨rfl, rfl⟩ := hgives.unique hgives'
    exact Prod.ext rfl hstate

/-! ## Runs -/

theorem after_concat (r : ResultSet) (calls : List CursorCall) (call : CursorCall) :
    r.after (calls ++ [call]) = ((r.after calls).perform call).2 := by
  unfold after
  rw [List.foldl_append]
  rfl

theorem exists_after (rows : List Row) (cached : Bool) (calls : List CursorCall) :
    ∃ p ≤ rows.length, (mk rows 0 cached).after calls = ⟨rows, p, cached⟩ := by
  induction calls using List.reverseRecOn with
  | nil => exact ⟨0, Nat.zero_le _, rfl⟩
  | append_singleton calls call ih =>
    obtain ⟨p, hp, hafter⟩ := ih
    obtain ⟨p', hp', hstate, -⟩ := gives_perform hp cached call
    exact ⟨p', hp', by rw [after_concat, hafter, hstate]⟩

/-- What a run takes goes on from the cursor, if the run does not jump. -/
theorem taken_eq (rows : List Row) (cached : Bool) {calls : List CursorCall}
    (h : ∀ call ∈ calls, ¬ call.Jumps) (p : Nat) :
    (mk rows p cached).taken calls =
      (rows.drop p).take (calls.countP CursorCall.isNext) := by
  induction calls generalizing p with
  | nil => rfl
  | cons call calls ih =>
    have hrest : ∀ call ∈ calls, ¬ call.Jumps := fun c hc => h c (List.mem_cons_of_mem _ hc)
    cases call with
    | next =>
      rw [taken, List.countP_cons_of_pos rfl]
      rcases Nat.lt_or_ge p rows.length with hlt | hge
      · rw [next_of_lt hlt, List.drop_eq_getElem_cons hlt, List.take_succ_cons]
        exact congrArg _ (ih hrest _)
      · rw [next_of_le hge, ih hrest, List.drop_eq_nil_of_le hge]
        simp
    | seek n => exact absurd trivial (h _ List.mem_cons_self)
    | rewind => exact absurd trivial (h _ List.mem_cons_self)
    | current => exact ih hrest p
    | get column => exact ih hrest p

theorem visits_drop (h : p ≤ rows.length) :
    (mk rows p cached).Visits (rows.drop p) ⟨rows, rows.length, cached⟩ := by
  induction hleft : rows.length - p generalizing p with
  | zero =>
    obtain rfl : p = rows.length := by omega
    rw [List.drop_length]
    exact .stop (next_of_le (Nat.le_refl _))
  | succ left ih =>
    have hlt : p < rows.length := by omega
    rw [List.drop_eq_getElem_cons hlt]
    exact .row (next_of_lt hlt) (ih hlt (by omega))

theorem Visits.unique {r s t : ResultSet} {visited visited' : List Row} (h : r.Visits visited s)
    (h' : r.Visits visited' t) : visited = visited' ∧ s = t := by
  induction h generalizing visited' t with
  | stop h =>
    cases h' with
    | stop h' => exact ⟨rfl, (Prod.mk.inj (h.symm.trans h')).2⟩
    | row h' _ => exact nomatch h.symm.trans h'
  | row h _ ih =>
    cases h' with
    | stop h' => exact nomatch h.symm.trans h'
    | row h' rest' =>
      obtain ⟨hrow, rfl⟩ := Prod.mk.inj (h.symm.trans h')
      obtain ⟨rfl, rfl⟩ := ih rest'
      exact ⟨congrArg (· :: _) (Option.some.inj hrow), rfl⟩

theorem visits_iff (h : p ≤ rows.length) {visited : List Row} {r : ResultSet} :
    (mk rows p cached).Visits visited r ↔
      visited = rows.drop p ∧ r = ⟨rows, rows.length, cached⟩ := by
  constructor
  · intro hvisits
    exact hvisits.unique (visits_drop h)
  · rintro ⟨rfl, rfl⟩
    exact visits_drop h

/-- Whatever was called before, the rows are as they were and the cursor stands on one of them or
behind the last. The next call gives what the rows say about that place. From there on no row is
left out or given twice: a run that does not jump takes them one after the other, and a loop takes
all that are left, or all there are if it starts with a `rewind`. -/
theorem cursor_walks (rows : List Row) (cached : Bool) (calls : List CursorCall) :
    let r := (ResultSet.mk rows 0 cached).after calls
    r.rows = rows ∧ r.cached = cached ∧ r.position ≤ rows.length ∧
      (∀ call answer s, r.perform call = (answer, s) ↔
        ∃ p, s = ⟨rows, p, cached⟩ ∧ call.Gives rows r.position answer p) ∧
      (∀ further, (∀ call ∈ further, ¬ call.Jumps) → r.taken further =
        (rows.drop r.position).take (further.countP CursorCall.isNext)) ∧
      (∀ visited s, r.Visits visited s ↔
        visited = rows.drop r.position ∧ s = ⟨rows, rows.length, cached⟩) ∧
      ∀ visited s, r.rewind.Visits visited s ↔
        visited = rows ∧ s = ⟨rows, rows.length, cached⟩ := by
  obtain ⟨p, hp, hafter⟩ := exists_after rows cached calls
  rw [hafter]
  refine ⟨rfl, rfl, hp, fun _ _ _ => perform_eq_iff hp,
    fun _ hjumps => taken_eq rows cached hjumps p, fun _ _ => visits_iff hp, fun _ _ => ?_⟩
  exact visits_iff (Nat.zero_le _)

end ResultSet

end SqlComposer
