import Mathlib.Data.List.DropRight
import SqlComposer.Params
import SqlComposer.Proofs.Occurrences

/-!
# Registered parameters

Parameters are set to values, bound to cells, taken over from other parameters and cleared, in any
order. What is there then is what was registered since the parameters were cleared for the last
time: each key once, in the place where it came first, with what it was registered for last.
-/

namespace SqlComposer

/-! ## Calls -/

inductive ParamsCall where
  | set (key : String) (v : Value)
  | bind (key : String) (id : CellId)
  | extend (other : Params)
  | clear

/-- The call that registers a parameter. -/
def Param.call : Param → ParamsCall
  | .value key v => .set key v
  | .cell key id => .bind key id

namespace ParamsCall

/-- What a call registers, in order. -/
def registers : ParamsCall → List Param
  | .set key v => [.value key v]
  | .bind key id => [.cell key id]
  | .extend other => other.entries
  | .clear => []

def isClear : ParamsCall → Bool
  | .clear => true
  | _ => false

/-- What a run registers after it has cleared for the last time. -/
def registrations (calls : List ParamsCall) : List Param :=
  (calls.rtakeWhile (!·.isClear)).flatMap registers

theorem registrations_clear (calls : List ParamsCall) : registrations (calls ++ [.clear]) = [] := by
  simp [registrations, isClear]

theorem registrations_concat {call : ParamsCall} (h : call.isClear = false)
    (calls : List ParamsCall) :
    registrations (calls ++ [call]) = registrations calls ++ call.registers := by
  simp [registrations, h]

end ParamsCall

namespace Params

def perform (params : Params) : ParamsCall → Params
  | .set key v => params.set key v
  | .bind key id => params.bind key id
  | .extend other => params.extend other
  | .clear => params.clear

def run (params : Params) (calls : List ParamsCall) : Params := calls.foldl perform params

variable {params other : Params} {all : List Param} {cells : Cells}

theorem register_eq_settle (entries : List Param) (p : Param) :
    register entries p = settle Param.key p entries := by
  induction entries with
  | nil => rfl
  | cons q entries ih => simp only [register, settle, ih, beq_iff_eq]

theorem run_concat (params : Params) (calls : List ParamsCall) (call : ParamsCall) :
    params.run (calls ++ [call]) = (params.run calls).perform call := by
  simp [run]

/-- One parameter of another set is as good as a call of its own. -/
theorem extend_eq_run (params other : Params) :
    params.extend other = params.run (other.entries.map Param.call) := by
  have hcall : insert = fun params p => params.perform p.call := by
    funext params p
    cases p <;> rfl
  rw [extend, run, List.foldl_map, hcall]

/-! ## What is registered -/

/-- The parameters are what is left of all that was registered. -/
def Keeps (params : Params) (all : List Param) : Prop := Arranged Param.key all params.entries

namespace Keeps

theorem insert (h : params.Keeps all) (p : Param) : (params.insert p).Keeps (all ++ [p]) := by
  unfold Keeps Params.insert
  rw [register_eq_settle]
  exact h.concat p

theorem extend (h : params.Keeps all) (other : Params) :
    (params.extend other).Keeps (all ++ other.entries) := by
  unfold Params.extend
  induction other.entries generalizing params all with
  | nil => rwa [List.append_nil]
  | cons p entries ih =>
    rw [List.append_cons]
    exact ih (h.insert p)

/-- One call keeps what is registered, and what it registers comes behind. -/
theorem perform {calls : List ParamsCall} (h : params.Keeps (ParamsCall.registrations calls))
    (call : ParamsCall) :
    (params.perform call).Keeps (ParamsCall.registrations (calls ++ [call])) := by
  cases call with
  | set key v =>
    rw [ParamsCall.registrations_concat rfl]
    exact h.insert _
  | bind key id =>
    rw [ParamsCall.registrations_concat rfl]
    exact h.insert _
  | extend other =>
    rw [ParamsCall.registrations_concat rfl]
    exact h.extend other
  | clear =>
    rw [ParamsCall.registrations_clear]
    exact .nil

theorem run (calls : List ParamsCall) :
    (empty.run calls).Keeps (ParamsCall.registrations calls) := by
  induction calls using List.reverseRecOn with
  | nil => exact .nil
  | append_singleton calls call ih =>
    rw [run_concat]
    exact ih.perform call

theorem get?_eq_some (h : params.Keeps all) {key : String} {v : Value} :
    params.get? cells key = some v ↔
      LastOf Param.key all (.value key v) ∨
        ∃ id, LastOf Param.key all (.cell key id) ∧ v = cells.get id := by
  unfold get?
  rw [h.lookup, Option.map_eq_some_iff]
  simp only [← lastOf_iff]
  constructor
  · rintro ⟨p, ⟨hlast, rfl⟩, rfl⟩
    cases p with
    | value key v => exact .inl hlast
    | cell key id => exact .inr ⟨id, hlast, rfl⟩
  · rintro (hlast | ⟨id, hlast, rfl⟩)
    · exact ⟨_, ⟨hlast, rfl⟩, rfl⟩
    · exact ⟨_, ⟨hlast, rfl⟩, rfl⟩

/-- Keys that are new come behind the others. -/
theorem keys_extend (h : params.Keeps all) (hother : other.keys.Nodup) :
    (params.extend other).keys = params.keys ++ other.keys.filter (!params.contains ·) := by
  have hkeys := (h.extend other).keys
  rw [List.map_append] at hkeys
  rw [Params.keys, hkeys.unique (h.keys.append hother)]
  refine congrArg _ (List.filter_congr fun key _ => ?_)
  rw [contains_eq, List.contains_eq_mem, ← decide_not]
  exact decide_eq_decide.mpr (not_congr (h.keys.mem key).symm)

theorem get?_extend (h : params.Keeps all) (hother : other.keys.Nodup) (cells : Cells)
    (key : String) :
    (params.extend other).get? cells key = (other.get? cells key).or (params.get? cells key) := by
  unfold get?
  rw [(h.extend other).lookup, h.lookup, (Arranged.of_nodup hother).lookup, List.reverse_append,
    List.find?_append, Option.map_or]

end Keeps

theorem isSome_get? (params : Params) (cells : Cells) (key : String) :
    (params.get? cells key).isSome = params.contains key := by
  rw [get?, Option.isSome_map, List.isSome_find?, contains]

/-- Whatever was called before, the keys that were registered since the parameters were cleared are
there, each once, in the order in which they came first. All that is asked about keys is answered
from them. Under a key stands the value that was registered last, or what the cell holds now that
was bound last. To take over other parameters is to register them one by one, so their values win
and no key changes its place. -/
theorem ordered_map (calls : List ParamsCall) :
    let params := empty.run calls
    let all := ParamsCall.registrations calls
    FirstOccurrences (all.map Param.key) params.keys ∧
      (∀ key, params.contains key = true ↔ key ∈ params.keys) ∧
      params.size = params.keys.length ∧
      (params.isEmpty = true ↔ params.keys = []) ∧
      (∀ cells key, (params.get? cells key).isSome = params.contains key) ∧
      (∀ cells key v, params.get? cells key = some v ↔
        LastOf Param.key all (.value key v) ∨
          ∃ id, LastOf Param.key all (.cell key id) ∧ v = cells.get id) ∧
      (∀ other, params.extend other = params.run (other.entries.map Param.call)) ∧
      ∀ others cells, let other := empty.run others
        (params.extend other).keys = params.keys ++ other.keys.filter (!params.contains ·) ∧
          ∀ key, (params.extend other).get? cells key =
            (other.get? cells key).or (params.get? cells key) := by
  intro params all
  have hkeeps : params.Keeps all := Keeps.run calls
  refine ⟨hkeeps.keys, fun key => ?_, ?_, ?_, isSome_get? params, fun _ _ _ => hkeeps.get?_eq_some,
    extend_eq_run params, fun others cells => ?_⟩
  · rw [contains_eq, List.contains_iff_mem]
  · rw [size, keys, List.length_map]
  · rw [isEmpty, keys, List.isEmpty_iff, List.map_eq_nil_iff]
  · intro other
    have hother : other.keys.Nodup := (Keeps.run others).keys.once
    exact ⟨hkeeps.keys_extend hother, hkeeps.get?_extend hother cells⟩

/-- A key that is bound anew keeps its place and shows what the cell holds. -/
example : ((empty.run [.set ":a" .null, .clear, .set ":b" .null, .set ":a" (.int 1),
    .extend ⟨[.value ":c" .null, .cell ":b" 0]⟩]).bindings ⟨[.text "x"]⟩) =
    [(":b", .text "x"), (":a", .int 1), (":c", .null)] := rfl

end Params

end SqlComposer
