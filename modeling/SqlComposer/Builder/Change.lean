import SqlComposer.Error

/-!
# Changes that may fail

A builder is changed in place. What a change has written before it fails stays written.
-/

namespace SqlComposer

abbrev Change (τ : Type) : Type → Type := ExceptT Error (StateM τ)

namespace Change

variable {τ : Type}

/-- A check of the arguments, which looks at no builder. -/
def check (result : Except Error Unit) : Change τ Unit := ExceptT.mk (pure result)

/-- The result of a change, and the builder afterwards. -/
def on (change : Change τ Unit) (t : τ) : Except Error Unit × τ := StateT.run (ExceptT.run change) t

/-- The changed builder, if nothing failed. -/
def apply (change : Change τ Unit) (t : τ) : Except Error τ :=
  match change.on t with
  | (.ok (), t) => .ok t
  | (.error e, _) => .error e

/-! ## Step by step -/

@[simp] theorem on_modify (f : τ → τ) (t : τ) : on (modify f) t = (.ok (), f t) := rfl

@[simp] theorem on_throw (e : Error) (t : τ) : on (throw e) t = (.error e, t) := rfl

@[simp] theorem on_check (result : Except Error Unit) (t : τ) :
    (check result).on t = (result, t) := rfl

@[simp] theorem on_get_bind (next : τ → Change τ Unit) (t : τ) :
    on (get >>= next) t = (next t).on t := rfl

@[simp] theorem on_modify_bind (f : τ → τ) (next : Unit → Change τ Unit) (t : τ) :
    on (modify f >>= next) t = (next ()).on (f t) := rfl

@[simp] theorem on_check_bind (result : Except Error Unit) (next : Unit → Change τ Unit) (t : τ) :
    on (check result >>= next) t =
      match result with
      | .ok () => (next ()).on t
      | .error e => (.error e, t) := by
  cases result <;> rfl

end Change

end SqlComposer
