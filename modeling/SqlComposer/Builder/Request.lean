import SqlComposer.Params

/-!
# Calls that every statement takes

Parameters and execution options. They never fail.
-/

namespace SqlComposer

namespace Request

inductive Call where
  | param (key : String) (v : Value)
  | bind (key : String) (id : CellId)
  /-- Several parameters, one after the other. -/
  | params (entries : List Param)
  | cached (lifetime : Duration)
  | force (yes : Bool)
  | shape (s : Shape)

def mapParams (r : Request) (f : Params → Params) : Request := { r with params := f r.params }

def mapOptions (r : Request) (f : Options → Options) : Request := { r with options := f r.options }

def apply (r : Request) : Call → Request
  | .param key v => r.mapParams (·.set key v)
  | .bind key id => r.mapParams (·.bind key id)
  | .params entries => r.mapParams (·.extend ⟨entries⟩)
  | .cached lifetime => r.mapOptions ({ · with lifetime := some lifetime })
  | .force yes => r.mapOptions ({ · with force := yes })
  | .shape s => r.mapOptions ({ · with shape := s })

def compiled (r : Request) (sql : String) : Request := { r with lastSql := some sql }

/-- What a reset keeps: the options. -/
def reset (r : Request) : Request := { Request.empty with options := r.options }

end Request

end SqlComposer
