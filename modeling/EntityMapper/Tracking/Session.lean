import EntityMapper.Metadata.Model
import EntityMapper.Native.Registry
import EntityMapper.Tracking.Generation
import EntityMapper.Tracking.Tracker

/-!
# Sessions

A session is what the entries of one unit of work share: the model, the registered native types,
the generators and the tracked set. It also hands out the identities of entries, in ascending order.
-/

namespace EntityMapper

/-- What the entries of one unit of work share. -/
structure Session where
  model : Model
  registry : Registry
  generators : Generators
  tracker : Tracker := .empty
  /-- The number of entries made so far. -/
  made : Nat := 0

/-- A session needs a model. -/
def Session.start (model : Option Model) (registry : Registry) (generators : Generators) :
    Result Session :=
  match model with
  | some model => .ok { model, registry, generators }
  | none => .error (.configuration .noModel)

end EntityMapper
