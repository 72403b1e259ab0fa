import EntityMapper.Tracking.Entry

/-!
# Making entries

An entry is made around a native instance (`Session.adopt`, `Session.adoptByType`), or from one
value for each property (`Session.materialize`), which fills a fresh instance or shadow values.
Either way the new entry is unknown, and its baseline is captured at once if the entity type asks
for it.
-/

namespace EntityMapper

namespace Session

variable (s : Session)

/-- An entry with defaults, under the next identity. -/
def newEntry (t : EntityType) (native : Option Instance) : Result Entry := do
  let accessors ← Entry.resolveAccessors s.registry t
  return .fresh ⟨s.made + 1⟩ t native accessors

/-- The session after an entry was made. -/
def countMade : Session :=
  { s with made := s.made + 1 }

/-- An entry of an entity type around an instance of its native type. -/
def adopt (t : EntityType) (i : Instance) : Result (Entry × Session) := do
  match t.native with
  | none =>
    throw (.type "entity type with a native backing type"
      ("shadow-only entity type '" ++ t.name ++ "'") none)
  | some native =>
    if i.type = native then
      let e ← s.newEntry t (some i)
      return (← e.captureAllIfEager, s.countMade)
    else throw (.type native.name ("instance of another type for '" ++ t.name ++ "'") none)

/-- An entry of the entity type that an instance's native type backs. -/
def adoptByType (i : Instance) : Result (Entry × Session) :=
  match s.model.typeBackedBy? i.type with
  | some t => s.adopt t i
  | none => .error (.notFound .entityType i.type.name none)

/-- An entry from one value for each property, in order. -/
def materialize (t : EntityType) (values : List Value) : Result (Entry × Session) := do
  if values.length = t.properties.length then
    let native ← match t.native with
      | some native => (s.registry.freshInstance native).map some
      | none => pure none
    let e ← s.newEntry t native
    let e ← (t.properties.zip values).foldlM (fun e (p, v) => e.load p v) e
    return (← e.captureAllIfEager, s.countMade)
  else
    throw (.type "one value per property"
      (toString values.length ++ " values for " ++ toString t.properties.length ++
        " properties of '" ++ t.name ++ "'") none)

end Session

end EntityMapper
