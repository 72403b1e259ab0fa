import EntityMapper.EntityKey
import EntityMapper.Tracking.Session
import EntityMapper.Tracking.Sidecar

/-!
# Entries

An entry stands for one entity. Its primary values are in a native instance, reached by accessors,
and in shadow values for the properties without a native field. Around them it keeps the lifecycle
state, a modified flag for each property, sidecars, and the relationship snapshot: the last values
seen of the properties that take part in keys. The baseline of a property is its value before the
pending changes; it is captured in a sidecar of its own when the first change comes.

This module holds the entry and what is read from it:

* `Entry.get` reads through the sidecars with transparent reads, in the order of their attachment,
  and then the primary value;
* `Entry.baselineValue` and `Entry.snapshotValue` read what was captured, and the primary value if
  nothing was;
* the key values of the entity are built from these.
-/

namespace EntityMapper

/-- One tracked entity. -/
structure Entry where
  id : EntryId
  type : EntityType
  native : Option Instance
  /-- One value for each property; those of native properties are not used. -/
  shadow : List Value
  /-- One accessor for each property that has a native field. -/
  accessors : List (Option Accessor)
  state : EntityState
  /-- One flag for each property. -/
  modified : List Bool
  /-- The attached sidecars, of different names, in the order of attachment. -/
  sidecars : List Sidecar
  /-- The last values seen of relationship properties, by position. -/
  snapshot : List (Nat × Value)

namespace Entry

/-- The accessors of the properties that are not shadow properties. -/
def resolveAccessors (registry : Registry) (t : EntityType) : Result (List (Option Accessor)) :=
  t.properties.mapM fun p =>
    if p.shadow then .ok none else (registry.accessorOf t p).map some

/-- An entry that holds only defaults so far. Entries with a native type start with an empty sidecar
for baseline values. -/
def fresh (id : EntryId) (t : EntityType) (native : Option Instance)
    (accessors : List (Option Accessor)) : Entry where
  id
  type := t
  native
  shadow := t.properties.map (·.defaultValue)
  accessors
  state := .unknown
  modified := t.properties.map fun _ => false
  sidecars := if t.native.isSome then [.baseline t.properties] else []
  snapshot := []

variable (e : Entry)

/-! ## Primary values -/

/-- Refuses properties of other entity types. -/
def requireOwned (p : Property) : Result Unit :=
  if e.type.owns p then .ok () else .error (.notFound .property p.name (some e.type.name))

/-- The refusal of an entry whose instance is missing. -/
def noInstance : Error :=
  .type "native entity instance" ("no instance attached to '" ++ e.type.name ++ "' entry") none

/-- The primary value of a property. -/
def primaryValue (p : Property) : Result Value :=
  match (e.accessors[p.index]?).join with
  | none => .ok ((e.shadow[p.index]?).getD .null)
  | some a =>
    match e.native with
    | some i => a.get i
    | none => .error e.noInstance

/-- Replaces the primary value of a property, which an accessor may refuse. -/
def putPrimary (p : Property) (v : Value) : Result Entry :=
  match (e.accessors[p.index]?).join with
  | none => .ok { e with shadow := e.shadow.set p.index v }
  | some a =>
    match e.native with
    | some i => (a.set i v).map fun i => { e with native := some i }
    | none => .error e.noInstance

/-- Replaces the primary value of a property, without tracking. -/
def load (p : Property) (v : Value) : Result Entry := do
  e.putPrimary p (← p.coerce v)

/-! ## Sidecars -/

/-- The attached sidecar of a name. -/
def sidecar? (name : String) : Option Sidecar :=
  e.sidecars.find? (·.name == name)

/-- The attached sidecar of a name, or the reason why there is none. -/
def sidecar (name : String) : Result Sidecar :=
  match e.sidecar? name with
  | some s => .ok s
  | none => .error (.notFound .sidecar name (some e.type.name))

/-- Sidecars with one more at the end, or in the place of the one of its name. -/
def attachTo (s : Sidecar) : List Sidecar → List Sidecar
  | [] => [s]
  | t :: rest => if t.name = s.name then s :: rest else t :: attachTo s rest

/-- Attaches a sidecar, in the place of one of its name if there is one. -/
def attach (s : Sidecar) : Entry :=
  { e with sidecars := attachTo s e.sidecars }

/-- Attaches a sidecar that covers only properties of this entity type. -/
def attachOwned (s : Sidecar) : Result Entry := do
  s.covered.forM e.requireOwned
  return e.attach s

/-- Detaches the sidecar of a name. -/
def detach (name : String) : Entry :=
  { e with sidecars := e.sidecars.eraseP (·.name == name) }

/-- The value that a sidecar holds for a property; the primary value if it holds none. -/
def sidecarValue (name : String) (p : Property) : Result Value := do
  e.requireOwned p
  match (← e.sidecar name).get? p with
  | some v => return v
  | none => e.primaryValue p

/-- Holds a value in a sidecar. -/
def setSidecarValue (name : String) (p : Property) (v : Value) : Result Entry := do
  e.requireOwned p
  let v ← p.coerce v
  return e.attach (← (← e.sidecar name).set p v)

/-- Attaches the sidecar for generated values, which covers the properties that the store may
generate. -/
def prepare : Entry :=
  e.attach (.generated (e.type.properties.filter (·.storeGeneration.insert)))

/-- Whether the sidecar for generated values is attached. -/
def isPrepared : Bool :=
  (e.sidecar? Sidecar.generatedName).isSome

/-- Detaches the sidecars whose values would be committed, and drops their values. -/
def rollBack : Entry :=
  { e with sidecars := e.sidecars.filter (!·.autoCommit) }

/-! ## Current, baseline and snapshot values -/

/-- The value that the first transparent sidecar with a value for a property holds. -/
def overlay? (p : Property) : Option Value :=
  e.sidecars.findSome? fun s => if s.transparentRead then s.get? p else none

/-- The current value of a property, seen through the sidecars. -/
def get (p : Property) : Result Value := do
  e.requireOwned p
  match e.overlay? p with
  | some v => return v
  | none => e.primaryValue p

/-- The current value of the property of a name. -/
def getNamed (name : String) : Result Value := do
  e.get (← e.type.property name)

/-- The captured baseline value of a property. -/
def captured? (p : Property) : Option Value :=
  (e.sidecar? Sidecar.baselineName).bind (·.get? p)

/-- The baseline value of a property; the primary value if none was captured. -/
def baselineValue (p : Property) : Result Value := do
  e.requireOwned p
  match e.captured? p with
  | some v => return v
  | none => e.primaryValue p

/-- The last value seen of a relationship property; the primary value if it was never seen. -/
def snapshotValue (p : Property) : Result Value := do
  e.requireOwned p
  match e.snapshot.lookup p.index with
  | some v => return v
  | none => e.primaryValue p

/-- The current values of all properties. -/
def values : Result (List Value) :=
  e.type.properties.mapM e.get

/-- Whether a property is flagged as modified. -/
def isModified (p : Property) : Result Bool := do
  e.requireOwned p
  return (e.modified[p.index]?).getD false

/-- The properties flagged as modified, in order. -/
def modifiedProperties : List Property :=
  e.type.properties.filter fun p => (e.modified[p.index]?).getD false

/-! ## Keys -/

/-- The key of the values that a reader gives for some properties. -/
def keyOf (properties : List Property) (read : Property → Result Value) : Result EntityKey := do
  return .ofValues (← properties.mapM read)

/-- The primary key of the current values. -/
def primaryKey : Result EntityKey := do
  keyOf (← e.type.primaryKey).properties e.get

/-- The foreign key of the current values. -/
def dependentKey (fk : ForeignKey) : Result EntityKey :=
  keyOf fk.dependent.properties e.get

/-- The foreign key of the snapshot values. -/
def dependentSnapshot (fk : ForeignKey) : Result EntityKey :=
  keyOf fk.dependent.properties e.snapshotValue

/-- The key that a foreign key refers to, when this entry is on its principal side. -/
def principalKey (fk : ForeignKey) : Result EntityKey :=
  keyOf fk.principal.properties e.get

/-! ## Capturing -/

/-- Captures the baseline values of all properties, if the entity type asks for it. -/
def captureAllIfEager : Result Entry :=
  if e.type.capturesLazily then .ok e
  else do
    let baseline ← e.type.properties.foldlM (fun s p => do s.set p (← e.primaryValue p))
      (Sidecar.baseline e.type.properties)
    return e.attach baseline

/-- Captures the baseline value of a property, unless one is captured. -/
def captureBaseline (p : Property) (current : Value) : Result Entry := do
  let baseline := (e.sidecar? Sidecar.baselineName).getD (.baseline e.type.properties)
  if baseline.hasValue p then return e
  else return e.attach (← baseline.set p current)

/-- Replaces the baseline value of a property. -/
def setBaselineValue (p : Property) (v : Value) : Result Entry := do
  e.requireOwned p
  let v ← p.coerce v
  let baseline := (e.sidecar? Sidecar.baselineName).getD (.baseline e.type.properties)
  return e.attach (← baseline.set p v)

/-- Records the last value seen of a property. -/
def recordSnapshot (p : Property) (v : Value) : Entry :=
  { e with snapshot := Sidecar.put p.index v e.snapshot }

/-- Replaces the last value seen of a property. -/
def setSnapshotValue (p : Property) (v : Value) : Result Entry := do
  e.requireOwned p
  return e.recordSnapshot p (← p.coerce v)

end Entry

end EntityMapper
