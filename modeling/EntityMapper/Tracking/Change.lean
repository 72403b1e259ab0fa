import EntityMapper.Tracking.Action

/-!
# Changing entries

The operations that change an entry and keep its state, its modified flags, its captured values and
the tracked set in step:

* `Action.set` writes a property. A sidecar that takes writes to the property gets the value;
  otherwise the primary value changes. The value before it becomes the baseline unless there is one,
  and the property is flagged when the entry is unchanged or modified;
* `Action.setState` moves the entry to a state, `Action.setModified` flags one property;
* `Action.accept` makes the current values the baseline, and `Action.detect` flags what was changed
  behind the entry's back;
* `Action.commit` copies the values of sidecars into the primary values after a save.
-/

namespace EntityMapper

/-- The entry with every property flagged that is not part of the primary key. -/
def Entry.flagAll (e : Entry) : Entry :=
  let flags := List.zipWith (fun p flag => flag || !e.type.inKey p) e.type.properties e.modified
  { e with modified := flags }

/-- The entry without flags. -/
def Entry.clearFlags (e : Entry) : Entry :=
  { e with modified := e.modified.map fun _ => false }

/-- The entry without captured baseline values. -/
def Entry.clearBaseline (e : Entry) : Entry :=
  match e.sidecar? Sidecar.baselineName with
  | some baseline => e.attach baseline.clear
  | none => e

namespace Action

/-! ## States and flags -/

/-- Moves the entry from one state to another; the tracked set follows. -/
def move (old new : EntityState) : Action Unit := do
  let e ← read .ok
  modifyEntry fun e => { e with state := new }
  modifySession fun s =>
    { s with tracker :=
        if !new.isTracked then s.tracker.stop e.id
        else if old.isTracked then s.tracker.update e.id new
        else s.tracker.start e.id e.type.name new }

/-- Flags a property as modified, or takes its flag away. The first flag of an unchanged entry makes
it modified, and a modified entry without flags becomes unchanged. -/
def setModified (p : Property) (on : Bool) : Action Unit := do
  read (·.requireOwned p)
  modifyEntry fun e => { e with modified := e.modified.set p.index on }
  let e ← read .ok
  if on && e.state = .unchanged then move .unchanged .modified
  else if !on && e.state = .modified && !e.modified.any id then move .modified .unchanged

/-! ## Writing -/

/-- Writes a coerced value to the primary value of a property, unless it is there already. -/
def write (p : Property) (v : Value) : Action Unit := do
  let current ← read (·.primaryValue p)
  if current.keyEqual v then return ()
  update (·.captureBaseline p current)
  modifyEntry fun e => if e.type.inRelationship p then e.recordSnapshot p v else e
  update (·.putPrimary p v)
  let e ← read .ok
  if e.state = .unchanged || e.state = .modified then setModified p true

/-- Writes a property. -/
def set (p : Property) (v : Value) : Action Unit := do
  read (·.requireOwned p)
  let v ← read fun _ => p.coerce v
  let e ← read .ok
  match e.sidecars.find? fun s => s.transparentWrite && s.covers p with
  | some s => update fun e => do return e.attach (← s.set p v)
  | none => write p v

/-- Writes the property of a name. -/
def setNamed (name : String) (v : Value) : Action Unit := do
  let p ← read (·.type.property name)
  set p v

/-! ## Generation -/

/-- The generator of a property. -/
def choose (p : Property) : Action GeneratorId :=
  ExceptT.mk fun s =>
    match s.session.generators.choose s.entry.type p with
    | .ok (id, generators) =>
      (.ok id, { s with session := { s.session with generators := generators } })
    | .error err => (.error err, s)

/-- The next value of a generator for a property. -/
def draw (id : GeneratorId) (p : Property) : Action Value :=
  ExceptT.mk fun s =>
    let (v, generators) := s.session.generators.next id p
    (v, { s with session := { s.session with generators := generators } })

/-- Generates the value of a property that is generated by the client and still has its default. -/
def generate (p : Property) : Action Unit := do
  if p.clientGenerated then
    let current ← read (·.get p)
    if p.isDefault current then
      let id ← choose p
      let v ← draw id p
      set p v

/-- Moves the entry to a state. An added entry that is deleted becomes unknown. An unknown entry
that is added gets its generated values first. -/
def setState (target : EntityState) : Action Unit := do
  let old := (← read .ok).state
  let new := if old = .added && target = .deleted then .unknown else target
  if old = new then return ()
  if old = .unknown && new = .added then
    (← read .ok).type.properties.forM generate
  modifyEntry fun e => match new with
    | .modified => e.flagAll
    | .unchanged => e.clearFlags
    | _ => e
  move old new

/-! ## Accepting and detecting changes -/

/-- Makes the current values the baseline, and in relationships the last values seen. -/
def rebase : Action Unit := do
  modifyEntry (·.clearBaseline)
  update (·.captureAllIfEager)
  let t := (← read .ok).type
  (t.properties.filter t.inRelationship).forM fun p => do
    let current ← read (·.primaryValue p)
    modifyEntry (·.recordSnapshot p current)

/-- Makes the current values of a new or modified entry its baseline; a deleted entry becomes
unknown. -/
def accept : Action Unit := do
  match (← read .ok).state with
  | .unchanged | .unknown => return ()
  | .deleted => setState .unknown
  | .modified | .added =>
    rebase
    setState .unchanged

/-- Flags a property whose primary value differs from its captured baseline, and takes over a
changed value of a relationship property into the snapshot. Answers whether there was such a
change. -/
def detectAt (p : Property) : Action Bool := do
  let current ← read (·.primaryValue p)
  let e ← read .ok
  let flags := e.captured? p |>.any fun baseline =>
    !baseline.keyEqual current && !(e.modified[p.index]?).getD false
  if flags then setModified p true
  let seen := e.type.inRelationship p && (e.snapshot.lookup p.index).any fun last =>
    !last.keyEqual current
  if seen then modifyEntry (·.recordSnapshot p current)
  return flags || seen

/-- Notices what was changed in the native instance behind the entry's back. -/
def detect : Action Bool := do
  let e ← read .ok
  if e.state = .unchanged || e.state = .modified then
    e.type.properties.foldlM (fun changed p => do return (← detectAt p) || changed) false
  else return false

/-! ## Committing sidecars -/

/-- Copies a value of a sidecar into the primary value. -/
def commitValue (p : Property) (v : Value) : Action Unit := do
  update (·.putPrimary p v)
  modifyEntry fun e => if e.type.inRelationship p then e.recordSnapshot p v else e

/-- Detaches the sidecars that are committed, and copies their values into the primary values. -/
def commit : Action Unit := do
  let committing := (← read .ok).sidecars.filter (·.autoCommit)
  modifyEntry (·.rollBack)
  committing.forM fun s => s.stored.forM fun (p, v) => commitValue p v

/-- Commits the values of sidecars, and then accepts the changes of the entry. -/
def settle : Action Unit := do
  commit
  accept

end Action

end EntityMapper
