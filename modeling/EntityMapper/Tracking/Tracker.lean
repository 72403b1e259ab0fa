import EntityMapper.Tracking.State

/-!
# The tracked set

A `Tracker` lists the tracked entries by their identities, in ascending order, each with the name
of its entity type and its state.
-/

namespace EntityMapper

/-- The identity of an entry. -/
structure EntryId where
  number : Nat
  deriving DecidableEq, Repr

/-- What the tracker knows of an entry. -/
structure Tracked where
  entityType : String
  state : EntityState
  deriving DecidableEq, Repr

/-- The tracked entries in ascending order. -/
structure Tracker where
  entries : List (EntryId × Tracked)
  deriving Repr

namespace Tracker

/-- Nothing is tracked. -/
def empty : Tracker := ⟨[]⟩

/-- Adds an entry at its place in ascending order, or replaces the one of its identity. -/
def insertEntry (id : EntryId) (t : Tracked) :
    List (EntryId × Tracked) → List (EntryId × Tracked)
  | [] => [(id, t)]
  | (other, u) :: rest =>
    if id.number < other.number then (id, t) :: (other, u) :: rest
    else if id = other then (id, t) :: rest
    else (other, u) :: insertEntry id t rest

variable (t : Tracker)

/-- Starts to track an entry. -/
def start (id : EntryId) (entityType : String) (state : EntityState) : Tracker :=
  ⟨insertEntry id ⟨entityType, state⟩ t.entries⟩

/-- Stops to track an entry. -/
def stop (id : EntryId) : Tracker :=
  ⟨t.entries.filter fun (other, _) => other != id⟩

/-- Sets the state of an entry that is tracked. -/
def update (id : EntryId) (state : EntityState) : Tracker :=
  ⟨t.entries.map fun (other, u) => if other = id then (other, { u with state }) else (other, u)⟩

/-- The state of a tracked entry. -/
def state? (id : EntryId) : Option EntityState :=
  (t.entries.lookup id).map (·.state)

/-- Whether an entry is tracked. -/
def isTracked (id : EntryId) : Bool :=
  (t.state? id).isSome

/-- The number of tracked entries. -/
def size : Nat :=
  t.entries.length

/-- The number of tracked entries in a state. -/
def countIn (state : EntityState) : Nat :=
  t.entries.countP fun (_, u) => u.state == state

end Tracker

end EntityMapper
