import EntityMapper.Json.Reader
import EntityMapper.Value.Encoding

/-!
# Lifecycle states

An entry is unknown until it is tracked; a tracked entry is added, unchanged, modified or deleted.
-/

namespace EntityMapper

/-- The lifecycle state of an entry. -/
inductive EntityState
  /-- Not tracked. -/
  | unknown
  /-- New, inserted by the next save. -/
  | added
  /-- Tracked without pending changes. -/
  | unchanged
  /-- Tracked with modified properties, updated by the next save. -/
  | modified
  /-- Deleted by the next save. -/
  | deleted
  deriving DecidableEq, Repr

namespace EntityState

/-- All states. -/
def all : List EntityState :=
  [.unknown, .added, .unchanged, .modified, .deleted]

/-- Whether an entry in this state is tracked. -/
def isTracked : EntityState → Bool
  | .unknown => false
  | _ => true

/-- Whether saving an entry in this state takes a command. -/
def needsSave : EntityState → Bool
  | .added | .modified | .deleted => true
  | .unknown | .unchanged => false

/-- The name of a state, which is also its tag. -/
def name : EntityState → String
  | .unknown => "Unknown"
  | .added => "Added"
  | .unchanged => "Unchanged"
  | .modified => "Modified"
  | .deleted => "Deleted"

/-- The state of a name. -/
def ofName? (s : String) : Option EntityState :=
  all.find? (·.name == s)

/-- The text of a state. -/
def encode (s : EntityState) : String :=
  Json.quote s.name

/-- Reads the text of a state. -/
def decode? (s : String) : Option EntityState := do
  ofName? (← (← Json.parse? s).tag?)

end EntityState

end EntityMapper
