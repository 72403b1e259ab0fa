import EntityMapper.Tracking.Entry

/-!
# Actions on an entry

An `Action` changes one entry and what it shares with the others of its session. It may fail, and
then what it changed before stays changed: a failure is an answer, not a return to the start.
`Action.perform` runs an action.
-/

namespace EntityMapper

/-- What an action works on. -/
structure Scope where
  entry : Entry
  session : Session

/-- A step on an entry of a session, which may fail halfway. -/
abbrev Action (α : Type) := ExceptT Error (StateM Scope) α

namespace Action

/-- The answer of an action, and what it leaves behind. -/
def perform {α : Type} (action : Action α) (s : Scope) : Result α × Scope :=
  (action.run).run s

/-- Reads from the entry. -/
def read {α : Type} (f : Entry → Result α) : Action α :=
  ExceptT.mk fun s => (f s.entry, s)

/-- Changes the entry, or fails and leaves it alone. -/
def update (f : Entry → Result Entry) : Action Unit :=
  ExceptT.mk fun s =>
    match f s.entry with
    | .ok e => (.ok (), { s with entry := e })
    | .error err => (.error err, s)

/-- Changes the entry. -/
def modifyEntry (f : Entry → Entry) : Action Unit :=
  update fun e => .ok (f e)

/-- Changes the session. -/
def modifySession (f : Session → Session) : Action Unit :=
  ExceptT.mk fun s => (.ok (), { s with session := f s.session })

end Action

end EntityMapper
