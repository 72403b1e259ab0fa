import EntityMapper.Save.Plan
import EntityMapper.Sql.Statement

/-!
# Saving

A save sends the commands of a plan to the store, one after the other, and each has to affect
exactly one row. If all succeed, the values that the store generated are committed and the changes
of the entries are accepted; a failure ends the save, and the generated values are dropped.

The store is an `Executor`: any function that answers a command, given all commands up to it.
`Saving.save` is the save; what it leaves behind is in a `SaveScope`.
-/

namespace EntityMapper

/-- A command as it is sent to the store. -/
structure SentCommand where
  text : String
  parameters : List Parameter
  deriving Repr

/-- Answers the last of the commands that were sent so far. -/
abbrev Executor := List SentCommand → Result StoreResult

/-- The number of rows that a save wrote. -/
structure SaveCounts where
  inserted : Nat := 0
  updated : Nat := 0
  deleted : Nat := 0
  deriving DecidableEq, Repr

namespace SaveCounts

/-- All rows written. -/
def total (n : SaveCounts) : Nat :=
  n.inserted + n.updated + n.deleted

/-- One more row written. -/
def count (n : SaveCounts) : Operation → SaveCounts
  | .insert => { n with inserted := n.inserted + 1 }
  | .update => { n with updated := n.updated + 1 }
  | .delete => { n with deleted := n.deleted + 1 }

end SaveCounts

/-- What a save works on. -/
structure SaveScope where
  entries : List Entry
  session : Session
  /-- The commands that were sent, in order. -/
  sent : List SentCommand := []

/-- A step of a save, which may fail halfway. -/
abbrev Saving (α : Type) := ExceptT Error (StateM SaveScope) α

namespace Saving

/-- Replaces the entry of an identity. -/
def putEntry (e : Entry) : List Entry → List Entry
  | [] => []
  | other :: rest => if other.id = e.id then e :: rest else other :: putEntry e rest

/-- An action on the entry of an identity. -/
def onEntry (id : EntryId) (action : Action Unit) : Saving Unit :=
  ExceptT.mk fun s =>
    match s.entries.find? (·.id == id) with
    | none => (.ok (), s)
    | some e =>
      let (answer, scope) := action.perform ⟨e, s.session⟩
      (answer, { s with entries := putEntry scope.entry s.entries, session := scope.session })

/-- Sends a command to the store. -/
def send (executor : Executor) (command : SentCommand) : Saving StoreResult :=
  ExceptT.mk fun s =>
    let sent := s.sent ++ [command]
    (executor sent, { s with sent })

/-- The number of rows that the answer to a row count command reports. -/
def reportedRows : StoreResult → Except UpdateError Nat
  | .affected n => .ok n
  | .rows [[v]] =>
    match v.integer? with
    | some n => if 0 ≤ n then .ok n.toNat else .error .countNotNumber
    | none => .error .countNotNumber
  | .rows [_] => .error .countColumns
  | .rows _ => .error .countRows

/-- The row of generated values that the answer to a read-back holds. -/
def generatedRow : StoreResult → Except UpdateError (List Value)
  | .rows [row] => .ok row
  | .rows rows => .error (.affected rows.length)
  | .affected _ => .error .countForValues

/-- Refuses any number of affected rows but one. -/
def checkOneRow (n : Nat) : Except UpdateError Unit :=
  if n = 1 then .ok () else .error (.affected n)

/-- Fails with the text of the command that met an update error. -/
def check {α : Type} (text : String) (answer : Except UpdateError α) : Saving α :=
  match answer with
  | .ok a => pure a
  | .error cause => throw (.update cause (some text))

/-- Takes the answer to a command: generated values go into its entry, and a number of rows is
checked. -/
def take (c : Command) (text : String) (answer : StoreResult) : Saving Unit :=
  if c.readsBack then do
    let row ← check text (generatedRow answer)
    onEntry c.entry (c.receive row)
  else
    check text (do checkOneRow (← reportedRows answer))

/-- Sends a command and takes the answer. -/
def runCommand (d : Dialect) (executor : Executor) (c : Command) : Saving Unit := do
  let text ← liftExcept (c.sql d)
  let answer ← send executor ⟨text, c.parameters⟩
  take c text answer
where
  /-- A failure that was met outside. -/
  liftExcept {α : Type} : Result α → Saving α
    | .ok a => pure a
    | .error err => throw err

/-- Attaches the sidecar for generated values to the entry of a command. -/
def prepare (c : Command) : Saving Unit :=
  onEntry c.entry (Action.modifyEntry (·.prepare))

/-- Commits the generated values of the entry of a command, and accepts its changes. -/
def settle (c : Command) : Saving Unit :=
  onEntry c.entry Action.settle

/-- Prepares the entries of some commands, and then runs the commands. -/
def execute (d : Dialect) (executor : Executor) (commands : List Command) : Saving Unit := do
  commands.forM prepare
  commands.forM (runCommand d executor)

/-- Executes the commands of a plan, then commits generated values and accepts changes. -/
def runPlan (d : Dialect) (executor : Executor) (plan : Plan) : Saving SaveCounts := do
  execute d executor plan.commands
  plan.commands.forM settle
  return plan.commands.foldl (fun n c => n.count c.operation) {}

/-- Drops the generated values of all entries. -/
def rollBack (s : SaveScope) : SaveScope :=
  { s with entries := s.entries.map (·.rollBack) }

/-- Saves all entries that need it. -/
def save (d : Dialect) (executor : Executor) (s : SaveScope) :
    Result SaveCounts × SaveScope :=
  match Plan.ofEntries s.entries with
  | .error err => (.error err, s)
  | .ok plan =>
    if plan.commands.isEmpty then (.ok {}, s)
    else
      match (runPlan d executor plan).run.run s with
      | (.ok counts, s) => (.ok counts, s)
      | (.error err, s) => (.error err, rollBack s)

end Saving

end EntityMapper
