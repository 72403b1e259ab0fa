import EntityMapper.Command.Column
import EntityMapper.Tracking.Change

/-!
# Commands

The pending changes of an entry become one command on its table:

* a new entry is inserted: what the store generates is read back, everything else is written;
* a modified entry is updated: modified properties outside the key are written, and what the store
  generates on updates is read back;
* a deleted entry is deleted.

Updates and deletes have the baseline values of the key and of concurrency tokens as conditions.
`Command.receive` takes the values that were read back into the entry's sidecar.
-/

namespace EntityMapper

/-- What a command does. -/
inductive Operation
  | insert
  | update
  | delete
  deriving DecidableEq, Repr

/-- The word for an operation in SQL. -/
def Operation.sql : Operation → String
  | .insert => "INSERT"
  | .update => "UPDATE"
  | .delete => "DELETE"

/-- The operation that saves an entry in a state. -/
def EntityState.operation? : EntityState → Option Operation
  | .added => some .insert
  | .modified => some .update
  | .deleted => some .delete
  | .unknown | .unchanged => none

/-- The change of one row. -/
structure Command where
  entry : EntryId
  entityType : EntityType
  operation : Operation
  columns : List ColumnChange

namespace Command

/-- The roles of a property in a command on its entity type. -/
def rolesOf (t : EntityType) (op : Operation) (p : Property) (modified : Bool) : Roles :=
  let key := t.inKey p
  let condition := key || p.concurrencyToken
  match op with
  | .insert =>
    { key, read := p.storeGeneration.insert, write := !p.storeGeneration.insert }
  | .update =>
    { key, condition, read := p.storeGeneration.update
      write := !p.storeGeneration.update && !key && modified }
  | .delete => { key, condition }

/-- The columns of some properties; those without a part in the command are left out. -/
def columnsOf (e : Entry) (op : Operation) :
    List Property → ParameterNames → Result (List ColumnChange × ParameterNames)
  | [], names => .ok ([], names)
  | p :: rest, names => do
    let roles := rolesOf e.type op p ((e.modified[p.index]?).getD false)
    if roles.read || roles.write || roles.condition then
      let value ← e.get p
      let baseline ← e.baselineValue p
      let (column, names) := ColumnChange.make p roles value baseline names
      let (columns, names) ← columnsOf e op rest names
      return (column :: columns, names)
    else columnsOf e op rest names

/-- The command that saves an entry, if its state needs one. An update with nothing to write or read
back is none. -/
def ofEntry (e : Entry) (names : ParameterNames) : Result (Option Command) :=
  match e.state.operation? with
  | none => .ok none
  | some op => do
    let (columns, _) ← columnsOf e op e.type.properties names
    if op = .update && !columns.any fun c => c.roles.write || c.roles.read then return none
    else return some ⟨e.id, e.type, op, columns⟩

variable (c : Command)

/-- The table that is changed. -/
def table : QualifiedName :=
  c.entityType.qualifiedTable

/-- The columns that are read back, in the order of the select list. -/
def reads : List ColumnChange :=
  c.columns.filter (·.roles.read)

/-- Whether the store returns generated values for this command. -/
def readsBack : Bool :=
  c.columns.any (·.roles.read)

/-- All parameters, in the order of the columns. -/
def parameters : List Parameter :=
  c.columns.flatMap (·.parameters)

/-- Takes the values of a returned row into the sidecar for generated values, which is attached if
need be. -/
def receive (row : List Value) : Action Unit := do
  if c.reads.length ≠ row.length then
    throw (.update (.generatedCount c.reads.length c.entityType.name row.length) none)
  Action.modifyEntry fun e => if e.isPrepared then e else e.prepare
  (c.reads.zip row).forM fun (column, v) =>
    Action.update (·.setSidecarValue Sidecar.generatedName column.property v)

end Command

end EntityMapper
