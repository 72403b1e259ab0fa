import EntityMapper.Command.Basic

/-!
# Plans of a save

A plan groups the commands of a save: deletes first, those of entity types that depend on more
others before the rest; then inserts, the other way round; then updates. Within that order commands
keep the order of their entries.
-/

namespace EntityMapper

/-- The commands of a save, in groups. -/
structure Plan where
  deletes : List Command
  inserts : List Command
  updates : List Command

namespace Plan

/-- The number of entity types that the entity type of a command refers to. -/
def dependencies (c : Command) : Nat :=
  c.entityType.principals.length

/-- Groups and orders commands. -/
def ofCommands (commands : List Command) : Plan where
  deletes := (commands.filter (·.operation = .delete)).mergeSort fun a b =>
    decide (dependencies b ≤ dependencies a)
  inserts := (commands.filter (·.operation = .insert)).mergeSort fun a b =>
    decide (dependencies a ≤ dependencies b)
  updates := commands.filter (·.operation = .update)

/-- The commands that save some entries; each numbers its parameters from zero. -/
def commandsOf (entries : List Entry) : Result (List Command) := do
  return (← entries.mapM fun e => Command.ofEntry e {}).filterMap id

/-- The plan that saves some entries. -/
def ofEntries (entries : List Entry) : Result Plan := do
  return ofCommands (← commandsOf entries)

variable (p : Plan)

/-- The commands in the order of their execution. -/
def commands : List Command :=
  p.deletes ++ p.inserts ++ p.updates

/-- The number of commands. -/
def size : Nat :=
  p.commands.length

end Plan

end EntityMapper
