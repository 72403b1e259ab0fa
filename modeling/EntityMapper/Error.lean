/-!
# Errors

`Error` lists the causes for which an operation of the library is refused. They come in six groups:
configuration, missing names, value types, updates, the store, and the pushdown of filters.
`Error.kind` names the group and the kind within it, and `Error.message` is the one place where
causes are put into words.
-/

namespace EntityMapper

/-- Why a model or a configuration is refused. -/
inductive ConfigurationError
  /-- A key needs at least one property. -/
  | emptyKey
  | emptyMigrationId
  | emptyPropertyName (entity : String)
  | emptyTableName
  /-- A property of a key belongs to another entity type than the first one. -/
  | mixedKey (stranger first : String)
  /-- A key is set on an entity type that does not own its properties. -/
  | strangeKey (owner entity : String)
  /-- A foreign key is added to an entity type that does not own its properties. -/
  | strangeForeignKey (entity : String)
  | migrationId (id : String)
  | duplicateProperty (entity property : String)
  /-- A foreign key and the key that it refers to differ in length. -/
  | arity (dependents : Nat) (principal : String) (principals : Nat)
  | noModel
  | noGenerator (property valueType : String)
  deriving DecidableEq, Repr

namespace ConfigurationError

/-- The kind of a configuration error. -/
def kind : ConfigurationError → String
  | .emptyKey | .emptyMigrationId | .emptyPropertyName _ | .emptyTableName => "EmptyArgument"
  | .mixedKey _ _ | .strangeKey _ _ | .strangeForeignKey _ => "InconsistentEntityType"
  | .migrationId _ => "InvalidMigrationId"
  | .duplicateProperty _ _ => "DuplicateProperty"
  | .arity _ _ _ => "KeyArityMismatch"
  | .noModel | .noGenerator _ _ => "MissingService"

/-- The wording of a configuration error. -/
def message : ConfigurationError → String
  | .emptyKey => "a key requires at least one property"
  | .emptyMigrationId => "migration id must not be empty"
  | .emptyPropertyName entity => "property name on '" ++ entity ++ "' must not be empty"
  | .emptyTableName => "table name must not be empty"
  | .mixedKey stranger first =>
    "property '" ++ stranger ++ "' does not belong to the same entity type instance as '" ++
      first ++ "'"
  | .strangeKey owner entity =>
    "key properties belong to '" ++ owner ++ "', not to this '" ++ entity ++ "' instance"
  | .strangeForeignKey entity =>
    "foreign key properties do not belong to this '" ++ entity ++ "' instance"
  | .migrationId id =>
    "'" ++ id ++ "' is not a valid migration id; expected <15 digit timestamp>_<name>"
  | .duplicateProperty entity property =>
    "'" ++ entity ++ "' already declares property '" ++ property ++ "'"
  | .arity dependents principal principals =>
    "foreign key has " ++ toString dependents ++ " properties but the principal key on '" ++
      principal ++ "' has " ++ toString principals
  | .noModel => "context options do not name a model"
  | .noGenerator property valueType =>
    "no value generator for property '" ++ property ++ "' of type " ++ valueType

end ConfigurationError

/-- What kind of thing a strict lookup did not find. -/
inductive Missing
  | property
  | entityType
  | key
  | sidecar
  | selectExpression
  | accessor
  deriving DecidableEq, Repr

/-- The name of a kind of missing thing. -/
def Missing.name : Missing → String
  | .property => "Property"
  | .entityType => "EntityType"
  | .key => "Key"
  | .sidecar => "Sidecar"
  | .selectExpression => "SelectExpression"
  | .accessor => "Accessor"

/-- The words for a kind of missing thing. -/
def Missing.text : Missing → String
  | .property => "property"
  | .entityType => "entity type"
  | .key => "key"
  | .sidecar => "sidecar"
  | .selectExpression => "select expression"
  | .accessor => "property accessor"

/-- Why the answer of the store to a command is refused. -/
inductive UpdateError
  /-- The command did not affect exactly one row, as when another writer was faster. -/
  | affected (reported : Nat)
  /-- A returned row has another number of values than the command reads back. -/
  | generatedCount (expected : Nat) (entity : String) (returned : Nat)
  /-- A row count came instead of the values to read back. -/
  | countForValues
  /-- The row that should hold the row count holds something else. -/
  | countNotNumber
  | countColumns
  | countRows
  deriving DecidableEq, Repr

namespace UpdateError

/-- Whether the error says that the row was changed or removed by another writer. -/
def isConcurrency : UpdateError → Bool
  | .affected _ => true
  | _ => false

/-- The wording of an update error. -/
def message : UpdateError → String
  | .affected reported =>
    "expected 1 row to be affected, store reported " ++ toString reported
  | .generatedCount expected entity returned =>
    "expected " ++ toString expected ++ " generated values for '" ++ entity ++
      "', store returned " ++ toString returned
  | .countForValues => "expected generated values, store returned a row count"
  | .countNotNumber => "row count is not a non-negative integer"
  | .countColumns => "row count result must have one column"
  | .countRows => "row count result must have one row"

end UpdateError

/-- Why an operation is refused. -/
inductive Error
  | configuration (cause : ConfigurationError)
  /-- A strict lookup of a name failed, possibly inside a named owner. -/
  | notFound (kind : Missing) (name : String) (owner : Option String)
  /-- A value or instance is not of the expected type, possibly for a named property. -/
  | type (expected actual : String) (property : Option String)
  /-- The store's answer to a command, possibly with the text of the command. -/
  | update (cause : UpdateError) (command : Option String)
  /-- The store reported a failure of its own. -/
  | store (text : String)
  /-- A filter holds a node that is neither pushed down nor left to the caller. -/
  | unhandledFilter (node : String)
  deriving DecidableEq, Repr

/-- A result or the reason why there is none. -/
abbrev Result (α : Type) := Except Error α

namespace Error

/-- Whether the error says that the row was changed or removed by another writer. -/
def isConcurrency : Error → Bool
  | .update cause _ => cause.isConcurrency
  | _ => false

/-- The kind of an error, by which programs tell errors apart: its group, and the kind within the
group if there are several. -/
def kind : Error → String
  | .configuration cause => "Config/" ++ cause.kind
  | .notFound missing _ _ => "NotFound/" ++ missing.name
  | .type _ _ _ => "Type"
  | .update cause _ =>
    if cause.isConcurrency then "Update/Concurrency" else "Update/UnexpectedResult"
  | .store _ => "Store"
  | .unhandledFilter _ => "Translation"

/-- The wording of the cause below an error that has one. -/
def source : Error → Option String
  | .unhandledFilter node => some ("filter expression not handled: " ++ node)
  | _ => none

/-- The wording of an error. -/
def message : Error → String
  | .configuration cause => "Configuration error: " ++ cause.message
  | .notFound kind name none => "Not found: " ++ kind.text ++ " '" ++ name ++ "'"
  | .notFound kind name (some owner) =>
    "Not found: " ++ kind.text ++ " '" ++ name ++ "' on '" ++ owner ++ "'"
  | .type expected actual none => "Type error: expected " ++ expected ++ ", found " ++ actual
  | .type expected actual (some property) =>
    "Type error: expected " ++ expected ++ " for property '" ++ property ++ "', found " ++ actual
  | .update cause _ => "Update error: " ++ cause.message
  | .store text => "Store error: " ++ text
  | .unhandledFilter node => "Translation error: filter expression not handled: " ++ node

/-- The error with the name of the property that it concerns; only type errors carry one. -/
def forProperty (name : String) : Error → Error
  | .type expected actual _ => .type expected actual (some name)
  | other => other

end Error

end EntityMapper
