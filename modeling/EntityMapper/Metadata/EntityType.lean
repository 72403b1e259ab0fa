import EntityMapper.Identifier
import EntityMapper.Metadata.Key

/-!
# Entity types

An entity type lists its properties, by position, and may have a primary key and foreign keys. It
is backed by a native type, whose instances hold the values of its properties, or by none, and then
all its properties are shadow properties.
-/

namespace EntityMapper

/-- A native type, known by its name. -/
structure NativeType where
  name : String
  deriving DecidableEq, Repr

/-- One kind of entity. -/
structure EntityType where
  id : EntityTypeId
  name : String
  native : Option NativeType := none
  table : Option String := none
  schema : Option String := none
  properties : List Property := []
  key : Option Key := none
  foreignKeys : List ForeignKey := []
  /-- Whether the baseline value of a property is captured when it is first written, and not for
  every property as soon as there is an entry. -/
  capturesLazily : Bool := true

namespace EntityType

variable (t : EntityType)

/-- The table of the store; the name of the entity type unless one is given. -/
def tableName : String :=
  t.table.getD t.name

/-- The table with its schema. -/
def qualifiedTable : QualifiedName :=
  ⟨t.schema, t.tableName⟩

/-- The property of a name. -/
def property? (name : String) : Option Property :=
  t.properties.find? (·.name == name)

/-- The property of a name, or the reason why there is none. -/
def property (name : String) : Result Property :=
  match t.property? name with
  | some p => .ok p
  | none => .error (.notFound .property name (some t.name))

/-- The primary key, or the reason why there is none. -/
def primaryKey : Result Key :=
  match t.key with
  | some k => .ok k
  | none => .error (.notFound .key "primary key" (some t.name))

/-- Whether a property is one of this entity type. -/
def owns (p : Property) : Bool :=
  p.owner == t.id && p.index < t.properties.length

/-- Whether a property is part of the primary key. -/
def inKey (p : Property) : Bool :=
  t.key.any (·.contains p)

/-- Whether a property is part of the primary key or of a foreign key. -/
def inRelationship (p : Property) : Bool :=
  t.inKey p || t.foreignKeys.any (·.dependent.contains p)

/-- Adds an identity to identities in ascending order, unless it is among them. -/
def insertId (id : EntityTypeId) : List EntityTypeId → List EntityTypeId
  | [] => [id]
  | other :: rest =>
    if id.number < other.number then id :: other :: rest
    else if id = other then other :: rest
    else other :: insertId id rest

/-- The other entity types that foreign keys refer to, in ascending order, each once. -/
def principals : List EntityTypeId :=
  ((t.foreignKeys.map (·.principal.owner)).filter (· != t.id)).foldl (fun ids id =>
    insertId id ids) []

/-! ## Building -/

/-- The property that a declaration becomes in this entity type, at its end. -/
def place (spec : PropertySpec) : Property where
  name := spec.name
  owner := t.id
  ownerName := t.name
  index := t.properties.length
  valueType := spec.valueType
  nullable := spec.nullable
  shadow := spec.shadow || t.native.isNone
  concurrencyToken := spec.concurrencyToken
  clientGenerated := spec.clientGenerated
  storeGeneration := spec.storeGeneration
  column := spec.column
  tableKey := spec.tableKey

/-- Adds a property, which needs a name of its own. -/
def addProperty (spec : PropertySpec) : Result (Property × EntityType) :=
  if spec.name.isEmpty then .error (.configuration (.emptyPropertyName t.name))
  else if (t.property? spec.name).isSome then
    .error (.configuration (.duplicateProperty t.name spec.name))
  else .ok (t.place spec, { t with properties := t.properties ++ [t.place spec] })

/-- Sets the primary key, which has to consist of properties of this entity type. -/
def setKey (properties : List Property) : Result (Key × EntityType) := do
  let key ← Key.ofProperties properties
  if key.owner = t.id then return (key, { t with key := some key })
  else throw (.configuration (.strangeKey key.ownerName t.name))

/-- Adds a foreign key from properties of this entity type to a key. -/
def addForeignKey (principal : Key) (properties : List Property) :
    Result (ForeignKey × EntityType) := do
  let fk ← ForeignKey.ofProperties principal properties
  if fk.dependent.owner = t.id then return (fk, { t with foreignKeys := t.foreignKeys ++ [fk] })
  else throw (.configuration (.strangeForeignKey t.name))

end EntityType

end EntityMapper
