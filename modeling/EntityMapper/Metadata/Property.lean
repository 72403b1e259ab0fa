import EntityMapper.Value.Coercion
import EntityMapper.Value.Native

/-!
# Properties

A property belongs to one entity type, at a position of its own there. It has a declared type, may
admit null, and says how its values come about: kept in the entry instead of a native field
(shadow), generated by the client when an entity is added, or generated by the store when it is
saved.

Two properties are the same (`Property.same`) when they have the same position in the same entity
type, whatever their names.
-/

namespace EntityMapper

/-- The identity of an entity type; types of one name are told apart by it. -/
structure EntityTypeId where
  number : Nat
  deriving DecidableEq, Repr

/-- When the store generates the value of a property. -/
inductive StoreGeneration
  | never
  | onInsert
  | onInsertAndUpdate
  deriving DecidableEq, Repr

namespace StoreGeneration

/-- Whether an inserted row has a generated value. -/
def insert : StoreGeneration → Bool
  | .never => false
  | _ => true

/-- Whether an updated row has a generated value. -/
def update : StoreGeneration → Bool
  | .onInsertAndUpdate => true
  | _ => false

end StoreGeneration

/-- The part of a property in the two-part keys of a table store. -/
inductive TableKey
  | partition
  | row
  deriving DecidableEq, Repr

/-- The declaration of a property, before it has a place in an entity type. -/
structure PropertySpec where
  name : String
  valueType : ValueType
  nullable : Bool := false
  shadow : Bool := false
  concurrencyToken : Bool := false
  clientGenerated : Bool := false
  storeGeneration : StoreGeneration := .never
  column : Option String := none
  tableKey : Option TableKey := none
  deriving DecidableEq, Repr

/-- The declaration of a property that fits a native field. -/
def PropertySpec.typed (name : String) (kind : NativeKind) : PropertySpec :=
  { name, valueType := kind.valueType, nullable := kind.isNullable }

/-- A property of an entity type. -/
structure Property where
  name : String
  owner : EntityTypeId
  ownerName : String
  /-- The position among the properties of its entity type. -/
  index : Nat
  valueType : ValueType
  nullable : Bool
  /-- Whether the value is kept in the entry, there being no native field. -/
  shadow : Bool
  concurrencyToken : Bool
  clientGenerated : Bool
  storeGeneration : StoreGeneration
  column : Option String
  tableKey : Option TableKey
  deriving DecidableEq, Repr

namespace Property

/-- Whether two properties have the same place in the same entity type. -/
def same (p q : Property) : Bool :=
  p.owner == q.owner && p.index == q.index

/-- The name of the entity type and the name of the property. -/
def display (p : Property) : String :=
  p.ownerName ++ "." ++ p.name

/-- The column of the store; the name of the property unless one is given. -/
def columnName (p : Property) : String :=
  p.column.getD p.name

/-- What a fresh instance holds: null if that is admitted, otherwise the zero of the type, which
is empty for text and bytes and the null document for documents. -/
def defaultValue (p : Property) : Value :=
  if p.nullable then .null
  else match p.valueType with
    | .text => .text ""
    | .bytes => .bytes []
    | .json => .json .null
    | t => t.defaultValue

/-- Whether a value is the default of a property. Null always is. -/
def isDefault (p : Property) (v : Value) : Bool :=
  v.isNull || v.keyEqual p.defaultValue

/-- A value in the representation of the declared type. Null is refused where a native field could
not hold it. -/
def coerce (p : Property) (v : Value) : Result Value :=
  if v.isNull && !p.nullable && !p.shadow then
    .error (.type p.valueType.name "NULL" (some p.name))
  else (p.valueType.coerce v).mapError (·.forProperty p.name)

@[simp] theorem same_self (p : Property) : p.same p = true := by simp [same]

theorem same_iff {p q : Property} : p.same q = true ↔ p.owner = q.owner ∧ p.index = q.index := by
  simp [same]

end Property

end EntityMapper
