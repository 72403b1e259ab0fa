import EntityMapper.Metadata.EntityType

/-!
# Models

A model is a list of entity types. Look-ups give the first that fits.
-/

namespace EntityMapper

/-- The entity types that a program works with. -/
structure Model where
  types : List EntityType

namespace Model

variable (m : Model)

/-- The entity type of a name. -/
def typeNamed? (name : String) : Option EntityType :=
  m.types.find? (·.name == name)

/-- The entity type of a name, or the reason why there is none. -/
def typeNamed (name : String) : Result EntityType :=
  match m.typeNamed? name with
  | some t => .ok t
  | none => .error (.notFound .entityType name none)

/-- The entity type that is backed by a native type. -/
def typeBackedBy? (native : NativeType) : Option EntityType :=
  m.types.find? (·.native == some native)

/-- The entity type of an identity. -/
def typeOfId? (id : EntityTypeId) : Option EntityType :=
  m.types.find? (·.id == id)

end Model

end EntityMapper
