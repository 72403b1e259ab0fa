import EntityMapper.Metadata.Property

/-!
# Keys and foreign keys

A `Key` is a non-empty list of properties of one entity type. A `ForeignKey` pairs the properties of
a key on the dependent side with those of a key on the principal side, position by position.
-/

namespace EntityMapper

/-- A non-empty list of properties of one entity type. -/
structure Key where
  first : Property
  rest : List Property
  oneOwner : ∀ p ∈ rest, p.owner = first.owner

namespace Key

/-- The properties in key order. -/
def properties (k : Key) : List Property :=
  k.first :: k.rest

/-- The entity type that the properties belong to. -/
def owner (k : Key) : EntityTypeId :=
  k.first.owner

/-- The name of that entity type. -/
def ownerName (k : Key) : String :=
  k.first.ownerName

/-- Whether the key has more than one property. -/
def isComposite (k : Key) : Bool :=
  !k.rest.isEmpty

/-- Whether a property is part of the key. -/
def contains (k : Key) (p : Property) : Bool :=
  k.properties.any (·.same p)

/-- The key of some properties, which have to be of one entity type. -/
def ofProperties : List Property → Result Key
  | [] => .error (.configuration .emptyKey)
  | first :: rest =>
    match h : rest.find? (·.owner != first.owner) with
    | some stranger => .error (.configuration (.mixedKey stranger.display first.display))
    | none => .ok ⟨first, rest, fun p hp => by simpa using List.find?_eq_none.1 h p hp⟩

end Key

/-- Properties of a dependent entity type that refer to a key of a principal one. -/
structure ForeignKey where
  principal : Key
  dependent : Key
  sameLength : dependent.properties.length = principal.properties.length

namespace ForeignKey

/-- The foreign key of some properties to a key of the same length. -/
def ofProperties (principal : Key) (properties : List Property) : Result ForeignKey := do
  let dependent ← Key.ofProperties properties
  if h : dependent.properties.length = principal.properties.length then
    return ⟨principal, dependent, h⟩
  else
    throw (.configuration (.arity dependent.properties.length principal.ownerName
      principal.properties.length))

end ForeignKey

end EntityMapper
