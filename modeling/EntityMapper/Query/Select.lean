import EntityMapper.Query.Predicate

/-!
# What to fetch for a source

A `Select` says what is fetched from the store for one query source: the table of its entity type,
the predicate that rows have to meet, and the properties that are read, in order and each once.
-/

namespace EntityMapper

/-- What is fetched for one query source. -/
structure Select where
  source : SourceId
  /-- The name of the table in the command, which is the name of the source's items. -/
  tableAlias : String
  entityType : EntityType
  predicate : Option Predicate := none
  projection : List Property := []

namespace Select

variable (s : Select)

/-- The table of the entity type. -/
def table : QualifiedName :=
  s.entityType.qualifiedTable

/-- Demands a predicate besides the one so far. -/
def demand (p : Predicate) : Select :=
  { s with predicate := match s.predicate with
      | some existing => some (.both existing p)
      | none => some p }

/-- The position of a property among those that are read. -/
def indexOf? (p : Property) : Option Nat :=
  s.projection.findIdx? (·.same p)

/-- Reads a property too. -/
def project (p : Property) : Select :=
  if (s.indexOf? p).isSome then s else { s with projection := s.projection ++ [p] }

/-- Reads all properties of the entity type. -/
def projectAll : Select :=
  s.entityType.properties.foldl project s

end Select

end EntityMapper
