import EntityMapper.Metadata.Property

/-!
# Sidecars

A sidecar is a named overlay on an entry: it covers some properties and holds at most one value for
each. Its flags say how the entry uses it: whether reads see its values, whether writes to covered
properties go to it, and whether its values are committed into the entry after a save.

Two sidecars have names of their own. The one named `Sidecar.baselineName` holds baseline values:
what properties held before their pending changes. The one named `Sidecar.generatedName` holds the
values that the store generated during a save.
-/

namespace EntityMapper

/-- A named overlay of values. -/
structure Sidecar where
  name : String
  covered : List Property
  /-- The values by the positions of their properties. -/
  values : List (Nat × Value)
  /-- Whether reads of the entry see the values. -/
  transparentRead : Bool := false
  /-- Whether writes of the entry to covered properties are kept here. -/
  transparentWrite : Bool := false
  /-- Whether the values are copied into the entry once a save succeeded. -/
  autoCommit : Bool := false

namespace Sidecar

/-- The name of the sidecar that holds baseline values. -/
def baselineName : String := "OriginalValues"

/-- The name of the sidecar that receives generated values during a save. -/
def generatedName : String := "StoreGeneratedValues"

/-- An empty sidecar that reads and writes pass by. -/
def plain (name : String) (covered : List Property) : Sidecar :=
  { name, covered, values := [] }

/-- The sidecar for baseline values. -/
def baseline (properties : List Property) : Sidecar :=
  plain baselineName properties

/-- The sidecar for generated values: reads and writes go through it, and its values are committed
when the save succeeds. -/
def generated (properties : List Property) : Sidecar :=
  { plain generatedName properties with
    transparentRead := true, transparentWrite := true, autoCommit := true }

variable (s : Sidecar)

/-- Whether a property is covered. -/
def covers (p : Property) : Bool :=
  s.covered.any (·.same p)

/-- The value held for a property. -/
def get? (p : Property) : Option Value :=
  if s.covers p then s.values.lookup p.index else none

/-- Whether a value is held for a property. -/
def hasValue (p : Property) : Bool :=
  (s.get? p).isSome

/-- Values with the one at a position replaced or added. -/
def put (index : Nat) (v : Value) : List (Nat × Value) → List (Nat × Value)
  | [] => [(index, v)]
  | (i, w) :: rest => if i = index then (i, v) :: rest else (i, w) :: put index v rest

/-- Holds a value for a covered property. -/
def set (p : Property) (v : Value) : Result Sidecar :=
  if s.covers p then .ok { s with values := put p.index v s.values }
  else .error (.notFound .property p.name (some ("sidecar '" ++ s.name ++ "'")))

/-- Drops the value of a property. -/
def remove (p : Property) : Sidecar :=
  if s.covers p then { s with values := s.values.filter (·.1 != p.index) } else s

/-- Drops all values. -/
def clear : Sidecar :=
  { s with values := [] }

/-- Whether no value is held. -/
def isEmpty : Bool :=
  s.values.isEmpty

/-- The held values, in the order of the covered properties. -/
def stored : List (Property × Value) :=
  s.covered.filterMap fun p => (s.values.lookup p.index).map fun v => (p, v)

end Sidecar

end EntityMapper
