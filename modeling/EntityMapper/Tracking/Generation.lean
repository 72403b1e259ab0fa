import EntityMapper.FirstWins
import EntityMapper.Metadata.EntityType

/-!
# Generated values

When an entity is added, the client generates values for some of its properties. Each such property
draws from one generator for good: an override for its declared type if there is one, which all
properties of the type share, and otherwise one of its own, which counts down from minus one for
integers and draws random identifiers for identifiers and text.

Randomness is a source that is part of the `Generators`: the bits of each draw of each generator.
-/

namespace EntityMapper

/-- How values are generated. -/
inductive Generator
  /-- Counts down from minus one, in 64 bits. -/
  | temporaryInteger
  /-- Random identifiers. -/
  | randomUuid
  /-- The texts of random identifiers. -/
  | randomText
  /-- Any rule on the number of earlier draws and the property; a draw may fail. -/
  | custom (draw : Nat → Property → Result Value)

/-- The identity of a generator. -/
structure GeneratorId where
  number : Nat
  deriving DecidableEq, Repr

/-- A generator with the number of its draws so far. -/
structure Source where
  generator : Generator
  drawn : Nat

/-- The generators of a session. -/
structure Generators where
  /-- The first override for a type counts. -/
  overrides : List (ValueType × GeneratorId)
  /-- The generators that properties have drawn from, by entity type and position. -/
  chosen : FirstWins (EntityTypeId × Nat) GeneratorId
  /-- All generators by identity. -/
  sources : List Source
  /-- The random bits of each draw of each generator. -/
  random : GeneratorId → Nat → BitVec 128

namespace Generators

/-- The generators with some overrides for declared types. -/
def ofOverrides (overrides : List (ValueType × Generator))
    (random : GeneratorId → Nat → BitVec 128) : Generators where
  overrides := overrides.zipIdx.map fun ((t, _), i) => (t, ⟨i⟩)
  chosen := .empty
  sources := overrides.map fun (_, g) => ⟨g, 0⟩
  random

/-- The generator that a property of a declared type has to itself. -/
def builtIn? (t : ValueType) : Option Generator :=
  if t.isInteger then some .temporaryInteger
  else match t with
    | .uuid => some .randomUuid
    | .text => some .randomText
    | _ => none

variable (g : Generators)

/-- The generator of a property, chosen at its first use. -/
def choose (t : EntityType) (p : Property) : Result (GeneratorId × Generators) :=
  let key := (t.id, p.index)
  match g.chosen.find? key with
  | some id => .ok (id, g)
  | none =>
    match g.overrides.lookup p.valueType with
    | some id => .ok (id, { g with chosen := g.chosen.add key id })
    | none =>
      match builtIn? p.valueType with
      | some generator =>
        let id : GeneratorId := ⟨g.sources.length⟩
        .ok (id, { g with
          chosen := g.chosen.add key id, sources := g.sources ++ [⟨generator, 0⟩] })
      | none => .error (.configuration (.noGenerator p.display p.valueType.name))

/-- What the generator of an identity gives at a draw. -/
def valueAt (id : GeneratorId) (generator : Generator) (drawn : Nat) (p : Property) :
    Result Value :=
  match generator with
  | .temporaryInteger => p.valueType.coerce (.bigInt (.ofInt (-1 - (drawn : Int))))
  | .randomUuid => .ok (.uuid (.random (g.random id drawn)))
  | .randomText => .ok (.text (Uuid.random (g.random id drawn)).display)
  | .custom draw => draw drawn p

/-- Draws the next value for a property, which counts even if the draw fails. An identity without a
generator gives null. -/
def next (id : GeneratorId) (p : Property) : Result Value × Generators :=
  match g.sources[id.number]? with
  | none => (.ok .null, g)
  | some s =>
    (g.valueAt id s.generator s.drawn p,
      { g with sources := g.sources.set id.number { s with drawn := s.drawn + 1 } })

/-- Draws some values for a property, one after the other. -/
def draws (g : Generators) (id : GeneratorId) (p : Property) :
    Nat → List (Result Value) × Generators
  | 0 => ([], g)
  | n + 1 =>
    let (v, g) := g.next id p
    let (rest, g) := g.draws id p n
    (v :: rest, g)

end Generators

end EntityMapper
