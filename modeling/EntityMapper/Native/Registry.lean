import EntityMapper.FirstWins
import EntityMapper.Native.Accessor

/-!
# The registry of native types

Native types are registered with their accessors and, where instances can be made from nothing, with
the fields of a fresh instance. The first registration for a type and name stays for good.
-/

namespace EntityMapper

/-- What is registered for one native type. -/
structure Registration where
  native : NativeType
  /-- The fields of a fresh instance, if there is one. -/
  fresh : Option Fields
  accessors : List Accessor

/-- The registered native types. -/
structure Registry where
  accessors : FirstWins (NativeType × String) Accessor
  fresh : FirstWins NativeType Fields

namespace Registry

/-- Nothing is registered. -/
def empty : Registry := ⟨.empty, .empty⟩

variable (r : Registry)

/-- Adds what is not registered yet. -/
def register (registration : Registration) : Registry where
  accessors := registration.accessors.foldl (fun c a => c.add (registration.native, a.name) a)
    r.accessors
  fresh := match registration.fresh with
    | some fields => r.fresh.add registration.native fields
    | none => r.fresh

/-- The accessor of a property name on a native type. -/
def accessor? (native : NativeType) (name : String) : Option Accessor :=
  r.accessors.find? (native, name)

/-- The accessor of a property of an entity type with a native type. -/
def accessorOf (t : EntityType) (p : Property) : Result Accessor :=
  match t.native.bind fun native => r.accessor? native p.name with
  | some a => .ok a
  | none => .error (.notFound .accessor p.name (some t.name))

/-- A fresh instance of a native type. -/
def freshInstance (native : NativeType) : Result Instance :=
  match r.fresh.find? native with
  | some fields => .ok ⟨native, fields⟩
  | none => .error (.notFound .accessor native.name none)

end Registry

end EntityMapper
