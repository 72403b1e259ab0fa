import EntityMapper.Metadata.EntityType
import EntityMapper.Value.Native

/-!
# Instances and accessors

An instance of a native type is a record of named fields, each shown as a value. An `Accessor` reads
one property of the instances of one native type and writes it, where writing may be refused and
then leaves the fields alone.

`Accessor.field` is the accessor that reads and writes the field of its own name, which holds
contents of one kind.
-/

namespace EntityMapper

/-- The fields of an instance, each with its contents as a value. -/
abbrev Fields := List (String × Value)

namespace Fields

/-- The contents of a field; null if there is none of the name. -/
def get (fields : Fields) (name : String) : Value :=
  (fields.lookup name).getD .null

/-- The fields with the contents of one replaced, or added. -/
def set (name : String) (v : Value) : Fields → Fields
  | [] => [(name, v)]
  | (n, w) :: rest => if n = name then (n, v) :: rest else (n, w) :: set name v rest

end Fields

/-- An instance of a native type. -/
structure Instance where
  type : NativeType
  fields : Fields
  deriving Repr

/-- How a property of a native type is read and written. -/
structure Accessor where
  owner : NativeType
  name : String
  read : Fields → Value
  write : Fields → Value → Result Fields

namespace Accessor

variable (a : Accessor)

/-- The refusal of an instance of another type. -/
def strangeInstance : Error :=
  .type a.owner.name "instance of another native type" none

/-- Reads the property of an instance of the right type. -/
def get (i : Instance) : Result Value :=
  if i.type = a.owner then .ok (a.read i.fields) else .error a.strangeInstance

/-- Writes the property of an instance of the right type. -/
def set (i : Instance) (v : Value) : Result Instance :=
  if i.type = a.owner then (a.write i.fields v).map fun fields => { i with fields }
  else .error a.strangeInstance

/-- The accessor of the field of its own name. -/
def field (owner : NativeType) (name : String) (kind : NativeKind) : Accessor where
  owner
  name
  read fields := fields.get name
  write fields v := (kind.ofValue v).map fun c => fields.set name (kind.toValue c)

end Accessor

/-- Writes some properties one after the other. A refusal ends this, and what was written before it
stays. -/
def Instance.assign (i : Instance) : List (Accessor × Value) → Result Unit × Instance
  | [] => (.ok (), i)
  | (a, v) :: rest =>
    match a.set i v with
    | .ok i => i.assign rest
    | .error err => (.error err, i)

end EntityMapper
