import EntityMapper.Value.Key

/-!
# The key values of entities

A key value identifies an entity among those of its type, or is null: a key with a null component
identifies nothing. Equality and hash data go component by component.
-/

namespace EntityMapper

/-- The value of a primary or foreign key. -/
inductive EntityKey
  | null
  | simple (v : Value)
  | composite (vs : List Value)
  deriving Repr

namespace EntityKey

/-- The key of components in key order. Without components, or with a null among them, the key is
null. -/
def ofValues (vs : List Value) : EntityKey :=
  if vs.isEmpty || vs.any Value.isNull then .null
  else match vs with
    | [v] => .simple v
    | vs => .composite vs

/-- Whether a key identifies nothing. -/
def isNull : EntityKey → Bool
  | .null => true
  | _ => false

/-- The components in key order. -/
def values : EntityKey → List Value
  | .null => []
  | .simple v => [v]
  | .composite vs => vs

/-- Equality of keys of one form, component by component. -/
def equal : EntityKey → EntityKey → Bool
  | .null, .null => true
  | .simple a, .simple b => a.keyEqual b
  | .composite a, .composite b => Value.keyEqualItems a b
  | _, _ => false

/-- The data that a key feeds to a hash function. -/
def hashData : EntityKey → List HashDatum
  | .null => [.kind 0]
  | .simple v => .kind 1 :: v.hashData
  | .composite vs => .kind 2 :: .length vs.length :: Value.hashItems vs

/-- The text of a key. -/
def display : EntityKey → String
  | .null => "<null key>"
  | .simple v => v.display
  | .composite vs => "(" ++ joined ", " (vs.map Value.display) ++ ")"

/-- The keys that a hashed set keeps of a list, in order: a key is dropped for an earlier one that
is equal and feeds the same data. -/
def distinct (keys : List EntityKey) : List EntityKey :=
  (keys.foldl (fun kept k =>
    if kept.any fun e => e.equal k && e.hashData == k.hashData then kept else k :: kept) []).reverse

end EntityKey

end EntityMapper
