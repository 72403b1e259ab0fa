import EntityMapper.Number.Binary

/-!
# JSON documents

A document is a tree of nulls, truth values, numbers, strings, arrays and objects. A reader keeps
the members of an object as they were written; `Json.canonical` orders them by name, and of
members with one name keeps the last. `Json.equal` compares canonical documents.
-/

namespace EntityMapper

/-- A number of a document: integers and floating-point numbers are of different kinds. -/
inductive JsonNumber
  | integer (n : Int)
  /-- Neither infinite nor not-a-number, which documents have no text for. -/
  | float (x : Double) (finite : x.isFinite = true)
  deriving DecidableEq, Repr

/-- A JSON document. -/
inductive Json
  | null
  | bool (b : Bool)
  | number (n : JsonNumber)
  | string (s : String)
  | array (items : List Json)
  | object (members : List (String × Json))
  deriving Repr, Inhabited

/-- Numbers of one kind are compared by value. -/
def JsonNumber.equal : JsonNumber → JsonNumber → Bool
  | .integer m, .integer n => m == n
  | .float x _, .float y _ => x.equal y
  | _, _ => false

namespace Json

mutual

/-- Equality of canonical documents. -/
def equal : Json → Json → Bool
  | .null, .null => true
  | .bool a, .bool b => a == b
  | .number a, .number b => a.equal b
  | .string a, .string b => a == b
  | .array a, .array b => equalItems a b
  | .object a, .object b => equalMembers a b
  | _, _ => false

/-- Equality of arrays, item by item. -/
def equalItems : List Json → List Json → Bool
  | [], [] => true
  | a :: as, b :: bs => equal a b && equalItems as bs
  | _, _ => false

/-- Equality of objects whose members are ordered by name. -/
def equalMembers : List (String × Json) → List (String × Json) → Bool
  | [], [] => true
  | (k, a) :: as, (l, b) :: bs => k == l && equal a b && equalMembers as bs
  | _, _ => false

end

/-- Adds a member to members ordered by name; a member of that name is replaced. -/
def insertMember (name : String) (value : Json) : List (String × Json) → List (String × Json)
  | [] => [(name, value)]
  | (k, v) :: rest =>
    if name < k then (name, value) :: (k, v) :: rest
    else if name = k then (name, value) :: rest
    else (k, v) :: insertMember name value rest

mutual

/-- The document with the members of every object ordered by name, the last of each name. -/
def canonical : Json → Json
  | .array items => .array (canonicalItems items)
  | .object members => .object (canonicalMembers [] members)
  | other => other

/-- The items in canonical form. -/
def canonicalItems : List Json → List Json
  | [] => []
  | a :: as => canonical a :: canonicalItems as

/-- The members in canonical form, added to those ordered so far. -/
def canonicalMembers (ordered : List (String × Json)) :
    List (String × Json) → List (String × Json)
  | [] => ordered
  | (k, v) :: rest => canonicalMembers (insertMember k (canonical v) ordered) rest

end

end Json

end EntityMapper
