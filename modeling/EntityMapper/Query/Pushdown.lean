import EntityMapper.Query.Select

/-!
# Pushing filters down

A `Compilation` holds the query sources that are registered so far, what is fetched for each of them,
and their order. Under it, `Compilation.pushDown` turns a filter into a predicate on the rows of one
source, or of any source if none is named.

What has no predicate is left to be decided after the rows are fetched. That is sound as long as a
predicate holds wherever its filter does, so a conjunction may drop a side and a disjunction may
not. An item that stands as a filter of its own is a defect, and an error.
-/

namespace EntityMapper

/-- A query source with what is fetched for it. -/
structure Registered where
  source : QuerySource
  select : Select

/-- The registered query sources and what is fetched for each of them, by identity, and the identities
in the order of registration. Nothing but the steps of a compilation keeps the three together. -/
structure Compilation where
  model : Model
  /-- The registered source of an identity. -/
  source? : SourceId → Option QuerySource := fun _ => none
  /-- What is fetched for a source. -/
  select? : SourceId → Option Select := fun _ => none
  order : List SourceId := []

namespace Compilation

variable (c : Compilation)

/-- A registered source with what is fetched for it. -/
def registered? (id : SourceId) : Option Registered := do
  return ⟨← c.source? id, ← c.select? id⟩

/-- The registered sources, in order. -/
def registered : List Registered :=
  c.order.filterMap c.registered?

/-- What is fetched for a source, or the reason why there is nothing. -/
def select (id : SourceId) : Result Select :=
  match c.select? id with
  | some s => .ok s
  | none => .error (.notFound .selectExpression id.display none)

/-! ## Binding -/

/-- The property that a member names, with what is fetched for its source. Only members of the item
of a registered source are bound, and only those of the given source if there is one. -/
def bind? (filter : Option SourceId) : Expression → Option (Property × Select)
  | .member (.source id) name =>
    if filter.all (· == id) then do
      let r ← c.registered? id
      let t ← r.source.itemType.resolve c.model
      let p ← t.property? name
      return (p, r.select)
    else none
  | _ => none

/-- One side of a comparison. -/
inductive Side
  | property (p : Property)
  | constant (v : Value)

/-- The side of a comparison that an expression is, unless it is neither a bound member nor a
constant other than null. -/
def side? (filter : Option SourceId) (e : Expression) : Option Side :=
  match e with
  | .constant v => if v.isNull then none else some (.constant v)
  | e => (c.bind? filter e).map fun (p, _) => .property p

/-- The comparison of a property with a constant. Properties that are part of a two-part key are
compared as text. -/
def compareProperty (op : Comparison) (p : Property) (v : Value) : Predicate :=
  .compare op p ⟨v, p.tableKey.isSome⟩

/-- A comparison of a member and a constant, in either order. -/
def comparison (filter : Option SourceId) (op : Comparison) (left right : Expression) :
    Option Predicate :=
  match c.side? filter left, c.side? filter right with
  | some (.property p), some (.constant v) => some (compareProperty op p v)
  | some (.constant v), some (.property p) => some (compareProperty op.swap p v)
  | _, _ => none

/-! ## Combining -/

/-- The conjunction of what two filters give. -/
def narrow : Option Predicate → Option Predicate → Option Predicate
  | some l, some r => some (.both l r)
  | some l, none => some l
  | none, r => r

/-- The disjunction of two filters, if both give a predicate. -/
def widen : Option Predicate → Option Predicate → Option Predicate
  | some l, some r => some (.either l r)
  | _, _ => none

/-- Tuples are equal if they are in all positions, and different if they are in some. -/
def combineParts (op : Comparison) : List (Option Predicate) → Option Predicate
  | [] => none
  | p :: rest => rest.foldl (if op = .equal then narrow else widen) p

/-! ## Pushing down -/

mutual

/-- An equality or inequality; between tuples of one length it goes position by position. -/
def equality (filter : Option SourceId) (op : Comparison) (left right : Expression) :
    Option Predicate :=
  match left, right with
  | .tuple ls, .tuple rs =>
    if ls.length = rs.length then combineParts op (equalities filter op ls rs) else none
  | left, right => c.comparison filter op left right

/-- The equalities of the parts of two tuples. -/
def equalities (filter : Option SourceId) (op : Comparison) :
    List Expression → List Expression → List (Option Predicate)
  | l :: ls, r :: rs => equality filter op l r :: equalities filter op ls rs
  | _, _ => []

end

/-- What a filter says about the rows of a source. -/
def pushDown (filter : Option SourceId) : Expression → Result (Option Predicate)
  | .compare op left right =>
    if op.isEquality then .ok (c.equality filter op left right)
    else .ok (c.comparison filter op left right)
  | .both left right => do
    let l ← pushDown filter left
    let r ← pushDown filter right
    return narrow l r
  | .either left right => do
    let l ← pushDown filter left
    let r ← pushDown filter right
    return widen l r
  | .negation operand => .ok (c.equality filter .equal operand (.constant (.bool false)))
  | .member target name =>
    match c.bind? filter (.member target name) with
    | some (p, _) =>
      if p.valueType = .bool then .ok (some (compareProperty .equal p (.bool true)))
      else .ok none
    | none => .ok none
  | .constant _ | .tuple _ | .subquery _ | .call _ _ => .ok none
  | .source id =>
    .error (.unhandledFilter ((Expression.source id).kindName ++ " " ++
      (Expression.source id).display))

end Compilation

end EntityMapper
