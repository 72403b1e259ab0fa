import EntityMapper.Query.Pushdown

/-!
# Compiling queries

`Compilation.compile` registers the sources of a query, adds what its filters say about each of the
registered sources to the predicate of that source, and reads what the query selects. A failure
leaves what was done before it.
-/

namespace EntityMapper

namespace Compilation

/-- The entries of some identities, with that of one identity put in the place of what was there. -/
def put {α : Type} (id : SourceId) (a : α) (entries : SourceId → Option α) : SourceId → Option α :=
  fun id' => if id' = id then some a else entries id'

/-- Registers a source, unless something is fetched for its identity. -/
def addSource (c : Compilation) (s : QuerySource) : Result Compilation :=
  match c.select? s.id with
  | some _ => .ok c
  | none =>
    match s.itemType.resolve c.model with
    | some t =>
      .ok { c with
        select? := put s.id ⟨s.id, s.itemName, t, none, []⟩ c.select?
        source? := put s.id s c.source?
        order := c.order ++ [s.id] }
    | none => .error (.notFound .entityType s.itemType.display none)

/-- Changes what is fetched for a source. -/
def modifySelect (c : Compilation) (id : SourceId) (f : Select → Select) : Compilation :=
  match c.select? id with
  | some s => { c with select? := put id (f s) c.select? }
  | none => c

/-- Changes what is fetched for a source, or fails where there is nothing. -/
def changeSelect (c : Compilation) (id : SourceId) (f : Select → Select) : Result Compilation := do
  let _ ← c.select id
  return c.modifySelect id f

/-- A step of a compilation, which may fail halfway. -/
abbrev Step (α : Type) := ExceptT Error (StateM Compilation) α

namespace Step

/-- Reads from the compilation. -/
def read {α : Type} (f : Compilation → Result α) : Step α :=
  ExceptT.mk fun c => (f c, c)

/-- Changes the compilation, or fails and leaves it alone. -/
def update (f : Compilation → Result Compilation) : Step Unit :=
  ExceptT.mk fun c =>
    match f c with
    | .ok c => (.ok (), c)
    | .error err => (.error err, c)

end Step

/-- What a filter says about each registered source, in order. -/
def pushDownAll (c : Compilation) (filter : Expression) :
    Result (List (SourceId × Option Predicate)) :=
  c.order.mapM fun id => do
    return (id, ← c.pushDown (some id) filter)

/-- Adds the predicate of a source, if there is one. -/
def addPushedDown (c : Compilation) : SourceId × Option Predicate → Result Compilation
  | (id, some p) => c.changeSelect id (·.demand p)
  | (_, none) => .ok c

/-- Adds what a filter says about each registered source, once that is known for all of them. -/
def addFilter (filter : Expression) : Step Unit := do
  let pushed ← Step.read (·.pushDownAll filter)
  pushed.forM fun p => Step.update (·.addPushedDown p)

/-- Reads a member, if it is bound. -/
def addMember (c : Compilation) (member : Expression) : Result Compilation :=
  match c.bind? none member with
  | some (p, s) => c.changeSelect s.source (·.project p)
  | none => .ok c

/-- Reads what a query selects. -/
def addSelector : Selector → Step Unit
  | .entity id => Step.update (·.changeSelect id (·.projectAll))
  | .members expressions => expressions.forM fun e => Step.update (·.addMember e)

/-- Registers the sources of a query, and adds its filters and what it selects. -/
def compileSteps (q : Query) : Step Unit := do
  q.sources.forM fun s => Step.update (·.addSource s)
  q.filters.forM addFilter
  addSelector q.selector

/-- Compiles a query; the compilation is also given after a failure. -/
def compile (c : Compilation) (q : Query) : Result Unit × Compilation :=
  ((compileSteps q).run).run c

end Compilation

end EntityMapper
