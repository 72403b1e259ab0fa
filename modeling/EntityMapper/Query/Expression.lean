import EntityMapper.Metadata.Model

/-!
# Queries

A query ranges over sources, keeps the combinations of items for which its filters hold, and selects
either a whole item or a list of members. `Expression` is the tree of a filter or member; it may
hold queries in turn.

Expressions and queries have a text (`Expression.display`, `Query.display`), in which a source is
shown by its identity. Two expressions are equal (`Expression.equal`) when they are the same tree
with equal constants.
-/

namespace EntityMapper

/-- A comparison operator. -/
inductive Comparison
  | equal
  | notEqual
  | less
  | lessOrEqual
  | greater
  | greaterOrEqual
  deriving DecidableEq, Repr

namespace Comparison

/-- All operators. -/
def all : List Comparison :=
  [.equal, .notEqual, .less, .lessOrEqual, .greater, .greaterOrEqual]

/-- The operator in SQL. -/
def sql : Comparison → String
  | .equal => "="
  | .notEqual => "<>"
  | .less => "<"
  | .lessOrEqual => "<="
  | .greater => ">"
  | .greaterOrEqual => ">="

/-- The operator of a text in SQL. -/
def ofSql? (s : String) : Option Comparison :=
  all.find? (·.sql == s)

/-- The operator that compares the operands in the other order. -/
def swap : Comparison → Comparison
  | .less => .greater
  | .lessOrEqual => .greaterOrEqual
  | .greater => .less
  | .greaterOrEqual => .lessOrEqual
  | other => other

/-- Whether the operator asks only whether the operands are equal. -/
def isEquality : Comparison → Bool
  | .equal | .notEqual => true
  | _ => false

end Comparison

/-- The identity of a query source. -/
structure SourceId where
  number : Nat
  deriving DecidableEq, Repr

/-- The text of an identity. -/
def SourceId.display (id : SourceId) : String :=
  "#" ++ toString id.number

/-- What a query source ranges over: the entities of a named type or of a native type. -/
inductive ItemType
  | native (type : NativeType)
  | named (name : String)
  deriving DecidableEq, Repr

namespace ItemType

/-- The entity type that is meant. -/
def resolve (m : Model) : ItemType → Option EntityType
  | .native t => m.typeBackedBy? t
  | .named name => m.typeNamed? name

/-- The text of an item type. -/
def display : ItemType → String
  | .native t => t.name
  | .named name => name

end ItemType

/-- A source that a query ranges over, with the name of its items. -/
structure QuerySource where
  id : SourceId
  itemName : String
  itemType : ItemType
  deriving DecidableEq, Repr

mutual

/-- A filter, a member or an operand of these. -/
inductive Expression
  /-- The current item of a source. -/
  | source (id : SourceId)
  | member (target : Expression) (name : String)
  | constant (v : Value)
  /-- Several expressions, compared position by position. -/
  | tuple (parts : List Expression)
  | compare (op : Comparison) (left right : Expression)
  | both (left right : Expression)
  | either (left right : Expression)
  | negation (operand : Expression)
  | subquery (query : Query)
  | call (method : String) (arguments : List Expression)

/-- A query: its first source, the clauses that follow, and what it selects. -/
inductive Query
  | mk (main : QuerySource) (body : List Clause) (selector : Selector)

/-- A further source, or a filter. -/
inductive Clause
  | range (source : QuerySource)
  | filter (condition : Expression)

/-- What a query selects. -/
inductive Selector
  | entity (id : SourceId)
  | members (expressions : List Expression)

end

instance : Inhabited Expression := ⟨.constant .null⟩

instance : Inhabited Query := ⟨.mk ⟨⟨0⟩, "", .named ""⟩ [] (.members [])⟩

namespace Query

/-- The first source. -/
def main : Query → QuerySource
  | .mk m _ _ => m

/-- The clauses after the first source. -/
def body : Query → List Clause
  | .mk _ b _ => b

/-- What is selected. -/
def selector : Query → Selector
  | .mk _ _ s => s

/-- The sources in the order of their clauses. -/
def sources (q : Query) : List QuerySource :=
  q.main :: q.body.filterMap fun
    | .range s => some s
    | .filter _ => none

/-- The filters in the order of their clauses. -/
def filters (q : Query) : List Expression :=
  q.body.filterMap fun
    | .range _ => none
    | .filter e => some e

end Query

namespace Expression

/-- A member of the current item of a source. -/
def property (id : SourceId) (name : String) : Expression :=
  .member (.source id) name

/-- What messages call the kind of an expression. -/
def kindName : Expression → String
  | .source _ => "QuerySourceReference"
  | .member _ _ => "Member"
  | .constant _ | .tuple _ => "Constant"
  | .compare _ _ _ => "Comparison"
  | .both _ _ => "AndAlso"
  | .either _ _ => "OrElse"
  | .negation _ => "Not"
  | .subquery _ => "SubQuery"
  | .call _ _ => "MethodCall"

end Expression

/-! ## Texts -/

/-- The text of a source in a query. -/
def QuerySource.display (s : QuerySource) : String :=
  "from " ++ s.itemType.display ++ " " ++ s.itemName ++ " in " ++ s.id.display

mutual

/-- The text of an expression. -/
def Expression.display : Expression → String
  | .source id => "[" ++ id.display ++ "]"
  | .member target name => target.display ++ "." ++ name
  | .constant v => match v with
    | .text s => "\"" ++ s ++ "\""
    | v => v.display
  | .tuple parts => "(" ++ joined ", " (Expression.displayAll parts) ++ ")"
  | .compare op left right =>
    "(" ++ left.display ++ " " ++ op.sql ++ " " ++ right.display ++ ")"
  | .both left right => "(" ++ left.display ++ " AndAlso " ++ right.display ++ ")"
  | .either left right => "(" ++ left.display ++ " OrElse " ++ right.display ++ ")"
  | .negation operand => "Not(" ++ operand.display ++ ")"
  | .subquery query => "\x7b" ++ query.display ++ "\x7d"
  | .call method arguments => method ++ "(" ++ joined ", " (Expression.displayAll arguments) ++ ")"

/-- The texts of some expressions. -/
def Expression.displayAll : List Expression → List String
  | [] => []
  | e :: rest => e.display :: Expression.displayAll rest

/-- The text of a query. -/
def Query.display : Query → String
  | .mk main body selector =>
    main.display ++ String.join (Clause.displayAll body) ++ selector.display

/-- The texts of some clauses. -/
def Clause.displayAll : List Clause → List String
  | [] => []
  | c :: rest => c.display :: Clause.displayAll rest

/-- The text of a clause, after a blank. -/
def Clause.display : Clause → String
  | .range source => " " ++ source.display
  | .filter condition => " where " ++ condition.display

/-- The text of a selector, after a blank. -/
def Selector.display : Selector → String
  | .entity id => " select [" ++ id.display ++ "]"
  | .members expressions => " select (" ++ joined ", " (Expression.displayAll expressions) ++ ")"

end

/-! ## Equality -/

mutual

/-- Equality of expressions; constants are compared as values are. -/
def Expression.equal : Expression → Expression → Bool
  | .source a, .source b => a == b
  | .member a m, .member b n => a.equal b && m == n
  | .constant a, .constant b => Value.equal a b
  | .tuple a, .tuple b => Expression.equalAll a b
  | .compare o a b, .compare p c d => o == p && a.equal c && b.equal d
  | .both a b, .both c d => a.equal c && b.equal d
  | .either a b, .either c d => a.equal c && b.equal d
  | .negation a, .negation b => a.equal b
  | .subquery a, .subquery b => a.equal b
  | .call m a, .call n b => m == n && Expression.equalAll a b
  | _, _ => false

/-- Equality of lists of expressions. -/
def Expression.equalAll : List Expression → List Expression → Bool
  | [], [] => true
  | a :: as, b :: bs => a.equal b && Expression.equalAll as bs
  | _, _ => false

/-- Equality of queries. -/
def Query.equal : Query → Query → Bool
  | .mk m b s, .mk n c t => m == n && Clause.equalAll b c && s.equal t

/-- Equality of lists of clauses. -/
def Clause.equalAll : List Clause → List Clause → Bool
  | [], [] => true
  | a :: as, b :: bs => a.equal b && Clause.equalAll as bs
  | _, _ => false

/-- Equality of clauses. -/
def Clause.equal : Clause → Clause → Bool
  | .range a, .range b => a == b
  | .filter a, .filter b => a.equal b
  | _, _ => false

/-- Equality of selectors. -/
def Selector.equal : Selector → Selector → Bool
  | .entity a, .entity b => a == b
  | .members a, .members b => Expression.equalAll a b
  | _, _ => false

end

end EntityMapper
