import EntityMapper.Query.Compilation

/-!
# The meaning of filters and predicates

A filter is read on an `Assignment`: one row of values for each query source, a reading of the
comparison operators, and values for everything that rows do not say. Truth has three values, since
a comparison with null is neither true nor false.

* `Assignment.truth` is the meaning of a filter; equality and inequality of tuples of one length go
  position by position (`Assignment.comparison`);
* `Predicate.truth` is the meaning of a predicate on one row;
* `Query.binding` says which property a member of a query names.
-/

namespace EntityMapper

/-! ## Truth -/

/-- The three values of a condition. -/
inductive Truth
  | yes
  | no
  | unknown
  deriving DecidableEq, Repr

namespace Truth

/-- Conjunction. -/
def both : Truth → Truth → Truth
  | .yes, t => t
  | .no, _ => .no
  | .unknown, .no => .no
  | .unknown, _ => .unknown

/-- Disjunction. -/
def either : Truth → Truth → Truth
  | .yes, _ => .yes
  | .no, t => t
  | .unknown, .yes => .yes
  | .unknown, _ => .unknown

/-- Negation. -/
def negation : Truth → Truth
  | .yes => .no
  | .no => .yes
  | .unknown => .unknown

/-- The conjunction of any number of conditions. -/
def all : List Truth → Truth :=
  List.foldr both .yes

/-- The disjunction of any number of conditions. -/
def any : List Truth → Truth :=
  List.foldr either .no

/-- A value in the place of a condition. -/
def ofValue : Value → Truth
  | .bool true => .yes
  | .bool false => .no
  | _ => .unknown

@[simp] theorem both_eq_yes {s t : Truth} : s.both t = .yes ↔ s = .yes ∧ t = .yes := by
  cases s <;> cases t <;> simp [both]

@[simp] theorem either_eq_yes {s t : Truth} : s.either t = .yes ↔ s = .yes ∨ t = .yes := by
  cases s <;> cases t <;> simp [either]

@[simp] theorem negation_eq_yes {t : Truth} : t.negation = .yes ↔ t = .no := by
  cases t <;> simp [negation]

theorem all_eq_yes {ts : List Truth} : all ts = .yes ↔ ∀ t ∈ ts, t = .yes := by
  induction ts with
  | nil => simp [all]
  | cons t ts ih => simpa [all] using fun _ => ih

theorem any_eq_yes {ts : List Truth} : any ts = .yes ↔ .yes ∈ ts := by
  induction ts with
  | nil => simp [any]
  | cons t ts ih =>
    simp only [any, List.foldr_cons, either_eq_yes, List.mem_cons] at ih ⊢
    rw [ih, eq_comm]

theorem ofValue_eq_yes {v : Value} : ofValue v = .yes ↔ v = .bool true := by
  unfold ofValue
  split <;> simp_all

theorem ofValue_eq_no {v : Value} : ofValue v = .no ↔ v = .bool false := by
  unfold ofValue
  split <;> simp_all

end Truth

/-! ## Assignments -/

/-- The values of one item, by the positions of its properties. -/
abbrev Row := Nat → Value

/-- The property that a name stands for on the items of a source. -/
abbrev Binding := SourceId → String → Option Property

/-- The property that a member of a query names: one of the entity type that the source ranges
over. -/
def Query.binding (q : Query) (m : Model) : Binding := fun id name => do
  let s ← q.sources.find? (·.id == id)
  let t ← s.itemType.resolve m
  t.property? name

/-- What a filter is read on. -/
structure Assignment where
  /-- How a comparison of two values comes out. -/
  compare : Comparison → Value → Value → Truth
  /-- The row of each source. -/
  rows : SourceId → Row
  /-- The values of calls, subqueries, whole items and members that no property is bound to. -/
  others : Expression → Value

namespace Assignment

variable (a : Assignment) (b : Binding)

/-- Operands may change sides: (in)equality stays, and an order is turned around. -/
structure Mirrored : Prop where
  equal : ∀ v w, a.compare .equal w v = a.compare .equal v w
  notEqual : ∀ v w, a.compare .notEqual w v = a.compare .notEqual v w
  less : ∀ v w, a.compare .greater w v = a.compare .less v w
  lessOrEqual : ∀ v w, a.compare .greaterOrEqual w v = a.compare .lessOrEqual v w
  greater : ∀ v w, a.compare .less w v = a.compare .greater v w
  greaterOrEqual : ∀ v w, a.compare .lessOrEqual w v = a.compare .greaterOrEqual v w

/-- Every value but null equals itself. -/
def Reflexive : Prop :=
  ∀ v : Value, v.isNull = false → a.compare .equal v v = .yes

/-! ## Filters -/

/-- The value of an operand. -/
def value : Expression → Value
  | .constant v => v
  | .member (.source id) name =>
    match b id name with
    | some p => a.rows id p.index
    | none => a.others (.member (.source id) name)
  | e => a.others e

mutual

/-- The truth of a comparison. Tuples of one length are equal if they are in all positions, and
different if they are in some. -/
def comparison (op : Comparison) (left right : Expression) : Truth :=
  match left, right with
  | .tuple ls, .tuple rs =>
    if op.isEquality ∧ ls.length = rs.length then
      if op = .equal then .all (comparisons op ls rs) else .any (comparisons op ls rs)
    else a.compare op (a.others (.tuple ls)) (a.others (.tuple rs))
  | left, right => a.compare op (a.value b left) (a.value b right)

/-- The truth of a comparison in each position. -/
def comparisons (op : Comparison) : List Expression → List Expression → List Truth
  | l :: ls, r :: rs => comparison op l r :: comparisons op ls rs
  | _, _ => []

end

/-- The truth of a filter. -/
def truth : Expression → Truth
  | .compare op left right => a.comparison b op left right
  | .both left right => (truth left).both (truth right)
  | .either left right => (truth left).either (truth right)
  | .negation operand => (truth operand).negation
  | e => .ofValue (a.value b e)

end Assignment

/-! ## Comparing by texts -/

/-- Comparisons of values by their texts; null is not comparable. -/
def textCompare (op : Comparison) (v w : Value) : Truth :=
  if v.isNull || w.isNull then .unknown
  else .ofValue <| .bool <| match op with
    | .equal => v.display == w.display
    | .notEqual => v.display != w.display
    | .less => decide (v.display < w.display)
    | .lessOrEqual => !decide (w.display < v.display)
    | .greater => decide (w.display < v.display)
    | .greaterOrEqual => !decide (v.display < w.display)

/-- The operator that operands are given when they change sides. -/
theorem Assignment.Mirrored.swap {a : Assignment} (h : a.Mirrored) (op : Comparison) (v w : Value) :
    a.compare op.swap w v = a.compare op v w := by
  cases op with
  | equal => exact h.equal v w
  | notEqual => exact h.notEqual v w
  | less => exact h.less v w
  | lessOrEqual => exact h.lessOrEqual v w
  | greater => exact h.greater v w
  | greaterOrEqual => exact h.greaterOrEqual v w

theorem mirrored_of_textCompare {a : Assignment} (h : a.compare = textCompare) : a.Mirrored := by
  constructor
  all_goals
    intro v w
    rw [h]
    simp [textCompare, Bool.or_comm, bne, Bool.beq_comm]

theorem reflexive_of_textCompare {a : Assignment} (h : a.compare = textCompare) : a.Reflexive := by
  intro v hv
  rw [h]
  simp [textCompare, hv, Truth.ofValue]

/-! ## Predicates -/

/-- The truth of a predicate on a row, under a reading of comparisons. -/
def Predicate.truth (compare : Comparison → Value → Value → Truth) (row : Row) : Predicate → Truth
  | .compare op p c => compare op (row p.index) c.value
  | .both l r => (l.truth compare row).both (r.truth compare row)
  | .either l r => (l.truth compare row).either (r.truth compare row)

end EntityMapper
