import EntityMapper.Proofs.Command.Meaning

/-!
# The syntax of commands

An operation is two statements: one changes a row, the other reads back what came of it. A
`Statement` says which columns it names and which parameters it compares them with or sets them to.
It is written as a list of pieces: words of the language, names between quotes, and placeholders.

`Dialect.operationText_eq` says that the text of an operation is that of its two statements, so what
is shown of statements holds of the text.
-/

namespace EntityMapper

/-! ## Pieces of text -/

/-- A piece of a statement. -/
inductive Piece
  /-- Words and marks of the language. -/
  | plain (s : String)
  /-- A name, between quotes. -/
  | name (s : String)
  /-- What stands for a parameter: its name, or a word if it is missing. -/
  | placeholder (parameter : Option String)

namespace Piece

variable (d : Dialect)

def text : Piece → String
  | plain s => s
  | name s => d.delimit s
  | placeholder parameter => parameter.getD "NULL"

/-- Pieces one after the other. -/
def textAll : List Piece → String
  | [] => ""
  | piece :: rest => piece.text d ++ textAll rest

/-- The pieces of several items, with a plain text between neighbours. -/
def separated (separator : String) : List (List Piece) → List Piece
  | [] => []
  | [item] => item
  | item :: rest => item ++ plain separator :: separated separator rest

variable {d} {separator s : String} {item other : List Piece} {rest : List (List Piece)}

@[simp] theorem text_plain : (plain s).text d = s := rfl

@[simp] theorem text_name : (name s).text d = d.delimit s := rfl

@[simp] theorem text_placeholder (parameter : Option String) :
    (placeholder parameter).text d = Dialect.parameterText parameter := rfl

/-- A parameter is written as its name. -/
theorem text_named : (placeholder (some s)).text d = s := rfl

@[simp] theorem textAll_nil : textAll d [] = "" := rfl

@[simp] theorem textAll_cons (piece : Piece) (rest : List Piece) :
    textAll d (piece :: rest) = piece.text d ++ textAll d rest := rfl

@[simp] theorem textAll_append (pieces others : List Piece) :
    textAll d (pieces ++ others) = textAll d pieces ++ textAll d others := by
  induction pieces with
  | nil => simp
  | cons piece pieces ih => simp [ih, String.append_assoc]

@[simp] theorem separated_nil : separated separator [] = [] := rfl

@[simp] theorem separated_singleton : separated separator [item] = item := rfl

@[simp] theorem separated_cons_cons :
    separated separator (item :: other :: rest) =
      item ++ plain separator :: separated separator (other :: rest) := rfl

@[simp] theorem textAll_separated (items : List (List Piece)) :
    textAll d (separated separator items) = joined separator (items.map (textAll d)) := by
  induction items with
  | nil => rfl
  | cons item rest ih =>
    cases rest with
    | nil => simp
    | cons other rest => simp [ih, String.append_assoc]

/-- What is read off names and placeholders is not changed by a separator. -/
theorem filterMap_separated {α : Type} {f : Piece → Option α} (h : f (plain separator) = none)
    (items : List (List Piece)) :
    (separated separator items).filterMap f = items.flatten.filterMap f := by
  induction items with
  | nil => rfl
  | cons item rest ih =>
    cases rest with
    | nil => simp
    | cons other rest =>
      rw [separated_cons_cons, List.filterMap_append, List.filterMap_cons_none h, ih,
        List.flatten_cons (L := other :: rest), List.filterMap_append]

end Piece

/-! ## Statements -/

/-- A condition on the row that was just written. -/
inductive WrittenCondition
  /-- The previous statement affected some number of rows. -/
  | affected (rows : Nat)
  /-- The column has the key that the previous statement generated. -/
  | generated (p : Property)
  /-- The column has the value of a parameter. -/
  | equation (q : Equation)

/-- A statement on a table. -/
inductive Statement
  /-- A new row with the values of parameters. -/
  | insert (values : List Equation)
  /-- Columns set to the values of parameters, where conditions hold. -/
  | update (settings conditions : List Equation)
  | delete (conditions : List Equation)
  /-- Columns of the rows that meet conditions. -/
  | select (columns : List Property) (conditions : List WrittenCondition)
  /-- The number of rows that the previous statement affected. -/
  | rowCount

/-- A column, its quotes added. -/
def Property.columnPiece (p : Property) : Piece :=
  .name p.columnName

/-- A table, its schema quoted by itself. -/
def QualifiedName.pieces (t : QualifiedName) : List Piece :=
  match t.schema with
  | some schema => [.name schema, .plain ".", .name t.name]
  | none => [.name t.name]

namespace Equation

def pieces (q : Equation) : List Piece :=
  [q.property.columnPiece, .plain " = ", .placeholder q.parameter]

/-- The columns and the values of a new row. -/
def rowPieces (values : List Equation) : List Piece :=
  if values.isEmpty then [.plain "\nDEFAULT VALUES"]
  else .plain " (" :: (Piece.separated ", " (values.map fun q => [q.property.columnPiece]) ++
    .plain ")\nVALUES (" :: (Piece.separated ", " (values.map fun q => [.placeholder q.parameter]) ++
      [.plain ")"]))

/-- Conditions on the rows to change; nothing without conditions. -/
def wherePieces (conditions : List Equation) : List Piece :=
  if conditions.isEmpty then []
  else .plain "\nWHERE " :: Piece.separated " AND " (conditions.map pieces)

end Equation

namespace WrittenCondition

/-- The equation with a parameter, if the condition is one. -/
def equation? : WrittenCondition → Option Equation
  | equation q => some q
  | _ => none

variable (d : Dialect)

def pieces : WrittenCondition → List Piece
  | affected rows => [.plain (d.rowCountCondition rows)]
  | generated p => [p.columnPiece, .plain (" = " ++ d.generatedKey)]
  | equation q => q.pieces

end WrittenCondition

namespace Statement

/-- The equations that give a row its values. -/
def settings : Statement → List Equation
  | insert values => values
  | update settings _ => settings
  | _ => []

/-- The equations that a row has to meet to be changed. -/
def conditions : Statement → List Equation
  | update _ conditions => conditions
  | delete conditions => conditions
  | _ => []

/-- The equations between columns and parameters, in order. -/
def equations : Statement → List Equation
  | insert values => values
  | update settings conditions => settings ++ conditions
  | delete conditions => conditions
  | select _ conditions => conditions.filterMap (·.equation?)
  | rowCount => []

variable (d : Dialect) (t : QualifiedName)

/-- The pieces of a statement before its end. -/
def words : Statement → List Piece
  | insert values => .plain "INSERT INTO " :: (t.pieces ++ Equation.rowPieces values)
  | update settings conditions =>
    .plain "UPDATE " :: (t.pieces ++ .plain " SET " ::
      (Piece.separated ", " (settings.map (·.pieces)) ++ Equation.wherePieces conditions))
  | delete conditions => .plain "DELETE FROM " :: (t.pieces ++ Equation.wherePieces conditions)
  | select columns conditions =>
    .plain "SELECT " :: (Piece.separated ", " (columns.map fun p => [p.columnPiece]) ++
      .plain "\nFROM " :: (t.pieces ++
        .plain "\nWHERE " :: Piece.separated " AND " (conditions.map (·.pieces d))))
  | rowCount => [.plain (d.selectRowCount (d.delimitTable t))]

/-- The pieces of a statement. -/
def pieces (s : Statement) : List Piece :=
  s.words d t ++ [.plain (d.terminator ++ "\n")]

def text (s : Statement) : String :=
  Piece.textAll d (s.pieces d t)

end Statement

/-! ## What stands between the words -/

/-- The names and placeholders of a statement, in order, its words left out. -/
def Statement.slots (d : Dialect) (t : QualifiedName) : Statement → List Piece
  | insert values =>
    t.pieces ++ values.map (·.property.columnPiece) ++ values.map fun q => .placeholder q.parameter
  | update settings conditions => t.pieces ++ (settings ++ conditions).flatMap (·.pieces)
  | delete conditions => t.pieces ++ conditions.flatMap (·.pieces)
  | select columns conditions =>
    columns.map (·.columnPiece) ++ t.pieces ++ conditions.flatMap (·.pieces d)
  | rowCount => []

section Slots

variable {α : Type} {f : Piece → Option α} {d : Dialect} {t : QualifiedName}

theorem Equation.filterMap_wherePieces (h : ∀ s, f (.plain s) = none) (conditions : List Equation) :
    (wherePieces conditions).filterMap f = (conditions.flatMap (·.pieces)).filterMap f := by
  unfold wherePieces
  split
  · next hempty => rw [List.isEmpty_iff.1 hempty]; rfl
  · rw [List.filterMap_cons_none (h _), Piece.filterMap_separated (h _), List.flatMap_def]

theorem Piece.filterMap_separated_map {β : Type} (h : ∀ s, f (.plain s) = none) (piece : β → Piece)
    (items : List β) :
    (separated ", " (items.map fun b => [piece b])).filterMap f = (items.map piece).filterMap f := by
  rw [filterMap_separated (h _), ← List.flatMap_def, ← List.map_eq_flatMap]

theorem Equation.filterMap_rowPieces (h : ∀ s, f (.plain s) = none) (values : List Equation) :
    (rowPieces values).filterMap f =
      (values.map (·.property.columnPiece)).filterMap f ++
        (values.map fun q => Piece.placeholder q.parameter).filterMap f := by
  unfold rowPieces
  split
  · next hempty =>
    rw [List.isEmpty_iff.1 hempty]
    exact List.filterMap_cons_none (h _)
  · rw [List.filterMap_cons_none (h _), List.filterMap_append, List.filterMap_cons_none (h _),
      List.filterMap_append, List.filterMap_cons_none (h _), Piece.filterMap_separated_map h,
      Piece.filterMap_separated_map h, List.filterMap_nil, List.append_nil]

/-- The words of a statement are left out of what is read off its names and placeholders. -/
theorem Statement.filterMap_pieces (h : ∀ s, f (.plain s) = none) (s : Statement) :
    (s.pieces d t).filterMap f = (s.slots d t).filterMap f := by
  have hend : [Piece.plain (d.terminator ++ "\n")].filterMap f = [] :=
    List.filterMap_cons_none (h _)
  rw [pieces, List.filterMap_append, hend, List.append_nil]
  cases s with
  | insert values =>
    rw [words, List.filterMap_cons_none (h _), List.filterMap_append,
      Equation.filterMap_rowPieces h, slots, List.filterMap_append, List.filterMap_append,
      List.append_assoc]
  | update settings conditions =>
    rw [words, List.filterMap_cons_none (h _), List.filterMap_append,
      List.filterMap_cons_none (h _), List.filterMap_append, Piece.filterMap_separated (h _),
      Equation.filterMap_wherePieces h, ← List.flatMap_def, slots, List.flatMap_append,
      List.filterMap_append, List.filterMap_append]
  | delete conditions =>
    rw [words, List.filterMap_cons_none (h _), List.filterMap_append,
      Equation.filterMap_wherePieces h, slots, List.filterMap_append]
  | select columns conditions =>
    rw [words, List.filterMap_cons_none (h _), List.filterMap_append,
      List.filterMap_cons_none (h _), List.filterMap_append, List.filterMap_cons_none (h _),
      Piece.filterMap_separated_map h, Piece.filterMap_separated (h _), slots,
      List.filterMap_append, List.filterMap_append, List.append_assoc, List.flatMap_def]
  | rowCount => exact List.filterMap_cons_none (h _)

end Slots

/-! ## The statements of an operation -/

namespace ColumnChange

/-- The column with the parameter of its current value. -/
def current (c : ColumnChange) : Equation :=
  ⟨c.property, c.parameter⟩

/-- The column with the parameter of its baseline value. -/
def original (c : ColumnChange) : Equation :=
  ⟨c.property, c.baselineParameter⟩

/-- What a column equals once the change is made: its current value if it is written, and otherwise
still its baseline value. -/
def settled (c : ColumnChange) : Equation :=
  if c.roles.write then c.current else c.original

/-- What finds the written row by a key column: the generated key, or what the column equals. -/
def writtenCondition (c : ColumnChange) : WrittenCondition :=
  if c.roles.read then .generated c.property else .equation c.settled

end ColumnChange

namespace Operation

variable (op : Operation) (columns : List ColumnChange)

/-- The statement that changes a row. -/
def change : Statement :=
  match op with
  | .insert => .insert ((columns.filter (·.roles.write)).map (·.current))
  | .update =>
    .update ((columns.filter (·.roles.write)).map (·.current))
      ((columns.filter (·.roles.condition)).map (·.original))
  | .delete => .delete ((columns.filter (·.roles.condition)).map (·.original))

/-- The columns that are read back. -/
def readColumns : List ColumnChange :=
  match op with
  | .delete => []
  | _ => columns.filter (·.roles.read)

/-- The statement that reads back. -/
def readBack : Statement :=
  if (op.readColumns columns).isEmpty then .rowCount
  else .select ((op.readColumns columns).map (·.property))
    (.affected 1 :: (columns.filter (·.roles.key)).map (·.writtenCondition))

/-- The pieces of both statements. -/
def pieces (d : Dialect) (t : QualifiedName) : List Piece :=
  (op.change columns).pieces d t ++ (op.readBack columns).pieces d t

variable {op columns} {q : Equation}

/-- A change sets columns that are written to their current values, and compares columns that are
conditions with their baseline values. -/
theorem exists_of_mem_change (h : q ∈ (op.change columns).equations) :
    ∃ c ∈ columns, c.roles.write = true ∧ q = c.current ∨
      c.roles.condition = true ∧ q = c.original := by
  have hwrite : ∀ q ∈ (columns.filter (·.roles.write)).map (·.current),
      ∃ c ∈ columns, c.roles.write = true ∧ q = c.current ∨
        c.roles.condition = true ∧ q = c.original := by
    refine List.forall_mem_map.2 fun c hc => ?_
    obtain ⟨hc, hrole⟩ := List.mem_filter.1 hc
    exact ⟨c, hc, .inl ⟨hrole, rfl⟩⟩
  have hcondition : ∀ q ∈ (columns.filter (·.roles.condition)).map (·.original),
      ∃ c ∈ columns, c.roles.write = true ∧ q = c.current ∨
        c.roles.condition = true ∧ q = c.original := by
    refine List.forall_mem_map.2 fun c hc => ?_
    obtain ⟨hc, hrole⟩ := List.mem_filter.1 hc
    exact ⟨c, hc, .inr ⟨hrole, rfl⟩⟩
  cases op with
  | insert => exact hwrite q h
  | update => exact (List.mem_append.1 h).elim (hwrite q) (hcondition q)
  | delete => exact hcondition q h

/-- What is read back is found by key columns that are not read: by their current values where those
were written, and otherwise by their baseline values. -/
theorem exists_of_mem_readBack (h : q ∈ (op.readBack columns).equations) :
    ∃ c ∈ columns, c.roles.key = true ∧ c.roles.read = false ∧ q = c.settled := by
  unfold readBack at h
  split at h
  · cases h
  · obtain ⟨condition, hmem, hq⟩ := List.mem_filterMap.1 h
    rcases List.mem_cons.1 hmem with rfl | hmem
    · cases hq
    · obtain ⟨c, hc, rfl⟩ := List.mem_map.1 hmem
      obtain ⟨hc, hkey⟩ := List.mem_filter.1 hc
      refine ⟨c, hc, hkey, ?_⟩
      unfold ColumnChange.writtenCondition at hq
      split at hq
      · cases hq
      · next hread =>
        cases hq
        exact ⟨Bool.eq_false_iff.2 hread, rfl⟩

end Operation

/-! ## Text and statements -/

namespace Dialect

variable (d : Dialect) (t : QualifiedName) (c : ColumnChange) (columns : List ColumnChange)

@[simp] theorem textAll_table : Piece.textAll d t.pieces = d.delimitTable t := by
  unfold QualifiedName.pieces delimitTable
  cases t.schema <;> simp [String.append_assoc]

@[simp] theorem textAll_current : Piece.textAll d c.current.pieces = d.currentEquation c := by
  show d.delimit c.name ++ (" = " ++ (parameterText c.parameter ++ "")) = _
  rw [String.append_empty, ← String.append_assoc]
  rfl

@[simp] theorem textAll_original : Piece.textAll d c.original.pieces = d.baselineEquation c := by
  show d.delimit c.name ++ (" = " ++ (parameterText c.baselineParameter ++ "")) = _
  rw [String.append_empty, ← String.append_assoc]
  rfl

@[simp] theorem textAll_where (conditions : List ColumnChange) :
    Piece.textAll d (Equation.wherePieces (conditions.map (·.original))) =
      d.whereClause conditions := by
  rw [Equation.wherePieces, whereClause, List.isEmpty_map]
  split
  · rfl
  · simp [Function.comp_def]

@[simp] theorem textAll_affected (rows : Nat) :
    Piece.textAll d ((WrittenCondition.affected rows).pieces d) = d.rowCountCondition rows :=
  String.append_empty

@[simp] theorem textAll_writtenCondition :
    Piece.textAll d (c.writtenCondition.pieces d) = d.writtenKeyCondition c := by
  unfold ColumnChange.writtenCondition ColumnChange.settled writtenKeyCondition
  split
  · simp [WrittenCondition.pieces, generatedKeyCondition, Property.columnPiece, ColumnChange.name,
      String.append_assoc]
  · split <;> simp [WrittenCondition.pieces]

theorem text_insert (writes : List ColumnChange) :
    (Statement.insert (writes.map (·.current))).text d t = d.insertStatement t writes := by
  rw [Statement.text, Statement.pieces, Statement.words, Equation.rowPieces, insertStatement,
    List.isEmpty_map, Dialect.statement]
  split
  · simp [String.append_assoc]
  · simp [columnList, Function.comp_def, Property.columnPiece, ColumnChange.current,
      ColumnChange.name, String.append_assoc]

theorem text_update (writes conditions : List ColumnChange) :
    (Statement.update (writes.map (·.current)) (conditions.map (·.original))).text d t =
      d.updateStatement t writes conditions := by
  simp [Statement.text, Statement.pieces, Statement.words, updateStatement, Dialect.statement,
    Function.comp_def, String.append_assoc]

theorem text_delete (conditions : List ColumnChange) :
    (Statement.delete (conditions.map (·.original))).text d t = d.deleteStatement t conditions := by
  simp [Statement.text, Statement.pieces, Statement.words, deleteStatement, Dialect.statement,
    String.append_assoc]

theorem text_rowCount : Statement.rowCount.text d t = d.rowCountStatement t := by
  simp [Statement.text, Statement.pieces, Statement.words, rowCountStatement, Dialect.statement,
    String.append_assoc]

theorem text_select (reads keys : List ColumnChange) :
    (Statement.select (reads.map (·.property))
      (.affected 1 :: keys.map (·.writtenCondition))).text d t =
      d.selectWrittenStatement t reads keys := by
  simp [Statement.text, Statement.pieces, Statement.words, selectWrittenStatement,
    Dialect.statement, columnList, Function.comp_def, Property.columnPiece, ColumnChange.name,
    String.append_assoc]

theorem text_readBack {op : Operation} (hop : op ≠ .delete) :
    (op.readBack columns).text d t = d.readBackStatement t columns := by
  have hreads : op.readColumns columns = columns.filter (·.roles.read) := by
    cases op with
    | delete => exact absurd rfl hop
    | insert | update => rfl
  rw [Operation.readBack, hreads, readBackStatement]
  split
  · exact text_rowCount d t
  · exact text_select d t ..

/-- **Text and statements.** The text of an operation is that of its two statements. -/
theorem operationText_eq (op : Operation) :
    d.operationText op t columns =
      (checkTable t).map fun _ => (op.change columns).text d t ++ (op.readBack columns).text d t := by
  have hmap : ∀ change readBack : String,
      (do checkTable t; return change ++ readBack : Result String) =
        (checkTable t).map fun _ => change ++ readBack := by
    intro change readBack
    cases checkTable t <;> rfl
  cases op with
  | insert =>
    rw [Operation.change, text_insert, text_readBack d t columns (by decide)]
    exact hmap ..
  | update =>
    rw [Operation.change, text_update, text_readBack d t columns (by decide)]
    exact hmap ..
  | delete =>
    rw [Operation.change, text_delete]
    exact (hmap ..).trans (by rw [← text_rowCount]; rfl)

end Dialect

end EntityMapper
