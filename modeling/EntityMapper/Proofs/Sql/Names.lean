import EntityMapper.Proofs.Sql.Lexing

/-!
# Names in commands

Whatever characters the names of tables and columns have, the text of an operation is read as the
statements it was made of: its names are those of the table and of the columns, in order, and what
stands between them is fixed by the roles of the columns and the names of their parameters
(`Dialect.lex_append`).
-/

namespace EntityMapper

/-! ## Words -/

/-- A character of the words of commands and of the names of parameters. -/
def isWordChar (c : Char) : Bool :=
  c.isAlphanum || c ∈ [' ', '\n', '(', ')', ',', '.', '=', ';', '_', '@']

/-- A text of such characters. -/
def isWords (s : String) : Bool :=
  s.toList.all isWordChar

@[simp] theorem isWords_append (s t : String) : isWords (s ++ t) = (isWords s && isWords t) := by
  simp [isWords, List.all_append]

theorem isWords_toString (n : Nat) : isWords (toString n) = true := by
  rw [isWords, List.all_eq_true, Nat.toString_eq_repr, Nat.toList_repr]
  intro c hc
  have hdigit : c.isDigit = true := Nat.isDigit_of_mem_toDigits (by decide) (by decide) hc
  simp [isWordChar, Char.isAlphanum, hdigit]

/-- The names of default parameters are words, and so is what stands for a missing one. -/
theorem isWords_parameterText {parameter : Option String}
    (h : ∀ name ∈ parameter, ∃ n, name = ParameterNames.nameAt {} n) :
    isWords (Dialect.parameterText parameter) = true := by
  cases parameter with
  | none => decide
  | some name =>
    obtain ⟨n, rfl⟩ := h name rfl
    show isWords ("@p" ++ toString n) = true
    rw [isWords_append, isWords_toString]
    decide

namespace Dialect

/-- A dialect whose words have no quotes in them. -/
structure Delimits (d : Dialect) : Prop where
  quote : isWordChar d.quote = false
  terminator : isWords d.terminator = true
  rowCount : isWords d.rowCount = true
  generatedKey : isWords d.generatedKey = true
  selectRowCount : ∀ table, isWords (d.selectRowCount table) = true ∧ d.selectRowCount table ≠ ""
  /-- The number of rows is asked for without the table. -/
  selectRowCount_eq : ∀ table other, d.selectRowCount table = d.selectRowCount other

theorem delimits_of_mem {d : Dialect} (hd : d ∈ [sqlite, mysql]) : d.Delimits := by
  rcases List.mem_pair.1 hd with rfl | rfl
  · have hcount : isWords "SELECT changes()" = true ∧ "SELECT changes()" ≠ "" := by decide
    exact ⟨by decide, by decide, by decide, by decide, fun _ => hcount, fun _ _ => rfl⟩
  · have hcount : isWords "SELECT ROW_COUNT()" = true ∧ "SELECT ROW_COUNT()" ≠ "" := by decide
    exact ⟨by decide, by decide, by decide, by decide, fun _ => hcount, fun _ _ => rfl⟩

variable {d : Dialect}

theorem Delimits.notMem (hd : d.Delimits) {s : String} (hs : isWords s = true) :
    d.quote ∉ s.toList := by
  intro hmem
  have hquote : isWordChar d.quote = true := List.all_eq_true.1 hs _ hmem
  rw [hd.quote] at hquote
  cases hquote

end Dialect

/-! ## Statements are readable -/

section Readable

variable {d : Dialect} {t : QualifiedName} {q : Equation} {equations : List Equation}

/-- The parameter of an equation is written without quotes. -/
def Equation.Plain (q : Equation) : Prop :=
  isWords (Dialect.parameterText q.parameter) = true

theorem QualifiedName.readable_pieces (hd : d.Delimits) : Piece.Readable d.quote t.pieces := by
  unfold QualifiedName.pieces
  cases t.schema with
  | none => exact ⟨trivial, trivial⟩
  | some schema => exact ⟨(by decide : "." ≠ ""), hd.notMem (by decide), trivial, trivial⟩

theorem Property.readable_separated (hd : d.Delimits) (columns : List Property) :
    Piece.Readable d.quote (Piece.separated ", " (columns.map fun p => [p.columnPiece])) :=
  Piece.readable_separated (by decide) (hd.notMem (by decide))
    (List.forall_mem_map.2 fun _ _ => ⟨trivial, trivial⟩)

namespace Equation

theorem readable_pieces (hd : d.Delimits) (hq : q.Plain) : Piece.Readable d.quote q.pieces :=
  ⟨(by decide : " = " ≠ ""), hd.notMem (by decide), hd.notMem hq, trivial⟩

theorem readable_separated (hd : d.Delimits) {separator : String} (hs : separator ≠ "")
    (hwords : isWords separator = true) (h : ∀ q ∈ equations, q.Plain) :
    Piece.Readable d.quote (Piece.separated separator (equations.map (·.pieces))) :=
  Piece.readable_separated hs (hd.notMem hwords)
    (List.forall_mem_map.2 fun q hq => readable_pieces hd (h q hq))

theorem readable_rowPieces (hd : d.Delimits) (h : ∀ q ∈ equations, q.Plain) :
    Piece.Readable d.quote (rowPieces equations) ∧ Piece.Follows (rowPieces equations) := by
  have hnames := Property.readable_separated hd (equations.map (·.property))
  rw [List.map_map] at hnames
  have hvalues : Piece.Readable d.quote
      (Piece.separated ", " (equations.map fun q => [.placeholder q.parameter])) :=
    Piece.readable_separated (by decide) (hd.notMem (by decide))
      (List.forall_mem_map.2 fun q hq => ⟨hd.notMem (h q hq), trivial⟩)
  unfold rowPieces
  split
  · exact ⟨⟨hd.notMem (by decide), trivial⟩, (by decide : "\nDEFAULT VALUES" ≠ "")⟩
  · refine ⟨⟨hd.notMem (by decide), hnames.append ?_ (by decide : ")\nVALUES (" ≠ "")⟩,
      (by decide : " (" ≠ "")⟩
    exact ⟨hd.notMem (by decide), hvalues.append ⟨hd.notMem (by decide), trivial⟩
      (by decide : ")" ≠ "")⟩

theorem readable_wherePieces (hd : d.Delimits) (h : ∀ q ∈ equations, q.Plain) :
    Piece.Readable d.quote (wherePieces equations) ∧ Piece.Follows (wherePieces equations) := by
  unfold wherePieces
  split
  · exact ⟨trivial, trivial⟩
  · exact ⟨⟨hd.notMem (by decide), readable_separated hd (by decide) (by decide) h⟩,
      (by decide : "\nWHERE " ≠ "")⟩

end Equation

theorem WrittenCondition.readable_pieces (hd : d.Delimits) {condition : WrittenCondition}
    (h : ∀ q ∈ condition.equation?, q.Plain) : Piece.Readable d.quote (condition.pieces d) := by
  cases condition with
  | affected rows =>
    refine ⟨hd.notMem ?_, trivial⟩
    rw [Dialect.rowCountCondition, isWords_append, isWords_append, hd.rowCount, isWords_toString]
    decide
  | generated p =>
    refine ⟨?_, hd.notMem ?_, trivial⟩
    · show " = " ++ d.generatedKey ≠ ""
      simp
    · rw [isWords_append, hd.generatedKey]
      decide
  | equation q => exact Equation.readable_pieces hd (h q rfl)

/-- Where the parameters of a statement are written without quotes, its names are all that stands
between quotes. -/
theorem Statement.readable_words (hd : d.Delimits) {s : Statement}
    (h : ∀ q ∈ s.equations, q.Plain) : Piece.Readable d.quote (s.words d t) := by
  have ht : Piece.Readable d.quote t.pieces := QualifiedName.readable_pieces hd
  cases s with
  | insert values =>
    obtain ⟨hrow, hfollows⟩ := Equation.readable_rowPieces hd h
    exact ⟨hd.notMem (by decide), ht.append hrow hfollows⟩
  | update settings conditions =>
    obtain ⟨hsettings, hconditions⟩ := List.forall_mem_append.1 h
    obtain ⟨hwhere, hfollows⟩ := Equation.readable_wherePieces hd hconditions
    have hset := Equation.readable_separated hd (by decide : ", " ≠ "") (by decide) hsettings
    refine ⟨hd.notMem (by decide), ht.append ⟨hd.notMem (by decide), ?_⟩ (by decide : " SET " ≠ "")⟩
    exact hset.append hwhere hfollows
  | delete conditions =>
    obtain ⟨hwhere, hfollows⟩ := Equation.readable_wherePieces hd h
    exact ⟨hd.notMem (by decide), ht.append hwhere hfollows⟩
  | select columns conditions =>
    have hwhere : Piece.Readable d.quote
        (Piece.separated " AND " (conditions.map (·.pieces d))) :=
      Piece.readable_separated (by decide) (hd.notMem (by decide))
        (List.forall_mem_map.2 fun condition hcondition =>
          WrittenCondition.readable_pieces hd fun q hq =>
            h q (List.mem_filterMap.2 ⟨condition, hcondition, hq⟩))
    refine ⟨hd.notMem (by decide), (Property.readable_separated hd columns).append ?_
      (by decide : "\nFROM " ≠ "")⟩
    exact ⟨hd.notMem (by decide), ht.append ⟨hd.notMem (by decide), hwhere⟩
      (by decide : "\nWHERE " ≠ "")⟩
  | rowCount => exact ⟨hd.notMem (hd.selectRowCount _).1, trivial⟩

theorem Statement.readable_pieces (hd : d.Delimits) {s : Statement}
    (h : ∀ q ∈ s.equations, q.Plain) : Piece.Readable d.quote (s.pieces d t) := by
  have hend : isWords (d.terminator ++ "\n") = true := by
    rw [isWords_append, hd.terminator]
    decide
  refine (readable_words hd h).append ⟨hd.notMem hend, trivial⟩ ?_
  show d.terminator ++ "\n" ≠ ""
  simp

end Readable

/-! ## The names of an operation -/

/-- The schema, if there is one, and the name. -/
def QualifiedName.parts (t : QualifiedName) : List String :=
  t.schema.toList ++ [t.name]

/-- The column of a condition that has one. -/
def WrittenCondition.property? : WrittenCondition → Option Property
  | affected _ => none
  | generated p => some p
  | equation q => some q.property

/-- The names in a statement, in order. -/
def Statement.names (t : QualifiedName) : Statement → List String
  | insert values => t.parts ++ values.map (·.property.columnName)
  | update settings conditions =>
    t.parts ++ settings.map (·.property.columnName) ++ conditions.map (·.property.columnName)
  | delete conditions => t.parts ++ conditions.map (·.property.columnName)
  | select columns conditions =>
    columns.map (·.columnName) ++ t.parts ++
      (conditions.filterMap (·.property?)).map (·.columnName)
  | rowCount => []

namespace Operation

/-- The columns in the statement that changes a row, in order. -/
def changeColumns (op : Operation) (columns : List ColumnChange) : List ColumnChange :=
  match op with
  | .insert => columns.filter (·.roles.write)
  | .update => columns.filter (·.roles.write) ++ columns.filter (·.roles.condition)
  | .delete => columns.filter (·.roles.condition)

/-- The names in the statement that reads back, in order: the columns that are read, the table and
the key; none where nothing is read. -/
def readBackNames (op : Operation) (t : QualifiedName) (columns : List ColumnChange) :
    List String :=
  if (op.readColumns columns).isEmpty then []
  else (op.readColumns columns).map (·.name) ++ t.parts ++
    (columns.filter (·.roles.key)).map (·.name)

/-- The names in an operation, in order. -/
def names (op : Operation) (t : QualifiedName) (columns : List ColumnChange) : List String :=
  t.parts ++ (op.changeColumns columns).map (·.name) ++ op.readBackNames t columns

end Operation

section Names

variable {d : Dialect} {t : QualifiedName}

theorem QualifiedName.filterMap_pieces : t.pieces.filterMap (·.name?) = t.parts := by
  unfold QualifiedName.pieces QualifiedName.parts
  cases t.schema <;> rfl

theorem Equation.filterMap_flatMap (equations : List Equation) :
    (equations.flatMap (·.pieces)).filterMap (·.name?) =
      equations.map (·.property.columnName) := by
  rw [List.filterMap_flatMap, List.map_eq_flatMap]
  rfl

theorem Property.filterMap_map (columns : List Property) :
    (columns.map (·.columnPiece)).filterMap (·.name?) = columns.map (·.columnName) := by
  rw [List.filterMap_map]
  exact congrFun List.filterMap_eq_map columns

theorem WrittenCondition.filterMap_flatMap (conditions : List WrittenCondition) :
    (conditions.flatMap (·.pieces d)).filterMap (·.name?) =
      (conditions.filterMap (·.property?)).map (·.columnName) := by
  induction conditions with
  | nil => rfl
  | cons condition conditions ih =>
    rw [List.flatMap_cons, List.filterMap_append, ih]
    cases condition <;> rfl

/-- The names in a statement are those of its tables and columns. -/
theorem Statement.filterMap_name? (s : Statement) :
    (s.pieces d t).filterMap (·.name?) = s.names t := by
  rw [filterMap_pieces Piece.name?_plain]
  cases s with
  | insert values =>
    have hcolumns := Property.filterMap_map (values.map (·.property))
    have hvalues : (values.map fun q => Piece.placeholder q.parameter).filterMap (·.name?) = [] :=
      List.filterMap_eq_nil_iff.2 (List.forall_mem_map.2 fun _ _ => rfl)
    rw [List.map_map, List.map_map] at hcolumns
    rw [slots, List.filterMap_append, List.filterMap_append, hvalues, List.append_nil,
      QualifiedName.filterMap_pieces]
    exact congrArg (t.parts ++ ·) hcolumns
  | update settings conditions =>
    rw [slots, List.filterMap_append, Equation.filterMap_flatMap, QualifiedName.filterMap_pieces,
      List.map_append, names, List.append_assoc]
  | delete conditions =>
    rw [slots, List.filterMap_append, Equation.filterMap_flatMap, QualifiedName.filterMap_pieces,
      names]
  | select columns conditions =>
    rw [slots, List.filterMap_append, List.filterMap_append, Property.filterMap_map,
      QualifiedName.filterMap_pieces, WrittenCondition.filterMap_flatMap, names]
  | rowCount => rfl

theorem ColumnChange.property?_writtenCondition (c : ColumnChange) :
    c.writtenCondition.property? = some c.property := by
  unfold writtenCondition settled
  split
  · rfl
  · split <;> rfl

namespace Operation

variable (op : Operation) (columns : List ColumnChange)

theorem names_change :
    (op.change columns).names t = t.parts ++ (op.changeColumns columns).map (·.name) := by
  cases op with
  | insert | delete => exact congrArg (t.parts ++ ·) List.map_map
  | update =>
    rw [change, changeColumns, Statement.names, List.map_map, List.map_map, List.map_append,
      List.append_assoc]
    rfl

theorem names_readBack : (op.readBack columns).names t = op.readBackNames t columns := by
  have hkeys : ∀ keys : List ColumnChange,
      (keys.map (·.writtenCondition)).filterMap (·.property?) = keys.map (·.property) := fun keys => by
    simp [List.filterMap_map, ColumnChange.property?_writtenCondition]
  unfold readBack readBackNames
  split
  · rfl
  · rw [Statement.names, List.filterMap_cons_none rfl, hkeys, List.map_map, List.map_map]
    rfl

end Operation

end Names

/-! ## What stands between the names -/

/-- The equation for another column. -/
def Equation.rename (p : Property) (q : Equation) : Equation :=
  ⟨p, q.parameter⟩

/-- The condition on another column. -/
def WrittenCondition.rename (p : Property) : WrittenCondition → WrittenCondition
  | affected rows => affected rows
  | generated _ => generated p
  | equation q => equation (q.rename p)

/-- The statement with one column in the place of every column. -/
def Statement.rename (p : Property) : Statement → Statement
  | insert values => insert (values.map (·.rename p))
  | update settings conditions =>
    update (settings.map (·.rename p)) (conditions.map (·.rename p))
  | delete conditions => delete (conditions.map (·.rename p))
  | select columns conditions => select (columns.map fun _ => p) (conditions.map (·.rename p))
  | rowCount => rowCount

/-- What the text of an operation takes from a column besides its name. -/
def ColumnChange.outline (c : ColumnChange) : Roles × Option String × Option String :=
  (c.roles, c.parameter, c.baselineParameter)

/-- The column of another property in the same place. -/
def ColumnChange.rename (p : Property) (c : ColumnChange) : ColumnChange :=
  { c with property := p, value := .null, baseline := .null }

section Marks

variable {d : Dialect} {t t' : QualifiedName} (p : Property)

theorem QualifiedName.map_unnamed_pieces (ht : t'.schema.isSome = t.schema.isSome) :
    t'.pieces.map Piece.unnamed = t.pieces.map Piece.unnamed := by
  unfold QualifiedName.pieces
  cases hs : t.schema <;> cases hs' : t'.schema <;> simp_all

theorem Equation.map_unnamed_rename (q : Equation) :
    (q.rename p).pieces.map Piece.unnamed = q.pieces.map Piece.unnamed := rfl

theorem WrittenCondition.map_unnamed_rename (condition : WrittenCondition) :
    ((condition.rename p).pieces d).map Piece.unnamed = (condition.pieces d).map Piece.unnamed := by
  cases condition <;> rfl

theorem Equation.map_unnamed_wherePieces (conditions : List Equation) :
    (wherePieces (conditions.map (·.rename p))).map Piece.unnamed =
      (wherePieces conditions).map Piece.unnamed := by
  rw [wherePieces, wherePieces, List.isEmpty_map]
  split
  · rfl
  · simp [Piece.map_unnamed_separated, Function.comp_def, map_unnamed_rename]

theorem Equation.map_unnamed_rowPieces (values : List Equation) :
    (rowPieces (values.map (·.rename p))).map Piece.unnamed =
      (rowPieces values).map Piece.unnamed := by
  rw [rowPieces, rowPieces, List.isEmpty_map]
  split
  · rfl
  · simp [Piece.map_unnamed_separated, Function.comp_def, Property.columnPiece, Equation.rename]

/-- What stands between the names of a statement depends neither on the table nor on the columns. -/
theorem Statement.map_unnamed_rename (s : Statement) :
    ((s.rename p).pieces d t).map Piece.unnamed = (s.pieces d t).map Piece.unnamed := by
  cases s <;>
    simp [pieces, words, rename, Piece.map_unnamed_separated, Function.comp_def,
      Equation.map_unnamed_rename, Equation.map_unnamed_wherePieces,
      Equation.map_unnamed_rowPieces, WrittenCondition.map_unnamed_rename, Property.columnPiece]

theorem Statement.map_unnamed_table (hd : d.Delimits) (ht : t'.schema.isSome = t.schema.isSome)
    (s : Statement) :
    (s.pieces d t').map Piece.unnamed = (s.pieces d t).map Piece.unnamed := by
  cases s <;>
    simp [pieces, words, QualifiedName.map_unnamed_pieces ht,
      hd.selectRowCount_eq (d.delimitTable t') (d.delimitTable t)]

theorem ColumnChange.writtenCondition_rename (c : ColumnChange) :
    (c.rename p).writtenCondition = c.writtenCondition.rename p := by
  unfold writtenCondition settled
  show (if c.roles.read then _ else WrittenCondition.equation (if c.roles.write then _ else _)) = _
  split
  · rfl
  · split <;> rfl

namespace Operation

variable (op : Operation) (columns : List ColumnChange)

theorem change_rename :
    op.change (columns.map (·.rename p)) = (op.change columns).rename p := by
  cases op <;>
    simp [change, Statement.rename, List.filter_map, Function.comp_def, ColumnChange.rename,
      ColumnChange.current, ColumnChange.original, Equation.rename]

theorem readBack_rename :
    op.readBack (columns.map (·.rename p)) = (op.readBack columns).rename p := by
  have hreads : op.readColumns (columns.map (·.rename p)) =
      (op.readColumns columns).map (·.rename p) := by
    cases op <;> simp [readColumns, List.filter_map, Function.comp_def, ColumnChange.rename]
  have hkeys : (columns.map (·.rename p)).filter (·.roles.key) =
      (columns.filter (·.roles.key)).map (·.rename p) := List.filter_map
  rw [readBack, readBack, hreads, hkeys, List.isEmpty_map]
  split
  · rfl
  · simp only [Statement.rename, List.map_cons, List.map_map, Function.comp_def,
      ColumnChange.writtenCondition_rename]
    rfl

/-- What stands between the names of an operation depends on the outlines of the columns only. -/
theorem map_unnamed_congr {columns' : List ColumnChange}
    (h : columns'.map (·.outline) = columns.map (·.outline)) :
    ((op.change columns').pieces d t).map Piece.unnamed =
        ((op.change columns).pieces d t).map Piece.unnamed ∧
      ((op.readBack columns').pieces d t).map Piece.unnamed =
        ((op.readBack columns).pieces d t).map Piece.unnamed := by
  cases columns with
  | nil =>
    obtain rfl := List.map_eq_nil_iff.1 h
    exact ⟨rfl, rfl⟩
  | cons column columns =>
    have hrename : columns'.map (·.rename column.property) =
        (column :: columns).map (·.rename column.property) := by
      have hmap := congrArg (List.map fun o : Roles × Option String × Option String =>
        (⟨column.property, o.1, .null, .null, o.2.1, o.2.2⟩ : ColumnChange)) h
      rwa [List.map_map, List.map_map] at hmap
    constructor
    · rw [← Statement.map_unnamed_rename column.property, ← change_rename, hrename, change_rename,
        Statement.map_unnamed_rename]
    · rw [← Statement.map_unnamed_rename column.property, ← readBack_rename, hrename,
        readBack_rename, Statement.map_unnamed_rename]

end Operation

end Marks

/-! ## Reading an operation -/

/-- A column whose parameters have default names. -/
def ColumnChange.DefaultNamed (c : ColumnChange) : Prop :=
  ∀ name, name ∈ c.parameter ∨ name ∈ c.baselineParameter → ∃ n, name = ParameterNames.nameAt {} n

namespace Operation

variable {d : Dialect} {op : Operation} {t t' : QualifiedName} {columns columns' : List ColumnChange}

/-- An operation is readable, whatever the names of its table and of its columns. -/
theorem readable_pieces (hd : d.Delimits) (hcolumns : ∀ c ∈ columns, c.DefaultNamed) :
    Piece.Readable d.quote (op.pieces columns d t) := by
  have hplain : ∀ c ∈ columns, c.current.Plain ∧ c.original.Plain := fun c hc =>
    ⟨isWords_parameterText fun name hname => hcolumns c hc name (.inl hname),
      isWords_parameterText fun name hname => hcolumns c hc name (.inr hname)⟩
  have hchange : ∀ q ∈ (op.change columns).equations, q.Plain := by
    intro q hq
    obtain ⟨c, hc, ⟨-, rfl⟩ | ⟨-, rfl⟩⟩ := exists_of_mem_change hq
    · exact (hplain c hc).1
    · exact (hplain c hc).2
  have hreadBack : ∀ q ∈ (op.readBack columns).equations, q.Plain := by
    intro q hq
    obtain ⟨c, hc, -, -, rfl⟩ := exists_of_mem_readBack hq
    unfold ColumnChange.settled
    split
    · exact (hplain c hc).1
    · exact (hplain c hc).2
  refine (Statement.readable_pieces hd hchange).append (Statement.readable_pieces hd hreadBack) ?_
  unfold readBack
  split
  · exact (hd.selectRowCount _).2
  · exact (by decide : "SELECT " ≠ "")

theorem filterMap_pieces : (op.pieces columns d t).filterMap (·.name?) = op.names t columns := by
  rw [pieces, List.filterMap_append, Statement.filterMap_name?, Statement.filterMap_name?,
    names_change, names_readBack, names]

theorem map_unnamed_pieces (hd : d.Delimits) (ht : t'.schema.isSome = t.schema.isSome)
    (h : columns'.map (·.outline) = columns.map (·.outline)) :
    (op.pieces columns' d t').map Piece.unnamed = (op.pieces columns d t).map Piece.unnamed := by
  obtain ⟨hchange, hreadBack⟩ := op.map_unnamed_congr (d := d) (t := t) columns h
  rw [pieces, pieces, List.map_append, List.map_append, Statement.map_unnamed_table hd ht,
    Statement.map_unnamed_table hd ht, hchange, hreadBack]

/-- Columns of one outline have parameters of the same names. -/
theorem defaultNamed_of_outline (h : columns'.map (·.outline) = columns.map (·.outline))
    (hcolumns : ∀ c ∈ columns, c.DefaultNamed) : ∀ c ∈ columns', c.DefaultNamed := by
  intro c' hc'
  have hmem : c'.outline ∈ columns.map (·.outline) := h ▸ List.mem_map_of_mem hc'
  obtain ⟨c, hc, houtline⟩ := List.mem_map.1 hmem
  obtain ⟨-, hrest⟩ := Prod.mk.inj houtline
  obtain ⟨hparameter, hbaseline⟩ := Prod.mk.inj hrest
  intro name hname
  rw [← hparameter, ← hbaseline] at hname
  exact hcolumns c hc name hname

end Operation

namespace Dialect

variable {d : Dialect} {t : QualifiedName} {columns : List ColumnChange}

theorem append_of_name (op : Operation) (ht : t.name ≠ "") (out : String) :
    d.append op t columns out = (.ok (), out ++ Piece.textAll d (op.pieces columns d t)) := by
  have hcheck : checkTable t = .ok () := by
    rw [checkTable, if_neg]
    rwa [String.isEmpty_iff]
  rw [append, operationText_eq, hcheck, Operation.pieces, Piece.textAll_append]
  rfl

/-- **Names cannot break out of the text.** An operation is written after a text, and what is
written is read as follows: the names are those of the table and of the columns, in order, and
nothing else depends on them. A table without a name is refused, and nothing is written. -/
theorem lex_append (hd : d ∈ [sqlite, mysql]) (op : Operation)
    (hcolumns : ∀ c ∈ columns, c.DefaultNamed) (out : String) :
    (t.name = "" → d.append op t columns out = (.error (.configuration .emptyTableName), out)) ∧
    (t.name ≠ "" → ∃ text tokens,
      d.append op t columns out = (.ok (), out ++ text) ∧
      Token.lex d.quote text = some tokens ∧
      tokens.filterMap (·.name?) = op.names t columns ∧
      ∀ (t' : QualifiedName) (columns' : List ColumnChange), t'.name ≠ "" →
        t'.schema.isSome = t.schema.isSome →
        columns'.map (·.outline) = columns.map (·.outline) → ∃ text' tokens',
          d.append op t' columns' out = (.ok (), out ++ text') ∧
          Token.lex d.quote text' = some tokens' ∧
          tokens'.map (·.mark?) = tokens.map (·.mark?)) := by
  have hd := delimits_of_mem hd
  constructor
  · intro ht
    have hcheck : checkTable t = .error (.configuration .emptyTableName) := by
      rw [checkTable, if_pos]
      rwa [String.isEmpty_iff]
    rw [append, operationText_eq, hcheck]
    rfl
  · intro ht
    refine ⟨_, _, append_of_name op ht out, Piece.lex_textAll (Operation.readable_pieces hd hcolumns),
      ?_, fun t' columns' ht' hschema houtline => ?_⟩
    · rw [Piece.name?_tokens, Operation.filterMap_pieces]
    · have hcolumns' := Operation.defaultNamed_of_outline houtline hcolumns
      refine ⟨_, _, append_of_name op ht' out,
        Piece.lex_textAll (Operation.readable_pieces hd hcolumns'), ?_⟩
      rw [Piece.mark?_tokens, Operation.map_unnamed_pieces hd hschema houtline,
        ← Piece.mark?_tokens]

end Dialect

/-! ## An example -/

namespace Notes

/-- A property whose name would end a statement if quotes were not doubled. -/
def hostile : Property :=
  { body with name := "Body\" = 1; DROP TABLE \"Note" }

/-- A table whose name begins with a quote and whose schema ends with one. -/
def quoted : QualifiedName :=
  ⟨some "my\"", "\"Note"⟩

/-- An update that writes one column, reads one back, and finds the row by the key. -/
def hostileColumns : List ColumnChange :=
  [⟨key, { key := true, condition := true }, .bigInt 1, .bigInt 1, none, some "@p0"⟩,
    ⟨hostile, { write := true }, .text "New", .text "Old", some "@p1", none⟩,
    ⟨version, { read := true }, .null, .null, none, none⟩]

theorem defaultNamed_hostileColumns : ∀ c ∈ hostileColumns, c.DefaultNamed := by
  have hkey : "@p0" = ParameterNames.nameAt {} 0 := by decide
  have hbody : "@p1" = ParameterNames.nameAt {} 1 := by decide
  intro c hc name hname
  rcases List.mem_cons.1 hc with rfl | hc
  · rcases hname with hname | hname <;> cases hname
    exact ⟨0, hkey⟩
  · rcases List.mem_pair.1 hc with rfl | rfl <;> rcases hname with hname | hname <;> cases hname
    exact ⟨1, hbody⟩

end Notes

theorem Dialect.lex_append_hostile :
    Dialect.sqlite ∈ [Dialect.sqlite, Dialect.mysql] ∧
    (∀ c ∈ Notes.hostileColumns, c.DefaultNamed) ∧ Notes.quoted.name ≠ "" ∧
    ∃ text tokens,
      Dialect.sqlite.append .update Notes.quoted Notes.hostileColumns "" = (.ok (), "" ++ text) ∧
      Token.lex '"' text = some tokens ∧
      tokens.filterMap (·.name?) =
        ["my\"", "\"Note", "Body\" = 1; DROP TABLE \"Note", "Id", "Version", "my\"", "\"Note",
          "Id"] := by
  have hname : Notes.quoted.name ≠ "" := by decide
  obtain ⟨text, tokens, happend, hlex, hnames, -⟩ :=
    (lex_append List.mem_cons_self .update Notes.defaultNamed_hostileColumns "").2 hname
  exact ⟨List.mem_cons_self, Notes.defaultNamed_hostileColumns, hname, text, tokens, happend, hlex,
    hnames.trans (by decide)⟩

end EntityMapper
