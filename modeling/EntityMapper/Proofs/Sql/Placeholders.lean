import EntityMapper.Proofs.Sql.Syntax

/-!
# Placeholders and parameters

Which parameters a column has is decided when it is made, and which of them are written is decided by
the operation it stands in. The two agree (`Operation.agrees_of_named`): wherever an operation writes
a placeholder, the column has that parameter. In the command of an entry the reverse holds as well:
each parameter is written, and has the current or the baseline value of the entry
(`Command.bound_of_mem_parameters`).
-/

namespace EntityMapper

/-! ## The placeholders of a statement -/

/-- The parameter, of a placeholder. -/
def Piece.placeholder? : Piece → Option (Option String)
  | placeholder parameter => some parameter
  | _ => none

theorem QualifiedName.filterMap_placeholder? (t : QualifiedName) :
    t.pieces.filterMap (·.placeholder?) = [] := by
  unfold pieces
  cases t.schema <;> rfl

theorem Equation.filterMap_placeholder? (equations : List Equation) :
    (equations.flatMap (·.pieces)).filterMap (·.placeholder?) = equations.map (·.parameter) := by
  rw [List.filterMap_flatMap, List.map_eq_flatMap]
  rfl

theorem Property.filterMap_placeholder? (columns : List Property) :
    (columns.map (·.columnPiece)).filterMap (·.placeholder?) = [] :=
  List.filterMap_eq_nil_iff.2 (List.forall_mem_map.2 fun _ _ => rfl)

theorem WrittenCondition.filterMap_placeholder? (d : Dialect)
    (conditions : List WrittenCondition) :
    (conditions.flatMap (·.pieces d)).filterMap (·.placeholder?) =
      (conditions.filterMap (·.equation?)).map (·.parameter) := by
  induction conditions with
  | nil => rfl
  | cons condition conditions ih =>
    rw [List.flatMap_cons, List.filterMap_append, ih]
    cases condition <;> rfl

/-- The placeholders of a statement are those of its equations, in order. -/
theorem Statement.filterMap_placeholder? (d : Dialect) (t : QualifiedName) (s : Statement) :
    (s.pieces d t).filterMap (·.placeholder?) = s.equations.map (·.parameter) := by
  rw [filterMap_pieces fun _ => rfl]
  cases s with
  | insert values =>
    have hcolumns := Property.filterMap_placeholder? (values.map (·.property))
    rw [List.map_map] at hcolumns
    rw [slots, List.filterMap_append, List.filterMap_append, t.filterMap_placeholder?,
      List.nil_append, List.filterMap_map (f := fun q : Equation => Piece.placeholder q.parameter)]
    exact congrArg₂ (· ++ ·) hcolumns (congrFun List.filterMap_eq_map values)
  | update settings conditions =>
    rw [slots, List.filterMap_append, t.filterMap_placeholder?, Equation.filterMap_placeholder?]
    rfl
  | delete conditions =>
    rw [slots, List.filterMap_append, t.filterMap_placeholder?, Equation.filterMap_placeholder?]
    rfl
  | select columns conditions =>
    rw [slots, List.filterMap_append, List.filterMap_append, Property.filterMap_placeholder?,
      t.filterMap_placeholder?, WrittenCondition.filterMap_placeholder?]
    rfl
  | rowCount => rfl

/-! ## The placeholders of an operation -/

namespace Operation

/-- The placeholders of an operation agree with the parameters of its columns. -/
structure Agrees (op : Operation) (columns : List ColumnChange) : Prop where
  text : ∀ (d : Dialect) t, d.operationText op t columns =
    (Dialect.checkTable t).map fun _ => Piece.textAll d (op.pieces columns d t)
  /-- A row gets the current values of the columns that are written. -/
  settings : (op.change columns).settings =
    if op = .delete then [] else (columns.filter (·.roles.write)).map (·.current)
  /-- Conditions are on the baseline values. -/
  conditions : (op.change columns).conditions =
    if op = .insert then [] else (columns.filter (·.roles.condition)).map (·.original)
  /-- What is read back is found by those columns of the key that are not read, a written one by its
  current value and another one by its baseline value. -/
  readBack : (op.readBack columns).equations =
    if (op.readColumns columns).isEmpty then []
    else (columns.filter fun c => c.roles.key && !c.roles.read).map (·.settled)
  /-- The placeholders are those of these equations. -/
  placeholders : ∀ d t, (op.pieces columns d t).filterMap (·.placeholder?) =
    ((op.change columns).settings ++ (op.change columns).conditions ++
      (op.readBack columns).equations).map (·.parameter)
  /-- No parameter is missing, and each is written as its name. -/
  named : ∀ d t, ∀ parameter ∈ (op.pieces columns d t).filterMap (·.placeholder?),
    ∃ name, parameter = some name ∧ (Piece.placeholder parameter).text d = name

variable {op : Operation} {columns : List ColumnChange} {c : ColumnChange} {q : Equation}

theorem equations_change (op : Operation) (columns : List ColumnChange) :
    (op.change columns).equations =
      (op.change columns).settings ++ (op.change columns).conditions := by
  cases op with
  | insert => exact (List.append_nil _).symm
  | update | delete => rfl

theorem equations_readBack (op : Operation) (columns : List ColumnChange) :
    (op.readBack columns).equations =
      if (op.readColumns columns).isEmpty then []
      else (columns.filter fun c => c.roles.key && !c.roles.read).map (·.settled) := by
  have hkeys : ∀ columns : List ColumnChange,
      ((columns.filter (·.roles.key)).map (·.writtenCondition)).filterMap (·.equation?) =
        (columns.filter fun c => c.roles.key && !c.roles.read).map (·.settled) := by
    intro columns
    induction columns with
    | nil => rfl
    | cons c columns ih =>
      cases hkey : c.roles.key with
      | false => simpa [hkey] using ih
      | true =>
        cases hread : c.roles.read <;>
          simpa [hkey, hread, ColumnChange.writtenCondition, WrittenCondition.equation?] using ih
  unfold readBack
  split
  · rfl
  · rw [Statement.equations, List.filterMap_cons_none rfl, hkeys]

theorem filterMap_placeholder? (op : Operation) (columns : List ColumnChange) (d : Dialect)
    (t : QualifiedName) :
    (op.pieces columns d t).filterMap (·.placeholder?) =
      ((op.change columns).equations ++ (op.readBack columns).equations).map (·.parameter) := by
  rw [pieces, List.filterMap_append, Statement.filterMap_placeholder?,
    Statement.filterMap_placeholder?, List.map_append]

/-- Columns have the parameters that stand in an operation on them. -/
theorem isSome_of_named (hnamed : ∀ c ∈ columns, c.Named)
    (h : q ∈ (op.change columns).equations ++ (op.readBack columns).equations) :
    q.parameter.isSome = true := by
  rcases List.mem_append.1 h with h | h
  · obtain ⟨c, hc, ⟨hwrite, rfl⟩ | ⟨hcondition, rfl⟩⟩ := exists_of_mem_change h
    · exact (hnamed c hc).parameter.trans hwrite
    · refine (hnamed c hc).baselineParameter.trans ?_
      rw [hcondition, Bool.true_or]
  · obtain ⟨c, hc, hkey, hread, rfl⟩ := exists_of_mem_readBack h
    unfold ColumnChange.settled
    split
    · next hwrite => exact (hnamed c hc).parameter.trans hwrite
    · next hwrite =>
      refine (hnamed c hc).baselineParameter.trans ?_
      simp [hkey, hread, hwrite]

theorem agrees_of_named (op : Operation) (hnamed : ∀ c ∈ columns, c.Named) :
    op.Agrees columns where
  text d t := by
    rw [Dialect.operationText_eq]
    simp only [pieces, Piece.textAll_append, Statement.text]
  settings := by cases op <;> rfl
  conditions := by cases op <;> rfl
  readBack := equations_readBack op columns
  placeholders d t := by rw [filterMap_placeholder?, equations_change]
  named d t := by
    rw [filterMap_placeholder?]
    refine List.forall_mem_map.2 fun q hq => ?_
    obtain ⟨name, hname⟩ := Option.isSome_iff_exists.1 (isSome_of_named hnamed hq)
    exact ⟨name, hname, hname ▸ Piece.text_named⟩

/-! ### Where the parameters of a column stand -/

theorem placeholder_mem_pieces (d : Dialect) (t : QualifiedName)
    (h : q ∈ (op.change columns).equations) :
    Piece.placeholder q.parameter ∈ op.pieces columns d t := by
  have hmem : q.parameter ∈ (op.pieces columns d t).filterMap (·.placeholder?) := by
    rw [filterMap_placeholder?]
    exact List.mem_map_of_mem (List.mem_append_left _ h)
  obtain ⟨piece, hpiece, hparameter⟩ := List.mem_filterMap.1 hmem
  cases piece with
  | plain | name => cases hparameter
  | placeholder parameter =>
    cases hparameter
    exact hpiece

theorem current_mem_change (hc : c ∈ columns) (hwrite : c.roles.write = true) (hop : op ≠ .delete) :
    c.current ∈ (op.change columns).equations := by
  have hmem : c.current ∈ (columns.filter (·.roles.write)).map (·.current) :=
    List.mem_map_of_mem (List.mem_filter.2 ⟨hc, hwrite⟩)
  cases op with
  | insert => exact hmem
  | update => exact List.mem_append_left _ hmem
  | delete => exact absurd rfl hop

theorem original_mem_change (hc : c ∈ columns) (hcondition : c.roles.condition = true)
    (hop : op ≠ .insert) : c.original ∈ (op.change columns).equations := by
  have hmem : c.original ∈ (columns.filter (·.roles.condition)).map (·.original) :=
    List.mem_map_of_mem (List.mem_filter.2 ⟨hc, hcondition⟩)
  cases op with
  | insert => exact absurd rfl hop
  | update => exact List.mem_append_right _ hmem
  | delete => exact hmem

end Operation

/-! ## The parameters of an entry's command -/

namespace Command

variable {e : Entry} {names : ParameterNames} {c : Command} {t : EntityType} {op : Operation}
  {p : Property} {modified : Bool} {parameter : Parameter}

/-- A delete writes nothing. -/
theorem ne_delete_of_write (h : (rolesOf t op p modified).write = true) : op ≠ .delete := by
  rintro rfl
  cases h

/-- A property of an entry that has a parameter for its baseline value is a condition. -/
theorem condition_of_baseline (h : ((rolesOf t op p modified).condition ||
      ((rolesOf t op p modified).key && !(rolesOf t op p modified).write &&
        !(rolesOf t op p modified).read)) = true) :
    (rolesOf t op p modified).condition = true ∧ op ≠ .insert := by
  cases op with
  | insert =>
    dsimp only [rolesOf] at h
    cases hgenerated : p.storeGeneration.insert <;> simp [hgenerated] at h
  | update | delete =>
    refine ⟨?_, by decide⟩
    dsimp only [rolesOf] at h ⊢
    cases hkey : t.inKey p <;> simp_all

/-- A parameter stands in the text of a command, and has the current or the baseline value of a
property of the entry. -/
structure Bound (c : Command) (e : Entry) (parameter : Parameter) : Prop where
  written : ∀ d t, Piece.placeholder (some parameter.name) ∈ c.operation.pieces c.columns d t
  value : ∃ column ∈ c.columns,
    column.parameter = some parameter.name ∧ e.get column.property = .ok parameter.value ∨
      column.baselineParameter = some parameter.name ∧
        e.baselineValue column.property = .ok parameter.value

/-- Each parameter of an entry's command is written and has the value it stands for. -/
theorem bound_of_mem_parameters (h : ofEntry e names = .ok (some c))
    (hparameter : parameter ∈ c.parameters) : c.Bound e parameter := by
  obtain ⟨column, hcolumn, hmem⟩ := List.mem_flatMap.1 hparameter
  have hc := (ofEntry_eq_some h).columns column hcolumn
  have hnamed := named_of_mem_columns h column hcolumn
  rcases List.mem_append.1 hmem with hmem | hmem
  · obtain ⟨name, hname, rfl⟩ := Option.map_eq_some_iff.1 (Option.mem_toList.1 hmem)
    have hwrite : column.roles.write = true := by
      rw [← hnamed.parameter, hname]
      rfl
    have hop : c.operation ≠ .delete := ne_delete_of_write (hc.roles ▸ hwrite)
    refine ⟨fun d t => ?_, column, hcolumn, .inl ⟨hname, hc.value⟩⟩
    exact hname ▸ Operation.placeholder_mem_pieces d t
      (Operation.current_mem_change hcolumn hwrite hop)
  · obtain ⟨name, hname, rfl⟩ := Option.map_eq_some_iff.1 (Option.mem_toList.1 hmem)
    have hbaseline : column.baselineParameter.isSome = true := by
      rw [hname]
      rfl
    rw [hnamed.baselineParameter, hc.roles] at hbaseline
    obtain ⟨hcondition, hop⟩ := condition_of_baseline hbaseline
    refine ⟨fun d t => ?_, column, hcolumn, .inr ⟨hname, hc.baseline⟩⟩
    exact hname ▸ Operation.placeholder_mem_pieces d t
      (Operation.original_mem_change hcolumn (hc.roles ▸ hcondition) hop)

/-- **Placeholders and parameters.** In columns that are made one after the other, no two parameters
share a name, and every operation has placeholders for parameters that the columns have. Each
parameter of an entry's command is written, and has the value it stands for. -/
theorem placeholders_agree :
    (∀ (stem : String) (specs : List ColumnSpec),
      (((ColumnChange.makeAll specs { stem }).flatMap (·.parameters)).map (·.name)).Nodup ∧
      ∀ op : Operation, op.Agrees (ColumnChange.makeAll specs { stem })) ∧
    ∀ (e : Entry) (names : ParameterNames) (c : Command), ofEntry e names = .ok (some c) →
      c.operation.Agrees c.columns ∧ ∀ parameter ∈ c.parameters, c.Bound e parameter := by
  constructor
  · intro stem specs
    exact ⟨ColumnChange.nodup_makeAll specs _, fun op =>
      op.agrees_of_named (ColumnChange.makeAll_named specs _)⟩
  · intro e names c h
    exact ⟨c.operation.agrees_of_named (named_of_mem_columns h), fun parameter hparameter =>
      bound_of_mem_parameters h hparameter⟩

theorem placeholders_agree_notes :
    ofEntry (Notes.edited (.int 7)) {} = .ok (some (Notes.update (.int 7))) ∧
    (Notes.update (.int 7)).operation.Agrees (Notes.update (.int 7)).columns ∧
    (Notes.update (.int 7)).parameters.map (·.name) = ["@p0", "@p1", "@p2"] ∧
    ∀ parameter ∈ (Notes.update (.int 7)).parameters,
      (Notes.update (.int 7)).Bound (Notes.edited (.int 7)) parameter := by
  have h := Notes.ofEntry_edited (.int 7)
  obtain ⟨hagrees, hbound⟩ := placeholders_agree.2 _ _ _ h
  exact ⟨h, hagrees, rfl, hbound⟩

end Command

end EntityMapper
