import EntityMapper.Proofs.Command.Columns
import Mathlib.Data.List.Nodup

/-!
# The parameters of a command

The columns of a command take the names of their parameters one after the other, so that no two of
the parameters share a name (`Command.nodup_parameters`) and each is found by its name. Which
parameters a column has is a matter of its roles (`ColumnChange.Named`).
-/

namespace EntityMapper

/-! ## Names in order -/

namespace ParameterNames

variable {names : ParameterNames} {m n : Nat}

theorem nameAt_inj : names.nameAt m = names.nameAt n ↔ m = n := by
  have hread : ∀ n : Nat, Nat.ofDigitChars 10 (toString n).toList 0 = n := by
    intro n
    rw [Nat.toString_eq_repr, Nat.toList_repr]
    exact Nat.ofDigitChars_toDigits (by decide) (by decide)
  rw [nameAt, nameAt, String.append_right_inj]
  exact ⟨fun h => by rw [← hread m, h, hread n], fun h => h ▸ rfl⟩

/-- The names once some were given out. -/
def skip (names : ParameterNames) (n : Nat) : ParameterNames :=
  { names with used := names.used + n }

/-- The next names, in order. -/
def upcoming (names : ParameterNames) (n : Nat) : List String :=
  (List.range' names.used n).map names.nameAt

@[simp] theorem length_upcoming : (names.upcoming n).length = n := by
  rw [upcoming, List.length_map, List.length_range']

theorem nodup_upcoming : (names.upcoming n).Nodup :=
  (List.nodup_range' ..).map fun _ _ => nameAt_inj.1

theorem upcoming_add : names.upcoming (m + n) = names.upcoming m ++ (names.skip m).upcoming n := by
  rw [upcoming, ← List.range'_append_1, List.map_append]
  rfl

end ParameterNames

/-! ## Columns with parameters -/

/-- What a column is made from, besides the names of its parameters. -/
structure ColumnSpec where
  property : Property
  roles : Roles
  value : Value
  baseline : Value

namespace ColumnChange

/-- A column has those parameters that its roles ask for. -/
structure Named (column : ColumnChange) : Prop where
  parameter : column.parameter.isSome = column.roles.write
  baselineParameter : column.baselineParameter.isSome = (column.roles.condition ||
    (column.roles.key && !column.roles.write && !column.roles.read))

variable {p : Property} {roles : Roles} {value baseline : Value} {names : ParameterNames}

theorem make_named : (make p roles value baseline names).1.Named := by
  obtain ⟨read, write, key, condition⟩ := roles
  constructor <;> cases read <;> cases write <;> cases key <;> cases condition <;> rfl

/-- A new column takes the next names, one for each of its parameters, and leaves the others. -/
theorem make_names (p : Property) (roles : Roles) (value baseline : Value)
    (names : ParameterNames) :
    (make p roles value baseline names).2 =
      names.skip (make p roles value baseline names).1.parameters.length ∧
    (make p roles value baseline names).1.parameters.map (·.name) =
      names.upcoming (make p roles value baseline names).1.parameters.length := by
  obtain ⟨read, write, key, condition⟩ := roles
  cases read <;> cases write <;> cases key <;> cases condition <;> exact ⟨rfl, rfl⟩

/-- Columns that are made one after the other. -/
def makeAll : List ColumnSpec → ParameterNames → List ColumnChange
  | [], _ => []
  | spec :: rest, names =>
    (make spec.property spec.roles spec.value spec.baseline names).1 ::
      makeAll rest (make spec.property spec.roles spec.value spec.baseline names).2

theorem makeAll_named (specs : List ColumnSpec) (names : ParameterNames) :
    ∀ column ∈ makeAll specs names, column.Named := by
  induction specs generalizing names with
  | nil => exact List.forall_mem_nil _
  | cons spec specs ih => exact List.forall_mem_cons.2 ⟨make_named, ih _⟩

/-- Columns take the next names, one for each of their parameters. -/
theorem makeAll_names (specs : List ColumnSpec) (names : ParameterNames) :
    ((makeAll specs names).flatMap (·.parameters)).map (·.name) =
      names.upcoming ((makeAll specs names).flatMap (·.parameters)).length := by
  induction specs generalizing names with
  | nil => rfl
  | cons spec specs ih =>
    obtain ⟨hskip, hmade⟩ := make_names spec.property spec.roles spec.value spec.baseline names
    rw [makeAll, List.flatMap_cons, List.map_append, hmade, ih, hskip, List.length_append,
      ParameterNames.upcoming_add]

/-- No two parameters of columns that are made one after the other share a name. -/
theorem nodup_makeAll (specs : List ColumnSpec) (names : ParameterNames) :
    (((makeAll specs names).flatMap (·.parameters)).map (·.name)).Nodup := by
  rw [makeAll_names]
  exact ParameterNames.nodup_upcoming

theorem mem_parameters_of_parameter {column : ColumnChange} {name : String}
    (h : column.parameter = some name) : ⟨name, column.value⟩ ∈ column.parameters := by
  simp [parameters, h]

theorem mem_parameters_of_baselineParameter {column : ColumnChange} {name : String}
    (h : column.baselineParameter = some name) : ⟨name, column.baseline⟩ ∈ column.parameters := by
  simp [parameters, h]

end ColumnChange

namespace Command

variable {e : Entry} {op : Operation} {names names' : ParameterNames} {c : Command}
  {p : Property} {properties : List Property} {columns : List ColumnChange}

/-- The columns of properties are made one after the other. -/
theorem exists_makeAll_of_columnsOf (h : columnsOf e op properties names = .ok (columns, names')) :
    ∃ specs, columns = ColumnChange.makeAll specs names := by
  induction properties generalizing names columns with
  | nil =>
    cases h
    exact ⟨[], rfl⟩
  | cons p properties ih =>
    rcases columnsOf_cons_eq_ok h with ⟨-, h⟩ | ⟨-, value, baseline, rest, -, -, rfl, hrest⟩
    · exact ih h
    · obtain ⟨specs, rfl⟩ := ih hrest
      exact ⟨⟨p, rolesAt e op p, value, baseline⟩ :: specs, rfl⟩

/-! ## The parameters of an entry's command -/

theorem exists_makeAll_of_ofEntry (h : ofEntry e names = .ok (some c)) :
    ∃ specs, c.columns = ColumnChange.makeAll specs names := by
  obtain ⟨columns, names', -, hcolumns, -, hc⟩ := ofEntry_eq_some_iff.1 h
  rw [hc]
  exact exists_makeAll_of_columnsOf hcolumns

theorem named_of_mem_columns (h : ofEntry e names = .ok (some c)) :
    ∀ column ∈ c.columns, column.Named := by
  obtain ⟨specs, hcolumns⟩ := exists_makeAll_of_ofEntry h
  rw [hcolumns]
  exact ColumnChange.makeAll_named specs names

/-- **Names of parameters.** No two parameters of a command share a name. -/
theorem nodup_parameters (h : ofEntry e names = .ok (some c)) :
    (c.parameters.map (·.name)).Nodup := by
  obtain ⟨specs, hcolumns⟩ := exists_makeAll_of_ofEntry h
  rw [parameters, hcolumns]
  exact ColumnChange.nodup_makeAll specs names

/-- A parameter of one of the columns is found by its name. -/
theorem find?_parameters (h : ofEntry e names = .ok (some c)) {column : ColumnChange}
    (hcolumn : column ∈ c.columns) {parameter : Parameter}
    (hparameter : parameter ∈ column.parameters) :
    c.parameters.find? (·.name == parameter.name) = some parameter :=
  find?_key_of_mem (nodup_parameters h) (List.mem_flatMap.2 ⟨column, hcolumn, hparameter⟩)

end Command

end EntityMapper
