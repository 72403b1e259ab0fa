import EntityMapper.Proofs.Command.Parameters
import EntityMapper.Proofs.Query.Meaning
import EntityMapper.Sql.Statement
import Mathlib.Logic.Function.Basic

/-!
# The meaning of commands

An update or a delete consists of equations between columns and parameters: some are set and some
are conditions, and the text of the command is made of them (`Command.sql_eq_guardedText`). On a row
of the store the conditions have a truth value (`Command.accepts`), and the settings give the row
that an update leaves (`Command.applyTo`).

* The conditions of an entry's command compare the key and the concurrency tokens with their
  baseline values, and nothing else (`Command.guards_of_ofEntry`).
* The settings give each written property its current value, and leave the others
  (`Command.get_of_write`, `Command.applyTo_of_not_write`).

Null equals nothing in a store, not even null. So a row that equals the baseline values is accepted
exactly where no condition is on null (`Command.accepts_baseline_iff`).
-/

namespace EntityMapper

/-! ## Updates one after the other -/

section

variable {α β κ : Type} [DecidableEq κ] {key : α → κ} {value : α → β} {as : List α} {f : κ → β}
  {k : κ} {a : α}

/-- Updates of other keys leave a value. -/
theorem foldl_update_of_notMem (h : ∀ a ∈ as, key a ≠ k) :
    as.foldl (fun f a => Function.update f (key a) (value a)) f k = f k := by
  induction as generalizing f with
  | nil => rfl
  | cons a as ih =>
    obtain ⟨hne, hrest⟩ := List.forall_mem_cons.1 h
    exact (ih hrest).trans (Function.update_of_ne (Ne.symm hne) ..)

/-- Where no key is updated twice, each has its new value. -/
theorem foldl_update_of_mem (hnodup : (as.map key).Nodup) (ha : a ∈ as) :
    as.foldl (fun f a => Function.update f (key a) (value a)) f (key a) = value a := by
  induction as generalizing f with
  | nil => cases ha
  | cons other as ih =>
    obtain ⟨hnot, hnodup⟩ := List.nodup_cons.1 hnodup
    rcases List.mem_cons.1 ha with rfl | ha
    · have hothers : ∀ b ∈ as, key b ≠ key a := fun b hb heq =>
        hnot (List.mem_map.2 ⟨b, hb, heq⟩)
      exact (foldl_update_of_notMem hothers).trans (Function.update_self ..)
    · exact ih hnodup ha

end

/-! ## Equations -/

/-- A column and a parameter, by its name; without a name the column is equated with null. -/
structure Equation where
  property : Property
  parameter : Option String

namespace Equation

variable (q : Equation) {parameters : List Parameter} {settings : List Equation} {row : Row}
  {i : Nat}

/-- The text of an equation: the column, and the parameter by its name. -/
def text (d : Dialect) : String :=
  d.delimit q.property.columnName ++ " = " ++ q.parameter.getD "NULL"

/-- The value of the parameter among those that are sent. -/
def operand (parameters : List Parameter) : Value :=
  (q.parameter.bind fun name => (parameters.find? (·.name == name)).map (·.value)).getD .null

/-- The text of conditions; nothing without conditions. -/
def whereText (d : Dialect) (conditions : List Equation) : String :=
  if conditions.isEmpty then ""
  else "\nWHERE " ++ joined " AND " (conditions.map (·.text d))

/-- A row with columns set to the values of parameters. -/
def assignAll (parameters : List Parameter) (settings : List Equation) (row : Row) : Row :=
  settings.foldl (fun row q => Function.update row q.property.index (q.operand parameters)) row

theorem assignAll_of_notMem (h : ∀ q ∈ settings, q.property.index ≠ i) :
    assignAll parameters settings row i = row i :=
  foldl_update_of_notMem h

theorem assignAll_of_mem (hnodup : (settings.map (·.property.index)).Nodup) {q : Equation}
    (hq : q ∈ settings) :
    assignAll parameters settings row q.property.index = q.operand parameters :=
  foldl_update_of_mem hnodup hq

end Equation

/-- Whether the baseline value of a property is a condition of updates and deletes. -/
def EntityType.guarded (t : EntityType) (p : Property) : Bool :=
  t.inKey p || p.concurrencyToken

/-! ## The equations of a command -/

namespace Command

variable (c : Command)

/-- The columns that are set. -/
def settings : List Equation :=
  (c.columns.filter (·.roles.write)).map fun column => ⟨column.property, column.parameter⟩

/-- The conditions on a row. -/
def conditions : List Equation :=
  (c.columns.filter (·.roles.condition)).map fun column =>
    ⟨column.property, column.baselineParameter⟩

/-- The change, as text, without conditions. -/
def changeText (d : Dialect) : String :=
  if c.operation = .delete then "DELETE FROM " ++ d.delimitTable c.table
  else "UPDATE " ++ d.delimitTable c.table ++ " SET " ++
    joined ", " (c.settings.map (·.text d))

/-- The text of an update or a delete: a change under conditions, and what is read back. -/
def guardedText (d : Dialect) : String :=
  d.header ++ d.statement (c.changeText d ++ Equation.whereText d c.conditions) ++
    d.readBackStatement c.table c.columns

/-- How the conditions come out on a row, under some reading of equality. -/
def accepts (equals : Value → Value → Truth) (row : Row) : Truth :=
  .all (c.conditions.map fun q => equals (row q.property.index) (q.operand c.parameters))

/-- The row once the columns are set. -/
def applyTo (row : Row) : Row :=
  Equation.assignAll c.parameters c.settings row

variable {c} {e : Entry} {names : ParameterNames} {column : ColumnChange} {p : Property} {row : Row}

theorem whereText_conditions (c : Command) (d : Dialect) :
    Equation.whereText d c.conditions = d.whereClause (c.columns.filter (·.roles.condition)) := by
  rw [Equation.whereText, conditions, List.isEmpty_map, List.map_map]
  rfl

theorem map_text_settings (c : Command) (d : Dialect) :
    c.settings.map (·.text d) = (c.columns.filter (·.roles.write)).map d.currentEquation :=
  List.map_map

/-- A deleting command reads nothing back. -/
theorem CommandOf.reads_eq_nil_of_delete (hc : CommandOf e c) (hop : c.operation = .delete) :
    c.columns.filter (·.roles.read) = [] := by
  refine List.filter_eq_nil_iff.2 fun column hcolumn => ?_
  rw [(hc.columns column hcolumn).roles, hop]
  exact Bool.false_ne_true

/-- The text of an update or a delete is that of its equations. -/
theorem CommandOf.sql_eq_guardedText (hc : CommandOf e c) (hop : c.operation ≠ .insert)
    (d : Dialect) :
    c.sql d = (Dialect.checkTable c.table).map fun _ => c.guardedText d := by
  rw [sql, body, guardedText, changeText, whereText_conditions, map_text_settings]
  cases hkind : c.operation with
  | insert => exact absurd hkind hop
  | update =>
    dsimp only [Dialect.operationText, Dialect.updateText]
    cases Dialect.checkTable c.table with
    | error err => rfl
    | ok _ => exact congrArg Except.ok String.append_assoc.symm
  | delete =>
    have hreads : d.readBackStatement c.table c.columns = d.rowCountStatement c.table := by
      rw [Dialect.readBackStatement, hc.reads_eq_nil_of_delete hkind]
      rfl
    rw [hreads]
    dsimp only [Dialect.operationText, Dialect.deleteText]
    cases Dialect.checkTable c.table with
    | error err => rfl
    | ok _ => exact congrArg Except.ok String.append_assoc.symm

/-! ## The values of parameters -/

theorem operand_of_parameter (h : ofEntry e names = .ok (some c)) (hcolumn : column ∈ c.columns)
    (hwrite : column.roles.write = true) :
    Equation.operand ⟨column.property, column.parameter⟩ c.parameters = column.value := by
  have hnamed := (named_of_mem_columns h column hcolumn).parameter
  obtain ⟨name, hname⟩ := Option.isSome_iff_exists.1 (hnamed.trans hwrite)
  have hfound := find?_parameters h hcolumn (ColumnChange.mem_parameters_of_parameter hname)
  simp [Equation.operand, hname, hfound]

theorem operand_of_baselineParameter (h : ofEntry e names = .ok (some c))
    (hcolumn : column ∈ c.columns) (hcondition : column.roles.condition = true) :
    Equation.operand ⟨column.property, column.baselineParameter⟩ c.parameters =
      column.baseline := by
  have hnamed := (named_of_mem_columns h column hcolumn).baselineParameter
  rw [hcondition, Bool.true_or] at hnamed
  obtain ⟨name, hname⟩ := Option.isSome_iff_exists.1 hnamed
  have hfound := find?_parameters h hcolumn (ColumnChange.mem_parameters_of_baselineParameter hname)
  simp [Equation.operand, hname, hfound]

/-! ## Conditions -/

/-- A command changes those rows of an entity type that agree with a given row in the key and in the
concurrency tokens. -/
structure Guards (c : Command) (t : EntityType) (row : Row) : Prop where
  entityType : c.entityType = t
  text : ∀ d, c.sql d = (Dialect.checkTable c.table).map fun _ => c.guardedText d
  conditions : c.conditions.map (·.property) = t.properties.filter t.guarded
  accepts : ∀ equals stored, c.accepts equals stored = .yes ↔
    ∀ p ∈ t.properties, t.guarded p = true → equals (stored p.index) (row p.index) = .yes

/-- The conditions are on the key and on concurrency tokens. -/
theorem properties_conditions (h : ofEntry e names = .ok (some c)) (hop : c.operation ≠ .insert) :
    c.conditions.map (·.property) = e.type.properties.filter e.type.guarded := by
  have hcondition : ∀ p, (rolesAt e c.operation p).condition = e.type.guarded p := by
    intro p
    cases hkind : c.operation with
    | insert => exact absurd hkind hop
    | update | delete => rfl
  have hproperties := properties_filter_columns h Roles.condition
    fun roles hcondition => by simp [Roles.any, hcondition]
  simp only [hcondition] at hproperties
  rw [conditions, List.map_map]
  exact hproperties

/-- **Conditions of an entry's command.** An update or a delete of an entry is guarded by the
baseline values of its key and of its concurrency tokens. -/
theorem guards_of_ofEntry (h : ofEntry e names = .ok (some c)) (hop : c.operation ≠ .insert)
    (hrow : ∀ p ∈ e.type.properties, e.baselineValue p = .ok (row p.index)) :
    c.Guards e.type row where
  entityType := (ofEntry_eq_some h).entityType
  text := (ofEntry_eq_some h).sql_eq_guardedText hop
  conditions := properties_conditions h hop
  accepts := by
    intro equals stored
    have hc := ofEntry_eq_some h
    have hoperand : ∀ q ∈ c.conditions, q.operand c.parameters = row q.property.index := by
      intro q hq
      obtain ⟨column, hcolumn, rfl⟩ := List.mem_map.1 hq
      obtain ⟨hmem, hcondition⟩ := List.mem_filter.1 hcolumn
      have hproperty := hc.properties.subset (List.mem_map_of_mem hmem)
      have hbaseline := (hc.columns column hmem).baseline
      rw [hrow _ hproperty] at hbaseline
      rw [operand_of_baselineParameter h hmem hcondition]
      exact (Except.ok.inj hbaseline).symm
    have hproperties : ∀ p, p ∈ c.conditions.map (·.property) ↔
        p ∈ e.type.properties ∧ e.type.guarded p = true := fun p => by
      rw [properties_conditions h hop, List.mem_filter]
    rw [Command.accepts, Truth.all_eq_yes, List.forall_mem_map]
    constructor
    · intro hall p hp hguarded
      obtain ⟨q, hq, rfl⟩ := List.mem_map.1 ((hproperties p).2 ⟨hp, hguarded⟩)
      rw [← hoperand q hq]
      exact hall q hq
    · intro hall q hq
      obtain ⟨hp, hguarded⟩ := (hproperties q.property).1 (List.mem_map_of_mem hq)
      rw [hoperand q hq]
      exact hall q.property hp hguarded

/-! ## Settings -/

theorem properties_settings (h : ofEntry e names = .ok (some c)) :
    c.settings.map (·.property) =
      e.type.properties.filter fun p => (rolesAt e c.operation p).write := by
  rw [settings, List.map_map]
  exact properties_filter_columns h Roles.write
    fun roles hwrite => by simp [Roles.any, hwrite]

theorem properties_reads (h : ofEntry e names = .ok (some c)) :
    c.reads.map (·.property) = e.type.properties.filter fun p => (rolesAt e c.operation p).read :=
  properties_filter_columns h Roles.read fun roles hread => by simp [Roles.any, hread]

theorem nodup_index_settings (h : ofEntry e names = .ok (some c)) (placed : e.type.Placed) :
    (c.settings.map (·.property.index)).Nodup := by
  have hsub : (c.settings.map (·.property)).Sublist e.type.properties :=
    properties_settings h ▸ List.filter_sublist
  have hindex := hsub.map Property.index
  rw [List.map_map] at hindex
  exact placed.nodup_index.sublist hindex

/-- A written property gets its current value. -/
theorem get_of_write (h : ofEntry e names = .ok (some c)) (placed : e.type.Placed)
    (hp : p ∈ e.type.properties) (hwrite : (rolesAt e c.operation p).write = true) (row : Row) :
    e.get p = .ok (c.applyTo row p.index) := by
  have hmem : p ∈ c.settings.map (·.property) := by
    rw [properties_settings h]
    exact List.mem_filter.2 ⟨hp, hwrite⟩
  obtain ⟨q, hq, rfl⟩ := List.mem_map.1 hmem
  have hassigned : c.applyTo row q.property.index = q.operand c.parameters :=
    Equation.assignAll_of_mem (nodup_index_settings h placed) hq
  obtain ⟨column, hcolumn, rfl⟩ := List.mem_map.1 hq
  obtain ⟨hcolumn, hwritten⟩ := List.mem_filter.1 hcolumn
  rw [operand_of_parameter h hcolumn hwritten] at hassigned
  rw [((ofEntry_eq_some h).columns column hcolumn).value]
  exact congrArg Except.ok hassigned.symm

/-- The other properties keep theirs. -/
theorem applyTo_of_not_write (h : ofEntry e names = .ok (some c)) (placed : e.type.Placed)
    (hp : p ∈ e.type.properties) (hwrite : (rolesAt e c.operation p).write = false) (row : Row) :
    c.applyTo row p.index = row p.index := by
  refine Equation.assignAll_of_notMem fun q hq heq => ?_
  have hmem : q.property ∈ c.settings.map (·.property) := List.mem_map_of_mem hq
  rw [properties_settings h] at hmem
  obtain ⟨hproperty, hwritten⟩ := List.mem_filter.1 hmem
  rw [placed.eq_of_index hproperty hp heq, hwrite] at hwritten
  cases hwritten

/-! ## Rows that nobody has changed -/

/-- The equality of a store: null equals nothing, and every other value equals itself. -/
structure LawfulEquals (equals : Value → Value → Truth) : Prop where
  null : ∀ v w, v.isNull || w.isNull → equals v w ≠ .yes
  self : ∀ v, v.isNull = false → equals v v = .yes

theorem lawfulEquals_textCompare : LawfulEquals (textCompare .equal) where
  null v w h := by simp [textCompare, h]
  self v h := by simp [textCompare, h, Truth.ofValue]

/-- **Rows that nobody has changed.** A row that equals the baseline values of a modified or deleted
entry is accepted by the command of the entry exactly where the baseline values of the key and of
the concurrency tokens are not null. -/
theorem accepts_baseline_iff {equals : Value → Value → Truth} (law : LawfulEquals equals)
    (h : ofEntry e names = .ok (some c)) (hstate : e.state = .modified ∨ e.state = .deleted)
    (hrow : ∀ p ∈ e.type.properties, e.baselineValue p = .ok (row p.index)) :
    (∀ d, c.sql d = (Dialect.checkTable c.table).map fun _ => c.guardedText d) ∧
    (c.accepts equals row = .yes ↔
      ∀ p ∈ e.type.properties, e.type.guarded p = true → (row p.index).isNull = false) := by
  have hop : c.operation ≠ .insert := by
    intro hinsert
    have hoperation := (ofEntry_eq_some h).operation
    rw [hinsert] at hoperation
    rcases hstate with hs | hs <;> rw [hs] at hoperation <;> cases hoperation
  have hguards := guards_of_ofEntry h hop hrow
  refine ⟨hguards.text, (hguards.accepts equals row).trans ?_⟩
  refine forall_congr' fun p => forall_congr' fun _ => forall_congr' fun _ => ?_
  cases hnull : (row p.index).isNull with
  | true => simp [law.null (row p.index) (row p.index) (by simp [hnull])]
  | false => simp [law.self _ hnull]

end Command

/-! ## An example -/

namespace Notes

/-- The key of a note. -/
def key : Property where
  name := "Id"
  owner := ⟨0⟩
  ownerName := "Note"
  index := 0
  valueType := .bigInt
  nullable := false
  shadow := true
  concurrencyToken := false
  clientGenerated := false
  storeGeneration := .never
  column := none
  tableKey := none

/-- What is noted. -/
def body : Property :=
  { key with name := "Body", index := 1, valueType := .text }

/-- The version of a note, which may be missing. -/
def version : Property :=
  { key with
    name := "Version", index := 2, valueType := .int, nullable := true, concurrencyToken := true }

/-- Notes, whose versions tell concurrent changes. -/
def type : EntityType where
  id := ⟨0⟩
  name := "Note"
  properties := [key, body, version]
  key := some ⟨key, [], List.forall_mem_nil _⟩

/-- The values of a note of some version. -/
def values (text : String) (v : Value) : List Value :=
  [.bigInt 1, .text text, v]

/-- The row of a note. -/
def row (v : Value) : Row := fun i => ((values "Old" v)[i]?).getD .null

/-- A note as it was read. -/
def loaded (v : Value) : Entry where
  id := ⟨1⟩
  type := type
  native := none
  shadow := values "Old" v
  accessors := [none, none, none]
  state := .unchanged
  modified := [false, false, false]
  sidecars := []
  snapshot := []

/-- The note with another text. -/
def edited (v : Value) : Entry :=
  { loaded v with
    shadow := values "New" v
    state := .modified
    modified := [false, true, false]
    sidecars := [{ Sidecar.baseline type.properties with values := [(1, .text "Old")] }] }

/-- The command that saves the other text. -/
def update (v : Value) : Command where
  entry := ⟨1⟩
  entityType := type
  operation := .update
  columns :=
    [⟨key, { key := true, condition := true }, .bigInt 1, .bigInt 1, none, some "@p0"⟩,
      ⟨body, { write := true }, .text "New", .text "Old", some "@p1", none⟩,
      ⟨version, { condition := true }, v, v, none, some "@p2"⟩]

theorem ofEntry_edited (v : Value) : Command.ofEntry (edited v) {} = .ok (some (update v)) := rfl

theorem baselineValue_edited (v : Value) :
    ∀ p ∈ (edited v).type.properties, (edited v).baselineValue p = .ok (row v p.index) := by
  intro p hp
  rcases List.mem_cons.1 hp with rfl | hp
  · rfl
  · rcases List.mem_pair.1 hp with rfl | rfl <;> rfl

end Notes

namespace Command

theorem accepts_baseline_iff_notes : LawfulEquals (textCompare .equal) ∧
    ofEntry (Notes.edited .null) {} = .ok (some (Notes.update .null)) ∧
    ofEntry (Notes.edited (.int 7)) {} = .ok (some (Notes.update (.int 7))) ∧
    (Notes.update .null).accepts (textCompare .equal) (Notes.row .null) ≠ .yes ∧
    (Notes.update (.int 7)).accepts (textCompare .equal) (Notes.row (.int 7)) = .yes := by
  have hiff : ∀ v, (Notes.update v).accepts (textCompare .equal) (Notes.row v) = .yes ↔ _ :=
    fun v => (accepts_baseline_iff lawfulEquals_textCompare (Notes.ofEntry_edited v) (.inl rfl)
      (Notes.baselineValue_edited v)).2
  refine ⟨lawfulEquals_textCompare, rfl, rfl, fun hyes => ?_, (hiff (.int 7)).2 (by decide)⟩
  exact absurd ((hiff .null).1 hyes) (by decide)

end Command

end EntityMapper
