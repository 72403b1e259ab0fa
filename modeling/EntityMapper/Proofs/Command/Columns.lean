import EntityMapper.Proofs.Tracking.Validity

/-!
# The command of an entry

What `Command.ofEntry` makes of an entry: the identity and entity type of the entry, the operation
that its state asks for, and columns of some of its properties, in order, each with the roles that
the operation gives it (`Command.ofEntry_eq_some`). These are the properties with a part in the
command (`Command.properties_filter_columns`), and the columns can be made wherever the values of
the entry can be read (`Command.exists_columnsOf`). A column is read back only if the store may
generate its property (`Command.CommandOf.generable_of_mem_reads`).
-/

namespace EntityMapper

/-- The properties that the store may generate. -/
def EntityType.generable (t : EntityType) : List Property :=
  t.properties.filter (·.storeGeneration.insert)

theorem StoreGeneration.insert_of_update {g : StoreGeneration} (h : g.update = true) :
    g.insert = true := by
  cases g with
  | onInsertAndUpdate => rfl
  | never => cases h
  | onInsert => cases h

/-- Only new, modified and deleted entries are saved. -/
theorem EntityState.changed_of_operation {state : EntityState} {op : Operation}
    (h : state.operation? = some op) (hkept : state ≠ .deleted) :
    state = .added ∨ state = .modified := by
  cases state with
  | added => exact .inl rfl
  | modified => exact .inr rfl
  | deleted => exact absurd rfl hkept
  | unknown | unchanged => cases h

/-- What is read is owned. -/
theorem Entry.owns_of_get {e : Entry} {p : Property} {v : Value} (h : e.get p = .ok v) :
    e.type.owns p = true := by
  obtain ⟨⟨⟩, howned, -⟩ := Result.bind_eq_ok_iff.1 h
  exact owns_of_requireOwned howned

/-- Whether a column has any part in a command. -/
def Roles.any (roles : Roles) : Bool :=
  roles.read || roles.write || roles.condition

namespace Command

variable {e : Entry} {op : Operation} {names names' : ParameterNames} {c : Command}
  {p : Property} {properties : List Property} {columns : List ColumnChange}

/-- The roles of a property in a command of an entry. -/
def rolesAt (e : Entry) (op : Operation) (p : Property) : Roles :=
  rolesOf e.type op p ((e.modified[p.index]?).getD false)

/-- A column of an entry with what its operation makes of it. -/
structure ColumnOf (e : Entry) (op : Operation) (column : ColumnChange) : Prop where
  roles : column.roles =
    rolesOf e.type op column.property ((e.modified[column.property.index]?).getD false)
  value : e.get column.property = .ok column.value
  baseline : e.baselineValue column.property = .ok column.baseline

/-- A property without a part in the command is left out, and another one gets a column. -/
theorem columnsOf_cons_eq_ok
    (h : columnsOf e op (p :: properties) names = .ok (columns, names')) :
    (rolesAt e op p).any = false ∧ columnsOf e op properties names = .ok (columns, names') ∨
    (rolesAt e op p).any = true ∧ ∃ value baseline rest,
      e.get p = .ok value ∧ e.baselineValue p = .ok baseline ∧
      columns = (ColumnChange.make p (rolesAt e op p) value baseline names).1 :: rest ∧
      columnsOf e op properties
        (ColumnChange.make p (rolesAt e op p) value baseline names).2 = .ok (rest, names') := by
  unfold columnsOf at h
  dsimp only at h
  split at h
  · rename_i hany
    obtain ⟨value, hvalue, h⟩ := Result.bind_eq_ok_iff.1 h
    obtain ⟨baseline, hbaseline, h⟩ := Result.bind_eq_ok_iff.1 h
    obtain ⟨⟨rest, names₁⟩, hrest, h⟩ := Result.bind_eq_ok_iff.1 h
    cases h
    exact .inr ⟨hany, value, baseline, rest, hvalue, hbaseline, rfl, hrest⟩
  · rename_i hnone
    exact .inl ⟨Bool.eq_false_iff.2 hnone, h⟩

/-- The columns are made of some of the properties, in order. -/
theorem columnsOf_spec (h : columnsOf e op properties names = .ok (columns, names')) :
    (columns.map (·.property)).Sublist properties ∧ ∀ column ∈ columns, ColumnOf e op column := by
  induction properties generalizing names columns with
  | nil =>
    cases h
    exact ⟨.slnil, fun column hcolumn => by cases hcolumn⟩
  | cons p properties ih =>
    rcases columnsOf_cons_eq_ok h with
      ⟨-, h⟩ | ⟨-, value, baseline, rest, hvalue, hbaseline, rfl, hrest⟩
    · obtain ⟨hsub, hcolumns⟩ := ih h
      exact ⟨hsub.cons p, hcolumns⟩
    · obtain ⟨hsub, hcolumns⟩ := ih hrest
      exact ⟨hsub.cons_cons p, List.forall_mem_cons.2 ⟨⟨rfl, hvalue, hbaseline⟩, hcolumns⟩⟩

/-- The columns are those of the properties with a part in the command. -/
theorem properties_columnsOf (h : columnsOf e op properties names = .ok (columns, names')) :
    columns.map (·.property) = properties.filter fun p => (rolesAt e op p).any := by
  induction properties generalizing names columns with
  | nil =>
    cases h
    rfl
  | cons p properties ih =>
    rcases columnsOf_cons_eq_ok h with ⟨hnone, h⟩ | ⟨hany, _, _, rest, -, -, rfl, hrest⟩
    · rw [List.filter_cons_of_neg (by simp [hnone])]
      exact ih h
    · rw [List.filter_cons, if_pos hany]
      exact congrArg (p :: ·) (ih hrest)

/-- Columns can be made of properties whose values and baseline values can be read. -/
theorem exists_columnsOf (op : Operation)
    (hget : ∀ p ∈ properties, ∃ v, e.get p = .ok v)
    (hbaseline : ∀ p ∈ properties, ∃ v, e.baselineValue p = .ok v) (names : ParameterNames) :
    ∃ columns names', columnsOf e op properties names = .ok (columns, names') := by
  induction properties generalizing names with
  | nil => exact ⟨[], names, rfl⟩
  | cons p properties ih =>
    have ih := ih (fun q hq => hget q (List.mem_cons_of_mem _ hq))
      (fun q hq => hbaseline q (List.mem_cons_of_mem _ hq))
    unfold columnsOf
    dsimp only
    split
    · obtain ⟨value, hvalue⟩ := hget p List.mem_cons_self
      obtain ⟨baseline, hb⟩ := hbaseline p List.mem_cons_self
      obtain ⟨rest, names', hrest⟩ :=
        ih (ColumnChange.make p (rolesAt e op p) value baseline names).2
      refine ⟨(ColumnChange.make p (rolesAt e op p) value baseline names).1 :: rest, names', ?_⟩
      exact Result.bind_eq_ok_iff.2 ⟨value, hvalue, Result.bind_eq_ok_iff.2
        ⟨baseline, hb, Result.bind_eq_ok_iff.2 ⟨_, hrest, rfl⟩⟩⟩
    · exact ih names

/-- Columns can be made of the properties of a valid entry. -/
theorem exists_columnsOf_of_valid (hv : e.Valid) (op : Operation) (names : ParameterNames) :
    ∃ columns names', columnsOf e op e.type.properties names = .ok (columns, names') :=
  exists_columnsOf op (fun _ hp => hv.get_ok (hv.placed.owns_of_mem hp))
    (fun _ hp => hv.baselineValue_ok (hv.placed.owns_of_mem hp)) names

/-- An entry makes a command of its columns if its state asks for one, unless that is an update with
nothing to write or read back. -/
theorem ofEntry_eq_some_iff : ofEntry e names = .ok (some c) ↔
    ∃ columns names', e.state.operation? = some c.operation ∧
      columnsOf e c.operation e.type.properties names = .ok (columns, names') ∧
      (c.operation = .update → columns.any fun column => column.roles.write || column.roles.read) ∧
      c = ⟨e.id, e.type, c.operation, columns⟩ := by
  unfold ofEntry
  cases hop : e.state.operation? with
  | none => simp
  | some op =>
    rw [Result.bind_eq_ok_iff]
    constructor
    · rintro ⟨⟨columns, names'⟩, hcolumns, h⟩
      dsimp only at h
      split at h
      · cases h
      · rename_i hneeded
        cases h
        rw [Bool.and_eq_true, decide_eq_true_eq, Bool.not_eq_true'] at hneeded
        refine ⟨columns, names', rfl, hcolumns, fun hupdate => ?_, rfl⟩
        exact Bool.of_not_eq_false fun hnothing => hneeded ⟨hupdate, hnothing⟩
    · rintro ⟨columns, names', hop', hcolumns, hneeded, hc⟩
      cases hop'
      refine ⟨(columns, names'), hcolumns, ?_⟩
      dsimp only
      rw [if_neg, hc]
      · rfl
      · rw [Bool.and_eq_true, decide_eq_true_eq, Bool.not_eq_true']
        rintro ⟨hupdate, hnothing⟩
        rw [hneeded hupdate] at hnothing
        cases hnothing

/-- A modified entry has an update if it has something to write or to read back. -/
theorem exists_update_of_part (hv : e.Valid) (hstate : e.state = .modified)
    (hp : p ∈ e.type.properties)
    (hpart : ((rolesAt e .update p).write || (rolesAt e .update p).read) = true)
    (names : ParameterNames) : ∃ c, ofEntry e names = .ok (some c) ∧ c.operation = .update := by
  obtain ⟨columns, names', hcolumns⟩ := exists_columnsOf_of_valid hv .update names
  have hany : (rolesAt e .update p).any = true := by
    rw [Roles.any, Bool.or_comm (rolesAt e .update p).read, hpart]
    rfl
  have hmem : p ∈ columns.map (·.property) := by
    rw [properties_columnsOf hcolumns]
    exact List.mem_filter.2 ⟨hp, hany⟩
  obtain ⟨column, hcolumn, rfl⟩ := List.mem_map.1 hmem
  have hroles : column.roles = rolesAt e .update column.property :=
    ((columnsOf_spec hcolumns).2 column hcolumn).roles
  refine ⟨⟨e.id, e.type, .update, columns⟩, ofEntry_eq_some_iff.2 ⟨columns, names', ?_, hcolumns,
    fun _ => List.any_eq_true.2 ⟨column, hcolumn, hroles ▸ hpart⟩, rfl⟩, rfl⟩
  rw [hstate]
  rfl

/-- What the command of an entry consists of. -/
structure CommandOf (e : Entry) (c : Command) : Prop where
  entry : c.entry = e.id
  entityType : c.entityType = e.type
  operation : e.state.operation? = some c.operation
  properties : (c.columns.map (·.property)).Sublist e.type.properties
  columns : ∀ column ∈ c.columns, ColumnOf e c.operation column

theorem ofEntry_eq_some (h : ofEntry e names = .ok (some c)) : CommandOf e c := by
  obtain ⟨columns, names', hop, hcolumns, -, hc⟩ := ofEntry_eq_some_iff.1 h
  obtain ⟨hsub, hspec⟩ := columnsOf_spec hcolumns
  have hmade : columns = c.columns := by rw [hc]
  exact {
    entry := by rw [hc]
    entityType := by rw [hc]
    operation := hop
    properties := hmade ▸ hsub
    columns := hmade ▸ hspec }

/-- The command has a column for each property with a part in it. -/
theorem properties_columns (h : ofEntry e names = .ok (some c)) :
    c.columns.map (·.property) =
      e.type.properties.filter fun p => (rolesAt e c.operation p).any := by
  obtain ⟨columns, names', -, hcolumns, -, hc⟩ := ofEntry_eq_some_iff.1 h
  rw [hc]
  exact properties_columnsOf hcolumns

/-- The columns with one part in the command are those of the properties with this part. -/
theorem properties_filter_columns (h : ofEntry e names = .ok (some c)) (part : Roles → Bool)
    (hpart : ∀ roles, part roles = true → roles.any = true) :
    (c.columns.filter fun column => part column.roles).map (·.property) =
      e.type.properties.filter fun p => part (rolesAt e c.operation p) := by
  have hroles : ∀ column ∈ c.columns,
      part column.roles = part (rolesAt e c.operation column.property) := fun column hcolumn =>
    congrArg part ((ofEntry_eq_some h).columns column hcolumn).roles
  have hany : ∀ p, (part (rolesAt e c.operation p) && (rolesAt e c.operation p).any) =
      part (rolesAt e c.operation p) := by
    intro p
    cases hp : part (rolesAt e c.operation p) with
    | false => rfl
    | true => exact hpart _ hp
  rw [List.filter_congr hroles]
  change (c.columns.filter ((fun p => part (rolesAt e c.operation p)) ∘ ColumnChange.property)).map
    ColumnChange.property = _
  rw [← List.filter_map, properties_columns h, List.filter_filter]
  simp only [hany]

variable {column : ColumnChange}

/-- Only what the store may generate is read back. -/
theorem CommandOf.generable_of_mem_reads (hc : CommandOf e c) (h : column ∈ c.reads) :
    column.property ∈ e.type.generable := by
  obtain ⟨hmem, hread⟩ := List.mem_filter.1 h
  have hp : column.property ∈ e.type.properties :=
    hc.properties.subset (List.mem_map_of_mem hmem)
  have hread : (rolesOf e.type c.operation column.property
      ((e.modified[column.property.index]?).getD false)).read = true :=
    (hc.columns column hmem).roles ▸ hread
  refine List.mem_filter.2 ⟨hp, ?_⟩
  cases hop : c.operation with
  | insert =>
    rw [hop] at hread
    exact hread
  | update =>
    rw [hop] at hread
    exact StoreGeneration.insert_of_update hread
  | delete =>
    rw [hop] at hread
    cases hread

theorem CommandOf.owns_of_mem_reads (hc : CommandOf e c) (h : column ∈ c.reads) :
    e.type.owns column.property = true :=
  Entry.owns_of_get (hc.columns column (List.mem_filter.1 h).1).value

theorem CommandOf.reads_sublist (hc : CommandOf e c) :
    (c.reads.map (·.property)).Sublist e.type.properties :=
  (List.filter_sublist.map ColumnChange.property).trans hc.properties

theorem CommandOf.nodup_index_reads (hc : CommandOf e c) (placed : e.type.Placed) :
    (c.reads.map (·.property.index)).Nodup := by
  have hsub := hc.reads_sublist.map Property.index
  rw [List.map_map] at hsub
  exact placed.nodup_index.sublist hsub

theorem readsBack_eq_false_iff : c.readsBack = false ↔ c.reads = [] := by
  simp [readsBack, reads]

end Command

end EntityMapper
