import EntityMapper.Proofs.Save.References
import Mathlib.Data.Finset.Card

/-!
# What a plan consists of

An entry is dirty (`Entry.Dirty`) if it is new, deleted, or modified with something to write or to
read back. Exactly the dirty entries make commands (`Command.exists_ofEntry_iff`), and a plan has one
command for each of them. It groups these by their operations, sorts deletes and inserts by the
numbers of principals of their entity types, and keeps the order of the entries wherever that leaves
a choice (`Plan.GroupsStably`). The main statement is `Plan.ofEntries_groups`.
-/

namespace EntityMapper

/-! ## Stability -/

/-- Sorting keeps the order of items of which each may come before each. -/
theorem filter_mergeSort {α : Type} {le : α → α → Bool}
    (trans : ∀ a b c, le a b → le b c → le a c) (total : ∀ a b, le a b || le b a)
    {keep : α → Bool} (hkeep : ∀ a b, keep a → keep b → le a b) (items : List α) :
    (items.mergeSort le).filter keep = items.filter keep := by
  have hsorted : (items.filter keep).Pairwise fun a b => le a b :=
    List.pairwise_of_forall_mem_list fun a ha b hb =>
      hkeep a b (List.mem_filter.1 ha).2 (List.mem_filter.1 hb).2
  have hsub := (List.sublist_mergeSort trans total hsorted List.filter_sublist).filter keep
  rw [List.filter_filter] at hsub
  simp only [Bool.and_self] at hsub
  exact (hsub.eq_of_length ((List.mergeSort_perm items le).filter keep).length_eq.symm).symm

/-! ## Principals -/

/-- The number of entity types, other than this one, that foreign keys refer to. -/
def EntityType.principalCount (t : EntityType) : Nat :=
  ((t.foreignKeys.map fun fk => fk.principal.owner).toFinset.erase t.id).card

theorem EntityType.length_principals (t : EntityType) : t.principals.length = t.principalCount := by
  have hmem : t.principals.toFinset =
      (t.foreignKeys.map fun fk => fk.principal.owner).toFinset.erase t.id := by
    ext id
    rw [List.mem_toFinset, Finset.mem_erase, List.mem_toFinset]
    refine ((foldl_insertId _ List.Pairwise.nil).2 id).trans ?_
    simp only [List.mem_filter, List.not_mem_nil, or_false, bne_iff_ne]
    exact and_comm
  rw [principalCount, ← hmem, List.toFinset_card_of_nodup t.nodup_principals]

/-! ## Dirty entries -/

namespace Entry

/-- An update of the entry has to do with a property: the store generates it on updates, or it is
modified and not in the key. -/
def UpdatesProperty (e : Entry) (p : Property) : Prop :=
  p.storeGeneration.update = true ∨ e.type.inKey p = false ∧ (e.modified[p.index]?).getD false = true

instance (e : Entry) (p : Property) : Decidable (e.UpdatesProperty p) :=
  inferInstanceAs (Decidable (_ ∨ _))

/-- An entry that is new, deleted, or modified with something to write or to read back. -/
def Dirty (e : Entry) : Prop :=
  e.state = .added ∨ e.state = .deleted ∨
    e.state = .modified ∧ ∃ p ∈ e.type.properties, e.UpdatesProperty p

instance (e : Entry) : Decidable e.Dirty :=
  inferInstanceAs (Decidable (_ ∨ _ ∨ _ ∧ _))

end Entry

namespace Command

variable {e : Entry} {op : Operation} {p : Property} {names names' : ParameterNames}
  {columns : List ColumnChange} {made : Option Command}

/-- A property is written or read back by an update as `Entry.UpdatesProperty` says. -/
theorem updatesProperty_iff :
    ((rolesAt e .update p).write || (rolesAt e .update p).read) = true ↔ e.UpdatesProperty p := by
  unfold rolesAt rolesOf Entry.UpdatesProperty
  cases p.storeGeneration.update <;> simp

/-- Some column has a part in a command if some property has. -/
theorem any_columnsOf {properties : List Property} (part : Roles → Bool)
    (hpart : ∀ roles, part roles = true → roles.any = true)
    (h : columnsOf e op properties names = .ok (columns, names')) :
    columns.any (fun column => part column.roles) = true ↔
      ∃ p ∈ properties, part (rolesAt e op p) = true := by
  have hroles : ∀ column ∈ columns, column.roles = rolesAt e op column.property :=
    fun column hcolumn => ((columnsOf_spec h).2 column hcolumn).roles
  have hproperties := properties_columnsOf h
  rw [List.any_eq_true]
  constructor
  · rintro ⟨column, hcolumn, htrue⟩
    refine ⟨column.property, ?_, hroles column hcolumn ▸ htrue⟩
    exact (columnsOf_spec h).1.subset (List.mem_map_of_mem hcolumn)
  · rintro ⟨p, hp, htrue⟩
    have hmem : p ∈ columns.map (·.property) :=
      hproperties ▸ List.mem_filter.2 ⟨hp, hpart _ htrue⟩
    obtain ⟨column, hcolumn, rfl⟩ := List.mem_map.1 hmem
    exact ⟨column, hcolumn, (hroles column hcolumn).symm ▸ htrue⟩

/-- **Dirty entries** are those that make a command. -/
theorem exists_ofEntry_iff (h : ofEntry e names = .ok made) : (∃ c, made = some c) ↔ e.Dirty := by
  unfold ofEntry at h
  cases hstate : e.state with
  | unknown | unchanged =>
    rw [hstate] at h
    cases h
    simp [Entry.Dirty, hstate]
  | added | deleted =>
    rw [hstate] at h
    obtain ⟨⟨columns, names'⟩, -, h⟩ := Result.bind_eq_ok_iff.1 h
    cases h
    simp [Entry.Dirty, hstate]
  | modified =>
    rw [hstate] at h
    obtain ⟨⟨columns, names'⟩, hcolumns, h⟩ := Result.bind_eq_ok_iff.1 h
    have hneeded := any_columnsOf (fun roles => roles.write || roles.read) (fun roles htrue => by
      rw [Roles.any, Bool.or_comm roles.read, htrue, Bool.true_or]) hcolumns
    simp only [updatesProperty_iff] at hneeded
    have hdirty : e.Dirty ↔ ∃ p ∈ e.type.properties, e.UpdatesProperty p := by
      simp [Entry.Dirty, hstate]
    rw [hdirty, ← hneeded]
    dsimp only at h
    split at h
    · next hnothing =>
      cases h
      refine iff_of_false (by simp) ?_
      simpa only [decide_true, Bool.true_and, Bool.not_eq_true', Bool.not_eq_true] using hnothing
    · next hneeds =>
      cases h
      refine iff_of_true ⟨_, rfl⟩ ?_
      simpa only [decide_true, Bool.true_and, Bool.not_eq_true', Bool.not_eq_false] using hneeds

end Command

/-! ## Plans -/

namespace Plan

variable {entries : List Entry} {commands : List Command} {plan : Plan}

theorem dependencies_eq (c : Command) : dependencies c = c.entityType.principalCount :=
  c.entityType.length_principals

/-- A plan groups some commands by their operations, and orders each group. -/
structure GroupsStably (plan : Plan) (commands : List Command) : Prop where
  perm : plan.commands.Perm commands
  groups : plan.commands = plan.deletes ++ plan.inserts ++ plan.updates
  deletes : ∀ c ∈ plan.deletes, c.operation = .delete
  inserts : ∀ c ∈ plan.inserts, c.operation = .insert
  updates : ∀ c ∈ plan.updates, c.operation = .update
  falling : plan.deletes.Pairwise fun a b =>
    b.entityType.principalCount ≤ a.entityType.principalCount
  rising : plan.inserts.Pairwise fun a b =>
    a.entityType.principalCount ≤ b.entityType.principalCount
  /-- Deletes with one number of principals keep their order. -/
  deletesInOrder : ∀ n, plan.deletes.filter (·.entityType.principalCount = n) =
    commands.filter fun c => c.operation = .delete ∧ c.entityType.principalCount = n
  /-- So do inserts. -/
  insertsInOrder : ∀ n, plan.inserts.filter (·.entityType.principalCount = n) =
    commands.filter fun c => c.operation = .insert ∧ c.entityType.principalCount = n
  updatesInOrder : plan.updates = commands.filter (·.operation = .update)

/-- Sorting by numbers of principals keeps the order of the commands with one such number. -/
theorem filter_mergeSort_dependencies (r : Nat → Nat → Prop) [DecidableRel r] [IsTrans Nat r]
    [Std.Total r] [Std.Refl r] (op : Operation) (n : Nat) (commands : List Command) :
    ((commands.filter (·.operation = op)).mergeSort fun a b =>
        decide (r (dependencies a) (dependencies b))).filter (·.entityType.principalCount = n) =
      commands.filter fun c => c.operation = op ∧ c.entityType.principalCount = n := by
  have hequal : ∀ a b : Command, decide (a.entityType.principalCount = n) →
      decide (b.entityType.principalCount = n) →
      decide (r (dependencies a) (dependencies b)) := by
    intro a b ha hb
    rw [dependencies_eq, dependencies_eq, of_decide_eq_true ha, of_decide_eq_true hb]
    exact decide_eq_true (refl_of r n)
  rw [filter_mergeSort (dependencies_trans r) (dependencies_total r) hequal, List.filter_filter]
  simp only [Bool.decide_and, Bool.and_comm]

/-- Commands are grouped in this way. -/
theorem ofCommands_groupsStably (commands : List Command) :
    (ofCommands commands).GroupsStably commands where
  perm := commands_perm commands
  groups := rfl
  deletes _ := operation_of_mem_deletes
  inserts _ := operation_of_mem_inserts
  updates _ := operation_of_mem_updates
  falling := by simpa only [dependencies_eq] using pairwise_deletes commands
  rising := by simpa only [dependencies_eq] using pairwise_inserts commands
  deletesInOrder n := filter_mergeSort_dependencies (· ≥ ·) .delete n commands
  insertsInOrder n := filter_mergeSort_dependencies (· ≤ ·) .insert n commands
  updatesInOrder := rfl

/-- The commands that save some entries are those of the dirty ones, in order. -/
theorem forall₂_commandsOf (h : commandsOf entries = .ok commands) :
    List.Forall₂ (fun e c => Command.ofEntry e {} = .ok (some c)) (entries.filter (·.Dirty))
      commands := by
  obtain ⟨made, hmade, rfl⟩ := commandsOf_eq_ok_iff.1 h
  clear h
  induction Result.mapM_eq_ok_iff.1 hmade with
  | nil => exact .nil
  | @cons e oc entries made hc hs ih =>
    have ih := ih (Result.mapM_eq_ok_iff.2 hs)
    have hdirty := Command.exists_ofEntry_iff hc
    cases oc with
    | none =>
      rw [List.filter_cons_of_neg (by simpa using hdirty)]
      exact ih
    | some c =>
      rw [List.filter_cons_of_pos (by simpa using hdirty)]
      exact .cons hc ih

/-- So the identities of the commands are those of the dirty entries. -/
theorem map_entry_commandsOf (h : commandsOf entries = .ok commands) :
    commands.map (·.entry) = (entries.filter (·.Dirty)).map (·.id) := by
  have hids : List.Forall₂ (· = ·) ((entries.filter (·.Dirty)).map (·.id)) (commands.map (·.entry)) :=
    List.forall₂_map_left_iff.2 <| List.forall₂_map_right_iff.2 <|
      (forall₂_commandsOf h).imp fun _ _ hc => (Command.ofEntry_eq_some hc).entry.symm
  rw [List.forall₂_eq_eq_eq] at hids
  exact hids.symm

/-- With an identity for each entry, each dirty entry has one command and no other entry has any. -/
theorem countP_commandsOf (h : commandsOf entries = .ok commands) (hnodup : (entries.map (·.id)).Nodup)
    {e : Entry} (he : e ∈ entries) :
    commands.countP (·.entry = e.id) = if e.Dirty then 1 else 0 := by
  have hids : ((entries.filter (·.Dirty)).map (·.id)).Nodup :=
    hnodup.sublist (List.filter_sublist.map _)
  have hmem : e.id ∈ (entries.filter (·.Dirty)).map (·.id) ↔ e.Dirty := by
    constructor
    · intro hmem
      obtain ⟨other, hother, hid⟩ := List.mem_map.1 hmem
      obtain ⟨hother, hdirty⟩ := List.mem_filter.1 hother
      obtain rfl := List.inj_on_of_nodup_map hnodup hother he hid
      exact of_decide_eq_true hdirty
    · exact fun hdirty => List.mem_map_of_mem (List.mem_filter.2 ⟨he, decide_eq_true hdirty⟩)
  have hcount : commands.countP (·.entry = e.id) = (commands.map (·.entry)).count e.id := by
    rw [List.count_eq_countP, List.countP_map]
    exact List.countP_congr fun c _ => by simp
  rw [hcount, map_entry_commandsOf h, hids.count]
  simp only [hmem]

/-- **Plans.** A plan for some entries has one command for each dirty entry, which does what the state
of the entry asks for, and none for the others. It runs deletes, inserts and updates in this order;
deletes by falling, inserts by rising numbers of principals, and otherwise in the order of the
entries. -/
theorem ofEntries_groups (h : ofEntries entries = .ok plan) :
    ∃ commands,
      List.Forall₂ (fun e c => Command.ofEntry e {} = .ok (some c) ∧ c.entry = e.id ∧
        c.entityType = e.type ∧ e.state.operation? = some c.operation)
        (entries.filter (·.Dirty)) commands ∧
      ((entries.map (·.id)).Nodup → ∀ e ∈ entries,
        plan.commands.countP (·.entry = e.id) = if e.Dirty then 1 else 0) ∧
      plan.GroupsStably commands := by
  obtain ⟨commands, hcommands, rfl⟩ := ofEntries_eq_ok_iff.1 h
  have hmade := forall₂_commandsOf hcommands
  refine ⟨commands, hmade.imp fun e c hc => ?_, fun hnodup e he => ?_,
    ofCommands_groupsStably commands⟩
  · have hof := Command.ofEntry_eq_some hc
    exact ⟨hc, hof.entry, hof.entityType, hof.operation⟩
  · rw [(commands_perm commands).countP_eq]
    exact countP_commandsOf hcommands hnodup he

end Plan

/-! ## An example -/

namespace Blogs

/-- A row with some number in each column. -/
def row (number : Nat) (t : EntityType) (state : EntityState) (modified : List Bool) : Entry where
  id := ⟨number⟩
  type := t
  native := none
  shadow := t.properties.map fun _ => .bigInt 1
  accessors := t.properties.map fun _ => none
  state
  modified
  sidecars := []
  snapshot := []

/-- Rows with pending changes of all sorts, and two without: of a blog whose key is flagged, and of a
post that is unchanged. -/
def rows : List Entry :=
  let blog := typeWith 0 "Blog" []
  let post := typeWith 1 "Post" [0]
  let comment := typeWith 2 "Comment" [1]
  [row 1 post .added [false, false], row 2 blog .added [false], row 3 blog .deleted [false],
    row 4 comment .deleted [false, false], row 5 post .deleted [false, false],
    row 6 post .modified [false, true], row 7 blog .modified [true],
    row 8 post .unchanged [false, false]]

end Blogs

namespace Plan

theorem ofEntries_groups_blogs :
    ∃ plan commands, ofEntries Blogs.rows = .ok plan ∧
      commands.length = 6 ∧ plan.GroupsStably commands ∧
      (Blogs.rows.map fun e => plan.commands.countP (·.entry = e.id)) = [1, 1, 1, 1, 1, 1, 0, 0] := by
  obtain ⟨plan, hplan⟩ : ∃ plan, ofEntries Blogs.rows = .ok plan := ⟨_, rfl⟩
  obtain ⟨commands, hmade, hcount, hgroups⟩ := ofEntries_groups hplan
  have hnodup : (Blogs.rows.map (·.id)).Nodup := by decide
  refine ⟨plan, commands, hplan, hmade.length_eq.symm, hgroups, ?_⟩
  rw [List.map_congr_left (hcount hnodup)]
  rfl

end Plan

end EntityMapper
