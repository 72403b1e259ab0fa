import EntityMapper.Proofs.Command.Assignments
import EntityMapper.Proofs.Sql.Syntax
import EntityMapper.Proofs.Tracking.Stability

/-!
# Reading back the written row

What an operation reads back comes from the row that it wrote: every condition on a key column that
is not generated holds of the row after an update (`Operation.holds_of_update`) and of the row that
was inserted (`Operation.holds_of_insert`). The columns of the select list are those that the entry
takes the returned values into, in the same order (`Command.generated?_of_receive`).
-/

namespace EntityMapper

open Stepwise

/-! ## The meaning of statements -/

/-- A row of a table, by the names of its columns. -/
abbrev TableRow := String → Value

namespace Equation

variable (arguments : String → Value) (q : Equation)

/-- The value of the parameter among the arguments of a statement. -/
def argument : Value :=
  (q.parameter.map arguments).getD .null

/-- Whether a row meets an equation, under some reading of equality. -/
def Holds (equals : Value → Value → Prop) (row : TableRow) : Prop :=
  equals (row q.property.columnName) (q.argument arguments)

end Equation

namespace Statement

variable (arguments : String → Value) (s : Statement)

/-- Whether a row is changed by a statement. -/
def Accepts (equals : Value → Value → Prop) (row : TableRow) : Prop :=
  ∀ q ∈ s.conditions, q.Holds arguments equals row

/-- The row with the values that a statement gives it. -/
def applyTo (row : TableRow) : TableRow :=
  s.settings.foldl
    (fun row q => Function.update row q.property.columnName (q.argument arguments)) row

end Statement

/-! ## The written row -/

namespace Operation

variable {columns : List ColumnChange} {c : ColumnChange} {op : Operation}
  {equals : Value → Value → Prop} {arguments : String → Value} {row : TableRow}

theorem settings_change (hop : op ≠ .delete) :
    (op.change columns).settings = (columns.filter (·.roles.write)).map (·.current) := by
  cases op with
  | insert | update => rfl
  | delete => exact absurd rfl hop

/-- A written column has its current value. -/
theorem applyTo_of_write (hnodup : (columns.map (·.name)).Nodup) (hop : op ≠ .delete)
    (hc : c ∈ columns) (hwrite : c.roles.write = true) :
    (op.change columns).applyTo arguments row c.name = c.current.argument arguments := by
  have hnames : ((columns.filter (·.roles.write)).map (·.current)).map
      (·.property.columnName) = (columns.filter (·.roles.write)).map (·.name) := List.map_map
  have hsettings : (((columns.filter (·.roles.write)).map (·.current)).map
      (·.property.columnName)).Nodup := by
    rw [hnames]
    exact hnodup.sublist (List.filter_sublist.map _)
  rw [Statement.applyTo, settings_change hop]
  exact foldl_update_of_mem hsettings (List.mem_map_of_mem (List.mem_filter.2 ⟨hc, hwrite⟩))

/-- Another column keeps its value. -/
theorem applyTo_of_not_write (hnodup : (columns.map (·.name)).Nodup) (hop : op ≠ .delete)
    (hc : c ∈ columns) (hwrite : c.roles.write = false) :
    (op.change columns).applyTo arguments row c.name = row c.name := by
  have hothers : ∀ q ∈ (columns.filter (·.roles.write)).map (·.current),
      q.property.columnName ≠ c.name := by
    refine List.forall_mem_map.2 fun other hother heq => ?_
    obtain ⟨hother, hwritten⟩ := List.mem_filter.1 hother
    rw [List.inj_on_of_nodup_map hnodup hother hc heq, hwrite] at hwritten
    cases hwritten
  rw [Statement.applyTo, settings_change hop]
  exact foldl_update_of_notMem hothers

/-- After an update, the row meets the conditions that it is read back by. -/
theorem holds_of_update (hnodup : (columns.map (·.name)).Nodup)
    (hkeys : ∀ c ∈ columns, c.roles.key = true → c.roles.write = false → c.roles.read = false →
      c.roles.condition = true)
    (hself : ∀ v, equals v v)
    (haccepts : (update.change columns).Accepts arguments equals row) :
    ∀ q ∈ (update.readBack columns).equations,
      q.Holds arguments equals ((update.change columns).applyTo arguments row) := by
  intro q hq
  obtain ⟨c, hc, hkey, hread, rfl⟩ := exists_of_mem_readBack hq
  unfold ColumnChange.settled
  split
  · next hwrite =>
    show equals ((update.change columns).applyTo arguments row c.name) _
    rw [applyTo_of_write hnodup (by decide) hc hwrite]
    exact hself _
  · next hwrite =>
    have hwrite : c.roles.write = false := Bool.eq_false_iff.2 hwrite
    show equals ((update.change columns).applyTo arguments row c.name) _
    rw [applyTo_of_not_write hnodup (by decide) hc hwrite]
    have hcondition := hkeys c hc hkey hwrite hread
    exact haccepts c.original (List.mem_map_of_mem (List.mem_filter.2 ⟨hc, hcondition⟩))

/-- The row that was inserted meets the conditions on the key columns that were written. -/
theorem holds_of_insert (hnodup : (columns.map (·.name)).Nodup) (hself : ∀ v, equals v v)
    (hc : c ∈ columns) (hwrite : c.roles.write = true) :
    c.settled.Holds arguments equals ((insert.change columns).applyTo arguments row) := by
  rw [ColumnChange.settled, if_pos hwrite]
  show equals ((insert.change columns).applyTo arguments row c.name) _
  rw [applyTo_of_write hnodup (by decide) hc hwrite]
  exact hself _

end Operation

/-! ## Taking the returned values -/

namespace Entry

variable {e e' : Entry} {p q : Property} {v : Value}

/-- The generated value that is held for a property. -/
def generated? (e : Entry) (p : Property) : Option Value :=
  (e.sidecar? Sidecar.generatedName).bind (·.get? p)

/-- A value that is taken is held for its property, and for no other one. -/
theorem generated?_setSidecarValue
    (h : e.setSidecarValue Sidecar.generatedName p v = .ok e') :
    (∃ w, p.coerce v = .ok w ∧ e'.generated? p = some w) ∧
      ∀ q : Property, q.index ≠ p.index → e'.generated? q = e.generated? q := by
  obtain ⟨⟨⟩, -, h⟩ := Result.bind_eq_ok_iff.1 h
  obtain ⟨w, hw, h⟩ := Result.bind_eq_ok_iff.1 h
  obtain ⟨s, hs, h⟩ := Result.bind_eq_ok_iff.1 h
  obtain ⟨s', hset, h⟩ := Result.bind_eq_ok_iff.1 h
  cases h
  have hname : s'.name = Sidecar.generatedName :=
    (name_of_set hset).trans (name_of_sidecar hs)
  have hfound : (e.attach s').sidecar? Sidecar.generatedName = some s' := hname ▸ sidecar?_attach
  have hbefore : e.sidecar? Sidecar.generatedName = some s := by
    unfold sidecar at hs
    split at hs
    · next hfind =>
      cases hs
      exact hfind
    · cases hs
  unfold generated?
  rw [hfound, hbefore]
  obtain ⟨hcovers, rfl⟩ := Sidecar.set_eq_ok_iff.1 hset
  refine ⟨⟨w, hw, ?_⟩, fun q hne => ?_⟩
  · exact (if_pos hcovers).trans Sidecar.lookup_put_self
  · show (if s.covers q then _ else none) = if s.covers q then _ else none
    rw [Sidecar.lookup_put_of_ne hne]

end Entry

namespace Command

variable {c : Command} {e : Entry} {names : ParameterNames} {s s' : Scope} {row : List Value}

/-- Values that are taken one after the other are held for their properties. -/
theorem generated?_of_takePairs {pairs : List (ColumnChange × Value)}
    (hnodup : (pairs.map (·.1.property.index)).Nodup)
    (h : perform (pairs.forM takePair) s = (.ok (), s')) :
    (∀ pair ∈ pairs, ∃ w, pair.1.property.coerce pair.2 = .ok w ∧
      s'.entry.generated? pair.1.property = some w) ∧
    ∀ q : Property, (∀ pair ∈ pairs, pair.1.property.index ≠ q.index) →
      s'.entry.generated? q = s.entry.generated? q := by
  induction pairs generalizing s with
  | nil =>
    cases h
    exact ⟨List.forall_mem_nil _, fun _ _ => rfl⟩
  | cons pair pairs ih =>
    obtain ⟨hnot, hnodup⟩ := List.nodup_cons.1 hnodup
    obtain ⟨⟨⟩, s₁, hpair, hrest⟩ := perform_bind_eq_ok_iff.1 (perform_forM_cons .. ▸ h)
    obtain ⟨htaken, hkept⟩ := ih hnodup hrest
    obtain ⟨e, hset, rfl⟩ := Action.perform_update_eq_ok_iff.1 hpair
    obtain ⟨⟨w, hw, hheld⟩, hothers⟩ := Entry.generated?_setSidecarValue hset
    have hapart : ∀ other ∈ pairs, other.1.property.index ≠ pair.1.property.index :=
      fun other hother heq => hnot (List.mem_map.2 ⟨other, hother, heq⟩)
    constructor
    · refine List.forall_mem_cons.2 ⟨⟨w, hw, ?_⟩, htaken⟩
      rw [hkept _ hapart, hheld]
    · intro q hq
      obtain ⟨hne, hq⟩ := List.forall_mem_cons.1 hq
      rw [hkept q hq, hothers q (Ne.symm hne)]

/-- A row that is taken has one value for each column that is read, in the order of the columns. -/
theorem generated?_of_receive (hnodup : (c.reads.map (·.property.index)).Nodup)
    (h : perform (c.receive row) s = (.ok (), s')) :
    c.reads.length = row.length ∧ ∀ pair ∈ c.reads.zip row, ∃ v,
      pair.1.property.coerce pair.2 = .ok v ∧ s'.entry.generated? pair.1.property = some v := by
  unfold receive at h
  split at h
  · cases h
  · next hlength =>
    have hlength : c.reads.length = row.length := not_not.1 hlength
    have hpairs : ((c.reads.zip row).map (·.1.property.index)).Nodup := by
      have hmap : (c.reads.zip row).map (·.1.property.index) =
          ((c.reads.zip row).map (·.1)).map (·.property.index) := by
        rw [List.map_map]
        rfl
      rw [hmap, List.map_fst_zip (Nat.le_of_eq hlength)]
      exact hnodup
    rw [perform_bind, Action.perform_modifyEntry] at h
    exact ⟨hlength, (generated?_of_takePairs hpairs h).1⟩

/-- What is read back of an operation of an entry: the columns that the store generates, in the order
in which their values are taken, or the number of rows where there are none. -/
theorem readBack_eq (h : ofEntry e names = .ok (some c)) :
    c.operation.readBack c.columns =
      if c.readsBack then .select (c.reads.map (·.property))
        (.affected 1 :: (c.columns.filter (·.roles.key)).map (·.writtenCondition))
      else .rowCount := by
  have hreads : c.operation.readColumns c.columns = c.reads := by
    cases hop : c.operation with
    | delete => exact ((ofEntry_eq_some h).reads_eq_nil_of_delete hop).symm
    | insert | update => rfl
  rw [Operation.readBack, hreads]
  cases hback : c.readsBack with
  | false =>
    rw [readsBack_eq_false_iff.1 hback]
    rfl
  | true =>
    have hne : c.reads ≠ [] := fun hnil => by
      rw [readsBack_eq_false_iff.2 hnil] at hback
      cases hback
    rw [if_neg (List.isEmpty_iff.not.2 hne), if_pos rfl]

theorem readsBack_of_delete (h : ofEntry e names = .ok (some c)) (hop : c.operation = .delete) :
    c.readsBack = false :=
  readsBack_eq_false_iff.2 ((ofEntry_eq_some h).reads_eq_nil_of_delete hop)

/-- **Reading back.** The text of an operation is that of a statement that changes a row and one that
reads back. In an entry's command the latter selects the columns that the store generates, in the
order in which the entry takes their values, or gives the number of rows where there are none. The
conditions of the select that are not on generated keys hold of the row that an update wrote; those
on written keys hold of the row that was inserted. -/
theorem readBack_finds_written :
    (∀ (e : Entry) (names : ParameterNames) (c : Command),
      ofEntry e names = .ok (some c) → e.type.Placed →
      (∀ d : Dialect, c.sql d = (Dialect.checkTable c.table).map fun _ =>
        d.header ++ ((c.operation.change c.columns).text d c.table ++
          (c.operation.readBack c.columns).text d c.table)) ∧
      c.operation.readBack c.columns =
        (if c.readsBack then .select (c.reads.map (·.property))
          (.affected 1 :: (c.columns.filter (·.roles.key)).map (·.writtenCondition))
        else .rowCount) ∧
      (c.operation = .delete → c.readsBack = false) ∧
      ∀ (s s' : Scope) (row : List Value), perform (c.receive row) s = (.ok (), s') →
        c.reads.length = row.length ∧ ∀ pair ∈ c.reads.zip row, ∃ v,
          pair.1.property.coerce pair.2 = .ok v ∧
            s'.entry.generated? pair.1.property = some v) ∧
    ∀ columns : List ColumnChange,
      (∀ (d : Dialect) (op : Operation) (t : QualifiedName), d.operationText op t columns =
        (Dialect.checkTable t).map fun _ =>
          (op.change columns).text d t ++ (op.readBack columns).text d t) ∧
      ((columns.map (·.name)).Nodup →
        (∀ c ∈ columns, c.roles.key = true → c.roles.write = false → c.roles.read = false →
          c.roles.condition = true) →
        ∀ equals : Value → Value → Prop, (∀ v, equals v v) →
        ∀ (arguments : String → Value) (row : TableRow),
          ((Operation.update.change columns).Accepts arguments equals row →
            ∀ q ∈ (Operation.update.readBack columns).equations,
              q.Holds arguments equals ((Operation.update.change columns).applyTo arguments row)) ∧
          ∀ c ∈ columns, c.roles.key = true → c.roles.write = true → c.roles.read = false →
            c.writtenCondition = .equation c.settled ∧
            c.settled.Holds arguments equals
              ((Operation.insert.change columns).applyTo arguments row)) := by
  constructor
  · intro e names c h placed
    refine ⟨fun d => ?_, readBack_eq h, readsBack_of_delete h, fun s s' row hreceive => ?_⟩
    · rw [sql, body, Dialect.operationText_eq]
      cases Dialect.checkTable c.table <;> rfl
    · exact generated?_of_receive ((ofEntry_eq_some h).nodup_index_reads placed) hreceive
  · intro columns
    refine ⟨fun d op t => d.operationText_eq t columns op,
      fun hnodup hkeys equals hself arguments row => ?_⟩
    refine ⟨Operation.holds_of_update hnodup hkeys hself, fun c hc _ hwrite hread => ⟨?_, ?_⟩⟩
    · rw [ColumnChange.writtenCondition, hread]
      rfl
    · exact Operation.holds_of_insert hnodup hself hc hwrite

end Command

/-! ## An example -/

namespace Stamps

theorem placed : type.Placed where
  index := by
    intro i p h
    match i with
    | 0 | 1 | 2 =>
      cases h
      rfl
    | _ + 3 => cases h
  owner := by decide

/-- An update that gives a note another key and reads its stamp back. -/
def rekeyed : List ColumnChange :=
  [⟨Notes.key, { key := true, write := true, condition := true }, .bigInt 2, .bigInt 1, some "@p0",
      some "@p1"⟩,
    ⟨stamp, { read := true }, .bigInt 5, .bigInt 5, none, none⟩]

/-- The keys that the parameters of the update stand for. -/
def keys (name : String) : Value :=
  if name = "@p0" then .bigInt 2 else .bigInt 1

end Stamps

namespace Command

theorem readBack_finds_written_stamps :
    ofEntry (Stamps.written Stamps.stamp (.bigInt 6)) {} = .ok (some Stamps.stamped) ∧
    Stamps.type.Placed ∧
    Stamps.stamped.operation.readBack Stamps.stamped.columns =
      .select [Stamps.stamp] [.affected 1, .equation ⟨Notes.key, some "@p0"⟩] ∧
    (perform (Stamps.stamped.receive [.bigInt 7]) ⟨Stamps.loaded, Notes.session⟩).2.entry.generated?
      Stamps.stamp = some (.bigInt 7) ∧
    (Stamps.rekeyed.map (·.name)).Nodup ∧
    (Operation.update.change Stamps.rekeyed).Accepts Stamps.keys (· = ·) (fun _ => .bigInt 1) ∧
    (Operation.update.change Stamps.rekeyed).applyTo Stamps.keys (fun _ => .bigInt 1) "Id" =
      .bigInt 2 ∧
    ∀ q ∈ (Operation.update.readBack Stamps.rekeyed).equations, q.Holds Stamps.keys (· = ·)
      ((Operation.update.change Stamps.rekeyed).applyTo Stamps.keys fun _ => .bigInt 1) := by
  have hcommand : ofEntry (Stamps.written Stamps.stamp (.bigInt 6)) {} =
      .ok (some Stamps.stamped) := rfl
  obtain ⟨-, hselect, -, hreceive⟩ := readBack_finds_written.1 _ _ _ hcommand Stamps.placed
  obtain ⟨-, htaken⟩ := hreceive ⟨Stamps.loaded, Notes.session⟩ _ [.bigInt 7] rfl
  obtain ⟨v, hv, hheld⟩ := htaken _ List.mem_cons_self
  cases hv
  have hnodup : (Stamps.rekeyed.map (·.name)).Nodup := by decide
  have haccepts : (Operation.update.change Stamps.rekeyed).Accepts Stamps.keys (· = ·)
      (fun _ => .bigInt 1) := by
    intro q hq
    obtain rfl := List.mem_singleton.1 hq
    rfl
  have hholds := ((readBack_finds_written.2 Stamps.rekeyed).2 hnodup (by decide) (· = ·)
    (fun _ => rfl) Stamps.keys fun _ => .bigInt 1).1 haccepts
  exact ⟨hcommand, Stamps.placed, hselect, hheld, hnodup, haccepts, rfl, hholds⟩

end Command

end EntityMapper
