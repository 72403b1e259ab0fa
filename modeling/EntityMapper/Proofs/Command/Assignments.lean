import EntityMapper.Proofs.Command.Edits

/-!
# What updates assign

The text of an update has its assignments between `SET` and the conditions. A modified entry has an
update also where there is only something to read back, and then there are no assignments and the
text is not a statement of any store.

`Command.update_assigns_iff` is the exact condition: an update assigns something if and only if some
flagged property is neither in the key nor generated on updates (`Entry.Assigns`). This is always so
for entity types without properties that are generated on updates, and for no others
(`Command.exists_update_without_assignments`).
-/

namespace EntityMapper

open Stepwise

/-! ## Texts -/

theorem joined_ne_empty {separator : String} {texts : List String} (h : ∀ t ∈ texts, t ≠ "")
    (hne : texts ≠ []) : joined separator texts ≠ "" := by
  match texts with
  | [] => exact absurd rfl hne
  | [t] => exact h t List.mem_cons_self
  | t :: u :: rest =>
    have ht : t ≠ "" := h t List.mem_cons_self
    simp [String.append_eq_empty_iff, ht]

theorem Equation.text_ne_empty (q : Equation) (d : Dialect) : q.text d ≠ "" := by
  simp [Equation.text, String.append_eq_empty_iff]

/-- An update of the entry assigns a property. -/
def Entry.Assigns (e : Entry) (p : Property) : Prop :=
  e.modified[p.index]? = some true ∧ e.type.inKey p = false ∧ p.storeGeneration.update = false

instance (e : Entry) (p : Property) : Decidable (e.Assigns p) :=
  inferInstanceAs (Decidable (_ ∧ _ ∧ _))

namespace Command

variable {e : Entry} {names : ParameterNames} {c : Command} {p : Property} {session : Session}

/-- The assignments of an update, as text. -/
def assignments (c : Command) (d : Dialect) : String :=
  joined ", " (c.settings.map (·.text d))

theorem assignments_ne_empty_iff (c : Command) (d : Dialect) :
    c.assignments d ≠ "" ↔ c.settings ≠ [] := by
  constructor
  · intro h hnil
    rw [assignments, hnil] at h
    exact h rfl
  · intro h
    refine joined_ne_empty (fun t ht => ?_) (List.map_eq_nil_iff.not.2 h)
    obtain ⟨q, -, rfl⟩ := List.mem_map.1 ht
    exact q.text_ne_empty d

theorem settings_ne_nil_iff (c : Command) :
    c.settings ≠ [] ↔ ∃ column ∈ c.columns, column.roles.write = true := by
  rw [settings, Ne, List.map_eq_nil_iff, List.filter_eq_nil_iff]
  push Not
  rfl

/-! ## Updates -/

theorem write_rolesAt_update : (rolesAt e .update p).write = true ↔ e.Assigns p := by
  cases hgen : p.storeGeneration.update <;> cases hkey : e.type.inKey p <;>
    cases hflag : e.modified[p.index]? <;>
    simp [rolesAt, rolesOf, Entry.Assigns, hgen, hkey, hflag]

/-- The columns that are written are those of the assigned properties. -/
theorem settings_ne_nil_iff_assigns (h : ofEntry e names = .ok (some c))
    (hop : c.operation = .update) :
    c.settings ≠ [] ↔ ∃ p ∈ e.type.properties, e.Assigns p := by
  have hproperties := properties_settings h
  rw [hop] at hproperties
  constructor
  · intro hne
    obtain ⟨q, hq⟩ := List.exists_mem_of_ne_nil _ hne
    have hwritten : q.property ∈ c.settings.map (·.property) := List.mem_map_of_mem hq
    rw [hproperties] at hwritten
    obtain ⟨hp, hwrite⟩ := List.mem_filter.1 hwritten
    exact ⟨_, hp, write_rolesAt_update.1 hwrite⟩
  · rintro ⟨p, hp, hassigns⟩ hnil
    have hwritten : p ∈ c.settings.map (·.property) := by
      rw [hproperties]
      exact List.mem_filter.2 ⟨hp, write_rolesAt_update.2 hassigns⟩
    rw [hnil] at hwritten
    cases hwritten

/-- An update without assignments reads something back. -/
theorem assigns_or_reads (h : ofEntry e names = .ok (some c)) (hop : c.operation = .update) :
    (∃ p ∈ e.type.properties, e.Assigns p) ∨
      ∃ p ∈ e.type.properties, p.storeGeneration.update = true := by
  obtain ⟨columns, names', -, -, hneeded, hc⟩ := ofEntry_eq_some_iff.1 h
  obtain ⟨column, hcolumn, hpart⟩ := List.any_eq_true.1 (hneeded hop)
  have hcolumn : column ∈ c.columns := by rwa [hc]
  have hspec := ofEntry_eq_some h
  have hp := hspec.properties.subset (List.mem_map_of_mem hcolumn)
  have hroles : column.roles = rolesAt e .update column.property :=
    hop ▸ (hspec.columns column hcolumn).roles
  rw [hroles] at hpart
  rcases Bool.or_eq_true_iff.1 hpart with hwrite | hread
  · exact .inl ⟨_, hp, write_rolesAt_update.1 hwrite⟩
  · exact .inr ⟨_, hp, hread⟩

/-- **What updates assign.** The text of an entry's update has its assignments between `SET` and the
conditions. There is a column to write, and the assignments are not empty, exactly where the entry
has a flagged property that is neither in the key nor generated on updates. It has one where the
entity type has no property that is generated on updates. -/
theorem update_assigns_iff (h : ofEntry e names = .ok (some c)) (hop : c.operation = .update) :
    (∀ d, c.sql d = (Dialect.checkTable c.table).map fun _ =>
      d.header ++ d.statement ("UPDATE " ++ d.delimitTable c.table ++ " SET " ++ c.assignments d ++
        Equation.whereText d c.conditions) ++ d.readBackStatement c.table c.columns) ∧
    ((∃ column ∈ c.columns, column.roles.write = true) ↔ ∃ p ∈ e.type.properties, e.Assigns p) ∧
    (∀ d, c.assignments d ≠ "" ↔ ∃ p ∈ e.type.properties, e.Assigns p) ∧
    ((∀ p ∈ e.type.properties, p.storeGeneration.update = false) →
      ∃ p ∈ e.type.properties, e.Assigns p) := by
  have hiff := settings_ne_nil_iff_assigns h hop
  refine ⟨fun d => ?_, c.settings_ne_nil_iff.symm.trans hiff,
    fun d => (c.assignments_ne_empty_iff d).trans hiff, fun hnever => ?_⟩
  · have hne : c.operation ≠ .delete := by
      rw [hop]
      nofun
    rw [(ofEntry_eq_some h).sql_eq_guardedText (by rw [hop]; nofun), guardedText, changeText,
      if_neg hne]
    rfl
  · refine (assigns_or_reads h hop).resolve_right ?_
    rintro ⟨p, hp, hgen⟩
    rw [hnever p hp] at hgen
    cases hgen

/-! ## Updates without assignments -/

/-- Flagging nothing but a property that is generated on updates makes an update that assigns
nothing. -/
theorem exists_update_without_assignments (hv : e.Valid) (hstate : e.state = .unchanged)
    (hflags : ∀ flag ∈ e.modified, flag = false) (hp : p ∈ e.type.properties)
    (hgen : p.storeGeneration.update = true) (session : Session) (names : ParameterNames) :
    ∃ c, ofEntry (perform (Action.setModified p true) ⟨e, session⟩).2.entry names =
        .ok (some c) ∧ c.operation = .update ∧ ∀ d, c.assignments d = "" := by
  have howns := hv.placed.owns_of_mem hp
  rw [Action.perform_setModified_true howns (.inl hstate)]
  have hv' : { e with modified := e.modified.set p.index true, state := .modified }.Valid :=
    hv.of_make rfl
  obtain ⟨c, hc, hop⟩ := exists_update_of_part hv' rfl hp
    (by simp [rolesAt, rolesOf, hgen]) names
  refine ⟨c, hc, hop, fun d => ?_⟩
  have hnone : ¬∃ q ∈ e.type.properties,
      { e with modified := e.modified.set p.index true, state := .modified }.Assigns q := by
    rintro ⟨q, hq, hflag, -, hnever⟩
    by_cases hindex : p.index = q.index
    · rw [hv.placed.eq_of_index hp hq hindex, hnever] at hgen
      cases hgen
    · rw [List.getElem?_set_ne hindex] at hflag
      cases hflags true (List.mem_of_getElem? hflag)
  by_contra hne
  exact hnone ((settings_ne_nil_iff_assigns hc hop).1 ((c.assignments_ne_empty_iff d).1 hne))

end Command

/-! ## An example -/

namespace Stamps

/-- The stamp that the store gives a note with every change. -/
def stamp : Property :=
  { Notes.key with name := "Stamp", index := 2, storeGeneration := .onInsertAndUpdate }

/-- Notes, which the store stamps. -/
def type : EntityType :=
  { Notes.type with properties := [Notes.key, Notes.body, stamp] }

/-- A note as it was read, with its stamp. -/
def loaded : Entry :=
  { Notes.loaded (.bigInt 5) with type }

/-- The note once one of its properties was set. -/
def written (p : Property) (v : Value) : Entry :=
  (perform (Action.set p v) ⟨loaded, Notes.session⟩).2.entry

/-- The command for a new stamp. -/
def stamped : Command where
  entry := ⟨1⟩
  entityType := type
  operation := .update
  columns :=
    [⟨Notes.key, { key := true, condition := true }, .bigInt 1, .bigInt 1, none, some "@p0"⟩,
      ⟨stamp, { read := true }, .bigInt 6, .bigInt 5, none, none⟩]

example : stamped.sql .sqlite = .ok ("UPDATE \"Note\" SET \nWHERE \"Id\" = @p0;\n" ++
    "SELECT \"Stamp\"\nFROM \"Note\"\nWHERE changes() = 1 AND \"Id\" = @p0;\n") := by
  decide

end Stamps

namespace Command

theorem update_assigns_iff_stamps :
    ofEntry (Stamps.written Stamps.stamp (.bigInt 6)) {} = .ok (some Stamps.stamped) ∧
    (¬∃ column ∈ Stamps.stamped.columns, column.roles.write = true) ∧
    Stamps.stamped.assignments .sqlite = "" ∧
    ∃ c, ofEntry (Stamps.written Notes.body (.text "New")) {} = .ok (some c) ∧
      c.assignments .sqlite ≠ "" := by
  have hstamped : ofEntry (Stamps.written Stamps.stamp (.bigInt 6)) {} =
      .ok (some Stamps.stamped) := rfl
  have hnone : ¬∃ p ∈ (Stamps.written Stamps.stamp (.bigInt 6)).type.properties,
      (Stamps.written Stamps.stamp (.bigInt 6)).Assigns p := by
    decide
  obtain ⟨-, hcolumns, htext, -⟩ := update_assigns_iff hstamped rfl
  have hempty : Stamps.stamped.assignments .sqlite = "" :=
    not_not.1 fun hne => hnone ((htext .sqlite).1 hne)
  have hwritten : ∃ c, ofEntry (Stamps.written Notes.body (.text "New")) {} = .ok (some c) ∧
      c.operation = .update := ⟨_, rfl, rfl⟩
  obtain ⟨c, hc, hop⟩ := hwritten
  obtain ⟨-, -, hbody, -⟩ := update_assigns_iff hc hop
  exact ⟨hstamped, fun hwrite => hnone (hcolumns.1 hwrite), hempty, c, hc,
    (hbody .sqlite).2 (by decide)⟩

end Command

end EntityMapper
