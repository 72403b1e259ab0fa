import EntityMapper.Proofs.Command.Meaning
import EntityMapper.Proofs.Tracking.Edits

/-!
# Commands of written entries

After any writes to an unchanged entry, outside its key, either nothing has changed and there is no
command, or an update makes of the old row one with the current values, but for those that the store
generates (`Command.get_of_update`). The update is guarded by the old row and not by the new values,
and so is a delete (`Command.update_carries_edits`).
-/

namespace EntityMapper

namespace Command

variable {e : Entry} {row : Row} {names : ParameterNames} {c : Command} {p : Property}

/-! ## Making the command -/

/-- A modified entry has an update, with something to write or to read back. -/
theorem exists_update (h : e.Edited row) (hstate : e.state = .modified) (names : ParameterNames) :
    ∃ c, ofEntry e names = .ok (some c) ∧ c.operation = .update := by
  obtain ⟨p, hp, hkey, hflag⟩ := h.modified hstate
  refine exists_update_of_part h.valid hstate hp ?_ names
  cases hgen : p.storeGeneration.update <;> simp [rolesAt, rolesOf, hkey, hflag, hgen]

/-- An entry that is deleted after writes has a delete. -/
theorem exists_delete (h : e.Edited row) (names : ParameterNames) :
    ∃ c, ofEntry { e with state := .deleted } names = .ok (some c) ∧ c.operation = .delete := by
  have hv : { e with state := .deleted }.Valid := h.valid.of_make rfl
  obtain ⟨columns, names', hcolumns⟩ := exists_columnsOf_of_valid hv .delete names
  exact ⟨⟨e.id, e.type, .delete, columns⟩,
    ofEntry_eq_some_iff.2 ⟨columns, names', rfl, hcolumns, nofun, rfl⟩, rfl⟩

/-! ## The row that is left -/

/-- The values of an entry without pending changes are those of the row. -/
theorem shows_of_unchanged (h : e.Edited row) (hstate : e.state = .unchanged) : e.Shows row :=
  fun p hp => (h.get hp).trans (h.unchanged hstate p hp)

/-- An update makes of the old row one with the current values, but for those that the store
generates. -/
theorem get_of_update (h : e.Edited row) (hmake : ofEntry e names = .ok (some c))
    (hop : c.operation = .update) (hp : p ∈ e.type.properties)
    (hgen : p.storeGeneration.update = false) : e.get p = .ok (c.applyTo row p.index) := by
  cases hwrite : (rolesAt e c.operation p).write with
  | true => exact get_of_write hmake h.valid.placed hp hwrite row
  | false =>
    have hlt : p.index < e.modified.length := h.flags ▸ h.valid.placed.index_lt hp
    have hkept : e.type.inKey p = true ∨ e.modified[p.index]? = some false := by
      simpa [hop, rolesAt, rolesOf, hgen, hlt, or_iff_not_imp_left] using hwrite
    rw [applyTo_of_not_write hmake h.valid.placed hp hwrite, h.get hp]
    exact h.kept p hp hkept

/-- **Updates carry the edits.** Let an entry be well formed, with native fields that do not see each
other's writes and no sidecars but those for baseline values, and let it be unchanged, with the values
of a row as its current and baseline values. Then after any writes outside its key there is no command
and all values are still those of the row, or there is an update that makes of the row one with the
current values, except where the store generates them, and that is guarded by the row. The delete that
saves the entry once it is deleted is guarded by the row, too. -/
theorem update_carries_edits {edits : List (Property × Value)} (hv : e.Valid) (apart : e.FieldsApart)
    (hbase : e.OnlyBaseline) (hflags : e.modified.length = e.type.properties.length)
    (hstate : e.state = .unchanged) (hshows : e.Shows row) (hbaseline : e.HasBaseline row)
    (hedits : ∀ edit ∈ edits, edit.1 ∈ e.type.properties ∧ e.type.inKey edit.1 = false)
    (session : Session) (names : ParameterNames) :
    let s := Action.setAll edits ⟨e, session⟩
    (ofEntry s.entry names = .ok none ∧ s.entry.Shows row ∨
      ∃ c, ofEntry s.entry names = .ok (some c) ∧ c.operation = .update ∧
        (∀ p ∈ e.type.properties, p.storeGeneration.update = false →
          s.entry.get p = .ok (c.applyTo row p.index)) ∧
        c.Guards e.type row) ∧
    ∃ s' c, (Action.setState .deleted).perform s = (.ok (), s') ∧
      ofEntry s'.entry names = .ok (some c) ∧ c.operation = .delete ∧ c.Guards e.type row := by
  intro s
  have hprimary : ∀ p ∈ e.type.properties, e.primaryValue p = .ok (row p.index) := fun p hp =>
    (hbase.get (hv.placed.owns_of_mem hp)).symm.trans (hshows p hp)
  have hstart : e.Edited row :=
    { valid := hv
      apart
      sidecars := hbase
      flags := hflags
      state := .inl hstate
      baseline := hbaseline
      kept := fun p hp _ => hprimary p hp
      unchanged := fun _ => hprimary
      modified := fun hmodified => by
        rw [hstate] at hmodified
        cases hmodified }
  have h : s.entry.Edited row := Action.edited_setAll hstart hedits
  have htype : s.entry.type = e.type :=
    congrArg Make.type (Action.make_setAll edits ⟨e, session⟩)
  constructor
  · rcases h.state with hunchanged | hmodified
    · refine .inl ⟨?_, shows_of_unchanged h hunchanged⟩
      rw [ofEntry, hunchanged]
      rfl
    · obtain ⟨c, hmake, hop⟩ := exists_update h hmodified names
      have hguards := guards_of_ofEntry hmake (by rw [hop]; nofun) h.baseline
      exact .inr ⟨c, hmake, hop, fun p hp hgen => get_of_update h hmake hop (htype ▸ hp) hgen,
        htype ▸ hguards⟩
  · obtain ⟨c, hmake, hop⟩ := exists_delete h names
    have hguards := guards_of_ofEntry (e := { s.entry with state := .deleted }) hmake
      (by rw [hop]; nofun) h.baseline
    exact ⟨_, c, Action.perform_setState_deleted h.state s.session, hmake, hop, htype ▸ hguards⟩

end Command

/-! ## An example -/

namespace Notes

/-- A session of notes. -/
def session : Session where
  model := ⟨[type]⟩
  registry := .empty
  generators := .ofOverrides [] fun _ _ => 0
  tracker := Tracker.empty.start ⟨1⟩ "Note" .unchanged
  made := 1

/-- A text and a version are written, and the text twice. -/
def edits : List (Property × Value) :=
  [(body, .text "Draft"), (version, .int 8), (body, .text "New")]

theorem placed : type.Placed where
  index := by
    intro i p h
    match i with
    | 0 | 1 | 2 =>
      cases h
      rfl
    | _ + 3 => cases h
  owner := by decide

theorem loaded_valid (v : Value) : (loaded v).Valid where
  placed := placed
  shadow := rfl
  native := by
    intro a ha
    exact absurd ha (by simp [loaded])

theorem loaded_fieldsApart (v : Value) : (loaded v).FieldsApart := by
  intro p _ q _ _ a b ha
  have hmem := Entry.mem_accessors_of_accessor? ha
  exact absurd hmem (by simp [loaded])

theorem loaded_shows (v : Value) : (loaded v).Shows (row v) := by
  intro p hp
  rcases List.mem_cons.1 hp with rfl | hp
  · rfl
  · rcases List.mem_pair.1 hp with rfl | rfl <;> rfl

theorem loaded_hasBaseline (v : Value) : (loaded v).HasBaseline (row v) := by
  intro p hp
  rcases List.mem_cons.1 hp with rfl | hp
  · rfl
  · rcases List.mem_pair.1 hp with rfl | rfl <;> rfl

end Notes

namespace Command

theorem update_carries_edits_notes :
    (Notes.loaded (.int 7)).Valid ∧ (Notes.loaded (.int 7)).FieldsApart ∧
    (Notes.loaded (.int 7)).OnlyBaseline ∧ (Notes.loaded (.int 7)).Shows (Notes.row (.int 7)) ∧
    (Notes.loaded (.int 7)).HasBaseline (Notes.row (.int 7)) ∧
    ∃ c, ofEntry (Action.setAll Notes.edits ⟨Notes.loaded (.int 7), Notes.session⟩).entry {} =
        .ok (some c) ∧
      c.Guards Notes.type (Notes.row (.int 7)) ∧
      c.applyTo (Notes.row (.int 7)) Notes.body.index = .text "New" ∧
      c.applyTo (Notes.row (.int 7)) Notes.version.index = .int 8 := by
  have hv := Notes.loaded_valid (.int 7)
  have apart := Notes.loaded_fieldsApart (.int 7)
  have hbase : (Notes.loaded (.int 7)).OnlyBaseline := fun t ht => by cases ht
  have hshows := Notes.loaded_shows (.int 7)
  have hbaseline := Notes.loaded_hasBaseline (.int 7)
  refine ⟨hv, apart, hbase, hshows, hbaseline, ?_⟩
  have hedits : ∀ edit ∈ Notes.edits, edit.1 ∈ Notes.type.properties ∧
      Notes.type.inKey edit.1 = false := by
    decide
  obtain ⟨⟨hnone, -⟩ | ⟨c, hmake, -, hget, hguards⟩, -⟩ :=
    update_carries_edits hv apart hbase rfl rfl hshows hbaseline hedits Notes.session {}
  · cases hnone
  · have hbody := hget Notes.body (by decide) rfl
    have hversion := hget Notes.version (by decide) rfl
    exact ⟨c, hmake, hguards, (Except.ok.inj hbody).symm, (Except.ok.inj hversion).symm⟩

end Command

end EntityMapper
