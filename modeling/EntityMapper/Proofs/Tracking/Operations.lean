import EntityMapper.Proofs.Tracking.Lifecycle

/-!
# Operations on an entry

`EntryOperation` lists what can be done to an entry, each with its arguments, and
`EntryOperation.action` is the action that does it. Any operation goes by lawful steps of the
lifecycle (`EntryOperation.leads_run`), and only one that asks for the deleted state deletes
(`EntryOperation.keeps_sparing`).
-/

namespace EntityMapper

open Stepwise

/-- What can be done to an entry. -/
inductive EntryOperation
  | set (p : Property) (v : Value)
  | setNamed (name : String) (v : Value)
  | setModified (p : Property) (on : Bool)
  | setState (target : EntityState)
  | accept
  | detect
  | setBaselineValue (p : Property) (v : Value)
  | setSnapshotValue (p : Property) (v : Value)
  | attach (s : Sidecar)
  | detach (name : String)
  | setSidecarValue (name : String) (p : Property) (v : Value)
  /-- Puts a value into a sidecar as it is. -/
  | fillSidecar (name : String) (p : Property) (v : Value)
  | removeSidecarValue (name : String) (p : Property)
  | clearSidecar (name : String)
  | prepare
  | commit
  | rollBack
  /-- Takes a returned row. -/
  | receive (c : Command) (row : List Value)
  /-- Changes the native instance directly. -/
  | mutate (change : Fields → Fields)

namespace EntryOperation

/-- The entry with its native instance changed. -/
def mutated (e : Entry) (change : Fields → Fields) : Entry :=
  { e with native := e.native.map fun i => { i with fields := change i.fields } }

/-- What an operation does. -/
def action : EntryOperation → Action Unit
  | set p v => .set p v
  | setNamed name v => .setNamed name v
  | setModified p on => .setModified p on
  | setState target => .setState target
  | accept => .accept
  | detect => do let _ ← Action.detect
  | setBaselineValue p v => .update (·.setBaselineValue p v)
  | setSnapshotValue p v => .update (·.setSnapshotValue p v)
  | attach s => .update (·.attachOwned s)
  | detach name => .modifyEntry (·.detach name)
  | setSidecarValue name p v => .update (·.setSidecarValue name p v)
  | fillSidecar name p v => .update fun e => do return e.attach (← (← e.sidecar name).set p v)
  | removeSidecarValue name p => .update fun e => do return e.attach ((← e.sidecar name).remove p)
  | clearSidecar name => .update fun e => do return e.attach (← e.sidecar name).clear
  | prepare => .modifyEntry (·.prepare)
  | commit => .commit
  | rollBack => .modifyEntry (·.rollBack)
  | receive c row => c.receive row
  | mutate change => .modifyEntry (mutated · change)

/-- Performs an operation; a failure leaves what was done before it. -/
def run (op : EntryOperation) (s : Scope) : Scope :=
  (op.action.perform s).2

/-- Performs operations one after the other, and goes on after those that fail. -/
def runAll (ops : List EntryOperation) (s : Scope) : Scope :=
  ops.foldl (fun s op => op.run s) s

variable {s₀ s : Scope} {e e' : Entry} {p : Property} {v : Value}

theorem setBaselineValue_revalued (h : e.setBaselineValue p v = .ok e') : e.Revalued e' := by
  obtain ⟨-, -, h⟩ := Result.bind_eq_ok_iff.1 h
  obtain ⟨w, -, h⟩ := Result.bind_eq_ok_iff.1 h
  obtain ⟨s, -, h⟩ := Result.bind_eq_ok_iff.1 h
  cases h
  exact e.revalued_sidecars _

theorem setSnapshotValue_revalued (h : e.setSnapshotValue p v = .ok e') : e.Revalued e' := by
  obtain ⟨-, -, h⟩ := Result.bind_eq_ok_iff.1 h
  obtain ⟨w, -, h⟩ := Result.bind_eq_ok_iff.1 h
  cases h
  exact e.recordSnapshot_revalued p w

theorem attachOwned_revalued {s : Sidecar} (h : e.attachOwned s = .ok e') : e.Revalued e' := by
  obtain ⟨-, -, h⟩ := Result.bind_eq_ok_iff.1 h
  cases h
  exact e.revalued_sidecars _

theorem mutated_revalued (e : Entry) (change : Fields → Fields) : e.Revalued (mutated e change) := by
  refine ⟨?_, rfl, rfl⟩
  cases h : e.native <;> simp [Entry.make, mutated, h]

/-- Whatever does not ask for the deleted state deletes nothing. -/
theorem keeps_sparing {op : EntryOperation} (h : op ≠ .setState .deleted) :
    Keeps (Scope.Leads .sparing s₀) op.action := by
  cases op with
  | set p v => exact Action.set_keeps p v
  | setNamed name v => exact Action.setNamed_keeps name v
  | setModified p on => exact Action.setModified_keeps p on
  | setState target =>
    exact Action.setState_keeps (Action.sparing_entered fun heq => h (congrArg setState heq))
  | accept => exact Action.accept_keeps
  | detect => exact Action.detect_keeps.bind fun _ => keeps_pure _
  | setBaselineValue p v => exact Action.keeps_update fun _ _ => setBaselineValue_revalued
  | setSnapshotValue p v => exact Action.keeps_update fun _ _ => setSnapshotValue_revalued
  | attach s => exact Action.keeps_update fun _ _ => attachOwned_revalued
  | setSidecarValue name p v => exact Action.keeps_update fun _ _ => Entry.setSidecarValue_revalued
  | fillSidecar name p v =>
    refine Action.keeps_update fun e e' h => ?_
    obtain ⟨s, -, h⟩ := Result.bind_eq_ok_iff.1 h
    obtain ⟨s', -, h⟩ := Result.bind_eq_ok_iff.1 h
    cases h
    exact e.revalued_sidecars _
  | removeSidecarValue name p | clearSidecar name =>
    refine Action.keeps_update fun e e' h => ?_
    obtain ⟨s, -, h⟩ := Result.bind_eq_ok_iff.1 h
    cases h
    exact e.revalued_sidecars _
  | detach name | prepare | rollBack => exact Action.keeps_modifyEntry fun e => e.revalued_sidecars _
  | commit => exact Action.commit_keeps
  | receive c row => exact Action.receive_keeps c row
  | mutate change => exact Action.keeps_modifyEntry fun e => mutated_revalued e change

/-- Any operation goes by lawful steps. -/
theorem leads_run (op : EntryOperation) (s : Scope) : s.Leads .lawful (op.run s) := by
  by_cases h : op = .setState .deleted
  · subst h
    exact Action.setState_keeps (fun old => Action.entered_ne_deleted) s (.refl s)
  · exact (keeps_sparing h s (.refl s)).mono fun old new hnew _ => hnew

/-- An added entry is not deleted by one operation, whatever that is. -/
theorem state_run_of_added (op : EntryOperation) (h : s.entry.state = .added) :
    (op.run s).entry.state ≠ .deleted := by
  by_cases hop : op = .setState .deleted
  · subst hop
    have hrun : (setState .deleted).run s = s.moveTo .unknown :=
      congrArg Prod.snd (Action.perform_setState_deleted_of_added h)
    rw [hrun]
    nofun
  · refine (keeps_sparing hop s (.refl s)).ne_deleted ?_
    rw [h]
    nofun

end EntryOperation

end EntityMapper
