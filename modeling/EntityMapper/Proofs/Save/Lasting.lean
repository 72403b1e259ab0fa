import EntityMapper.Proofs.Save.Planning
import EntityMapper.Proofs.Save.Scope
import EntityMapper.Proofs.Tracking.Lifecycle

/-!
# What a save keeps

A save works on entries by their identities. It keeps whatever its steps keep
(`Saving.keeps_save`), whether it succeeds or fails and whatever the store answers:

* what it does to an entry goes by steps of its lifecycle that delete nothing, so it keeps what such
  steps keep, and giving entries other values does (`Lasting`, `Saving.lasts_save`);
* a property of one entry is kept if preparing, receiving rows, settling and dropping generated values
  keep it in this entry (`Saving.entryHolds_save`).
-/

namespace EntityMapper

open Stepwise

/-- The entries of some identities. -/
abbrev Roster := EntryId → Option Entry

namespace Roster

variable {entries : List Entry} {e e' : Entry} {id : EntryId}

/-- The entries of a list. -/
def ofEntries (entries : List Entry) : Roster :=
  fun id => entries.find? (·.id == id)

theorem id_of_ofEntries (h : ofEntries entries id = some e) : e.id = id := by
  simpa using List.find?_some h

theorem ofEntries_of_mem (hnodup : (entries.map (·.id)).Nodup) (he : e ∈ entries) :
    ofEntries entries e.id = some e :=
  find?_key_of_mem hnodup he

/-- An entry in the place of one of its identity. -/
theorem ofEntries_putEntry (h : ofEntries entries id = some e) (hid : e'.id = id) :
    ofEntries (Saving.putEntry e' entries) = Function.update (ofEntries entries) id (some e') := by
  subst hid
  funext other
  unfold ofEntries at h ⊢
  rw [SaveScope.find?_putEntry e' other (by rw [h]; rfl), Function.update_apply]

end Roster

/-- A property of the entries of a session that lasts while entries get other values, and while one
of them goes by steps of its lifecycle. -/
structure Lasting (moves : Scope.Moves) (I : Roster → Session → Prop) : Prop where
  leads : ∀ {roster : Roster} {session : Session} {e : Entry} {s : Scope}, I roster session →
    roster e.id = some e → (⟨e, session⟩ : Scope).Leads moves s →
    I (Function.update roster e.id (some s.entry)) s.session
  values : ∀ {roster : Roster} {session : Session} {f : EntryId → Entry → Entry},
    I roster session → (∀ id (e : Entry), e.Revalued (f id e)) →
    I (fun id => (roster id).map (f id)) session

theorem Lasting.and {moves : Scope.Moves} {I J : Roster → Session → Prop} (hI : Lasting moves I)
    (hJ : Lasting moves J) : Lasting moves fun roster session =>
      I roster session ∧ J roster session :=
  ⟨fun h he hs => ⟨hI.leads h.1 he hs, hJ.leads h.2 he hs⟩,
    fun h hf => ⟨hI.values h.1 hf, hJ.values h.2 hf⟩⟩

/-- The number of entries made lasts. -/
theorem lasting_made (moves : Scope.Moves) (n : Nat) :
    Lasting moves fun _ session => session.made = n :=
  ⟨fun h _ hs => hs.made.trans h, fun h _ => h⟩

/-- That an entry is not deleted lasts while nothing is deleted. -/
theorem lasting_ne_deleted (id : EntryId) :
    Lasting .sparing fun roster _ => ∃ e, roster id = some e ∧ e.state ≠ .deleted where
  leads := by
    intro roster session e s ⟨e₁, h₁, hstate⟩ he hs
    by_cases hid : id = e.id
    · subst hid
      rw [he] at h₁
      cases h₁
      exact ⟨s.entry, Function.update_self .., hs.ne_deleted hstate⟩
    · exact ⟨e₁, (Function.update_of_ne hid ..).trans h₁, hstate⟩
  values := by
    intro roster session f ⟨e, he, hstate⟩ hf
    refine ⟨f id e, congrArg (Option.map (f id)) he, ?_⟩
    rw [(hf id e).state]
    exact hstate

namespace Saving

variable {I : Roster → Session → Prop} {J : SaveScope → Prop} {action : Action Unit} {α : Type}
  {commands : List Command}

/-! ## What a save is made of -/

/-- An invariant that the steps of a save for some commands keep, whatever the store answers, and
dropping generated values does. -/
structure KeptFor (commands : List Command) (J : SaveScope → Prop) : Prop where
  send : ∀ {s : SaveScope} (sent : List SentCommand), J s → J { s with sent }
  prepare : ∀ c ∈ commands, Keeps J (prepare c)
  receive : ∀ c ∈ commands, ∀ row, Keeps J (onEntry c.entry (c.receive row))
  settle : ∀ c ∈ commands, Keeps J (settle c)
  rollBack : ∀ {s : SaveScope}, J s → J (rollBack s)

theorem keeps_check (text : String) (answer : Except UpdateError α) :
    Keeps J (check text answer) := by
  cases answer with
  | ok a => exact keeps_pure a
  | error cause => exact keeps_throw _

theorem KeptFor.runCommand (h : KeptFor commands J) (d : Dialect) (executor : Executor)
    {c : Command} (hc : c ∈ commands) : Keeps J (runCommand d executor c) := by
  have hlift : Keeps J (runCommand.liftExcept (c.sql d)) := by
    cases c.sql d with
    | ok text => exact keeps_pure text
    | error err => exact keeps_throw err
  have hsend : ∀ message, Keeps J (Saving.send executor message) := fun _ _ hs => h.send _ hs
  refine hlift.bind fun text => (hsend _).bind fun answer => Keeps.ite ?_ (keeps_check _ _)
  exact (keeps_check _ _).bind fun row => h.receive c hc row

theorem KeptFor.runPlan {plan : Plan} (h : KeptFor plan.commands J) (d : Dialect)
    (executor : Executor) : Keeps J (runPlan d executor plan) := by
  have hexecute : Keeps J (execute d executor plan.commands) :=
    (Keeps.forM h.prepare).bind fun _ => Keeps.forM fun c hc => h.runCommand d executor hc
  exact hexecute.bind fun _ => (Keeps.forM h.settle).bind fun _ => keeps_pure _

/-- A save keeps what its steps keep, on success and on failure. -/
theorem keeps_save {s : SaveScope} (h : ∀ plan, Plan.ofEntries s.entries = .ok plan →
      KeptFor plan.commands J) (d : Dialect) (executor : Executor) (hs : J s) :
    J (save d executor s).2 := by
  unfold save
  split
  · exact hs
  · rename_i plan hplan
    split
    · exact hs
    · have hrun := (h plan hplan).runPlan d executor s hs
      unfold perform at hrun
      rcases hanswer : (Saving.runPlan d executor plan).run.run s with ⟨err | counts, s₁⟩
      · rw [hanswer] at hrun
        exact (h plan hplan).rollBack hrun
      · rw [hanswer] at hrun
        exact hrun

/-! ## Properties of all entries -/

/-- A property of the entries of a save. -/
def Holds (I : Roster → Session → Prop) (s : SaveScope) : Prop :=
  I s.entryOf s.session

theorem keeps_onEntry (hI : Lasting .sparing I)
    (h : ∀ s₀, Keeps (Scope.Leads .sparing s₀) action) (id : EntryId) :
    Keeps (Holds I) (onEntry id action) := by
  intro s hs
  cases hentry : s.entryOf id with
  | none =>
    rw [perform_onEntry_none hentry]
    exact hs
  | some e =>
    have hid : e.id = id := SaveScope.id_of_entryOf hentry
    have hleads := h ⟨e, s.session⟩ ⟨e, s.session⟩ (.refl _)
    rw [perform_onEntry hentry]
    generalize (perform action ⟨e, s.session⟩).2 = scope at hleads
    subst hid
    have hroster : (s.replace scope).entryOf = Function.update s.entryOf e.id (some scope.entry) :=
      Roster.ofEntries_putEntry hentry hleads.id
    unfold Holds
    rw [hroster]
    exact hI.leads hs hentry hleads

theorem prepare_keeps {moves : Scope.Moves} {s₀ : Scope} :
    Keeps (Scope.Leads moves s₀) (Action.modifyEntry (·.prepare)) :=
  Action.keeps_modifyEntry fun e => e.revalued_sidecars _

theorem keptFor_of_lasting (hI : Lasting .sparing I) (commands : List Command) :
    KeptFor commands (Holds I) where
  send _ hs := hs
  prepare c _ := keeps_onEntry hI (fun _ => prepare_keeps) c.entry
  receive c _ row := keeps_onEntry hI (fun _ => Action.receive_keeps c row) c.entry
  settle c _ := keeps_onEntry hI (fun _ => Action.settle_keeps) c.entry
  rollBack := by
    intro s hs
    have hroster : (rollBack s).entryOf = fun id => (s.entryOf id).map (·.rollBack) :=
      funext (SaveScope.entryOf_rollBack s)
    unfold Holds
    rw [hroster]
    exact hI.values hs fun _ e => e.revalued_sidecars _

/-- **What lasts.** A save keeps what steps that delete nothing keep, on success and on failure. -/
theorem lasts_save (hI : Lasting .sparing I) (d : Dialect) (executor : Executor) {s : SaveScope}
    (hs : I s.entryOf s.session) :
    I (save d executor s).2.entryOf (save d executor s).2.session :=
  keeps_save (fun plan _ => keptFor_of_lasting hI plan.commands) d executor hs

/-! ## Properties of one entry -/

/-- A property of the entry of an identity, if that is among the entries of a save. -/
def EntryHolds (id : EntryId) (I : Entry → Prop) (s : SaveScope) : Prop :=
  ∀ e, s.entryOf id = some e → I e

section

variable {id : EntryId} {I : Entry → Prop}

/-- An action on one entry is no matter to the others. -/
theorem keeps_onEntry_of {other : EntryId} (hmake : Action.Fixes Entry.make action)
    (h : other = id → Keeps (fun s => I s.entry) action) :
    Keeps (EntryHolds id I) (onEntry other action) := by
  intro s hs
  cases hentry : s.entryOf other with
  | none =>
    rw [perform_onEntry_none hentry]
    exact hs
  | some e =>
    have hid : e.id = other := SaveScope.id_of_entryOf hentry
    rw [perform_onEntry hentry]
    have hid' : (perform action ⟨e, s.session⟩).2.entry.id = other :=
      (congrArg Make.id (hmake ⟨e, s.session⟩)).trans hid
    intro e' he'
    rw [SaveScope.entryOf_replace (hid' ▸ hentry), hid'] at he'
    split at he'
    · rename_i heq
      cases he'
      subst heq
      exact h rfl ⟨e, s.session⟩ (hs e hentry)
    · exact hs e' he'

/-- **A save keeps a property of an entry** that its steps keep in the entry: preparing it, receiving
rows for a command of it, settling it, and dropping generated values. -/
theorem entryHolds_save {s : SaveScope} (hprepare : ∀ e, I e → I e.prepare)
    (hreceive : ∀ e ∈ s.entries, e.id = id → ∀ c, Command.CommandOf e c → ∀ row,
      Keeps (fun s => I s.entry) (c.receive row))
    (hsettle : Keeps (fun s => I s.entry) Action.settle) (hrollBack : ∀ e, I e → I e.rollBack)
    (d : Dialect) (executor : Executor) (hs : EntryHolds id I s) :
    EntryHolds id I (save d executor s).2 := by
  refine keeps_save (fun plan hplan => ?_) d executor hs
  exact {
    send _ hs := hs
    prepare c _ := keeps_onEntry_of (Action.fixes_make fun _ => prepare_keeps) fun _ =>
      Action.keeps_modifyEntry_of hprepare
    receive c hc row := keeps_onEntry_of (Action.fixes_make fun _ => Action.receive_keeps c row)
      fun hid => by
        obtain ⟨e, he, hcommand⟩ := Plan.commandOf_of_mem hplan hc
        exact hreceive e he (hcommand.entry.symm.trans hid) c hcommand row
    settle c _ := keeps_onEntry_of (fun s => (Action.settle_keeps s (.refl s)).make) fun _ => hsettle
    rollBack := by
      intro s hs e he
      rw [SaveScope.entryOf_rollBack] at he
      obtain ⟨e₁, he₁, rfl⟩ := Option.map_eq_some_iff.1 he
      exact hrollBack e₁ (hs e₁ he₁) }

end

end Saving

end EntityMapper
