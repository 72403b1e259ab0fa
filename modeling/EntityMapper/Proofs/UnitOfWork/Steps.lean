import EntityMapper.Proofs.Command.Edits
import EntityMapper.Proofs.Save.Lasting
import EntityMapper.Proofs.Tracking.Operations
import EntityMapper.Proofs.Tracking.Validity

/-!
# Units of work

A unit of work is a session with all entries that it has made. It grows by steps
(`UnitOfWork.Step`): an entry is made, an operation is performed on one of the entries, or some of
them are saved; an operation or a save may fail halfway. What comes of a new session that way is
`UnitOfWork.Reachable`.

An operation changes the entry of one identity (`UnitOfWork.entryOf_put`), a save those that it is
given (`UnitOfWork.entryOf_merge`). So a property of one entry is a matter of what is done to this
entry (`UnitOfWork.EntryHolds`).
-/

namespace EntityMapper

/-- The entries of a session, in the order of their making, and the session. -/
structure UnitOfWork where
  entries : List Entry
  session : Session

namespace UnitOfWork

/-- The entry of an identity. -/
def entryOf (u : UnitOfWork) : Roster :=
  Roster.ofEntries u.entries

/-- The identities of the entries. -/
def ids (u : UnitOfWork) : List EntryId :=
  u.entries.map (·.id)

/-- What an action on one of the entries leaves. -/
def put (u : UnitOfWork) (s : Scope) : UnitOfWork :=
  ⟨Saving.putEntry s.entry u.entries, s.session⟩

/-- What a save of some of the entries leaves. -/
def merge (u : UnitOfWork) (s : SaveScope) : UnitOfWork :=
  ⟨u.entries.map fun e => (s.entryOf e.id).getD e, s.session⟩

/-- One step of a unit of work. -/
inductive Step (u : UnitOfWork) : UnitOfWork → Prop
  /-- An entry is made around an instance. -/
  | adopt {t : EntityType} {i : Instance} {e : Entry} {s : Session}
      (h : u.session.adopt t i = .ok (e, s)) : Step u ⟨u.entries ++ [e], s⟩
  /-- An entry is made around an instance, of the entity type that its native type backs. -/
  | adoptByType {i : Instance} {e : Entry} {s : Session}
      (h : u.session.adoptByType i = .ok (e, s)) : Step u ⟨u.entries ++ [e], s⟩
  /-- An entry is made from values. -/
  | materialize {t : EntityType} {values : List Value} {e : Entry} {s : Session}
      (h : u.session.materialize t values = .ok (e, s)) : Step u ⟨u.entries ++ [e], s⟩
  /-- An operation is performed on an entry, and succeeds or fails. -/
  | act {e : Entry} (he : e ∈ u.entries) (op : EntryOperation) :
      Step u (u.put (op.run ⟨e, u.session⟩))
  /-- Some entries are saved, in any order, and that succeeds or fails. -/
  | save {chosen : List Entry} (hchosen : ∀ e ∈ chosen, e ∈ u.entries) (d : Dialect)
      (executor : Executor) :
      Step u (u.merge (Saving.save d executor { entries := chosen, session := u.session }).2)

/-- What steps make of a new session. -/
inductive Reachable : UnitOfWork → Prop
  | start {model : Option Model} {registry : Registry} {generators : Generators} {s : Session}
      (h : Session.start model registry generators = .ok s) : Reachable ⟨[], s⟩
  | step {u u' : UnitOfWork} (h : u.Reachable) (hs : u.Step u') : Reachable u'

variable {u u' : UnitOfWork} {e : Entry} {s : Scope}

/-- Steps are of three kinds: an entry is made, one of them is acted on, or some are saved. -/
theorem Step.cases (h : u.Step u') :
    (∃ t e s, u.session.Fills t e s ∧ u' = ⟨u.entries ++ [e], s⟩) ∨
    (∃ e ∈ u.entries, ∃ op : EntryOperation, u' = u.put (op.run ⟨e, u.session⟩)) ∨
    ∃ chosen : List Entry, (∀ e ∈ chosen, e ∈ u.entries) ∧ ∃ d executor,
      u' = u.merge (Saving.save d executor { entries := chosen, session := u.session }).2 := by
  cases h with
  | adopt h => exact .inl ⟨_, _, _, Session.adopt_fills h, rfl⟩
  | adoptByType h =>
    obtain ⟨t, h⟩ := Session.adopt_of_adoptByType h
    exact .inl ⟨t, _, _, Session.adopt_fills h, rfl⟩
  | materialize h => exact .inl ⟨_, _, _, Session.materialize_fills h, rfl⟩
  | act he op => exact .inr (.inl ⟨_, he, op, rfl⟩)
  | save hchosen d executor => exact .inr (.inr ⟨_, hchosen, d, executor, rfl⟩)

/-! ## Which entries change -/

theorem mem_of_entryOf {id : EntryId} (h : u.entryOf id = some e) : e ∈ u.entries :=
  List.mem_of_find?_eq_some h

theorem ids_put : (u.put s).ids = u.ids := SaveScope.ids_putEntry ..

theorem entryOf_put (h : u.entryOf e.id = some e) (hid : s.entry.id = e.id) :
    (u.put s).entryOf = Function.update u.entryOf e.id (some s.entry) :=
  Roster.ofEntries_putEntry h hid

theorem ids_merge (s : SaveScope) : (u.merge s).ids = u.ids := by
  unfold ids merge
  rw [List.map_map]
  refine List.map_congr_left fun e _ => ?_
  cases h : s.entryOf e.id with
  | none => simp [h]
  | some e' => simp [h, SaveScope.id_of_entryOf h]

/-- A new entry joins the others. -/
theorem entryOf_append {session : Session} (h : u.entryOf e.id = none) :
    (⟨u.entries ++ [e], session⟩ : UnitOfWork).entryOf =
      Function.update u.entryOf e.id (some e) := by
  funext id
  unfold entryOf Roster.ofEntries at h ⊢
  rw [List.find?_append, Function.update_apply]
  split
  · rename_i hid
    rw [hid, h]
    simp
  · rename_i hid
    simp [Ne.symm hid]

theorem entryOf_merge_eq_map (s : SaveScope) (id : EntryId) :
    (u.merge s).entryOf id = (u.entryOf id).map fun e => (s.entryOf e.id).getD e := by
  have hid : ((fun e : Entry => e.id == id) ∘ fun e => (s.entryOf e.id).getD e) =
      fun e : Entry => e.id == id := by
    funext e
    cases hs : s.entryOf e.id with
    | none => simp [hs]
    | some e' => simp [hs, SaveScope.id_of_entryOf hs]
  unfold merge entryOf Roster.ofEntries
  rw [List.find?_map, hid]

/-- The entries that were saved are those of the save, and the others stay. -/
theorem entryOf_merge {s : SaveScope} (h : ∀ id, u.entryOf id = none → s.entryOf id = none) :
    (u.merge s).entryOf = fun id => (s.entryOf id).or (u.entryOf id) := by
  funext id
  rw [entryOf_merge_eq_map]
  cases hu : u.entryOf id with
  | none => rw [h id hu]; rfl
  | some e =>
    rw [Option.map_some, Roster.id_of_ofEntries hu]
    cases s.entryOf id <;> rfl

/-! ## Properties of one entry -/

/-- A property of the entry of an identity, if that was made. -/
def EntryHolds (id : EntryId) (I : Entry → Prop) (u : UnitOfWork) : Prop :=
  ∀ e, u.entryOf id = some e → I e

section

variable {id : EntryId} {I : Entry → Prop}

theorem EntryHolds.append {session : Session} (h : u.EntryHolds id I)
    (hnew : u.entryOf e.id = none) (he : e.id = id → I e) :
    UnitOfWork.EntryHolds id I ⟨u.entries ++ [e], session⟩ := by
  intro e' he'
  rw [entryOf_append hnew, Function.update_apply] at he'
  split at he'
  · rename_i hid
    cases he'
    exact he hid.symm
  · exact h e' he'

theorem EntryHolds.put {I' : Entry → Prop} {op : EntryOperation} (h : u.EntryHolds id I)
    (hentry : u.entryOf e.id = some e)
    (hrun : e.id = id → I e → I' (op.run ⟨e, u.session⟩).entry)
    (hothers : e.id ≠ id → ∀ e, I e → I' e) : (u.put (op.run ⟨e, u.session⟩)).EntryHolds id I' := by
  intro e' he'
  rw [entryOf_put hentry (op.leads_run _).id, Function.update_apply] at he'
  split at he'
  · rename_i hid
    cases he'
    exact hrun hid.symm (h e (hid ▸ hentry))
  · rename_i hid
    exact hothers (Ne.symm hid) e' (h e' he')

theorem EntryHolds.merge {s : SaveScope} (h : u.EntryHolds id I)
    (hs : Saving.EntryHolds id I s) : (u.merge s).EntryHolds id I := by
  intro e' he'
  rw [entryOf_merge_eq_map] at he'
  obtain ⟨e, he, rfl⟩ := Option.map_eq_some_iff.1 he'
  rw [Roster.id_of_ofEntries he]
  cases hsaved : s.entryOf id with
  | none => exact h e he
  | some e₁ => exact hs e₁ hsaved

end

/-! ## What saves of some entries keep -/

variable {I : Roster → Session → Prop}

/-- What lasts for all entries lasts while some of them are worked on. -/
theorem lasting_merge {moves : Scope.Moves} (hI : Lasting moves I) (roster : Roster) :
    Lasting moves fun some session =>
      (∀ id, roster id = none → some id = none) ∧ I (fun id => (some id).or (roster id)) session where
  leads := by
    intro saved session e s ⟨hsaved, h⟩ he hs
    constructor
    · intro id hid
      have hne : id ≠ e.id := by
        rintro rfl
        rw [hsaved _ hid] at he
        cases he
      rw [Function.update_of_ne hne]
      exact hsaved id hid
    · have hupdate : (fun id => (Function.update saved e.id (some s.entry) id).or (roster id)) =
          Function.update (fun id => (saved id).or (roster id)) e.id (some s.entry) := by
        funext id
        by_cases hid : id = e.id
        · subst hid
          simp
        · simp [hid]
      rw [hupdate]
      exact hI.leads h (by rw [he]; rfl) hs
  values := by
    intro saved session f ⟨hsaved, h⟩ hf
    constructor
    · intro id hid
      exact congrArg (Option.map (f id)) (hsaved id hid)
    · have hmap : (fun id => ((saved id).map (f id)).or (roster id)) = fun id =>
          ((saved id).or (roster id)).map (if (saved id).isSome then f id else fun e => e) := by
        funext id
        cases saved id <;> simp
      rw [hmap]
      refine hI.values h fun id e => ?_
      split
      · exact hf id e
      · exact .refl e

/-- **Saves keep what lasts.** A save of some entries of a unit of work keeps what steps that delete
nothing keep, for all its entries. -/
theorem lasts_merge (hI : Lasting .sparing I) (hnodup : u.ids.Nodup) {chosen : List Entry}
    (hchosen : ∀ e ∈ chosen, e ∈ u.entries) (d : Dialect) (executor : Executor)
    (h : I u.entryOf u.session) :
    let u' := u.merge (Saving.save d executor { entries := chosen, session := u.session }).2
    I u'.entryOf u'.session := by
  intro u'
  have hfound : ∀ id e, Roster.ofEntries chosen id = some e → u.entryOf id = some e := by
    intro id e he
    rw [← Roster.id_of_ofEntries he]
    exact Roster.ofEntries_of_mem hnodup (hchosen e (List.mem_of_find?_eq_some he))
  -- The save starts with entries of the unit of work, so before it all are as they are there.
  have hstart : (fun id => (Roster.ofEntries chosen id).or (u.entryOf id)) = u.entryOf := by
    funext id
    cases hid : Roster.ofEntries chosen id with
    | none => rfl
    | some e => exact (hfound id e hid).symm
  have hnone : ∀ id, u.entryOf id = none → Roster.ofEntries chosen id = none := by
    intro id hid
    refine Option.eq_none_iff_forall_ne_some.2 fun e he => ?_
    rw [hfound id e he] at hid
    cases hid
  obtain ⟨hsaved, hkept⟩ := Saving.lasts_save (lasting_merge hI u.entryOf) d executor
    (s := { entries := chosen, session := u.session }) ⟨hnone, hstart.symm ▸ h⟩
  rw [entryOf_merge hsaved]
  exact hkept

end UnitOfWork

/-! ## An example -/

namespace Notes

/-- A note with an identity, in a state. -/
def note (n : Nat) (state : EntityState) : Entry :=
  { loaded (.int 7) with id := ⟨n⟩, state }

/-- Three notes are made in a new session. -/
def making : UnitOfWork where
  entries := [note 1 .unknown, note 2 .unknown, note 3 .unknown]
  session := { session with tracker := .empty, made := 3 }

theorem making_reachable : making.Reachable := by
  have hmake : ∀ u : UnitOfWork, u.Reachable →
      UnitOfWork.Reachable
        ⟨u.entries ++ [note (u.session.made + 1) .unknown], u.session.countMade⟩ :=
    fun u h => by
      have hmade : u.session.materialize type (values "Old" (.int 7)) =
          .ok (note (u.session.made + 1) .unknown, u.session.countMade) := rfl
      exact h.step (.materialize hmade)
  have hsession : Session.start (some session.model) session.registry session.generators =
      .ok { session with tracker := .empty, made := 0 } := rfl
  have hstart : UnitOfWork.Reachable ⟨[], { session with tracker := .empty, made := 0 }⟩ :=
    .start hsession
  exact hmake _ (hmake _ (hmake _ hstart))

/-- The first note is changed after it was read, the second one added and then deleted, and the third
one added. -/
def working : UnitOfWork where
  entries := [edited (.int 7), note 2 .unknown, note 3 .added]
  session := { session with
    tracker := ⟨[(⟨1⟩, ⟨"Note", .modified⟩), (⟨3⟩, ⟨"Note", .added⟩)]⟩, made := 3 }

theorem working_reachable : working.Reachable := by
  have h₁ := making_reachable.step (.act (e := note 1 .unknown) (.head _) (.setState .unchanged))
  have h₂ := h₁.step (.act (e := note 1 .unchanged) (.head _) (.set body (.text "New")))
  have h₃ := h₂.step (.act (e := note 2 .unknown) (.tail _ (.head _)) (.setState .added))
  have h₄ := h₃.step (.act (e := note 2 .added) (.tail _ (.head _)) (.setState .deleted))
  exact h₄.step (.act (e := note 3 .unknown) (.tail _ (.tail _ (.head _))) (.setState .added))

end Notes

end EntityMapper
