import EntityMapper.Proofs.UnitOfWork.Tracked

/-!
# The states of a unit of work

In a unit of work the flags of an entry are in step with its state, and no step takes an entry from
added to deleted (`UnitOfWork.states_of_reachable`).
-/

namespace EntityMapper

open Stepwise

namespace UnitOfWork

variable {u u' : UnitOfWork} {e : Entry}

/-- No step takes an entry from added to deleted. -/
theorem Step.ne_deleted (h : u.InStep) (hs : u.Step u') (he : e ∈ u.entries)
    (hstate : e.state = .added) : ∃ e', u'.entryOf e.id = some e' ∧ e'.state ≠ .deleted := by
  have hentry := h.entryOf_of_mem he
  have hkept : e.state ≠ .deleted := by
    rw [hstate]
    nofun
  rcases hs.cases with ⟨t, e₁, s, hfills, rfl⟩ | ⟨e₁, he₁, op, rfl⟩ | ⟨chosen, hchosen, d, ex, rfl⟩
  · have hnew : u.entryOf e₁.id = none := hfills.fresh.1 ▸ h.entryOf_next
    have hne : e.id ≠ e₁.id := by
      intro heq
      rw [heq, hnew] at hentry
      cases hentry
    exact ⟨e, by rw [entryOf_append hnew, Function.update_of_ne hne, hentry], hkept⟩
  · have hentry₁ := h.entryOf_of_mem he₁
    have hid : (op.run ⟨e₁, u.session⟩).entry.id = e₁.id := (op.leads_run _).id
    rw [entryOf_put hentry₁ hid]
    by_cases heq : e.id = e₁.id
    · rw [heq, hentry₁] at hentry
      cases hentry
      exact ⟨_, Function.update_self .., op.state_run_of_added hstate⟩
    · exact ⟨e, by rw [Function.update_of_ne heq, hentry], hkept⟩
  · exact lasts_merge (lasting_ne_deleted e.id) h.nodup hchosen d ex ⟨e, hentry, hkept⟩

/-- **States and flags.** Whatever was done in a session, an unchanged entry has no flag, and a
modified one has some unless all its properties are in the key. Whatever is done next, an added entry
is not deleted by it; one that is asked to be deleted becomes unknown. -/
theorem states_of_reachable (h : u.Reachable) :
    (∀ e ∈ u.entries, e.WellFlagged) ∧
    ∀ e ∈ u.entries, e.state = .added →
      (∀ u', u.Step u' → ∃ e', u'.entryOf e.id = some e' ∧ e'.state ≠ .deleted) ∧
      perform (Action.setState .deleted) ⟨e, u.session⟩ = (.ok (), ⟨{ e with state := .unknown },
        { u.session with tracker := u.session.tracker.stop e.id }⟩) := by
  have hstep := inStep_of_reachable h
  refine ⟨fun e he => hstep.roster.flags e.id e (hstep.entryOf_of_mem he), fun e he hstate =>
    ⟨fun u' hs => hs.ne_deleted hstep he hstate, ?_⟩⟩
  exact Action.perform_setState_deleted_of_added hstate

theorem states_of_reachable_notes : Notes.working.Reachable ∧
    (Notes.edited (.int 7)).WellFlagged ∧
    (Notes.working.put
      ((EntryOperation.setState .deleted).run ⟨Notes.note 3 .added, Notes.working.session⟩)).entries =
        [Notes.edited (.int 7), Notes.note 2 .unknown, Notes.note 3 .unknown] := by
  obtain ⟨hflags, hadded⟩ := states_of_reachable Notes.working_reachable
  refine ⟨Notes.working_reachable, hflags _ (.head _), ?_⟩
  obtain ⟨-, hdelete⟩ := hadded (Notes.note 3 .added) (.tail _ (.tail _ (.head _))) rfl
  have hrun := congrArg Prod.snd hdelete
  have hrun : (EntryOperation.setState .deleted).run ⟨Notes.note 3 .added, Notes.working.session⟩ = _ :=
    hrun
  rw [hrun]
  rfl

end UnitOfWork

end EntityMapper
