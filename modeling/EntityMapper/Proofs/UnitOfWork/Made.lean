import EntityMapper.Proofs.Tracking.Fields
import EntityMapper.Proofs.UnitOfWork.Tracked

/-!
# How entries are made

An entry keeps its make, and its session the registry of native types. So what holds of an entry
because of how it was made, holds of it for good (`UnitOfWork.holds_of_made`): it is valid
(`UnitOfWork.valid_of_reachable`), and as its entity type declares it
(`UnitOfWork.declared_of_reachable`).
-/

namespace EntityMapper

/-- What is a matter of make and registry lasts. -/
theorem lasting_of_make {P : Registry → Entry → Prop}
    (hP : ∀ r (e e' : Entry), e'.make = e.make → P r e → P r e') (moves : Scope.Moves) :
    Lasting moves fun roster session => ∀ id e, roster id = some e → P session.registry e where
  leads := by
    intro roster session e s h he hs id e' he'
    have hregistry : s.session.registry = session.registry := hs.registry
    rw [hregistry]
    by_cases hid : id = e.id
    · subst hid
      rw [Function.update_self] at he'
      cases he'
      exact hP _ e _ hs.make (h _ e he)
    · rw [Function.update_of_ne hid] at he'
      exact h id e' he'
  values := by
    intro roster session f h hf id e' he'
    obtain ⟨e, he, rfl⟩ := Option.map_eq_some_iff.1 he'
    exact hP _ e _ (hf id e).make (h id e he)

namespace UnitOfWork

variable {P : Registry → Entry → Prop} {u u' : UnitOfWork} {e : Entry}

/-- A step keeps what is a matter of make and registry, if new entries have it. -/
theorem Step.holds_of_made (hP : ∀ r (e e' : Entry), e'.make = e.make → P r e → P r e')
    (hmade : ∀ (s : Session) t native e, s.FillsFrom t native e → P s.registry e) (hu : u.InStep)
    (h : ∀ id e, u.entryOf id = some e → P u.session.registry e) (hs : u.Step u') :
    ∀ id e, u'.entryOf id = some e → P u'.session.registry e := by
  rcases hs.cases with ⟨t, e, s, hfills, rfl⟩ | ⟨e, he, op, rfl⟩ | ⟨chosen, hchosen, d, ex, rfl⟩
  · obtain ⟨hid, -, -, -, rfl⟩ := hfills.fresh
    obtain ⟨native, e₁, e₂, hnative, he₁, hloads, hcapture, -⟩ := hfills
    intro id e' he'
    rw [entryOf_append (hid ▸ hu.entryOf_next), Function.update_apply] at he'
    split at he'
    · cases he'
      exact hmade u.session t native e ⟨hnative, e₁, e₂, he₁, hloads, hcapture⟩
    · exact h id e' he'
  · have hleads := op.leads_run ⟨e, u.session⟩
    rw [entryOf_put (hu.entryOf_of_mem he) hleads.id]
    exact (lasting_of_make hP _).leads h (hu.entryOf_of_mem he) hleads
  · exact lasts_merge (lasting_of_make hP .sparing) hu.nodup hchosen d ex h

/-- **What holds of entries as they are made** holds of all entries of a unit of work, if it is a
matter of make and registry. -/
theorem holds_of_made (hP : ∀ r (e e' : Entry), e'.make = e.make → P r e → P r e')
    (hmade : ∀ (s : Session) t native e, s.FillsFrom t native e → P s.registry e)
    (h : u.Reachable) (he : e ∈ u.entries) : P u.session.registry e := by
  suffices hall : ∀ id e, u.entryOf id = some e → P u.session.registry e from
    hall e.id e ((inStep_of_reachable h).entryOf_of_mem he)
  clear he
  induction h with
  | start h => exact fun id e he => absurd (mem_of_entryOf he) List.not_mem_nil
  | step h hs ih => exact hs.holds_of_made hP hmade (inStep_of_reachable h) ih

/-- Entries are valid. -/
theorem valid_of_reachable (h : u.Reachable) (he : e ∈ u.entries)
    (registry : u.session.registry.Sound) (placed : e.type.Placed) : e.Valid := by
  refine holds_of_made (P := fun r e => r.Sound → e.type.Placed → e.Valid) ?_ ?_ h he registry placed
  · intro r e e' hmake hvalid hr ht
    have htype : e'.type = e.type := congrArg Make.type hmake
    exact (hvalid hr (htype ▸ ht)).of_make hmake
  · intro s t native e hfills hr ht
    obtain ⟨-, rfl, -⟩ := hfills.fills.fresh
    exact (hfills.fills.makes hr ht).valid

/-- Entries are as their entity types declare them. -/
theorem declared_of_reachable (h : u.Reachable) (he : e ∈ u.entries)
    (fielded : e.type.Fielded u.session.registry) : e.Declared := by
  refine holds_of_made (P := fun r e => e.type.Fielded r → e.Declared) ?_ ?_ h he fielded
  · intro r e e' hmake hdeclared ht
    have htype : e'.type = e.type := congrArg Make.type hmake
    exact (hdeclared (htype ▸ ht)).of_make hmake
  · intro s t native e hfills ht
    obtain ⟨-, rfl, -⟩ := hfills.fills.fresh
    exact hfills.declared ht

end UnitOfWork

end EntityMapper
