import EntityMapper.Proofs.Tracking.Sidecars
import EntityMapper.Save.Execution
import Mathlib.Logic.Function.Basic

/-!
# The entries of a save

A save looks its entries up by identity (`SaveScope.entryOf`), and each of its steps works on one of
them (`Saving.perform_onEntry`): the others stay (`SaveScope.entryOf_replace`).

While commands are sent, entries only gain the sidecar for generated values. `SaveScope.staged` is
the scope at such a point: `held` tells what the sidecar of each entry holds, if it has one.
-/

namespace EntityMapper

open Stepwise

namespace SaveScope

variable {s : SaveScope} {scope : Scope} {e : Entry} {id : EntryId}

/-- The identities of the entries. -/
def ids (s : SaveScope) : List EntryId :=
  s.entries.map (·.id)

/-- The entry of an identity. -/
def entryOf (s : SaveScope) (id : EntryId) : Option Entry :=
  s.entries.find? (·.id == id)

/-- The scope after a step on one of its entries. -/
def replace (s : SaveScope) (scope : Scope) : SaveScope :=
  { s with entries := Saving.putEntry scope.entry s.entries, session := scope.session }

theorem id_of_entryOf (h : s.entryOf id = some e) : e.id = id := by
  simpa using List.find?_some h

theorem entryOf_of_mem (hnodup : s.ids.Nodup) (he : e ∈ s.entries) : s.entryOf e.id = some e :=
  find?_key_of_mem hnodup he

theorem ids_putEntry (e : Entry) (entries : List Entry) :
    (Saving.putEntry e entries).map (·.id) = entries.map (·.id) := by
  induction entries with
  | nil => rfl
  | cons other entries ih =>
    unfold Saving.putEntry
    split
    · rename_i h
      simp [h]
    · simp [ih]

@[simp] theorem ids_replace : (s.replace scope).ids = s.ids := ids_putEntry ..

theorem find?_putEntry {entries : List Entry} (e : Entry) (id : EntryId)
    (h : (entries.find? (·.id == e.id)).isSome) :
    (Saving.putEntry e entries).find? (·.id == id) =
      if id = e.id then some e else entries.find? (·.id == id) := by
  induction entries with
  | nil => cases h
  | cons other entries ih =>
    by_cases hother : other.id = e.id
    · rw [Saving.putEntry, if_pos hother]
      by_cases hid : id = e.id
      · simp [hid]
      · have hne : e.id ≠ id := Ne.symm hid
        simp [hid, hother, hne]
    · rw [Saving.putEntry, if_neg hother]
      have h : (entries.find? (·.id == e.id)).isSome := by simpa [hother] using h
      by_cases hid : other.id = id
      · subst hid
        simp [hother]
      · rw [List.find?_cons_of_neg (by simpa using hid), ih h,
          List.find?_cons_of_neg (by simpa using hid)]

/-- A step on an entry changes what its identity stands for, and nothing else. -/
theorem entryOf_replace (h : s.entryOf scope.entry.id = some e) :
    (s.replace scope).entryOf id =
      if id = scope.entry.id then some scope.entry else s.entryOf id := by
  refine find?_putEntry scope.entry id ?_
  unfold entryOf at h
  rw [h]
  rfl

theorem entryOf_rollBack (s : SaveScope) (id : EntryId) :
    (Saving.rollBack s).entryOf id = (s.entryOf id).map (·.rollBack) :=
  List.find?_map

end SaveScope

namespace Saving

variable {s : SaveScope} {e : Entry} {id : EntryId} {action : Action Unit}

theorem perform_onEntry_none (h : s.entryOf id = none) :
    perform (onEntry id action) s = (.ok (), s) := by
  unfold SaveScope.entryOf at h
  rw [onEntry, perform_mk, h]

/-- An action on an entry of the scope. -/
theorem perform_onEntry (h : s.entryOf id = some e) : perform (onEntry id action) s =
    ((perform action ⟨e, s.session⟩).1, s.replace (perform action ⟨e, s.session⟩).2) := by
  unfold SaveScope.entryOf at h
  rw [onEntry, perform_mk, h]
  rfl

end Saving

/-! ## While commands are sent -/

/-- The entry, with the sidecar for generated values if that is given. -/
def Entry.staged (e : Entry) : Option (List (Nat × Value)) → Entry
  | none => e
  | some values => e.holding values

namespace SaveScope

variable {s : SaveScope} {e : Entry} {held : EntryId → Option (List (Nat × Value))}
  {messages : List SentCommand} {values : Option (List (Nat × Value))}

/-- The scope once some messages were sent and some generated values are held. -/
def staged (s : SaveScope) (held : EntryId → Option (List (Nat × Value)))
    (messages : List SentCommand) : SaveScope :=
  { s with
    entries := s.entries.map fun e => e.staged (held e.id), sent := s.sent ++ messages }

@[simp] theorem id_staged : (e.staged values).id = e.id := by
  cases values <;> rfl

theorem make_staged : (e.staged values).make = e.make := by
  cases values <;> rfl

theorem state_staged : (e.staged values).state = e.state := by
  cases values <;> rfl

theorem staged_none : s.staged (fun _ => none) [] = s := by
  have h : (s.entries.map fun e => e.staged none) = s.entries := List.map_id _
  rw [staged, h, List.append_nil]

@[simp] theorem ids_staged : (s.staged held messages).ids = s.ids := by
  simp [ids, staged, List.map_map, Function.comp_def]

theorem entryOf_staged (id : EntryId) :
    (s.staged held messages).entryOf id = (s.entryOf id).map fun e => e.staged (held e.id) := by
  simp only [entryOf, staged, List.find?_map, Function.comp_def, id_staged]

theorem putEntry_staged {entries : List Entry} (hnodup : (entries.map (·.id)).Nodup)
    (he : e ∈ entries) :
    Saving.putEntry (e.staged values) (entries.map fun e => e.staged (held e.id)) =
      entries.map fun other => other.staged (Function.update held e.id values other.id) := by
  induction entries with
  | nil => cases he
  | cons other entries ih =>
    obtain ⟨hnot, hnodup⟩ := List.nodup_cons.1 hnodup
    rw [List.map_cons, List.map_cons, Saving.putEntry, id_staged, id_staged]
    rcases List.mem_cons.1 he with rfl | he
    · have hrest : ∀ other ∈ entries, other.staged (held other.id) =
          other.staged (Function.update held e.id values other.id) := by
        intro other hother
        have hne : other.id ≠ e.id := fun h => hnot (List.mem_map.2 ⟨other, hother, h⟩)
        rw [Function.update_of_ne hne]
      rw [if_pos rfl, Function.update_self, List.map_congr_left hrest]
    · have hne : other.id ≠ e.id := fun h => hnot (List.mem_map.2 ⟨e, he, h.symm⟩)
      rw [if_neg hne, Function.update_of_ne hne, ih hnodup he]

/-- A step on the sidecar of one entry. -/
theorem perform_onEntry_staged {action : Action Unit} {answer : Result Unit} (hnodup : s.ids.Nodup)
    (he : e ∈ s.entries)
    (h : perform action ⟨e.staged (held e.id), s.session⟩ =
      (answer, ⟨e.staged values, s.session⟩)) :
    perform (Saving.onEntry e.id action) (s.staged held messages) =
      (answer, s.staged (Function.update held e.id values) messages) := by
  have hentry : (s.staged held messages).entryOf e.id = some (e.staged (held e.id)) := by
    rw [entryOf_staged, entryOf_of_mem hnodup he]
    rfl
  have hsession : (s.staged held messages).session = s.session := rfl
  rw [Saving.perform_onEntry hentry, hsession, h, replace]
  simp only [staged, putEntry_staged hnodup he]

/-- Dropping generated values undoes the stage. -/
theorem rollBack_staged (h : ∀ e ∈ s.entries, ∀ sidecar ∈ e.sidecars,
      sidecar.autoCommit = false ∧ sidecar.name ≠ Sidecar.generatedName) :
    Saving.rollBack (s.staged held messages) = { s with sent := s.sent ++ messages } := by
  have hback : ∀ e ∈ s.entries, (e.staged (held e.id)).rollBack = e := by
    intro e he
    have hkeep : e.rollBack = e := Entry.rollBack_eq fun sidecar hs => (h e he sidecar hs).1
    cases held e.id with
    | none => exact hkeep
    | some values =>
      exact (Entry.rollBack_holding fun sidecar hs => (h e he sidecar hs).2).trans hkeep
  have hentries : (s.staged held messages).entries.map (·.rollBack) = s.entries := by
    rw [staged, List.map_map]
    exact (List.map_congr_left hback).trans (List.map_id _)
  rw [Saving.rollBack, hentries]
  rfl

end SaveScope

end EntityMapper
