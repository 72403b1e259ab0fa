import EntityMapper.Proofs.Tracking.Tracked
import EntityMapper.Proofs.UnitOfWork.Steps
import Mathlib.Data.List.Sort

/-!
# The tracked set of a unit of work

Whatever is done to the entries of a session, in whatever order, the tracked set agrees with them
(`UnitOfWork.tracker_of_reachable`): it lists those that are not unknown, in the order of their
identities, each with the name of its entity type and its state.

The invariant is `UnitOfWork.InStep`. Its part on entries and tracked set, `Roster.InStep`, lasts
through the steps of a lifecycle and so through operations and saves
(`Roster.inStep_lasting`); a new entry is unknown and joins it (`Roster.InStep.insert`).
-/

namespace EntityMapper

open Scope

/-! ## Entries, flags and tracked set -/

namespace Roster

variable {roster : Roster} {session : Session} {e : Entry} {id : EntryId}

/-- Entries whose flags are in step with their states, and a tracked set that lists them as they
are. -/
structure InStep (roster : Roster) (session : Session) : Prop where
  id : ∀ id e, roster id = some e → e.id = id
  flags : ∀ id e, roster id = some e → e.WellFlagged
  listed : ∀ id, session.tracker.find? id = (roster id).bind Entry.listing
  ascending : session.tracker.Ascending

/-- One entry is replaced or added, and the tracked set changes for this one only. -/
theorem InStep.update {session' : Session} (h : InStep roster session) (hflags : e.WellFlagged)
    (hlisted : (⟨e, session'⟩ : Scope).Listed)
    (hothers : ∀ id, id ≠ e.id → session'.tracker.find? id = session.tracker.find? id) :
    InStep (Function.update roster e.id (some e)) session' := by
  have hcases : ∀ id e', Function.update roster e.id (some e) id = some e' →
      id = e.id ∧ e' = e ∨ roster id = some e' := by
    intro id e' he'
    by_cases hid : id = e.id
    · subst hid
      rw [Function.update_self] at he'
      exact .inl ⟨rfl, (Option.some.inj he').symm⟩
    · rw [Function.update_of_ne hid] at he'
      exact .inr he'
  refine ⟨fun id e' he' => ?_, fun id e' he' => ?_, fun id => ?_, hlisted.ascending⟩
  · rcases hcases id e' he' with ⟨rfl, rfl⟩ | he'
    · rfl
    · exact h.id id e' he'
  · rcases hcases id e' he' with ⟨rfl, rfl⟩ | he'
    · exact hflags
    · exact h.flags id e' he'
  · by_cases hid : id = e.id
    · subst hid
      rw [Function.update_self]
      exact hlisted.entry
    · rw [Function.update_of_ne hid, hothers id hid]
      exact h.listed id

/-- Steps of one lifecycle keep all entries in step. -/
theorem InStep.leads {moves : Moves} {s : Scope} (h : InStep roster session)
    (he : roster e.id = some e) (hs : (⟨e, session⟩ : Scope).Leads moves s) :
    InStep (Function.update roster e.id (some s.entry)) s.session := by
  have hlisted : (⟨e, session⟩ : Scope).Listed := ⟨by rw [h.listed, he]; rfl, h.ascending⟩
  obtain ⟨hlisted', hothers⟩ := hlisted.leads hs
  have hflags : s.entry.WellFlagged :=
    Entry.WellFlagged.leads (s := ⟨e, session⟩) (h.flags _ e he) hs
  have hid : s.entry.id = e.id := hs.id
  rw [← hid]
  exact h.update hflags hlisted' (hid ▸ hothers)

/-- A new entry is unknown, and so it is not tracked. -/
theorem InStep.insert (h : InStep roster session) (hnew : roster e.id = none)
    (hstate : e.state = .unknown) (hflags : e.modified.length = e.type.properties.length) :
    InStep (Function.update roster e.id (some e)) session := by
  have hlisting : e.listing = none := by
    rw [Entry.listing, hstate]
    rfl
  have hflagged : e.WellFlagged := by
    refine ⟨hflags, fun hunchanged => ?_, fun hmodified => ?_⟩
    · rw [hstate] at hunchanged
      cases hunchanged
    · rw [hstate] at hmodified
      cases hmodified
  refine h.update hflagged ⟨?_, h.ascending⟩ fun _ _ => rfl
  change session.tracker.find? e.id = e.listing
  rw [h.listed, hnew, hlisting]
  rfl

/-- Entries with other values are in step as before. -/
theorem InStep.values {f : EntryId → Entry → Entry} (h : InStep roster session)
    (hf : ∀ id (e : Entry), e.Revalued (f id e)) :
    InStep (fun id => (roster id).map (f id)) session := by
  have hmap : ∀ id e', (roster id).map (f id) = some e' → ∃ e, roster id = some e ∧
      e.Revalued e' := by
    intro id e' he'
    obtain ⟨e, he, rfl⟩ := Option.map_eq_some_iff.1 he'
    exact ⟨e, he, hf id e⟩
  refine ⟨fun id e' he' => ?_, fun id e' he' => ?_, fun id => ?_, h.ascending⟩
  · obtain ⟨e, he, hvalues⟩ := hmap id e' he'
    exact hvalues.id.trans (h.id id e he)
  · obtain ⟨e, he, hvalues⟩ := hmap id e' he'
    exact (h.flags id e he).of_revalued hvalues
  · rw [h.listed]
    cases roster id with
    | none => rfl
    | some e => exact (hf id e).listing.symm

theorem inStep_lasting (moves : Moves) : Lasting moves InStep :=
  ⟨fun h he hs => h.leads he hs, fun h hf => h.values hf⟩

end Roster

theorem nodup_of_ascending {ids : List EntryId} (h : ids.Pairwise fun a b => a.number < b.number) :
    ids.Nodup := by
  refine List.Pairwise.imp (fun {a b} hlt => ?_) h
  rintro rfl
  exact Nat.lt_irrefl _ hlt

/-! ## Units of work -/

namespace UnitOfWork

variable {u u' : UnitOfWork} {e : Entry} {id : EntryId}

/-- The entries have ascending identities, of which the session has counted all, and are in step with
the tracked set. -/
structure InStep (u : UnitOfWork) : Prop where
  ascending : u.ids.Pairwise fun a b => a.number < b.number
  made : ∀ id ∈ u.ids, id.number ≤ u.session.made
  roster : Roster.InStep u.entryOf u.session

theorem InStep.nodup (h : u.InStep) : u.ids.Nodup := nodup_of_ascending h.ascending

theorem InStep.entryOf_of_mem (h : u.InStep) (he : e ∈ u.entries) : u.entryOf e.id = some e :=
  Roster.ofEntries_of_mem h.nodup he

/-- The next identity is not taken. -/
theorem InStep.entryOf_next (h : u.InStep) : u.entryOf ⟨u.session.made + 1⟩ = none := by
  refine List.find?_eq_none.2 fun e he heq => ?_
  have hle := h.made e.id (List.mem_map_of_mem he)
  rw [eq_of_beq heq] at hle
  exact Nat.not_succ_le_self _ hle

/-- Making an entry keeps a unit of work in step. -/
theorem InStep.append {t : EntityType} {s : Session} (h : u.InStep) (hs : u.session.Fills t e s) :
    (⟨u.entries ++ [e], s⟩ : UnitOfWork).InStep := by
  obtain ⟨hid, htype, hstate, hmodified, rfl⟩ := hs.fresh
  have hnew : u.entryOf e.id = none := hid ▸ h.entryOf_next
  have hids : (⟨u.entries ++ [e], u.session.countMade⟩ : UnitOfWork).ids = u.ids ++ [e.id] :=
    List.map_append
  refine ⟨?_, fun id hid' => ?_, ?_⟩
  · rw [hids]
    refine List.pairwise_append.2 ⟨h.ascending, List.pairwise_singleton .., fun id hid' last hlast => ?_⟩
    rw [List.mem_singleton.1 hlast, hid]
    exact Nat.lt_succ_of_le (h.made id hid')
  · rw [hids] at hid'
    rcases List.mem_append.1 hid' with hid' | hid'
    · exact Nat.le_succ_of_le (h.made id hid')
    · rw [List.mem_singleton.1 hid', hid]
      exact Nat.le_refl _
  · have hinsert := h.roster.insert hnew hstate (by rw [hmodified, htype, List.length_map])
    rw [entryOf_append hnew]
    exact ⟨hinsert.id, hinsert.flags, hinsert.listed, hinsert.ascending⟩

/-- So does an operation on one of the entries. -/
theorem InStep.put (h : u.InStep) (he : e ∈ u.entries) (op : EntryOperation) :
    (u.put (op.run ⟨e, u.session⟩)).InStep := by
  have hleads := op.leads_run ⟨e, u.session⟩
  have hentry := h.entryOf_of_mem he
  refine ⟨?_, ?_, ?_⟩
  · rw [ids_put]
    exact h.ascending
  · have hmade : (op.run ⟨e, u.session⟩).session.made = u.session.made := hleads.made
    rw [ids_put]
    change ∀ id ∈ u.ids, id.number ≤ (op.run ⟨e, u.session⟩).session.made
    rw [hmade]
    exact h.made
  · rw [entryOf_put hentry hleads.id]
    exact h.roster.leads hentry hleads

/-- So does a save of some of them. -/
theorem InStep.merge {chosen : List Entry} (h : u.InStep) (hchosen : ∀ e ∈ chosen, e ∈ u.entries)
    (d : Dialect) (executor : Executor) :
    (u.merge
      (Saving.save d executor { entries := chosen, session := u.session }).2).InStep := by
  have hlasting := (Roster.inStep_lasting .sparing).and (lasting_made .sparing u.session.made)
  obtain ⟨hroster, hmade⟩ := lasts_merge hlasting h.nodup hchosen d executor ⟨h.roster, rfl⟩
  refine ⟨?_, ?_, hroster⟩
  · rw [ids_merge]
    exact h.ascending
  · rw [ids_merge, hmade]
    exact h.made

theorem InStep.step (h : u.InStep) (hs : u.Step u') : u'.InStep := by
  rcases hs.cases with ⟨t, e, s, hfills, rfl⟩ | ⟨e, he, op, rfl⟩ | ⟨chosen, hchosen, d, executor, rfl⟩
  · exact h.append hfills
  · exact h.put he op
  · exact h.merge hchosen d executor

theorem inStep_start {s : Session} {model : Option Model} {registry : Registry}
    {generators : Generators} (h : Session.start model registry generators = .ok s) :
    (⟨[], s⟩ : UnitOfWork).InStep := by
  unfold Session.start at h
  split at h
  · rename_i model
    cases h
    have hnone : ∀ id e, (⟨[], { model, registry, generators }⟩ : UnitOfWork).entryOf id ≠ some e :=
      fun id e he => List.not_mem_nil (mem_of_entryOf he)
    exact ⟨List.Pairwise.nil, List.forall_mem_nil _,
      ⟨fun id e he => absurd he (hnone id e), fun id e he => absurd he (hnone id e), fun _ => rfl,
        Tracker.ascending_empty⟩⟩
  · cases h

/-- After any steps a unit of work is in step. -/
theorem inStep_of_reachable (h : u.Reachable) : u.InStep := by
  induction h with
  | start h => exact inStep_start h
  | step _ hs ih => exact ih.step hs

end UnitOfWork

/-! ## The tracked set of entries -/

namespace Tracker

variable {t t' : Tracker} {id : EntryId} {u : Tracked} {entries : List Entry}

/-- The tracked set of some entries: those that are not unknown, in their order. -/
def ofEntries (entries : List Entry) : Tracker :=
  ⟨(entries.filter (·.state ≠ .unknown)).map fun e => (e.id, ⟨e.type.name, e.state⟩)⟩

/-- In ascending order what is listed is what is found. -/
theorem Ascending.mem_entries_iff (h : t.Ascending) : (id, u) ∈ t.entries ↔ t.find? id = some u := by
  obtain ⟨entries⟩ := t
  unfold Ascending find? at *
  induction entries with
  | nil => simp
  | cons entry entries ih =>
    obtain ⟨first, w⟩ := entry
    obtain ⟨hfirst, hrest⟩ := List.pairwise_cons.1 h
    dsimp only at ih ⊢
    rw [List.mem_cons, lookup_cons]
    split
    · rename_i hid
      subst hid
      have hnot : (id, u) ∉ entries := fun hmem => Nat.lt_irrefl _ (hfirst (id, u) hmem)
      simp [hnot, eq_comm]
    · rename_i hid
      simp [hid, ih hrest]

/-- Two tracked sets in order are the same if the same is found in them. -/
theorem Ascending.eq_of_find? (h : t.Ascending) (h' : t'.Ascending)
    (hfind : ∀ id, t.find? id = t'.find? id) : t = t' := by
  have hmem : ∀ entry, entry ∈ t.entries ↔ entry ∈ t'.entries := fun ⟨id, u⟩ => by
    rw [h.mem_entries_iff, h'.mem_entries_iff, hfind]
  let before (a b : EntryId × Tracked) : Prop := a.1.number < b.1.number
  have : Std.Irrefl before := ⟨fun a hlt => Nat.lt_irrefl _ hlt⟩
  have : Std.Antisymm before := ⟨fun a b hlt hgt => absurd hgt (Nat.lt_asymm hlt)⟩
  have hentries : t.entries = t'.entries := List.Pairwise.eq_of_mem_iff (r := before) h h' hmem
  exact congrArg Tracker.mk hentries

theorem ascending_ofEntries (h : (entries.map (·.id)).Pairwise fun a b => a.number < b.number) :
    (ofEntries entries).Ascending := by
  have hentries := List.pairwise_map.1 h
  exact List.pairwise_map.2 (hentries.filter _)

/-- What is found of an identity is how the entry of the identity is listed. -/
theorem find?_ofEntries (h : (entries.map (·.id)).Pairwise fun a b => a.number < b.number)
    (id : EntryId) :
    (ofEntries entries).find? id = (Roster.ofEntries entries id).bind Entry.listing := by
  have hnodup : (entries.map (·.id)).Nodup := nodup_of_ascending h
  refine Option.ext fun u => ?_
  rw [← (ascending_ofEntries h).mem_entries_iff, Option.bind_eq_some_iff, ofEntries, List.mem_map]
  constructor
  · rintro ⟨e, he, heq⟩
    obtain ⟨he, hstate⟩ := List.mem_filter.1 he
    cases heq
    exact ⟨e, Roster.ofEntries_of_mem hnodup he,
      Entry.listing_eq_some_iff.2 ⟨of_decide_eq_true hstate, rfl⟩⟩
  · rintro ⟨e, he, hlisting⟩
    obtain ⟨hstate, rfl⟩ := Entry.listing_eq_some_iff.1 hlisting
    have hmem : e ∈ entries := List.mem_of_find?_eq_some he
    refine ⟨e, List.mem_filter.2 ⟨hmem, decide_eq_true hstate⟩, ?_⟩
    rw [Roster.id_of_ofEntries he]

end Tracker

namespace UnitOfWork

variable {u : UnitOfWork}

/-- **The tracked set agrees with the entries.** Whatever is done to the entries of a session, the
tracked set lists those that are not unknown, each with the name of its entity type and its state,
in strictly ascending order of their identities. -/
theorem tracker_of_reachable (h : u.Reachable) :
    u.session.tracker = .ofEntries u.entries ∧ u.session.tracker.Ascending := by
  have hstep := inStep_of_reachable h
  refine ⟨hstep.roster.ascending.eq_of_find? (Tracker.ascending_ofEntries hstep.ascending)
    fun id => ?_, hstep.roster.ascending⟩
  rw [hstep.roster.listed, Tracker.find?_ofEntries hstep.ascending]
  rfl

theorem tracker_of_reachable_notes : Notes.working.Reachable ∧
    Notes.working.session.tracker = .ofEntries Notes.working.entries ∧
    Tracker.ofEntries Notes.working.entries =
      ⟨[(⟨1⟩, ⟨"Note", .modified⟩), (⟨3⟩, ⟨"Note", .added⟩)]⟩ :=
  ⟨Notes.working_reachable, (tracker_of_reachable Notes.working_reachable).1, rfl⟩

end UnitOfWork

end EntityMapper
