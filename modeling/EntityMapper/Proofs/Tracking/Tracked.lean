import EntityMapper.Proofs.Tracking.Lifecycle

/-!
# Entries in step

What the lifecycle of an entry has to be in step with: the tracked set and the modified flags.

* The tracked set lists the entry with the name of its entity type and its state, or not at all while
  it is unknown (`Entry.listing`). Each step of a lifecycle keeps that so, keeps the tracked set in
  ascending order, and leaves the listings of other entries alone (`Scope.Listed.leads`).
* Whether an entry is unchanged or modified shows in its flags (`Entry.WellFlagged`), after each step
  (`Entry.WellFlagged.leads`).
-/

namespace EntityMapper

/-! ## The tracked set -/

namespace Tracker

variable {t : Tracker} {id other : EntryId} {u : Tracked} {name : String} {state : EntityState}
  {entries : List (EntryId × Tracked)}

/-- What is known of an identity. -/
def find? (t : Tracker) (id : EntryId) : Option Tracked :=
  t.entries.lookup id

theorem lookup_cons : ((id, u) :: entries).lookup other =
    if other = id then some u else entries.lookup other := by
  rw [List.lookup_cons]
  by_cases h : other = id
  · simp [h]
  · simp [h, beq_eq_false_iff_ne.2 h]

theorem find?_start : (t.start id name state).find? other =
    if other = id then some ⟨name, state⟩ else t.find? other := by
  obtain ⟨entries⟩ := t
  change (insertEntry id ⟨name, state⟩ entries).lookup other = _
  unfold find?
  induction entries with
  | nil => exact lookup_cons
  | cons entry entries ih =>
    obtain ⟨first, u⟩ := entry
    unfold insertEntry
    split
    · exact lookup_cons
    split
    · rename_i h
      subst h
      rw [lookup_cons, lookup_cons]
      split <;> rfl
    · rename_i h
      rw [lookup_cons, lookup_cons, ih]
      split
      · rename_i hfirst
        rw [if_neg (hfirst ▸ Ne.symm h)]
      · rfl

theorem find?_stop : (t.stop id).find? other = if other = id then none else t.find? other := by
  obtain ⟨entries⟩ := t
  unfold find? stop
  induction entries with
  | nil => simp
  | cons entry entries ih =>
    obtain ⟨first, u⟩ := entry
    by_cases h : first = id
    · subst h
      rw [List.filter_cons_of_neg (by simp), ih]
      dsimp only
      rw [lookup_cons]
      split <;> rfl
    · rw [List.filter_cons_of_pos (by simpa using h)]
      dsimp only at ih ⊢
      rw [lookup_cons, lookup_cons, ih]
      split
      · rename_i hfirst
        rw [if_neg (hfirst ▸ h)]
      · rfl

theorem find?_update : (t.update id state).find? other =
    if other = id then (t.find? id).map fun u => { u with state } else t.find? other := by
  obtain ⟨entries⟩ := t
  unfold find? update
  induction entries with
  | nil => simp
  | cons entry entries ih =>
    obtain ⟨first, u⟩ := entry
    dsimp only at ih ⊢
    rw [List.map_cons]
    by_cases h : first = id
    · subst h
      rw [if_pos rfl, lookup_cons, lookup_cons, lookup_cons, ih]
      split <;> simp_all
    · rw [if_neg h, lookup_cons, lookup_cons, lookup_cons, ih, if_neg (Ne.symm h)]
      split
      · rename_i hfirst
        rw [if_neg (hfirst ▸ h)]
      · rfl

/-! ### Order -/

/-- The identities are listed in ascending order, each once. -/
def Ascending (t : Tracker) : Prop :=
  t.entries.Pairwise fun a b => a.1.number < b.1.number

theorem ascending_empty : empty.Ascending := List.Pairwise.nil

theorem mem_insertEntry {entry : EntryId × Tracked} (h : entry ∈ insertEntry id u entries) :
    entry = (id, u) ∨ entry ∈ entries := by
  induction entries with
  | nil => exact .inl (List.mem_singleton.1 h)
  | cons first entries ih =>
    unfold insertEntry at h
    split at h
    · exact List.mem_cons.1 h
    split at h
    · exact (List.mem_cons.1 h).imp_right (List.mem_cons_of_mem _)
    · rcases List.mem_cons.1 h with rfl | h
      · exact .inr List.mem_cons_self
      · exact (ih h).imp_right (List.mem_cons_of_mem _)

theorem Ascending.start (h : t.Ascending) (id : EntryId) (name : String) (state : EntityState) :
    (t.start id name state).Ascending := by
  obtain ⟨entries⟩ := t
  change (insertEntry id ⟨name, state⟩ entries).Pairwise _
  unfold Ascending at h
  induction entries with
  | nil => exact List.pairwise_singleton ..
  | cons first entries ih =>
    obtain ⟨hfirst, hrest⟩ := List.pairwise_cons.1 h
    unfold insertEntry
    split
    · rename_i hlt
      refine List.pairwise_cons.2 ⟨fun entry hentry => ?_, h⟩
      rcases List.mem_cons.1 hentry with rfl | hentry
      · exact hlt
      · exact Nat.lt_trans hlt (hfirst entry hentry)
    split
    · rename_i heq
      exact List.pairwise_cons.2 ⟨heq ▸ hfirst, hrest⟩
    · rename_i hle hne
      refine List.pairwise_cons.2 ⟨fun entry hentry => ?_, ih hrest⟩
      rcases mem_insertEntry hentry with rfl | hentry
      · have hnumber : first.1.number ≠ id.number := fun heq => hne (by
          obtain ⟨⟨n⟩, u⟩ := first
          obtain ⟨m⟩ := id
          exact congrArg EntryId.mk heq.symm)
        exact Nat.lt_of_le_of_ne (Nat.le_of_not_lt hle) hnumber
      · exact hfirst entry hentry

theorem Ascending.stop (h : t.Ascending) (id : EntryId) : (t.stop id).Ascending :=
  List.Pairwise.filter _ h

theorem Ascending.update (h : t.Ascending) (id : EntryId) (state : EntityState) :
    (t.update id state).Ascending := by
  refine List.pairwise_map.2 (List.Pairwise.imp (fun {a b} hlt => ?_) h)
  obtain ⟨first, u⟩ := a
  obtain ⟨second, w⟩ := b
  dsimp only
  split <;> split <;> exact hlt

end Tracker

/-! ## Listings -/

/-- How the tracked set lists an entry; not at all while it is unknown. -/
def Entry.listing (e : Entry) : Option Tracked :=
  if e.state.isTracked then some ⟨e.type.name, e.state⟩ else none

theorem Entry.listing_eq_some_iff {e : Entry} {u : Tracked} :
    e.listing = some u ↔ e.state ≠ .unknown ∧ u = ⟨e.type.name, e.state⟩ := by
  rw [listing]
  cases e.state <;> simp [EntityState.isTracked, eq_comm]

theorem Entry.Revalued.listing {e e' : Entry} (h : e.Revalued e') : e'.listing = e.listing := by
  rw [Entry.listing, Entry.listing, h.state, h.type]

namespace Scope

variable {moves : Moves} {s s' : Scope} {id : EntryId}

/-- The tracked set is in order, and lists the entry as it is. -/
structure Listed (s : Scope) : Prop where
  entry : s.session.tracker.find? s.entry.id = s.entry.listing
  ascending : s.session.tracker.Ascending

/-- After a move the tracked set lists the entry in its new state, and the others as before. -/
theorem Listed.find?_moveTo (h : s.Listed) (new : EntityState) (id : EntryId) :
    (s.moveTo new).session.tracker.find? id =
      if id = s.entry.id then (s.moveTo new).entry.listing else s.session.tracker.find? id := by
  have hentry := h.entry
  unfold Entry.listing at hentry
  unfold moveTo Entry.listing
  dsimp only
  cases new.isTracked with
  | false => exact Tracker.find?_stop
  | true =>
    cases htracked : s.entry.state.isTracked with
    | false => exact Tracker.find?_start
    | true =>
      rw [htracked] at hentry
      refine Tracker.find?_update.trans ?_
      rw [hentry]
      rfl

theorem Listed.moveTo (h : s.Listed) (new : EntityState) : (s.moveTo new).Listed where
  entry := (h.find?_moveTo new _).trans (if_pos rfl)
  ascending := by
    unfold Scope.moveTo
    dsimp only
    split
    · exact h.ascending.stop _
    split
    · exact h.ascending.update _ _
    · exact h.ascending.start _ _ _

theorem Listed.withFlags (h : s.Listed) (flags : List Bool) : (s.withFlags flags).Listed :=
  ⟨h.entry, h.ascending⟩

/-- One step keeps the entry listed, and the listings of the others. -/
theorem Listed.step (h : s.Listed) (hs : s.Step moves s') :
    s'.Listed ∧ ∀ id, id ≠ s.entry.id → s'.session.tracker.find? id = s.session.tracker.find? id := by
  have hmoved : ∀ flags new, ((s.withFlags flags).moveTo new).Listed ∧ ∀ id, id ≠ s.entry.id →
      ((s.withFlags flags).moveTo new).session.tracker.find? id = s.session.tracker.find? id :=
    fun flags new => ⟨(h.withFlags flags).moveTo new, fun id hid =>
      ((h.withFlags flags).find?_moveTo new id).trans (if_neg hid)⟩
  cases hs with
  | values hvalues =>
    exact ⟨⟨hvalues.id.symm ▸ h.entry.trans hvalues.listing.symm, h.ascending⟩, fun _ _ => rfl⟩
  | draw hg => exact ⟨⟨h.entry, h.ascending⟩, fun _ _ => rfl⟩
  | @flag i on hi =>
    rcases s.flag_cases i on with heq | heq | heq <;> rw [heq]
    · exact ⟨h.withFlags _, fun _ _ => rfl⟩
    · exact hmoved _ _
    · exact hmoved _ _
  | enter hmoves => exact hmoved _ _

/-- Any number of steps do. -/
theorem Listed.leads (h : s.Listed) (hs : s.Leads moves s') :
    s'.Listed ∧ ∀ id, id ≠ s.entry.id → s'.session.tracker.find? id = s.session.tracker.find? id := by
  induction hs with
  | refl => exact ⟨h, fun _ _ => rfl⟩
  | tail hs hstep ih =>
    obtain ⟨hlisted, hothers⟩ := ih
    obtain ⟨hlisted', hothers'⟩ := hlisted.step hstep
    refine ⟨hlisted', fun id hid => (hothers' id ?_).trans (hothers id hid)⟩
    rw [Leads.id hs]
    exact hid

end Scope

/-! ## Flags -/

/-- An entry has a flag for each property. None is set while it is unchanged, and some is set while
it is modified, unless all properties are in the key. -/
structure Entry.WellFlagged (e : Entry) : Prop where
  length : e.modified.length = e.type.properties.length
  unchanged : e.state = .unchanged → ∀ flag ∈ e.modified, flag = false
  modified : e.state = .modified → true ∈ e.modified ∨ ∀ p ∈ e.type.properties, e.type.inKey p = true

namespace Entry.WellFlagged

variable {moves : Scope.Moves} {e e' : Entry} {s s' : Scope}

theorem of_revalued (h : e.WellFlagged) (hvalues : e.Revalued e') : e'.WellFlagged where
  length := by rw [hvalues.modified, hvalues.type, h.length]
  unchanged := by
    rw [hvalues.modified, hvalues.state]
    exact h.unchanged
  modified := by
    rw [hvalues.modified, hvalues.state, hvalues.type]
    exact h.modified

/-- All properties outside the key are flagged. -/
theorem mem_flagAll (h : e.WellFlagged) {p : Property} (hp : p ∈ e.type.properties)
    (hkey : e.type.inKey p = false) : true ∈ e.flagAll.modified := by
  obtain ⟨i, hi, rfl⟩ := List.mem_iff_getElem.1 hp
  have hlt : i < e.modified.length := h.length ▸ hi
  have hlt' : i < e.flagAll.modified.length := by
    rw [flagAll, List.length_zipWith]
    exact Nat.lt_min.2 ⟨hi, hlt⟩
  refine List.mem_iff_getElem.2 ⟨i, hlt', ?_⟩
  simp [flagAll, hkey]

/-- The flags that go with a state are right for it. -/
theorem enter (h : s.entry.WellFlagged) (new : EntityState) : (s.enter new).entry.WellFlagged where
  length := by
    cases new with
    | modified =>
      refine (List.length_zipWith ..).trans ?_
      rw [h.length]
      exact Nat.min_self _
    | unchanged => exact (List.length_map ..).trans h.length
    | unknown | added | deleted => exact h.length
  unchanged := by
    rintro rfl flag hflag
    obtain ⟨_, -, rfl⟩ := List.mem_map.1 hflag
    rfl
  modified := by
    rintro rfl
    refine or_iff_not_imp_right.2 fun hkey => ?_
    push Not at hkey
    obtain ⟨p, hp, hkey⟩ := hkey
    exact h.mem_flagAll hp (Bool.eq_false_iff.2 hkey)

/-- Setting a flag, or taking it away, keeps flags and state in step. -/
theorem flag (h : s.entry.WellFlagged) {i : Nat} (hi : i < s.entry.type.properties.length)
    (on : Bool) : (s.flag i on).entry.WellFlagged := by
  have hlength : (s.entry.modified.set i on).length = s.entry.type.properties.length :=
    (List.length_set ..).trans h.length
  have hset : on ∈ s.entry.modified.set i on :=
    List.mem_set (h.length.symm ▸ hi) on
  unfold Scope.flag
  dsimp only
  split
  · rename_i hfirst
    obtain ⟨rfl, -⟩ := Bool.and_eq_true_iff.1 hfirst
    exact ⟨hlength, nofun, fun _ => .inl hset⟩
  split
  · rename_i hlast
    have hnone : ∀ flag ∈ s.entry.modified.set i on, flag = false := by
      simpa using (Bool.and_eq_true_iff.1 hlast).2
    exact ⟨hlength, fun _ => hnone, nofun⟩
  · rename_i hfirst hlast
    refine ⟨hlength, fun hstate flag hflag => ?_, fun hstate => .inl ?_⟩
    · have hstate : s.entry.state = .unchanged := hstate
      obtain rfl : on = false := by simpa [hstate] using hfirst
      exact (List.mem_or_eq_of_mem_set hflag).elim (h.unchanged hstate flag) fun heq => heq
    · have hstate : s.entry.state = .modified := hstate
      cases on with
      | true => exact hset
      | false =>
        have hsome : s.entry.state = .modified → true ∈ s.entry.modified.set i false := by
          simpa using hlast
        exact hsome hstate

/-- One step keeps flags and state in step. -/
theorem step (h : s.entry.WellFlagged) (hs : s.Step moves s') : s'.entry.WellFlagged := by
  cases hs with
  | values hvalues => exact h.of_revalued hvalues
  | draw hg => exact h
  | flag on hi => exact h.flag hi on
  | enter hmoves => exact h.enter _

/-- Any number of steps do. -/
theorem leads (h : s.entry.WellFlagged) (hs : s.Leads moves s') : s'.entry.WellFlagged := by
  induction hs with
  | refl => exact h
  | tail _ hstep ih => exact ih.step hstep

end Entry.WellFlagged

end EntityMapper
