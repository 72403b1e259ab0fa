import EntityMapper.Proofs.Tracking.Refitting

/-!
# The shape of entries

The slots of an entry are found by the positions that properties carry. An entry is in shape
(`Entry.InShape`) if it has one slot of each kind for each property of its entity type, and its
sidecars and its relationship snapshot are about properties of its entity type only
(`Entry.Furnished`). Then every property that the entity type owns has its slots
(`Entry.InShape.inRange`), and one that it does not own is refused wherever it is given
(`Entry.Furnished.rejects`).

The slots are there from the making of an entry on. Operations keep the rest
(`EntryOperation.furnished_run`): all but those that detach sidecars refit the entry.
-/

namespace EntityMapper

open Stepwise

/-! ## Sidecars and snapshots -/

/-- An entry with sidecars of different names, which cover properties of its entity type, and with a
snapshot for positions of such properties. -/
structure Entry.Furnished (e : Entry) : Prop where
  names : e.sidecarNames.Nodup
  covered : ∀ s ∈ e.sidecars, ∀ p ∈ s.covered, e.type.owns p = true
  snapshot : ∀ seen ∈ e.snapshot, seen.1 < e.type.properties.length

namespace Entry.Furnished

variable {e e' : Entry} {s : Sidecar} {p : Property} {v : Value}

/-- A sidecar for owned properties may be attached. -/
theorem attach (h : e.Furnished) (hs : ∀ p ∈ s.covered, e.type.owns p = true) :
    (e.attach s).Furnished where
  names := nodup_attachTo h.names
  covered t ht := by
    rcases mem_attachTo ht with rfl | ht
    · exact hs
    · exact h.covered t ht
  snapshot := h.snapshot

/-- Sidecars may be detached. -/
theorem of_sublist {sidecars : List Sidecar} (h : e.Furnished)
    (hsub : sidecars.Sublist e.sidecars) : Furnished { e with sidecars } where
  names := h.names.sublist (hsub.map _)
  covered t ht := h.covered t (hsub.mem ht)
  snapshot := h.snapshot

theorem mem_put {index : Nat} {seen : Nat × Value} {values : List (Nat × Value)}
    (h : seen ∈ Sidecar.put index v values) : seen.1 = index ∨ seen ∈ values := by
  induction values with
  | nil =>
    rw [List.mem_singleton.1 h]
    exact .inl rfl
  | cons first rest ih =>
    unfold Sidecar.put at h
    split at h
    · rename_i hindex
      rcases List.mem_cons.1 h with rfl | h
      · exact .inl hindex
      · exact .inr (List.mem_cons_of_mem _ h)
    · rcases List.mem_cons.1 h with rfl | h
      · exact .inr List.mem_cons_self
      · exact (ih h).imp_right (List.mem_cons_of_mem _)

theorem refit (h : e.Furnished) (hr : e.Refit e') : e'.Furnished := by
  cases hr with
  | values type sidecars snapshot =>
    refine ⟨?_, ?_, ?_⟩
    · rw [sidecarNames, sidecars]
      exact h.names
    · rw [sidecars, type]
      exact h.covered
    · rw [snapshot, type]
      exact h.snapshot
  | attach hs =>
    refine h.attach fun p hp => ?_
    rcases hs.covered p hp with howns | ⟨t, ht, hp⟩
    · exact howns
    · exact h.covered t ht p hp
  | record howns v =>
    refine ⟨h.names, h.covered, fun seen hseen => ?_⟩
    rcases mem_put hseen with hindex | hseen
    · rw [hindex]
      exact EntityType.index_lt_of_owns howns
    · exact h.snapshot seen hseen

theorem refits (h : e.Furnished) (hr : e.Refits e') : e'.Furnished := by
  induction hr with
  | refl => exact h
  | tail _ hs ih => exact ih.refit hs

end Entry.Furnished

/-! ## Operations -/

/-- A sidecar is attached if it covers owned properties only; otherwise one that it covers is
refused. -/
theorem Entry.attachOwned_cases (e : Entry) (s : Sidecar) :
    ((∀ p ∈ s.covered, e.type.owns p = true) ∧ e.attachOwned s = .ok (e.attach s)) ∨
    ∃ p ∈ s.covered, e.type.owns p = false ∧
      e.attachOwned s = .error (.notFound .property p.name (some e.type.name)) := by
  cases hcheck : s.covered.forM e.requireOwned with
  | ok _ =>
    refine .inl ⟨fun p hp => owns_of_requireOwned (Result.forM_eq_ok_iff.1 hcheck p hp), ?_⟩
    rw [attachOwned, hcheck]
    rfl
  | error err =>
    obtain ⟨p, hp, herr⟩ := Result.exists_of_forM_error hcheck
    have howns : e.type.owns p = false := by
      rw [← Bool.not_eq_true]
      intro howns
      rw [requireOwned, if_pos howns] at herr
      cases herr
    obtain rfl := Except.error.inj (herr.symm.trans (requireOwned_of_not_owns howns))
    refine .inr ⟨p, hp, howns, ?_⟩
    rw [attachOwned, hcheck]
    rfl

namespace EntryOperation

variable {s : Scope} {op : EntryOperation}

/-- The operations that detach sidecars. -/
def detaches : EntryOperation → Bool
  | detach _ | commit | rollBack => true
  | _ => false

/-- All operations refit the entry but those that detach sidecars, and the one that attaches what it
is given. -/
theorem refits_run (placed : s.entry.type.Placed) (names : s.entry.sidecarNames.Nodup)
    (hattach : ∀ t, op ≠ attach t) (hdetaches : op.detaches = false) :
    s.entry.Refits (op.run s).entry := by
  suffices hkeeps : Keeps (fun s' => s.entry.Refits s'.entry) op.action from hkeeps s (.refl _)
  cases op with
  | set p v => exact Action.set_refits placed names p v
  | setNamed name v => exact Action.setNamed_refits placed names name v
  | setModified p on => exact Action.refits_unmarked.keeps_setModified p on
  | setState target => exact Action.setState_refits placed names target
  | accept => exact Action.accept_refits placed names
  | detect => exact (Action.detect_refits placed).bind fun _ => keeps_pure _
  | setBaselineValue p v =>
    exact Action.update_refits fun _ _ htype => Entry.setBaselineValue_refits (htype ▸ placed)
  | setSnapshotValue p v => exact Action.update_refits fun _ _ _ => Entry.setSnapshotValue_refits
  | attach t => exact absurd rfl (hattach t)
  | setSidecarValue name p v =>
    exact Action.update_refits fun _ _ _ => Entry.setSidecarValue_refits
  | fillSidecar name p v => exact Action.update_refits fun _ _ _ => Entry.fill_refits
  | removeSidecarValue name p => exact Action.update_refits fun _ _ _ => Entry.remove_refits
  | clearSidecar name => exact Action.update_refits fun _ _ _ => Entry.clear_refits
  | prepare => exact Action.modifyEntry_refits fun _ htype => Entry.prepare_refits (htype ▸ placed)
  | receive c row => exact Action.receive_refits placed c row
  | mutate change =>
    exact Action.modifyEntry_refits fun _ _ => .of_refit (.values rfl rfl rfl)
  | detach _ | commit | rollBack => cases hdetaches

theorem run_attach_cases (t : Sidecar) (s : Scope) : (attach t).run s = s ∨
    (∀ p ∈ t.covered, s.entry.type.owns p = true) ∧
      (attach t).run s = { s with entry := s.entry.attach t } := by
  have hrun : perform (attach t).action s = _ := Action.perform_update (·.attachOwned t) s
  rcases s.entry.attachOwned_cases t with ⟨howns, hattach⟩ | ⟨p, -, -, hattach⟩
  · rw [hattach] at hrun
    exact .inr ⟨howns, congrArg Prod.snd hrun⟩
  · rw [hattach] at hrun
    exact .inl (congrArg Prod.snd hrun)

/-- Whatever is done to an entry, its sidecars and its snapshot are about its own properties. -/
theorem furnished_run (h : s.entry.Furnished) (placed : s.entry.type.Placed) (op : EntryOperation) :
    (op.run s).entry.Furnished := by
  by_cases hattach : ∃ t, op = attach t
  · obtain ⟨t, rfl⟩ := hattach
    rcases run_attach_cases t s with hrun | ⟨howns, hrun⟩
    · rwa [hrun]
    · rw [hrun]
      exact h.attach howns
  · cases hdetaches : op.detaches with
    | false =>
      exact h.refits (refits_run placed h.names (fun t heq => hattach ⟨t, heq⟩) hdetaches)
    | true =>
      cases op with
      | detach name => exact h.of_sublist List.eraseP_sublist
      | rollBack => exact h.of_sublist List.filter_sublist
      | commit => exact (h.of_sublist List.filter_sublist).refits (Action.commit_refits h.covered)
      | _ => cases hdetaches

/-- The sidecars that are there stay in order, and others come after them. -/
theorem names_prefix_run (h : s.entry.Furnished) (placed : s.entry.type.Placed)
    (hdetaches : op.detaches = false) :
    s.entry.sidecarNames <+: (op.run s).entry.sidecarNames := by
  by_cases hattach : ∃ t, op = attach t
  · obtain ⟨t, rfl⟩ := hattach
    rcases run_attach_cases t s with hrun | ⟨-, hrun⟩
    · rw [hrun]
    · rw [hrun]
      exact Entry.names_prefix_attachTo t _
  · exact (refits_run placed h.names (fun t heq => hattach ⟨t, heq⟩) hdetaches).names

/-- Detaching leaves the others in order. -/
theorem names_sublist_run (hdetaches : op.detaches = true) (s : Scope) :
    (op.run s).entry.sidecarNames.Sublist s.entry.sidecarNames := by
  cases op with
  | detach name => exact List.eraseP_sublist.map _
  | rollBack => exact List.filter_sublist.map _
  | commit =>
    have hframe := congrArg Entry.sidecars (Action.frame_commit s)
    have hsidecars : (commit.run s).entry.sidecars = s.entry.rollBack.sidecars := hframe
    rw [Entry.sidecarNames, hsidecars]
    exact List.filter_sublist.map _
  | _ => cases hdetaches

end EntryOperation

/-! ## Slots -/

/-- An entry with one slot of each kind for each property, an accessor for all properties but shadow
properties, and sidecars and a snapshot for its own properties. -/
structure Entry.InShape (e : Entry) : Prop extends e.Furnished where
  accessors : e.accessors.length = e.type.properties.length
  flags : e.modified.length = e.type.properties.length
  shadow : e.shadow.length = e.type.properties.length
  shadowed : ∀ p ∈ e.type.properties, p.shadow = true ↔ e.accessors[p.index]? = some none

/-- The position of a property is in range of all slots of an entry. -/
structure Entry.InRange (e : Entry) (p : Property) : Prop where
  accessor : p.index < e.accessors.length
  flag : p.index < e.modified.length
  shadow : p.index < e.shadow.length

/-- What can be asked of an entry about a property, or done to it. -/
inductive PropertyUse
  | get
  | isModified
  | baselineValue
  | snapshotValue
  | sidecarValue (name : String)
  | set (v : Value)
  | setModified (on : Bool)
  | setBaselineValue (v : Value)
  | setSnapshotValue (v : Value)
  | setSidecarValue (name : String) (v : Value)

/-- What a use of a property does, without the answer. -/
def PropertyUse.action (p : Property) : PropertyUse → Action Unit
  | get => do let _ ← Action.read (·.get p)
  | isModified => do let _ ← Action.read (·.isModified p)
  | baselineValue => do let _ ← Action.read (·.baselineValue p)
  | snapshotValue => do let _ ← Action.read (·.snapshotValue p)
  | sidecarValue name => do let _ ← Action.read (·.sidecarValue name p)
  | set v => (EntryOperation.set p v).action
  | setModified on => (EntryOperation.setModified p on).action
  | setBaselineValue v => (EntryOperation.setBaselineValue p v).action
  | setSnapshotValue v => (EntryOperation.setSnapshotValue p v).action
  | setSidecarValue name v => (EntryOperation.setSidecarValue name p v).action

/-- A property is refused: whatever is asked or done with it, it is not found, and nothing is done. A
sidecar that covers it is not attached, and none that is attached holds a value for it. -/
structure Entry.Rejects (e : Entry) (session : Session) (p : Property) : Prop where
  uses : ∀ use : PropertyUse, perform (use.action p) ⟨e, session⟩ =
    (.error (.notFound .property p.name (some e.type.name)), ⟨e, session⟩)
  attach : ∀ s : Sidecar, p ∈ s.covered → ∃ q ∈ s.covered, e.type.owns q = false ∧
    perform (EntryOperation.attach s).action ⟨e, session⟩ =
      (.error (.notFound .property q.name (some e.type.name)), ⟨e, session⟩)
  fill : ∀ name v, ∃ kind item owner,
    perform (EntryOperation.fillSidecar name p v).action ⟨e, session⟩ =
      (.error (.notFound kind item owner), ⟨e, session⟩)
  remove : ∀ name, (EntryOperation.removeSidecarValue name p).run ⟨e, session⟩ = ⟨e, session⟩

namespace Entry

variable {e : Entry} {session : Session} {p : Property}

/-- Owned properties have their slots. -/
theorem InShape.inRange (h : e.InShape) (howns : e.type.owns p = true) : e.InRange p where
  accessor := h.accessors ▸ EntityType.index_lt_of_owns howns
  flag := h.flags ▸ EntityType.index_lt_of_owns howns
  shadow := h.shadow ▸ EntityType.index_lt_of_owns howns

/-- The check of a property comes first in whatever is done with it. -/
theorem perform_use_of_not_owns (h : e.type.owns p = false) (use : PropertyUse) :
    perform (use.action p) ⟨e, session⟩ =
      (.error (.notFound .property p.name (some e.type.name)), ⟨e, session⟩) := by
  have hrefused := requireOwned_of_not_owns h
  cases use with
  | get | isModified | baselineValue | snapshotValue | sidecarValue _ =>
    exact Action.perform_read_bind_of_error (Result.bind_of_error hrefused _) _
  | set v => exact Action.perform_read_bind_of_error hrefused _
  | setModified on => exact Action.perform_read_bind_of_error hrefused _
  | setBaselineValue v =>
    exact Action.perform_update_of_error (g := (·.setBaselineValue p v))
      (Result.bind_of_error hrefused _)
  | setSnapshotValue v =>
    exact Action.perform_update_of_error (g := (·.setSnapshotValue p v))
      (Result.bind_of_error hrefused _)
  | setSidecarValue name v =>
    exact Action.perform_update_of_error (g := (·.setSidecarValue name p v))
      (Result.bind_of_error hrefused _)

/-- Attaching a sidecar in its own place changes nothing. -/
theorem attach_self {t : Sidecar} (h : e.sidecar? t.name = some t) : e.attach t = e := by
  obtain ⟨-, before, after, hsidecars, hbefore⟩ := List.find?_eq_some_iff_append.1 h
  have hbefore : ∀ u ∈ before, u.name ≠ t.name := fun u hu => by simpa using hbefore u hu
  have hattach : attachTo t e.sidecars = e.sidecars := by
    rw [hsidecars, attachTo_append hbefore rfl]
  rw [attach, hattach]

namespace Furnished

variable (h : e.Furnished) (howns : e.type.owns p = false)
include h howns

/-- No attached sidecar covers a property that the entity type does not own. -/
theorem covers_of_not_owns {t : Sidecar} (ht : t ∈ e.sidecars) : t.covers p = false := by
  rw [← Bool.not_eq_true]
  intro hcovers
  obtain ⟨q, hq, hsame⟩ := List.any_eq_true.1 hcovers
  rw [← EntityType.owns_congr hsame, h.covered t ht q hq] at howns
  cases howns

theorem fill_of_not_owns (name : String) (v : Value) : ∃ kind item owner,
    perform (EntryOperation.fillSidecar name p v).action ⟨e, session⟩ =
      (.error (.notFound kind item owner), ⟨e, session⟩) := by
  obtain ⟨kind, item, owner, hfill⟩ : ∃ kind item owner,
      (do return e.attach (← (← e.sidecar name).set p v)) = .error (.notFound kind item owner) := by
    unfold sidecar
    split
    · rename_i t ht
      have hset : t.set p v =
          .error (.notFound .property p.name (some ("sidecar '" ++ t.name ++ "'"))) :=
        if_neg (by simp [h.covers_of_not_owns howns (List.mem_of_find?_eq_some ht)])
      exact ⟨_, _, _, Result.bind_of_error hset _⟩
    · exact ⟨.sidecar, name, _, rfl⟩
  exact ⟨kind, item, owner, Action.perform_update_of_error
    (g := fun e => do return e.attach (← (← e.sidecar name).set p v)) hfill⟩

theorem remove_of_not_owns (name : String) :
    (EntryOperation.removeSidecarValue name p).run ⟨e, session⟩ = ⟨e, session⟩ := by
  have hrun := congrArg Prod.snd (Action.perform_update
    (fun e => do return e.attach ((← e.sidecar name).remove p)) ⟨e, session⟩)
  cases hsidecar : e.sidecar name with
  | error err =>
    rw [hsidecar] at hrun
    exact hrun
  | ok t =>
    have hfound := sidecar?_of_sidecar hsidecar
    have hremove : t.remove p = t :=
      if_neg (by simp [h.covers_of_not_owns howns (List.mem_of_find?_eq_some hfound)])
    rw [hsidecar] at hrun
    have hrun : (EntryOperation.removeSidecarValue name p).run ⟨e, session⟩ =
        ⟨e.attach (t.remove p), session⟩ := hrun
    rw [hrun, hremove, attach_self hfound]

/-- Properties that the entity type does not own are refused. -/
theorem rejects : e.Rejects session p := by
  refine ⟨perform_use_of_not_owns howns, fun s hp => ?_, h.fill_of_not_owns howns,
    h.remove_of_not_owns howns⟩
  rcases e.attachOwned_cases s with ⟨hall, -⟩ | ⟨q, hq, hstrange, hattach⟩
  · rw [hall p hp] at howns
    cases howns
  · exact ⟨q, hq, hstrange, Action.perform_update_of_error (g := (·.attachOwned s)) hattach⟩

end Furnished

end Entry

end EntityMapper
