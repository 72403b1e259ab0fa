import EntityMapper.Proofs.Tracking.Stability

/-!
# Where baselines rest

A stable baseline rests on the built-in sidecar, and on fields that do not see each other. An entry
that has these is `Entry.Anchored`. The session makes such entries (`Session.Fills.anchored`), and
they stay so whatever is done to them, unless the sidecar for baseline values is attached, detached or
emptied by hand (`EntryOperation.anchored_runAll`): accepting changes empties it, too, but fills it
again where the entity type asks for that (`Action.accept_keeps_anchored`).
-/

namespace EntityMapper

open Stepwise

namespace Entry

variable {e e' : Entry} {s s' : Sidecar} {p : Property} {v : Value} {vs rs : List Value}

/-- A valid entry with fields that do not see each other and with the built-in sidecar for baseline
values, which holds all of them where they are captured at once. -/
structure Anchored (e : Entry) : Prop where
  valid : e.Valid
  apart : e.FieldsApart
  builtIn : e.BuiltIn
  eager : e.HoldsIfEager

/-- What keeps the baseline keeps what it rests on. -/
theorem Anchored.of_steady (h : e.Anchored) (hs : e.Steady e') : e'.Anchored where
  valid := h.valid.of_make hs.make
  apart := h.apart.of_make hs.make
  builtIn := hs.builtIn
  eager heager q howns := hs.captured q (h.eager (hs.type ▸ heager) q (hs.type ▸ howns))

/-- Values are no matter. -/
theorem Anchored.of_sidecars (h : e.Anchored) (hmake : e'.make = e.make)
    (hsidecars : e'.sidecars = e.sidecars) : e'.Anchored where
  valid := h.valid.of_make hmake
  apart := h.apart.of_make hmake
  builtIn := h.builtIn.of_members (congrArg Make.type hmake) fun _ ht => .inl (hsidecars ▸ ht)
  eager heager q howns := by
    have htype : e'.type = e.type := congrArg Make.type hmake
    rw [captured?_of_sidecars hsidecars]
    exact h.eager (htype ▸ heager) q (htype ▸ howns)

/-- One more value in the sidecar for baseline values, or another one. -/
theorem Anchored.set (h : e.Anchored)
    (hset : ((e.sidecar? Sidecar.baselineName).getD (.baseline e.type.properties)).set p v = .ok s) :
    (e.attach s).Anchored := by
  obtain ⟨values, hsidecar, hget⟩ := h.builtIn.exists_values
  rw [hsidecar] at hset
  obtain ⟨-, rfl⟩ := Sidecar.set_eq_ok_iff.1 hset
  have hmake := (e.revalued_sidecars (attachTo (Sidecar.baselineWith e.type.properties
    (Sidecar.put p.index v values)) e.sidecars)).make
  refine ⟨h.valid.of_make hmake, h.apart.of_make hmake, h.builtIn.of_members rfl fun t ht => ?_,
    fun heager q howns => ?_⟩
  · exact (mem_attachTo ht).symm.imp_right fun hmade => .inr ⟨_, hmade⟩
  · exact isSome_captured?_put h.valid.placed hget p v (h.eager heager q howns)

/-- A value in a sidecar of any name. -/
theorem Anchored.fill {name : String} (h : e.Anchored) (hs : e.sidecar name = .ok s)
    (hset : s.set p v = .ok s') : (e.attach s').Anchored := by
  by_cases hname : name = Sidecar.baselineName
  · subst hname
    have hfind : e.sidecar? Sidecar.baselineName = some s := by
      unfold sidecar at hs
      split at hs
      · rename_i hfind
        exact hfind.trans (congrArg some (Except.ok.inj hs))
      · cases hs
    exact h.set (by rwa [hfind])
  · exact h.of_steady ((Steady.refl h.builtIn).replace hname hs (name_of_set hset))

/-! ## Accepting -/

theorem BuiltIn.clearBaseline (h : e.BuiltIn) : e.clearBaseline.BuiltIn := by
  intro t ht hname
  rw [e.clearBaseline_revalued.type]
  rcases mem_sidecars_clearBaseline ht with ht | ⟨b, hb, rfl⟩
  · exact h t ht hname
  · obtain ⟨values, rfl⟩ := h b hb hname
    exact ⟨[], rfl⟩

/-- Emptied sidecars for baseline values are filled again where the entity type asks for it. -/
theorem Anchored.rebased (h : e.Anchored) (hvs : e.type.properties.mapM e.primaryValue = .ok vs) :
    (e.rebased vs).Anchored := by
  have hcleared := e.clearBaseline_revalued
  have hcapture := captureAllIfEager_clearBaseline hvs
  have hvalues := captureAllIfEager_revalued hcapture
  obtain ⟨hmembers, hheld⟩ :=
    captureAllIfEager_spec (h.valid.of_make hcleared.make) hcapture
  have hmake : (e.rebased vs).make = e.make := hvalues.make.trans hcleared.make
  exact ⟨h.valid.of_make hmake, h.apart.of_make hmake,
    h.builtIn.clearBaseline.of_members hvalues.type fun t ht => (hmembers t ht).imp_right .inr,
    hheld⟩

theorem Anchored.accepted (h : e.Anchored) (hvs : e.type.properties.mapM e.primaryValue = .ok vs) :
    (e.accepted vs rs).Anchored := by
  obtain ⟨sidecars, hrebased⟩ := e.rebased_eq vs
  refine (h.rebased hvs).of_sidecars ?_ ?_ <;> rw [Entry.accepted, hrebased] <;> rfl

end Entry

namespace Action

variable {α : Type}

/-- Actions after which the baseline rests on what it did before, also where they fail. -/
def KeepsAnchored (x : Action α) : Prop :=
  Keeps (fun s => s.entry.Anchored) x

theorem accept_keeps_anchored : KeepsAnchored accept := by
  rintro ⟨e, session⟩ h
  cases hstate : e.state with
  | unknown | unchanged =>
    have hrun : Stepwise.perform accept ⟨e, session⟩ = (.ok (), ⟨e, session⟩) := by
      rw [accept, perform_bind, perform_read]
      simp only [hstate]
      rfl
    rwa [hrun]
  | deleted =>
    rw [accept_deleted hstate]
    exact h.of_sidecars rfl rfl
  | added | modified =>
    obtain ⟨vs, hvs⟩ := h.valid.mapM_primaryValue_ok e.type.properties
    obtain ⟨rs, hrs⟩ :=
      h.valid.mapM_primaryValue_ok (e.type.properties.filter e.type.inRelationship)
    rw [perform_accept (by simp [hstate]) hvs hrs]
    exact h.accepted hvs

/-- A commit only drops what it commits. -/
theorem commit_keeps_anchored : KeepsAnchored commit := by
  intro s h
  have hsidecars := congrArg Entry.sidecars (frame_commit s)
  have hrolled := h.of_steady (Entry.Steady.refl h.builtIn).rollBack
  refine hrolled.of_sidecars ?_ hsidecars
  exact (commit_fixes_make s).trans (s.entry.revalued_sidecars _).make.symm

end Action

/-! ## Operations -/

namespace EntryOperation

variable {s : Scope}

/-- The operations that leave the sidecar for baseline values in its place, and its values. -/
def LeavesBuiltIn : EntryOperation → Prop
  | attach s => s.name ≠ Sidecar.baselineName
  | detach name | removeSidecarValue name _ | clearSidecar name => name ≠ Sidecar.baselineName
  | _ => True

/-- What is not meant to move the baseline leaves what it rests on. -/
theorem keeps_anchored_of_spares {op : EntryOperation}
    (hspares : ∀ t : EntityType, op.SparesBaseline t) (hmutate : ∀ change, op ≠ .mutate change) :
    Action.KeepsAnchored op.action :=
  fun s h => h.of_steady (keeps_baseline h.valid.placed h.apart (hspares _)
    (fun change heq => absurd heq (hmutate change)) s (.refl h.builtIn))

theorem keeps_anchored {op : EntryOperation} (h : op.LeavesBuiltIn) :
    Action.KeepsAnchored op.action := by
  cases op with
  | accept => exact Action.accept_keeps_anchored
  | commit => exact Action.commit_keeps_anchored
  | setBaselineValue p v =>
    refine Action.keeps_update_of fun e e' he hset => ?_
    obtain ⟨-, -, hset⟩ := Result.bind_eq_ok_iff.1 hset
    obtain ⟨w, -, hset⟩ := Result.bind_eq_ok_iff.1 hset
    obtain ⟨s, hs, hset⟩ := Result.bind_eq_ok_iff.1 hset
    cases hset
    exact he.set hs
  | setSidecarValue name p v =>
    refine Action.keeps_update_of fun e e' he hset => ?_
    obtain ⟨-, -, hset⟩ := Result.bind_eq_ok_iff.1 hset
    obtain ⟨w, -, hset⟩ := Result.bind_eq_ok_iff.1 hset
    obtain ⟨s, hs, hset⟩ := Result.bind_eq_ok_iff.1 hset
    obtain ⟨s', hs', hset⟩ := Result.bind_eq_ok_iff.1 hset
    cases hset
    exact he.fill hs hs'
  | fillSidecar name p v =>
    refine Action.keeps_update_of fun e e' he hset => ?_
    obtain ⟨s, hs, hset⟩ := Result.bind_eq_ok_iff.1 hset
    obtain ⟨s', hs', hset⟩ := Result.bind_eq_ok_iff.1 hset
    cases hset
    exact he.fill hs hs'
  | mutate change =>
    exact Action.keeps_modifyEntry_of fun e he =>
      he.of_sidecars (mutated_revalued e change).make rfl
  | attach | detach | removeSidecarValue | clearSidecar =>
    exact keeps_anchored_of_spares (fun _ => h) nofun
  | set | setNamed | setModified | setState | detect | setSnapshotValue | prepare | rollBack
  | receive => exact keeps_anchored_of_spares (fun _ => trivial) nofun

/-- **What baselines rest on** stays, whatever is done to an entry, unless its sidecar for baseline
values is attached, detached or emptied by hand. -/
theorem anchored_runAll {ops : List EntryOperation} (hops : ∀ op ∈ ops, op.LeavesBuiltIn)
    (h : s.entry.Anchored) : (runAll ops s).entry.Anchored := by
  induction ops generalizing s with
  | nil => exact h
  | cons op ops ih =>
    obtain ⟨hop, hops⟩ := List.forall_mem_cons.1 hops
    exact ih hops (keeps_anchored hop s h)

end EntryOperation

/-! ## New entries -/

namespace Session

variable {s s' : Session} {t : EntityType} {e : Entry}

/-- A new entry has the built-in sidecar. -/
theorem Fills.anchored (h : s.Fills t e s') (hr : s.registry.Sound) (ht : t.Placed)
    (apart : e.FieldsApart) : e.Anchored := by
  have hvalid := (h.makes hr ht).valid
  obtain ⟨native, e₁, e₂, -, he₁, hloads, hcapture, -⟩ := h
  have hcaptured := Entry.captureAllIfEager_revalued hcapture
  have hbase₁ : e₁.BuiltIn := by
    obtain ⟨accessors, -, he₁⟩ := Result.bind_eq_ok_iff.1 he₁
    cases he₁
    intro b hb _
    unfold Entry.fresh at hb
    dsimp only at hb
    split at hb
    · exact ⟨[], List.mem_singleton.1 hb⟩
    · cases hb
  have hbase₂ : e₂.BuiltIn := hbase₁.of_members hloads.revalued.type fun _ hb =>
    .inl (hloads.sidecars ▸ hb)
  obtain ⟨hmembers, hheld⟩ :=
    Entry.captureAllIfEager_spec (hvalid.of_make hcaptured.make.symm) hcapture
  exact ⟨hvalid, apart,
    hbase₂.of_members hcaptured.type fun b hb => (hmembers b hb).imp_right .inr, hheld⟩

end Session

end EntityMapper
