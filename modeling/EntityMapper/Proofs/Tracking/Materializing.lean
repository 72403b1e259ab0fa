import EntityMapper.Proofs.Tracking.Baseline
import EntityMapper.Proofs.Tracking.Fields

/-!
# Entries made from values

An entry is made from values by loading one after the other into a new entry. Each goes through the
coercion of its property, and then the storage takes it (`Entry.exists_loaded`). So an entry can be
made of values that can be coerced (`Session.exists_materialized`), and of no others
(`Session.coerced_of_materialize`), and it shows what they were coerced to, as its current values and
as its baseline.
-/

namespace EntityMapper

/-- What some values are coerced to, each by its property. -/
abbrev Coerced (values : List (Property × Value)) (ws : List Value) : Prop :=
  List.Forall₂ (fun pv w => pv.1.coerce pv.2 = .ok w) values ws

/-! ## Loading -/

namespace Entry

variable {e e' : Entry} {values : List (Property × Value)} {ws vs : List Value}

/-- Values that are coerced can be loaded into properties of their own. Then each is the primary
value of its property, and the other properties have the values that they had. -/
theorem exists_loaded (h : e.Declared) (hsub : ∀ pv ∈ values, pv.1 ∈ e.type.properties)
    (hnodup : (values.map (·.1.index)).Nodup) (hws : Coerced values ws) :
    ∃ e', values.foldlM (fun e (p, v) => Entry.load e p v) e = .ok e' ∧
      List.Forall₂ (fun pv w => e'.primaryValue pv.1 = .ok w) values ws ∧
      ∀ q ∈ e.type.properties, q.index ∉ values.map (·.1.index) →
        e'.primaryValue q = e.primaryValue q := by
  induction hws generalizing e with
  | nil => exact ⟨e, rfl, .nil, fun _ _ _ => rfl⟩
  | @cons pv w values ws hw _ ih =>
    obtain ⟨hp, hsub⟩ := List.forall_mem_cons.1 hsub
    obtain ⟨hnot, hnodup⟩ := List.nodup_cons.1 hnodup
    have htakes := Property.takes_of_coerce hw
    obtain ⟨e₁, hput⟩ := h.exists_putPrimary hp htakes
    have hrevalued := putPrimary_revalued hput
    have hp₁ : pv.1 ∈ e₁.type.properties := hrevalued.type ▸ hp
    obtain ⟨e', hfold, hloaded, hkept⟩ :=
      ih (h.of_make hrevalued.make) (fun pv hpv => hrevalued.type ▸ hsub pv hpv) hnodup
    refine ⟨e', Result.foldlM_cons_eq_ok_iff.2 ⟨e₁, load_eq_ok_iff.2 ⟨w, hw, hput⟩, hfold⟩,
      .cons ?_ hloaded, fun q hq hne => ?_⟩
    · rw [hkept pv.1 hp₁ hnot]
      exact h.primaryValue_of_putPrimary hp htakes hput
    · rw [List.map_cons, List.mem_cons, not_or] at hne
      rw [hkept q (hrevalued.type ▸ hq) hne.2]
      exact h.primaryValue_of_putPrimary_other hp hq (Ne.symm hne.1) hput

/-- Values that were loaded were coerced. -/
theorem coerced_of_loaded (h : values.foldlM (fun e (p, v) => Entry.load e p v) e = .ok e') :
    ∃ ws, Coerced values ws := by
  induction values generalizing e with
  | nil => exact ⟨[], .nil⟩
  | cons pv values ih =>
    obtain ⟨e₁, hload, h⟩ := Result.foldlM_cons_eq_ok_iff.1 h
    obtain ⟨w, hw, -⟩ := load_eq_ok_iff.1 hload
    obtain ⟨ws, hws⟩ := ih h
    exact ⟨w :: ws, .cons hw hws⟩

/-! ## Capturing -/

/-- A sidecar without values needs no clearing. -/
theorem clearBaseline_of_empty
    (h : e.sidecars = if e.type.native.isSome then [.baseline e.type.properties] else []) :
    e.clearBaseline = e := by
  obtain ⟨id, type, native, shadow, accessors, state, modified, sidecars, snapshot⟩ := e
  cases hnative : type.native.isSome with
  | false =>
    obtain rfl : sidecars = [] := h.trans (if_neg (by simp [hnative]))
    rfl
  | true =>
    obtain rfl : sidecars = [.baseline type.properties] := h.trans (if_pos hnative)
    rfl

/-- The baseline of a new entry can be captured, and is then its primary values. -/
theorem exists_captured (hv : e.Valid)
    (h : e.sidecars = if e.type.native.isSome then [.baseline e.type.properties] else []) :
    ∃ e', e.captureAllIfEager = .ok e' ∧ (∃ sidecars, e' = { e with sidecars }) ∧
      e'.OnlyBaseline ∧
      ∀ p ∈ e.type.properties, e'.baselineValue p = e.primaryValue p := by
  obtain ⟨vs, hvs⟩ := hv.mapM_primaryValue_ok e.type.properties
  have hcapture := captureAllIfEager_clearBaseline hvs
  have hempty := clearBaseline_of_empty h
  rw [hempty] at hcapture
  obtain ⟨sidecars, hrebased⟩ := e.rebased_eq vs
  refine ⟨e.rebased vs, hcapture, ⟨sidecars, hrebased⟩, fun t ht => ?_, fun p hp =>
    baselineValue_rebased hv.placed hvs (hv.placed.owns_of_mem hp)⟩
  have htype : (e.rebased vs).type = e.type := by rw [hrebased]
  have hbaseline : ∀ t ∈ e.sidecars, ∃ values, t = Sidecar.baselineWith e.type.properties values := by
    intro t ht
    rw [h] at ht
    split at ht
    · exact ⟨[], List.mem_singleton.1 ht⟩
    · cases ht
  rw [htype]
  unfold rebased at ht
  rw [hempty] at ht
  split at ht
  · exact hbaseline t ht
  · rcases mem_attachTo ht with rfl | ht
    · exact ⟨_, rfl⟩
    · exact hbaseline t ht

end Entry

/-! ## Making -/

/-- An entity type of which entries can be made: its native type is registered, with a fresh instance,
and with accessors for the fields that the properties are declared for. -/
structure EntityType.Equipped (t : EntityType) (r : Registry) : Prop extends t.Fielded r where
  accessors : ∀ p ∈ t.properties, p.shadow = false → ∃ a, r.accessorOf t p = .ok a
  fresh : ∀ native, t.native = some native → ∃ i, r.freshInstance native = .ok i

namespace Session

variable {s s' : Session} {t : EntityType} {e : Entry} {native : Option Instance}
  {values ws : List Value}

theorem sidecars_of_newEntry (h : s.newEntry t native = .ok e) :
    e.sidecars = if t.native.isSome then [.baseline t.properties] else [] := by
  obtain ⟨accessors, -, h⟩ := Result.bind_eq_ok_iff.1 h
  cases h
  rfl

/-- The instance that an entry is made around when it is made from values. -/
theorem exists_freshFor (ht : t.Equipped s.registry) : ∃ native, s.FreshFor t native := by
  cases hnative : t.native with
  | none => exact ⟨none, hnative.symm, nofun⟩
  | some native =>
    obtain ⟨i, hi⟩ := ht.fresh native hnative
    have htype := freshInstance_type hi
    exact ⟨some i, hnative ▸ congrArg some htype, by rintro _ ⟨⟩; rw [htype, hi]⟩

/-- **Making an entry from values** that are coerced by the properties, one for each. -/
theorem exists_materialized (ht : t.Equipped s.registry)
    (hlength : values.length = t.properties.length) (hws : Coerced (t.properties.zip values) ws) :
    ∃ e, s.materialize t values = .ok (e, s.countMade) ∧ e.values = .ok ws ∧
      List.Forall₂ (fun p w => e.baselineValue p = .ok w) t.properties ws := by
  obtain ⟨native, hfresh⟩ := exists_freshFor ht
  obtain ⟨e₁, he₁⟩ := exists_newEntry ht.accessors native
  have htype₁ : e₁.type = t := newEntry_type he₁
  have hsub : ∀ pv ∈ t.properties.zip values, pv.1 ∈ e₁.type.properties :=
    fun pv hpv => htype₁ ▸ (List.of_mem_zip hpv).1
  have hfst : (t.properties.zip values).map Prod.fst = t.properties :=
    List.map_fst_zip (Nat.le_of_eq hlength.symm)
  have hnodup : ((t.properties.zip values).map (·.1.index)).Nodup := by
    have hindex : (t.properties.zip values).map (·.1.index) = t.properties.map (·.index) :=
      List.map_map.symm.trans (congrArg (List.map Property.index) hfst)
    rw [hindex]
    exact ht.placed.nodup_index
  have hdeclared : e₁.Declared := newEntry_declared ht.toFielded hfresh.1 he₁
  obtain ⟨e₂, hload, hprimary, -⟩ := Entry.exists_loaded hdeclared hsub hnodup hws
  have hloads := Entry.loads_of_foldlM hsub hload
  have htype₂ : e₂.type = t := hloads.revalued.type.trans htype₁
  obtain ⟨e, hcapture, ⟨sidecars, rfl⟩, honly, hbaseline⟩ := Entry.exists_captured
    (hdeclared.of_make hloads.revalued.make).valid
    (by rw [hloads.sidecars, sidecars_of_newEntry he₁, htype₂])
  have hread : List.Forall₂ (fun p w => p ∈ t.properties ∧ e₂.primaryValue p = .ok w)
      t.properties ws := by
    refine (List.forall₂_and_left _ _).2 ⟨fun _ hp => hp, ?_⟩
    rw [← hfst, List.forall₂_map_left_iff]
    exact hprimary
  refine ⟨{ e₂ with sidecars }, materialize_eq_ok_iff.2
      ⟨hlength, native, hfresh, e₁, he₁, e₂, hload, hcapture, rfl⟩,
    Result.mapM_eq_ok_iff.2 ?_, hread.imp fun p w ⟨hp, hw⟩ => ?_⟩
  · have hread : List.Forall₂ (fun p w => p ∈ t.properties ∧ e₂.primaryValue p = .ok w)
        e₂.type.properties ws := htype₂ ▸ hread
    refine hread.imp fun p w ⟨hp, hw⟩ => ?_
    exact (honly.get (p := p) (htype₂ ▸ ht.placed.owns_of_mem hp)).trans hw
  · exact (hbaseline p (htype₂ ▸ hp)).trans hw

/-- **Values an entry is made from** are one for each property, and its property coerces each. -/
theorem coerced_of_materialize (h : s.materialize t values = .ok (e, s')) :
    values.length = t.properties.length ∧ ∃ ws, Coerced (t.properties.zip values) ws := by
  obtain ⟨hlength, _, -, _, -, _, hload, -⟩ := materialize_eq_ok_iff.1 h
  exact ⟨hlength, Entry.coerced_of_loaded hload⟩

end Session

end EntityMapper
