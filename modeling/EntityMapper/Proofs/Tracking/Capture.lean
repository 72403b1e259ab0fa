import EntityMapper.Proofs.Tracking.Acceptance
import Mathlib.Data.List.Find

/-!
# Captured baseline values

The baseline value of a property is the one that was captured, and the primary value as long as none
was. So a write loses it unless it is captured first. This module has what keeps it, for entries
whose sidecar for baseline values is as the library makes it (`Entry.BuiltIn`):

* capturing the primary value of a property changes no baseline value, and from then on that of the
  property is held (`Entry.captures_of_captureBaseline`);
* writing a property whose baseline value is held changes none (`Entry.baselineValue_of_putPrimary`);
* sidecars of other names may come and go (`Entry.captured?_attach_of_ne`,
  `Entry.captured?_detach_of_ne`, `Entry.BuiltIn.captured?_rollBack`).
-/

namespace EntityMapper

namespace Entry

variable {e e' e₁ : Entry} {p q : Property} {v current : Value} {name : String}

/-! ## The built-in sidecar -/

theorem captured?_congr (h : q.same p = true) : e.captured? q = e.captured? p := by
  obtain ⟨howner, hindex⟩ := Property.same_iff.1 h
  have hget : ∀ s : Sidecar, s.get? q = s.get? p := by
    intro s
    simp only [Sidecar.get?, Sidecar.covers, Property.same, howner, hindex]
    rfl
  simp only [captured?, hget]

/-- What an entry has under the name of the sidecar for baseline values is as the library makes
it. -/
def BuiltIn (e : Entry) : Prop :=
  ∀ t ∈ e.sidecars, t.name = Sidecar.baselineName →
    ∃ values, t = Sidecar.baselineWith e.type.properties values

/-- Where the baseline is not captured lazily, that of each property is held. -/
def HoldsIfEager (e : Entry) : Prop :=
  e.type.capturesLazily = false → ∀ q, e.type.owns q = true → (e.captured? q).isSome

/-- The sidecar for baseline values; without values if there is none. -/
theorem BuiltIn.exists_values (h : e.BuiltIn) :
    ∃ values, (e.sidecar? Sidecar.baselineName).getD (.baseline e.type.properties) =
        Sidecar.baselineWith e.type.properties values ∧
      ∀ q, e.captured? q = (Sidecar.baselineWith e.type.properties values).get? q := by
  cases hs : e.sidecar? Sidecar.baselineName with
  | none =>
    refine ⟨[], rfl, fun q => ?_⟩
    rw [captured?, hs, Sidecar.get?]
    split <;> rfl
  | some s =>
    have hname : s.name = Sidecar.baselineName := by simpa using List.find?_some hs
    obtain ⟨values, rfl⟩ := h s (List.mem_of_find?_eq_some hs) hname
    refine ⟨values, rfl, fun q => ?_⟩
    rw [captured?, hs]
    rfl

/-- Baseline values are held of own properties only. -/
theorem BuiltIn.owns_of_captured (h : e.BuiltIn) (placed : e.type.Placed)
    (hcaptured : (e.captured? q).isSome) : e.type.owns q = true := by
  obtain ⟨values, -, hget⟩ := h.exists_values
  rw [hget, placed.get?_baselineWith] at hcaptured
  by_contra hnot
  rw [if_neg hnot] at hcaptured
  cases hcaptured

/-- The built-in sidecar is a matter of the sidecars alone. -/
theorem BuiltIn.of_members (h : e.BuiltIn) (htype : e'.type = e.type)
    (hmembers : ∀ t ∈ e'.sidecars, t ∈ e.sidecars ∨ t.name ≠ Sidecar.baselineName ∨
      ∃ values, t = Sidecar.baselineWith e.type.properties values) : e'.BuiltIn := by
  intro t ht hname
  rw [htype]
  rcases hmembers t ht with ht | hne | hmade
  · exact h t ht hname
  · exact absurd hname hne
  · exact hmade

/-! ## Capturing -/

/-- An entry and the same one with more baseline values held, none of them new. -/
structure Captures (e e' : Entry) : Prop where
  sidecars : ∃ sidecars, e' = { e with sidecars }
  members : ∀ t ∈ e'.sidecars, t ∈ e.sidecars ∨
    ∃ values, t = Sidecar.baselineWith e.type.properties values
  captured : ∀ q, (e.captured? q).isSome → (e'.captured? q).isSome
  baseline : ∀ q, e.type.owns q = true → e'.baselineValue q = e.baselineValue q

theorem Captures.refl (e : Entry) : e.Captures e :=
  ⟨⟨e.sidecars, rfl⟩, fun _ => .inl, fun _ h => h, fun _ _ => rfl⟩

theorem Captures.type (h : e.Captures e') : e'.type = e.type := by
  obtain ⟨_, rfl⟩ := h.sidecars
  rfl

theorem Captures.revalued (h : e.Captures e') : e.Revalued e' := by
  obtain ⟨_, rfl⟩ := h.sidecars
  exact e.revalued_sidecars _

theorem BuiltIn.of_captures (h : e.BuiltIn) (hc : e.Captures e') : e'.BuiltIn :=
  h.of_members hc.type fun t ht => (hc.members t ht).imp_right .inr

variable {values : List (Nat × Value)}

/-- What one more value in the built-in sidecar makes of the captured values. -/
theorem captured?_put (placed : e.type.Placed)
    (hget : ∀ q, e.captured? q = (Sidecar.baselineWith e.type.properties values).get? q)
    (p q : Property) (v : Value) :
    (e.attach (Sidecar.baselineWith e.type.properties (Sidecar.put p.index v values))).captured? q =
      if e.type.owns q ∧ q.index = p.index then some v else e.captured? q := by
  rw [captured?_attach rfl, hget, placed.get?_baselineWith, placed.get?_baselineWith]
  by_cases howns : e.type.owns q = true
  · by_cases hindex : q.index = p.index
    · simp [howns, hindex, Sidecar.lookup_put_self]
    · simp [howns, hindex, Sidecar.lookup_put_of_ne hindex]
  · simp [howns]

/-- One more value in the built-in sidecar loses none. -/
theorem isSome_captured?_put (placed : e.type.Placed)
    (hget : ∀ q, e.captured? q = (Sidecar.baselineWith e.type.properties values).get? q)
    (p : Property) (v : Value) (h : (e.captured? q).isSome) :
    ((e.attach (Sidecar.baselineWith e.type.properties
      (Sidecar.put p.index v values))).captured? q).isSome := by
  rw [captured?_put placed hget]
  split
  · rfl
  · exact h

/-- The primary value in the built-in sidecar, where there was none, is not new. -/
theorem captures_put (placed : e.type.Placed)
    (hget : ∀ q, e.captured? q = (Sidecar.baselineWith e.type.properties values).get? q)
    (hnone : e.captured? p = none) (howns : e.type.owns p = true)
    (hcurrent : e.primaryValue p = .ok current) :
    e.Captures (e.attach
      (Sidecar.baselineWith e.type.properties (Sidecar.put p.index current values))) where
  sidecars := ⟨_, rfl⟩
  members t ht := (mem_attachTo ht).symm.imp_right fun h => ⟨_, h⟩
  captured q h := isSome_captured?_put placed hget p current h
  baseline q hq := by
    rw [baselineValue_of_owns (e := e.attach _) hq, baselineValue_of_owns hq,
      captured?_put placed hget]
    by_cases hindex : q.index = p.index
    · rw [if_pos ⟨hq, hindex⟩, captured?_congr (EntityType.same_of_owns hq howns hindex), hnone]
      exact ((primaryValue_congr hindex).trans hcurrent).symm
    · rw [if_neg fun hplace => hindex hplace.2]
      rfl

/-- **Capturing** the primary value of a property keeps all baseline values. From then on that of
the property is held. -/
theorem captures_of_captureBaseline (placed : e.type.Placed) (hbase : e.BuiltIn)
    (hcurrent : e.primaryValue p = .ok current) (h : e.captureBaseline p current = .ok e₁) :
    e.Captures e₁ ∧ (e₁.captured? p).isSome := by
  obtain ⟨values, hsidecar, hget⟩ := hbase.exists_values
  unfold captureBaseline at h
  simp only [hsidecar] at h
  split at h
  · rename_i hvalue
    cases h
    exact ⟨.refl e, (congrArg Option.isSome (hget p)).trans hvalue⟩
  · rename_i hvalue
    have hnone : e.captured? p = none := by
      rw [hget]
      simpa [Sidecar.hasValue] using hvalue
    obtain ⟨s, hset, h⟩ := Result.bind_eq_ok_iff.1 h
    cases h
    obtain ⟨hcovers, rfl⟩ := Sidecar.set_eq_ok_iff.1 hset
    have howns : e.type.owns p = true := (placed.covers_baselineWith p values).symm.trans hcovers
    refine ⟨captures_put placed hget hnone howns hcurrent, ?_⟩
    have hheld : (e.attach (Sidecar.baselineWith e.type.properties
        (Sidecar.put p.index current values))).captured? p = some current :=
      (captured?_put placed hget p p current).trans (if_pos ⟨howns, rfl⟩)
    exact Option.isSome_of_eq_some hheld

/-- Capturing all baseline values, where the entity type asks for it, holds all of them. -/
theorem captureAllIfEager_spec (hv : e.Valid) (h : e.captureAllIfEager = .ok e₁) :
    (∀ t ∈ e₁.sidecars, t ∈ e.sidecars ∨
      ∃ values, t = Sidecar.baselineWith e.type.properties values) ∧ e₁.HoldsIfEager := by
  have htype : e₁.type = e.type := (captureAllIfEager_revalued h).type
  obtain ⟨vs, hvs⟩ := hv.mapM_primaryValue_ok e.type.properties
  unfold captureAllIfEager at h
  split at h
  · rename_i hlazy
    cases h
    refine ⟨fun _ => .inl, fun heager => ?_⟩
    rw [hlazy] at heager
    cases heager
  · obtain ⟨s, hs, h⟩ := Result.bind_eq_ok_iff.1 h
    cases h
    have hcapture := foldlM_capture (fun p hp => hp) hvs []
    obtain rfl := Except.ok.inj (hcapture.symm.trans hs)
    refine ⟨fun t ht => (mem_attachTo ht).symm.imp_right fun h => ⟨_, h⟩, fun _ q howns => ?_⟩
    obtain ⟨r, hr, hindex, -⟩ := hv.placed.exists_of_owns howns
    obtain ⟨v, -, hlookup⟩ := lookup_putAll_primaryValue hvs hr []
    have howns' : e.type.owns q = true := howns
    rw [captured?_attach rfl, hv.placed.get?_baselineWith, if_pos howns', ← hindex, hlookup]
    rfl

/-! ## Writing -/

/-- The fields of own properties are apart. -/
theorem FieldsApart.of_owns (apart : e.FieldsApart) (placed : e.type.Placed)
    (hp : e.type.owns p = true) (hq : e.type.owns q = true) (hne : p.index ≠ q.index) :
    e.Apart p q := by
  obtain ⟨p', hp', hpindex, -⟩ := placed.exists_of_owns hp
  obtain ⟨q', hq', hqindex, -⟩ := placed.exists_of_owns hq
  have happart := apart p' hp' q' hq' (by rw [hpindex, hqindex]; exact hne)
  unfold Apart accessor? at happart ⊢
  rwa [hpindex, hqindex] at happart

theorem captured?_of_sidecars (h : e'.sidecars = e.sidecars) (q : Property) :
    e'.captured? q = e.captured? q := by
  rw [captured?, captured?, sidecar?, sidecar?, h]

/-- Once the baseline value of a property is held, **writing** the property keeps the baseline. -/
theorem baselineValue_of_putPrimary (placed : e.type.Placed) (apart : e.FieldsApart)
    (hp : e.type.owns p = true) (hcaptured : (e.captured? p).isSome)
    (h : e.putPrimary p v = .ok e') (hq : e.type.owns q = true) :
    e'.baselineValue q = e.baselineValue q := by
  have htype : e'.type = e.type := (putPrimary_revalued h).type
  have hsame : e'.captured? q = e.captured? q := captured?_of_sidecars (putPrimary_sidecars h) q
  rw [baselineValue_of_owns (htype ▸ hq), baselineValue_of_owns hq, hsame]
  by_cases hindex : p.index = q.index
  · obtain ⟨w, hw⟩ := Option.isSome_iff_exists.1 hcaptured
    rw [captured?_congr (EntityType.same_of_owns hq hp hindex.symm), hw]
  · rw [primaryValue_of_putPrimary_apart (apart.of_owns placed hp hq hindex) hindex h]

/-! ## Other sidecars -/

theorem find?_attachTo_of_ne {s : Sidecar} {sidecars : List Sidecar} (h : s.name ≠ name) :
    (attachTo s sidecars).find? (·.name == name) = sidecars.find? (·.name == name) := by
  induction sidecars with
  | nil => simp [attachTo, h]
  | cons t rest ih =>
    unfold attachTo
    split
    · rename_i ht
      rw [List.find?_cons_of_neg (by simpa using h),
        List.find?_cons_of_neg (by simpa using ht ▸ h)]
    · rw [List.find?_cons, List.find?_cons, ih]

/-- A sidecar of another name captures nothing. -/
theorem captured?_attach_of_ne {s : Sidecar} (h : s.name ≠ Sidecar.baselineName) (q : Property) :
    (e.attach s).captured? q = e.captured? q := by
  rw [captured?, captured?]
  exact congrArg (Option.bind · _) (find?_attachTo_of_ne h)

theorem find?_eraseP_of_ne {sidecars : List Sidecar} {other : String} (h : other ≠ name) :
    (sidecars.eraseP (·.name == other)).find? (·.name == name) =
      sidecars.find? (·.name == name) := by
  induction sidecars with
  | nil => rfl
  | cons t rest ih =>
    by_cases ht : t.name = other
    · rw [List.eraseP_cons_of_pos (by simpa using ht),
        List.find?_cons_of_neg (by simpa using ht ▸ h)]
    · rw [List.eraseP_cons_of_neg (by simpa using ht), List.find?_cons, List.find?_cons, ih]

theorem captured?_detach_of_ne (h : name ≠ Sidecar.baselineName) (q : Property) :
    (e.detach name).captured? q = e.captured? q := by
  rw [captured?, captured?]
  exact congrArg (Option.bind · _) (find?_eraseP_of_ne h)

/-- Dropping what would be committed drops no baseline values. -/
theorem BuiltIn.captured?_rollBack (h : e.BuiltIn) (q : Property) :
    e.rollBack.captured? q = e.captured? q := by
  have hkept : ∀ t ∈ e.sidecars, decide ((!t.autoCommit) = true ∧
      (t.name == Sidecar.baselineName) = true) = (t.name == Sidecar.baselineName) := by
    intro t ht
    by_cases hname : t.name = Sidecar.baselineName
    · obtain ⟨values, rfl⟩ := h t ht hname
      rfl
    · simp [hname]
  have hfind : e.rollBack.sidecar? Sidecar.baselineName = e.sidecar? Sidecar.baselineName :=
    List.find?_filter.trans (List.find?_congr hkept)
  rw [captured?, captured?, hfind]

end Entry

end EntityMapper
