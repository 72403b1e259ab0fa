import EntityMapper.Proofs.Metadata.Consistency
import EntityMapper.Proofs.Native.Registration
import EntityMapper.Proofs.Tracking.Make

/-!
# Well-formed entries

`Entry.Valid` says that an entry has what its entity type asks for: properties at their places, a
shadow slot for each of them, and an instance behind its accessors. Then every primary value can be
read (`Entry.Valid.primaryValue_ok`).

The making of entries starts with it, each time under the next identity (`Session.Fills.makes`),
and it depends on the make of the entry alone, which no action changes (`Entry.Valid.of_make`).
-/

namespace EntityMapper

/-! ## Valid entries -/

/-- An entry with properties at their places, a shadow slot for each, and an instance of the native
type behind its accessors. -/
structure Entry.Valid (e : Entry) : Prop where
  placed : e.type.Placed
  shadow : e.shadow.length = e.type.properties.length
  native : ∀ a, some a ∈ e.accessors → ∃ i, e.native = some i ∧ i.type = a.owner

namespace Entry.Valid

variable {e e' : Entry}

/-- An entry of the same make is as valid. -/
theorem of_make (hv : e.Valid) (h : e'.make = e.make) : e'.Valid := by
  obtain ⟨-, htype, hacc, hnative, hshadow⟩ := Make.mk.inj h
  refine ⟨htype ▸ hv.placed, ?_, fun a ha => ?_⟩
  · rw [hshadow, htype, hv.shadow]
  · obtain ⟨i, hi, ht⟩ := hv.native a (hacc ▸ ha)
    rw [hi] at hnative
    obtain ⟨i', hi', ht'⟩ := Option.map_eq_some_iff.1 hnative
    exact ⟨i', hi', ht'.trans ht⟩

/-- Every primary value can be read. -/
theorem primaryValue_ok (hv : e.Valid) (p : Property) : ∃ v, e.primaryValue p = .ok v := by
  cases ha : e.accessor? p with
  | none => exact ⟨_, primaryValue_shadow ha⟩
  | some a =>
    obtain ⟨i, hi, ht⟩ := hv.native a (mem_accessors_of_accessor? ha)
    exact ⟨a.read i.fields, by rw [primaryValue_native ha hi, Accessor.get, if_pos ht]⟩

/-- So can every current value, and every baseline value. -/
theorem get_ok (hv : e.Valid) {p : Property} (howns : e.type.owns p = true) :
    ∃ v, e.get p = .ok v := by
  have howned : e.requireOwned p = .ok () := if_pos howns
  rw [get, howned]
  cases ho : e.overlay? p with
  | some v => exact ⟨v, rfl⟩
  | none => exact hv.primaryValue_ok p

theorem baselineValue_ok (hv : e.Valid) {p : Property} (howns : e.type.owns p = true) :
    ∃ v, e.baselineValue p = .ok v := by
  have howned : e.requireOwned p = .ok () := if_pos howns
  rw [baselineValue, howned]
  cases hc : e.captured? p with
  | some v => exact ⟨v, rfl⟩
  | none => exact hv.primaryValue_ok p

end Entry.Valid

/-! ## Loading values -/

namespace Entry

/-- An entry, and what becomes of it when values are loaded, one after the other. -/
inductive Loads : Entry → Entry → Prop
  | refl (e : Entry) : Loads e e
  | step {e e₁ e₂ : Entry} {p : Property} {v : Value} (hp : p ∈ e.type.properties)
      (h : e.load p v = .ok e₁) (hrest : Loads e₁ e₂) : Loads e e₂

variable {e e' : Entry} {p : Property} {v : Value}

theorem load_eq_ok_iff : e.load p v = .ok e' ↔ ∃ w, p.coerce v = .ok w ∧ e.putPrimary p w = .ok e' :=
  Result.bind_eq_ok_iff

theorem load_revalued (h : e.load p v = .ok e') : e.Revalued e' := by
  obtain ⟨w, -, hput⟩ := load_eq_ok_iff.1 h
  exact putPrimary_revalued hput

theorem loads_of_foldlM {values : List (Property × Value)}
    (hsub : ∀ pv ∈ values, pv.1 ∈ e.type.properties)
    (h : values.foldlM (fun e (p, v) => Entry.load e p v) e = .ok e') : e.Loads e' := by
  induction values generalizing e with
  | nil =>
    cases h
    exact .refl _
  | cons pv values ih =>
    obtain ⟨hp, hsub⟩ := List.forall_mem_cons.1 hsub
    obtain ⟨e₁, h₁, h⟩ := Result.foldlM_cons_eq_ok_iff.1 h
    exact .step hp h₁ (ih (fun pv hpv => (load_revalued h₁).type ▸ hsub pv hpv) h)

/-- Loading values changes nothing but values. -/
theorem Loads.revalued (h : e.Loads e') : e.Revalued e' := by
  induction h with
  | refl => exact .refl _
  | step _ h _ ih => exact (load_revalued h).trans ih

theorem Loads.sidecars (h : e.Loads e') : e'.sidecars = e.sidecars := by
  induction h with
  | refl => rfl
  | step _ h _ ih =>
    obtain ⟨w, -, hput⟩ := load_eq_ok_iff.1 h
    exact ih.trans (putPrimary_sidecars hput)

end Entry

/-! ## Making valid entries -/

/-- The accessors of a registry belong to the native types that they are registered for. -/
def Registry.Sound (r : Registry) : Prop :=
  ∀ native name a, r.accessor? native name = some a → a.owner = native

namespace Registry

theorem sound_empty : empty.Sound := fun _ _ _ h => nomatch h

/-- Registering accessors of a native type keeps a registry sound. -/
theorem Sound.register {r : Registry} {registration : Registration} (h : r.Sound)
    (howner : ∀ a ∈ registration.accessors, a.owner = registration.native) :
    (r.register registration).Sound := by
  intro native name a ha
  rw [register_eq, accessor?, FirstWins.find?_addAll, Option.or_eq_some_iff] at ha
  rcases ha with ha | ⟨-, ha⟩
  · exact h native name a ha
  · obtain ⟨b, hb, heq⟩ := List.mem_map.1 (FirstWins.mem_of_first? ha)
    cases heq
    exact howner a hb

end Registry

namespace Session

variable {s s' : Session} {t : EntityType} {e : Entry}

/-- A new entry is valid if it has an instance of the native type of its entity type. -/
theorem newEntry_valid {native : Option Instance} (hr : s.registry.Sound) (ht : t.Placed)
    (hn : native.map (·.type) = t.native) (h : s.newEntry t native = .ok e) : e.Valid := by
  obtain ⟨accessors, hacc, h⟩ := Result.bind_eq_ok_iff.1 h
  cases h
  refine ⟨ht, List.length_map .., fun a ha => ?_⟩
  obtain ⟨p, -, hp⟩ := Result.exists_of_mem_mapM hacc ha
  split at hp
  · cases hp
  · unfold Registry.accessorOf at hp
    split at hp
    · rename_i b hb
      cases hp
      obtain ⟨nt, hnt, hb⟩ := Option.bind_eq_some_iff.1 hb
      obtain ⟨i, hi, hit⟩ := Option.map_eq_some_iff.1 (hn.trans hnt)
      exact ⟨i, hi, hit.trans (hr nt p.name a hb).symm⟩
    · cases hp

theorem newEntry_type {native : Option Instance} (h : s.newEntry t native = .ok e) :
    e.type = t := by
  obtain ⟨accessors, -, h⟩ := Result.bind_eq_ok_iff.1 h
  cases h
  rfl

theorem newEntry_id {native : Option Instance} (h : s.newEntry t native = .ok e) :
    e.id = ⟨s.made + 1⟩ := by
  obtain ⟨accessors, -, h⟩ := Result.bind_eq_ok_iff.1 h
  cases h
  rfl

/-- The session makes a valid entry, under the next identity. -/
structure Makes (s : Session) (e : Entry) (s' : Session) : Prop where
  valid : e.Valid
  id : e.id = ⟨s.made + 1⟩
  made : s'.made = s.made + 1

theorem freshInstance_type {r : Registry} {native : NativeType} {i : Instance}
    (h : r.freshInstance native = .ok i) : i.type = native := by
  unfold Registry.freshInstance at h
  split at h
  · cases h
    rfl
  · cases h

/-- What the session makes of an entity type: a new entry around an instance of its native type,
with values loaded, and with its baseline captured if the entity type asks for it. -/
def Fills (s : Session) (t : EntityType) (e : Entry) (s' : Session) : Prop :=
  ∃ native e₁ e₂, native.map (·.type) = t.native ∧ s.newEntry t native = .ok e₁ ∧
    e₁.Loads e₂ ∧ e₂.captureAllIfEager = .ok e ∧ s' = s.countMade

/-- The session makes an entry of an entity type around some native instance, or around none. -/
def FillsFrom (s : Session) (t : EntityType) (native : Option Instance) (e : Entry) : Prop :=
  native.map (·.type) = t.native ∧ ∃ e₁ e₂, s.newEntry t native = .ok e₁ ∧ e₁.Loads e₂ ∧
    e₂.captureAllIfEager = .ok e

theorem FillsFrom.fills {native : Option Instance} (h : s.FillsFrom t native e) :
    s.Fills t e s.countMade := by
  obtain ⟨hnative, e₁, e₂, he₁, hloads, hcapture⟩ := h
  exact ⟨native, e₁, e₂, hnative, he₁, hloads, hcapture, rfl⟩

/-- An entry around an instance. -/
theorem adopt_fillsFrom {i : Instance} (h : s.adopt t i = .ok (e, s')) :
    s.FillsFrom t (some i) e ∧ s' = s.countMade := by
  unfold adopt at h
  split at h
  · cases h
  · rename_i native hnative
    split at h
    · rename_i hi
      obtain ⟨e₁, he, h⟩ := Result.bind_eq_ok_iff.1 h
      obtain ⟨e₂, hcap, h⟩ := Result.bind_eq_ok_iff.1 h
      cases h
      exact ⟨⟨by simp [hi, hnative], e₁, e₁, he, .refl e₁, hcap⟩, rfl⟩
    · cases h

theorem adopt_of_adoptByType {i : Instance} (h : s.adoptByType i = .ok (e, s')) :
    ∃ t, s.adopt t i = .ok (e, s') := by
  unfold adoptByType at h
  split at h
  · exact ⟨_, h⟩
  · cases h

/-- An instance to make an entry around from values: a fresh one, if there is a native type. -/
def FreshFor (s : Session) (t : EntityType) (native : Option Instance) : Prop :=
  native.map (·.type) = t.native ∧ ∀ i ∈ native, s.registry.freshInstance i.type = .ok i

/-- Going on with such an instance. -/
theorem freshFor_bind_iff {α : Type} {k : Option Instance → Result α} {r : α} :
    (match t.native with
      | some native => (s.registry.freshInstance native).map some >>= k
      | none => pure none >>= k) = .ok r ↔
    ∃ native, s.FreshFor t native ∧ k native = .ok r := by
  cases hnative : t.native with
  | none =>
    refine ⟨fun h => ⟨none, ⟨hnative.symm, nofun⟩, h⟩, ?_⟩
    rintro ⟨i, ⟨htype, -⟩, h⟩
    obtain rfl : i = none := Option.map_eq_none_iff.1 (htype.trans hnative)
    exact h
  | some native =>
    constructor
    · intro h
      obtain ⟨i, hi, h⟩ := Result.bind_eq_ok_iff.1 h
      obtain ⟨j, hj, rfl⟩ := Result.map_eq_ok_iff.1 hi
      have htype := freshInstance_type hj
      exact ⟨some j, ⟨hnative ▸ congrArg some htype, by rintro _ ⟨⟩; rw [htype, hj]⟩, h⟩
    · rintro ⟨i, ⟨htype, hfresh⟩, h⟩
      obtain ⟨j, rfl, rfl⟩ := Option.map_eq_some_iff.1 (htype.trans hnative)
      exact Result.bind_eq_ok_iff.2 ⟨some j, Result.map_eq_ok_iff.2 ⟨j, hfresh j rfl, rfl⟩, h⟩

/-- An entry is made from one value for each property, by loading them into a new one. -/
theorem materialize_eq_ok_iff {values : List Value} : s.materialize t values = .ok (e, s') ↔
    values.length = t.properties.length ∧ ∃ native, s.FreshFor t native ∧ ∃ e₁,
      s.newEntry t native = .ok e₁ ∧ ∃ e₂,
      (t.properties.zip values).foldlM (fun e (p, v) => Entry.load e p v) e₁ = .ok e₂ ∧
      e₂.captureAllIfEager = .ok e ∧ s' = s.countMade := by
  unfold materialize
  split
  · rename_i hlength
    rw [and_iff_right hlength]
    refine freshFor_bind_iff.trans ?_
    refine exists_congr fun native => and_congr_right fun _ => Result.bind_eq_ok_iff.trans ?_
    refine exists_congr fun e₁ => and_congr_right fun _ => Result.bind_eq_ok_iff.trans ?_
    refine exists_congr fun e₂ => and_congr_right fun _ => Result.bind_eq_ok_iff.trans ?_
    refine ⟨fun ⟨_, hcapture, h⟩ => ?_, fun ⟨hcapture, h⟩ => ⟨e, hcapture, ?_⟩⟩
    · cases h
      exact ⟨hcapture, rfl⟩
    · rw [h]
      rfl
  · rename_i hlength
    exact ⟨nofun, fun h => absurd h.1 hlength⟩

/-- An entry made from values is one around a fresh instance. -/
theorem materialize_fillsFrom {values : List Value} (h : s.materialize t values = .ok (e, s')) :
    ∃ native, (∀ i ∈ native, s.registry.freshInstance i.type = .ok i) ∧
      s.FillsFrom t native e ∧ s' = s.countMade := by
  obtain ⟨-, native, ⟨htype, hfresh⟩, e₁, he₁, e₂, he₂, hcapture, rfl⟩ := materialize_eq_ok_iff.1 h
  refine ⟨native, hfresh, ⟨htype, e₁, e₂, he₁, Entry.loads_of_foldlM (fun pv hpv => ?_) he₂, hcapture⟩,
    rfl⟩
  rw [newEntry_type he₁]
  exact (List.of_mem_zip hpv).1

theorem adopt_fills {i : Instance} (h : s.adopt t i = .ok (e, s')) : s.Fills t e s' := by
  obtain ⟨hfills, rfl⟩ := adopt_fillsFrom h
  exact hfills.fills

theorem materialize_fills {values : List Value} (h : s.materialize t values = .ok (e, s')) :
    s.Fills t e s' := by
  obtain ⟨native, -, hfills, rfl⟩ := materialize_fillsFrom h
  exact hfills.fills

/-- Such an entry is unknown and without flags, and it has the next identity. -/
theorem Fills.fresh (h : s.Fills t e s') :
    e.id = ⟨s.made + 1⟩ ∧ e.type = t ∧ e.state = .unknown ∧
      e.modified = t.properties.map (fun _ => false) ∧ s' = s.countMade := by
  obtain ⟨native, e₁, e₂, -, he₁, hloads, hcapture, rfl⟩ := h
  have hvalues := hloads.revalued.trans (Entry.captureAllIfEager_revalued hcapture)
  obtain ⟨accessors, -, he₁⟩ := Result.bind_eq_ok_iff.1 he₁
  cases he₁
  exact ⟨hvalues.id, hvalues.type, hvalues.state, hvalues.modified, rfl⟩

/-- Such an entry is valid. -/
theorem Fills.makes (h : s.Fills t e s') (hr : s.registry.Sound) (ht : t.Placed) :
    s.Makes e s' := by
  obtain ⟨native, e₁, e₂, hn, he₁, hloads, hcapture, rfl⟩ := h
  have hvalues := hloads.revalued.trans (Entry.captureAllIfEager_revalued hcapture)
  exact ⟨(newEntry_valid hr ht hn he₁).of_make hvalues.make, hvalues.id.trans (newEntry_id he₁), rfl⟩

end Session

end EntityMapper
