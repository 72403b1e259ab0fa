import EntityMapper.Proofs.Tracking.Baseline
import EntityMapper.Proofs.Tracking.Fields

/-!
# Blank entries

An entry is blank (`Entry.Blank`) if it is unknown, has no sidecars but the one for baseline values,
and holds a default or null for each property, in storage that takes every value of the property.

Every consistent entity type has blank entries (`Session.exists_blank`). Where there is a native type,
its instances may have fields that hold any values (`Registry.loose`).
-/

namespace EntityMapper

/-! ## Fields for any values -/

/-- The accessor of a field that holds values of any type. -/
def Accessor.loose (owner : NativeType) (name : String) : Accessor where
  owner
  name
  read fields := fields.get name
  write fields v := .ok (fields.set name v)

theorem Accessor.loose_serves (owner : NativeType) (name : String) (p : Property) :
    (loose owner name).Serves p :=
  fun fields v _ => ⟨_, rfl, fields.get_set_self name v⟩

theorem Accessor.loose_apart {owner owner' : NativeType} {name other : String} (h : other ≠ name) :
    (loose owner name).Apart (loose owner' other) := by
  intro fields v fields' hw
  cases hw
  exact fields.get_set_of_ne v h

namespace Registry

variable {native : NativeType} {names : List String} {name : String}

/-- A native type with fields of some names, for any values. -/
def loose (native : NativeType) (names : List String) : Registry :=
  empty.register ⟨native, none, names.map (.loose native)⟩

theorem accessor?_loose (h : name ∈ names) :
    (loose native names).accessor? native name = some (.loose native name) := by
  rw [accessor?, loose, register_eq, FirstWins.find?_addAll]
  refine Option.none_or.trans (FirstWins.first?_eq_some ?_ fun a ha => ?_)
  · exact List.mem_map_of_mem (List.mem_map_of_mem h)
  · obtain ⟨b, hb, heq⟩ := List.mem_map.1 ha
    obtain ⟨n, -, rfl⟩ := List.mem_map.1 hb
    cases heq
    rfl

theorem sound_loose : (loose native names).Sound := by
  refine sound_empty.register fun a ha => ?_
  obtain ⟨name, -, rfl⟩ := List.mem_map.1 ha
  rfl

/-- What may be registered for an entity type: fields for any values, if it has a native type. -/
def looseFor (t : EntityType) : Registry :=
  match t.native with
  | none => empty
  | some native => loose native (t.properties.map (·.name))

theorem sound_looseFor (t : EntityType) : (looseFor t).Sound := by
  unfold looseFor
  split
  · exact sound_empty
  · exact sound_loose

theorem accessorOf_looseFor {t : EntityType} {p : Property} (ht : t.Consistent)
    (hp : p ∈ t.properties) (hshadow : p.shadow = false) :
    ∃ native, t.native = some native ∧ (looseFor t).accessorOf t p = .ok (.loose native p.name) := by
  cases hnative : t.native with
  | none =>
    rw [ht.shadow hnative p hp] at hshadow
    cases hshadow
  | some native =>
    refine ⟨native, rfl, ?_⟩
    rw [looseFor, accessorOf, hnative]
    dsimp only [Option.bind_some]
    rw [accessor?_loose (List.mem_map_of_mem hp)]

end Registry

/-! ## Blank entries -/

/-- Each property has its default, or null. -/
def Entry.Defaulted (e : Entry) : Prop :=
  ∀ p ∈ e.type.properties, ∃ v, e.primaryValue p = .ok v ∧ (v = .null ∨ v = p.defaultValue)

/-- A new entry without values of its own, in storage that takes what its properties take. -/
structure Entry.Blank (t : EntityType) (e : Entry) : Prop where
  type : e.type = t
  unknown : e.state = .unknown
  declared : e.Declared
  onlyBaseline : e.OnlyBaseline
  defaulted : e.Defaulted

namespace Entry.Blank

variable {t : EntityType} {e : Entry} {p : Property}

/-- Other sidecars for baseline values are no matter. -/
theorem of_sidecars {sidecars : List Sidecar} (h : e.Blank t)
    (hs : ({ e with sidecars } : Entry).OnlyBaseline) : Entry.Blank t { e with sidecars } :=
  ⟨h.type, h.unknown, h.declared.of_make rfl, hs, h.defaulted⟩

/-- Null may be loaded into a shadow property. -/
theorem load (h : e.Blank t) (hp : p ∈ t.properties) (hshadow : p.shadow = true) :
    ∃ e', e.load p .null = .ok e' ∧ e'.Blank t := by
  have hp : p ∈ e.type.properties := h.type ▸ hp
  have hnull : p.coerce .null = .ok .null :=
    Property.coerce_eq_ok_iff.2 ⟨fun _ => .inr hshadow, p.valueType.coerce_null⟩
  have htakes := Property.takes_of_coerce hnull
  obtain ⟨e', hput⟩ := h.declared.exists_putPrimary hp htakes
  have hvalues := putPrimary_revalued hput
  refine ⟨e', load_eq_ok_iff.2 ⟨_, hnull, hput⟩, hvalues.type.trans h.type,
    hvalues.state.trans h.unknown, h.declared.of_make hvalues.make, fun b hb => ?_, fun q hq => ?_⟩
  · rw [hvalues.type]
    exact h.onlyBaseline b (putPrimary_sidecars hput ▸ hb)
  · rw [hvalues.type] at hq
    by_cases hindex : p.index = q.index
    · obtain rfl := h.declared.valid.placed.eq_of_index hp hq hindex
      exact ⟨_, h.declared.primaryValue_of_putPrimary hp htakes hput, .inl rfl⟩
    · rw [h.declared.primaryValue_of_putPrimary_other hp hq hindex hput]
      exact h.defaulted q hq

theorem foldlM_load {values : List (Property × Value)} (h : e.Blank t)
    (hvalues : ∀ pv ∈ values, pv.1 ∈ t.properties ∧ pv.1.shadow = true ∧ pv.2 = .null) :
    ∃ e', values.foldlM (fun e (p, v) => Entry.load e p v) e = .ok e' ∧ e'.Blank t := by
  induction values generalizing e with
  | nil => exact ⟨e, rfl, h⟩
  | cons pv values ih =>
    obtain ⟨p, v⟩ := pv
    obtain ⟨⟨hp, hshadow, rfl⟩, hrest⟩ := List.forall_mem_cons.1 hvalues
    obtain ⟨e₁, hload, h₁⟩ := h.load hp hshadow
    obtain ⟨e', hfold, h'⟩ := ih h₁ hrest
    exact ⟨e', Result.foldlM_cons_eq_ok_iff.2 ⟨e₁, hload, hfold⟩, h'⟩

/-- The baseline of a blank entry can be captured. -/
theorem captureAllIfEager (h : e.Blank t) :
    ∃ e', e.captureAllIfEager = .ok e' ∧ e'.Blank t := by
  cases hlazy : e.type.capturesLazily with
  | true => exact ⟨e, if_pos hlazy, h⟩
  | false =>
    obtain ⟨vs, hvs⟩ := h.declared.valid.mapM_primaryValue_ok e.type.properties
    refine ⟨_, (if_neg (by simp [hlazy])).trans (Result.bind_eq_ok_iff.2
      ⟨_, foldlM_capture (fun _ hp => hp) hvs [], rfl⟩), h.of_sidecars fun b hb => ?_⟩
    rcases mem_attachTo hb with rfl | hb
    · exact ⟨_, rfl⟩
    · exact h.onlyBaseline b hb

end Entry.Blank

/-! ## Making them -/

namespace Session

variable {s : Session} {t : EntityType} {e : Entry} {native : Option Instance}

theorem exists_newEntry_loose (ht : t.Consistent) (hr : s.registry = .looseFor t)
    (native : Option Instance) : ∃ e, s.newEntry t native = .ok e := by
  refine exists_newEntry (fun p hp hshadow => ?_) native
  obtain ⟨native, -, ha⟩ := Registry.accessorOf_looseFor ht hp hshadow
  exact ⟨_, hr ▸ ha⟩

/-- A new entry is blank if the fields of its instance are empty. -/
theorem newEntry_blank (ht : t.Consistent) (hr : s.registry = .looseFor t)
    (hnative : native.map (·.type) = t.native) (hfields : ∀ i ∈ native, i.fields = [])
    (h : s.newEntry t native = .ok e) : e.Blank t := by
  have htype : e.type = t := newEntry_type h
  have hvalid : e.Valid := newEntry_valid (hr ▸ Registry.sound_looseFor t) ht.placed hnative h
  obtain ⟨hstate, hsidecars, hslots, hinstance⟩ : e.state = .unknown ∧
      e.sidecars = (if t.native.isSome then [.baseline t.properties] else []) ∧
      e.shadow = t.properties.map (·.defaultValue) ∧ e.native = native := by
    obtain ⟨accessors, -, h⟩ := Result.bind_eq_ok_iff.1 h
    cases h
    exact ⟨rfl, rfl, rfl, rfl⟩
  have haccessor : ∀ p ∈ t.properties, (p.shadow = true ∧ e.accessor? p = none) ∨
      (p.shadow = false ∧ ∃ owner, e.accessor? p = some (.loose owner p.name)) := by
    intro p hp
    refine (accessor?_of_newEntry ht.placed h hp).imp_right fun ⟨hshadow, a, ha, hsome⟩ => ?_
    obtain ⟨owner, -, hloose⟩ := Registry.accessorOf_looseFor ht hp hshadow
    rw [hr, hloose] at ha
    cases ha
    exact ⟨hshadow, owner, hsome⟩
  refine ⟨htype, hstate, ⟨hvalid, ?native, ?served, ?apart, ?foreignKeys⟩, ?onlyBaseline, ?defaulted⟩
  case native =>
    intro p hp
    rcases haccessor p (htype ▸ hp) with ⟨hshadow, hnone⟩ | ⟨hshadow, owner, hsome⟩
    · rw [hnone, hshadow]
      rfl
    · rw [hsome, hshadow]
      rfl
  case served =>
    intro p hp a ha
    rcases haccessor p (htype ▸ hp) with ⟨-, hnone⟩ | ⟨-, owner, hsome⟩
    · rw [hnone] at ha
      cases ha
    · obtain rfl := Option.some.inj (hsome.symm.trans ha)
      exact Accessor.loose_serves owner p.name p
  case apart =>
    intro p hp q hq hne a b ha hb
    rw [htype] at hp hq
    rcases haccessor p hp with ⟨-, hnone⟩ | ⟨-, owner, hsome⟩
    · rw [hnone] at ha
      cases ha
    rcases haccessor q hq with ⟨-, hnone⟩ | ⟨-, owner', hsome'⟩
    · rw [hnone] at hb
      cases hb
    obtain rfl := Option.some.inj (hsome.symm.trans ha)
    obtain rfl := Option.some.inj (hsome'.symm.trans hb)
    exact Accessor.loose_apart fun hname => hne (ht.index_of_name hp hq hname.symm)
  case foreignKeys =>
    rw [htype]
    exact fun fk hfk p hp => ht.placed.owns_of_mem ((ht.foreignKeys fk hfk).2 p hp)
  case onlyBaseline =>
    intro b hb
    rw [hsidecars] at hb
    split at hb
    · rw [List.mem_singleton.1 hb, htype]
      exact ⟨[], rfl⟩
    · cases hb
  case defaulted =>
    intro p hp
    rw [htype] at hp
    rcases haccessor p hp with ⟨-, hnone⟩ | ⟨-, owner, hsome⟩
    · refine ⟨p.defaultValue, ?_, .inr rfl⟩
      rw [Entry.primaryValue_shadow hnone, hslots, List.getElem?_map, ht.placed.getElem?_index hp]
      rfl
    · refine ⟨.null, ?_, .inl rfl⟩
      obtain ⟨i, hi, howner⟩ := hvalid.native _ (Entry.mem_accessors_of_accessor? hsome)
      have hempty : i.fields = [] := hfields i (hinstance ▸ hi)
      rw [Entry.primaryValue_native hsome hi, Accessor.get, if_pos howner, hempty]
      rfl

/-- **Every consistent entity type has blank entries**: around an instance, if there is a native type,
and otherwise made of nulls. -/
theorem exists_blank (ht : t.Consistent) (hr : s.registry = .looseFor t) :
    ∃ e, ((∃ i, s.adopt t i = .ok (e, s.countMade)) ∨
      ∃ values, s.materialize t values = .ok (e, s.countMade)) ∧ e.Blank t := by
  cases hnative : t.native with
  | some native =>
    let i : Instance := ⟨native, []⟩
    obtain ⟨e₁, he₁⟩ := exists_newEntry_loose ht hr (some i)
    have hblank := newEntry_blank ht hr (by rw [hnative]; rfl) (by rintro _ ⟨⟩; rfl) he₁
    obtain ⟨e, hcapture, hblank⟩ := hblank.captureAllIfEager
    refine ⟨e, .inl ⟨i, ?_⟩, hblank⟩
    rw [adopt, hnative]
    dsimp only
    rw [if_pos rfl]
    exact Result.bind_eq_ok_iff.2 ⟨e₁, he₁, Result.bind_eq_ok_iff.2 ⟨e, hcapture, rfl⟩⟩
  | none =>
    obtain ⟨e₁, he₁⟩ := exists_newEntry_loose ht hr none
    have hblank : e₁.Blank t := newEntry_blank ht hr (by rw [hnative]; rfl) (by rintro _ ⟨⟩) he₁
    have hnulls : ∀ pv ∈ t.properties.zip (List.replicate t.properties.length Value.null),
        pv.1 ∈ t.properties ∧ pv.1.shadow = true ∧ pv.2 = .null := fun pv hpv => by
      obtain ⟨hp, hv⟩ := List.of_mem_zip hpv
      exact ⟨hp, ht.shadow hnative _ hp, List.eq_of_mem_replicate hv⟩
    obtain ⟨e₂, hload, hblank⟩ := hblank.foldlM_load hnulls
    obtain ⟨e, hcapture, hblank⟩ := hblank.captureAllIfEager
    refine ⟨e, .inr ⟨List.replicate t.properties.length .null, ?_⟩, hblank⟩
    rw [materialize, if_pos List.length_replicate, hnative]
    refine Result.bind_eq_ok_iff.2 ⟨none, rfl, Result.bind_eq_ok_iff.2 ⟨e₁, he₁, ?_⟩⟩
    refine Result.bind_eq_ok_iff.2 ⟨e₂, hload, Result.bind_eq_ok_iff.2 ⟨e, hcapture, rfl⟩⟩

end Session

end EntityMapper
