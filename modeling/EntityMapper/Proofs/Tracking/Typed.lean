import EntityMapper.Proofs.Tracking.Acceptance

/-!
# Typed entries

An entry is as its entity type declares it (`Entry.Declared`) if its shadow properties are kept in
shadow slots, and each other property has a native field of its own, which serves what the property
takes (`Accessor.Serves`). Then no such value is refused when it is written
(`Entry.Declared.exists_putPrimary`), and it is read again
(`Entry.Declared.primaryValue_of_putPrimary`).

`Entry.Typed` says that such an entry holds values of the right types wherever it holds values: as
primary values, in its sidecars, and in its relationship snapshot. Whatever changes one of these with
a coerced value, or with one that it holds elsewhere, keeps it typed.
-/

namespace EntityMapper

/-! ## Genuine properties -/

/-- A property that an entity type lists, unless it is one of another entity type. -/
def EntityType.Knows (t : EntityType) (p : Property) : Prop :=
  t.owns p = true → p ∈ t.properties

theorem EntityType.knows_of_mem {t : EntityType} {p : Property} (h : p ∈ t.properties) :
    t.Knows p :=
  fun _ => h

/-- Where a value was put at the place of a property, it is found for that property, and what was there
before is found for the other ones. -/
theorem EntityType.Placed.of_lookup_put {t : EntityType} {p q : Property} {v w : Value}
    {values : List (Nat × Value)} (h : t.Placed) (hp : p ∈ t.properties) (hq : q ∈ t.properties)
    (hlookup : (Sidecar.put p.index v values).lookup q.index = some w) :
    (q = p ∧ w = v) ∨ (q ≠ p ∧ values.lookup q.index = some w) := by
  by_cases hindex : q.index = p.index
  · rw [hindex, Sidecar.lookup_put_self] at hlookup
    exact .inl ⟨h.eq_of_index hq hp hindex, (Option.some.inj hlookup).symm⟩
  · rw [Sidecar.lookup_put_of_ne hindex] at hlookup
    exact .inr ⟨fun heq => hindex (congrArg Property.index heq), hlookup⟩

/-! ## Typed sidecars -/

/-- A sidecar that covers properties of an entity type and holds values that they take. -/
def Sidecar.Typed (t : EntityType) (s : Sidecar) : Prop :=
  ∀ p ∈ s.covered, p ∈ t.properties ∧ ∀ v, s.values.lookup p.index = some v → p.Takes v

namespace Sidecar

variable {t : EntityType} {s s' : Sidecar} {p : Property} {v : Value} {i j : Nat}
  {values : List (Nat × Value)}

/-- A sidecar without values. -/
theorem typed_of_empty (hcovered : ∀ p ∈ s.covered, p ∈ t.properties) (hempty : s.values = []) :
    s.Typed t := by
  intro p hp
  refine ⟨hcovered p hp, fun v hv => ?_⟩
  rw [hempty] at hv
  cases hv

theorem Typed.clear (h : s.Typed t) : s.clear.Typed t :=
  typed_of_empty (fun p hp => (h p hp).1) rfl

/-- Once the values at a position are dropped, the other ones are found as before. -/
theorem lookup_filter (i j : Nat) (values : List (Nat × Value)) :
    (values.filter (·.1 != i)).lookup j = if j = i then none else values.lookup j := by
  induction values with
  | nil => simp
  | cons entry rest ih =>
    obtain ⟨k, w⟩ := entry
    by_cases hk : k = i
    · rw [List.filter_cons_of_neg (by simpa using hk), ih, hk]
      split
      · rfl
      · rename_i hj
        rw [List.lookup_cons, beq_eq_false_iff_ne.2 hj]
    · rw [List.filter_cons_of_pos (by simpa using hk), List.lookup_cons, List.lookup_cons, ih]
      by_cases hj : j = k
      · subst hj
        simp [hk]
      · rw [beq_eq_false_iff_ne.2 hj]

theorem Typed.remove (h : s.Typed t) (p : Property) : (s.remove p).Typed t := by
  unfold Sidecar.remove
  split
  · intro q hq
    obtain ⟨hmem, htakes⟩ := h q hq
    refine ⟨hmem, fun v hv => htakes v ?_⟩
    rw [lookup_filter] at hv
    split at hv
    · cases hv
    · exact hv
  · exact h

theorem Typed.set (h : s.Typed t) (placed : t.Placed) (hp : p ∈ t.properties) (hv : p.Takes v)
    (hset : s.set p v = .ok s') : s'.Typed t := by
  obtain ⟨-, rfl⟩ := Sidecar.set_eq_ok_iff.1 hset
  intro q hq
  obtain ⟨hmem, htakes⟩ := h q hq
  refine ⟨hmem, fun w hw => ?_⟩
  rcases placed.of_lookup_put hp hmem hw with ⟨rfl, rfl⟩ | ⟨-, hw⟩
  · exact hv
  · exact htakes w hw

/-- What is stored in a typed sidecar can be committed. -/
theorem Typed.of_mem_stored (h : s.Typed t) (hmem : (p, v) ∈ s.stored) :
    p ∈ t.properties ∧ p.Takes v := by
  obtain ⟨_, hq, hlookup⟩ := List.mem_filterMap.1 hmem
  obtain ⟨_, hw, heq⟩ := Option.map_eq_some_iff.1 hlookup
  cases heq
  exact ⟨(h p hq).1, (h p hq).2 v hw⟩

end Sidecar

/-! ## Typed entries -/

/-- An entry with what its entity type declares: shadow slots for the shadow properties, native
fields of their own for the others, and foreign keys of its own properties. -/
structure Entry.Declared (e : Entry) : Prop where
  valid : e.Valid
  native : ∀ p ∈ e.type.properties, (e.accessor? p).isSome = !p.shadow
  served : ∀ p ∈ e.type.properties, ∀ a, e.accessor? p = some a → a.Serves p
  apart : e.FieldsApart
  foreignKeys : ∀ fk ∈ e.type.foreignKeys, ∀ p ∈ fk.dependent.properties, e.type.owns p = true

/-- The native fields of an entry hold values of the types that their properties are declared with. -/
def Entry.FieldsTyped (e : Entry) : Prop :=
  ∀ p ∈ e.type.properties, p.shadow = false → ∀ v, e.primaryValue p = .ok v → p.Takes v

/-- So do its shadow slots. -/
def Entry.ShadowsTyped (e : Entry) : Prop :=
  ∀ p ∈ e.type.properties, p.shadow = true → p.Takes ((e.shadow[p.index]?).getD .null)

/-- An entry that holds values of the right types, wherever it holds them. -/
structure Entry.Typed (e : Entry) : Prop where
  declared : e.Declared
  primary : ∀ p ∈ e.type.properties, ∀ v, e.primaryValue p = .ok v → p.Takes v
  sidecars : ∀ s ∈ e.sidecars, s.Typed e.type
  snapshot : ∀ p ∈ e.type.properties, ∀ v, e.snapshot.lookup p.index = some v → p.Takes v

namespace Entry

variable {e e' : Entry} {s s' : Sidecar} {p q : Property} {v w : Value} {name : String}

theorem Declared.of_make (h : e.Declared) (hmake : e'.make = e.make) : e'.Declared := by
  have htype : e'.type = e.type := congrArg Make.type hmake
  refine ⟨h.valid.of_make hmake, fun p hp => ?_, fun p hp a ha => ?_, h.apart.of_make hmake, ?_⟩
  · rw [accessor?_of_make hmake]
    exact h.native p (htype ▸ hp)
  · exact h.served p (htype ▸ hp) a (accessor?_of_make hmake p ▸ ha)
  · rw [htype]
    exact h.foreignKeys

theorem Declared.ownFields (h : e.Declared) : e.OwnFields :=
  ⟨h.served, h.apart⟩

theorem Declared.primaryValue_of_shadow (h : e.Declared) (hp : p ∈ e.type.properties)
    (hshadow : p.shadow = true) : e.primaryValue p = .ok ((e.shadow[p.index]?).getD .null) := by
  have hnative := h.native p hp
  rw [hshadow, Bool.not_true, Option.isSome_eq_false_iff, Option.isNone_iff_eq_none] at hnative
  exact primaryValue_shadow hnative

/-- A property has its primary value in a native field or in a shadow slot. -/
theorem Declared.primary (h : e.Declared) (fields : e.FieldsTyped) (shadows : e.ShadowsTyped) :
    ∀ p ∈ e.type.properties, ∀ v, e.primaryValue p = .ok v → p.Takes v := by
  intro p hp v hv
  cases hshadow : p.shadow with
  | false => exact fields p hp hshadow v hv
  | true =>
    rw [h.primaryValue_of_shadow hp hshadow] at hv
    cases hv
    exact shadows p hp hshadow

/-- A value that its property takes is not refused. -/
theorem Declared.exists_putPrimary (h : e.Declared) (hp : p ∈ e.type.properties)
    (hv : p.Takes v) : ∃ e', e.putPrimary p v = .ok e' := by
  cases ha : e.accessor? p with
  | none => exact ⟨_, putPrimary_eq_ok_iff.2 (.inl ⟨ha, rfl⟩)⟩
  | some a =>
    obtain ⟨i, hi, howner⟩ := h.valid.native a (mem_accessors_of_accessor? ha)
    obtain ⟨fields, hwrite, -⟩ := h.served p hp a ha i.fields v hv
    exact ⟨_, putPrimary_eq_ok_iff.2
      (.inr ⟨a, i, _, ha, hi, Accessor.set_eq_ok_iff.2 ⟨howner, fields, hwrite, rfl⟩, rfl⟩)⟩

/-- Once it is written, it is the primary value. -/
theorem Declared.primaryValue_of_putPrimary (h : e.Declared) (hp : p ∈ e.type.properties)
    (hv : p.Takes v) (hput : e.putPrimary p v = .ok e') : e'.primaryValue p = .ok v := by
  have hlt : p.index < e.shadow.length := h.valid.shadow ▸ h.valid.placed.index_lt hp
  exact Entry.primaryValue_of_putPrimary h.ownFields hp hlt hv hput

/-- The other primary values stay. -/
theorem Declared.primaryValue_of_putPrimary_other (h : e.Declared) (hp : p ∈ e.type.properties)
    (hq : q ∈ e.type.properties) (hne : p.index ≠ q.index) (hput : e.putPrimary p v = .ok e') :
    e'.primaryValue q = e.primaryValue q :=
  Entry.primaryValue_of_putPrimary_other h.apart hp hq hne hput

theorem putPrimary_snapshot (h : e.putPrimary p v = .ok e') : e'.snapshot = e.snapshot := by
  rcases putPrimary_eq_ok_iff.1 h with ⟨-, rfl⟩ | ⟨_, _, _, -, -, -, rfl⟩ <;> rfl

namespace Typed

theorem shadows (h : e.Typed) : e.ShadowsTyped :=
  fun p hp hshadow => h.primary p hp _ (h.declared.primaryValue_of_shadow hp hshadow)

/-- State and flags are no matter. -/
theorem of_record (h : e.Typed) (state : EntityState) (modified : List Bool) :
    Typed { e with state, modified } :=
  ⟨h.declared.of_make rfl, h.primary, h.sidecars, h.snapshot⟩

/-- Writing a value that its property takes. -/
theorem putPrimary (h : e.Typed) (hp : p ∈ e.type.properties) (hv : p.Takes v)
    (hput : e.putPrimary p v = .ok e') : e'.Typed := by
  have hrevalued := putPrimary_revalued hput
  have htype : e'.type = e.type := hrevalued.type
  refine ⟨h.declared.of_make hrevalued.make, fun q hq w hw => ?_, ?_, ?_⟩
  · rw [htype] at hq
    by_cases hindex : p.index = q.index
    · obtain rfl := h.declared.valid.placed.eq_of_index hp hq hindex
      rw [h.declared.primaryValue_of_putPrimary hp hv hput] at hw
      cases hw
      exact hv
    · rw [h.declared.primaryValue_of_putPrimary_other hp hq hindex hput] at hw
      exact h.primary q hq w hw
  · rw [htype, putPrimary_sidecars hput]
    exact h.sidecars
  · rw [htype, putPrimary_snapshot hput]
    exact h.snapshot

/-- Recording a value that its property takes. -/
theorem recordSnapshot (h : e.Typed) (hp : p ∈ e.type.properties) (hv : p.Takes v) :
    (e.recordSnapshot p v).Typed := by
  refine ⟨h.declared.of_make rfl, h.primary, h.sidecars, fun q hq w hw => ?_⟩
  rcases h.declared.valid.placed.of_lookup_put hp hq hw with ⟨rfl, rfl⟩ | ⟨-, hw⟩
  · exact hv
  · exact h.snapshot q hq w hw

/-! ### The sidecars of a typed entry -/

theorem of_sidecar? (h : e.Typed) (hs : e.sidecar? name = some s) : s.Typed e.type :=
  h.sidecars s (List.mem_of_find?_eq_some hs)

theorem of_sidecar (h : e.Typed) (hs : e.sidecar name = .ok s) : s.Typed e.type := by
  unfold sidecar at hs
  split at hs
  · rename_i hfind
    cases hs
    exact h.of_sidecar? hfind
  · cases hs

/-- The sidecar for baseline values; an empty one if there is none. -/
theorem baseline (h : e.Typed) :
    ((e.sidecar? Sidecar.baselineName).getD (.baseline e.type.properties)).Typed e.type := by
  cases hs : e.sidecar? Sidecar.baselineName with
  | none => exact Sidecar.typed_of_empty (fun _ hp => hp) rfl
  | some s => exact h.of_sidecar? hs

theorem of_mem_pending (h : e.Typed) {pair : Property × Value} (hpair : pair ∈ e.pending) :
    pair.1 ∈ e.type.properties ∧ pair.1.Takes pair.2 := by
  obtain ⟨s, hs, hstored⟩ := List.mem_flatMap.1 hpair
  exact (h.sidecars s (List.mem_filter.1 hs).1).of_mem_stored hstored

end Typed

/-! ### Other sidecars -/

/-- The same entry with other sidecars, typed ones. -/
def Overlaid (e e' : Entry) : Prop :=
  ∃ sidecars, e' = { e with sidecars } ∧ ∀ s ∈ sidecars, s.Typed e.type

theorem Overlaid.typed (h : e.Typed) (ho : e.Overlaid e') : e'.Typed := by
  obtain ⟨sidecars, rfl, hs⟩ := ho
  exact ⟨h.declared.of_make rfl, h.primary, hs, h.snapshot⟩

namespace Typed

theorem overlaid_self (h : e.Typed) : e.Overlaid e := ⟨_, rfl, h.sidecars⟩

theorem attach (h : e.Typed) (hs : s.Typed e.type) : e.Overlaid (e.attach s) := by
  refine ⟨_, rfl, fun t ht => ?_⟩
  rcases mem_attachTo ht with rfl | ht
  · exact hs
  · exact h.sidecars t ht

theorem detach (h : e.Typed) (name : String) : e.Overlaid (e.detach name) :=
  ⟨_, rfl, fun s hs => h.sidecars s (List.mem_of_mem_eraseP hs)⟩

theorem rollBack (h : e.Typed) : e.Overlaid e.rollBack :=
  ⟨_, rfl, fun s hs => h.sidecars s (List.mem_filter.1 hs).1⟩

theorem prepare (h : e.Typed) : e.Overlaid e.prepare :=
  h.attach (Sidecar.typed_of_empty (fun _ hp => (List.mem_filter.1 hp).1) rfl)

/-- A sidecar may be attached if it holds values that its properties take. -/
theorem attachOwned (h : e.Typed) (hs : ∀ p ∈ s.covered, e.type.Knows p ∧
      ∀ v, s.values.lookup p.index = some v → p.Takes v)
    (hattach : e.attachOwned s = .ok e') : e.Overlaid e' := by
  obtain ⟨⟨⟩, howned, hattach⟩ := Result.bind_eq_ok_iff.1 hattach
  cases hattach
  refine h.attach fun p hp => ⟨(hs p hp).1 (owns_of_requireOwned ?_), (hs p hp).2⟩
  exact Result.forM_eq_ok_iff.1 howned p hp

theorem clearBaseline (h : e.Typed) : e.Overlaid e.clearBaseline := by
  unfold Entry.clearBaseline
  split
  · rename_i hs
    exact h.attach (h.of_sidecar? hs).clear
  · exact h.overlaid_self

/-- One more value in a typed sidecar. -/
theorem attach_set (h : e.Typed) (hs : s.Typed e.type) (hp : p ∈ e.type.properties)
    (hv : p.Takes v) (hset : s.set p v = .ok s') : e.Overlaid (e.attach s') :=
  h.attach (hs.set h.declared.valid.placed hp hv hset)

theorem setSidecarValue (h : e.Typed) (hp : e.type.Knows p)
    (hset : e.setSidecarValue name p v = .ok e') : e.Overlaid e' := by
  obtain ⟨⟨⟩, howned, hset⟩ := Result.bind_eq_ok_iff.1 hset
  obtain ⟨w, hw, hset⟩ := Result.bind_eq_ok_iff.1 hset
  obtain ⟨s, hs, hset⟩ := Result.bind_eq_ok_iff.1 hset
  obtain ⟨s', hs', hset⟩ := Result.bind_eq_ok_iff.1 hset
  cases hset
  exact h.attach_set (h.of_sidecar hs) (hp (owns_of_requireOwned howned))
    (Property.takes_of_coerce hw) hs'

theorem setBaselineValue (h : e.Typed) (hp : e.type.Knows p)
    (hset : e.setBaselineValue p v = .ok e') : e.Overlaid e' := by
  obtain ⟨⟨⟩, howned, hset⟩ := Result.bind_eq_ok_iff.1 hset
  obtain ⟨w, hw, hset⟩ := Result.bind_eq_ok_iff.1 hset
  obtain ⟨s', hs', hset⟩ := Result.bind_eq_ok_iff.1 hset
  cases hset
  exact h.attach_set h.baseline (hp (owns_of_requireOwned howned)) (Property.takes_of_coerce hw) hs'

theorem captureBaseline (h : e.Typed) (hp : p ∈ e.type.properties) (hv : p.Takes v)
    (hcapture : e.captureBaseline p v = .ok e') : e.Overlaid e' := by
  unfold Entry.captureBaseline at hcapture
  simp only at hcapture
  split at hcapture
  · cases hcapture
    exact h.overlaid_self
  · obtain ⟨s', hs', hcapture⟩ := Result.bind_eq_ok_iff.1 hcapture
    cases hcapture
    exact h.attach_set h.baseline hp hv hs'

/-- The primary values of some properties in a typed sidecar. -/
theorem foldlM_capture (h : e.Typed) {properties : List Property}
    (hsub : ∀ p ∈ properties, p ∈ e.type.properties) (hs : s.Typed e.type)
    (hfold : properties.foldlM (fun s p => do Sidecar.set s p (← e.primaryValue p)) s = .ok s') :
    s'.Typed e.type := by
  induction properties generalizing s with
  | nil =>
    cases hfold
    exact hs
  | cons p properties ih =>
    obtain ⟨s₁, hs₁, hfold⟩ := Result.foldlM_cons_eq_ok_iff.1 hfold
    obtain ⟨v, hv, hs₁⟩ := Result.bind_eq_ok_iff.1 hs₁
    have hp := hsub p List.mem_cons_self
    exact ih (fun q hq => hsub q (List.mem_cons_of_mem _ hq))
      (hs.set h.declared.valid.placed hp (h.primary p hp v hv) hs₁) hfold

theorem captureAllIfEager (h : e.Typed) (hcapture : e.captureAllIfEager = .ok e') :
    e.Overlaid e' := by
  unfold Entry.captureAllIfEager at hcapture
  split at hcapture
  · cases hcapture
    exact h.overlaid_self
  · obtain ⟨s, hs, hcapture⟩ := Result.bind_eq_ok_iff.1 hcapture
    cases hcapture
    have hempty : (Sidecar.baseline e.type.properties).Typed e.type :=
      Sidecar.typed_of_empty (fun _ hp => hp) rfl
    exact h.attach (h.foldlM_capture (fun _ hp => hp) hempty hs)

end Typed

end Entry

/-! ## New entries -/

namespace Entry

variable {e e' : Entry} {p : Property} {v : Value}

/-- Loading a value goes through the coercion of its property. -/
theorem ShadowsTyped.load (h : e.ShadowsTyped) (hv : e.Valid) (hp : p ∈ e.type.properties)
    (hload : e.load p v = .ok e') : e'.ShadowsTyped := by
  obtain ⟨w, hw, hput⟩ := load_eq_ok_iff.1 hload
  rcases putPrimary_eq_ok_iff.1 hput with ⟨-, rfl⟩ | ⟨_, _, _, -, -, -, rfl⟩
  · intro q hq hshadow
    have hq : q ∈ e.type.properties := hq
    by_cases hindex : p.index = q.index
    · obtain rfl := hv.placed.eq_of_index hp hq hindex
      have hlt : p.index < e.shadow.length := hv.shadow ▸ hv.placed.index_lt hp
      simpa [hlt] using Property.takes_of_coerce hw
    · simpa [hindex] using h q hq hshadow
  · exact h

theorem ShadowsTyped.loads (h : e.ShadowsTyped) (hv : e.Valid) (hloads : e.Loads e') :
    e'.ShadowsTyped := by
  induction hloads with
  | refl => exact h
  | step hp hload _ ih => exact ih (h.load hv hp hload) (hv.of_make (load_revalued hload).make)

theorem Loads.snapshot (h : e.Loads e') : e'.snapshot = e.snapshot := by
  induction h with
  | refl => rfl
  | step _ hload _ ih =>
    obtain ⟨w, -, hput⟩ := load_eq_ok_iff.1 hload
    exact ih.trans (putPrimary_snapshot hput)

end Entry

namespace Session

variable {s s' : Session} {t : EntityType} {e : Entry}

/-- A new entry holds defaults in its shadow slots, and nothing in its sidecars. -/
theorem newEntry_typed {native : Option Instance} (ht : t.Placed)
    (h : s.newEntry t native = .ok e) :
    e.ShadowsTyped ∧ (∀ b ∈ e.sidecars, b.Typed t) ∧ e.snapshot = [] := by
  obtain ⟨accessors, -, h⟩ := Result.bind_eq_ok_iff.1 h
  cases h
  refine ⟨fun p hp hshadow => ?_, fun b hb => ?_, rfl⟩
  · have hslot : (t.properties.map Property.defaultValue)[p.index]? = some p.defaultValue := by
      rw [List.getElem?_map, ht.getElem?_index hp]
      rfl
    have htakes := Property.takes_defaultValue hshadow
    change p.Takes ((t.properties.map Property.defaultValue)[p.index]?.getD .null)
    rw [hslot]
    exact htakes
  · unfold Entry.fresh at hb
    dsimp only at hb
    split at hb
    · rw [List.mem_singleton.1 hb]
      exact Sidecar.typed_of_empty (fun _ hp => hp) rfl
    · cases hb

/-- **A new entry** is typed if its native fields are, and its relationship snapshot is empty. -/
theorem Fills.typed (h : s.Fills t e s') (declared : e.Declared) (fields : e.FieldsTyped) :
    e.Typed ∧ e.snapshot = [] := by
  obtain ⟨native, e₁, e₂, -, he₁, hloads, hcapture, -⟩ := h
  obtain ⟨sidecars, hcaptured⟩ := Entry.captureAllIfEager_eq hcapture
  have hmake : e₂.make = e.make := by rw [hcaptured]; rfl
  have hmake₁ : e₁.make = e.make := hloads.revalued.make.symm.trans hmake
  have htype₁ : e₁.type = t := newEntry_type he₁
  have htype₂ : e₂.type = t := hloads.revalued.type.trans htype₁
  have hvalid₁ : e₁.Valid := declared.valid.of_make hmake₁
  obtain ⟨hshadows, hsidecars, hsnapshot⟩ := newEntry_typed (htype₁ ▸ hvalid₁.placed) he₁
  have hsnapshot₂ : e₂.snapshot = [] := hloads.snapshot.trans hsnapshot
  have hdeclared₂ : e₂.Declared := declared.of_make hmake
  have hfields₂ : e₂.FieldsTyped := by
    rw [hcaptured] at fields
    exact fields
  have htyped₂ : e₂.Typed := by
    refine ⟨hdeclared₂, hdeclared₂.primary hfields₂ (hshadows.loads hvalid₁ hloads), ?_, ?_⟩
    · rw [hloads.sidecars, htype₂]
      exact hsidecars
    · rw [hsnapshot₂]
      intro p _ v hv
      cases hv
  refine ⟨(htyped₂.captureAllIfEager hcapture).typed htyped₂, ?_⟩
  rw [hcaptured]
  exact hsnapshot₂

end Session

end EntityMapper
