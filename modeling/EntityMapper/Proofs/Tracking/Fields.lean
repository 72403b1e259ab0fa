import EntityMapper.Proofs.Tracking.Typed

/-!
# The native fields of entity types

The properties of an entity type are kept in shadow slots, or are declared for native fields of
their own (`EntityType.Fielded`). An entry that is made around an instance is then as its entity
type declares it (`Session.FillsFrom.declared`). If the fields of the instance hold values of the
right types before values are loaded into them, they do so afterwards, because loading goes through
the coercion of the property (`Session.FillsFrom.fieldsTyped`).
-/

namespace EntityMapper

/-- An entity type whose properties are kept in shadow slots or are declared for native fields of
their own. -/
structure EntityType.Fielded (t : EntityType) (r : Registry) : Prop where
  placed : t.Placed
  registry : r.Sound
  served : ∀ p ∈ t.properties, p.shadow = false → ∀ a, r.accessorOf t p = .ok a → a.Serves p
  apart : ∀ p ∈ t.properties, ∀ q ∈ t.properties, p.shadow = false → q.shadow = false →
    p.index ≠ q.index → ∀ a b, r.accessorOf t p = .ok a → r.accessorOf t q = .ok b → a.Apart b
  foreignKeys : ∀ fk ∈ t.foreignKeys, ∀ p ∈ fk.dependent.properties, t.owns p = true

/-- Native fields that hold what the properties of an entity type take. -/
def EntityType.TakesFields (t : EntityType) (r : Registry) (fields : Fields) : Prop :=
  ∀ p ∈ t.properties, p.shadow = false → ∀ a, r.accessorOf t p = .ok a → p.Takes (a.read fields)

namespace Entry

variable {e e' : Entry} {p : Property} {v : Value}

/-- Loading a value goes through the coercion of its property. -/
theorem FieldsTyped.load (h : e.FieldsTyped) (declared : e.Declared) (hp : p ∈ e.type.properties)
    (hload : e.load p v = .ok e') : e'.FieldsTyped := by
  obtain ⟨w, hw, hput⟩ := load_eq_ok_iff.1 hload
  have htakes := Property.takes_of_coerce hw
  intro q hq hshadow x hx
  rw [(load_revalued hload).type] at hq
  by_cases hindex : p.index = q.index
  · obtain rfl := declared.valid.placed.eq_of_index hp hq hindex
    rw [declared.primaryValue_of_putPrimary hp htakes hput] at hx
    cases hx
    exact htakes
  · rw [declared.primaryValue_of_putPrimary_other hp hq hindex hput] at hx
    exact h q hq hshadow x hx

theorem FieldsTyped.loads (h : e.FieldsTyped) (declared : e.Declared) (hloads : e.Loads e') :
    e'.FieldsTyped := by
  induction hloads with
  | refl => exact h
  | step hp hload _ ih =>
    exact ih (h.load declared hp hload) (declared.of_make (load_revalued hload).make)

end Entry

namespace Session

variable {s : Session} {t : EntityType} {native : Option Instance} {e : Entry} {p : Property}

/-- A new entry has the registered accessors of the properties that are not shadow properties. -/
theorem accessor?_of_newEntry (ht : t.Placed) (h : s.newEntry t native = .ok e)
    (hp : p ∈ t.properties) :
    (p.shadow = true ∧ e.accessor? p = none) ∨
    (p.shadow = false ∧ ∃ a, s.registry.accessorOf t p = .ok a ∧ e.accessor? p = some a) := by
  obtain ⟨accessors, haccessors, h⟩ := Result.bind_eq_ok_iff.1 h
  cases h
  obtain ⟨hlength, hat⟩ := List.forall₂_iff_get.1 (Result.mapM_eq_ok_iff.1 haccessors)
  have hlt : p.index < t.properties.length := ht.index_lt hp
  have hslot : t.properties.get ⟨p.index, hlt⟩ = p :=
    Option.some.inj ((List.getElem?_eq_getElem hlt).symm.trans (ht.getElem?_index hp))
  have hget := hat p.index hlt (hlength ▸ hlt)
  rw [hslot] at hget
  have haccessor : (Entry.fresh ⟨s.made + 1⟩ t native accessors).accessor? p =
      accessors.get ⟨p.index, hlength ▸ hlt⟩ :=
    congrArg Option.join (List.getElem?_eq_getElem (hlength ▸ hlt))
  rw [haccessor]
  split at hget
  · next hshadow => exact .inl ⟨hshadow, (Except.ok.inj hget).symm⟩
  · next hshadow =>
    cases ha : s.registry.accessorOf t p with
    | error err =>
      rw [ha] at hget
      cases hget
    | ok a =>
      rw [ha] at hget
      exact .inr ⟨Bool.eq_false_iff.2 hshadow, a, rfl, (Except.ok.inj hget).symm⟩

/-- A new entry needs an accessor for each property that is not a shadow property. -/
theorem exists_newEntry
    (h : ∀ p ∈ t.properties, p.shadow = false → ∃ a, s.registry.accessorOf t p = .ok a)
    (native : Option Instance) : ∃ e, s.newEntry t native = .ok e := by
  have hslot : ∀ p ∈ t.properties, ∃ a : Option Accessor,
      (if p.shadow then .ok none else (s.registry.accessorOf t p).map some : Result _) = .ok a ∧
        True := by
    intro p hp
    cases hshadow : p.shadow with
    | true => exact ⟨none, rfl, trivial⟩
    | false =>
      obtain ⟨a, ha⟩ := h p hp hshadow
      rw [ha]
      exact ⟨some a, rfl, trivial⟩
  obtain ⟨accessors, haccessors, -⟩ := Result.exists_mapM_eq_ok (R := fun _ _ => True) hslot
  exact ⟨_, Result.bind_eq_ok_iff.2 ⟨accessors, haccessors, rfl⟩⟩

theorem newEntry_declared (ht : t.Fielded s.registry) (hnative : native.map (·.type) = t.native)
    (h : s.newEntry t native = .ok e) : e.Declared := by
  have htype : e.type = t := newEntry_type h
  have haccessor : ∀ p ∈ e.type.properties, ∀ a, e.accessor? p = some a →
      p.shadow = false ∧ s.registry.accessorOf t p = .ok a := by
    intro p hp a ha
    rcases accessor?_of_newEntry ht.placed h (htype ▸ hp) with ⟨-, hnone⟩ | ⟨hshadow, b, hb, hsome⟩
    · rw [hnone] at ha
      cases ha
    · obtain rfl := Option.some.inj (ha.symm.trans hsome)
      exact ⟨hshadow, hb⟩
  refine ⟨newEntry_valid ht.registry ht.placed hnative h, fun p hp => ?_, fun p hp a ha => ?_,
    ?_, ?_⟩
  · rcases accessor?_of_newEntry ht.placed h (htype ▸ hp) with
      ⟨hshadow, hnone⟩ | ⟨hshadow, b, -, hsome⟩
    · rw [hnone, hshadow]
      rfl
    · rw [hsome, hshadow]
      rfl
  · obtain ⟨hshadow, hregistered⟩ := haccessor p hp a ha
    exact ht.served p (htype ▸ hp) hshadow a hregistered
  · intro p hp q hq hne a b ha hb
    obtain ⟨hshadow, ha⟩ := haccessor p hp a ha
    obtain ⟨hshadow', hb⟩ := haccessor q hq b hb
    exact ht.apart p (htype ▸ hp) q (htype ▸ hq) hshadow hshadow' hne a b ha hb
  · rw [htype]
    exact ht.foreignKeys

theorem newEntry_fieldsTyped (ht : t.Fielded s.registry)
    (hfields : ∀ i ∈ native, t.TakesFields s.registry i.fields) (h : s.newEntry t native = .ok e) :
    e.FieldsTyped := by
  have hnative : e.native = native := by
    obtain ⟨accessors, -, h⟩ := Result.bind_eq_ok_iff.1 h
    cases h
    rfl
  intro p hp hshadow v hv
  rw [newEntry_type h] at hp
  rcases accessor?_of_newEntry ht.placed h hp with ⟨hshadow', -⟩ | ⟨-, a, ha, hsome⟩
  · cases hshadow.symm.trans hshadow'
  · cases native with
    | none =>
      rw [Entry.primaryValue, ← Entry.accessor?, hsome, hnative] at hv
      cases hv
    | some i =>
      rw [Entry.primaryValue_native hsome hnative, Accessor.get] at hv
      split at hv
      · cases hv
        exact hfields i rfl p hp hshadow a ha
      · cases hv

/-- An entry is as its entity type declares it. -/
theorem FillsFrom.declared (ht : t.Fielded s.registry) (h : s.FillsFrom t native e) :
    e.Declared := by
  obtain ⟨hnative, e₁, e₂, he₁, hloads, hcapture⟩ := h
  have hmake := hloads.revalued.trans (Entry.captureAllIfEager_revalued hcapture)
  exact (newEntry_declared ht hnative he₁).of_make hmake.make

/-- Its native fields hold values of the right types if those of the instance did. -/
theorem FillsFrom.fieldsTyped (ht : t.Fielded s.registry)
    (hfields : ∀ i ∈ native, t.TakesFields s.registry i.fields) (h : s.FillsFrom t native e) :
    e.FieldsTyped := by
  obtain ⟨hnative, e₁, e₂, he₁, hloads, hcapture⟩ := h
  obtain ⟨sidecars, rfl⟩ := Entry.captureAllIfEager_eq hcapture
  have hloaded : e₂.FieldsTyped :=
    (newEntry_fieldsTyped ht hfields he₁).loads (newEntry_declared ht hnative he₁) hloads
  exact hloaded

end Session

end EntityMapper
