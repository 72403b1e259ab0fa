import EntityMapper.Metadata.EntityType
import EntityMapper.Proofs.Stepwise

/-!
# Consistent entity types

`EntityType.Placed` says that the properties of an entity type are its own, each at its position, and
`EntityType.Consistent` that besides its names, its key and its foreign keys are in order. Each of
the builders succeeds exactly on arguments that fit (`EntityType.addProperty_eq_ok_iff`,
`EntityType.setKey_eq_ok_iff`, `EntityType.addForeignKey_eq_ok_iff`), and what it then makes of a
consistent entity type is consistent again.
-/

namespace EntityMapper

/-! ## Properties at their places -/

/-- The properties of an entity type are its own, each at its position. -/
structure EntityType.Placed (t : EntityType) : Prop where
  index : ∀ (i : Nat) (p : Property), t.properties[i]? = some p → p.index = i
  owner : ∀ p ∈ t.properties, p.owner = t.id

namespace EntityType

variable {t : EntityType} {p q : Property}

theorem owns_congr (h : q.same p = true) : t.owns q = t.owns p := by
  obtain ⟨howner, hindex⟩ := Property.same_iff.1 h
  rw [owns, owns, howner, hindex]

theorem index_lt_of_owns (h : t.owns p = true) : p.index < t.properties.length := by
  simpa using (Bool.and_eq_true_iff.1 h).2

/-- Own properties are the same if they have the same position. -/
theorem same_of_owns (hq : t.owns q = true) (hp : t.owns p = true) (hindex : q.index = p.index) :
    q.same p = true := by
  have howner : ∀ r : Property, t.owns r = true → r.owner = t.id := fun r hr => by
    simpa using (Bool.and_eq_true_iff.1 hr).1
  exact Property.same_iff.2 ⟨(howner q hq).trans (howner p hp).symm, hindex⟩

end EntityType

namespace EntityType.Placed

variable {t : EntityType} {p q : Property}

theorem index_lt (h : t.Placed) (hp : p ∈ t.properties) : p.index < t.properties.length := by
  obtain ⟨i, hi⟩ := List.mem_iff_getElem?.1 hp
  rw [h.index i p hi]
  exact (List.getElem?_eq_some_iff.1 hi).1

theorem getElem?_index (h : t.Placed) (hp : p ∈ t.properties) :
    t.properties[p.index]? = some p := by
  obtain ⟨i, hi⟩ := List.mem_iff_getElem?.1 hp
  rw [h.index i p hi, hi]

theorem owns_of_mem (h : t.Placed) (hp : p ∈ t.properties) : t.owns p = true := by
  have hlt : p.index < t.properties.length := h.index_lt hp
  simp [owns, h.owner p hp, hlt]

/-- A property of the entity type has the place of one that it lists. -/
theorem exists_of_owns (h : t.Placed) (hp : t.owns p = true) :
    ∃ q ∈ t.properties, q.index = p.index ∧ q.same p := by
  obtain ⟨howner, hlt⟩ : p.owner = t.id ∧ p.index < t.properties.length := by
    simpa [owns] using hp
  have hq : t.properties[p.index]? = some t.properties[p.index] := List.getElem?_eq_getElem hlt
  have hmem : t.properties[p.index] ∈ t.properties := List.getElem_mem hlt
  refine ⟨_, hmem, h.index _ _ hq, Property.same_iff.2 ⟨?_, h.index _ _ hq⟩⟩
  rw [h.owner _ hmem, howner]

theorem eq_of_index (h : t.Placed) (hp : p ∈ t.properties) (hq : q ∈ t.properties)
    (heq : p.index = q.index) : p = q := by
  have h₁ := h.getElem?_index hp
  have h₂ := h.getElem?_index hq
  rw [heq, h₂] at h₁
  exact (Option.some.inj h₁).symm

theorem map_index (h : t.Placed) :
    t.properties.map (·.index) = List.range t.properties.length := by
  refine List.ext_getElem (by simp) fun i h₁ h₂ => ?_
  have hlt : i < t.properties.length := by simpa using h₁
  simpa using h.index i _ (List.getElem?_eq_getElem hlt)

theorem nodup_index (h : t.Placed) : (t.properties.map (·.index)).Nodup :=
  h.map_index ▸ List.nodup_range

/-- Properties that are listed apart have places of their own. -/
theorem index_ne_of_append {before mid after : List Property} (h : t.Placed)
    (hproperties : t.properties = before ++ p :: (mid ++ q :: after)) : p.index ≠ q.index := by
  have hnodup := h.nodup_index
  rw [hproperties, List.map_append, List.map_cons, List.nodup_append] at hnodup
  have hnot := (List.nodup_cons.1 hnodup.2.1).1
  exact fun heq => hnot (heq ▸ by simp)

/-- One more property fits at the end. -/
theorem place (h : t.Placed) (spec : PropertySpec) :
    { t with properties := t.properties ++ [t.place spec] : EntityType }.Placed where
  index i p hp := by
    rw [List.getElem?_append] at hp
    split at hp
    · exact h.index i p hp
    · obtain ⟨hi, rfl⟩ := List.getElem?_eq_some_iff.1 hp
      rw [List.length_singleton] at hi
      have hi : i = t.properties.length := by omega
      simp [EntityType.place, hi]
  owner p hp := by
    rcases List.mem_append.1 hp with hp | hp
    · exact h.owner p hp
    · rw [List.mem_singleton.1 hp]
      rfl

end EntityType.Placed

/-! ## What the builders accept -/

theorem Key.ofProperties_eq_ok_iff {properties : List Property} {k : Key} :
    Key.ofProperties properties = .ok k ↔ k.properties = properties := by
  constructor
  · intro h
    cases properties with
    | nil => cases h
    | cons first rest =>
      rw [Key.ofProperties] at h
      split at h
      · cases h
      · cases h
        rfl
  · rintro rfl
    rw [Key.properties, Key.ofProperties]
    split
    · rename_i stranger hfind
      have hne : stranger.owner ≠ k.first.owner := by simpa using List.find?_some hfind
      exact absurd (k.oneOwner stranger (List.mem_of_find?_eq_some hfind)) hne
    · rfl

theorem Key.owner_of_mem {k : Key} {p : Property} (hp : p ∈ k.properties) : p.owner = k.owner := by
  rcases List.mem_cons.1 hp with rfl | hp
  · rfl
  · exact k.oneOwner p hp

theorem ForeignKey.ofProperties_eq_ok_iff {principal : Key} {properties : List Property}
    {fk : ForeignKey} : ForeignKey.ofProperties principal properties = .ok fk ↔
      fk.principal = principal ∧ fk.dependent.properties = properties := by
  unfold ForeignKey.ofProperties
  rw [Result.bind_eq_ok_iff]
  constructor
  · rintro ⟨k, hk, h⟩
    split at h
    · cases h
      exact ⟨rfl, Key.ofProperties_eq_ok_iff.1 hk⟩
    · cases h
  · rintro ⟨rfl, hproperties⟩
    exact ⟨fk.dependent, Key.ofProperties_eq_ok_iff.2 hproperties, dif_pos fk.sameLength⟩

namespace EntityType

variable {t t' : EntityType} {p : Property} {spec : PropertySpec} {properties : List Property}
  {k principal : Key} {fk : ForeignKey}

theorem property?_eq_some {name : String} (h : t.property? name = some p) :
    p ∈ t.properties ∧ p.name = name := by
  unfold property? at h
  exact ⟨List.mem_of_find?_eq_some h, by simpa using List.find?_some h⟩

/-- A property is added under a name of its own. -/
theorem addProperty_eq_ok_iff : t.addProperty spec = .ok (p, t') ↔
    spec.name ≠ "" ∧ (∀ q ∈ t.properties, q.name ≠ spec.name) ∧ p = t.place spec ∧
      t' = { t with properties := t.properties ++ [t.place spec] } := by
  unfold addProperty
  split
  · rename_i hempty
    exact ⟨fun h => (nomatch h), fun ⟨hne, _⟩ => absurd (String.isEmpty_iff.1 hempty) hne⟩
  rename_i hne
  split
  · rename_i hdup
    obtain ⟨q, hq⟩ := Option.isSome_iff_exists.1 hdup
    obtain ⟨hmem, hname⟩ := property?_eq_some hq
    exact ⟨fun h => (nomatch h), fun ⟨_, hnew, _⟩ => absurd hname (hnew q hmem)⟩
  rename_i hnew
  have hnew : ∀ q ∈ t.properties, q.name ≠ spec.name := by
    simpa [property?] using hnew
  constructor
  · rintro ⟨⟩
    exact ⟨fun h => hne (String.isEmpty_iff.2 h), hnew, rfl, rfl⟩
  · rintro ⟨-, -, rfl, rfl⟩
    rfl

/-- A key is set if its properties belong to the entity type. -/
theorem setKey_eq_ok_iff : t.setKey properties = .ok (k, t') ↔
    k.properties = properties ∧ k.owner = t.id ∧ t' = { t with key := some k } := by
  unfold setKey
  rw [Result.bind_eq_ok_iff]
  constructor
  · rintro ⟨k', hk, h⟩
    split at h
    · rename_i howner
      cases h
      exact ⟨Key.ofProperties_eq_ok_iff.1 hk, howner, rfl⟩
    · cases h
  · rintro ⟨hproperties, howner, rfl⟩
    exact ⟨k, Key.ofProperties_eq_ok_iff.2 hproperties, if_pos howner⟩

/-- A foreign key is added if its properties belong to the entity type and are as many as those of
the key that they refer to. -/
theorem addForeignKey_eq_ok_iff : t.addForeignKey principal properties = .ok (fk, t') ↔
    fk.principal = principal ∧ fk.dependent.properties = properties ∧ fk.dependent.owner = t.id ∧
      t' = { t with foreignKeys := t.foreignKeys ++ [fk] } := by
  unfold addForeignKey
  rw [Result.bind_eq_ok_iff]
  constructor
  · rintro ⟨fk', hfk, h⟩
    obtain ⟨hprincipal, hproperties⟩ := ForeignKey.ofProperties_eq_ok_iff.1 hfk
    split at h
    · rename_i howner
      cases h
      exact ⟨hprincipal, hproperties, howner, rfl⟩
    · cases h
  · rintro ⟨hprincipal, hproperties, howner, rfl⟩
    exact ⟨fk, ForeignKey.ofProperties_eq_ok_iff.2 ⟨hprincipal, hproperties⟩, if_pos howner⟩

/-- Adding a property puts it at its place. -/
theorem Placed.addProperty (h : t.Placed) (hadd : t.addProperty spec = .ok (p, t')) : t'.Placed := by
  obtain ⟨-, -, -, rfl⟩ := addProperty_eq_ok_iff.1 hadd
  exact h.place spec

/-! ## Consistency -/

/-- The properties of an entity type are at their places, under names of their own, its key and its
foreign keys consist of them, and without a native type all of them are shadow properties. -/
structure Consistent (t : EntityType) : Prop where
  placed : t.Placed
  named : ∀ p ∈ t.properties, p.name ≠ ""
  distinct : (t.properties.map (·.name)).Nodup
  key : ∀ k, t.key = some k → k.properties ≠ [] ∧ ∀ p ∈ k.properties, p ∈ t.properties
  foreignKeys : ∀ fk ∈ t.foreignKeys,
    fk.dependent.properties.length = fk.principal.properties.length ∧
      ∀ p ∈ fk.dependent.properties, p ∈ t.properties
  shadow : t.native = none → ∀ p ∈ t.properties, p.shadow = true

namespace Consistent

/-- An entity type starts without properties and keys. -/
theorem blank (id : EntityTypeId) (name : String) (native : Option NativeType) :
    { id, name, native : EntityType }.Consistent where
  placed := ⟨fun _ _ h => (nomatch h), fun _ h => (nomatch h)⟩
  named _ h := nomatch h
  distinct := List.nodup_nil
  key _ h := nomatch h
  foreignKeys _ h := nomatch h
  shadow _ _ h := nomatch h

theorem addProperty (h : t.Consistent) (hadd : t.addProperty spec = .ok (p, t')) :
    t'.Consistent := by
  obtain ⟨hname, hnew, -, rfl⟩ := addProperty_eq_ok_iff.1 hadd
  have hmem : ∀ q ∈ t.properties, q ∈ t.properties ++ [t.place spec] := fun q hq =>
    List.mem_append_left _ hq
  refine ⟨h.placed.place spec, ?named, nodup_keys_append h.distinct hnew, ?key, ?foreignKeys,
    ?shadow⟩
  case named =>
    intro q hq
    rcases List.mem_append.1 hq with hq | hq
    · exact h.named q hq
    · rwa [List.mem_singleton.1 hq]
  case key =>
    intro k hk
    obtain ⟨hne, hsub⟩ := h.key k hk
    exact ⟨hne, fun q hq => hmem q (hsub q hq)⟩
  case foreignKeys =>
    intro fk hfk
    obtain ⟨hlength, hsub⟩ := h.foreignKeys fk hfk
    exact ⟨hlength, fun q hq => hmem q (hsub q hq)⟩
  case shadow =>
    intro hnative q hq
    rcases List.mem_append.1 hq with hq | hq
    · exact h.shadow hnative q hq
    · have hnone : t.native = none := hnative
      rw [List.mem_singleton.1 hq, place, hnone, Option.isNone_none, Bool.or_true]

theorem setKey (h : t.Consistent) (hown : ∀ p ∈ properties, p.owner = t.id → p ∈ t.properties)
    (hset : t.setKey properties = .ok (k, t')) : t'.Consistent := by
  obtain ⟨rfl, howner, rfl⟩ := setKey_eq_ok_iff.1 hset
  refine ⟨⟨h.placed.index, h.placed.owner⟩, h.named, h.distinct, ?_, h.foreignKeys, h.shadow⟩
  rintro _ ⟨⟩
  exact ⟨List.cons_ne_nil _ _, fun p hp => hown p hp ((Key.owner_of_mem hp).trans howner)⟩

theorem addForeignKey (h : t.Consistent)
    (hown : ∀ p ∈ properties, p.owner = t.id → p ∈ t.properties)
    (hadd : t.addForeignKey principal properties = .ok (fk, t')) : t'.Consistent := by
  obtain ⟨-, rfl, howner, rfl⟩ := addForeignKey_eq_ok_iff.1 hadd
  refine ⟨⟨h.placed.index, h.placed.owner⟩, h.named, h.distinct, h.key, fun fk' hfk => ?_, h.shadow⟩
  rcases List.mem_append.1 hfk with hfk | hfk
  · exact h.foreignKeys fk' hfk
  · rw [List.mem_singleton.1 hfk]
    exact ⟨fk.sameLength, fun p hp => hown p hp ((Key.owner_of_mem hp).trans howner)⟩

/-- Properties of one name are at one place. -/
theorem index_of_name {q : Property} (h : t.Consistent) (hp : p ∈ t.properties)
    (hq : q ∈ t.properties) (hname : p.name = q.name) : p.index = q.index := by
  have hfind := find?_key_of_mem h.distinct hp
  rw [hname, find?_key_of_mem h.distinct hq] at hfind
  rw [Option.some.inj hfind]

end Consistent

end EntityType

end EntityMapper
