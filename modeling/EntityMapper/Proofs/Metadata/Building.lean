import EntityMapper.Proofs.Metadata.Consistency

/-!
# Building entity types

A `Draft` holds the entity types that a program builds and the properties that they have given it. A
call creates an entity type, which may have the name of another, or adds to one, and its arguments
are properties that the program has been given, by whichever entity type (`Draft.Legal`).

No order of such calls makes an entity type inconsistent (`Draft.consistent_of_built`). What carries
this is that the properties given under an identity are those of the entity type of that identity
(`Draft.Sound`), so that properties of another entity type are told apart by their owner.
-/

namespace EntityMapper

/-- Entity types under construction, and the properties that they have given, each with the identity
of the entity type that gave it. -/
structure Draft where
  types : List EntityType := []
  given : List (EntityTypeId × Property) := []

namespace Draft

/-- What a program may ask for. -/
inductive Call
  | create (id : EntityTypeId) (name : String) (native : Option NativeType)
  | addProperty (id : EntityTypeId) (spec : PropertySpec)
  | setKey (id : EntityTypeId) (properties : List Property)
  | addForeignKey (id : EntityTypeId) (principal : Key) (properties : List Property)

/-- Puts what a builder makes of the entity type of an identity in its place, together with the
properties that the builder gives. -/
def change (d : Draft) (id : EntityTypeId)
    (build : EntityType → Result (List Property × EntityType)) : Result Unit × Draft :=
  match d.types.find? (·.id == id) with
  | none => (.error (.notFound .entityType (toString id.number) none), d)
  | some t =>
    match build t with
    | .ok (properties, t') =>
      (.ok (), ⟨d.types.map fun u => if u.id = id then t' else u,
        d.given ++ properties.map fun p => (id, p)⟩)
    | .error err => (.error err, d)

/-- The answer to a call, and what is built then. -/
def perform (d : Draft) : Call → Result Unit × Draft
  | .create id name native => (.ok (), { d with types := d.types ++ [{ id, name, native }] })
  | .addProperty id spec => d.change id fun t => do
    let (p, t') ← t.addProperty spec
    return ([p], t')
  | .setKey id properties => d.change id fun t => do
    let (_, t') ← t.setKey properties
    return ([], t')
  | .addForeignKey id principal properties => d.change id fun t => do
    let (_, t') ← t.addForeignKey principal properties
    return ([], t')

/-- What is built after a call. -/
def after (d : Draft) (c : Call) : Draft :=
  (d.perform c).2

/-- Some entity type has given a property. -/
def Gave (d : Draft) (p : Property) : Prop :=
  ∃ g ∈ d.given, g.2 = p

/-- There is an entity type of an identity. -/
def Has (d : Draft) (id : EntityTypeId) : Prop :=
  ∃ t ∈ d.types, t.id = id

/-- The calls that a program can make: a new entity type has an identity of its own, and properties
come from entity types, be it the one that is changed or another. -/
def Legal (d : Draft) : Call → Prop
  | .create id _ _ => ¬ d.Has id
  | .addProperty id _ => d.Has id
  | .setKey id properties => d.Has id ∧ ∀ p ∈ properties, d.Gave p
  | .addForeignKey id principal properties =>
    d.Has id ∧ (∀ p ∈ principal.properties, d.Gave p) ∧ ∀ p ∈ properties, d.Gave p

instance (d : Draft) (id : EntityTypeId) : Decidable (d.Has id) :=
  inferInstanceAs (Decidable (∃ t ∈ d.types, t.id = id))

instance (d : Draft) (p : Property) : Decidable (d.Gave p) :=
  inferInstanceAs (Decidable (∃ g ∈ d.given, g.2 = p))

instance (d : Draft) : DecidablePred d.Legal
  | .create id _ _ => inferInstanceAs (Decidable (¬ d.Has id))
  | .addProperty id _ => inferInstanceAs (Decidable (d.Has id))
  | .setKey id properties => inferInstanceAs (Decidable (d.Has id ∧ ∀ p ∈ properties, d.Gave p))
  | .addForeignKey id principal properties => inferInstanceAs (Decidable
      (d.Has id ∧ (∀ p ∈ principal.properties, d.Gave p) ∧ ∀ p ∈ properties, d.Gave p))

/-- The calls that are in order: properties have new names, and keys consist of properties that the
entity type itself gave. -/
def Accepts (d : Draft) : Call → Prop
  | .create _ _ _ => True
  | .addProperty id spec =>
    spec.name ≠ "" ∧ ∀ t ∈ d.types, t.id = id → ∀ q ∈ t.properties, q.name ≠ spec.name
  | .setKey id properties => properties ≠ [] ∧ ∀ p ∈ properties, (id, p) ∈ d.given
  | .addForeignKey id principal properties =>
    properties.length = principal.properties.length ∧ ∀ p ∈ properties, (id, p) ∈ d.given

/-- What calls build, those that fail included. -/
inductive Built : Draft → Prop
  | empty : Built {}
  | step {d : Draft} {c : Call} (h : d.Built) (hc : d.Legal c) : Built (d.after c)

/-! ## The invariant -/

/-- The entity types are consistent and told apart by their identities, and the properties given
under an identity are those of its entity type. -/
structure Sound (d : Draft) : Prop where
  ids : (d.types.map (·.id)).Nodup
  consistent : ∀ t ∈ d.types, t.Consistent
  given : ∀ id p, (id, p) ∈ d.given ↔ ∃ t ∈ d.types, t.id = id ∧ p ∈ t.properties

variable {d d' : Draft} {id : EntityTypeId} {t t' : EntityType} {p : Property}
  {properties : List Property} {build : EntityType → Result (List Property × EntityType)}

namespace Sound

theorem find?_id (h : d.Sound) (ht : t ∈ d.types) : d.types.find? (·.id == t.id) = some t :=
  find?_key_of_mem h.ids ht

theorem eq_of_id (h : d.Sound) (ht : t ∈ d.types) (ht' : t' ∈ d.types) (hid : t'.id = t.id) :
    t' = t := by
  have hfind := h.find?_id ht'
  rw [hid, h.find?_id ht] at hfind
  exact (Option.some.inj hfind).symm

theorem given_iff (h : d.Sound) (ht : t ∈ d.types) : (t.id, p) ∈ d.given ↔ p ∈ t.properties := by
  rw [h.given]
  constructor
  · rintro ⟨u, hu, hid, hp⟩
    rwa [h.eq_of_id ht hu hid] at hp
  · intro hp
    exact ⟨t, ht, rfl, hp⟩

theorem gave_iff (h : d.Sound) : d.Gave p ↔ ∃ t ∈ d.types, p ∈ t.properties := by
  constructor
  · rintro ⟨⟨id, p⟩, hp, rfl⟩
    obtain ⟨t, ht, -, hp⟩ := (h.given id p).1 hp
    exact ⟨t, ht, hp⟩
  · rintro ⟨t, ht, hp⟩
    exact ⟨(t.id, p), (h.given_iff ht).2 hp, rfl⟩

/-- A property that was given belongs to the entity type that it names as its owner. -/
theorem mem_of_owner (h : d.Sound) (ht : t ∈ d.types) (hp : d.Gave p) (howner : p.owner = t.id) :
    p ∈ t.properties := by
  obtain ⟨u, hu, hp⟩ := h.gave_iff.1 hp
  have hid : u.id = t.id := ((h.consistent u hu).placed.owner p hp).symm.trans howner
  rwa [h.eq_of_id ht hu hid] at hp

/-- A property that was given is owned by the entity type that gave it, and by no other. -/
theorem owns_iff (h : d.Sound) (ht : t ∈ d.types) (hp : d.Gave p) :
    t.owns p = true ↔ (t.id, p) ∈ d.given := by
  rw [h.given_iff ht]
  constructor
  · intro howns
    have howner : p.owner = t.id := by simpa using (Bool.and_eq_true_iff.1 howns).1
    exact h.mem_of_owner ht hp howner
  · exact fun hp => (h.consistent t ht).placed.owns_of_mem hp

end Sound

/-! ## One call -/

theorem change_of_mem (h : d.Sound) (ht : t ∈ d.types) : d.change t.id build =
    match build t with
    | .ok (properties, t') =>
      (.ok (), ⟨d.types.map fun u => if u.id = t.id then t' else u,
        d.given ++ properties.map fun p => (t.id, p)⟩)
    | .error err => (.error err, d) := by
  rw [change, h.find?_id ht]

/-- A change succeeds if what it makes of the entity type does. -/
theorem change_eq_ok_iff (h : d.Sound) (ht : t ∈ d.types) :
    (d.change t.id build).1 = .ok () ↔ ∃ r, build t = .ok r := by
  rw [change_of_mem h ht]
  cases build t with
  | ok r => exact ⟨fun _ => ⟨r, rfl⟩, fun _ => rfl⟩
  | error err => exact ⟨fun h => (nomatch h), fun ⟨_, h⟩ => (nomatch h)⟩

theorem change_of_error {err : Error} (hd : d.change id build = (.error err, d')) : d' = d := by
  unfold change at hd
  split at hd
  · cases hd
    rfl
  split at hd
  · cases hd
  · cases hd
    rfl

/-- Where an entity type is replaced, there are the new one and all that have another identity. -/
theorem mem_replaced {u : EntityType} (ht : t ∈ d.types) :
    (u ∈ d.types.map fun u => if u.id = t.id then t' else u) ↔
      u = t' ∨ u ∈ d.types ∧ u.id ≠ t.id := by
  rw [List.mem_map]
  constructor
  · rintro ⟨v, hv, rfl⟩
    by_cases hvt : v.id = t.id
    · exact .inl (if_pos hvt)
    · rw [if_neg hvt]
      exact .inr ⟨hv, hvt⟩
  · rintro (rfl | ⟨hu, hut⟩)
    · exact ⟨t, ht, if_pos rfl⟩
    · exact ⟨u, hu, if_neg hut⟩

theorem ids_replaced (hid : t'.id = t.id) :
    (d.types.map fun u => if u.id = t.id then t' else u).map (·.id) = d.types.map (·.id) := by
  rw [List.map_map]
  refine List.map_congr_left fun u _ => ?_
  rw [Function.comp_apply]
  split
  · rename_i hu
    exact hid.trans hu.symm
  · rfl

/-- A change keeps a draft sound if the entity type stays consistent and has exactly the properties
that it gives in addition. -/
theorem Sound.change (h : d.Sound) (ht : t ∈ d.types)
    (hbuild : ∀ ps t', build t = .ok (ps, t') →
      t'.id = t.id ∧ t'.Consistent ∧ ∀ p, p ∈ t'.properties ↔ p ∈ t.properties ∨ p ∈ ps) :
    (d.change t.id build).2.Sound := by
  rw [change_of_mem h ht]
  cases hb : build t with
  | error err => exact h
  | ok r =>
    obtain ⟨ps, t'⟩ := r
    obtain ⟨hid, hconsistent, hproperties⟩ := hbuild ps t' hb
    have hmem : ∀ u, (u ∈ d.types.map fun u => if u.id = t.id then t' else u) ↔
        u = t' ∨ u ∈ d.types ∧ u.id ≠ t.id := fun u => mem_replaced ht
    refine ⟨(ids_replaced hid).symm ▸ h.ids, ?consistent, ?given⟩
    case consistent =>
      intro u hu
      rcases (hmem u).1 hu with rfl | ⟨hu, -⟩
      · exact hconsistent
      · exact h.consistent u hu
    case given =>
      intro id p
      rw [List.mem_append, List.mem_map, h.given]
      constructor
      · rintro (⟨u, hu, rfl, hp⟩ | ⟨q, hq, heq⟩)
        · by_cases hut : u.id = t.id
          · rw [h.eq_of_id ht hu hut] at hp
            exact ⟨t', (hmem t').2 (.inl rfl), hid.trans hut.symm, (hproperties p).2 (.inl hp)⟩
          · exact ⟨u, (hmem u).2 (.inr ⟨hu, hut⟩), rfl, hp⟩
        · cases heq
          exact ⟨t', (hmem t').2 (.inl rfl), hid, (hproperties p).2 (.inr hq)⟩
      · rintro ⟨u, hu, rfl, hp⟩
        rcases (hmem u).1 hu with rfl | ⟨hu, -⟩
        · rcases (hproperties p).1 hp with hp | hp
          · exact .inl ⟨t, ht, hid.symm, hp⟩
          · exact .inr ⟨p, hp, by rw [hid]⟩
        · exact .inl ⟨u, hu, rfl, hp⟩

theorem Sound.create {name : String} {native : Option NativeType} (h : d.Sound) (hid : ¬ d.Has id) :
    (d.after (.create id name native)).Sound := by
  refine ⟨nodup_keys_append h.ids fun u hu heq => hid ⟨u, hu, heq⟩, ?consistent, ?given⟩
  case consistent =>
    intro t ht
    rcases List.mem_append.1 ht with ht | ht
    · exact h.consistent t ht
    · rw [List.mem_singleton.1 ht]
      exact .blank id name native
  case given =>
    intro i p
    rw [Draft.after, perform, h.given]
    constructor
    · rintro ⟨u, hu, hi, hp⟩
      exact ⟨u, List.mem_append_left _ hu, hi, hp⟩
    · rintro ⟨u, hu, hi, hp⟩
      rcases List.mem_append.1 hu with hu | hu
      · exact ⟨u, hu, hi, hp⟩
      · rw [List.mem_singleton.1 hu] at hp
        cases hp

/-- Every call keeps a draft sound. -/
theorem Sound.after {c : Call} (h : d.Sound) (hc : d.Legal c) : (d.after c).Sound := by
  cases c with
  | create id name native => exact h.create hc
  | addProperty id spec =>
    obtain ⟨t, ht, rfl⟩ := hc
    refine h.change ht fun ps t' hb => ?_
    obtain ⟨⟨p, t''⟩, hadd, hmap⟩ := Result.bind_eq_ok_iff.1 hb
    cases hmap
    have hconsistent := (h.consistent t ht).addProperty hadd
    obtain ⟨-, -, rfl, rfl⟩ := EntityType.addProperty_eq_ok_iff.1 hadd
    exact ⟨rfl, hconsistent, fun q => List.mem_append⟩
  | setKey id properties =>
    obtain ⟨⟨t, ht, rfl⟩, hgave⟩ := hc
    refine h.change ht fun ps t' hb => ?_
    obtain ⟨⟨k, t''⟩, hset, hmap⟩ := Result.bind_eq_ok_iff.1 hb
    cases hmap
    have hconsistent := (h.consistent t ht).setKey
      (fun p hp => h.mem_of_owner ht (hgave p hp)) hset
    obtain ⟨-, -, rfl⟩ := EntityType.setKey_eq_ok_iff.1 hset
    exact ⟨rfl, hconsistent, fun q => by simp⟩
  | addForeignKey id principal properties =>
    obtain ⟨⟨t, ht, rfl⟩, -, hgave⟩ := hc
    refine h.change ht fun ps t' hb => ?_
    obtain ⟨⟨fk, t''⟩, hadd, hmap⟩ := Result.bind_eq_ok_iff.1 hb
    cases hmap
    have hconsistent := (h.consistent t ht).addForeignKey
      (fun p hp => h.mem_of_owner ht (hgave p hp)) hadd
    obtain ⟨-, -, -, rfl⟩ := EntityType.addForeignKey_eq_ok_iff.1 hadd
    exact ⟨rfl, hconsistent, fun q => by simp⟩

/-- Whatever calls built it, a draft is sound. -/
theorem Built.sound (h : d.Built) : d.Sound := by
  induction h with
  | empty => exact ⟨List.nodup_nil, fun _ h => (nomatch h), fun _ _ => by simp⟩
  | step _ hc ih => exact ih.after hc

theorem perform_of_error {c : Call} {err : Error} (hd : d.perform c = (.error err, d')) :
    d' = d := by
  cases c with
  | create id name native => cases hd
  | addProperty id spec => exact change_of_error hd
  | setKey id properties => exact change_of_error hd
  | addForeignKey id principal properties => exact change_of_error hd

/-! ## Which calls succeed -/

/-- Properties that an entity type gave make a key of it. -/
theorem Sound.exists_key (h : d.Sound) (ht : t ∈ d.types) (hne : properties ≠ [])
    (hgiven : ∀ p ∈ properties, (t.id, p) ∈ d.given) :
    ∃ k : Key, k.properties = properties ∧ k.owner = t.id := by
  have howner : ∀ p ∈ properties, p.owner = t.id := fun p hp =>
    (h.consistent t ht).placed.owner p ((h.given_iff ht).1 (hgiven p hp))
  obtain ⟨first, rest, rfl⟩ := List.exists_cons_of_ne_nil hne
  obtain ⟨hfirst, hrest⟩ := List.forall_mem_cons.1 howner
  exact ⟨⟨first, rest, fun p hp => (hrest p hp).trans hfirst.symm⟩, rfl, hfirst⟩

/-- A key of an entity type consists of properties that it gave. -/
theorem Sound.given_of_key {k : Key} (h : d.Sound) (ht : t ∈ d.types) (howner : k.owner = t.id)
    (hgave : ∀ p ∈ k.properties, d.Gave p) : ∀ p ∈ k.properties, (t.id, p) ∈ d.given := fun p hp =>
  (h.given_iff ht).2 (h.mem_of_owner ht (hgave p hp) ((Key.owner_of_mem hp).trans howner))

/-- A call succeeds if it is in order. -/
theorem Sound.perform_eq_ok_iff {c : Call} (h : d.Sound) (hc : d.Legal c) :
    (d.perform c).1 = .ok () ↔ d.Accepts c := by
  cases c with
  | create id name native => exact ⟨fun _ => trivial, fun _ => rfl⟩
  | addProperty id spec =>
    obtain ⟨t, ht, rfl⟩ := hc
    refine (change_eq_ok_iff h ht).trans ⟨?_, ?_⟩
    · rintro ⟨r, hr⟩
      obtain ⟨⟨p, t'⟩, hadd, -⟩ := Result.bind_eq_ok_iff.1 hr
      obtain ⟨hname, hnew, -⟩ := EntityType.addProperty_eq_ok_iff.1 hadd
      refine ⟨hname, fun u hu hid => ?_⟩
      rw [h.eq_of_id ht hu hid]
      exact hnew
    · rintro ⟨hname, hnew⟩
      have hadd := EntityType.addProperty_eq_ok_iff.2 ⟨hname, hnew t ht rfl, rfl, rfl⟩
      exact ⟨_, Result.bind_eq_ok_iff.2 ⟨_, hadd, rfl⟩⟩
  | setKey id properties =>
    obtain ⟨⟨t, ht, rfl⟩, hgave⟩ := hc
    refine (change_eq_ok_iff h ht).trans ⟨?_, ?_⟩
    · rintro ⟨r, hr⟩
      obtain ⟨⟨k, t'⟩, hset, -⟩ := Result.bind_eq_ok_iff.1 hr
      obtain ⟨rfl, howner, -⟩ := EntityType.setKey_eq_ok_iff.1 hset
      exact ⟨List.cons_ne_nil _ _, h.given_of_key ht howner hgave⟩
    · rintro ⟨hne, hgiven⟩
      obtain ⟨k, hk, howner⟩ := h.exists_key ht hne hgiven
      have hset := EntityType.setKey_eq_ok_iff.2 ⟨hk, howner, rfl⟩
      exact ⟨_, Result.bind_eq_ok_iff.2 ⟨_, hset, rfl⟩⟩
  | addForeignKey id principal properties =>
    obtain ⟨⟨t, ht, rfl⟩, -, hgave⟩ := hc
    refine (change_eq_ok_iff h ht).trans ⟨?_, ?_⟩
    · rintro ⟨r, hr⟩
      obtain ⟨⟨fk, t'⟩, hadd, -⟩ := Result.bind_eq_ok_iff.1 hr
      obtain ⟨rfl, rfl, howner, -⟩ := EntityType.addForeignKey_eq_ok_iff.1 hadd
      exact ⟨fk.sameLength, h.given_of_key ht howner hgave⟩
    · rintro ⟨hlength, hgiven⟩
      have hne : properties ≠ [] := fun hnil => by
        rw [hnil] at hlength
        cases hlength
      obtain ⟨k, rfl, howner⟩ := h.exists_key ht hne hgiven
      have hadd : t.addForeignKey principal k.properties = .ok (⟨principal, k, hlength⟩, _) :=
        EntityType.addForeignKey_eq_ok_iff.2 ⟨rfl, rfl, howner, rfl⟩
      exact ⟨_, Result.bind_eq_ok_iff.2 ⟨_, hadd, rfl⟩⟩

/-- **Metadata stays consistent**, whatever calls build it, those that fail included, and however
many entity types share a name: every entity type is consistent, it owns of all properties that were
given exactly those that it gave itself, a call succeeds exactly if it is in order, and one that
fails changes nothing. -/
theorem consistent_of_built (h : d.Built) :
    (∀ t ∈ d.types, t.Consistent) ∧
      (∀ t ∈ d.types, ∀ p, d.Gave p → (t.owns p = true ↔ (t.id, p) ∈ d.given)) ∧
      ∀ c, d.Legal c → ((d.perform c).1 = .ok () ↔ d.Accepts c) ∧
        ∀ err d', d.perform c = (.error err, d') → d' = d :=
  ⟨h.sound.consistent, fun _ ht _ hp => h.sound.owns_iff ht hp,
    fun _ hc => ⟨h.sound.perform_eq_ok_iff hc, fun _ _ => perform_of_error⟩⟩

/-- The property `Id` of an entity type that is called "Tag". -/
def tagId (id : EntityTypeId) : Property :=
  { id, name := "Tag" : EntityType }.place { name := "Id", valueType := .bigInt }

/-- Two entity types are called "Tag" and have the key `Id`, and the second refers to the first. For
the key of the first its look-alike was tried, too. -/
def tags : Draft :=
  ({} : Draft)
    |>.after (.create ⟨1⟩ "Tag" none)
    |>.after (.create ⟨2⟩ "Tag" none)
    |>.after (.addProperty ⟨1⟩ { name := "Id", valueType := .bigInt })
    |>.after (.addProperty ⟨2⟩ { name := "Id", valueType := .bigInt })
    |>.after (.setKey ⟨1⟩ [tagId ⟨2⟩])
    |>.after (.setKey ⟨1⟩ [tagId ⟨1⟩])
    |>.after (.addForeignKey ⟨2⟩ ⟨tagId ⟨1⟩, [], by simp⟩ [tagId ⟨2⟩])

theorem tags_built : tags.Built :=
  .step (.step (.step (.step (.step (.step (.step .empty (by decide)) (by decide)) (by decide))
    (by decide)) (by decide)) (by decide)) (by decide)

theorem tags_consistent :
    tags.Built ∧ (∀ t ∈ tags.types, t.Consistent) ∧
      (∀ t ∈ tags.types, ∀ p, tags.Gave p → (t.owns p = true ↔ (t.id, p) ∈ tags.given)) ∧
      tags.types.map (fun t => (t.name, t.owns (tagId ⟨1⟩))) = [("Tag", true), ("Tag", false)] ∧
      (tags.perform (.setKey ⟨1⟩ [tagId ⟨2⟩])).1 ≠ .ok () := by
  obtain ⟨hconsistent, howns, hcalls⟩ := consistent_of_built tags_built
  refine ⟨tags_built, hconsistent, howns, by decide, fun hok => ?_⟩
  obtain ⟨-, hgiven⟩ := (hcalls (.setKey ⟨1⟩ [tagId ⟨2⟩]) (by decide)).1.1 hok
  exact absurd (hgiven (tagId ⟨2⟩) (by simp)) (by decide)

end Draft

end EntityMapper
