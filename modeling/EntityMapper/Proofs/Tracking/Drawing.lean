import EntityMapper.Proofs.Metadata.Consistency
import EntityMapper.Tracking.Generation

/-!
# Drawing values

Generators are used in two ways (`Generators.Draws`): the generator of a property is chosen, and a
value is drawn from one. Whatever is used, what was chosen stays chosen, and no generator draws a
value twice (`Generators.Later`).

A property of a type without an override draws from a generator of its own
(`Generators.BuiltInFor`), so what it gets next is told by the number of values that it has drawn so
far (`Generators.drawnFor`, `Generators.exists_draw`). Drawing for entity types of one configuration
leaves it at that (`Generators.Continues`).
-/

namespace EntityMapper

/-- Entity types of one configuration: their identities tell them apart. -/
structure EntityType.Distinct (types : List EntityType) : Prop where
  placed : ∀ t ∈ types, t.Placed
  apart : ∀ t ∈ types, ∀ t' ∈ types, t.id = t'.id → t = t'

namespace EntityType.Distinct

variable {types : List EntityType} {t t' : EntityType} {p p' : Property}

/-- Entity type and position tell properties apart. -/
theorem eq_of_place (h : Distinct types) (ht : t ∈ types) (ht' : t' ∈ types)
    (hp : p ∈ t.properties) (hp' : p' ∈ t'.properties)
    (hplace : (t'.id, p'.index) = (t.id, p.index)) : p' = p := by
  obtain ⟨hid, hindex⟩ := Prod.mk.inj hplace
  obtain rfl := h.apart t' ht' t ht hid
  exact (h.placed t' ht').eq_of_index hp' hp hindex

end EntityType.Distinct

namespace Generators

variable {g g' g'' : Generators} {types : List EntityType} {t : EntityType} {p : Property}
  {id : GeneratorId}

/-- One use of the generators for an entity type. -/
inductive Draws (t : EntityType) (g : Generators) : Generators → Prop
  /-- The generator of a property is chosen. -/
  | choose {p : Property} {id : GeneratorId} {g' : Generators} (hp : p ∈ t.properties)
      (h : g.choose t p = .ok (id, g')) : Draws t g g'
  /-- A value is drawn for a property. -/
  | next {p : Property} (hp : p ∈ t.properties) (id : GeneratorId) : Draws t g (g.next id p).2

/-! ## What stays -/

/-- Generators, and the same ones later on: what was chosen stays chosen, and each generator has drawn
as many values as before or more. -/
structure Later (g g' : Generators) : Prop where
  overrides : g'.overrides = g.overrides
  chosen : ∀ place id, g.chosen.find? place = some id → g'.chosen.find? place = some id
  sources : ∀ (i : Nat) (s : Source), g.sources[i]? = some s →
    ∃ n, s.drawn ≤ n ∧ g'.sources[i]? = some ⟨s.generator, n⟩

theorem Later.refl (g : Generators) : g.Later g :=
  ⟨rfl, fun _ _ h => h, fun _ s h => ⟨s.drawn, Nat.le_refl _, h⟩⟩

theorem Later.trans (h : g.Later g') (h' : g'.Later g'') : g.Later g'' := by
  refine ⟨h'.overrides.trans h.overrides, fun place id hid => h'.chosen _ _ (h.chosen _ _ hid),
    fun i s hs => ?_⟩
  obtain ⟨n, hn, hs'⟩ := h.sources i s hs
  obtain ⟨n', hn', hs''⟩ := h'.sources i _ hs'
  exact ⟨n', Nat.le_trans hn hn', hs''⟩

/-- What choosing a generator does: there is one, or there is an override, or a new one is made. -/
theorem choose_cases (h : g.choose t p = .ok (id, g')) :
    (g.chosen.find? (t.id, p.index) = some id ∧ g' = g) ∨
    (g.chosen.find? (t.id, p.index) = none ∧ g.overrides.lookup p.valueType = some id ∧
      g' = { g with chosen := g.chosen.add (t.id, p.index) id }) ∨
    (g.chosen.find? (t.id, p.index) = none ∧ g.overrides.lookup p.valueType = none ∧
      ∃ generator, builtIn? p.valueType = some generator ∧ id = ⟨g.sources.length⟩ ∧
        g' = { g with
          chosen := g.chosen.add (t.id, p.index) id
          sources := g.sources ++ [⟨generator, 0⟩] }) := by
  rw [choose] at h
  dsimp only at h
  split at h
  · next hchosen =>
    cases h
    exact .inl ⟨hchosen, rfl⟩
  · next hnew =>
    split at h
    · next hoverride =>
      cases h
      exact .inr (.inl ⟨hnew, hoverride, rfl⟩)
    · next hoverride =>
      split at h
      · next generator hgenerator =>
        cases h
        exact .inr (.inr ⟨hnew, hoverride, generator, hgenerator, rfl, rfl⟩)
      · cases h

theorem later_choose (h : g.choose t p = .ok (id, g')) : g.Later g' := by
  have hadd : ∀ place id', g.chosen.find? place = some id' →
      (g.chosen.add (t.id, p.index) id).find? place = some id' := fun place id' hid => by
    rw [FirstWins.find?_add, hid, Option.some_or]
  rcases choose_cases h with ⟨-, rfl⟩ | ⟨-, -, rfl⟩ | ⟨-, -, generator, -, -, rfl⟩
  · exact .refl g'
  · exact ⟨rfl, hadd, fun _ s hs => ⟨s.drawn, Nat.le_refl _, hs⟩⟩
  · refine ⟨rfl, hadd, fun i s hs => ⟨s.drawn, Nat.le_refl _, ?_⟩⟩
    exact (List.getElem?_append_left (List.getElem?_eq_some_iff.1 hs).1).trans hs

theorem later_next (id : GeneratorId) (p : Property) : g.Later (g.next id p).2 := by
  rw [next]
  split
  · exact .refl g
  · next s hs =>
    refine ⟨rfl, fun _ _ h => h, fun i s' hs' => ?_⟩
    by_cases hi : id.number = i
    · subst hi
      obtain rfl := Option.some.inj (hs.symm.trans hs')
      exact ⟨s.drawn + 1, Nat.le_succ _,
        List.getElem?_set_self (List.getElem?_eq_some_iff.1 hs).1⟩
    · exact ⟨s'.drawn, Nat.le_refl _, (List.getElem?_set_ne hi).trans hs'⟩

theorem Draws.later (h : Draws t g g') : g.Later g' := by
  cases h with
  | choose _ h => exact later_choose h
  | next _ id => exact later_next id _

/-! ## Generators of their own -/

/-- Properties of types without an override draw from generators that the library has for their
types, and each of them from a generator that nothing else draws from. -/
structure BuiltInFor (types : List EntityType) (g : Generators) : Prop where
  overrides : ∀ v id, g.overrides.lookup v = some id → id.number < g.sources.length
  chosen : ∀ place id, g.chosen.find? place = some id → id.number < g.sources.length
  source : ∀ t ∈ types, ∀ p ∈ t.properties, g.overrides.lookup p.valueType = none →
    ∀ id, g.chosen.find? (t.id, p.index) = some id →
      ∃ generator n, builtIn? p.valueType = some generator ∧
        g.sources[id.number]? = some ⟨generator, n⟩
  own : ∀ t ∈ types, ∀ p ∈ t.properties, g.overrides.lookup p.valueType = none →
    ∀ id, g.chosen.find? (t.id, p.index) = some id →
      (∀ v, g.overrides.lookup v ≠ some id) ∧
        ∀ place, g.chosen.find? place = some id → place = (t.id, p.index)

/-- Generators that nothing was drawn from. -/
theorem builtInFor_ofOverrides (types : List EntityType) (overrides : List (ValueType × Generator))
    (random : GeneratorId → Nat → BitVec 128) : (ofOverrides overrides random).BuiltInFor types where
  overrides v id hid := by
    obtain ⟨_, _, hsplit, -⟩ := List.lookup_eq_some_iff.1 hid
    have hmem : (v, id) ∈ (ofOverrides overrides random).overrides :=
      hsplit ▸ List.mem_append_right _ List.mem_cons_self
    obtain ⟨⟨_, i⟩, hi, heq⟩ := List.mem_map.1 hmem
    cases heq
    simpa [ofOverrides] using List.snd_lt_of_mem_zipIdx hi
  chosen _ _ hid := nomatch hid
  source _ _ _ _ _ _ hid := nomatch hid
  own _ _ _ _ _ _ hid := nomatch hid

theorem find?_chosen_add_iff {place place' : EntityTypeId × Nat} {id' : GeneratorId}
    (hnew : g.chosen.find? place = none) : (g.chosen.add place id).find? place' = some id' ↔
      g.chosen.find? place' = some id' ∨ place' = place ∧ id = id' := by
  rw [FirstWins.find?_add]
  by_cases hplace : place' = place
  · rw [hplace, hnew, if_pos rfl, Option.none_or]
    simp
  · simp [hplace]

theorem BuiltInFor.next (h : g.BuiltInFor types) (id : GeneratorId) (p : Property) :
    (g.next id p).2.BuiltInFor types := by
  have hoverrides : (g.next id p).2.overrides = g.overrides := (later_next id p).overrides
  have hchosen : (g.next id p).2.chosen = g.chosen := by
    rw [Generators.next]
    split <;> rfl
  have hlength : (g.next id p).2.sources.length = g.sources.length := by
    rw [Generators.next]
    split
    · rfl
    · exact List.length_set
  refine ⟨?_, ?_, fun t ht p' hp' hoverride id' hid' => ?_, ?_⟩
  · rw [hoverrides, hlength]
    exact h.overrides
  · rw [hchosen, hlength]
    exact h.chosen
  · rw [hoverrides] at hoverride
    rw [hchosen] at hid'
    obtain ⟨generator, n, hgenerator, hs⟩ := h.source t ht p' hp' hoverride id' hid'
    obtain ⟨n', -, hs'⟩ := (later_next id p).sources _ _ hs
    exact ⟨generator, n', hgenerator, hs'⟩
  · rw [hoverrides, hchosen]
    exact h.own

section Choosing

variable (h : g.BuiltInFor types) (distinct : EntityType.Distinct types) (ht : t ∈ types)
  (hp : p ∈ t.properties) (hnew : g.chosen.find? (t.id, p.index) = none)

include h distinct ht hp hnew

/-- An override may be chosen for many properties, but for none that has a generator of its own. -/
theorem BuiltInFor.share (hlookup : g.overrides.lookup p.valueType = some id) :
    BuiltInFor types { g with chosen := g.chosen.add (t.id, p.index) id } := by
  have hold : ∀ t' ∈ types, ∀ p' ∈ t'.properties, g.overrides.lookup p'.valueType = none →
      ∀ id', (g.chosen.add (t.id, p.index) id).find? (t'.id, p'.index) = some id' →
        g.chosen.find? (t'.id, p'.index) = some id' := by
    intro t' ht' p' hp' hoverride id' hid'
    rcases (find?_chosen_add_iff hnew).1 hid' with hid' | ⟨hplace, -⟩
    · exact hid'
    · rw [distinct.eq_of_place ht ht' hp hp' hplace, hlookup] at hoverride
      cases hoverride
  refine ⟨h.overrides, fun place id' hid' => ?_, fun t' ht' p' hp' hoverride id' hid' => ?_,
    fun t' ht' p' hp' hoverride id' hid' => ?_⟩
  · rcases (find?_chosen_add_iff hnew).1 hid' with hid' | ⟨-, rfl⟩
    · exact h.chosen place id' hid'
    · exact h.overrides _ _ hlookup
  · exact h.source t' ht' p' hp' hoverride id' (hold t' ht' p' hp' hoverride id' hid')
  · obtain ⟨hnone, hown⟩ := h.own t' ht' p' hp' hoverride id' (hold t' ht' p' hp' hoverride id' hid')
    refine ⟨hnone, fun place hid => ?_⟩
    rcases (find?_chosen_add_iff hnew).1 hid with hid | ⟨-, rfl⟩
    · exact hown place hid
    · exact absurd hlookup (hnone _)

/-- A generator that is made for a property was neither an override nor chosen before. -/
theorem BuiltInFor.make {generator : Generator} (hgenerator : builtIn? p.valueType = some generator) :
    BuiltInFor types { g with
      chosen := g.chosen.add (t.id, p.index) ⟨g.sources.length⟩
      sources := g.sources ++ [⟨generator, 0⟩] } := by
  have hlength : ∀ {i}, i < g.sources.length →
      i < (g.sources ++ [(⟨generator, 0⟩ : Source)]).length := fun hi => by
    rw [List.length_append]
    exact Nat.lt_add_right _ hi
  refine ⟨fun v id' hid' => hlength (h.overrides v id' hid'), fun place id' hid' => ?_,
    fun t' ht' p' hp' hoverride id' hid' => ?_, fun t' ht' p' hp' hoverride id' hid' => ?_⟩
  · rcases (find?_chosen_add_iff hnew).1 hid' with hid' | ⟨-, rfl⟩
    · exact hlength (h.chosen place id' hid')
    · simp
  · rcases (find?_chosen_add_iff hnew).1 hid' with hid' | ⟨hplace, rfl⟩
    · obtain ⟨generator', n, hgenerator', hs⟩ := h.source t' ht' p' hp' hoverride id' hid'
      exact ⟨generator', n, hgenerator',
        (List.getElem?_append_left (List.getElem?_eq_some_iff.1 hs).1).trans hs⟩
    · rw [distinct.eq_of_place ht ht' hp hp' hplace]
      exact ⟨generator, 0, hgenerator, by simp⟩
  · rcases (find?_chosen_add_iff hnew).1 hid' with hid' | ⟨hplace, rfl⟩
    · obtain ⟨hnone, hown⟩ := h.own t' ht' p' hp' hoverride id' hid'
      refine ⟨hnone, fun place hid => ?_⟩
      rcases (find?_chosen_add_iff hnew).1 hid with hid | ⟨-, rfl⟩
      · exact hown place hid
      · exact absurd (h.chosen _ _ hid') (Nat.lt_irrefl _)
    · refine ⟨fun v hv => absurd (h.overrides v _ hv) (Nat.lt_irrefl _), fun place hid => ?_⟩
      rcases (find?_chosen_add_iff hnew).1 hid with hid | ⟨hplace', -⟩
      · exact absurd (h.chosen _ _ hid) (Nat.lt_irrefl _)
      · exact hplace'.trans hplace.symm

end Choosing

theorem BuiltInFor.draws (h : g.BuiltInFor types) (distinct : EntityType.Distinct types)
    (ht : t ∈ types) (hdraws : Draws t g g') : g'.BuiltInFor types := by
  cases hdraws with
  | choose hp hchoose =>
    rcases choose_cases hchoose with ⟨-, rfl⟩ | ⟨hnew, hlookup, rfl⟩ |
      ⟨hnew, -, generator, hgenerator, rfl, rfl⟩
    · exact h
    · exact h.share distinct ht hp hnew hlookup
    · exact h.make distinct ht hp hnew hgenerator
  | next _ id => exact h.next id _

/-- Generators, and the same ones after some uses for entity types: they are later ones, and built-in
ones still. -/
structure Continues (types : List EntityType) (g g' : Generators) : Prop where
  later : g.Later g'
  builtIn : g.BuiltInFor types → g'.BuiltInFor types

theorem Continues.refl (types : List EntityType) (g : Generators) : g.Continues types g :=
  ⟨.refl g, id⟩

theorem Continues.trans (h : g.Continues types g') (h' : g'.Continues types g'') :
    g.Continues types g'' :=
  ⟨h.later.trans h'.later, h'.builtIn ∘ h.builtIn⟩

theorem Draws.continues (h : Draws t g g') (distinct : EntityType.Distinct types) (ht : t ∈ types) :
    g.Continues types g' :=
  ⟨h.later, fun hg => hg.draws distinct ht h⟩

/-! ## How often a property has drawn -/

/-- The number of values that the generator of a property has drawn. -/
def drawnFor (g : Generators) (t : EntityType) (p : Property) : Nat :=
  ((g.chosen.find? (t.id, p.index)).bind fun id => g.sources[id.number]?).elim 0 (·.drawn)

theorem drawnFor_of_chosen {s : Source} (hid : g.chosen.find? (t.id, p.index) = some id)
    (hs : g.sources[id.number]? = some s) : g.drawnFor t p = s.drawn := by
  rw [drawnFor, hid, Option.bind_some, hs, Option.elim_some]

theorem drawnFor_of_new (h : g.chosen.find? (t.id, p.index) = none) : g.drawnFor t p = 0 := by
  rw [drawnFor, h]
  rfl

theorem Later.drawnFor_le (h : g.Later g') (t : EntityType) (p : Property) :
    g.drawnFor t p ≤ g'.drawnFor t p := by
  cases hid : g.chosen.find? (t.id, p.index) with
  | none =>
    rw [drawnFor_of_new hid]
    exact Nat.zero_le _
  | some id =>
    cases hs : g.sources[id.number]? with
    | none =>
      rw [drawnFor, hid, Option.bind_some, hs]
      exact Nat.zero_le _
    | some s =>
      obtain ⟨n, hn, hs'⟩ := h.sources _ s hs
      rw [drawnFor_of_chosen hid hs, drawnFor_of_chosen (h.chosen _ _ hid) hs']
      exact hn

/-- Drawing from a generator of its own leaves what other places have drawn. -/
theorem drawnFor_set {t' : EntityType} {p' : Property} {s : Source}
    (hother : g.chosen.find? (t'.id, p'.index) ≠ some id) :
    drawnFor { g with sources := g.sources.set id.number s } t' p' = g.drawnFor t' p' := by
  rw [drawnFor, drawnFor]
  cases hid : g.chosen.find? (t'.id, p'.index) with
  | none => rfl
  | some id' =>
    have hne : id.number ≠ id'.number := by
      rintro heq
      obtain ⟨i⟩ := id
      obtain ⟨i'⟩ := id'
      cases heq
      exact hother hid
    rw [Option.bind_some, Option.bind_some, List.getElem?_set_ne hne]

/-- Choosing a generator for a property without an override finds or makes one of its own, and draws
for none. -/
theorem exists_choose (h : g.BuiltInFor types) (ht : t ∈ types) (hp : p ∈ t.properties)
    (hoverride : g.overrides.lookup p.valueType = none) {generator : Generator}
    (hgenerator : builtIn? p.valueType = some generator) :
    ∃ id g₁, g.choose t p = .ok (id, g₁) ∧ g₁.chosen.find? (t.id, p.index) = some id ∧
      g₁.sources[id.number]? = some ⟨generator, g.drawnFor t p⟩ ∧
      ∀ t' p', (t'.id, p'.index) ≠ (t.id, p.index) →
        g₁.chosen.find? (t'.id, p'.index) ≠ some id ∧ g₁.drawnFor t' p' = g.drawnFor t' p' := by
  cases hid : g.chosen.find? (t.id, p.index) with
  | some id =>
    obtain ⟨generator', n, hgenerator', hs⟩ := h.source t ht p hp hoverride id hid
    obtain ⟨-, hown⟩ := h.own t ht p hp hoverride id hid
    obtain rfl := Option.some.inj (hgenerator.symm.trans hgenerator')
    refine ⟨id, g, by rw [choose, hid], hid, ?_, fun t' p' hne => ⟨mt (hown _) hne, rfl⟩⟩
    rw [drawnFor_of_chosen hid hs, hs]
  | none =>
    refine ⟨⟨g.sources.length⟩, _, by rw [choose, hid, hoverride, hgenerator], ?_, ?_,
      fun t' p' hne => ?_⟩
    · exact (find?_chosen_add_iff hid).2 (.inr ⟨rfl, rfl⟩)
    · rw [drawnFor_of_new hid]
      simp
    · have hfind : ∀ id', (g.chosen.add (t.id, p.index) ⟨g.sources.length⟩).find?
          (t'.id, p'.index) = some id' ↔ g.chosen.find? (t'.id, p'.index) = some id' := fun id' =>
        (find?_chosen_add_iff hid).trans (or_iff_left fun hplace => hne hplace.1)
      refine ⟨fun hnew => absurd (h.chosen _ _ ((hfind _).1 hnew)) (Nat.lt_irrefl _), ?_⟩
      rw [drawnFor, drawnFor, Option.ext hfind]
      cases hold : g.chosen.find? (t'.id, p'.index) with
      | none => rfl
      | some id' =>
        rw [Option.bind_some, Option.bind_some, List.getElem?_append_left (h.chosen _ _ hold)]

/-- **Drawing for a property without an override.** It has a generator of its own, which gives the
value after those that it has given before, and no other property draws. -/
theorem exists_draw (h : g.BuiltInFor types) (ht : t ∈ types) (hp : p ∈ t.properties)
    (hoverride : g.overrides.lookup p.valueType = none) {generator : Generator}
    (hgenerator : builtIn? p.valueType = some generator) :
    ∃ id g₁ g₂, g.choose t p = .ok (id, g₁) ∧
      g₁.next id p = (g₁.valueAt id generator (g.drawnFor t p) p, g₂) ∧
      g₂.drawnFor t p = g.drawnFor t p + 1 ∧
      ∀ t' p', (t'.id, p'.index) ≠ (t.id, p.index) → g₂.drawnFor t' p' = g.drawnFor t' p' := by
  obtain ⟨id, g₁, hchoose, hid, hs, hothers⟩ := exists_choose h ht hp hoverride hgenerator
  have hlt : id.number < g₁.sources.length := (List.getElem?_eq_some_iff.1 hs).1
  let drawn : Source := ⟨generator, g.drawnFor t p + 1⟩
  refine ⟨id, g₁, { g₁ with sources := g₁.sources.set id.number drawn }, hchoose, ?_, ?_,
    fun t' p' hne => ?_⟩
  · rw [next, hs]
  · exact drawnFor_of_chosen (s := drawn) hid (List.getElem?_set_self hlt)
  · obtain ⟨hother, hdrawn⟩ := hothers t' p' hne
    exact (drawnFor_set hother).trans hdrawn

end Generators

end EntityMapper
