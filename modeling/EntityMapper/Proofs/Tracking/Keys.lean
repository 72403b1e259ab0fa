import EntityMapper.Proofs.Stepwise
import EntityMapper.Proofs.Value.Equivalence
import EntityMapper.Tracking.Entry

/-!
# Which entries a foreign key relates

The key of an entry is made of what it reads for the properties of the key (`Entry.keyOf_eq_ok_iff`).
So the keys on the two sides of a foreign key are equal if both entries read null somewhere, or if
they read equal values for each pair of properties (`Entry.equal_keysOf_iff`). With the laws of
`Value.keyEqual` and `EntityKey.equal` this is what relationships are found by
(`EntityKey.equal_lawful`).
-/

namespace EntityMapper

/-- Lists of readings are related if the readings are. -/
theorem forall₂_readings_iff {α β γ δ : Type} {read : α → Result γ} {read' : β → Result δ}
    {R : γ → δ → Prop} {as : List α} {bs : List β} {cs : List γ} {ds : List δ}
    (has : List.Forall₂ (fun a c => read a = .ok c) as cs)
    (hbs : List.Forall₂ (fun b d => read' b = .ok d) bs ds) : List.Forall₂ R cs ds ↔
      List.Forall₂ (fun a b => ∃ c d, read a = .ok c ∧ read' b = .ok d ∧ R c d) as bs := by
  induction has generalizing bs ds with
  | nil =>
    cases hbs with
    | nil => exact iff_of_true .nil .nil
    | cons => exact iff_of_false nofun nofun
  | cons ha _ ih =>
    cases hbs with
    | nil => exact iff_of_false nofun nofun
    | cons hb hbs =>
      rw [List.forall₂_cons, List.forall₂_cons, ih hbs]
      refine and_congr_left fun _ => ⟨fun h => ⟨_, _, ha, hb, h⟩, ?_⟩
      rintro ⟨_, _, ha', hb', h⟩
      cases ha.symm.trans ha'
      cases hb.symm.trans hb'
      exact h

namespace Entry

variable {properties : List Property} {read read' : Property → Result Value} {a b : Key}
  {k l : EntityKey} {vs : List Value}

/-- A key is made of what is read for its properties. -/
theorem keyOf_eq_ok_iff : keyOf properties read = .ok k ↔
    ∃ vs, List.Forall₂ (fun p v => read p = .ok v) properties vs ∧ EntityKey.ofValues vs = k := by
  rw [keyOf, Result.bind_eq_ok_iff]
  exact exists_congr fun vs => and_congr Result.mapM_eq_ok_iff ⟨Except.ok.inj, congrArg _⟩

/-- There is at least one property, so only a null makes a key identify nothing. -/
theorem incomplete_iff (h : List.Forall₂ (fun p v => read p = .ok v) a.properties vs) :
    EntityKey.Incomplete vs ↔ ∃ p ∈ a.properties, read p = .ok .null := by
  constructor
  · rintro (rfl | hnull)
    · cases h
    · obtain ⟨p, hp, hread⟩ := exists_of_forall₂ h.flip hnull
      exact ⟨p, hp, hread⟩
  · rintro ⟨p, hp, hnull⟩
    obtain ⟨v, hv, hread⟩ := exists_of_forall₂ h hp
    cases hnull.symm.trans hread
    exact .inr hv

/-- What is read for two keys makes them equal if there is a null on both sides, or if the values of
each pair of properties are. -/
theorem equal_keysOf_iff (hk : keyOf a.properties read = .ok k)
    (hl : keyOf b.properties read' = .ok l) : k.equal l = true ↔
      ((∃ p ∈ a.properties, read p = .ok .null) ∧ ∃ q ∈ b.properties, read' q = .ok .null) ∨
      List.Forall₂ (fun p q => ∃ v w, read p = .ok v ∧ read' q = .ok w ∧ v.keyEqual w = true)
        a.properties b.properties := by
  obtain ⟨vs, hvs, rfl⟩ := keyOf_eq_ok_iff.1 hk
  obtain ⟨ws, hws, rfl⟩ := keyOf_eq_ok_iff.1 hl
  rw [← incomplete_iff hvs, ← incomplete_iff hws, ← forall₂_readings_iff hvs hws]
  constructor
  · intro h
    exact (EntityKey.equal_ofValues_iff.1 h).imp_right fun h => h.2.2
  · rintro (h | h)
    · exact EntityKey.equal_ofValues_iff.2 (.inl h)
    · exact EntityKey.equal_ofValues h

end Entry

namespace EntityKey

/-- **Equality of keys.** Key equality of values and equality of keys are equivalences, and keys are
equal if their components are, or if neither key has all of its components. So the foreign key of a
dependent equals the key of a principal if both read null somewhere, or if what they read matches
property by property. -/
theorem equal_lawful :
    (Equivalence fun v w : Value => v.keyEqual w = true) ∧
    (Equivalence fun k l : EntityKey => k.equal l = true) ∧
    (∀ vs ws : List Value, (ofValues vs).equal (ofValues ws) = true ↔
      Incomplete vs ∧ Incomplete ws ∨ ¬ Incomplete vs ∧ ¬ Incomplete ws ∧
        List.Forall₂ (fun v w => v.keyEqual w = true) vs ws) ∧
    ∀ (d p : Entry) (fk : ForeignKey) (k l : EntityKey),
      d.dependentKey fk = .ok k → p.principalKey fk = .ok l →
      (k.equal l = true ↔
        ((∃ q ∈ fk.dependent.properties, d.get q = .ok .null) ∧
          ∃ r ∈ fk.principal.properties, p.get r = .ok .null) ∨
        List.Forall₂ (fun q r => ∃ v w, d.get q = .ok v ∧ p.get r = .ok w ∧ v.keyEqual w = true)
          fk.dependent.properties fk.principal.properties) :=
  ⟨Value.keyEqual_equivalence, equal_equivalence, fun _ _ => equal_ofValues_iff,
    fun _ _ _ _ _ hk hl => Entry.equal_keysOf_iff hk hl⟩

end EntityKey

/-! ## An example -/

namespace Rooms

/-- The house or the number of a room, or of the room of a guest. -/
def part (owner index : Nat) : Property where
  name := ""
  owner := ⟨owner⟩
  ownerName := ""
  index
  valueType := .int
  nullable := true
  shadow := true
  concurrencyToken := false
  clientGenerated := false
  storeGeneration := .never
  column := none
  tableKey := none

/-- The house and the number. -/
def key (owner : Nat) : Key :=
  ⟨part owner 0, [part owner 1], List.forall_mem_singleton.2 rfl⟩

/-- The room of a guest. -/
def stay : ForeignKey :=
  ⟨key 0, key 1, rfl⟩

/-- A room (`owner` is 0) or a guest (`owner` is 1). -/
def row (owner : Nat) (house number : Value) : Entry where
  id := ⟨owner⟩
  type := { id := ⟨owner⟩, name := "", properties := (key owner).properties }
  native := none
  shadow := [house, number]
  accessors := [none, none]
  state := .unchanged
  modified := [false, false]
  sidecars := []
  snapshot := []

end Rooms

namespace EntityKey

open Rooms

/-- A guest of the second room in the first house is not one of the first room in the second. -/
theorem equal_lawful_rooms :
    ∃ guest second first, (row 1 (.int 1) (.int 2)).dependentKey stay = .ok guest ∧
      (row 0 (.int 1) (.int 2)).principalKey stay = .ok second ∧
      (row 0 (.int 2) (.int 1)).principalKey stay = .ok first ∧
      guest.equal second = true ∧ ¬ guest.equal first = true := by
  have hguest : (row 1 (.int 1) (.int 2)).dependentKey stay =
    .ok (.composite [.int 1, .int 2]) := rfl
  have hsecond : (row 0 (.int 1) (.int 2)).principalKey stay =
    .ok (.composite [.int 1, .int 2]) := rfl
  have hfirst : (row 0 (.int 2) (.int 1)).principalKey stay =
    .ok (.composite [.int 2, .int 1]) := rfl
  obtain ⟨-, -, -, hkeys⟩ := equal_lawful
  refine ⟨_, _, _, hguest, hsecond, hfirst, ?_, fun hequal => ?_⟩
  · exact (hkeys _ _ _ _ _ hguest hsecond).2
      (.inr (.cons ⟨_, _, rfl, rfl, rfl⟩ (.cons ⟨_, _, rfl, rfl, rfl⟩ .nil)))
  · rcases (hkeys _ _ _ _ _ hguest hfirst).1 hequal with ⟨⟨q, hq, hnull⟩, -⟩ | hmatch
    · rcases List.mem_pair.1 hq with rfl | rfl <;> cases hnull
    · obtain ⟨⟨_, _, hhouse, hhouse', hsame⟩, -⟩ := List.forall₂_cons.1 hmatch
      cases hhouse
      cases hhouse'
      cases hsame

end EntityKey

end EntityMapper
