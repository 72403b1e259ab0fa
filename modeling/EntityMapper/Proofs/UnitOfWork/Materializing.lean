import EntityMapper.Proofs.Tracking.Materializing
import EntityMapper.Proofs.UnitOfWork.Typed

/-!
# Making entries from their values

In a unit of work, an entry can be made of values if they are one for each property and their
properties coerce them (`UnitOfWork.materialize_round_trip`). What an entry shows are values of the
right types, which coercing leaves as they are; so of the values that an entry shows, whatever was done
to it, another one can be made, and it shows the same.
-/

namespace EntityMapper

/-- Values that their properties take are loaded without a change. -/
theorem coerced_of_takes {properties : List Property} {vs : List Value}
    (h : List.Forall₂ Property.Takes properties vs) : Coerced (properties.zip vs) vs := by
  induction h with
  | nil => exact .nil
  | cons hp _ ih => exact .cons (Property.coerce_of_takes hp) ih

/-! ## An example -/

namespace Parts

/-- Parts can be made from nothing. -/
def stocked : Registry :=
  Registry.empty.register ⟨⟨"Part"⟩, some [("Number", .int 0), ("Whole", .null)], accessors⟩

theorem type_equipped : type.Equipped stocked where
  toFielded := { type_fielded with registry := Registry.sound_empty.register (by decide) }
  accessors := by
    intro p hp _
    rcases List.mem_pair.1 hp with rfl | rfl
    · exact ⟨_, rfl⟩
    · exact ⟨_, rfl⟩
  fresh := by
    rintro _ ⟨⟩
    exact ⟨_, rfl⟩

/-- The session in which parts can be made from nothing. -/
def stockedSession (made : Nat) : Session :=
  { (work entry .empty).session with registry := stocked, made }

/-- A part that is made from the number of another width. -/
theorem made_handled : UnitOfWork.Handled ⟨1⟩ ⟨[entry], stockedSession 1⟩ := by
  have hstart : Session.start (some ⟨[type]⟩) stocked (.ofOverrides [] fun _ _ => 0) =
      .ok (stockedSession 0) := rfl
  have hmade : (stockedSession 0).materialize type [.bigInt 1, .null] =
      .ok (entry, stockedSession 1) := rfl
  refine .materialize (.start hstart) hmade fun _ => ⟨type_equipped.toFielded, fun i htype hi => ?_⟩
  rw [← Option.some.inj htype] at hi
  cases hi
  intro p hp _ a ha
  rcases List.mem_pair.1 hp with rfl | rfl <;> cases ha
  · exact ⟨.inr rfl, nofun⟩
  · exact ⟨.inl rfl, fun _ => .inl rfl⟩

end Parts

namespace UnitOfWork

variable {u : UnitOfWork} {t : EntityType}

/-- **Making entries from values** goes through for values that are one for each property and can be
coerced by it, and for no others. The new entry is unknown, not tracked and without flags, and what the
values were coerced to are its current values and its baseline. Another entry can be made of the values
that an entry shows, and it shows the same. -/
theorem materialize_round_trip (h : u.Reachable) (ht : t.Equipped u.session.registry) :
    (∀ values, (∃ e s, u.session.materialize t values = .ok (e, s)) ↔
      values.length = t.properties.length ∧ ∃ ws, Coerced (t.properties.zip values) ws) ∧
    (∀ values e s, u.session.materialize t values = .ok (e, s) →
      e.type = t ∧ e.state = .unknown ∧ s.tracker.isTracked e.id = false ∧
      (∀ flag ∈ e.modified, flag = false) ∧
      ∃ ws, Coerced (t.properties.zip values) ws ∧ e.values = .ok ws ∧
        t.properties.mapM e.baselineValue = .ok ws) ∧
    ∀ e ∈ u.entries, u.Handled e.id → e.type = t →
      ∃ vs e' s, e.values = .ok vs ∧ u.session.materialize t vs = .ok (e', s) ∧
        e'.values = .ok vs := by
  refine ⟨fun values => ⟨fun ⟨e, s, hmade⟩ => Session.coerced_of_materialize hmade, ?_⟩,
    fun values e s hmade => ?_, fun e he hhandled htype => ?_⟩
  · rintro ⟨hlength, ws, hws⟩
    obtain ⟨e, hmade, -⟩ := Session.exists_materialized ht hlength hws
    exact ⟨e, _, hmade⟩
  · obtain ⟨hlength, ws, hws⟩ := Session.coerced_of_materialize hmade
    obtain ⟨e', hmade', hvalues, hbaseline⟩ := Session.exists_materialized ht hlength hws
    cases hmade.symm.trans hmade'
    obtain ⟨hid, htype, hstate, hmodified, -⟩ := (Session.materialize_fills hmade).fresh
    have hstep := inStep_of_reachable h
    have huntracked : u.session.tracker.find? e.id = none := by
      rw [hstep.roster.listed, hid, hstep.entryOf_next]
      rfl
    refine ⟨htype, hstate, congrArg Option.isSome (congrArg (Option.map _) huntracked), ?_, ws, hws,
      hvalues, Result.mapM_eq_ok_iff.2 hbaseline⟩
    rw [hmodified]
    simp
  · subst htype
    obtain ⟨followed, hwatched⟩ := hhandled.watched
    have htyped := (hwatched.holdsFaithful e ((inStep_of_reachable h).entryOf_of_mem he)).typed
    obtain ⟨vs, hvalues, htakes⟩ := htyped.readsTyped.values
    obtain ⟨e', hmade, hvalues', -⟩ :=
      Session.exists_materialized ht htakes.length_eq.symm (coerced_of_takes htakes)
    exact ⟨vs, e', _, hvalues, hmade, hvalues'⟩

theorem materialize_round_trip_parts :
    let u : UnitOfWork := ⟨[Parts.entry], Parts.stockedSession 1⟩
    u.Handled ⟨1⟩ ∧
    (∃ e s, u.session.materialize Parts.type [.smallInt 2, .bigInt 1] = .ok (e, s) ∧
      e.values = .ok [.int 2, .int 1]) ∧
    ¬ (∃ e s, u.session.materialize Parts.type [.null, .int 1] = .ok (e, s)) ∧
    ∃ e s, u.session.materialize Parts.type [.int 1, .null] = .ok (e, s) ∧
      e.values = .ok [.int 1, .null] := by
  intro u
  obtain ⟨_, hwatched⟩ := Parts.made_handled.watched
  obtain ⟨hmakes, hmade, hagain⟩ :=
    materialize_round_trip (u := u) hwatched.reachable Parts.type_equipped
  refine ⟨Parts.made_handled, ?_, ?_, ?_⟩
  · have hcoerced : Coerced (Parts.type.properties.zip [.smallInt 2, .bigInt 1]) [.int 2, .int 1] :=
      .cons rfl (.cons rfl .nil)
    obtain ⟨e, s, hmaterialize⟩ := (hmakes [.smallInt 2, .bigInt 1]).2 ⟨rfl, _, hcoerced⟩
    obtain ⟨-, -, -, -, ws, hws, hvalues, -⟩ := hmade _ e s hmaterialize
    obtain ⟨_, _, hfirst, hrest, rfl⟩ := List.forall₂_cons_left_iff.1 hws
    obtain ⟨_, _, hsecond, hnil, rfl⟩ := List.forall₂_cons_left_iff.1 hrest
    cases hfirst
    cases hsecond
    cases hnil
    exact ⟨e, s, hmaterialize, hvalues⟩
  · intro hmaterialize
    obtain ⟨-, ws, hws⟩ := (hmakes [.null, .int 1]).1 hmaterialize
    cases hws with
    | cons hnull _ => cases hnull
  · obtain ⟨vs, e', s, hvalues, hmaterialize, hvalues'⟩ :=
      hagain Parts.entry (.head _) Parts.made_handled rfl
    cases hvalues
    exact ⟨e', s, hmaterialize, hvalues'⟩

end UnitOfWork

end EntityMapper
