import EntityMapper.Proofs.Tracking.Reading
import EntityMapper.Proofs.Tracking.Snapshot
import EntityMapper.Proofs.UnitOfWork.Tracked

/-!
# The relationship snapshots of a unit of work

The relationship snapshot of an entry agrees with its primary values (`Entry.Agrees`) whatever is done
in its unit of work, as long as nothing goes around the entry. `UnitOfWork.Watched` tells the story
of a unit of work for one of its entries, and keeps track of whether something did, by a change of
the native instance or by one of the snapshot itself: then the next detection of changes brings them
in step again (`UnitOfWork.snapshot_of_watched`).

The invariant is `Entry.Faithful`. A new entry has it (`Session.Fills.typed`), each operation on the
entry keeps it (`EntryOperation.faithful_run`), and so does a save (`Saving.entryHolds_save`).
-/

namespace EntityMapper

open Stepwise

/-! ## Agreement -/

/-- The relationship snapshot of an entry agrees with its primary values, and the foreign keys of both
do, unless a sidecar shows another value of their properties. -/
structure Entry.Agrees (e : Entry) : Prop where
  values : ∀ p, e.type.owns p = true → e.type.inRelationship p = true →
    ∃ last current, e.snapshotValue p = .ok last ∧ e.primaryValue p = .ok current ∧
      last.keyEqual current = true
  keys : ∀ fk ∈ e.type.foreignKeys, (∀ p ∈ fk.dependent.properties, e.overlay? p = none) →
    ∃ last current, e.dependentSnapshot fk = .ok last ∧ e.dependentKey fk = .ok current ∧
      last.equal current = true

namespace Entry

variable {t : EntityType} {e : Entry} {p : Property}

theorem inRelationship_of_mem {fk : ForeignKey} (hfk : fk ∈ t.foreignKeys)
    (hp : p ∈ fk.dependent.properties) : t.inRelationship p = true := by
  have hcontains : fk.dependent.contains p = true :=
    List.any_eq_true.2 ⟨p, hp, Property.same_self p⟩
  rw [EntityType.inRelationship, Bool.or_eq_true]
  exact .inr (List.any_eq_true.2 ⟨fk, hfk, hcontains⟩)

/-- Where all properties were seen, the snapshot agrees with the primary values. -/
theorem Faithful.agrees (h : e.Faithful t fun _ => True) : e.Agrees := by
  have hvalues : ∀ p, e.type.owns p = true → e.type.inRelationship p = true →
      ∃ last current, e.snapshotValue p = .ok last ∧ e.primaryValue p = .ok current ∧
        last.keyEqual current = true := by
    intro p howns hrel
    rw [snapshotValue_of_owns howns]
    cases hlast : e.snapshot.lookup p.index with
    | none =>
      obtain ⟨v, hv⟩ := h.typed.declared.valid.primaryValue_ok p
      exact ⟨v, v, hv, hv, v.keyEqual_self⟩
    | some last =>
      -- The property stands for the one that the entity type lists in its place.
      obtain ⟨q, hq, hindex, hsame⟩ := h.typed.declared.valid.placed.exists_of_owns howns
      obtain ⟨current, hcurrent, hequal⟩ := h.snapped q (h.type ▸ hq) trivial
        ((EntityType.inRelationship_congr hsame).trans hrel) last (hindex ▸ hlast)
      exact ⟨last, current, rfl, (primaryValue_congr hindex).symm.trans hcurrent, hequal⟩
  refine ⟨hvalues, fun fk hfk hnone => exists_keys_equal fun p hp => ?_⟩
  have howns := h.typed.declared.foreignKeys fk hfk p hp
  rw [get_of_overlay?_eq_none howns (hnone p hp)]
  exact hvalues p howns (inRelationship_of_mem hfk hp)

end Entry

/-! ## Units of work -/

/-- The session makes an entry. -/
inductive Session.Making (s : Session) (e : Entry) (s' : Session) : Prop
  | adopt {t : EntityType} {i : Instance} (h : s.adopt t i = .ok (e, s'))
  | adoptByType {i : Instance} (h : s.adoptByType i = .ok (e, s'))
  | materialize {t : EntityType} {values : List Value} (h : s.materialize t values = .ok (e, s'))

namespace UnitOfWork

/-- What becomes of a unit of work, from the side of one of its entries: anything may be done to the
others, but this one has the native fields that its properties are declared with, and is handled by
operations that fit it. The flag tells whether its relationship snapshot has followed all changes; it
has not if an operation went around it, until changes are detected. -/
inductive Watched (id : EntryId) : Bool → UnitOfWork → Prop
  | start {model : Option Model} {registry : Registry} {generators : Generators} {s : Session}
      (h : Session.start model registry generators = .ok s) : Watched id true ⟨[], s⟩
  | make {u : UnitOfWork} {followed : Bool} {e : Entry} {s : Session} (h : Watched id followed u)
      (hmake : u.session.Making e s) (hentry : e.id = id → e.Declared ∧ e.FieldsTyped) :
      Watched id followed ⟨u.entries ++ [e], s⟩
  /-- An operation on any entry. On the watched one, it fits and does not go around the snapshot. -/
  | act {u : UnitOfWork} {followed : Bool} {e : Entry} (op : EntryOperation)
      (h : Watched id followed u) (he : e ∈ u.entries)
      (hop : e.id = id → op.Fits e ∧ op.tampers = false) :
      Watched id followed (u.put (op.run ⟨e, u.session⟩))
  /-- An operation on the watched entry that may go around the snapshot. -/
  | tamper {u : UnitOfWork} {followed : Bool} {e : Entry} (op : EntryOperation)
      (h : Watched id followed u) (he : e ∈ u.entries) (hid : e.id = id) (hop : op.Fits e) :
      Watched id false (u.put (op.run ⟨e, u.session⟩))
  /-- Changes of the watched entry are detected. -/
  | detect {u : UnitOfWork} {followed : Bool} {e : Entry} {answer : Bool} {s : Scope}
      (h : Watched id followed u) (he : e ∈ u.entries) (hid : e.id = id)
      (hstate : e.state = .unchanged ∨ e.state = .modified)
      (hok : perform Action.detect ⟨e, u.session⟩ = (.ok answer, s)) : Watched id true (u.put s)
  /-- A save of some entries, the watched one perhaps among them. -/
  | save {u : UnitOfWork} {followed : Bool} {chosen : List Entry} (h : Watched id followed u)
      (hchosen : ∀ e ∈ chosen, e ∈ u.entries) (d : Dialect) (executor : Executor) :
      Watched id followed
        (u.merge (Saving.save d executor { entries := chosen, session := u.session }).2)

variable {u : UnitOfWork} {e : Entry} {id : EntryId} {followed : Bool}

theorem run_detect {answer : Bool} {s s' : Scope}
    (h : perform Action.detect s = (.ok answer, s')) : EntryOperation.detect.run s = s' := by
  have hrun : perform (do let _ ← Action.detect) s = (.ok (), s') := by
    rw [perform_bind_of_ok h]
    rfl
  exact congrArg Prod.snd hrun

theorem Watched.reachable (h : u.Watched id followed) : u.Reachable := by
  induction h with
  | start h => exact .start h
  | make _ hmake _ ih =>
    cases hmake with
    | adopt h => exact ih.step (.adopt h)
    | adoptByType h => exact ih.step (.adoptByType h)
    | materialize h => exact ih.step (.materialize h)
  | act _ _ he _ ih => exact ih.step (.act he _)
  | tamper _ _ he _ _ ih => exact ih.step (.act he _)
  | detect _ he _ _ hok ih => exact run_detect hok ▸ ih.step (.act he .detect)
  | save _ hchosen d executor ih => exact ih.step (.save hchosen d executor)

/-- The entry is faithful, and its snapshot follows all properties if the flag says so. -/
def HoldsFaithful (id : EntryId) (followed : Bool) : UnitOfWork → Prop :=
  EntryHolds id fun e => e.Faithful e.type fun _ => followed = true

theorem HoldsFaithful.make {s : Session} (h : u.HoldsFaithful id followed) (hstep : u.InStep)
    (hmake : u.session.Making e s) (hentry : e.id = id → e.Declared ∧ e.FieldsTyped) :
    HoldsFaithful id followed ⟨u.entries ++ [e], s⟩ := by
  obtain ⟨t, hfills⟩ : ∃ t, u.session.Fills t e s := by
    cases hmake with
    | adopt h => exact ⟨_, Session.adopt_fills h⟩
    | adoptByType h =>
      obtain ⟨t, h⟩ := Session.adopt_of_adoptByType h
      exact ⟨t, Session.adopt_fills h⟩
    | materialize h => exact ⟨_, Session.materialize_fills h⟩
  refine EntryHolds.append h (hfills.fresh.1 ▸ hstep.entryOf_next) fun hid => ?_
  obtain ⟨hdeclared, hfields⟩ := hentry hid
  obtain ⟨htyped, hsnapshot⟩ := hfills.typed hdeclared hfields
  refine ⟨rfl, htyped, fun p _ _ _ last hlast => ?_⟩
  rw [hsnapshot] at hlast
  cases hlast

/-- What an operation on an entry keeps, it keeps in the unit of work. -/
theorem HoldsFaithful.put {followed' : Bool} {op : EntryOperation}
    (h : u.HoldsFaithful id followed) (hstep : u.InStep) (he : e ∈ u.entries)
    (hrun : e.id = id → (e.Faithful e.type fun _ => followed = true) →
      (op.run ⟨e, u.session⟩).entry.Faithful e.type fun _ => followed' = true)
    (hothers : e.id ≠ id → followed' = followed) :
    (u.put (op.run ⟨e, u.session⟩)).HoldsFaithful id followed' := by
  refine EntryHolds.put h (hstep.entryOf_of_mem he) (fun hid hfaithful => ?_) fun hid e he => ?_
  · have hfaithful' := hrun hid hfaithful
    rwa [hfaithful'.type]
  · rw [hothers hid]
    exact he

theorem HoldsFaithful.merge {chosen : List Entry} (h : u.HoldsFaithful id followed)
    (hstep : u.InStep) (hchosen : ∀ e ∈ chosen, e ∈ u.entries) (d : Dialect) (executor : Executor) :
    (u.merge (Saving.save d executor { entries := chosen, session := u.session }).2).HoldsFaithful
      id followed := by
  intro e' he'
  obtain ⟨e₀, he₀, -⟩ := Option.map_eq_some_iff.1 ((entryOf_merge_eq_map ..).symm.trans he')
  have hsame : ∀ e ∈ u.entries, e.id = id → e₀ = e := by
    rintro e he rfl
    exact Option.some.inj (he₀.symm.trans (hstep.entryOf_of_mem he))
  have hall : u.EntryHolds id (Entry.Faithful e₀.type fun _ => followed = true) := by
    intro e he
    obtain rfl := hsame e (mem_of_entryOf he) (Roster.id_of_ofEntries he)
    exact h e₀ he
  have hstart : Saving.EntryHolds id (Entry.Faithful e₀.type fun _ => followed = true)
      { entries := chosen, session := u.session } := by
    intro e he
    obtain rfl := hsame e (hchosen e (List.mem_of_find?_eq_some he)) (SaveScope.id_of_entryOf he)
    exact hall e₀ he₀
  have hsaved := Saving.entryHolds_save (fun e he => he.overlaid he.typed.prepare)
    (fun e he hid c hc row => Action.receive_keeps_faithful (fun column hcolumn => by
      obtain rfl := hsame e (hchosen e he) hid
      exact EntityType.knows_of_mem (List.mem_filter.1 (hc.generable_of_mem_reads hcolumn)).1) row)
    Action.settle_keeps_faithful (fun e he => he.overlaid he.typed.rollBack) d executor hstart
  have hfaithful := EntryHolds.merge hall hsaved e' he'
  rwa [hfaithful.type]

/-- A watched entry is faithful. -/
theorem Watched.holdsFaithful (h : u.Watched id followed) : u.HoldsFaithful id followed := by
  induction h with
  | start h => exact fun e he => absurd (mem_of_entryOf he) List.not_mem_nil
  | make h hmake hentry ih => exact ih.make (inStep_of_reachable h.reachable) hmake hentry
  | act _ h he hop ih =>
    refine ih.put (inStep_of_reachable h.reachable) he (fun hid hfaithful => ?_) fun _ => rfl
    obtain ⟨hfits, hspares⟩ := hop hid
    exact EntryOperation.faithful_run hfaithful hfits fun htampers => by
      rw [hspares] at htampers
      cases htampers
  | tamper _ h he hid hop ih =>
    refine ih.put (inStep_of_reachable h.reachable) he (fun _ hfaithful => ?_) fun hne =>
      absurd hid hne
    exact EntryOperation.faithful_run (hfaithful.mono fun _ _ h => absurd h Bool.false_ne_true) hop
      fun _ _ => Bool.false_ne_true
  | @detect u _ e _ _ h he hid hstate hok ih =>
    refine run_detect hok ▸ ih.put (inStep_of_reachable h.reachable) he (fun _ hfaithful => ?_)
      fun hne => absurd hid hne
    obtain ⟨answer, s', hrun, hs'⟩ := Action.detect_faithful (s := ⟨e, u.session⟩) hfaithful
    rw [run_detect hrun]
    exact hs'.mono fun _ _ _ => .inr hstate
  | save h hchosen d executor ih =>
    exact ih.merge (inStep_of_reachable h.reachable) hchosen d executor

/-- **Relationship snapshots.** Whatever is done in a unit of work, an entry that nothing goes around
has a relationship snapshot that agrees with its primary values. Where something did go around an
unchanged or modified entry, detecting changes goes through, and then the two agree. -/
theorem snapshot_of_watched (h : u.Watched e.id followed) (he : e ∈ u.entries) :
    (followed = true → e.Agrees) ∧
    (e.state = .unchanged ∨ e.state = .modified →
      ∃ answer s, perform Action.detect ⟨e, u.session⟩ = (.ok answer, s) ∧ s.entry.Agrees) := by
  have hfaithful := h.holdsFaithful e ((inStep_of_reachable h.reachable).entryOf_of_mem he)
  constructor
  · intro hfollowed
    exact (hfaithful.mono fun _ _ _ => hfollowed).agrees
  · intro hstate
    obtain ⟨answer, s, hrun, hs⟩ := Action.detect_faithful (s := ⟨e, u.session⟩) hfaithful
    exact ⟨answer, s, hrun, (hs.mono fun _ _ _ => .inr hstate).agrees⟩

end UnitOfWork

/-! ## An example -/

namespace Parts

/-- The number of a part. -/
def number : Property where
  name := "Number"
  owner := ⟨0⟩
  ownerName := "Part"
  index := 0
  valueType := .int
  nullable := false
  shadow := false
  concurrencyToken := false
  clientGenerated := false
  storeGeneration := .never
  column := none
  tableKey := none

/-- The number of the part that a part belongs to. -/
def whole : Property :=
  { number with name := "Whole", index := 1, nullable := true }

/-- Parts are told apart by their numbers. -/
def numbers : Key :=
  ⟨number, [], List.forall_mem_nil _⟩

/-- Parts, which refer to other parts. -/
def type : EntityType where
  id := ⟨0⟩
  name := "Part"
  native := some ⟨"Part"⟩
  properties := [number, whole]
  key := some numbers
  foreignKeys := [⟨numbers, ⟨whole, [], List.forall_mem_nil _⟩, rfl⟩]

/-- The accessors of the native type of parts. -/
def accessors : List Accessor :=
  [.field ⟨"Part"⟩ "Number" .int32, .field ⟨"Part"⟩ "Whole" (.optional .int32)]

/-- The native instance of the first part. -/
def part (whole : Value) : Instance :=
  ⟨⟨"Part"⟩, [("Number", .int 1), ("Whole", whole)]⟩

/-- Its entry when it is new. -/
def entry : Entry where
  id := ⟨1⟩
  type
  native := some (part .null)
  shadow := [.int 0, .null]
  accessors := accessors.map some
  state := .unknown
  modified := [false, false]
  sidecars := [.baseline type.properties]
  snapshot := []

/-- Its entry once the part was made one of another part. -/
def edited (whole : Value) : Entry :=
  { entry with
    native := some (part whole)
    state := .modified
    modified := [false, true]
    sidecars := [.baselineWith type.properties [(1, .null)]]
    snapshot := [(1, .int 7)] }

/-- What the tracker knows once the part was changed. -/
def tracked : Tracker :=
  ⟨[(⟨1⟩, ⟨"Part", .modified⟩)]⟩

/-- A unit of work with the first part, which is tracked or not. -/
def work (e : Entry) (tracker : Tracker) : UnitOfWork where
  entries := [e]
  session :=
    { model := ⟨[type]⟩
      registry := Registry.empty.register ⟨⟨"Part"⟩, none, accessors⟩
      generators := .ofOverrides [] fun _ _ => 0
      tracker
      made := 1 }

theorem placed : type.Placed where
  index := by
    intro i p h
    match i with
    | 0 | 1 =>
      cases h
      rfl
    | _ + 2 => cases h
  owner := by decide

theorem entry_declared : entry.Declared where
  valid := by
    refine ⟨placed, rfl, fun a ha => ⟨part .null, rfl, ?_⟩⟩
    rcases List.mem_pair.1 ha with h | h <;> cases h <;> rfl
  native := by
    intro p hp
    rcases List.mem_pair.1 hp with rfl | rfl <;> rfl
  served := by
    intro p hp a ha
    rcases List.mem_pair.1 hp with rfl | rfl <;> cases ha
    · exact (Accessor.field_holds _ _ _).serves rfl rfl rfl
    · exact (Accessor.field_holds _ _ _).serves rfl rfl rfl
  apart := by
    intro p hp q hq hne a b ha hb
    rcases List.mem_pair.1 hp with rfl | rfl <;> rcases List.mem_pair.1 hq with rfl | rfl <;>
      cases ha <;> cases hb
    · exact absurd rfl hne
    · exact Accessor.field_apart (by decide)
    · exact Accessor.field_apart (by decide)
    · exact absurd rfl hne
  foreignKeys := by decide

theorem edited_fieldsTyped {v : Value} (hv : whole.Takes v) : (edited v).FieldsTyped := by
  intro p hp _ w hw
  rcases List.mem_pair.1 hp with rfl | rfl
  · have hw : (.ok (.int 1) : Result Value) = .ok w := hw
    cases hw
    exact ⟨.inr rfl, nofun⟩
  · have hw : (.ok v : Result Value) = .ok w := hw
    cases hw
    exact hv

theorem entry_fieldsTyped : entry.FieldsTyped :=
  edited_fieldsTyped (v := .null) ⟨.inl rfl, fun _ => .inl rfl⟩

/-- The part is adopted, taken for unchanged, and made one of another part. -/
theorem edited_watched : (work (edited (.int 7)) tracked).Watched ⟨1⟩ true := by
  have hstart : Session.start (some ⟨[type]⟩) (Registry.empty.register ⟨⟨"Part"⟩, none, accessors⟩)
      (.ofOverrides [] fun _ _ => 0) = .ok { (work entry .empty).session with made := 0 } := rfl
  have hmade : Session.adopt { (work entry .empty).session with made := 0 } type (part .null) =
      .ok (entry, (work entry .empty).session) := rfl
  have h₁ : (work entry .empty).Watched ⟨1⟩ true :=
    .make (.start hstart) (.adopt hmade) fun _ => ⟨entry_declared, entry_fieldsTyped⟩
  have h₂ := h₁.act (e := entry) (.setState .unchanged) (.head _) fun _ => ⟨trivial, rfl⟩
  have hknows : type.Knows whole := fun _ => by decide
  exact h₂.act (e := { entry with state := .unchanged }) (.set whole (.int 7)) (.head _) fun _ =>
    ⟨hknows, rfl⟩

/-- The native instance is changed behind the entry's back. -/
theorem tampered_watched : (work (edited (.int 9)) tracked).Watched ⟨1⟩ false :=
  edited_watched.tamper (e := edited (.int 7)) (.mutate (Fields.set "Whole" (.int 9)))
    (.head _) rfl (edited_fieldsTyped (v := .int 9) ⟨.inr rfl, nofun⟩)

end Parts

namespace UnitOfWork

theorem snapshot_of_watched_parts :
    (Parts.work (Parts.edited (.int 7)) Parts.tracked).Watched ⟨1⟩ true ∧ (Parts.edited (.int 7)).Agrees ∧
    (Parts.work (Parts.edited (.int 9)) Parts.tracked).Watched ⟨1⟩ false ∧ ¬ (Parts.edited (.int 9)).Agrees ∧
    ∃ answer s, perform Action.detect
        ⟨Parts.edited (.int 9), (Parts.work (Parts.edited (.int 9)) Parts.tracked).session⟩ =
          (.ok answer, s) ∧
      s.entry.Agrees ∧ s.entry.snapshotValue Parts.whole = .ok (.int 9) := by
  refine ⟨Parts.edited_watched, (snapshot_of_watched Parts.edited_watched (.head _)).1 rfl,
    Parts.tampered_watched, fun hagrees => ?_, ?_⟩
  · obtain ⟨last, current, hlast, hcurrent, hequal⟩ := hagrees.values Parts.whole rfl rfl
    have hlast : (.ok (.int 7) : Result Value) = .ok last := hlast
    have hcurrent : (.ok (.int 9) : Result Value) = .ok current := hcurrent
    cases hlast
    cases hcurrent
    cases hequal
  · obtain ⟨answer, s, hrun, hagrees⟩ := (snapshot_of_watched (e := Parts.edited (.int 9))
      Parts.tampered_watched (.head _)).2 (.inr rfl)
    refine ⟨answer, s, hrun, hagrees, ?_⟩
    rw [← run_detect hrun]
    rfl

end UnitOfWork

end EntityMapper
