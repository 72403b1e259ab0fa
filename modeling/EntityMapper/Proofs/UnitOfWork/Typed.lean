import EntityMapper.Proofs.Sql.Placeholders
import EntityMapper.Proofs.Tracking.Fields
import EntityMapper.Proofs.UnitOfWork.Relationships

/-!
# Typed values in a unit of work

Values come into an entry when it is made, written, or told what its baseline or its snapshot is,
when its sidecars are filled, and when the client or the store generates them. All of these go
through the coercion of the property. So whatever is done in a unit of work, what is read of an
entry is null or of the type that the property is declared with, and null only where the property
takes null; and commands have such values as parameters (`UnitOfWork.readsTyped_of_handled`).

An entry is typed where it stores values (`Entry.Typed`), which each step keeps
(`UnitOfWork.Watched.holdsFaithful`). `Entry.ReadsTyped` is what follows for its readers.
-/

namespace EntityMapper

/-! ## What is read of an entry -/

/-- Each property can be read, and what is read is what the property takes: currently, from the
baseline, from the relationship snapshot, and from the sidecars. -/
structure Entry.ReadsTyped (e : Entry) : Prop where
  get : ∀ p ∈ e.type.properties, ∃ v, e.get p = .ok v ∧ p.Takes v
  baselineValue : ∀ p ∈ e.type.properties, ∃ v, e.baselineValue p = .ok v ∧ p.Takes v
  snapshotValue : ∀ p ∈ e.type.properties, ∃ v, e.snapshotValue p = .ok v ∧ p.Takes v
  sidecarValue : ∀ name s, e.sidecar? name = some s → ∀ p ∈ e.type.properties,
    ∃ v, e.sidecarValue name p = .ok v ∧ p.Takes v
  values : ∃ vs, e.values = .ok vs ∧ List.Forall₂ Property.Takes e.type.properties vs
  /-- A parameter of a command is that of a column, and the property of the column takes it. -/
  parameters : ∀ names c, Command.ofEntry e names = .ok (some c) → ∀ parameter ∈ c.parameters,
    ∃ column ∈ c.columns, column.property ∈ e.type.properties ∧
      (column.parameter = some parameter.name ∨
        column.baselineParameter = some parameter.name) ∧
      column.property.Takes parameter.value

/-- What a typed sidecar holds for a property. -/
theorem Sidecar.Typed.get? {t : EntityType} {s : Sidecar} {p : Property} {v : Value}
    (h : s.Typed t) (placed : t.Placed) (hp : p ∈ t.properties) (hv : s.get? p = some v) :
    p.Takes v := by
  unfold Sidecar.get? at hv
  split at hv
  · next hcovers =>
    obtain ⟨q, hq, hsame⟩ := List.any_eq_true.1 hcovers
    obtain ⟨hmem, htakes⟩ := h q hq
    have hindex : q.index = p.index := (Property.same_iff.1 hsame).2
    obtain rfl := placed.eq_of_index hmem hp hindex
    exact htakes v hv
  · cases hv

namespace Entry.Typed

variable {e : Entry} {p : Property} {o : Option Value}

/-- A value held somewhere, or else the primary value. -/
theorem read (h : e.Typed) (hp : p ∈ e.type.properties) (ho : ∀ v, o = some v → p.Takes v) :
    ∃ v, (match o with
      | some v => .ok v
      | none => e.primaryValue p : Result Value) = .ok v ∧ p.Takes v := by
  cases o with
  | some v => exact ⟨v, rfl, ho v rfl⟩
  | none =>
    obtain ⟨v, hv⟩ := h.declared.valid.primaryValue_ok p
    exact ⟨v, hv, h.primary p hp v hv⟩

theorem get (h : e.Typed) (hp : p ∈ e.type.properties) : ∃ v, e.get p = .ok v ∧ p.Takes v := by
  have placed := h.declared.valid.placed
  have howned : e.requireOwned p = .ok () := if_pos (placed.owns_of_mem hp)
  rw [Entry.get, howned]
  refine h.read hp fun v hv => ?_
  obtain ⟨s, hs, hv⟩ := List.exists_of_findSome?_eq_some hv
  split at hv
  · exact (h.sidecars s hs).get? placed hp hv
  · cases hv

theorem baselineValue (h : e.Typed) (hp : p ∈ e.type.properties) :
    ∃ v, e.baselineValue p = .ok v ∧ p.Takes v := by
  have placed := h.declared.valid.placed
  rw [baselineValue_of_owns (placed.owns_of_mem hp)]
  refine h.read hp fun v hv => ?_
  obtain ⟨s, hs, hv⟩ := Option.bind_eq_some_iff.1 hv
  exact (h.of_sidecar? hs).get? placed hp hv

theorem snapshotValue (h : e.Typed) (hp : p ∈ e.type.properties) :
    ∃ v, e.snapshotValue p = .ok v ∧ p.Takes v := by
  rw [snapshotValue_of_owns (h.declared.valid.placed.owns_of_mem hp)]
  exact h.read hp (h.snapshot p hp)

theorem sidecarValue (h : e.Typed) {name : String} {s : Sidecar} (hs : e.sidecar? name = some s)
    (hp : p ∈ e.type.properties) : ∃ v, e.sidecarValue name p = .ok v ∧ p.Takes v := by
  have placed := h.declared.valid.placed
  have howned : e.requireOwned p = .ok () := if_pos (placed.owns_of_mem hp)
  rw [Entry.sidecarValue, howned, Entry.sidecar, hs]
  exact h.read hp fun v => (h.of_sidecar? hs).get? placed hp

/-- The parameters of a command have current or baseline values of the entry. -/
theorem parameters (h : e.Typed) {names : ParameterNames} {c : Command}
    (hc : Command.ofEntry e names = .ok (some c)) {parameter : Parameter}
    (hparameter : parameter ∈ c.parameters) :
    ∃ column ∈ c.columns, column.property ∈ e.type.properties ∧
      (column.parameter = some parameter.name ∨
        column.baselineParameter = some parameter.name) ∧
      column.property.Takes parameter.value := by
  obtain ⟨column, hcolumn, hvalue⟩ := (Command.bound_of_mem_parameters hc hparameter).value
  have hp : column.property ∈ e.type.properties :=
    (Command.ofEntry_eq_some hc).properties.subset (List.mem_map_of_mem hcolumn)
  rcases hvalue with ⟨hname, hvalue⟩ | ⟨hname, hvalue⟩
  · obtain ⟨v, hv, htakes⟩ := h.get hp
    obtain rfl := Except.ok.inj (hv.symm.trans hvalue)
    exact ⟨column, hcolumn, hp, .inl hname, htakes⟩
  · obtain ⟨v, hv, htakes⟩ := h.baselineValue hp
    obtain rfl := Except.ok.inj (hv.symm.trans hvalue)
    exact ⟨column, hcolumn, hp, .inr hname, htakes⟩

/-- What is read of a typed entry is typed. -/
theorem readsTyped (h : e.Typed) : e.ReadsTyped where
  get _ := h.get
  baselineValue _ := h.baselineValue
  snapshotValue _ := h.snapshotValue
  sidecarValue _ _ hs _ := h.sidecarValue hs
  values := Result.exists_mapM_eq_ok fun _ => h.get
  parameters _ _ hc _ := h.parameters hc

end Entry.Typed

/-! ## Units of work -/

namespace UnitOfWork

/-- What becomes of a unit of work, from the side of one of its entries: anything may be done to the
others. This one is of an entity type with native fields of its properties' own, is made around an
instance whose fields hold what the properties take, and is handled by operations that fit it. -/
inductive Handled (id : EntryId) : UnitOfWork → Prop
  | start {model : Option Model} {registry : Registry} {generators : Generators} {s : Session}
      (h : Session.start model registry generators = .ok s) : Handled id ⟨[], s⟩
  | adopt {u : UnitOfWork} {t : EntityType} {i : Instance} {e : Entry} {s : Session}
      (h : Handled id u) (hmake : u.session.adopt t i = .ok (e, s))
      (hentry : e.id = id →
        t.Fielded u.session.registry ∧ t.TakesFields u.session.registry i.fields) :
      Handled id ⟨u.entries ++ [e], s⟩
  /-- The entity type is the one that the native type of the instance backs. -/
  | adoptByType {u : UnitOfWork} {i : Instance} {e : Entry} {s : Session}
      (h : Handled id u) (hmake : u.session.adoptByType i = .ok (e, s))
      (hentry : e.id = id →
        e.type.Fielded u.session.registry ∧ e.type.TakesFields u.session.registry i.fields) :
      Handled id ⟨u.entries ++ [e], s⟩
  /-- The instance is a fresh one. -/
  | materialize {u : UnitOfWork} {t : EntityType} {values : List Value} {e : Entry} {s : Session}
      (h : Handled id u) (hmake : u.session.materialize t values = .ok (e, s))
      (hentry : e.id = id → t.Fielded u.session.registry ∧
        ∀ i, t.native = some i.type → u.session.registry.freshInstance i.type = .ok i →
          t.TakesFields u.session.registry i.fields) :
      Handled id ⟨u.entries ++ [e], s⟩
  | act {u : UnitOfWork} {e : Entry} (op : EntryOperation) (h : Handled id u) (he : e ∈ u.entries)
      (hop : e.id = id → op.Fits e) : Handled id (u.put (op.run ⟨e, u.session⟩))
  | save {u : UnitOfWork} {chosen : List Entry} (h : Handled id u)
      (hchosen : ∀ e ∈ chosen, e ∈ u.entries) (d : Dialect) (executor : Executor) :
      Handled id (u.merge (Saving.save d executor { entries := chosen, session := u.session }).2)

variable {u : UnitOfWork} {e : Entry} {id : EntryId}

/-- A unit of work that is handled is watched. -/
theorem Handled.watched (h : u.Handled id) : ∃ followed, u.Watched id followed := by
  induction h with
  | start h => exact ⟨true, .start h⟩
  | adopt _ hmake hentry ih =>
    obtain ⟨followed, ih⟩ := ih
    refine ⟨followed, ih.make (.adopt hmake) fun hid => ?_⟩
    obtain ⟨ht, hfields⟩ := hentry hid
    obtain ⟨hfills, -⟩ := Session.adopt_fillsFrom hmake
    exact ⟨hfills.declared ht, hfills.fieldsTyped ht fun _ hi => Option.some.inj hi ▸ hfields⟩
  | adoptByType _ hmake hentry ih =>
    obtain ⟨followed, ih⟩ := ih
    refine ⟨followed, ih.make (.adoptByType hmake) fun hid => ?_⟩
    obtain ⟨t, hmake⟩ := Session.adopt_of_adoptByType hmake
    obtain ⟨hfills, -⟩ := Session.adopt_fillsFrom hmake
    obtain ⟨-, rfl, -⟩ := hfills.fills.fresh
    obtain ⟨ht, hfields⟩ := hentry hid
    exact ⟨hfills.declared ht, hfills.fieldsTyped ht fun _ hi => Option.some.inj hi ▸ hfields⟩
  | materialize _ hmake hentry ih =>
    obtain ⟨followed, ih⟩ := ih
    refine ⟨followed, ih.make (.materialize hmake) fun hid => ?_⟩
    obtain ⟨ht, hfields⟩ := hentry hid
    obtain ⟨native, hfresh, hfills, -⟩ := Session.materialize_fillsFrom hmake
    refine ⟨hfills.declared ht, hfills.fieldsTyped ht fun i hi => hfields i ?_ (hfresh i hi)⟩
    rw [← hfills.1, Option.mem_def.1 hi, Option.map_some]
  | @act u e op _ he hop ih =>
    obtain ⟨followed, ih⟩ := ih
    by_cases hid : e.id = id
    -- Operations may go around the snapshot, which ends what is known of it but not the typing.
    · exact ⟨false, ih.tamper op he hid (hop hid)⟩
    · exact ⟨followed, ih.act op he fun h => absurd h hid⟩
  | save _ hchosen d executor ih =>
    obtain ⟨followed, ih⟩ := ih
    exact ⟨followed, ih.save hchosen d executor⟩

/-- **Values stay typed.** Whatever is done in a unit of work, with whatever arguments, answers of
the store and generated values, each property of an entry can be read, and what is read is null or
of the property's type, and null only where the property takes null. So are the parameters of its
commands. -/
theorem readsTyped_of_handled (h : u.Handled e.id) (he : e ∈ u.entries) : e.ReadsTyped := by
  obtain ⟨followed, hwatched⟩ := h.watched
  have hentry : u.entryOf e.id = some e :=
    (inStep_of_reachable hwatched.reachable).entryOf_of_mem he
  exact (hwatched.holdsFaithful e hentry).typed.readsTyped

end UnitOfWork

/-! ## An example -/

namespace Parts

/-- The properties of parts are declared for the fields of their names. -/
theorem type_fielded : type.Fielded (work entry .empty).session.registry where
  placed := placed
  registry := Registry.sound_empty.register (by decide)
  served := by
    intro p hp _ a ha
    rcases List.mem_pair.1 hp with rfl | rfl <;> cases ha
    · exact (Accessor.field_holds _ _ .int32).serves rfl rfl rfl
    · exact (Accessor.field_holds _ _ (.optional .int32)).serves rfl rfl rfl
  apart := by
    intro p hp q hq _ _ hne a b ha hb
    rcases List.mem_pair.1 hp with rfl | rfl <;> rcases List.mem_pair.1 hq with rfl | rfl <;>
      cases ha <;> cases hb
    · exact absurd rfl hne
    · exact Accessor.field_apart (by decide)
    · exact Accessor.field_apart (by decide)
    · exact absurd rfl hne
  foreignKeys := by decide

theorem part_takesFields :
    type.TakesFields (work entry .empty).session.registry (part .null).fields := by
  intro p hp _ a ha
  rcases List.mem_pair.1 hp with rfl | rfl <;> cases ha
  · exact ⟨.inr rfl, nofun⟩
  · exact ⟨.inl rfl, fun _ => .inl rfl⟩

/-- The part is adopted, taken for unchanged, and made one of another part, whose number is given as
an integer of another width. -/
theorem edited_handled : (work (edited (.int 7)) tracked).Handled ⟨1⟩ := by
  have hstart : Session.start (some ⟨[type]⟩) (work entry .empty).session.registry
      (.ofOverrides [] fun _ _ => 0) = .ok { (work entry .empty).session with made := 0 } := rfl
  have hmade : Session.adopt { (work entry .empty).session with made := 0 } type (part .null) =
      .ok (entry, (work entry .empty).session) := rfl
  have h₁ : (work entry .empty).Handled ⟨1⟩ :=
    .adopt (.start hstart) hmade fun _ => ⟨type_fielded, part_takesFields⟩
  have h₂ := h₁.act (e := entry) (.setState .unchanged) (.head _) fun _ => trivial
  have hknows : type.Knows whole := fun _ => by decide
  exact h₂.act (e := { entry with state := .unchanged }) (.set whole (.bigInt 7)) (.head _) fun _ =>
    hknows

end Parts

namespace UnitOfWork

theorem readsTyped_of_handled_parts :
    (Parts.work (Parts.edited (.int 7)) Parts.tracked).Handled ⟨1⟩ ∧
    (Parts.edited (.int 7)).ReadsTyped ∧
    (Parts.edited (.int 7)).get Parts.whole = .ok (.int 7) ∧
    (Parts.edited (.int 7)).baselineValue Parts.whole = .ok .null ∧
    ∃ c, Command.ofEntry (Parts.edited (.int 7)) {} = .ok (some c) ∧
      c.parameters = [⟨"@p0", .int 1⟩, ⟨"@p1", .int 7⟩] :=
  ⟨Parts.edited_handled, readsTyped_of_handled (e := Parts.edited (.int 7)) Parts.edited_handled
    (.head _), rfl, rfl, _, rfl, rfl⟩

end UnitOfWork

end EntityMapper
