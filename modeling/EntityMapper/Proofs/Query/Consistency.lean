import EntityMapper.Proofs.Query.Pushdown

/-!
# What a compilation holds together

A compilation keeps its query sources, what is fetched for each of them and their order in step, over
any number of registrations and compiled queries, also where these fail (`Compilation.sound_runAll`):
the three have the same identities, no identity is registered twice, and what is compared and what is
read for a source are properties of the entity type that the source ranges over.

* `Predicate.On` says that the store can decide a predicate on rows of an entity type. Whatever is
  pushed down for a source is on the entity type of the source (`pushDown_on`), because members are
  bound there only (`bind?_property`).
* `Compilation.Sound` is the invariant, on top of `Compilation.InStep`. Registering a source
  (`Sound.addSource`), adding a filter (`addFilter_keeps_sound`) and adding a selector
  (`addSelector_keeps_sound`) keep it, so a compiled query does.
-/

namespace EntityMapper

/-- The store can decide a predicate on rows of an entity type: it compares properties of the type
with constants other than null, which are text where the property is part of a two-part key. -/
def Predicate.On (t : EntityType) : Predicate → Prop
  | .compare _ p c => p ∈ t.properties ∧ c.value.isNull = false ∧ c.asString = p.tableKey.isSome
  | .both l r | .either l r => l.On t ∧ r.On t

/-! ## What is fetched for a source -/

namespace Select

variable {s : Select} {p : Predicate} {q : Property}

/-- What is compared and read is of the entity type, and nothing is read twice. -/
structure Sound (s : Select) : Prop where
  predicate : ∀ p ∈ s.predicate, p.On s.entityType
  projection : ∀ p ∈ s.projection, p ∈ s.entityType.properties
  distinct : s.projection.Pairwise fun p q => p.same q = false

theorem source_project (s : Select) (q : Property) : (s.project q).source = s.source := by
  unfold project
  split <;> rfl

theorem entityType_project (s : Select) (q : Property) :
    (s.project q).entityType = s.entityType := by
  unfold project
  split <;> rfl

theorem Sound.demand (h : s.Sound) (hp : p.On s.entityType) : (s.demand p).Sound := by
  refine ⟨fun p' hp' => ?_, h.projection, h.distinct⟩
  unfold Select.demand at hp'
  cases hs : s.predicate with
  | none =>
    rw [hs] at hp'
    cases hp'
    exact hp
  | some p₀ =>
    rw [hs] at hp'
    cases hp'
    exact ⟨h.predicate p₀ (by rw [hs]; rfl), hp⟩

theorem Sound.project (h : s.Sound) (hq : q ∈ s.entityType.properties) : (s.project q).Sound := by
  unfold Select.project
  split
  · exact h
  · rename_i hnew
    have hnew : ∀ p ∈ s.projection, p.same q = false := by
      rw [Bool.not_eq_true, Option.isSome_eq_false_iff, Option.isNone_iff_eq_none, indexOf?,
        List.findIdx?_eq_none_iff] at hnew
      exact hnew
    refine ⟨h.predicate, fun p hp => ?_, ?_⟩
    · rcases List.mem_append.1 hp with hp | hp
      · exact h.projection p hp
      · exact List.mem_singleton.1 hp ▸ hq
    · refine List.pairwise_append.2 ⟨h.distinct, List.pairwise_singleton .., fun p hp q' hq' => ?_⟩
      exact List.mem_singleton.1 hq' ▸ hnew p hp

end Select

/-! ## Registered sources -/

/-- What is fetched for a source is the source's own, and sound. -/
structure Registered.Sound (m : Model) (r : Registered) : Prop where
  source : r.select.source = r.source.id
  type : r.source.itemType.resolve m = some r.select.entityType
  select : r.select.Sound

namespace Registered.Sound

variable {m : Model} {r : Registered} {p : Predicate} {q : Property}

theorem demand (h : r.Sound m) (hp : p.On r.select.entityType) :
    Registered.Sound m { r with select := r.select.demand p } :=
  ⟨h.source, h.type, h.select.demand hp⟩

theorem project (h : r.Sound m) (hq : q ∈ r.select.entityType.properties) :
    Registered.Sound m { r with select := r.select.project q } :=
  ⟨(r.select.source_project q).trans h.source,
    h.type.trans (congrArg some (r.select.entityType_project q).symm), h.select.project hq⟩

/-- All properties of the entity type are read one after the other. -/
theorem projectAll (h : r.Sound m) :
    Registered.Sound m { r with select := r.select.projectAll } := by
  have hfold : ∀ (ps : List Property) (s : Select), Registered.Sound m { r with select := s } →
      (∀ q ∈ ps, q ∈ s.entityType.properties) →
      Registered.Sound m { r with select := ps.foldl Select.project s } := by
    intro ps
    induction ps with
    | nil => exact fun s hs _ => hs
    | cons q ps ih =>
      intro s hs hps
      obtain ⟨hq, hps⟩ := List.forall_mem_cons.1 hps
      exact ih (s.project q) (hs.project hq) fun q' hq' => s.entityType_project q ▸ hps q' hq'
  exact hfold _ _ h fun _ hq => hq

end Registered.Sound

namespace Compilation

variable {m : Model} {c c' : Compilation} {id : SourceId} {t : EntityType}

/-! ## Pushing down -/

/-- The entity type that a registered source ranges over. -/
def rowType? (c : Compilation) (id : SourceId) : Option EntityType :=
  (c.source? id).bind (·.itemType.resolve c.model)

/-- A member is bound to a property of the entity type that its source ranges over. -/
theorem bind?_property {filter : Option SourceId} {e : Expression} {p : Property} {s : Select}
    (h : c.bind? filter e = some (p, s)) : ∃ id r t, (∀ id' ∈ filter, id' = id) ∧
      c.registered? id = some r ∧ c.rowType? id = some t ∧ p ∈ t.properties ∧ s = r.select := by
  unfold bind? at h
  split at h
  · next id name =>
    split at h
    · next hid =>
      simp only [Option.bind_eq_bind, Option.bind_eq_some_iff] at h
      obtain ⟨r, hr, t, ht, p', hp, heq⟩ := h
      cases heq
      refine ⟨id, r, t, fun id' hid' => ?_, hr, ?_, List.mem_of_find?_eq_some hp, rfl⟩
      · rw [Option.mem_def.1 hid'] at hid
        simpa using hid
      · rw [rowType?, (registered?_eq_some_iff.1 hr).1]
        exact ht
    · cases h
  · cases h

theorem narrow_on {p q : Option Predicate} (hp : ∀ x ∈ p, x.On t) (hq : ∀ x ∈ q, x.On t) :
    ∀ x ∈ narrow p q, x.On t := by
  intro x hx
  cases p with
  | none => exact hq x hx
  | some p =>
    cases q with
    | none => exact hp x hx
    | some q =>
      cases hx
      exact ⟨hp p rfl, hq q rfl⟩

theorem widen_on {p q : Option Predicate} (hp : ∀ x ∈ p, x.On t) (hq : ∀ x ∈ q, x.On t) :
    ∀ x ∈ widen p q, x.On t := by
  intro x hx
  cases p with
  | none => cases hx
  | some p =>
    cases q with
    | none => cases hx
    | some q =>
      cases hx
      exact ⟨hp p rfl, hq q rfl⟩

theorem none_on : ∀ x ∈ (none : Option Predicate), x.On t := by
  intro x hx
  cases hx

theorem combineParts_on {op : Comparison} {ps : List (Option Predicate)}
    (h : ∀ p ∈ ps, ∀ x ∈ p, x.On t) : ∀ x ∈ combineParts op ps, x.On t := by
  have hjoin : ∀ p q : Option Predicate, (∀ x ∈ p, x.On t) → (∀ x ∈ q, x.On t) →
      ∀ x ∈ (if op = .equal then narrow else widen) p q, x.On t := by
    intro p q hp hq
    split
    · exact narrow_on hp hq
    · exact widen_on hp hq
  cases ps with
  | nil => exact none_on
  | cons p ps =>
    obtain ⟨hp, hps⟩ := List.forall_mem_cons.1 h
    show ∀ x ∈ ps.foldl _ p, x.On t
    induction ps generalizing p with
    | nil => exact hp
    | cons q ps ih =>
      obtain ⟨hq, hps⟩ := List.forall_mem_cons.1 hps
      have hpq := hjoin p q hp hq
      exact ih _ (List.forall_mem_cons.2 ⟨hpq, hps⟩) hpq hps

/-- A side that is a property is one of the entity type that the source ranges over. -/
theorem property_of_side? (ht : c.rowType? id = some t) {e : Expression} {p : Property}
    (h : c.side? (some id) e = some (.property p)) : p ∈ t.properties := by
  obtain ⟨s, hs⟩ := side?_eq_property.1 h
  obtain ⟨id', r, t', hid, -, ht', hmem, -⟩ := bind?_property hs
  obtain rfl := hid id rfl
  cases ht.symm.trans ht'
  exact hmem

theorem comparison_on (ht : c.rowType? id = some t) (op : Comparison) (l r : Expression) :
    ∀ x ∈ c.comparison (some id) op l r, x.On t := by
  intro x hx
  unfold comparison at hx
  split at hx
  · next p v hl hr =>
    cases hx
    exact ⟨property_of_side? ht hl, (side?_eq_constant.1 hr).2, rfl⟩
  · next v p hl hr =>
    cases hx
    exact ⟨property_of_side? ht hr, (side?_eq_constant.1 hl).2, rfl⟩
  · cases hx

/-- Equalities and inequalities, by the recursion over nested tuples. -/
theorem equality_on (ht : c.rowType? id = some t) (op : Comparison) (l r : Expression) :
    ∀ x ∈ c.equality (some id) op l r, x.On t := by
  refine (equality.mutual_induct
    (fun l r => ∀ x ∈ c.equality (some id) op l r, x.On t)
    (fun ls rs => ∀ p ∈ c.equalities (some id) op ls rs, ∀ x ∈ p, x.On t)
    ?tuples ?lengths ?others ?cons ?nil).1 l r
  case tuples =>
    intro ls rs hlen ih
    rw [equality, if_pos hlen]
    exact combineParts_on ih
  case lengths =>
    intro ls rs hlen
    rw [equality, if_neg hlen]
    exact none_on
  case others =>
    intro l r h
    rw [equality]
    · exact comparison_on ht op l r
    · exact h
  case cons =>
    intro l ls r rs ih ihs
    rw [equalities]
    exact List.forall_mem_cons.2 ⟨ih, ihs⟩
  case nil =>
    intro ls rs h
    rw [equalities]
    · exact List.forall_mem_nil _
    · exact h

/-- **What a filter says about a source** is on the entity type that the source ranges over. -/
theorem pushDown_on (ht : c.rowType? id = some t) {e : Expression} {p : Option Predicate}
    (h : c.pushDown (some id) e = .ok p) : ∀ x ∈ p, x.On t := by
  fun_induction pushDown c (some id) e generalizing p with
  | case1 op l r hop =>
    cases h
    exact equality_on ht op l r
  | case2 op l r hop =>
    cases h
    exact comparison_on ht op l r
  | case3 l r ihl ihr =>
    obtain ⟨pl, hl, h⟩ := Result.bind_eq_ok_iff.1 h
    obtain ⟨pr, hr, h⟩ := Result.bind_eq_ok_iff.1 h
    cases h
    exact narrow_on (ihl hl) (ihr hr)
  | case4 l r ihl ihr =>
    obtain ⟨pl, hl, h⟩ := Result.bind_eq_ok_iff.1 h
    obtain ⟨pr, hr, h⟩ := Result.bind_eq_ok_iff.1 h
    cases h
    exact widen_on (ihl hl) (ihr hr)
  | case5 e =>
    cases h
    exact equality_on ht .equal e _
  | case6 target name q s hq hbool =>
    cases h
    intro x hx
    cases hx
    obtain ⟨id', r, t', hid, -, ht', hmem, -⟩ := bind?_property hq
    obtain rfl := hid id rfl
    cases ht.symm.trans ht'
    exact ⟨hmem, rfl, rfl⟩
  | case7 | case8 | case9 | case10 | case11 | case12 =>
    cases h
    exact none_on
  | case13 => cases h

/-! ## Compiling -/

/-- Sources, what is fetched for them, and the order have the same identities, each of them once, and
what is fetched for a source is the source's own and sound. -/
structure Sound (m : Model) (c : Compilation) : Prop extends InStep c where
  model : c.model = m
  registered : ∀ id r, c.registered? id = some r → r.Sound m

namespace Sound

/-- A registered source ranges over the entity type that is fetched for it. -/
theorem rowType? (h : c.Sound m) {r : Registered} (hr : c.registered? id = some r) :
    c.rowType? id = some r.select.entityType := by
  rw [Compilation.rowType?, (registered?_eq_some_iff.1 hr).1, h.model]
  exact (h.registered id r hr).type

theorem map_source (h : c.Sound m) : c.registered.map (·.source.id) = c.order :=
  h.map_registered fun id r hr => h.own id r.source (registered?_eq_some_iff.1 hr).1

theorem map_select (h : c.Sound m) : c.registered.map (·.select.source) = c.order :=
  h.map_registered fun id r hr =>
    (h.registered id r hr).source.trans (h.own id r.source (registered?_eq_some_iff.1 hr).1)

theorem empty (m : Model) : Sound m { model := m } where
  toInStep := .empty m
  model := rfl
  registered := by
    intro id r hr
    cases hr

theorem withSource (h : c.Sound m) {s : QuerySource} (hnew : c.select? s.id = none)
    (ht : s.itemType.resolve m = some t) : (c.withSource s t).Sound m := by
  refine ⟨h.toInStep.withSource hnew t, h.model, fun id r hr => ?_⟩
  obtain ⟨source, select⟩ := r
  obtain ⟨hs, hsel⟩ := registered?_eq_some_iff.1 hr
  rcases put_eq_some hs with ⟨rfl, rfl⟩ | ⟨hne, hs⟩
  · obtain rfl := Option.some.inj (put_self.symm.trans hsel)
    exact ⟨rfl, ht, fun p hp => absurd hp (by simp), List.forall_mem_nil _, .nil⟩
  · exact h.registered id _ (registered?_eq_some_iff.2 ⟨hs, (put_of_ne hne).symm.trans hsel⟩)

/-- A source is registered if nothing is fetched for its identity, and nothing is demanded or read for
it so far. -/
theorem addSource (h : c.Sound m) {s : QuerySource} (hs : c.addSource s = .ok c') :
    c'.Sound m := by
  rcases addSource_eq_ok_iff.1 hs with ⟨-, rfl⟩ | ⟨hnew, t, ht, rfl⟩
  · exact h
  · rw [h.model] at ht
    exact h.withSource hnew ht

theorem modifySelect (h : c.Sound m) {f : Select → Select}
    (hf : ∀ r, c.registered? id = some r →
      Registered.Sound m { r with select := f r.select }) : (c.modifySelect id f).Sound m := by
  refine ⟨h.toInStep.modifySelect id f, (model_modifySelect c id f).trans h.model,
    fun id' r hr => ?_⟩
  obtain ⟨source, select⟩ := r
  obtain ⟨hs, hsel⟩ := registered?_eq_some_iff.1 hr
  rw [source?_modifySelect] at hs
  rcases select?_modifySelect_eq_some hsel with ⟨rfl, sel₀, hsel₀, rfl⟩ | ⟨-, hsel⟩
  · exact hf ⟨source, sel₀⟩ (registered?_eq_some_iff.2 ⟨hs, hsel₀⟩)
  · exact h.registered id' _ (registered?_eq_some_iff.2 ⟨hs, hsel⟩)

/-- A member of a source is read for that source. -/
theorem addMember (h : c.Sound m) {e : Expression} (he : c.addMember e = .ok c') :
    c'.Sound m := by
  unfold Compilation.addMember at he
  split at he
  · next p s hbind =>
    obtain ⟨-, rfl⟩ := changeSelect_eq_ok_iff.1 he
    obtain ⟨id, r, t, -, hr, ht, hp, rfl⟩ := bind?_property hbind
    -- What was found for the member names its source, so that is the source it is read for.
    have hid : r.select.source = id :=
      (h.registered id r hr).source.trans (h.own id r.source (registered?_eq_some_iff.1 hr).1)
    rw [hid]
    refine h.modifySelect fun r' hr' => (h.registered id r' hr').project ?_
    cases ht.symm.trans (h.rowType? hr')
    exact hp
  · cases he
    exact h

end Sound

/-- What a filter says about a source was found before any of it is added, while the source ranged over
the same entity type. -/
theorem addFilter_keeps_sound (e : Expression) : Stepwise.Keeps (Sound m) (addFilter e) := by
  refine keeps_addFilter fun c c' h h' hsource id p hpushed => ?_
  refine h'.modifySelect fun r hr => (h'.registered id r hr).demand ?_
  have htype : c.rowType? id = some r.select.entityType := by
    rw [← h'.rowType? hr, rowType?, rowType?, hsource, h.model, h'.model]
  exact pushDown_on htype hpushed p rfl

theorem addSelector_keeps_sound (sel : Selector) :
    Stepwise.Keeps (Sound m) (addSelector sel) := by
  cases sel with
  | entity id =>
    exact keeps_changeSelect fun c h => h.modifySelect fun r hr => (h.registered id r hr).projectAll
  | members es => exact .forM fun e _ => keeps_update fun _ _ h => h.addMember

theorem compileSteps_keeps_sound (q : Query) : Stepwise.Keeps (Sound m) (compileSteps q) := by
  refine (Stepwise.Keeps.forM fun s _ => keeps_update fun _ _ h => h.addSource).bind fun _ => ?_
  exact (Stepwise.Keeps.forM fun e _ => addFilter_keeps_sound e).bind fun _ =>
    addSelector_keeps_sound q.selector

/-! ## Any number of calls -/

/-- What can be done to a compilation. -/
inductive Call
  | addSource (s : QuerySource)
  | compile (q : Query)

/-- The answer to a call, and what it leaves. -/
def Call.run (c : Compilation) : Call → Result Unit × Compilation
  | addSource s => Stepwise.perform (Step.update (·.addSource s)) c
  | compile q => c.compile q

/-- Calls one after the other, going on after those that fail. -/
def runAll (calls : List Call) (c : Compilation) : Compilation :=
  calls.foldl (fun c call => (call.run c).2) c

theorem Sound.run (h : c.Sound m) (call : Call) : (call.run c).2.Sound m := by
  cases call with
  | addSource s => exact keeps_update (fun _ _ h => h.addSource) c h
  | compile q => exact compileSteps_keeps_sound q c h

theorem Sound.runAll (h : c.Sound m) (calls : List Call) : (runAll calls c).Sound m := by
  induction calls generalizing c with
  | nil => exact h
  | cons call calls ih => exact ih (h.run call)

/-- **A compilation stays sound** whatever sources are registered and whatever queries are compiled,
also where that fails. The sources, what is fetched for them and the order have the same identities,
each once; what is compared and read for a source is of its entity type; and a source that is
registered again changes nothing. -/
theorem sound_runAll (m : Model) (calls : List Call) :
    (runAll calls { model := m }).Sound m ∧
    (runAll calls { model := m }).registered.map (·.source.id) =
      (runAll calls { model := m }).order ∧
    (runAll calls { model := m }).registered.map (·.select.source) =
      (runAll calls { model := m }).order ∧
    ∀ s : QuerySource, s.id ∈ (runAll calls { model := m }).order →
      (runAll calls { model := m }).addSource s = .ok (runAll calls { model := m }) := by
  have h := (Sound.empty m).runAll calls
  exact ⟨h, h.map_source, h.map_select, fun s hs => h.addSource_of_mem hs⟩

/-- A query is compiled; its first source is registered once more, as a source of animals; and two
calls fail, one of them after it has registered a third person. -/
def callsOnPeople : List Call :=
  [.compile pairs, .addSource ⟨⟨1⟩, "a", .named "Animal"⟩, .addSource ⟨⟨4⟩, "b", .named "Animal"⟩,
    .compile (.mk ⟨⟨3⟩, "r", .named "Person"⟩ [.filter (.source ⟨3⟩)] (.entity ⟨3⟩))]

theorem sound_runAll_people :
    let c := runAll callsOnPeople { model := people }
    c.Sound people ∧ c.order = [⟨1⟩, ⟨2⟩, ⟨3⟩] ∧
    c.registered.map (·.source.id) = [⟨1⟩, ⟨2⟩, ⟨3⟩] ∧
    c.registered.map (·.select.source) = [⟨1⟩, ⟨2⟩, ⟨3⟩] ∧
    (c.registered.map fun r => r.select.projection.map (·.name)) = [["Name", "Active"], [], []] ∧
    c.addSource ⟨⟨1⟩, "a", .named "Animal"⟩ = .ok c := by
  obtain ⟨hsound, hsources, hselects, hagain⟩ := sound_runAll people callsOnPeople
  have horder : (runAll callsOnPeople { model := people }).order = [⟨1⟩, ⟨2⟩, ⟨3⟩] := by decide
  refine ⟨hsound, horder, hsources.trans horder, hselects.trans horder, by decide, hagain _ ?_⟩
  rw [horder]
  exact List.mem_cons_self

end Compilation

end EntityMapper
