import EntityMapper.Proofs.Metadata.Consistency
import EntityMapper.Proofs.Tracking.Adding
import EntityMapper.Proofs.Tracking.Blank
import EntityMapper.Proofs.UnitOfWork.Steps
import EntityMapper.Value.Encoding

/-!
# Which entity types lose values when adding fails

An entry that is added gets its generated values one after the other, so if one of them fails those
before it are there already. This takes two properties that are generated by the client: an entity
type with at most one of them keeps all current values wherever a change of state fails, and for every
other one there is a unit of work in which it does not (`UnitOfWork.setState_keeps_values_iff`).

The latter is built from the entity type: a blank entry (`Session.exists_blank`), and one rule for the
values of all declared types (`Generators.Follows`), which gives the first property a value that is no
default (`ValueType.sample`) and refuses the second.
-/

namespace EntityMapper

open Stepwise

/-! ## Values that are no defaults -/

/-- A value of a declared type other than its default. -/
def ValueType.sample : ValueType → Value
  | .tinyInt => .tinyInt 1
  | .smallInt => .smallInt 1
  | .int => .int 1
  | .bigInt => .bigInt 1
  | .float => .float ⟨1⟩
  | .double => .double ⟨1⟩
  | .decimal => .decimal "1"
  | .bool => .bool true
  | .text => .text "1"
  | .bytes => .bytes [1]
  | .date => .date 1
  | .time => .time 1
  | .timestamp => .timestamp 1
  | .uuid => .uuid ⟨1⟩
  | .json => .json (.bool true)

namespace ValueType

theorem sample_ne_null (t : ValueType) : t.sample ≠ .null := by
  cases t <;> nofun

theorem coerce_sample (t : ValueType) : t.coerce t.sample = .ok t.sample := by
  cases t <;> rfl

theorem null_keyEqual_sample (t : ValueType) : Value.null.keyEqual t.sample = false := by
  cases t <;> rfl

end ValueType

namespace Property

variable (p : Property) {v : Value}

theorem coerce_sample : p.coerce p.valueType.sample = .ok p.valueType.sample :=
  coerce_eq_ok_iff.2 ⟨fun h => absurd h p.valueType.sample_ne_null, p.valueType.coerce_sample⟩

theorem keyEqual_sample (h : v = .null ∨ v = p.defaultValue) :
    v.keyEqual p.valueType.sample = false := by
  rcases h with rfl | rfl
  · exact p.valueType.null_keyEqual_sample
  · unfold defaultValue
    split
    · exact p.valueType.null_keyEqual_sample
    · cases p.valueType <;> rfl

theorem isDefault_of_default (h : v = .null ∨ v = p.defaultValue) : p.isDefault v = true := by
  rcases h with rfl | rfl
  · rfl
  · rw [isDefault, Value.keyEqual_self, Bool.or_true]

end Property

/-! ## One rule for all generated values -/

namespace Generators

variable {g : Generators} {rule : Property → Result Value} {t : EntityType} {p : Property}
  {id : GeneratorId} {n : Nat}

/-- The generator that follows a rule. -/
def source (rule : Property → Result Value) (n : Nat) : Source :=
  ⟨.custom fun _ => rule, n⟩

/-- Each declared type has an override that follows one rule. -/
def Follows (g : Generators) (rule : Property → Result Value) : Prop :=
  ∀ valueType, ∃ id n, g.overrides.lookup valueType = some id ∧
    g.sources[id.number]? = some (source rule n)

theorem follows_ofOverrides (rule : Property → Result Value)
    (random : GeneratorId → Nat → BitVec 128) :
    (ofOverrides (ValueType.all.map fun valueType => (valueType, .custom fun _ => rule))
      random).Follows rule := by
  intro valueType
  cases valueType <;> exact ⟨_, _, rfl, rfl⟩

/-- A property that has not drawn yet gets an override. -/
theorem Follows.choose (hg : g.Follows rule) (hnew : g.chosen.find? (t.id, p.index) = none) :
    ∃ id n g', g.choose t p = .ok (id, g') ∧ g'.sources[id.number]? = some (source rule n) ∧
      g'.Follows rule ∧ g'.chosen = g.chosen.add (t.id, p.index) id := by
  obtain ⟨id, n, hlookup, hsource⟩ := hg p.valueType
  refine ⟨id, n, { g with chosen := g.chosen.add (t.id, p.index) id }, ?_, hsource, hg, rfl⟩
  rw [Generators.choose, hnew, hlookup]

/-- A draw follows the rule, whatever was drawn before. -/
theorem Follows.next (hg : g.Follows rule) (hsource : g.sources[id.number]? = some (source rule n)) :
    ∃ g', g.next id p = (rule p, g') ∧ g'.Follows rule ∧ g'.chosen = g.chosen := by
  refine ⟨{ g with sources := g.sources.set id.number (source rule (n + 1)) }, ?_,
    fun valueType => ?_, rfl⟩
  · rw [Generators.next, hsource]
    rfl
  obtain ⟨id', n', hlookup, hsource'⟩ := hg valueType
  by_cases hid : id.number = id'.number
  · have hlt : id.number < g.sources.length := (List.getElem?_eq_some_iff.1 hsource).1
    exact ⟨id', n + 1, hlookup, by rw [← hid, List.getElem?_set_self hlt]⟩
  · exact ⟨id', n', hlookup, by rw [List.getElem?_set_ne hid, hsource']⟩

end Generators

/-! ## Generating for a new entry -/

theorem Entry.OnlyBaseline.plain {e : Entry} (h : e.OnlyBaseline) : e.Plain := fun t ht => by
  obtain ⟨values, rfl⟩ := h t ht
  exact ⟨rfl, rfl⟩

theorem Entry.OnlyBaseline.capturing {e : Entry} (h : e.OnlyBaseline) (p : Property) (c : Value) :
    (e.capturing p c).OnlyBaseline := by
  obtain ⟨values, hbaseline, -⟩ := Entry.BuiltIn.exists_values fun t ht _ => h t ht
  unfold Entry.capturing
  split
  · exact h
  · intro t ht
    rcases mem_attachTo ht with rfl | ht
    · rw [baselineSidecar, hbaseline]
      exact ⟨_, rfl⟩
    · exact h t ht

namespace Action

variable {s s' : Scope} {rule : Property → Result Value} {p : Property} {v w : Value} {err : Error}

/-- Generating the value of a property that has its default and has not drawn yet comes to what the
rule says. -/
theorem perform_generate_of_follows (hg : s.session.generators.Follows rule)
    (hnew : s.session.generators.chosen.find? (s.entry.type.id, p.index) = none)
    (hgenerated : p.clientGenerated = true) (hget : s.entry.get p = .ok v)
    (hdefault : p.isDefault v = true) :
    ∃ g id, g.Follows rule ∧
      g.chosen = s.session.generators.chosen.add (s.entry.type.id, p.index) id ∧
      (∀ w, rule p = .ok w →
        Stepwise.perform (generate p) s = Stepwise.perform (set p w) (drawing s g)) ∧
      ∀ err, rule p = .error err →
        Stepwise.perform (generate p) s = (.error err, drawing s g) := by
  obtain ⟨id, n, g₁, hchoose, hsource, hg₁, hchosen₁⟩ := hg.choose hnew
  obtain ⟨g₂, hnext, hg₂, hchosen₂⟩ := hg₁.next (p := p) hsource
  have hrun := perform_generate_of_draw ⟨hgenerated, v, hget, hdefault⟩ hchoose hnext
  refine ⟨g₂, id, hg₂, hchosen₂.trans hchosen₁, fun w hw => ?_, fun err herr => ?_⟩
  · rw [hrun, hw]
    rfl
  · rw [hrun, herr]
    rfl

/-- Writing another value to a new entry changes the value of the property and no other. -/
theorem perform_set_of_new (hunknown : s.entry.state = .unknown) (hdeclared : s.entry.Declared)
    (honly : s.entry.OnlyBaseline) (hp : p ∈ s.entry.type.properties) (hw : p.coerce w = .ok w)
    (hcurrent : s.entry.primaryValue p = .ok v) (hne : v.keyEqual w = false) :
    ∃ e, Stepwise.perform (set p w) s = (.ok (), { s with entry := e }) ∧
      e.type = s.entry.type ∧ e.OnlyBaseline ∧ e.primaryValue p = .ok w ∧
      ∀ q ∈ s.entry.type.properties, p.index ≠ q.index → e.primaryValue q = s.entry.primaryValue q := by
  have hready : s.entry.Ready := ⟨hunknown, hdeclared, honly.plain⟩
  have hcovered : s.entry.baselineSidecar.covers p = true := by
    obtain ⟨values, hbaseline, -⟩ := Entry.BuiltIn.exists_values fun t ht _ => honly t ht
    rw [Entry.baselineSidecar, hbaseline, hdeclared.valid.placed.covers_baselineWith,
      hdeclared.valid.placed.owns_of_mem hp]
  obtain ⟨e, hset, hgains⟩ := perform_set_of_plain hready hp hw hcurrent hne hcovered
  refine ⟨e, hset, hgains.revalued.type, fun t ht => ?_, hgains.value, hgains.others⟩
  obtain ⟨c, hsidecars⟩ := hgains.sidecars
  obtain ⟨_, hcapturing⟩ := s.entry.capturing_eq p c
  obtain ⟨values, ht⟩ := honly.capturing p c t (hsidecars ▸ ht)
  exact ⟨values, by rw [ht, hcapturing, hgains.revalued.type]⟩

/-- **Two generated properties, of which the second fails**: the first one keeps its value. -/
theorem setState_error_of_two {t : EntityType} {before mid after : List Property} {p q : Property}
    (hblank : s.entry.Blank t)
    (hproperties : t.properties = before ++ p :: (mid ++ q :: after))
    (hbefore : ∀ r ∈ before, r.clientGenerated = false) (hp : p.clientGenerated = true)
    (hmid : ∀ r ∈ mid, r.clientGenerated = false) (hq : q.clientGenerated = true)
    (hg : s.session.generators.Follows rule) (hnew : s.session.generators.chosen = .empty)
    (hw : rule p = .ok p.valueType.sample) (herr : rule q = .error err) :
    ∃ s', Stepwise.perform (setState .added) s = (.error err, s') ∧ s'.entry.get p ≠ s.entry.get p := by
  have hplaced : t.Placed := hblank.type ▸ hblank.declared.valid.placed
  have hne := hplaced.index_ne_of_append hproperties
  have hmem : p ∈ s.entry.type.properties ∧ q ∈ s.entry.type.properties := by
    simp [hblank.type, hproperties]
  have hget : ∀ r ∈ s.entry.type.properties, s.entry.get r = s.entry.primaryValue r := fun r hr =>
    hblank.onlyBaseline.get (hblank.declared.valid.placed.owns_of_mem hr)
  obtain ⟨v, hv, hvdefault⟩ := hblank.defaulted p hmem.1
  obtain ⟨v', hv', hvdefault'⟩ := hblank.defaulted q hmem.2
  -- the first property gets its value
  obtain ⟨g₁, id, hg₁, hchosen₁, hfirst, -⟩ := perform_generate_of_follows hg (by rw [hnew]; rfl) hp
    ((hget p hmem.1).trans hv) (p.isDefault_of_default hvdefault)
  obtain ⟨e, hset, htype, honly, hvalue, hothers⟩ := perform_set_of_new (s := drawing s g₁)
    hblank.unknown hblank.declared hblank.onlyBaseline hmem.1 p.coerce_sample hv
    (p.keyEqual_sample hvdefault)
  have htype : e.type = s.entry.type := htype
  have hread : ∀ r ∈ s.entry.type.properties, e.get r = e.primaryValue r := fun r hr => by
    rw [← htype] at hr
    exact honly.get ((htype.trans hblank.type ▸ hplaced : e.type.Placed).owns_of_mem hr)
  -- the second one has its default still, and fails
  have hcurrent : e.get q = .ok v' := by
    rw [hread q hmem.2, hothers q hmem.2 hne]
    exact hv'
  have hunused : g₁.chosen.find? (e.type.id, q.index) = none := by
    rw [hchosen₁, hnew, FirstWins.find?_add, if_neg fun hkey => hne (Prod.mk.inj hkey).2.symm]
    rfl
  obtain ⟨g₂, -, -, -, -, hsecond⟩ :=
    perform_generate_of_follows (s := { drawing s g₁ with entry := e }) hg₁ hunused hq hcurrent
      (q.isDefault_of_default hvdefault')
  have hrun : Stepwise.perform (s.entry.type.properties.forM generate) s =
      (.error err, drawing { drawing s g₁ with entry := e } g₂) := by
    rw [hblank.type, hproperties, perform_forM_append,
      perform_bind_of_ok (perform_generates_of_not hbefore s), perform_forM_cons,
      perform_bind_of_ok ((hfirst _ hw).trans hset)]
    exact perform_forM_of_error (perform_generates_of_not hmid _) (hsecond err herr)
  refine ⟨drawing ⟨e, (drawing s g₁).session⟩ g₂, ?_, fun heq => ?_⟩
  · rw [perform_setState_added hblank.unknown, hrun]
  · have heq : e.get p = s.entry.get p := heq
    rw [hread p hmem.1, hvalue, hget p hmem.1, hv] at heq
    have hsame := p.keyEqual_sample hvdefault
    rw [← Except.ok.inj heq, Value.keyEqual_self] at hsame
    cases hsame

end Action

/-! ## The entity types -/

/-- The first item of a kind in a list, and the items of this kind that are left after it. -/
theorem exists_first_of_countP {α : Type} {f : α → Bool} {as : List α} (h : 0 < as.countP f) :
    ∃ before a after, as = before ++ a :: after ∧ (∀ b ∈ before, f b = false) ∧ f a = true ∧
      as.countP f = after.countP f + 1 := by
  obtain ⟨a, ha, hfa⟩ := List.countP_pos_iff.1 h
  obtain ⟨b, hb⟩ := Option.isSome_iff_exists.1 (List.find?_isSome.2 ⟨a, ha, hfa⟩)
  obtain ⟨hfb, before, after, rfl, hbefore⟩ := List.find?_eq_some_iff_append.1 hb
  have hbefore : ∀ c ∈ before, f c = false := fun c hc => by simpa using hbefore c hc
  have hzero : before.countP f = 0 := List.countP_eq_zero.2 fun c hc => by simp [hbefore c hc]
  refine ⟨before, b, after, rfl, hbefore, hfb, ?_⟩
  rw [List.countP_append, List.countP_cons, hzero, hfb]
  simp

namespace UnitOfWork

variable {t : EntityType}

/-- The rule that gives the property at one position a value that is no default, and refuses all other
properties. -/
def onlyAt (i : Nat) (p : Property) : Result Value :=
  if p.index = i then .ok p.valueType.sample
  else .error (.configuration (.noGenerator p.display p.valueType.name))

/-- An entity type with two properties that are generated by the client has an entry that loses a
value when adding it fails. -/
theorem exists_lost_value (ht : t.Consistent) (hmany : 1 < t.properties.countP (·.clientGenerated)) :
    ∃ (u : UnitOfWork) (e : Entry) (err : Error) (s' : Scope), u.Reachable ∧ e ∈ u.entries ∧
      e.type = t ∧ e.BaselineHidden ∧
      Stepwise.perform (Action.setState .added) ⟨e, u.session⟩ = (.error err, s') ∧
      ∃ p, s'.entry.get p ≠ e.get p := by
  obtain ⟨before, p, rest, hproperties, hbefore, hp, hcount⟩ :=
    exists_first_of_countP (Nat.lt_of_succ_lt hmany)
  obtain ⟨mid, q, after, rfl, hmid, hq, -⟩ := exists_first_of_countP (f := Property.clientGenerated)
    (show 0 < rest.countP (·.clientGenerated) by omega)
  let generators := Generators.ofOverrides
    (ValueType.all.map fun valueType => (valueType, .custom fun _ => onlyAt p.index)) fun _ _ => 0
  let s : Session := { model := ⟨[t]⟩, registry := .looseFor t, generators }
  obtain ⟨e, hmade, hblank⟩ := Session.exists_blank (s := s) ht rfl
  have hstart : Reachable ⟨[], s⟩ :=
    .start (rfl : Session.start (some ⟨[t]⟩) (.looseFor t) generators = .ok s)
  have hreach : Reachable ⟨[e], s.countMade⟩ := by
    rcases hmade with ⟨i, hadopt⟩ | ⟨values, hmaterialize⟩
    · exact hstart.step (.adopt hadopt)
    · exact hstart.step (.materialize hmaterialize)
  have hne := (ht.placed.index_ne_of_append hproperties).symm
  obtain ⟨s', hrun, hlost⟩ := Action.setState_error_of_two (s := ⟨e, s.countMade⟩) hblank hproperties
    hbefore hp hmid hq (Generators.follows_ofOverrides _ _) rfl (if_pos rfl) (if_neg hne)
  refine ⟨⟨[e], s.countMade⟩, e, _, s', hreach, List.mem_singleton_self e, hblank.type,
    fun b hb _ => ?_, hrun, p, hlost⟩
  obtain ⟨values, rfl⟩ := hblank.onlyBaseline b hb
  rfl

/-- **What a failed change of state leaves.** State, flags and session are always as they were, up to
the values that were drawn. The current values of all entries of an entity type are, exactly if it has
at most one property that is generated by the client. -/
theorem setState_keeps_values_iff (ht : t.Consistent) :
    (∀ (s : Scope) (target : EntityState) (err : Error) (s' : Scope),
      Stepwise.perform (Action.setState target) s = (.error err, s') → s.Drawn s') ∧
    ((∀ u : UnitOfWork, u.Reachable → ∀ e ∈ u.entries, e.type = t → e.BaselineHidden →
      ∀ (target : EntityState) (err : Error) (s' : Scope),
        Stepwise.perform (Action.setState target) ⟨e, u.session⟩ = (.error err, s') →
          ∀ p, s'.entry.get p = e.get p) ↔ t.properties.countP (·.clientGenerated) ≤ 1) := by
  refine ⟨fun s target err s' h => Action.setState_keeps_tracking h, fun hkeeps => ?_, ?_⟩
  · by_contra hmany
    obtain ⟨u, e, err, s', hu, he, htype, hhidden, hrun, p, hlost⟩ :=
      exists_lost_value ht (Nat.lt_of_not_le hmany)
    exact hlost (hkeeps u hu e he htype hhidden .added err s' hrun p)
  · rintro hone u - e - rfl hhidden target err s' h p
    exact Action.get_of_setState_error (s := ⟨e, u.session⟩) hone hhidden h p

end UnitOfWork

/-! ## An example -/

namespace Orders

/-- Orders, whose numbers and prices are both generated by the client. -/
def type : EntityType :=
  let blank : EntityType := { id := ⟨0⟩, name := "Order" }
  let number := blank.place { name := "Number", valueType := .bigInt, clientGenerated := true }
  let numbered : EntityType := { blank with properties := [number] }
  { blank with properties :=
      [number, numbered.place { name := "Price", valueType := .double, clientGenerated := true }] }

theorem consistent : type.Consistent :=
  ((EntityType.Consistent.blank ⟨0⟩ "Order" none).addProperty
    (EntityType.addProperty_eq_ok_iff.2 ⟨by decide, by decide, rfl, rfl⟩)).addProperty
    (EntityType.addProperty_eq_ok_iff.2 ⟨by decide, by decide, rfl, rfl⟩)

end Orders

namespace UnitOfWork

theorem setState_keeps_values_iff_orders :
    Orders.type.Consistent ∧ ∃ (u : UnitOfWork) (e : Entry) (target : EntityState) (err : Error)
      (s' : Scope), u.Reachable ∧ e ∈ u.entries ∧ e.type = Orders.type ∧
      Stepwise.perform (Action.setState target) ⟨e, u.session⟩ = (.error err, s') ∧
      Scope.Drawn ⟨e, u.session⟩ s' ∧ ∃ p, s'.entry.get p ≠ e.get p := by
  refine ⟨Orders.consistent, ?_⟩
  obtain ⟨hdrawn, hiff⟩ := setState_keeps_values_iff Orders.consistent
  by_contra hnone
  have hone := hiff.1 fun u hu e he htype _ target err s' h p => by
    by_contra hlost
    exact hnone ⟨u, e, target, err, s', hu, he, htype, h, hdrawn _ _ _ _ h, p, hlost⟩
  exact absurd hone (by decide)

end UnitOfWork

end EntityMapper
