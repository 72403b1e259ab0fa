import EntityMapper.Proofs.Tracking.Drawn
import EntityMapper.Proofs.Tracking.Generating

/-!
# Adding entries

An unknown entry that is added gets values for the properties that want one (`Entry.Wants`): those
that the client generates and that have their default still. For an entry without sidecars that reads
and writes see through (`Entry.Plain`), generating one value either writes what was drawn, and changes
nothing else that is read, or fails, and then the type of the property is exhausted or the sidecar for
baseline values does not cover the property (`Action.generate_cases`). From that follows what becomes
of all properties (`Action.generates_spec`) and of the entry (`Action.add_spec`).

Where generating fails on the way, what was generated before stays (`Scope.Starves`). Even so, a value
that is not the one before was drawn in between (`Action.add_refreshes`).
-/

namespace EntityMapper

open Stepwise

/-! ## Entries -/

namespace Entry

variable {e e' : Entry} {p q : Property} {v c : Value}

/-- No sidecar is one that reads or writes see through. -/
def Plain (e : Entry) : Prop :=
  ∀ t ∈ e.sidecars, t.transparentRead = false ∧ t.transparentWrite = false

theorem Plain.get (h : e.Plain) (howns : e.type.owns p = true) : e.get p = e.primaryValue p :=
  get_of_overlay?_eq_none howns
    (List.findSome?_eq_none_iff.2 fun t ht => if_neg (Bool.eq_false_iff.1 (h t ht).1))

theorem Plain.direct (h : e.Plain) (p : Property) :
    ∀ t ∈ e.sidecars, (t.transparentWrite && t.covers p) = false := fun t ht => by
  rw [(h t ht).2, Bool.false_and]

/-- Capturing makes no sidecar that reads or writes see through. -/
theorem Plain.capturing (h : e.Plain) (p : Property) (c : Value) : (e.capturing p c).Plain := by
  have hbaseline : e.baselineSidecar.transparentRead = false ∧
      e.baselineSidecar.transparentWrite = false := by
    rw [baselineSidecar]
    cases hs : e.sidecar? Sidecar.baselineName with
    | none => exact ⟨rfl, rfl⟩
    | some b => exact h b (List.mem_of_find?_eq_some hs)
  unfold Entry.capturing
  split
  · exact h
  · intro t ht
    rcases mem_attachTo ht with rfl | ht
    · exact hbaseline
    · exact h t ht

theorem baselineSidecar_congr (htype : e'.type = e.type) (hsidecars : e'.sidecars = e.sidecars) :
    e'.baselineSidecar = e.baselineSidecar := by
  rw [baselineSidecar, baselineSidecar, sidecar?, sidecar?, htype, hsidecars]

/-- Capturing leaves the properties that the sidecar for baseline values covers. -/
theorem covers_baselineSidecar_capturing (e : Entry) (p q : Property) (c : Value) :
    (e.capturing p c).baselineSidecar.covers q = e.baselineSidecar.covers q := by
  unfold Entry.capturing
  split
  · rfl
  · have hheld : (e.attach (e.baselineSidecar.holding p c)).baselineSidecar =
        e.baselineSidecar.holding p c := by
      have hfind : (e.attach (e.baselineSidecar.holding p c)).sidecar? Sidecar.baselineName =
          some (e.baselineSidecar.holding p c) := e.name_baselineSidecar ▸ sidecar?_attach
      rw [Entry.baselineSidecar, hfind, Option.getD_some]
    rw [hheld]
    rfl

/-- An unknown entry, as its entity type declares it, and without sidecars in between. -/
structure Ready (e : Entry) : Prop where
  unknown : e.state = .unknown
  declared : e.Declared
  plain : e.Plain

theorem Ready.get (h : e.Ready) (hp : p ∈ e.type.properties) : e.get p = e.primaryValue p :=
  h.plain.get (h.declared.valid.placed.owns_of_mem hp)

/-- A property that the client generates and that has its default still. -/
def Wants (e : Entry) (p : Property) : Prop :=
  p.clientGenerated = true ∧ ∃ c, e.get p = .ok c ∧ p.isDefault c = true

/-- An entry and the same one with another value for one property, and with the value before it
captured. -/
structure Gains (e : Entry) (p : Property) (v : Value) (e' : Entry) : Prop where
  revalued : e.Revalued e'
  sidecars : ∃ c, e'.sidecars = (e.capturing p c).sidecars
  value : e'.primaryValue p = .ok v
  others : ∀ q ∈ e.type.properties, p.index ≠ q.index → e'.primaryValue q = e.primaryValue q

theorem Gains.covers (h : e.Gains p v e') (q : Property) :
    e'.baselineSidecar.covers q = e.baselineSidecar.covers q := by
  obtain ⟨c, hsidecars⟩ := h.sidecars
  obtain ⟨_, hcapturing⟩ := e.capturing_eq p c
  have htype : e'.type = (e.capturing p c).type := by rw [hcapturing, h.revalued.type]
  rw [baselineSidecar_congr htype hsidecars]
  exact e.covers_baselineSidecar_capturing p q c

theorem Ready.of_gains (hr : e.Ready) (h : e.Gains p v e') : e'.Ready where
  unknown := h.revalued.state.trans hr.unknown
  declared := hr.declared.of_make h.revalued.make
  plain := by
    obtain ⟨c, hsidecars⟩ := h.sidecars
    intro t ht
    exact hr.plain.capturing p c t (hsidecars ▸ ht)

/-- What generating the value of a property comes to, after some number of draws for it. -/
inductive Generates (e : Entry) (p : Property) (m : Nat) : Result Unit → Entry → Prop
  /-- The value is written. -/
  | given {v : Value} {e' : Entry} (hv : p.Drawn m v) (he : e.Gains p v e') :
      Generates e p m (.ok ()) e'
  /-- The type of the property has no room for the value. -/
  | exhausted {text : String} (h : p.valueType.Exhausted m) :
      Generates e p m (.error (.type p.valueType.name text none)) e
  /-- The value before it cannot be captured. -/
  | uncovered {err : Error} (h : e.baselineSidecar.covers p = false) :
      Generates e p m (.error err) e

end Entry

/-! ## Generating values -/

/-- Each property of an entity type that the client generates draws from a generator of its own. -/
def EntityType.Supplied (t : EntityType) (g : Generators) : Prop :=
  ∀ p ∈ t.properties, p.clientGenerated = true →
    g.overrides.lookup p.valueType = none ∧ ∃ generator, Generators.builtIn? p.valueType = some generator

/-- An entry that may be added, of one of some entity types, with generators that supply it. -/
structure Scope.Addable (types : List EntityType) (s : Scope) : Prop where
  ready : s.entry.Ready
  mem : s.entry.type ∈ types
  builtIn : s.session.generators.BuiltInFor types
  supplied : s.entry.type.Supplied s.session.generators

namespace Action

variable {types : List EntityType} {s s' : Scope} {p : Property} {v w c : Value} {err : Error}
  {answer : Result Unit}

/-- The scope with other generators. -/
def drawing (s : Scope) (g : Generators) : Scope :=
  { s with session := { s.session with generators := g } }

/-- Generating the value of a property that has its default comes to writing what is drawn. -/
theorem perform_generate_of_draw {id : GeneratorId} {g₁ g₂ : Generators} {drawn : Result Value}
    (hwants : s.entry.Wants p) (hchoose : s.session.generators.choose s.entry.type p = .ok (id, g₁))
    (hnext : g₁.next id p = (drawn, g₂)) :
    Stepwise.perform (generate p) s =
      Stepwise.perform (read (fun _ => drawn) >>= set p) (drawing s g₂) := by
  obtain ⟨hgenerated, c, hget, hdefault⟩ := hwants
  have hchose : Stepwise.perform (choose p) s = (.ok id, drawing s g₁) := by
    rw [choose, perform_mk, hchoose]
    rfl
  have hdrew : Stepwise.perform (draw id p) (drawing s g₁) = (drawn, drawing s g₂) := by
    rw [draw, perform_mk]
    dsimp only [drawing]
    rw [hnext]
  rw [generate, if_pos hgenerated, perform_bind, perform_read, hget]
  dsimp only
  rw [if_pos hdefault, perform_bind_of_ok hchose, perform_bind, hdrew, perform_bind, perform_read]

/-- A property that wants no value gets none. -/
theorem perform_generate_of_not_wants (hget : s.entry.get p = .ok c) (h : ¬ s.entry.Wants p) :
    Stepwise.perform (generate p) s = (.ok (), s) := by
  cases hgenerated : p.clientGenerated with
  | false => exact perform_generate_of_not hgenerated s
  | true =>
    rw [generate, if_pos hgenerated, perform_bind, perform_read, hget]
    dsimp only
    rw [if_neg fun hdefault => h ⟨hgenerated, c, hget, hdefault⟩]
    rfl

/-- Writing another value to an unknown entry gives it this value, and no other one changes. -/
theorem perform_set_of_plain (hs : s.entry.Ready) (hp : p ∈ s.entry.type.properties)
    (hw : p.coerce v = .ok w) (hcurrent : s.entry.primaryValue p = .ok c)
    (hchanges : c.keyEqual w = false) (hcovered : s.entry.baselineSidecar.covers p = true) :
    ∃ e, Stepwise.perform (set p v) s = (.ok (), { s with entry := e }) ∧ s.entry.Gains p w e := by
  have htakes := Property.takes_of_coerce hw
  obtain ⟨e, hput⟩ := hs.declared.exists_putPrimary hp htakes
  have hvalues := Entry.putPrimary_revalued hput
  have hvalue : e.primaryValue p = .ok w := hs.declared.primaryValue_of_putPrimary hp htakes hput
  have hothers : ∀ q ∈ s.entry.type.properties, p.index ≠ q.index →
      e.primaryValue q = s.entry.primaryValue q := fun q hq hne =>
    hs.declared.primaryValue_of_putPrimary_other hp hq hne hput
  refine ⟨{ e with sidecars := (s.entry.capturing p c).sidecars
                   snapshot := (s.entry.afterRefusal p w c).snapshot }, ?_,
    ⟨hvalues.make, hvalues.state, hvalues.modified⟩, ⟨c, rfl⟩, hvalue, hothers⟩
  rw [perform_set_direct (hs.declared.valid.placed.owns_of_mem hp) hw (hs.plain.direct p),
    perform_write_of_taken hcurrent hchanges hcovered hput]
  exact perform_flagWritten_of_unknown (hvalues.state.trans hs.unknown)

/-- Without room for the value before it nothing is written. -/
theorem perform_set_of_uncovered (hs : s.entry.Ready) (hp : p ∈ s.entry.type.properties)
    (hw : p.coerce v = .ok w) (hcurrent : s.entry.primaryValue p = .ok c)
    (hchanges : c.keyEqual w = false) (hcovered : s.entry.baselineSidecar.covers p = false) :
    ∃ err, Stepwise.perform (set p v) s = (.error err, s) := by
  obtain ⟨err, hcapture⟩ := Entry.captureBaseline_of_not_covers (c := c) hcovered
  refine ⟨err, ?_⟩
  rw [perform_set_direct (hs.declared.valid.placed.owns_of_mem hp) hw (hs.plain.direct p), write,
    perform_bind, perform_read, hcurrent]
  dsimp only
  rw [if_neg (by simp [hchanges]), perform_bind, perform_update, hcapture]

/-- Writing a drawn value, for a property that wants one. The session has no part in that. -/
theorem set_drawn_cases {m : Nat} (hs : s.entry.Ready) (hp : p ∈ s.entry.type.properties)
    (htype : p.valueType ≠ .json) (hwants : s.entry.Wants p) (hv : p.Drawn m v)
    (hrun : Stepwise.perform (set p v) s = (answer, s')) :
    s.entry.Generates p m answer s'.entry ∧ s'.session = s.session := by
  obtain ⟨-, c, hget, hdefault⟩ := hwants
  have hcurrent : s.entry.primaryValue p = .ok c := (hs.get hp).symm.trans hget
  have hchanges := Property.keyEqual_of_isDefault htype hdefault hv.notDefault
  cases hcovered : s.entry.baselineSidecar.covers p with
  | true =>
    obtain ⟨e, hset, hgains⟩ := perform_set_of_plain hs hp hv.coerced hcurrent hchanges hcovered
    cases hset.symm.trans hrun
    exact ⟨.given hv hgains, rfl⟩
  | false =>
    obtain ⟨err, hset⟩ := perform_set_of_uncovered hs hp hv.coerced hcurrent hchanges hcovered
    cases hset.symm.trans hrun
    exact ⟨.uncovered hcovered, rfl⟩

/-- **Generating one value** writes what is drawn, or fails for one of two reasons. Either way it is
drawn, and none for another property. -/
theorem generate_cases (distinct : EntityType.Distinct types) (hs : s.Addable types)
    (hp : p ∈ s.entry.type.properties) (hwants : s.entry.Wants p)
    (hrun : Stepwise.perform (generate p) s = (answer, s'))
    (hrange : s'.session.generators.drawnFor s.entry.type p ≤ ValueType.bigInt.negatives) :
    s.entry.Generates p (s.session.generators.drawnFor s.entry.type p) answer s'.entry ∧
      s.session.generators.drawnFor s.entry.type p <
        s'.session.generators.drawnFor s.entry.type p ∧
      ∀ q : Property, q.index ≠ p.index → s'.session.generators.drawnFor s.entry.type q =
        s.session.generators.drawnFor s.entry.type q := by
  obtain ⟨hoverride, generator, hgenerator⟩ := hs.supplied p hp hwants.1
  obtain ⟨id, g₁, g₂, hchoose, hnext, hdrawn, hothers⟩ :=
    Generators.exists_draw hs.builtIn hs.mem hp hoverride hgenerator
  rw [perform_generate_of_draw hwants hchoose hnext] at hrun
  have hlt : s.session.generators.drawnFor s.entry.type p <
      s'.session.generators.drawnFor s.entry.type p := by
    have hs' : s' = (Stepwise.perform _ _).2 := (congrArg Prod.snd hrun).symm
    have hleads : (drawing s g₂).Leads Scope.Moves.none s' := by
      rw [hs']
      exact ((keeps_read _).bind (set_keeps p)) _ (.refl _)
    have hlater := (hleads.generators distinct hs.mem).later
    exact Nat.lt_of_lt_of_le (hdrawn ▸ Nat.lt_succ_self _) (hlater.drawnFor_le s.entry.type p)
  have hothers : ∀ q : Property, q.index ≠ p.index →
      g₂.drawnFor s.entry.type q = s.session.generators.drawnFor s.entry.type q := fun q hne =>
    hothers s.entry.type q fun hplace => hne (Prod.mk.inj hplace).2
  rcases Generators.valueAt_builtIn g₁ id hgenerator (Nat.lt_of_lt_of_le hlt hrange) with
    ⟨hexhausted, text, hvalue⟩ | ⟨v, hvalue, hv⟩
  · rw [hvalue, perform_bind, perform_read] at hrun
    cases hrun
    exact ⟨.exhausted hexhausted, hlt, hothers⟩
  · rw [hvalue, perform_bind, perform_read] at hrun
    have htype : p.valueType ≠ .json := by
      intro hjson
      rw [hjson] at hgenerator
      cases hgenerator
    obtain ⟨hgenerates, hsession⟩ :=
      set_drawn_cases (s := drawing s g₂) hs.ready hp htype hwants hv hrun
    exact ⟨hgenerates, hlt, fun q hne => by rw [hsession]; exact hothers q hne⟩

end Action

/-! ## Generating values for some properties -/

/-- What becomes of a property: it keeps its value, or is given one that it wants, at one of some
draws. -/
structure Entry.Given (e e' : Entry) (p : Property) (first last : Nat) : Prop where
  kept : ¬ e.Wants p → e'.primaryValue p = e.primaryValue p
  given : e.Wants p → ∃ m v, first ≤ m ∧ m < last ∧ p.Drawn m v ∧ e'.primaryValue p = .ok v

namespace Entry.Given

variable {e e₁ e' : Entry} {p : Property} {first first' last last' : Nat}

/-- Before, there may have been changes that leave the property alone. -/
theorem of_before (h : e₁.Given e' p first' last) (hwants : e₁.Wants p ↔ e.Wants p)
    (hvalue : e₁.primaryValue p = e.primaryValue p) (hle : first ≤ first') :
    e.Given e' p first last where
  kept hnot := (h.kept (mt hwants.1 hnot)).trans hvalue
  given hp := by
    obtain ⟨m, v, hfirst, hlast, hv⟩ := h.given (hwants.2 hp)
    exact ⟨m, v, Nat.le_trans hle hfirst, hlast, hv⟩

/-- And afterwards. -/
theorem of_after (h : e.Given e₁ p first last) (hvalue : e'.primaryValue p = e₁.primaryValue p)
    (hle : last ≤ last') : e.Given e' p first last' where
  kept hnot := hvalue.trans (h.kept hnot)
  given hp := by
    obtain ⟨m, v, hfirst, hlast, hv, hget⟩ := h.given hp
    exact ⟨m, v, hfirst, Nat.lt_of_lt_of_le hlast hle, hv, hvalue.trans hget⟩

end Entry.Given

theorem index_notMem_singleton {p q : Property} {properties : List Property}
    (h : p.index ∉ properties.map (·.index)) (hq : q ∈ properties) : q.index ∉ [p].map (·.index) := by
  intro hindex
  have hindex : q.index = p.index := List.mem_singleton.1 hindex
  exact h (hindex ▸ List.mem_map_of_mem hq)

/-- A scope and the same one with values generated for some properties. -/
structure Scope.Stocks (types : List EntityType) (properties : List Property) (s s' : Scope) :
    Prop where
  revalued : s.entry.Revalued s'.entry
  addable : s'.Addable types
  covers : ∀ q, s'.entry.baselineSidecar.covers q = s.entry.baselineSidecar.covers q
  later : s.session.generators.Later s'.session.generators
  drawn : ∀ q : Property, q.index ∉ properties.map (·.index) →
    s'.session.generators.drawnFor s.entry.type q = s.session.generators.drawnFor s.entry.type q
  others : ∀ q ∈ s.entry.type.properties, q.index ∉ properties.map (·.index) →
    s'.entry.primaryValue q = s.entry.primaryValue q
  given : ∀ p ∈ properties, s.entry.Given s'.entry p (s.session.generators.drawnFor s.entry.type p)
    (s'.session.generators.drawnFor s.entry.type p)

/-- The value of a property afterwards is the one before, or one that was drawn in between. -/
def Scope.Refreshes (s s' : Scope) (p : Property) : Prop :=
  s'.entry.get p = s.entry.get p ∨ ∃ m v, s.session.generators.drawnFor s.entry.type p ≤ m ∧
    m < s'.session.generators.drawnFor s.entry.type p ∧ p.Drawn m v ∧ s'.entry.get p = .ok v

namespace Scope.Stocks

variable {types : List EntityType} {p q : Property} {properties : List Property} {s s₁ s' : Scope}

theorem nil (hs : s.Addable types) : Stocks types [] s s :=
  ⟨.refl _, hs, fun _ => rfl, .refl _, fun _ _ => rfl, fun _ _ _ => rfl, List.forall_mem_nil _⟩

/-- Other properties want what they wanted before. -/
theorem wants_iff (h : Stocks types properties s s') (hs : s.entry.Ready)
    (hq : q ∈ s.entry.type.properties) (hnot : q.index ∉ properties.map (·.index)) :
    s'.entry.Wants q ↔ s.entry.Wants q := by
  rw [Entry.Wants, Entry.Wants, hs.get hq, h.addable.ready.get (h.revalued.type ▸ hq), h.others q hq hnot]

theorem cons (hs : s.entry.Ready) (hp : p ∈ s.entry.type.properties)
    (hsub : ∀ q ∈ properties, q ∈ s.entry.type.properties)
    (hnot : p.index ∉ properties.map (·.index)) (h : Stocks types [p] s s₁)
    (h' : Stocks types properties s₁ s') : Stocks types (p :: properties) s s' where
  revalued := h.revalued.trans h'.revalued
  addable := h'.addable
  covers q := (h'.covers q).trans (h.covers q)
  later := h.later.trans h'.later
  drawn q hne := by
    rw [List.map_cons, List.mem_cons, not_or] at hne
    have hrest := h'.drawn q hne.2
    rw [h.revalued.type] at hrest
    exact hrest.trans (h.drawn q (by simpa using hne.1))
  others q hq hne := by
    rw [List.map_cons, List.mem_cons, not_or] at hne
    rw [h'.others q (h.revalued.type ▸ hq) hne.2]
    exact h.others q hq (by simpa using hne.1)
  given q hq := by
    have htype := h.revalued.type
    rcases List.mem_cons.1 hq with rfl | hq
    · exact (h.given q (.head _)).of_after (h'.others q (htype ▸ hp) hnot) (h'.later.drawnFor_le _ _)
    · have hother := index_notMem_singleton hnot hq
      have hgiven := h'.given q hq
      rw [htype] at hgiven
      exact hgiven.of_before (h.wants_iff hs (hsub q hq) hother) (h.others q (hsub q hq) hother)
        (h.later.drawnFor_le _ _)

/-- All properties are as before or were given a value. -/
theorem refreshes (hs : s.entry.Ready) (hsub : ∀ q ∈ properties, q ∈ s.entry.type.properties)
    (h : Stocks types properties s s') (hp : p ∈ s.entry.type.properties) : s.Refreshes s' p := by
  rw [Refreshes, hs.get hp, h.addable.ready.get (h.revalued.type ▸ hp)]
  by_cases hindex : p.index ∈ properties.map (·.index)
  · obtain ⟨q, hq, hqp⟩ := List.mem_map.1 hindex
    obtain rfl : q = p := hs.declared.valid.placed.eq_of_index (hsub q hq) hp hqp
    by_cases hwants : s.entry.Wants q
    · exact .inr ((h.given q hq).given hwants)
    · exact .inl ((h.given q hq).kept hwants)
  · exact .inl (h.others p hp hindex)

end Scope.Stocks

/-- Generating values fails on the way: some properties were given values before, and another one wants
a value that its type has no room for, or the value before it cannot be captured. -/
structure Scope.Starves (types : List EntityType) (properties : List Property) (s s' : Scope)
    (err : Error) : Prop where
  before : ∃ done s₁, done <+: properties ∧ s.Stocks types done s₁ ∧ s'.entry = s₁.entry ∧
    s₁.session.generators.Later s'.session.generators
  reason : ∃ p ∈ properties, s.entry.Wants p ∧
    (p.valueType.Exhausted (s.session.generators.drawnFor s.entry.type p) ∧
        (∃ text, err = .type p.valueType.name text none) ∨
      s.entry.baselineSidecar.covers p = false)

namespace Scope.Starves

variable {types : List EntityType} {p : Property} {properties : List Property} {s s₁ s' : Scope}
  {err : Error}

/-- The first property fails already. -/
theorem head (h : s.Starves types [p] s' err) : s.Starves types (p :: properties) s' err where
  before := by
    obtain ⟨done, s₁, hdone, hbefore⟩ := h.before
    exact ⟨done, s₁, hdone.trans (List.prefix_append [p] properties), hbefore⟩
  reason := by
    obtain ⟨q, hq, hwhy⟩ := h.reason
    exact ⟨q, List.mem_singleton.1 hq ▸ .head _, hwhy⟩

/-- The first property is given a value, and then another one fails. -/
theorem cons (hs : s.entry.Ready) (hp : p ∈ s.entry.type.properties)
    (hsub : ∀ q ∈ properties, q ∈ s.entry.type.properties)
    (hnot : p.index ∉ properties.map (·.index)) (h : s.Stocks types [p] s₁)
    (h' : s₁.Starves types properties s' err) : s.Starves types (p :: properties) s' err where
  before := by
    obtain ⟨done, s₂, hdone, hstocks, hbefore⟩ := h'.before
    have hnot' : p.index ∉ done.map (·.index) := fun hmem => hnot (List.map_subset _ hdone.subset hmem)
    exact ⟨p :: done, s₂, (List.prefix_cons_inj p).2 hdone,
      .cons hs hp (fun q hq => hsub q (hdone.subset hq)) hnot' h hstocks, hbefore⟩
  reason := by
    obtain ⟨q, hq, hwants, hwhy⟩ := h'.reason
    have hother := index_notMem_singleton hnot hq
    rw [h.revalued.type, h.covers, h.drawn q hother] at hwhy
    exact ⟨q, .tail _ hq, (h.wants_iff hs (hsub q hq) hother).1 hwants, hwhy⟩

theorem refreshes (hs : s.entry.Ready) (hsub : ∀ q ∈ properties, q ∈ s.entry.type.properties)
    (h : s.Starves types properties s' err) (hp : p ∈ s.entry.type.properties) :
    s.Refreshes s' p := by
  obtain ⟨done, s₁, hdone, hstocks, hentry, hlater⟩ := h.before
  rw [Refreshes, hentry]
  refine (hstocks.refreshes hs (fun q hq => hsub q (hdone.subset hq)) hp).imp_right ?_
  rintro ⟨m, v, hfirst, hlast, hv⟩
  exact ⟨m, v, hfirst, Nat.lt_of_lt_of_le hlast (hlater.drawnFor_le _ _), hv⟩

end Scope.Starves

namespace Action

variable {types : List EntityType} {s s' : Scope} {p : Property} {properties : List Property}
  {answer : Result Unit}

theorem generate_keeps (hp : p ∈ s.entry.type.properties) :
    Keeps (s.Leads Scope.Moves.none) (generate p) :=
  leads_indifferent.keeps_generate (fun _ h => h.type ▸ hp) (set_keeps p)

/-- Generating the value of one property, whether it wants one or not. -/
theorem generate_spec (distinct : EntityType.Distinct types) (hs : s.Addable types)
    (hp : p ∈ s.entry.type.properties) (hrun : Stepwise.perform (generate p) s = (answer, s'))
    (hrange : s'.session.generators.drawnFor s.entry.type p ≤ ValueType.bigInt.negatives) :
    (answer = .ok () ∧ s.Stocks types [p] s') ∨
      ∃ err, answer = .error err ∧ s.Starves types [p] s' err := by
  by_cases hwants : s.entry.Wants p
  · obtain ⟨hgenerates, hlt, hothers⟩ := generate_cases distinct hs hp hwants hrun hrange
    have hleads := generate_keeps hp s (.refl s)
    rw [hrun] at hleads
    have hcontinues := hleads.generators distinct hs.mem
    generalize he' : s'.entry = e' at hgenerates
    cases hgenerates with
    | given hv hgains =>
      subst he'
      refine .inl ⟨rfl, hgains.revalued, ⟨hs.ready.of_gains hgains, ?_, hcontinues.builtIn hs.builtIn, ?_⟩,
        hgains.covers, hcontinues.later, ?_, ?_, ?_⟩
      · exact hgains.revalued.type ▸ hs.mem
      · intro q hq hgenerated
        rw [hcontinues.later.overrides]
        exact hs.supplied q (hgains.revalued.type ▸ hq) hgenerated
      · exact fun q hne => hothers q fun h => hne (List.mem_singleton.2 h)
      · exact fun q hq hne => hgains.others q hq fun h => hne (List.mem_singleton.2 h.symm)
      · intro q hq
        obtain rfl := List.mem_singleton.1 hq
        exact ⟨absurd hwants, fun _ => ⟨_, _, Nat.le_refl _, hlt, hv, hgains.value⟩⟩
    | exhausted h =>
      exact .inr ⟨_, rfl, ⟨[], s, List.nil_prefix, .nil hs, he', hcontinues.later⟩,
        p, .head _, hwants, .inl ⟨h, _, rfl⟩⟩
    | uncovered h =>
      exact .inr ⟨_, rfl, ⟨[], s, List.nil_prefix, .nil hs, he', hcontinues.later⟩,
        p, .head _, hwants, .inr h⟩
  · obtain ⟨c, hcurrent⟩ := hs.ready.declared.valid.primaryValue_ok p
    rw [perform_generate_of_not_wants ((hs.ready.get hp).trans hcurrent) hwants] at hrun
    cases hrun
    refine .inl ⟨rfl, .refl _, hs, fun _ => rfl, .refl _, fun _ _ => rfl, fun _ _ _ => rfl,
      fun q hq => ?_⟩
    obtain rfl := List.mem_singleton.1 hq
    exact ⟨fun _ => rfl, fun h => absurd h hwants⟩

/-- **Generating values for some properties**, one after the other, gives each of them the value that
it wants, or fails. -/
theorem generates_spec (distinct : EntityType.Distinct types) (hs : s.Addable types)
    (hsub : ∀ p ∈ properties, p ∈ s.entry.type.properties)
    (hnodup : (properties.map (·.index)).Nodup)
    (hrun : Stepwise.perform (properties.forM generate) s = (answer, s'))
    (hrange : ∀ p ∈ s.entry.type.properties,
      s'.session.generators.drawnFor s.entry.type p ≤ ValueType.bigInt.negatives) :
    (answer = .ok () ∧ s.Stocks types properties s') ∨
      ∃ err, answer = .error err ∧ s.Starves types properties s' err := by
  induction properties generalizing s with
  | nil =>
    cases hrun
    exact .inl ⟨rfl, .nil hs⟩
  | cons p properties ih =>
    obtain ⟨hp, hsub⟩ := List.forall_mem_cons.1 hsub
    obtain ⟨hnot, hnodup⟩ := List.nodup_cons.1 hnodup
    rw [perform_forM_cons] at hrun
    rcases hfirst : Stepwise.perform (generate p) s with ⟨err | _, s₁⟩
    · rw [perform_bind_of_error hfirst] at hrun
      cases hrun
      rcases generate_spec distinct hs hp hfirst (hrange p hp) with ⟨hok, -⟩ | ⟨_, herr, hstarves⟩
      · cases hok
      · cases herr
        exact .inr ⟨err, rfl, hstarves.head⟩
    · rw [perform_bind_of_ok hfirst] at hrun
      have hleads := generate_keeps hp s (.refl s)
      rw [hfirst] at hleads
      have htype : s₁.entry.type = s.entry.type := hleads.type
      have hsub₁ : ∀ q ∈ properties, q ∈ s₁.entry.type.properties := fun q hq => htype ▸ hsub q hq
      -- What is drawn for the first property is bounded by what is drawn at the end.
      have hleads' : s₁.Leads Scope.Moves.none s' := by
        have hkeeps := Keeps.forM (fun q hq => generate_keeps (hsub₁ q hq)) s₁ (.refl s₁)
        rwa [hrun] at hkeeps
      have hlater := (hleads'.generators distinct (htype ▸ hs.mem)).later
      rcases generate_spec distinct hs hp hfirst
        (Nat.le_trans (hlater.drawnFor_le _ _) (hrange p hp)) with ⟨-, hstocks⟩ | ⟨_, herr, -⟩
      · rcases ih hstocks.addable hsub₁ hnodup hrun (htype ▸ hrange) with
          ⟨hok, hrest⟩ | ⟨err, herr, hstarves⟩
        · exact .inl ⟨hok, .cons hs.ready hp hsub hnot hstocks hrest⟩
        · exact .inr ⟨err, herr, .cons hs.ready hp hsub hnot hstocks hstarves⟩
      · cases herr

end Action

/-! ## Adding -/

/-- A scope and the same one with its entry added: the properties that want values are given some, and
all others have the values that they had. -/
structure Scope.Adds (s s' : Scope) : Prop where
  state : s'.entry.state = .added
  modified : s'.entry.modified = s.entry.modified
  kept : ∀ p ∈ s.entry.type.properties, ¬ s.entry.Wants p → s'.entry.get p = s.entry.get p
  given : ∀ p ∈ s.entry.type.properties, s.entry.Wants p →
    ∃ m v, s.session.generators.drawnFor s.entry.type p ≤ m ∧
      m < s'.session.generators.drawnFor s.entry.type p ∧ p.Drawn m v ∧ s'.entry.get p = .ok v

/-- After adding, nothing that the client generates has its default. -/
theorem Scope.Adds.not_default {s s' : Scope} {p : Property} (h : s.Adds s')
    (hp : p ∈ s.entry.type.properties) (hvalid : s.entry.Valid) (hplain : s.entry.Plain)
    (hgenerated : p.clientGenerated = true) :
    ∃ v, s'.entry.get p = .ok v ∧ p.isDefault v = false := by
  by_cases hwants : s.entry.Wants p
  · obtain ⟨m, v, -, -, hv, hget⟩ := h.given p hp hwants
    exact ⟨v, hget, hv.notDefault⟩
  · obtain ⟨c, hcurrent⟩ := hvalid.primaryValue_ok p
    have hget : s.entry.get p = .ok c := (hplain.get (hvalid.placed.owns_of_mem hp)).trans hcurrent
    refine ⟨c, (h.kept p hp hwants).trans hget, ?_⟩
    exact Bool.eq_false_iff.2 fun hdefault => hwants ⟨hgenerated, c, hget, hdefault⟩

namespace Action

variable {types : List EntityType} {s s' : Scope} {p : Property} {answer : Result Unit}

/-- **Adding an entry** gives its properties the values that they want, or fails for want of room. -/
theorem add_spec (distinct : EntityType.Distinct types) (hs : s.Addable types)
    (hrun : Stepwise.perform (setState .added) s = (answer, s'))
    (hrange : ∀ p ∈ s.entry.type.properties,
      s'.session.generators.drawnFor s.entry.type p ≤ ValueType.bigInt.negatives) :
    (answer = .ok () ∧ s.Adds s') ∨
      ∃ err, answer = .error err ∧ s.Starves types s.entry.type.properties s' err := by
  have hnodup := hs.ready.declared.valid.placed.nodup_index
  rw [perform_setState_added hs.ready.unknown] at hrun
  rcases hgenerates : Stepwise.perform (s.entry.type.properties.forM generate) s with ⟨err | _, s₁⟩
  · rw [hgenerates] at hrun
    cases hrun
    exact (generates_spec distinct hs (fun _ hp => hp) hnodup hgenerates hrange).imp_left
      fun h => nomatch h.1
  · rw [hgenerates] at hrun
    cases hrun
    rcases generates_spec distinct hs (fun _ hp => hp) hnodup hgenerates hrange with
      ⟨-, hstocks⟩ | ⟨_, herr, -⟩
    · have hget : ∀ p ∈ s.entry.type.properties,
          (s₁.enter .added).entry.get p = s₁.entry.primaryValue p := fun p hp =>
        hstocks.addable.ready.get (hstocks.revalued.type ▸ hp)
      refine .inl ⟨rfl, rfl, hstocks.revalued.modified, fun p hp hwants => ?_, fun p hp hwants => ?_⟩
      · rw [hget p hp, (hstocks.given p hp).kept hwants, hs.ready.get hp]
      · obtain ⟨m, v, hfirst, hlast, hv, hvalue⟩ := (hstocks.given p hp).given hwants
        exact ⟨m, v, hfirst, hlast, hv, (hget p hp).trans hvalue⟩
    · cases herr

/-- Whether adding an entry succeeds or fails, its properties have the values that they had, or values
that were drawn for them. -/
theorem add_refreshes (distinct : EntityType.Distinct types) (hs : s.Addable types)
    (hrun : Stepwise.perform (setState .added) s = (answer, s'))
    (hrange : ∀ p ∈ s.entry.type.properties,
      s'.session.generators.drawnFor s.entry.type p ≤ ValueType.bigInt.negatives)
    (hp : p ∈ s.entry.type.properties) : s.Refreshes s' p := by
  rcases add_spec distinct hs hrun hrange with ⟨-, hadds⟩ | ⟨err, -, hstarves⟩
  · by_cases hwants : s.entry.Wants p
    · exact .inr (hadds.given p hp hwants)
    · exact .inl (hadds.kept p hp hwants)
  · exact hstarves.refreshes hs.ready (fun _ hq => hq) hp

end Action

end EntityMapper
