import EntityMapper.Proofs.Query.Meaning
import EntityMapper.Proofs.Query.Sources

/-!
# Pushing filters down loses no row

What is fetched for a source is narrowed by predicates, and the filters are decided again on what
was fetched. So no item may be missed: wherever all filters of a query hold, the predicate of each
source holds on its row (`compile_keeps_rows`).

* `Predicate.Follows` says that a predicate, if there is one, holds where a condition does. It goes
  through `narrow`, `widen` and `combineParts`, which is where a conjunction may drop a side and a
  disjunction may not.
* `pushDown_follows` is the step for one filter and one source, by the shape of the filter.
* `Compilation.Keeps` says that all predicates so far hold on their rows, and `Compilation.Fetching`
  is the invariant of a compilation once the sources of the query are registered.
-/

namespace EntityMapper

/-- A predicate, if there is one, holds where a condition does. -/
def Predicate.Follows (holds : Predicate → Prop) (t : Truth) (p : Option Predicate) : Prop :=
  t = .yes → ∀ q ∈ p, holds q

namespace Compilation

open Predicate (Follows)

variable {a : Assignment} {b : Binding} {c : Compilation} {id : SourceId}

/-- A predicate holds on the row of a source. -/
def HoldsOn (a : Assignment) (id : SourceId) (p : Predicate) : Prop :=
  p.truth a.compare (a.rows id) = .yes

/-- What the compilation binds, the binding of the query binds too. -/
def BindsAs (c : Compilation) (b : Binding) : Prop :=
  ∀ id name p s, c.bind? (some id) (.member (.source id) name) = some (p, s) → b id name = some p

/-! ## Combining -/

theorem narrow_follows {t u : Truth} {p q : Option Predicate} (hp : Follows (HoldsOn a id) t p)
    (hq : Follows (HoldsOn a id) u q) : Follows (HoldsOn a id) (t.both u) (narrow p q) := by
  intro htu r hr
  obtain ⟨ht, hu⟩ := Truth.both_eq_yes.1 htu
  cases p with
  | none => exact hq hu r hr
  | some p =>
    have hp : HoldsOn a id p := hp ht p rfl
    cases q with
    | none => cases hr; exact hp
    | some q =>
      cases hr
      exact Truth.both_eq_yes.2 ⟨hp, hq hu q rfl⟩

theorem widen_follows {t u : Truth} {p q : Option Predicate} (hp : Follows (HoldsOn a id) t p)
    (hq : Follows (HoldsOn a id) u q) : Follows (HoldsOn a id) (t.either u) (widen p q) := by
  intro htu r hr
  cases p with
  | none => cases hr
  | some p =>
    cases q with
    | none => cases hr
    | some q =>
      cases hr
      refine Truth.either_eq_yes.2 ?_
      rcases Truth.either_eq_yes.1 htu with ht | hu
      · exact .inl (hp ht p rfl)
      · exact .inr (hq hu q rfl)

/-- Folding positions one after the other follows from the condition combined the same way. -/
theorem foldl_follows {join : Truth → Truth → Truth}
    {combine : Option Predicate → Option Predicate → Option Predicate}
    (hjoin : ∀ {t u p q}, Follows (HoldsOn a id) t p → Follows (HoldsOn a id) u q →
      Follows (HoldsOn a id) (join t u) (combine p q))
    {ts : List Truth} {ps : List (Option Predicate)}
    (h : List.Forall₂ (Follows (HoldsOn a id)) ts ps) {t : Truth} {p : Option Predicate}
    (hp : Follows (HoldsOn a id) t p) :
    Follows (HoldsOn a id) (ts.foldl join t) (ps.foldl combine p) := by
  induction h generalizing t p with
  | nil => exact hp
  | cons hq _ ih => exact ih (hjoin hp hq)

theorem foldl_both_of_all {t : Truth} {ts : List Truth} (h : Truth.all (t :: ts) = .yes) :
    ts.foldl .both t = .yes := by
  induction ts generalizing t with
  | nil => exact Truth.all_eq_yes.1 h t (by simp)
  | cons u ts ih =>
    refine ih (Truth.all_eq_yes.2 fun s hs => ?_)
    have h := Truth.all_eq_yes.1 h
    rcases List.mem_cons.1 hs with rfl | hs
    · exact Truth.both_eq_yes.2 ⟨h t (by simp), h u (by simp)⟩
    · exact h s (by simp [hs])

theorem foldl_either_of_any {t : Truth} {ts : List Truth} (h : Truth.any (t :: ts) = .yes) :
    ts.foldl .either t = .yes := by
  induction ts generalizing t with
  | nil => exact (List.mem_singleton.1 (Truth.any_eq_yes.1 h)).symm
  | cons u ts ih =>
    refine ih (Truth.any_eq_yes.2 ?_)
    rcases List.mem_cons.1 (Truth.any_eq_yes.1 h) with rfl | h
    · exact List.mem_cons.2 (.inl (Truth.either_eq_yes.2 (.inl rfl)).symm)
    · rcases List.mem_cons.1 h with rfl | h
      · exact List.mem_cons.2 (.inl (Truth.either_eq_yes.2 (.inr rfl)).symm)
      · exact List.mem_cons.2 (.inr h)

/-- Tuples position by position: all positions for equality, some for any other operator. -/
theorem combineParts_follows {op : Comparison} {ts : List Truth} {ps : List (Option Predicate)}
    (h : List.Forall₂ (Follows (HoldsOn a id)) ts ps) :
    Follows (HoldsOn a id) (if op = .equal then .all ts else .any ts) (combineParts op ps) := by
  intro ht
  cases h with
  | nil => intro q hq; cases hq
  | cons hp hps =>
    by_cases hop : op = .equal
    · rw [if_pos hop] at ht
      rw [combineParts, if_pos hop]
      exact foldl_follows narrow_follows hps hp (foldl_both_of_all ht)
    · rw [if_neg hop] at ht
      rw [combineParts, if_neg hop]
      exact foldl_follows widen_follows hps hp (foldl_either_of_any ht)

/-! ## Comparisons -/

theorem bind?_eq_some {e : Expression} {p : Property} {s : Select}
    (h : c.bind? (some id) e = some (p, s)) : ∃ name, e = .member (.source id) name := by
  unfold bind? at h
  split at h
  · next id' name =>
    split at h
    · next hid =>
      have : id = id' := by simpa using hid
      exact ⟨name, by rw [this]⟩
    · cases h
  · cases h

/-- A side is a property if it is a bound member. -/
theorem side?_eq_property {filter : Option SourceId} {e : Expression} {p : Property} :
    c.side? filter e = some (.property p) ↔ ∃ s, c.bind? filter e = some (p, s) := by
  unfold side?
  split
  · refine ⟨fun h => ?_, fun ⟨s, hs⟩ => by cases hs⟩
    split at h <;> cases h
  · constructor
    · intro h
      obtain ⟨⟨q, s⟩, hq, hp⟩ := Option.map_eq_some_iff.1 h
      cases hp
      exact ⟨s, hq⟩
    · rintro ⟨s, hs⟩
      rw [hs]
      rfl

/-- A side is a constant if it is one other than null. -/
theorem side?_eq_constant {filter : Option SourceId} {e : Expression} {v : Value} :
    c.side? filter e = some (.constant v) ↔ e = .constant v ∧ v.isNull = false := by
  unfold side?
  split
  · next w =>
    cases hw : w.isNull with
    | true =>
      refine ⟨nofun, fun ⟨heq, hv⟩ => ?_⟩
      cases heq
      cases hw.symm.trans hv
    | false =>
      constructor
      · intro h
        cases h
        exact ⟨rfl, hw⟩
      · rintro ⟨heq, -⟩
        cases heq
        rfl
  · next hne =>
    refine ⟨fun h => ?_, fun ⟨heq, _⟩ => absurd heq (hne v)⟩
    obtain ⟨q, -, hq⟩ := Option.map_eq_some_iff.1 h
    cases hq

/-- A side that is a property has the value of the property on the row. -/
theorem value_of_side?_property (hb : c.BindsAs b) {e : Expression} {p : Property}
    (h : c.side? (some id) e = some (.property p)) : a.value b e = a.rows id p.index := by
  obtain ⟨s, hs⟩ := side?_eq_property.1 h
  obtain ⟨name, rfl⟩ := bind?_eq_some hs
  simp [Assignment.value, hb id name p s hs]

/-- A side that is a constant has its value. -/
theorem value_of_side?_constant {e : Expression} {v : Value}
    (h : c.side? (some id) e = some (.constant v)) : a.value b e = v := by
  obtain ⟨rfl, -⟩ := side?_eq_constant.1 h
  rfl

theorem not_tuple_of_side? {e : Expression} {s : Side} (h : c.side? (some id) e = some s)
    (es : List Expression) : e ≠ .tuple es := by
  rintro rfl
  simp only [side?, Option.map_eq_some_iff] at h
  obtain ⟨⟨p, t⟩, hp, -⟩ := h
  obtain ⟨name, hname⟩ := bind?_eq_some hp
  cases hname

/-- A comparison that is pushed down means the same on the row, in whichever order it was. -/
theorem truth_of_comparison (hm : a.Mirrored) (hb : c.BindsAs b) {op : Comparison}
    {l r : Expression} {p : Predicate} (h : c.comparison (some id) op l r = some p) :
    p.truth a.compare (a.rows id) = a.comparison b op l r := by
  unfold comparison at h
  split at h
  · next q v hl hr =>
    cases h
    rw [Assignment.comparison, value_of_side?_property hb hl, value_of_side?_constant hr]
    · rfl
    · exact fun ls _ h _ => not_tuple_of_side? hl ls h
  · next v q hl hr =>
    cases h
    rw [Assignment.comparison, value_of_side?_constant hl, value_of_side?_property hb hr]
    · exact hm.swap op _ _
    · exact fun ls _ h _ => not_tuple_of_side? hl ls h
  · cases h

theorem comparison_follows (hm : a.Mirrored) (hb : c.BindsAs b) (op : Comparison)
    (l r : Expression) :
    Follows (HoldsOn a id) (a.comparison b op l r) (c.comparison (some id) op l r) := by
  intro ht p hp
  rw [HoldsOn, truth_of_comparison hm hb hp, ht]

/-- Equalities and inequalities, by the recursion over nested tuples. -/
theorem equality_follows (hm : a.Mirrored) (hb : c.BindsAs b) {op : Comparison}
    (hop : op.isEquality = true) (l r : Expression) :
    Follows (HoldsOn a id) (a.comparison b op l r) (c.equality (some id) op l r) := by
  refine (equality.mutual_induct
    (fun l r => Follows (HoldsOn a id) (a.comparison b op l r) (c.equality (some id) op l r))
    (fun ls rs => List.Forall₂ (Follows (HoldsOn a id)) (a.comparisons b op ls rs)
      (c.equalities (some id) op ls rs)) ?tuples ?lengths ?others ?cons ?nil).1 l r
  case tuples =>
    intro ls rs hlen ih
    rw [equality, if_pos hlen, Assignment.comparison, if_pos ⟨hop, hlen⟩]
    exact combineParts_follows ih
  case lengths =>
    intro ls rs hlen
    rw [equality, if_neg hlen]
    intro _ p hp
    cases hp
  case others =>
    intro l r h
    rw [equality]
    · exact comparison_follows hm hb op l r
    · exact h
  case cons =>
    intro l ls r rs ih ihs
    rw [equalities, Assignment.comparisons]
    exact .cons ih ihs
  case nil =>
    intro ls rs h
    rw [equalities, Assignment.comparisons]
    · exact .nil
    · exact h
    · exact h

/-! ## One filter -/

theorem comparison_constant {op : Comparison} {e : Expression} {v : Value} {p : Predicate}
    (h : c.comparison (some id) op e (.constant v) = some p) :
    ∃ q, c.side? (some id) e = some (.property q) ∧ p = compareProperty op q v := by
  unfold comparison at h
  split at h
  · next q w hl hr =>
    obtain ⟨heq, -⟩ := side?_eq_constant.1 hr
    cases heq
    cases h
    exact ⟨q, hl, rfl⟩
  · next w q hl hr =>
    obtain ⟨s, hs⟩ := side?_eq_property.1 hr
    obtain ⟨name, heq⟩ := bind?_eq_some hs
    cases heq
  · cases h

/-- A negation says that its operand is false, which for a member is equality with false. -/
theorem negation_follows (hr : a.Reflexive) (hb : c.BindsAs b) (e : Expression) :
    Follows (HoldsOn a id) (a.truth b e).negation
      (c.equality (some id) .equal e (.constant (.bool false))) := by
  intro ht p hp
  rw [equality] at hp
  · obtain ⟨q, hq, rfl⟩ := comparison_constant hp
    have hvalue := value_of_side?_property (a := a) hb hq
    have hmember : a.truth b e = .ofValue (a.value b e) := by
      obtain ⟨s, hs⟩ := side?_eq_property.1 hq
      obtain ⟨name, rfl⟩ := bind?_eq_some hs
      rfl
    rw [hmember, hvalue, Truth.negation_eq_yes, Truth.ofValue_eq_no] at ht
    change a.compare .equal (a.rows id q.index) (.bool false) = .yes
    rw [ht]
    exact hr _ rfl
  · intro _ _ _ h
    cases h

/-- **What a filter says about a source holds on its row wherever the filter does.** -/
theorem pushDown_follows (hm : a.Mirrored) (hr : a.Reflexive) (hb : c.BindsAs b) {e : Expression}
    {p : Option Predicate} (h : c.pushDown (some id) e = .ok p) :
    Follows (HoldsOn a id) (a.truth b e) p := by
  fun_induction pushDown c (some id) e generalizing p with
  | case1 op l r hop =>
    cases h
    exact equality_follows hm hb hop l r
  | case2 op l r hop =>
    cases h
    exact comparison_follows hm hb op l r
  | case3 l r ihl ihr =>
    obtain ⟨pl, hl, h⟩ := Result.bind_eq_ok_iff.1 h
    obtain ⟨pr, hr, h⟩ := Result.bind_eq_ok_iff.1 h
    cases h
    exact narrow_follows (ihl hl) (ihr hr)
  | case4 l r ihl ihr =>
    obtain ⟨pl, hl, h⟩ := Result.bind_eq_ok_iff.1 h
    obtain ⟨pr, hr, h⟩ := Result.bind_eq_ok_iff.1 h
    cases h
    exact widen_follows (ihl hl) (ihr hr)
  | case5 e =>
    cases h
    exact negation_follows hr hb e
  | case6 target name q s hq hbool =>
    cases h
    obtain ⟨name, hname⟩ := bind?_eq_some hq
    cases hname
    intro ht p hp
    cases hp
    have hvalue : a.value b (.member (.source id) name) = a.rows id q.index := by
      simp [Assignment.value, hb id name q s hq]
    have hrow : a.rows id q.index = .bool true := by
      rw [← hvalue]
      exact Truth.ofValue_eq_yes.1 ht
    change a.compare .equal (a.rows id q.index) (.bool true) = .yes
    rw [hrow]
    exact hr _ rfl
  | case7 | case8 | case9 | case10 | case11 | case12 =>
    cases h
    intro _ p hp
    cases hp
  | case13 => cases h

/-! ## Compiling -/

/-- The predicates so far hold on the rows of their sources. -/
def Keeps (c : Compilation) (a : Assignment) : Prop :=
  ∀ id sel, c.select? id = some sel → ∀ p ∈ sel.predicate, HoldsOn a id p

theorem bindsAs_binding {q : Query} {m : Model} (hmodel : c.model = m)
    (h : ∀ id s, c.source? id = some s → q.sources.find? (·.id == id) = some s) :
    c.BindsAs (q.binding m) := by
  intro id name p s hbind
  simp only [bind?, Option.all_some, beq_self_eq_true, if_true, Option.bind_eq_bind,
    Option.bind_eq_some_iff] at hbind
  obtain ⟨r, hr, t, ht, p', hp, heq⟩ := hbind
  cases heq
  have hs := h id r.source (registered?_eq_some_iff.1 hr).1
  simp only [Query.binding, Option.bind_eq_bind, hs, Option.bind_some]
  rw [← hmodel, ht]
  exact hp

/-! ### Sources -/

theorem Keeps.withSource (hk : c.Keeps a) (s : QuerySource) (t : EntityType) :
    (c.withSource s t).Keeps a := by
  intro id sel hsel p hp
  rcases put_eq_some hsel with ⟨-, rfl⟩ | ⟨-, hsel⟩
  · cases hp
  · exact hk id sel hsel p hp

/-- Sources are registered each under the identity that it is the first to have. -/
theorem addSources_spec {ss : List QuerySource} {c' : Compilation}
    (h : ss.foldlM (fun c s => c.addSource s) c = .ok c') (hstep : c.InStep) (hk : c.Keeps a) :
    c'.InStep ∧ c'.Keeps a ∧ c'.model = c.model ∧
      ∀ id, c'.source? id = (c.source? id).or (ss.find? (·.id == id)) := by
  induction ss generalizing c with
  | nil =>
    cases h
    exact ⟨hstep, hk, rfl, fun id => by simp⟩
  | cons s ss ih =>
    obtain ⟨c₁, h₁, h₂⟩ := Result.foldlM_cons_eq_ok_iff.1 h
    rcases addSource_eq_ok_iff.1 h₁ with ⟨hsel, rfl⟩ | ⟨hnew, t, -, rfl⟩
    · obtain ⟨hstep', hk', hmodel, hsource⟩ := ih h₂ hstep hk
      refine ⟨hstep', hk', hmodel, fun id => ?_⟩
      rw [hsource]
      by_cases hid : s.id = id
      · obtain ⟨s', hs'⟩ := Option.isSome_iff_exists.1
          ((hstep.sources s.id).1 ((hstep.selects s.id).2 hsel))
        rw [← hid, hs']
        rfl
      · rw [List.find?_cons_of_neg (by simpa using hid)]
    · obtain ⟨hstep', hk', hmodel, hsource⟩ := ih h₂ (hstep.withSource hnew t) (hk.withSource s t)
      refine ⟨hstep', hk', hmodel, fun id => ?_⟩
      rw [hsource]
      by_cases hid : s.id = id
      · have hput : (c.withSource s t).source? s.id = some s := put_self
        rw [← hid, hput, hstep.source?_eq_none hnew, List.find?_cons_of_pos (by simp)]
        rfl
      · have hput : (c.withSource s t).source? id = c.source? id := put_of_ne (Ne.symm hid)
        rw [hput, List.find?_cons_of_neg (by simpa using hid)]

/-! ### Filters and selectors -/

/-- A compilation of a query whose sources are registered. -/
structure Fetching (q : Query) (m : Model) (a : Assignment) (c : Compilation) : Prop where
  inStep : c.InStep
  model : c.model = m
  source : ∀ id, c.source? id = q.sources.find? (·.id == id)
  keeps : c.Keeps a

namespace Fetching

variable {q : Query} {m : Model} {f : Select → Select}

theorem bindsAs (h : Fetching q m a c) : c.BindsAs (q.binding m) :=
  bindsAs_binding h.model fun id _ hs => (h.source id).symm.trans hs

theorem modifySelect (h : Fetching q m a c)
    (hf : ∀ sel : Select, (∀ p ∈ sel.predicate, HoldsOn a id p) →
      ∀ p ∈ (f sel).predicate, HoldsOn a id p) : Fetching q m a (c.modifySelect id f) := by
  refine ⟨h.inStep.modifySelect id f, (model_modifySelect c id f).trans h.model, fun id' => ?_,
    fun id' sel hsel => ?_⟩
  · rw [source?_modifySelect]
    exact h.source id'
  · rcases select?_modifySelect_eq_some hsel with ⟨rfl, sel₀, hsel₀, rfl⟩ | ⟨-, hsel⟩
    · exact hf sel₀ (h.keeps id' sel₀ hsel₀)
    · exact h.keeps id' sel hsel

theorem demand {p : Predicate} (h : Fetching q m a c) (hp : HoldsOn a id p) :
    Fetching q m a (c.modifySelect id (·.demand p)) := by
  refine h.modifySelect fun sel hsel p' hp' => ?_
  unfold Select.demand at hp'
  cases hs : sel.predicate with
  | none =>
    rw [hs] at hp'
    cases hp'
    exact hp
  | some p₀ =>
    rw [hs] at hp'
    cases hp'
    exact Truth.both_eq_yes.2 ⟨hsel p₀ (by rw [hs]; rfl), hp⟩

end Fetching

/-- A filter that holds demands nothing that does not. -/
theorem addFilter_keeps_fetching (hm : a.Mirrored) (hr : a.Reflexive) {q : Query} {m : Model}
    {e : Expression} (he : a.truth (q.binding m) e = .yes) :
    Stepwise.Keeps (Fetching q m a) (addFilter e) :=
  keeps_addFilter fun _ _ h h' _ _ p hpushed =>
    h'.demand (pushDown_follows hm hr h.bindsAs hpushed he p rfl)

theorem predicate_project (s : Select) (p : Property) : (s.project p).predicate = s.predicate := by
  unfold Select.project
  split <;> rfl

theorem predicate_projectAll (s : Select) : s.projectAll.predicate = s.predicate := by
  unfold Select.projectAll
  induction s.entityType.properties generalizing s with
  | nil => rfl
  | cons p ps ih => exact (ih (s.project p)).trans (predicate_project s p)

/-- What a query selects is read, and nothing is demanded for it. -/
theorem addSelector_keeps_fetching {q : Query} {m : Model} (sel : Selector) :
    Stepwise.Keeps (Fetching q m a) (addSelector sel) := by
  cases sel with
  | entity id =>
    refine keeps_changeSelect fun c h => h.modifySelect fun s hs p hp => hs p ?_
    rwa [predicate_projectAll] at hp
  | members es =>
    refine .forM fun e _ => keeps_update fun c c' h hadd => ?_
    unfold addMember at hadd
    split at hadd
    · obtain ⟨-, rfl⟩ := changeSelect_eq_ok_iff.1 hadd
      refine h.modifySelect fun s hs p hp => hs p ?_
      rwa [predicate_project] at hp
    · cases hadd
      exact h

/-! ### Queries -/

/-- **Pushing filters down loses no row.** Where all filters of a query hold, the predicate of each
source holds on the source's row. -/
theorem compile_keeps_rows {m : Model} {q : Query} {c : Compilation}
    (h : compile { model := m } q = (.ok (), c)) {a : Assignment} (hm : a.Mirrored)
    (hr : a.Reflexive) (hq : ∀ e ∈ q.filters, a.truth (q.binding m) e = .yes) :
    ∀ s ∈ q.sources, ∃ sel, c.select? s.id = some sel ∧
      ∀ p, sel.predicate = some p → p.truth a.compare (a.rows s.id) = .yes := by
  obtain ⟨⟨⟩, c₁, h₁, h⟩ := Stepwise.perform_bind_eq_ok_iff.1 h
  have h₁ := (Stepwise.perform_forM_eq_ok_iff fun _ _ _ => perform_update_eq_ok_iff).1 h₁
  have hempty : Keeps { model := m } a := by
    intro id sel hsel
    cases hsel
  obtain ⟨hstep, hk, hmodel, hsource⟩ := addSources_spec h₁ (.empty m) hempty
  have hfetching : Fetching q m a c₁ := ⟨hstep, hmodel, hsource, hk⟩
  have hrest : Stepwise.Keeps (Fetching q m a)
      (q.filters.forM addFilter >>= fun _ => addSelector q.selector) :=
    (Stepwise.Keeps.forM fun e he => addFilter_keeps_fetching hm hr (hq e he)).bind fun _ =>
      addSelector_keeps_fetching q.selector
  have hc : Fetching q m a c := by
    have hperform := hrest c₁ hfetching
    rwa [h] at hperform
  intro s hs
  have hregistered : s.id ∈ c.order := by
    rw [hc.inStep.sources, hc.source, List.find?_isSome]
    exact ⟨s, hs, by simp⟩
  obtain ⟨sel, hsel⟩ := Option.isSome_iff_exists.1 ((hc.inStep.selects s.id).1 hregistered)
  exact ⟨sel, hsel, hc.keeps s.id sel hsel⟩

/-- People with a name and a flag. -/
def people : Model :=
  let t : EntityType := { id := ⟨1⟩, name := "Person" }
  let name := t.place { name := "Name", valueType := .text }
  let active := { t.place { name := "Active", valueType := .bool } with index := 1 }
  ⟨[{ t with properties := [name, active] }]⟩

/-- Pairs of people, with filters on both at once. -/
def pairs : Query :=
  .mk ⟨⟨1⟩, "p", .named "Person"⟩ [.range ⟨⟨2⟩, "q", .named "Person"⟩,
    .filter (.compare .equal (.tuple [.property ⟨1⟩ "Name", .property ⟨2⟩ "Active"])
      (.tuple [.constant (.text "Ann"), .constant (.bool false)])),
    .filter (.both (.compare .less (.constant (.text "A")) (.property ⟨1⟩ "Name"))
      (.call "old" [])),
    .filter (.negation (.property ⟨2⟩ "Active"))] (.entity ⟨1⟩)

/-- Ann, who is active, and Bob, who is not. -/
def annAndBob : Assignment where
  compare := textCompare
  rows id := if id = ⟨1⟩ then fun i => if i = 0 then .text "Ann" else .bool true
    else fun i => if i = 0 then .text "Bob" else .bool false
  others _ := .bool true

theorem compile_keeps_rows_pairs :
    (∀ e ∈ pairs.filters, annAndBob.truth (pairs.binding people) e = .yes) ∧
      ∀ s ∈ pairs.sources, ∃ sel, (compile { model := people } pairs).2.select? s.id = some sel ∧
        ∀ p, sel.predicate = some p →
          p.truth annAndBob.compare (annAndBob.rows s.id) = .yes :=
  ⟨by decide, compile_keeps_rows (Prod.ext (by decide) rfl) (mirrored_of_textCompare rfl)
    (reflexive_of_textCompare rfl) (by decide)⟩

end Compilation

end EntityMapper
