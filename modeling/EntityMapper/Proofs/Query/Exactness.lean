import EntityMapper.Proofs.Query.Pushable

/-!
# Filters that are pushed down whole

A predicate holds wherever its filter does, and it may hold elsewhere too, because a conjunction may
drop a side. Where nothing is dropped (`Compilation.DropsNone`) the filter and its predicate have the
same truth value, be it true, false or unknown (`Compilation.truth_of_pushDown`).

The proof goes along the steps of pushing down, `Expression.Next`: what tuples unfold to means the same
as their comparison (`Assignment.truth_unfolded`), and it ends at comparisons and flags. A flag is
compared with true or false, so it has to hold one of them or null (`Assignment.FlagHolds`), and the
comparison has to follow the usual table (`Assignment.ComparesFlags`).
-/

namespace EntityMapper

/-! ## Three-valued logic -/

namespace Truth

theorem both_assoc (s t u : Truth) : (s.both t).both u = s.both (t.both u) := by
  cases s <;> cases t <;> cases u <;> rfl

theorem either_assoc (s t u : Truth) : (s.either t).either u = s.either (t.either u) := by
  cases s <;> cases t <;> cases u <;> rfl

theorem all_cons (t : Truth) (ts : List Truth) : all (t :: ts) = ts.foldl both t := by
  induction ts generalizing t with
  | nil => cases t <;> rfl
  | cons u ts ih =>
    rw [List.foldl_cons, ← ih]
    exact (both_assoc t u (all ts)).symm

theorem any_cons (t : Truth) (ts : List Truth) : any (t :: ts) = ts.foldl either t := by
  induction ts generalizing t with
  | nil => cases t <;> rfl
  | cons u ts ih =>
    rw [List.foldl_cons, ← ih]
    exact (either_assoc t u (any ts)).symm

end Truth

/-! ## The meaning of what tuples unfold to -/

open Expression (join unfolded Next)

namespace Assignment

variable {a : Assignment} {b : Binding} {op : Comparison} {e : Expression}
  {ls rs es : List Expression}

theorem truth_join (op : Comparison) (l r : Expression) : a.truth b (join op l r) =
    (if op = .equal then Truth.both else Truth.either) (a.truth b l) (a.truth b r) := by
  unfold join
  split <;> rfl

theorem truth_foldl_join (op : Comparison) (e : Expression) (es : List Expression) :
    a.truth b (es.foldl (join op) e) =
      (es.map (a.truth b)).foldl (if op = .equal then Truth.both else Truth.either) (a.truth b e) := by
  induction es generalizing e with
  | nil => rfl
  | cons e' es ih => rw [List.foldl_cons, ih, truth_join, List.map_cons, List.foldl_cons]

theorem comparisons_eq_map (op : Comparison) (ls rs : List Expression) :
    a.comparisons b op ls rs = (List.zipWith (.compare op) ls rs).map (a.truth b) := by
  induction ls generalizing rs with
  | nil => rfl
  | cons l ls ih =>
    cases rs with
    | nil => rfl
    | cons r rs => rw [comparisons, ih, List.zipWith_cons_cons, List.map_cons, truth]

/-- Tuples are compared as what they unfold to. -/
theorem truth_unfolded (hop : op.isEquality = true) (hlength : ls.length = rs.length)
    (he : unfolded op ls rs = some e) :
    a.truth b e = a.truth b (.compare op (.tuple ls) (.tuple rs)) := by
  rw [truth, comparison, if_pos ⟨hop, hlength⟩, comparisons_eq_map]
  unfold unfolded at he
  split at he
  · cases he
  · next hes =>
    cases he
    rw [hes, truth_foldl_join, List.map_cons]
    split
    · rw [Truth.all_cons]
    · rw [Truth.any_cons]

/-! ## Flags -/

/-- Equality of truth values has the usual table. -/
structure ComparesFlags (a : Assignment) : Prop where
  bool : ∀ x y : Bool, a.compare .equal (.bool x) (.bool y) = if x = y then .yes else .no
  null : ∀ y : Bool, a.compare .equal .null (.bool y) = .unknown

theorem ComparesFlags.compare_true (h : a.ComparesFlags) {v : Value}
    (hv : v = .null ∨ ∃ x, v = .bool x) : a.compare .equal v (.bool true) = .ofValue v := by
  obtain rfl | ⟨x, rfl⟩ := hv
  · exact h.null true
  · rw [h.bool]
    cases x <;> rfl

theorem ComparesFlags.compare_false (h : a.ComparesFlags) {v : Value}
    (hv : v = .null ∨ ∃ x, v = .bool x) :
    a.compare .equal v (.bool false) = (Truth.ofValue v).negation := by
  obtain rfl | ⟨x, rfl⟩ := hv
  · exact h.null false
  · rw [h.bool]
    cases x <;> rfl

end Assignment

/-! ## Parts -/

/-- A property holds of a filter and of everything that pushing it down goes on to. -/
def Expression.Throughout (P : Expression → Prop) (e : Expression) : Prop :=
  ∀ part, Relation.ReflTransGen Next part e → P part

namespace Expression.Throughout

variable {P : Expression → Prop} {e part : Expression}

theorem self (h : e.Throughout P) : P e :=
  h e .refl

theorem next (h : e.Throughout P) (hnext : Next part e) : part.Throughout P :=
  fun part' hpart => h part' (.tail hpart hnext)

theorem of_next (hself : P e) (hnext : ∀ part, Next part e → part.Throughout P) :
    e.Throughout P := by
  intro part hpart
  rcases hpart.cases_tail with rfl | ⟨e', hpart, hstep⟩
  · exact hself
  · exact hnext e' hstep part hpart

end Expression.Throughout

/-- A member that stands as a filter, bare or negated, holds a truth value or null. -/
def Assignment.FlagHolds (a : Assignment) (b : Binding) : Expression → Prop
  | .member target name | .negation (.member target name) =>
    a.value b (.member target name) = .null ∨ ∃ x, a.value b (.member target name) = .bool x
  | _ => True

namespace Compilation

variable {c : Compilation} {a : Assignment} {b : Binding} {filter : Option SourceId} {row : Row}
  {op : Comparison} {l r e : Expression} {p : Predicate}

/-- A conjunction drops no side: either both sides are pushed down, or none is. -/
def DropsNone (c : Compilation) (filter : Option SourceId) : Expression → Prop
  | .both l r =>
    (∃ p, c.pushDown filter l = .ok (some p)) ↔ ∃ p, c.pushDown filter r = .ok (some p)
  | _ => True

/-! ## Sources that a filter admits -/

theorem bind?_admitted {x : Property × Select} (h : c.bind? filter e = some x) :
    ∃ id, filter.all (· == id) = true ∧ c.bind? (some id) e = some x := by
  unfold bind? at h
  split at h
  · next id name =>
    split at h
    · next hall => exact ⟨id, hall, by simpa [bind?] using h⟩
    · cases h
  · cases h

theorem side?_property_admitted {q : Property} (h : c.side? filter e = some (.property q)) :
    ∃ id, filter.all (· == id) = true ∧ c.side? (some id) e = some (.property q) := by
  obtain ⟨s, hs⟩ := side?_eq_property.1 h
  obtain ⟨id, hall, hs⟩ := bind?_admitted hs
  exact ⟨id, hall, side?_eq_property.2 ⟨s, hs⟩⟩

theorem side?_constant_admitted {v : Value} (h : c.side? filter e = some (.constant v))
    (filter' : Option SourceId) : c.side? filter' e = some (.constant v) :=
  side?_eq_constant.2 (side?_eq_constant.1 h)

theorem comparison_admitted (h : c.comparison filter op l r = some p) :
    ∃ id, filter.all (· == id) = true ∧ c.comparison (some id) op l r = some p := by
  unfold comparison at h
  split at h
  · next q v hl hr =>
    obtain ⟨id, hall, hl⟩ := side?_property_admitted hl
    exact ⟨id, hall, by rw [comparison, hl, side?_constant_admitted hr (some id)]; exact h⟩
  · next v q hl hr =>
    obtain ⟨id, hall, hr⟩ := side?_property_admitted hr
    exact ⟨id, hall, by rw [comparison, hr, side?_constant_admitted hl (some id)]; exact h⟩
  · cases h

/-- What is pushed down of a comparison is a comparison, or what its tuples unfold to. -/
theorem pushDown_compare_cases (h : c.pushDown filter (.compare op l r) = .ok (some p)) :
    c.comparison filter op l r = some p ∨ ∃ e, Next e (.compare op l r) ∧
      a.truth b e = a.truth b (.compare op l r) ∧ c.pushDown filter e = .ok (some p) := by
  by_cases hop : op.isEquality = true
  · by_cases htuples : ∃ ls rs, l = .tuple ls ∧ r = .tuple rs
    · obtain ⟨ls, rs, rfl, rfl⟩ := htuples
      by_cases hlength : ls.length = rs.length
      · rw [pushDown_unfolded hop hlength] at h
        cases he : unfolded op ls rs with
        | none => rw [he] at h; cases h
        | some e =>
          rw [he] at h
          exact .inr ⟨e, .unfold hop hlength he, Assignment.truth_unfolded hop hlength he, h⟩
      · rw [pushDown_compare hop, equality, if_neg hlength] at h
        cases h
    · rw [pushDown_compare hop, equality] at h
      · exact .inl (Except.ok.inj h)
      · exact fun ls rs hl hr => htuples ⟨ls, rs, hl, hr⟩
  · rw [pushDown, if_neg hop] at h
    exact .inl (Except.ok.inj h)

/-! ## Exactness -/

/-- A comparison means the same on the row that the sources it may speak of have. -/
theorem truth_of_comparison_admitted (hm : a.Mirrored) (hb : c.BindsAs b)
    (hrow : ∀ id, filter.all (· == id) = true → a.rows id = row)
    (h : c.comparison filter op l r = some p) :
    p.truth a.compare row = a.truth b (.compare op l r) := by
  obtain ⟨id, hall, h⟩ := comparison_admitted h
  rw [← hrow id hall, truth_of_comparison hm hb h, Assignment.truth]

/-- A negated member is compared with false. -/
theorem truth_of_negation (ht : a.ComparesFlags) (hb : c.BindsAs b)
    (hrow : ∀ id, filter.all (· == id) = true → a.rows id = row)
    (hflag : a.FlagHolds b (.negation e))
    (h : c.equality filter .equal e (.constant (.bool false)) = some p) :
    p.truth a.compare row = a.truth b (.negation e) := by
  rw [equality] at h
  · obtain ⟨id, hall, h⟩ := comparison_admitted h
    obtain ⟨q, hq, rfl⟩ := comparison_constant h
    have hvalue := value_of_side?_property (a := a) hb hq
    obtain ⟨s, hs⟩ := side?_eq_property.1 hq
    obtain ⟨name, rfl⟩ := bind?_eq_some hs
    rw [← hrow id hall, Assignment.truth, Assignment.truth]
    · rw [← ht.compare_false hflag, hvalue]
      rfl
    all_goals
      intros
      contradiction
  · intro _ _ _ h
    cases h

/-- A member that stands as a filter is compared with true. -/
theorem truth_of_member {q : Property} {s : Select} {target : Expression} {name : String}
    (ht : a.ComparesFlags) (hb : c.BindsAs b)
    (hrow : ∀ id, filter.all (· == id) = true → a.rows id = row)
    (hflag : a.FlagHolds b (.member target name))
    (h : c.bind? filter (.member target name) = some (q, s)) :
    (compareProperty .equal q (.bool true)).truth a.compare row =
      a.truth b (.member target name) := by
  obtain ⟨id, hall, hs⟩ := bind?_admitted h
  have hvalue : a.value b (.member target name) = a.rows id q.index :=
    value_of_side?_property hb (side?_eq_property.2 ⟨s, hs⟩)
  rw [← hrow id hall, Assignment.truth]
  · rw [← ht.compare_true hflag, hvalue]
    rfl
  all_goals
    intros
    contradiction

/-- **Nothing is lost where nothing is dropped.** A filter that is pushed down whole has the truth
value of its predicate, on every row and for every comparison that follows the usual table for
truth values. -/
theorem truth_of_pushDown (hm : a.Mirrored) (ht : a.ComparesFlags) (hb : c.BindsAs b)
    (hrow : ∀ id, filter.all (· == id) = true → a.rows id = row)
    (h : c.pushDown filter e = .ok (some p)) (hwhole : e.Throughout (c.DropsNone filter))
    (hflags : e.Throughout (a.FlagHolds b)) : p.truth a.compare row = a.truth b e := by
  -- The sides of a conjunction are both pushed down, so that the induction goes on with both.
  induction e using Expression.wellFounded_next.induction generalizing p with
  | _ e ih =>
    replace ih (e' : Expression) (hnext : Next e' e) (p : Predicate)
        (h : c.pushDown filter e' = .ok (some p)) : p.truth a.compare row = a.truth b e' :=
      ih e' hnext h (hwhole.next hnext) (hflags.next hnext)
    cases e with
    | compare op l r =>
      rcases pushDown_compare_cases (a := a) (b := b) h with h | ⟨e, hnext, htruth, h⟩
      · exact truth_of_comparison_admitted hm hb hrow h
      · rw [← htruth]
        exact ih e hnext p h
    | both l r =>
      obtain ⟨pl, hl, h⟩ := Result.bind_eq_ok_iff.1 h
      obtain ⟨pr, hr, h⟩ := Result.bind_eq_ok_iff.1 h
      have hsides := hwhole.self
      cases pl with
      | none =>
        cases pr with
        | none => cases h
        | some pr =>
          obtain ⟨_, hl'⟩ := hsides.2 ⟨pr, hr⟩
          cases hl.symm.trans hl'
      | some pl =>
        obtain ⟨_, hr'⟩ := hsides.1 ⟨pl, hl⟩
        cases hr.symm.trans hr'
        cases h
        rw [Predicate.truth, ih l (.bothLeft l r) _ hl, ih r (.bothRight l r) _ hr,
          Assignment.truth]
    | either l r =>
      obtain ⟨pl, hl, h⟩ := Result.bind_eq_ok_iff.1 h
      obtain ⟨pr, hr, h⟩ := Result.bind_eq_ok_iff.1 h
      cases pl with
      | none => cases h
      | some pl =>
        cases pr with
        | none => cases h
        | some pr =>
          cases h
          rw [Predicate.truth, ih l (.eitherLeft l r) _ hl, ih r (.eitherRight l r) _ hr,
            Assignment.truth]
    | negation e => exact truth_of_negation ht hb hrow hflags.self (Except.ok.inj h)
    | member target name =>
      rw [pushDown] at h
      split at h
      · next q s hbind =>
        split at h
        · cases h
          exact truth_of_member ht hb hrow hflags.self hbind
        · cases h
      · cases h
    | source | constant | tuple | subquery | call => cases h

/-- Persons who are not both active and called Bob, and whom A comes before or who are not active. -/
def exceptBob : Expression :=
  .both (.compare .notEqual
      (.tuple [.property ⟨1⟩ "Active", .tuple [.constant (.text "Bob")]])
      (.tuple [.constant (.bool true), .tuple [.property ⟨1⟩ "Name"]]))
    (.either (.compare .less (.constant (.text "A")) (.property ⟨1⟩ "Name"))
      (.negation (.property ⟨1⟩ "Active")))

theorem throughout_exceptBob {P : Expression → Prop} (hcompare : ∀ op l r, P (.compare op l r))
    (heither : ∀ l r, P (.either l r)) (hflag : P (.negation (.property ⟨1⟩ "Active")))
    (hwhole : P exceptBob) : exceptBob.Throughout P := by
  refine .of_next hwhole fun part hnext => ?_
  cases hnext with
  | bothLeft =>
    refine .of_next (hcompare ..) fun part hnext => ?_
    cases hnext with
    | unfold _ _ he =>
      cases he
      refine .of_next (heither ..) fun part hnext => ?_
      cases hnext with
      | eitherLeft => exact .of_next (hcompare ..) nofun
      | eitherRight =>
        refine .of_next (hcompare ..) fun part hnext => ?_
        cases hnext with
        | unfold _ _ he =>
          cases he
          exact .of_next (hcompare ..) nofun
  | bothRight =>
    refine .of_next (heither ..) fun part hnext => ?_
    cases hnext with
    | eitherLeft => exact .of_next (hcompare ..) nofun
    | eitherRight => exact .of_next hflag nofun

theorem truth_of_pushDown_exceptBob :
    ∃ p, pairSources.pushDown (some ⟨1⟩) exceptBob = .ok (some p) ∧
      p.truth annAndBob.compare (annAndBob.rows ⟨1⟩) =
        annAndBob.truth (pairs.binding people) exceptBob := by
  have hbinds : pairSources.BindsAs (pairs.binding people) := by
    refine bindsAs_binding rfl fun id s hs => ?_
    by_cases hsecond : id = ⟨2⟩
    · exact hsecond ▸ hs
    · by_cases hfirst : id = ⟨1⟩
      · exact hfirst ▸ hs
      · cases ((put_of_ne hsecond).trans (put_of_ne hfirst)).symm.trans hs
  have hflags : annAndBob.ComparesFlags :=
    ⟨fun x y => by cases x <;> cases y <;> rfl, fun _ => rfl⟩
  have hrow : ∀ id, (some (⟨1⟩ : SourceId)).all (· == id) = true →
      annAndBob.rows id = annAndBob.rows ⟨1⟩ := by
    intro id hid
    simp only [Option.all_some, beq_iff_eq] at hid
    rw [← hid]
  have hwhole : exceptBob.Throughout (pairSources.DropsNone (some ⟨1⟩)) :=
    throughout_exceptBob (fun _ _ _ => trivial) (fun _ _ => trivial) trivial
      (iff_of_true ⟨_, rfl⟩ ⟨_, rfl⟩)
  have hholds : exceptBob.Throughout (annAndBob.FlagHolds (pairs.binding people)) :=
    throughout_exceptBob (fun _ _ _ => trivial) (fun _ _ => trivial) (.inr ⟨true, rfl⟩) trivial
  exact ⟨_, rfl, truth_of_pushDown (mirrored_of_textCompare rfl) hflags hbinds hrow rfl hwhole
    hholds⟩

end Compilation

end EntityMapper
