import EntityMapper.Proofs.Query.Unfolding

/-!
# Which filters are pushed down

Pushing a filter down fails exactly where an item stands as a filter of its own
(`Expression.ReachesItem`), whatever else the filter says. Otherwise it gives a predicate or nothing,
and it gives a predicate exactly for the filters that are built from comparisons of declared members
with constants, flags and negated flags, by the rules of `Compilation.Pushable`.

`Compilation.pushDown_total` says so for every filter of every depth, and that the recursion ends.
-/

namespace EntityMapper

/-- An item stands as a filter, below conjunctions and disjunctions only. -/
inductive Expression.ReachesItem : Expression → Prop
  | source (id : SourceId) : ReachesItem (.source id)
  | bothLeft {l r : Expression} (h : ReachesItem l) : ReachesItem (.both l r)
  | bothRight {l r : Expression} (h : ReachesItem r) : ReachesItem (.both l r)
  | eitherLeft {l r : Expression} (h : ReachesItem l) : ReachesItem (.either l r)
  | eitherRight {l r : Expression} (h : ReachesItem r) : ReachesItem (.either l r)

namespace Compilation

variable {c : Compilation} {id : SourceId} {op : Comparison} {l r e : Expression} {name : String}
  {p : Property} {v : Value}

/-- The entity type of a registered source declares a property of a name. -/
def Declares (c : Compilation) (id : SourceId) (name : String) (p : Property) : Prop :=
  ∃ r t, c.registered? id = some r ∧ r.source.itemType.resolve c.model = some t ∧
    t.property? name = some p

/-- The filters that say something about the rows of a source. -/
inductive Pushable (c : Compilation) (id : SourceId) : Expression → Prop
  | memberFirst {name : String} {p : Property} (op : Comparison) {v : Value}
      (hdeclared : c.Declares id name p) (hv : v.isNull = false) :
      Pushable c id (.compare op (.member (.source id) name) (.constant v))
  | constantFirst {name : String} {p : Property} (op : Comparison) {v : Value}
      (hdeclared : c.Declares id name p) (hv : v.isNull = false) :
      Pushable c id (.compare op (.constant v) (.member (.source id) name))
  /-- Tuples are equal only if they are in a position that can be pushed down. -/
  | someEqual {ls rs : List Expression} {x : Expression × Expression}
      (hlength : ls.length = rs.length) (hx : x ∈ ls.zip rs)
      (h : Pushable c id (.compare .equal x.1 x.2)) :
      Pushable c id (.compare .equal (.tuple ls) (.tuple rs))
  /-- Where tuples differ is known only if all positions can be pushed down. -/
  | allDifferent {ls rs : List Expression} (hlength : ls.length = rs.length) (hne : ls ≠ [])
      (h : ∀ x ∈ ls.zip rs, Pushable c id (.compare .notEqual x.1 x.2)) :
      Pushable c id (.compare .notEqual (.tuple ls) (.tuple rs))
  | flag {name : String} {p : Property} (hdeclared : c.Declares id name p)
      (hp : p.valueType = .bool) : Pushable c id (.member (.source id) name)
  | negation {name : String} {p : Property} (hdeclared : c.Declares id name p) :
      Pushable c id (.negation (.member (.source id) name))
  | bothLeft {l r : Expression} (h : Pushable c id l) : Pushable c id (.both l r)
  | bothRight {l r : Expression} (h : Pushable c id r) : Pushable c id (.both l r)
  | either {l r : Expression} (hl : Pushable c id l) (hr : Pushable c id r) :
      Pushable c id (.either l r)

/-! ## Sides -/

theorem bind?_eq_some_iff : (∃ s, c.bind? (some id) e = some (p, s)) ↔
    ∃ name, e = .member (.source id) name ∧ c.Declares id name p := by
  constructor
  · rintro ⟨s, hs⟩
    obtain ⟨name, rfl⟩ := bind?_eq_some hs
    simp only [bind?, Option.all_some, beq_self_eq_true, if_true, Option.bind_eq_bind,
      Option.bind_eq_some_iff] at hs
    obtain ⟨r, hr, t, ht, q, hq, heq⟩ := hs
    cases heq
    exact ⟨name, rfl, r, t, hr, ht, hq⟩
  · rintro ⟨name, rfl, r, t, hr, ht, hp⟩
    exact ⟨r.select, by simp [bind?, hr, ht, hp]⟩

theorem side?_eq_property_iff : c.side? (some id) e = some (.property p) ↔
    ∃ name, e = .member (.source id) name ∧ c.Declares id name p :=
  side?_eq_property.trans bind?_eq_some_iff

/-- A comparison is pushed down if a declared member is compared with a constant that is not null. -/
theorem isSome_comparison_iff : (c.comparison (some id) op l r).isSome ↔
    ∃ name p v, c.Declares id name p ∧ v.isNull = false ∧
      ((l = .member (.source id) name ∧ r = .constant v) ∨
        (l = .constant v ∧ r = .member (.source id) name)) := by
  constructor
  · intro h
    unfold comparison at h
    split at h
    · next p v hl hr =>
      obtain ⟨name, hl, hdeclared⟩ := side?_eq_property_iff.1 hl
      obtain ⟨hr, hv⟩ := side?_eq_constant.1 hr
      exact ⟨name, p, v, hdeclared, hv, .inl ⟨hl, hr⟩⟩
    · next v p hl hr =>
      obtain ⟨hl, hv⟩ := side?_eq_constant.1 hl
      obtain ⟨name, hr, hdeclared⟩ := side?_eq_property_iff.1 hr
      exact ⟨name, p, v, hdeclared, hv, .inr ⟨hl, hr⟩⟩
    · cases h
  · rintro ⟨name, p, v, hdeclared, hv, hsides⟩
    have hmember := side?_eq_property_iff.2 ⟨name, rfl, hdeclared⟩
    have hconstant : c.side? (some id) (.constant v) = some (.constant v) :=
      side?_eq_constant.2 ⟨rfl, hv⟩
    unfold comparison
    rcases hsides with ⟨rfl, rfl⟩ | ⟨rfl, rfl⟩ <;> rw [hmember, hconstant] <;> rfl

/-! ## Tuples -/

theorem isSome_narrow (p q : Option Predicate) : (narrow p q).isSome ↔ p.isSome ∨ q.isSome := by
  cases p <;> cases q <;> simp [narrow]

theorem isSome_widen (p q : Option Predicate) : (widen p q).isSome ↔ p.isSome ∧ q.isSome := by
  cases p <;> cases q <;> simp [widen]

theorem isSome_foldl_narrow {ps : List (Option Predicate)} {p : Option Predicate} :
    (ps.foldl narrow p).isSome ↔ ∃ q ∈ p :: ps, q.isSome := by
  induction ps generalizing p with
  | nil => simp
  | cons q ps ih => simp only [List.foldl_cons, ih, List.exists_mem_cons_iff, isSome_narrow, or_assoc]

theorem isSome_foldl_widen {ps : List (Option Predicate)} {p : Option Predicate} :
    (ps.foldl widen p).isSome ↔ ∀ q ∈ p :: ps, q.isSome := by
  induction ps generalizing p with
  | nil => simp
  | cons q ps ih => simp only [List.foldl_cons, ih, List.forall_mem_cons, isSome_widen, and_assoc]

theorem isSome_combineParts_equal {ps : List (Option Predicate)} :
    (combineParts .equal ps).isSome ↔ ∃ p ∈ ps, p.isSome := by
  cases ps with
  | nil => simp [combineParts]
  | cons p ps => exact isSome_foldl_narrow

theorem isSome_combineParts_notEqual {ps : List (Option Predicate)} :
    (combineParts .notEqual ps).isSome ↔ ps ≠ [] ∧ ∀ p ∈ ps, p.isSome := by
  cases ps with
  | nil => simp [combineParts]
  | cons p ps =>
    have hwiden : (ps.foldl widen p).isSome ↔ ∀ q ∈ p :: ps, q.isSome := isSome_foldl_widen
    simpa [combineParts] using hwiden

theorem equalities_eq_map (ls rs : List Expression) : c.equalities (some id) op ls rs =
    (ls.zip rs).map fun x => c.equality (some id) op x.1 x.2 := by
  induction ls generalizing rs with
  | nil => rfl
  | cons l ls ih =>
    cases rs with
    | nil => rfl
    | cons r rs => rw [equalities, ih, List.zip_cons_cons, List.map_cons]

theorem pushable_of_isSome_comparison (h : (c.comparison (some id) op l r).isSome) :
    c.Pushable id (.compare op l r) := by
  obtain ⟨name, p, v, hdeclared, hv, ⟨rfl, rfl⟩ | ⟨rfl, rfl⟩⟩ := isSome_comparison_iff.1 h
  · exact .memberFirst op hdeclared hv
  · exact .constantFirst op hdeclared hv

/-- Without tuples there are only the rules for members and constants. -/
theorem isSome_comparison_iff_pushable
    (h : op.isEquality = true → ∀ ls rs, l = .tuple ls → r = .tuple rs → False) :
    (c.comparison (some id) op l r).isSome ↔ c.Pushable id (.compare op l r) := by
  refine ⟨pushable_of_isSome_comparison, fun hpushable => ?_⟩
  cases hpushable with
  | memberFirst _ hdeclared hv =>
    exact isSome_comparison_iff.2 ⟨_, _, _, hdeclared, hv, .inl ⟨rfl, rfl⟩⟩
  | constantFirst _ hdeclared hv =>
    exact isSome_comparison_iff.2 ⟨_, _, _, hdeclared, hv, .inr ⟨rfl, rfl⟩⟩
  | someEqual | allDifferent => exact (h rfl _ _ rfl rfl).elim

/-- Between tuples there are only the rules for tuples. -/
theorem pushable_tuples_iff {ls rs : List Expression} :
    c.Pushable id (.compare op (.tuple ls) (.tuple rs)) ↔ ls.length = rs.length ∧
      ((op = .equal ∧ ∃ x ∈ ls.zip rs, c.Pushable id (.compare op x.1 x.2)) ∨
        (op = .notEqual ∧ ls ≠ [] ∧ ∀ x ∈ ls.zip rs, c.Pushable id (.compare op x.1 x.2))) := by
  constructor
  · intro h
    cases h with
    | someEqual hlength hx h => exact ⟨hlength, .inl ⟨rfl, _, hx, h⟩⟩
    | allDifferent hlength hne h => exact ⟨hlength, .inr ⟨rfl, hne, h⟩⟩
  · rintro ⟨hlength, ⟨rfl, x, hx, h⟩ | ⟨rfl, hne, h⟩⟩
    · exact .someEqual hlength hx h
    · exact .allDifferent hlength hne h

/-- Equalities and inequalities, by the recursion over nested tuples. -/
theorem isSome_equality_iff (hop : op.isEquality = true) (l r : Expression) :
    (c.equality (some id) op l r).isSome ↔ c.Pushable id (.compare op l r) := by
  refine (equality.mutual_induct
    (fun l r => (c.equality (some id) op l r).isSome ↔ c.Pushable id (.compare op l r))
    (fun ls rs => ∀ x ∈ ls.zip rs,
      (c.equality (some id) op x.1 x.2).isSome ↔ c.Pushable id (.compare op x.1 x.2))
    ?tuples ?lengths ?others ?cons ?nil).1 l r
  case tuples =>
    intro ls rs hlength ih
    rw [equality, if_pos hlength, equalities_eq_map, pushable_tuples_iff]
    cases op with
    | equal =>
      rw [isSome_combineParts_equal]
      constructor
      · rintro ⟨p, hp, h⟩
        obtain ⟨x, hx, rfl⟩ := List.mem_map.1 hp
        exact ⟨hlength, .inl ⟨rfl, x, hx, (ih x hx).1 h⟩⟩
      · rintro ⟨-, ⟨-, x, hx, h⟩ | ⟨hop, -⟩⟩
        · exact ⟨_, List.mem_map_of_mem hx, (ih x hx).2 h⟩
        · cases hop
    | notEqual =>
      have hne : (ls.zip rs).map (fun x => c.equality (some id) .notEqual x.1 x.2) ≠ [] ↔
          ls ≠ [] := by
        rw [ne_eq, List.map_eq_nil_iff, ← List.length_eq_zero_iff, List.length_zip, ← hlength,
          Nat.min_self, List.length_eq_zero_iff]
      rw [isSome_combineParts_notEqual, hne, List.forall_mem_map]
      constructor
      · rintro ⟨hne, h⟩
        exact ⟨hlength, .inr ⟨rfl, hne, fun x hx => (ih x hx).1 (h x hx)⟩⟩
      · rintro ⟨-, ⟨hop, -⟩ | ⟨-, hne, h⟩⟩
        · cases hop
        · exact ⟨hne, fun x hx => (ih x hx).2 (h x hx)⟩
    | _ => cases hop
  case lengths =>
    intro ls rs hlength
    rw [equality, if_neg hlength, pushable_tuples_iff]
    exact iff_of_false Bool.false_ne_true fun h => hlength h.1
  case others =>
    intro l r htuples
    rw [equality]
    · exact isSome_comparison_iff_pushable fun _ => htuples
    · exact htuples
  case cons =>
    intro l ls r rs ih ihs
    rw [List.zip_cons_cons]
    exact List.forall_mem_cons.2 ⟨ih, ihs⟩
  case nil =>
    intro ls rs h x hx
    cases ls with
    | nil => cases hx
    | cons l ls =>
      cases rs with
      | nil => cases hx
      | cons r rs => exact (h l ls r rs rfl rfl).elim

/-! ## Filters -/

/-- Pushing down fails where an item is reached, and otherwise gives a predicate for the pushable
filters. -/
theorem pushDown_cases (c : Compilation) (id : SourceId) (e : Expression) :
    (e.ReachesItem ∧ ∃ err, c.pushDown (some id) e = .error err) ∨
      ¬ e.ReachesItem ∧ ∃ p, c.pushDown (some id) e = .ok p ∧ (p.isSome ↔ c.Pushable id e) := by
  fun_induction pushDown c (some id) e with
  | case1 op l r hop =>
    exact .inr ⟨(fun h => by cases h), _, rfl, isSome_equality_iff hop l r⟩
  | case2 op l r hop =>
    exact .inr ⟨(fun h => by cases h), _, rfl, isSome_comparison_iff_pushable fun h => absurd h hop⟩
  | case3 l r ihl ihr =>
    rcases ihl with ⟨hl, err, hl'⟩ | ⟨hl, pl, hl', hpl⟩
    · exact .inl ⟨.bothLeft hl, err, by rw [hl']; rfl⟩
    rcases ihr with ⟨hr, err, hr'⟩ | ⟨hr, pr, hr', hpr⟩
    · exact .inl ⟨.bothRight hr, err, by rw [hl', hr']; rfl⟩
    refine .inr ⟨fun h => ?_, narrow pl pr, by rw [hl', hr']; rfl, ?_⟩
    · cases h with
      | bothLeft h => exact hl h
      | bothRight h => exact hr h
    · rw [isSome_narrow, hpl, hpr]
      refine ⟨fun h => h.elim .bothLeft .bothRight, fun h => ?_⟩
      cases h with
      | bothLeft h => exact .inl h
      | bothRight h => exact .inr h
  | case4 l r ihl ihr =>
    rcases ihl with ⟨hl, err, hl'⟩ | ⟨hl, pl, hl', hpl⟩
    · exact .inl ⟨.eitherLeft hl, err, by rw [hl']; rfl⟩
    rcases ihr with ⟨hr, err, hr'⟩ | ⟨hr, pr, hr', hpr⟩
    · exact .inl ⟨.eitherRight hr, err, by rw [hl', hr']; rfl⟩
    refine .inr ⟨fun h => ?_, widen pl pr, by rw [hl', hr']; rfl, ?_⟩
    · cases h with
      | eitherLeft h => exact hl h
      | eitherRight h => exact hr h
    · rw [isSome_widen, hpl, hpr]
      refine ⟨fun h => .either h.1 h.2, fun h => ?_⟩
      cases h with
      | either hl hr => exact ⟨hl, hr⟩
  | case5 e =>
    refine .inr ⟨(fun h => by cases h), _, rfl, ?_⟩
    rw [equality, isSome_comparison_iff]
    · constructor
      · rintro ⟨name, p, v, hdeclared, -, ⟨rfl, -⟩ | ⟨-, hr⟩⟩
        · exact .negation hdeclared
        · cases hr
      · intro h
        cases h with
        | negation hdeclared => exact ⟨_, _, _, hdeclared, rfl, .inl ⟨rfl, rfl⟩⟩
    · intro _ _ _ h
      cases h
  | case6 target name q s hq hbool =>
    obtain ⟨name, heq, hdeclared⟩ := bind?_eq_some_iff.1 ⟨s, hq⟩
    cases heq
    exact .inr ⟨(fun h => by cases h), _, rfl, iff_of_true rfl (.flag hdeclared hbool)⟩
  | case7 target name q s hq hbool =>
    refine .inr ⟨(fun h => by cases h), none, rfl, iff_of_false Bool.false_ne_true fun h => ?_⟩
    cases h with
    | flag hdeclared hp =>
      obtain ⟨s', hs⟩ := bind?_eq_some_iff.2 ⟨name, rfl, hdeclared⟩
      rw [hq] at hs
      cases hs
      exact absurd hp hbool
  | case8 target name hq =>
    refine .inr ⟨(fun h => by cases h), none, rfl, iff_of_false Bool.false_ne_true fun h => ?_⟩
    cases h with
    | flag hdeclared hp =>
      obtain ⟨s', hs⟩ := bind?_eq_some_iff.2 ⟨name, rfl, hdeclared⟩
      rw [hq] at hs
      cases hs
  | case9 | case10 | case11 | case12 =>
    refine .inr ⟨(fun h => by cases h), none, rfl, iff_of_false Bool.false_ne_true fun h => ?_⟩
    cases h
  | case13 id' => exact .inl ⟨.source id', _, rfl⟩

/-- **What is pushed down, and what is a defect.** Pushing a filter down fails exactly if an item is
reached, and otherwise gives a predicate exactly for the pushable filters. It comes to an end although
tuples are replaced by what they unfold to. -/
theorem pushDown_total (c : Compilation) (id : SourceId) :
    (∀ e, (∃ err, c.pushDown (some id) e = .error err) ↔ e.ReachesItem) ∧
    (∀ e, ¬ e.ReachesItem →
      ∃ p, c.pushDown (some id) e = .ok p ∧ (p.isSome ↔ c.Pushable id e)) ∧
    (∀ op ls rs, op.isEquality = true → ls.length = rs.length →
      c.pushDown (some id) (.compare op (.tuple ls) (.tuple rs)) =
        (Expression.unfolded op ls rs).elim (.ok none) (c.pushDown (some id))) ∧
    WellFounded Expression.Next := by
  refine ⟨fun e => ⟨fun ⟨err, herr⟩ => ?_, fun h => ?_⟩, fun e h => ?_,
    fun _ _ _ => pushDown_unfolded, Expression.wellFounded_next⟩
  · rcases pushDown_cases c id e with ⟨h, -⟩ | ⟨-, p, hp, -⟩
    · exact h
    · cases herr.symm.trans hp
  · rcases pushDown_cases c id e with ⟨-, herr⟩ | ⟨hnot, -⟩
    · exact herr
    · exact absurd h hnot
  · rcases pushDown_cases c id e with ⟨hreaches, -⟩ | ⟨-, hp⟩
    · exact absurd hreaches h
    · exact hp

/-- The sources of pairs of people, registered. -/
def pairSources : Compilation :=
  (compile { model := people } pairs).2

/-- A condition on a first person, in the first of two positions. -/
def nested : Expression :=
  .compare .equal
    (.tuple [.tuple [.property ⟨1⟩ "Name", .call "old" []], .property ⟨2⟩ "Name"])
    (.tuple [.tuple [.constant (.text "Ann"), .constant .null], .constant (.text "Bob")])

theorem nested_pushable : pairSources.Pushable ⟨1⟩ nested := by
  have hdeclared : ∃ p, pairSources.Declares ⟨1⟩ "Name" p := ⟨_, _, _, rfl, rfl, rfl⟩
  obtain ⟨p, hdeclared⟩ := hdeclared
  refine .someEqual rfl (List.mem_cons_self ..) ?_
  exact .someEqual rfl (List.mem_cons_self ..) (.memberFirst .equal hdeclared rfl)

/-- An item that is negated is no defect, and an item that stands beside a call is one. -/
theorem pushDown_total_pairs :
    (∃ p, pairSources.pushDown (some ⟨1⟩) (.both (.negation (.source ⟨1⟩)) nested) = .ok (some p)) ∧
      (∃ err, pairSources.pushDown (some ⟨1⟩) (.either (.call "old" []) (.source ⟨1⟩)) =
        .error err) ∧
      pairSources.pushDown (some ⟨1⟩) nested = pairSources.pushDown (some ⟨1⟩)
        (.both (.compare .equal (.tuple [.property ⟨1⟩ "Name", .call "old" []])
            (.tuple [.constant (.text "Ann"), .constant .null]))
          (.compare .equal (.property ⟨2⟩ "Name") (.constant (.text "Bob")))) := by
  obtain ⟨hfails, hpushes, hunfolds, -⟩ := pushDown_total pairSources ⟨1⟩
  refine ⟨?_, (hfails _).2 (.eitherRight (.source ⟨1⟩)), hunfolds _ _ _ rfl rfl⟩
  have hnot : ¬ (Expression.both (.negation (.source ⟨1⟩)) nested).ReachesItem := by
    intro h
    cases h with
    | bothLeft h => cases h
    | bothRight h => cases h
  obtain ⟨p, hp, hsome⟩ := hpushes _ hnot
  obtain ⟨q, rfl⟩ := Option.isSome_iff_exists.1 (hsome.2 (.bothRight nested_pushable))
  exact ⟨q, hp⟩

end Compilation

end EntityMapper
