import EntityMapper.Proofs.Value.Key

/-!
# Key equality is an equivalence

Key equality is symmetric and transitive as well as reflexive, for values
(`Value.keyEqual_equivalence`) and for keys (`EntityKey.equal_equivalence`). Documents and arrays are
compared part by part; other values are key-equal only if they are the same. The numbers in documents
are compared as numbers, so there zeros of both signs are equal (`Magnitude.equalSigned_iff`).

Keys made of components are equal exactly if neither has all of its components, or if the components
match one by one (`EntityKey.equal_ofValues_iff`).
-/

namespace EntityMapper

/-! ## Numbers -/

namespace Magnitude

variable {a b c : Bool × Magnitude}

/-- A number is a zero of some sign. -/
def IsZero (a : Bool × Magnitude) : Prop :=
  ∃ e, a.2 = .finite 0 e

/-- Equal numbers are both zero, or the same. -/
theorem equalSigned_iff : equalSigned a b = true ↔
    IsZero a ∧ IsZero b ∨ (∀ payload, a.2 ≠ .nan payload) ∧ a = b := by
  unfold equalSigned
  split
  · exact iff_of_true rfl (.inl ⟨⟨_, rfl⟩, _, rfl⟩)
  · refine iff_of_false nofun ?_
    rintro (⟨⟨_, hzero⟩, -⟩ | ⟨hnan, -⟩)
    · cases hzero
    · exact hnan _ rfl
  · next hnan hzeros =>
    rw [beq_iff_eq]
    refine ⟨fun h => .inr ⟨fun payload hp => hnan a.1 payload (Prod.ext rfl hp), h⟩, ?_⟩
    rintro (⟨⟨e, ha⟩, e', hb⟩ | ⟨-, h⟩)
    · exact (hzeros a.1 e b.1 e' (Prod.ext rfl ha) (Prod.ext rfl hb)).elim
    · exact h

theorem equalSigned_symm (h : equalSigned a b = true) : equalSigned b a = true := by
  rw [equalSigned_iff] at h ⊢
  rcases h with ⟨ha, hb⟩ | ⟨hnan, rfl⟩
  · exact .inl ⟨hb, ha⟩
  · exact .inr ⟨hnan, rfl⟩

theorem equalSigned_trans (h : equalSigned a b = true) (h' : equalSigned b c = true) :
    equalSigned a c = true := by
  rw [equalSigned_iff] at h h' ⊢
  rcases h with ⟨ha, hb⟩ | ⟨hnan, rfl⟩
  · rcases h' with ⟨-, hc⟩ | ⟨-, rfl⟩
    · exact .inl ⟨ha, hc⟩
    · exact .inl ⟨ha, hb⟩
  · exact h'

end Magnitude

namespace JsonNumber

variable {l m n : JsonNumber}

theorem equal_symm (h : m.equal n = true) : n.equal m = true := by
  cases m with
  | integer m =>
    cases n with
    | integer n => exact BEq.symm h
    | float y _ => cases h
  | float x _ =>
    cases n with
    | integer n => cases h
    | float y _ => exact Magnitude.equalSigned_symm h

theorem equal_trans (h : l.equal m = true) (h' : m.equal n = true) : l.equal n = true := by
  cases l with
  | integer l =>
    cases m with
    | integer m =>
      obtain rfl : l = m := by simpa [equal] using h
      exact h'
    | float x _ => cases h
  | float w _ =>
    cases m with
    | integer m => cases h
    | float x _ =>
      cases n with
      | integer n => cases h'
      | float y _ => exact Magnitude.equalSigned_trans h h'

end JsonNumber

/-! ## Documents -/

namespace Json

/-- Equal documents are the same, but for numbers, arrays and objects. -/
theorem eq_of_equal {a b : Json} (h : a.equal b = true) (hnumber : ∀ n, a ≠ .number n)
    (harray : ∀ items, a ≠ .array items) (hobject : ∀ members, a ≠ .object members) : a = b := by
  cases a with
  | number n => exact absurd rfl (hnumber n)
  | array items => exact absurd rfl (harray items)
  | object members => exact absurd rfl (hobject members)
  | _ => cases b <;> simp_all [equal]

mutual

theorem equal_symm {a b : Json} (h : a.equal b = true) : b.equal a = true := by
  cases a with
  | number m =>
    cases b with
    | number n => exact JsonNumber.equal_symm h
    | _ => cases h
  | array as =>
    cases b with
    | array bs => exact equalItems_symm h
    | _ => cases h
  | object as =>
    cases b with
    | object bs => exact equalMembers_symm h
    | _ => cases h
  | _ =>
    obtain rfl := eq_of_equal h nofun nofun nofun
    exact h

theorem equalItems_symm {as bs : List Json} (h : equalItems as bs = true) :
    equalItems bs as = true := by
  match as, bs with
  | [], [] => rfl
  | [], _ :: _ | _ :: _, [] => cases h
  | a :: as, b :: bs =>
    obtain ⟨ha, has⟩ := Bool.and_eq_true_iff.1 h
    exact Bool.and_eq_true_iff.2 ⟨equal_symm ha, equalItems_symm has⟩

theorem equalMembers_symm {as bs : List (String × Json)} (h : equalMembers as bs = true) :
    equalMembers bs as = true := by
  match as, bs with
  | [], [] => rfl
  | [], _ :: _ | _ :: _, [] => cases h
  | (k, a) :: as, (l, b) :: bs =>
    obtain ⟨hfirst, has⟩ := Bool.and_eq_true_iff.1 h
    obtain ⟨hname, ha⟩ := Bool.and_eq_true_iff.1 hfirst
    have hfirst := Bool.and_eq_true_iff.2 ⟨BEq.symm hname, equal_symm ha⟩
    exact Bool.and_eq_true_iff.2 ⟨hfirst, equalMembers_symm has⟩

end

mutual

theorem equal_trans {a b c : Json} (h : a.equal b = true) (h' : b.equal c = true) :
    a.equal c = true := by
  cases a with
  | number l =>
    cases b with
    | number m =>
      cases c with
      | number n => exact JsonNumber.equal_trans h h'
      | _ => cases h'
    | _ => cases h
  | array as =>
    cases b with
    | array bs =>
      cases c with
      | array cs => exact equalItems_trans h h'
      | _ => cases h'
    | _ => cases h
  | object as =>
    cases b with
    | object bs =>
      cases c with
      | object cs => exact equalMembers_trans h h'
      | _ => cases h'
    | _ => cases h
  | _ =>
    obtain rfl := eq_of_equal h nofun nofun nofun
    exact h'

theorem equalItems_trans {as bs cs : List Json} (h : equalItems as bs = true)
    (h' : equalItems bs cs = true) : equalItems as cs = true := by
  match as, bs, cs with
  | [], [], _ => exact h'
  | [], _ :: _, _ | _ :: _, [], _ => cases h
  | _ :: _, _ :: _, [] => cases h'
  | a :: as, b :: bs, c :: cs =>
    obtain ⟨ha, has⟩ := Bool.and_eq_true_iff.1 h
    obtain ⟨hb, hbs⟩ := Bool.and_eq_true_iff.1 h'
    exact Bool.and_eq_true_iff.2 ⟨equal_trans ha hb, equalItems_trans has hbs⟩

theorem equalMembers_trans {as bs cs : List (String × Json)} (h : equalMembers as bs = true)
    (h' : equalMembers bs cs = true) : equalMembers as cs = true := by
  match as, bs, cs with
  | [], [], _ => exact h'
  | [], _ :: _, _ | _ :: _, [], _ => cases h
  | _ :: _, _ :: _, [] => cases h'
  | (k, a) :: as, (l, b) :: bs, (m, c) :: cs =>
    obtain ⟨hfirst, has⟩ := Bool.and_eq_true_iff.1 h
    obtain ⟨hname, ha⟩ := Bool.and_eq_true_iff.1 hfirst
    obtain ⟨hfirst', hbs⟩ := Bool.and_eq_true_iff.1 h'
    obtain ⟨hname', hb⟩ := Bool.and_eq_true_iff.1 hfirst'
    have hfirst := Bool.and_eq_true_iff.2 ⟨BEq.trans hname hname', equal_trans ha hb⟩
    exact Bool.and_eq_true_iff.2 ⟨hfirst, equalMembers_trans has hbs⟩

end

end Json

/-! ## Values -/

namespace Value

variable {vs ws : List Value}

mutual

theorem keyEqual_symm {v w : Value} (h : v.keyEqual w = true) : w.keyEqual v = true := by
  cases v with
  | json a =>
    cases w with
    | json b => exact Json.equal_symm h
    | _ => cases h
  | array vs =>
    cases w with
    | array ws => exact keyEqualItems_symm h
    | _ => cases h
  | _ =>
    obtain rfl := eq_of_keyEqual h nofun nofun
    exact h

theorem keyEqualItems_symm {vs ws : List Value} (h : keyEqualItems vs ws = true) :
    keyEqualItems ws vs = true := by
  match vs, ws with
  | [], [] => rfl
  | [], _ :: _ | _ :: _, [] => cases h
  | v :: vs, w :: ws =>
    obtain ⟨hv, hvs⟩ := Bool.and_eq_true_iff.1 h
    exact Bool.and_eq_true_iff.2 ⟨keyEqual_symm hv, keyEqualItems_symm hvs⟩

end

mutual

theorem keyEqual_trans {u v w : Value} (h : u.keyEqual v = true) (h' : v.keyEqual w = true) :
    u.keyEqual w = true := by
  cases u with
  | json a =>
    cases v with
    | json b =>
      cases w with
      | json c => exact Json.equal_trans h h'
      | _ => cases h'
    | _ => cases h
  | array us =>
    cases v with
    | array vs =>
      cases w with
      | array ws => exact keyEqualItems_trans h h'
      | _ => cases h'
    | _ => cases h
  | _ =>
    obtain rfl := eq_of_keyEqual h nofun nofun
    exact h'

theorem keyEqualItems_trans {us vs ws : List Value} (h : keyEqualItems us vs = true)
    (h' : keyEqualItems vs ws = true) : keyEqualItems us ws = true := by
  match us, vs, ws with
  | [], [], _ => exact h'
  | [], _ :: _, _ | _ :: _, [], _ => cases h
  | _ :: _, _ :: _, [] => cases h'
  | u :: us, v :: vs, w :: ws =>
    obtain ⟨hu, hus⟩ := Bool.and_eq_true_iff.1 h
    obtain ⟨hv, hvs⟩ := Bool.and_eq_true_iff.1 h'
    exact Bool.and_eq_true_iff.2 ⟨keyEqual_trans hu hv, keyEqualItems_trans hus hvs⟩

end

theorem keyEqual_equivalence : Equivalence fun v w : Value => v.keyEqual w = true :=
  ⟨keyEqual_self, keyEqual_symm, keyEqual_trans⟩

theorem keyEqualItems_iff :
    keyEqualItems vs ws = true ↔ List.Forall₂ (fun v w => v.keyEqual w = true) vs ws := by
  refine ⟨fun h => ?_, keyEqualItems_of_forall₂⟩
  induction vs generalizing ws with
  | nil =>
    cases ws with
    | nil => exact .nil
    | cons w ws => cases h
  | cons v vs ih =>
    cases ws with
    | nil => cases h
    | cons w ws =>
      obtain ⟨hv, hvs⟩ := Bool.and_eq_true_iff.1 h
      exact .cons hv (ih hvs)

end Value

/-! ## Keys -/

namespace EntityKey

variable {j k l : EntityKey} {vs ws : List Value}

theorem equal_self (k : EntityKey) : k.equal k = true := by
  cases k with
  | null => rfl
  | simple v => exact v.keyEqual_self
  | composite vs => exact Value.keyEqualItems_self vs

theorem equal_symm (h : j.equal k = true) : k.equal j = true := by
  cases j <;> cases k
  case null.null => rfl
  case simple.simple => exact Value.keyEqual_symm h
  case composite.composite => exact Value.keyEqualItems_symm h
  all_goals cases h

theorem equal_trans (h : j.equal k = true) (h' : k.equal l = true) : j.equal l = true := by
  cases j <;> cases k
  case null.null => exact h'
  case simple.simple =>
    cases l with
    | simple w => exact Value.keyEqual_trans h h'
    | _ => cases h'
  case composite.composite =>
    cases l with
    | composite ws => exact Value.keyEqualItems_trans h h'
    | _ => cases h'
  all_goals cases h

theorem equal_equivalence : Equivalence fun k l : EntityKey => k.equal l = true :=
  ⟨equal_self, equal_symm, equal_trans⟩

/-- Equal keys have equal components. -/
theorem forall₂_values (h : j.equal k = true) :
    List.Forall₂ (fun v w => v.keyEqual w = true) j.values k.values := by
  cases j <;> cases k
  case null.null => exact .nil
  case simple.simple => exact .cons h .nil
  case composite.composite => exact Value.keyEqualItems_iff.1 h
  all_goals cases h

/-- Nothing is identified by components that are none, or that have a null among them. -/
def Incomplete (vs : List Value) : Prop :=
  vs = [] ∨ .null ∈ vs

theorem ofValues_of_incomplete (h : Incomplete vs) : ofValues vs = .null := by
  unfold ofValues
  rw [if_pos]
  rcases h with rfl | h
  · rfl
  · rw [List.any_eq_true.2 ⟨.null, h, rfl⟩, Bool.or_true]

theorem values_ofValues (h : ¬ Incomplete vs) : (ofValues vs).values = vs := by
  have hkey : ¬ (vs.isEmpty || vs.any Value.isNull) = true := by
    intro hnull
    rcases Bool.or_eq_true_iff.1 hnull with hempty | hnull
    · exact h (.inl (List.isEmpty_iff.1 hempty))
    · obtain ⟨v, hv, hnull⟩ := List.any_eq_true.1 hnull
      exact h (.inr (Value.isNull_eq_true_iff.1 hnull ▸ hv))
  unfold ofValues
  rw [if_neg hkey]
  split <;> rfl

/-- Keys of components are equal if none of the two identifies anything, or if the components match
one by one. -/
theorem equal_ofValues_iff : (ofValues vs).equal (ofValues ws) = true ↔
    Incomplete vs ∧ Incomplete ws ∨ ¬ Incomplete vs ∧ ¬ Incomplete ws ∧
      List.Forall₂ (fun v w => v.keyEqual w = true) vs ws := by
  refine ⟨fun h => ?_, ?_⟩
  · have hvalues := forall₂_values h
    by_cases hv : Incomplete vs <;> by_cases hw : Incomplete ws
    · exact .inl ⟨hv, hw⟩
    · rw [ofValues_of_incomplete hv, values_ofValues hw] at hvalues
      exact absurd (.inl (List.forall₂_nil_left_iff.1 hvalues)) hw
    · rw [ofValues_of_incomplete hw, values_ofValues hv] at hvalues
      exact absurd (.inl (List.forall₂_nil_right_iff.1 hvalues)) hv
    · rw [values_ofValues hv, values_ofValues hw] at hvalues
      exact .inr ⟨hv, hw, hvalues⟩
  · rintro (⟨hv, hw⟩ | ⟨-, -, h⟩)
    · rw [ofValues_of_incomplete hv, ofValues_of_incomplete hw]
      rfl
    · exact equal_ofValues h

end EntityKey

end EntityMapper
