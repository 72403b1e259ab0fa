import EntityMapper.EntityKey
import Mathlib.Data.List.Forall2

/-!
# Key equality

Key equality holds between every value and itself (`Value.keyEqual_self`), not-a-number included, for
it goes by the bits of floating-point numbers, and the numbers of documents are finite. A value that
is key-equal to null is null, so keys made of key-equal values are equal (`EntityKey.equal_ofValues`).
Apart from documents and arrays, values that are key-equal are the same (`Value.eq_of_keyEqual`).
-/

namespace EntityMapper

/-! ## Every value equals itself -/

/-- A number that is neither infinite nor not-a-number equals itself. -/
theorem Double.equal_self {x : Double} (h : x.isFinite = true) : x.equal x = true := by
  unfold equal
  unfold isFinite at h
  rcases hx : x.decode with ⟨sign, m | _ | _⟩
  · cases m with
    | zero => rfl
    | succ m => simp [Magnitude.equalSigned]
  all_goals
    rw [hx] at h
    cases h

theorem JsonNumber.equal_self (n : JsonNumber) : n.equal n = true := by
  cases n with
  | integer n => simp [equal]
  | float x finite => exact Double.equal_self finite

mutual

theorem Json.equal_self (j : Json) : j.equal j = true := by
  cases j with
  | null => rfl
  | bool b => simp [equal]
  | number n => exact n.equal_self
  | string s => simp [equal]
  | array items => exact Json.equalItems_self items
  | object members => exact Json.equalMembers_self members

theorem Json.equalItems_self (items : List Json) : Json.equalItems items items = true := by
  match items with
  | [] => rfl
  | j :: rest =>
    rw [Json.equalItems, Json.equal_self j, Json.equalItems_self rest]
    rfl

theorem Json.equalMembers_self (members : List (String × Json)) :
    Json.equalMembers members members = true := by
  match members with
  | [] => rfl
  | (name, j) :: rest =>
    rw [Json.equalMembers, Json.equal_self j, Json.equalMembers_self rest]
    simp

end

namespace Value

mutual

/-- Every value is key-equal to itself. -/
theorem keyEqual_self (v : Value) : v.keyEqual v = true := by
  cases v with
  | array items => exact keyEqualItems_self items
  | json j => exact j.equal_self
  | null => rfl
  | _ => simp [keyEqual, equal]

theorem keyEqualItems_self (items : List Value) : keyEqualItems items items = true := by
  match items with
  | [] => rfl
  | v :: rest =>
    rw [keyEqualItems, keyEqual_self v, keyEqualItems_self rest]
    rfl

end

variable {v w : Value} {vs ws : List Value}

/-! ## Null -/

theorem isNull_eq_true_iff : v.isNull = true ↔ v = .null := by
  cases v <;> simp [isNull]

/-- Of two key-equal values both are null, or neither. -/
theorem isNull_of_keyEqual (h : v.keyEqual w = true) : v.isNull = w.isNull := by
  refine Bool.eq_iff_iff.2 ⟨fun hv => ?_, fun hw => ?_⟩
  · rw [isNull_eq_true_iff] at hv
    subst hv
    cases w <;> first | rfl | cases h
  · rw [isNull_eq_true_iff] at hw
    subst hw
    cases v <;> first | rfl | cases h

theorem any_isNull_of_keyEqual (h : List.Forall₂ (fun v w => v.keyEqual w = true) vs ws) :
    vs.any isNull = ws.any isNull := by
  induction h with
  | nil => rfl
  | cons hv _ ih => rw [List.any_cons, List.any_cons, isNull_of_keyEqual hv, ih]

theorem keyEqualItems_of_forall₂ (h : List.Forall₂ (fun v w => v.keyEqual w = true) vs ws) :
    keyEqualItems vs ws = true := by
  induction h with
  | nil => rfl
  | cons hv _ ih =>
    rw [keyEqualItems, hv, ih]
    rfl

/-! ## Equal values -/

/-- Key-equal values are the same, but for documents and arrays. -/
theorem eq_of_keyEqual (h : v.keyEqual w = true) (hjson : ∀ j, v ≠ .json j)
    (harray : ∀ items, v ≠ .array items) : v = w := by
  cases v with
  | float x =>
    cases w with
    | float y => exact congrArg (fun bits => Value.float ⟨bits⟩) (eq_of_beq h)
    | _ => cases h
  | double x =>
    cases w with
    | double y => exact congrArg (fun bits => Value.double ⟨bits⟩) (eq_of_beq h)
    | _ => cases h
  | json j => exact absurd rfl (hjson j)
  | array items => exact absurd rfl (harray items)
  | _ => cases w <;> simp_all [keyEqual, equal]

end Value

/-! ## Keys -/

/-- Keys of key-equal components are equal. -/
theorem EntityKey.equal_ofValues {vs ws : List Value}
    (h : List.Forall₂ (fun v w => v.keyEqual w = true) vs ws) :
    (ofValues vs).equal (ofValues ws) = true := by
  have hnull := Value.any_isNull_of_keyEqual h
  have hempty : vs.isEmpty = ws.isEmpty := by
    cases h <;> rfl
  unfold ofValues
  rw [hempty, hnull]
  split
  · rfl
  · cases h with
    | nil => rfl
    | cons hv hrest =>
      cases hrest with
      | nil => exact hv
      | cons hv' hrest => exact Value.keyEqualItems_of_forall₂ (.cons hv (.cons hv' hrest))

end EntityMapper
