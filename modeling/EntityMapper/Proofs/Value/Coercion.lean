import EntityMapper.Proofs.Stepwise
import EntityMapper.Proofs.Value.Typed
import Mathlib.Algebra.Ring.Int.Defs

/-!
# What coercion accepts and keeps

A value coerces to exactly the value of the declared type that says the same
(`ValueType.coerce_eq_ok_iff`). So it is accepted if it is an integer in range, a floating-point
number, a text for a decimal, or of the type already (`ValueType.Accepts`), and coercing again changes
nothing. The main statement is `ValueType.coerce_exact`.
-/

namespace EntityMapper

/-! ## Spans -/

namespace ValueType

variable {t u : ValueType} {v w : Value} {n : Int} {err : Error}

/-- The number of bits of the integers of a type. -/
def width : ValueType → Nat
  | .tinyInt => 8
  | .smallInt => 16
  | .int => 32
  | .bigInt => 64
  | _ => 0

/-- The range of an integer type spans an integer. -/
def Spans (t : ValueType) (n : Int) : Prop :=
  t.isInteger = true ∧ -2 ^ (t.width - 1) ≤ n ∧ n < 2 ^ (t.width - 1)

theorem exists_integerValue?_iff : (∃ w, t.integerValue? n = some w) ↔ t.Spans n := by
  unfold integerValue? Spans
  cases t with
  | tinyInt | smallInt | int | bigInt =>
    dsimp only [isInteger, width]
    split
    · next hrange => exact iff_of_true ⟨_, rfl⟩ ⟨rfl, by simpa using hrange⟩
    · next hrange => exact iff_of_false nofun fun h => hrange (by simpa using h.2)
  | _ => exact iff_of_false nofun nofun

/-- The ranges of wider types are larger. -/
theorem Spans.mono (h : t.Spans n) (hu : u.isInteger = true) (hwidth : t.width ≤ u.width) :
    u.Spans n := by
  have hpow : (2 : Int) ^ (t.width - 1) ≤ 2 ^ (u.width - 1) := by
    exact_mod_cast Nat.pow_le_pow_right Nat.two_pos (Nat.sub_le_sub_right hwidth 1)
  obtain ⟨-, hlow, hhigh⟩ := h
  exact ⟨hu, by omega, by omega⟩

/-! ## Coercion -/

/-- **Coercion gives the value of the declared type that says what the given value does.** -/
theorem coerce_eq_ok_iff : t.coerce v = .ok w ↔ v.Carries w ∧ t.Admits w := by
  refine ⟨spec_of_coerce, ?_⟩
  rintro ⟨hcarries, hw⟩
  rcases hw with rfl | hw
  · rw [hcarries.eq_null_iff.1 rfl, coerce_null]
  · cases hcarries with
    | same => exact coerce_of_valueType hw
    | integer hv hn =>
      have ht : t.isInteger = true := by
        cases w <;> cases hn <;> cases hw <;> rfl
      rw [coerce_of_integer? ht hv, integerValue?_of_integer? hw hn]
    | decimal | widened | narrowed =>
      cases hw
      rfl

/-- The values that a type accepts: null, integers in its range, floating-point numbers of either
width, texts for decimals, and its own. -/
def Accepts (t : ValueType) (v : Value) : Prop :=
  v = .null ∨ (∃ n, v.integer? = some n ∧ t.Spans n) ∨
  ((t = .float ∨ t = .double) ∧ (v.valueType? = some .float ∨ v.valueType? = some .double)) ∨
  (t = .decimal ∧ (v.valueType? = some .decimal ∨ v.valueType? = some .text)) ∨
  v.valueType? = some t

theorem exists_coerce_iff : (∃ w, t.coerce v = .ok w) ↔ t.Accepts v := by
  constructor
  · rintro ⟨w, h⟩
    obtain ⟨hcarries, hw⟩ := coerce_eq_ok_iff.1 h
    rcases hw with rfl | hw
    · exact .inl (hcarries.eq_null_iff.1 rfl)
    · cases hcarries with
      | same => exact .inr (.inr (.inr (.inr hw)))
      | @integer _ _ n hv hn =>
        exact .inr (.inl ⟨n, hv, exists_integerValue?_iff.1 ⟨w, integerValue?_of_integer? hw hn⟩⟩)
      | decimal s =>
        cases hw
        exact .inr (.inr (.inr (.inl ⟨rfl, .inr rfl⟩)))
      | widened x =>
        cases hw
        exact .inr (.inr (.inl ⟨.inr rfl, .inl rfl⟩))
      | narrowed x =>
        cases hw
        exact .inr (.inr (.inl ⟨.inl rfl, .inr rfl⟩))
  · rintro (rfl | ⟨n, hv, hrange⟩ | ⟨rfl | rfl, hv⟩ | ⟨rfl, hv⟩ | hv)
    · exact ⟨.null, t.coerce_null⟩
    · obtain ⟨w, hw⟩ := exists_integerValue?_iff.2 hrange
      exact ⟨w, by rw [coerce_of_integer? hrange.1 hv, hw]⟩
    · cases v <;> first | exact ⟨_, rfl⟩ | simp [Value.valueType?] at hv
    · cases v <;> first | exact ⟨_, rfl⟩ | simp [Value.valueType?] at hv
    · cases v <;> first | exact ⟨_, rfl⟩ | simp [Value.valueType?] at hv
    · exact ⟨v, coerce_of_valueType hv⟩

theorem coerce_integer_iff (ht : t.isInteger = true) (hv : v.integer? = some n) :
    t.coerce v = .ok w ↔ t.integerValue? n = some w := by
  rw [coerce_of_integer? ht hv]
  cases t.integerValue? n <;> simp

/-- Coercing an integer to a wider type first makes no difference. -/
theorem coerce_through (ht : t.isInteger = true) (hu : u.isInteger = true)
    (hwidth : t.width ≤ u.width) (hv : v.integer? = some n) :
    u.coerce v >>= t.coerce = .ok w ↔ t.coerce v = .ok w := by
  have hsame : ∀ x, u.coerce v = .ok x → (t.coerce x = .ok w ↔ t.coerce v = .ok w) := by
    intro x hx
    have hn := (spec_of_coerce hx).1.integer? hv
    rw [coerce_integer_iff ht hn, coerce_integer_iff ht hv]
  rw [Result.bind_eq_ok_iff]
  constructor
  · rintro ⟨x, hx, hw⟩
    exact (hsame x hx).1 hw
  · intro hw
    have hrange : t.Spans n := exists_integerValue?_iff.1 ⟨w, (coerce_integer_iff ht hv).1 hw⟩
    obtain ⟨x, hx⟩ := exists_integerValue?_iff.2 (hrange.mono hu hwidth)
    have hx := (coerce_integer_iff hu hv).2 hx
    exact ⟨x, hx, (hsame x hx).2 hw⟩

/-- The refusal names the type. -/
theorem error_of_coerce (h : t.coerce v = .error err) : ∃ found, err = .type t.name found none := by
  unfold coerce at h
  split at h
  · cases h
  · split at h
    · split at h
      · cases h
        exact ⟨_, rfl⟩
      · split at h
        · cases h
        · cases h
          exact ⟨_, rfl⟩
    · split at h
      case h_7 =>
        split at h
        · cases h
        · cases h
          exact ⟨_, rfl⟩
      all_goals cases h

end ValueType

/-! ## Properties -/

/-- A property refuses what its type does, and null where it has no place for it, under its name. -/
theorem Property.coerce_eq_error_iff {p : Property} {v : Value} {err : Error} :
    p.coerce v = .error err ↔
      v = .null ∧ p.nullable = false ∧ p.shadow = false ∧
        err = .type p.valueType.name "NULL" (some p.name) ∨
      ∃ found, p.valueType.coerce v = .error (.type p.valueType.name found none) ∧
        err = .type p.valueType.name found (some p.name) := by
  unfold coerce
  by_cases hnull : v = .null ∧ p.nullable = false ∧ p.shadow = false
  · obtain ⟨rfl, hnullable, hshadow⟩ := hnull
    simp [Value.isNull, hnullable, hshadow, ValueType.coerce_null, eq_comm]
  · have hplace : ¬ (v.isNull && !p.nullable && !p.shadow) = true := by
      simpa [Value.isNull_eq_true_iff, and_assoc] using hnull
    rw [if_neg hplace]
    cases hcoerce : p.valueType.coerce v with
    | ok w =>
      constructor
      · intro h
        cases h
      · rintro (⟨hv, hnullable, hshadow, -⟩ | ⟨_, hrefused, -⟩)
        · exact absurd ⟨hv, hnullable, hshadow⟩ hnull
        · cases hrefused
    | error refusal =>
      obtain ⟨found, rfl⟩ := ValueType.error_of_coerce hcoerce
      constructor
      · intro h
        cases h
        exact .inr ⟨found, rfl, rfl⟩
      · rintro (⟨hv, hnullable, hshadow, -⟩ | ⟨_, hrefused, rfl⟩)
        · exact absurd ⟨hv, hnullable, hshadow⟩ hnull
        · cases hrefused
          rfl

/-- **Coercion is exact.** A type accepts null, integers in its range, floating-point numbers, texts
for decimals and its own values. Null gives null, and everything else a value of the type that says
the same and coerces to itself. An integer may be coerced to a wider type first. A property refuses
null, too, where it has no place for it, and its refusals have its name in them. -/
theorem ValueType.coerce_exact (t : ValueType) (v : Value) :
    ((∃ w, t.coerce v = .ok w) ↔ t.Accepts v) ∧
    (∀ w, t.coerce v = .ok w →
      (w = .null ↔ v = .null) ∧ (w ≠ .null → w.valueType? = some t) ∧ v.Carries w ∧
        t.coerce w = .ok w) ∧
    (∀ u : ValueType, t.isInteger = true → u.isInteger = true → t.width < u.width →
      ∀ n, v.integer? = some n →
        ∀ w, u.coerce v >>= t.coerce = .ok w ↔ t.coerce v = .ok w) ∧
    ∀ p : Property, p.valueType = t →
      (∀ w, p.coerce v = .ok w ↔
        (v = .null → p.nullable = true ∨ p.shadow = true) ∧ t.coerce v = .ok w) ∧
      ∀ err, p.coerce v = .error err ↔
        v = .null ∧ p.nullable = false ∧ p.shadow = false ∧
          err = .type t.name "NULL" (some p.name) ∨
        ∃ found, t.coerce v = .error (.type t.name found none) ∧
          err = .type t.name found (some p.name) := by
  refine ⟨exists_coerce_iff, fun w h => ?_, fun u ht hu hwidth n hn w => ?_, ?_⟩
  · obtain ⟨hcarries, hw⟩ := coerce_eq_ok_iff.1 h
    exact ⟨hcarries.eq_null_iff, hw.resolve_left, hcarries, coerce_eq_ok_iff.2 ⟨.same w, hw⟩⟩
  · exact coerce_through ht hu (Nat.le_of_lt hwidth) hn
  · rintro p rfl
    exact ⟨fun w => Property.coerce_eq_ok_iff, fun err => Property.coerce_eq_error_iff⟩

/-- The least integer of eight bits, as one of 64. -/
theorem ValueType.coerce_exact_least :
    ∃ w, tinyInt.coerce (.bigInt (-0x80)) = .ok w ∧ w.valueType? = some .tinyInt ∧
      tinyInt.coerce w = .ok w ∧
      smallInt.coerce (.bigInt (-0x80)) >>= tinyInt.coerce = .ok w := by
  obtain ⟨hok, hcoerced, hthrough, -⟩ := coerce_exact .tinyInt (.bigInt (-0x80))
  have hspans : tinyInt.Spans (-0x80) := ⟨rfl, by decide, by decide⟩
  obtain ⟨w, hw⟩ := hok.2 (.inr (.inl ⟨-0x80, rfl, hspans⟩))
  obtain ⟨hnull, htype, -, hagain⟩ := hcoerced w hw
  have hne : w ≠ .null := fun h => nomatch hnull.1 h
  have hwide := (hthrough .smallInt rfl rfl (by decide) (-0x80) rfl w).2 hw
  exact ⟨w, hw, htype hne, hagain, hwide⟩

end EntityMapper
