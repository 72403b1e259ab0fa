import EntityMapper.Metadata.Property
import EntityMapper.Proofs.Value.Key

/-!
# Coerced values

Coercion changes how a value is represented, not what it says (`Value.Carries`): integers keep their
number, decimals their text, and floating-point numbers change their width. A coerced value is null or
of the declared type (`ValueType.Admits`), and native contents made from such a value show the value
again (`NativeKind.toValue_of_ofValue`).

What a property holds is such a value, and null only where null has a place (`Property.Takes`). The
coercion of a property gives these (`Property.takes_of_coerce`), and contents of its kind can be made
of each of them (`NativeKind.exists_ofValue`).
-/

namespace EntityMapper

/-! ## What a value says -/

/-- A value says in its representation what another one says in another. -/
inductive Value.Carries : Value → Value → Prop
  | same (v : Value) : Carries v v
  | integer {v w : Value} {n : Int} (hv : v.integer? = some n) (hw : w.integer? = some n) :
    Carries v w
  | decimal (s : String) : Carries (.text s) (.decimal s)
  | widened (x : Single) : Carries (.float x) (.double x.toDouble)
  | narrowed (x : Double) : Carries (.double x) (.float x.toSingle)

theorem Value.Carries.eq_null_iff {v w : Value} (h : v.Carries w) : w = .null ↔ v = .null := by
  cases h with
  | same => exact Iff.rfl
  | integer hv hw =>
    constructor
    · rintro rfl
      cases hw
    · rintro rfl
      cases hv
  | decimal | widened | narrowed => exact ⟨nofun, nofun⟩

theorem Value.Carries.integer? {v w : Value} {n : Int} (h : v.Carries w) (hn : v.integer? = some n) :
    w.integer? = some n := by
  cases h with
  | same => exact hn
  | integer hv hw => exact hw.trans (hv.symm.trans hn)
  | decimal | widened | narrowed => cases hn

/-! ## Coercion -/

/-- A value is null or of a type. -/
def ValueType.Admits (t : ValueType) (v : Value) : Prop :=
  v = .null ∨ v.valueType? = some t

namespace ValueType

variable {t : ValueType} {v w : Value} {n : Int}

theorem integerValue?_valueType (h : t.integerValue? n = some w) :
    w.valueType? = some t := by
  unfold integerValue? at h
  split at h
  case h_5 => cases h
  all_goals
    split at h
    · cases h
      rfl
    · cases h

theorem integer?_of_integerValue? (h : t.integerValue? n = some w) : w.integer? = some n := by
  unfold integerValue? at h
  split at h
  case h_5 => cases h
  all_goals
    split at h
    · next hrange =>
      cases h
      refine congrArg some ?_
      first
        | exact Int8.toInt_ofInt_of_le hrange.1 hrange.2
        | exact Int16.toInt_ofInt_of_le hrange.1 hrange.2
        | exact Int32.toInt_ofInt_of_le hrange.1 hrange.2
        | exact Int64.toInt_ofInt_of_le hrange.1 hrange.2
    · cases h

/-- Coercing an integer is a matter of range. -/
theorem coerce_of_integer? (ht : t.isInteger = true) (hv : v.integer? = some n) :
    t.coerce v = match t.integerValue? n with
      | some w => .ok w
      | none => .error (.type t.name (toString n ++ " out of range") none) := by
  have hnull : v.isNull = false := by
    cases v <;> first | rfl | cases hv
  unfold coerce
  rw [if_neg (by simp [hnull]), if_pos ht]
  cases hw : t.integerValue? n <;> simp only [hv, hw]

/-- A coerced value says what the given one does, and is null or of the declared type. -/
theorem spec_of_coerce (h : t.coerce v = .ok w) : v.Carries w ∧ t.Admits w := by
  unfold coerce at h
  split at h
  · next hnull =>
    cases h
    exact ⟨.same v, .inl (Value.isNull_eq_true_iff.1 hnull)⟩
  · split at h
    · split at h
      · cases h
      · next n hn =>
        split at h
        · next hw =>
          cases h
          exact ⟨.integer hn (integer?_of_integerValue? hw), .inr (integerValue?_valueType hw)⟩
        · cases h
    · split at h
      case h_2 =>
        cases h
        exact ⟨.narrowed _, .inr rfl⟩
      case h_4 =>
        cases h
        exact ⟨.widened _, .inr rfl⟩
      case h_6 =>
        cases h
        exact ⟨.decimal _, .inr rfl⟩
      case h_7 =>
        split at h
        · next hv =>
          cases h
          exact ⟨.same _, .inr hv⟩
        · cases h
      all_goals
        cases h
        exact ⟨.same _, .inr rfl⟩

/-- A declared type turns what it accepts into a value of its own. -/
theorem valueType_of_coerce (h : t.coerce v = .ok w) (hv : v.isNull = false) :
    w.valueType? = some t := by
  obtain ⟨hcarries, hw⟩ := spec_of_coerce h
  refine hw.resolve_left fun hnull => ?_
  rw [hcarries.eq_null_iff.1 hnull] at hv
  cases hv

theorem coerce_null (t : ValueType) : t.coerce .null = .ok .null := rfl

end ValueType

/-- A property accepts what its declared type does, but null only where null has a place. -/
theorem Property.coerce_eq_ok_iff {p : Property} {v w : Value} : p.coerce v = .ok w ↔
    (v = .null → p.nullable = true ∨ p.shadow = true) ∧ p.valueType.coerce v = .ok w := by
  unfold coerce
  rw [← Value.isNull_eq_true_iff]
  split
  · rename_i hnull
    simp only [Bool.and_eq_true, Bool.not_eq_true'] at hnull
    simp [hnull]
  · rename_i hnull
    have hplace : v.isNull = true → p.nullable = true ∨ p.shadow = true := by
      intro hv
      by_contra hnot
      obtain ⟨hnullable, hshadow⟩ := not_or.1 hnot
      exact hnull (by simp [hv, hnullable, hshadow])
    cases p.valueType.coerce v with
    | error err => simp [Except.mapError]
    | ok w' => simpa [Except.mapError] using fun _ => hplace

theorem NativeKind.ofValue_optional {kind : NativeKind} {v : Value} (h : v ≠ .null) :
    (optional kind).ofValue v = (kind.ofValue v).map some := by
  cases v <;> first | rfl | exact absurd rfl h

/-- Contents that were made from null or a value of the declared type show that value. -/
theorem NativeKind.toValue_of_ofValue {kind : NativeKind} {v : Value} {c : kind.Contents}
    (hv : kind.valueType.Admits v) (h : kind.ofValue v = .ok c) : kind.toValue c = v := by
  induction kind with
  | bool =>
    rcases hv with rfl | hv
    · cases h
    · cases v with
      | bool b => cases h; rfl
      | _ => cases hv
  | int32 =>
    rcases hv with rfl | hv
    · cases h
    · cases v with
      | int n => cases h; rfl
      | _ => cases hv
  | int64 =>
    rcases hv with rfl | hv
    · cases h
    · cases v with
      | bigInt n =>
        cases h
        exact congrArg Value.bigInt (Int64.ofInt_toInt n)
      | _ => cases hv
  | double =>
    rcases hv with rfl | hv
    · cases h
    · cases v with
      | double x => cases h; rfl
      | _ => cases hv
  | string =>
    rcases hv with rfl | hv
    · cases h
    · cases v with
      | text s => cases h; rfl
      | _ => cases hv
  | uuid =>
    rcases hv with rfl | hv
    · cases h
    · cases v with
      | uuid u => cases h; rfl
      | _ => cases hv
  | optional kind ih =>
    by_cases hn : v = .null
    · subst hn
      cases h
      rfl
    · rw [ofValue_optional hn] at h
      cases hc : kind.ofValue v with
      | error err => rw [hc] at h; cases h
      | ok c =>
        rw [hc] at h
        cases h
        exact ih hv hc

/-! ## The values of a property -/

/-- The values that a property takes: those of its type, and null where it is admitted or where no
native field has to hold it. -/
structure Property.Takes (p : Property) (v : Value) : Prop where
  admits : p.valueType.Admits v
  null : v = .null → p.nullable = true ∨ p.shadow = true

/-- A property takes what its coercion gives. -/
theorem Property.takes_of_coerce {p : Property} {v w : Value} (h : p.coerce v = .ok w) :
    p.Takes w := by
  obtain ⟨hplace, hcoerce⟩ := coerce_eq_ok_iff.1 h
  obtain ⟨hcarries, hw⟩ := ValueType.spec_of_coerce hcoerce
  exact ⟨hw, fun hnull => hplace (hcarries.eq_null_iff.1 hnull)⟩

namespace ValueType

variable {t : ValueType} {v : Value}

/-- An integer of a type is in the range of the type. -/
theorem integerValue?_of_integer? {n : Int} (ht : v.valueType? = some t) (hn : v.integer? = some n) :
    t.integerValue? n = some v := by
  cases v with
  | tinyInt m =>
    cases ht
    cases hn
    rw [integerValue?, if_pos ⟨m.le_toInt, m.toInt_lt⟩, Int8.ofInt_toInt]
  | smallInt m =>
    cases ht
    cases hn
    rw [integerValue?, if_pos ⟨m.le_toInt, m.toInt_lt⟩, Int16.ofInt_toInt]
  | int m =>
    cases ht
    cases hn
    rw [integerValue?, if_pos ⟨m.le_toInt, m.toInt_lt⟩, Int32.ofInt_toInt]
  | bigInt m =>
    cases ht
    cases hn
    rw [integerValue?, if_pos ⟨m.le_toInt, m.toInt_lt⟩, Int64.ofInt_toInt]
  | _ => cases hn

/-- A value of a type is in the representation of the type. -/
theorem coerce_of_valueType (h : v.valueType? = some t) : t.coerce v = .ok v := by
  cases v with
  | tinyInt n | smallInt n | int n | bigInt n =>
    have hvalue := integerValue?_of_integer? h rfl
    cases h
    simp only [coerce, Value.isNull, Value.integer?, isInteger, hvalue]
    rfl
  | _ =>
    cases h
    all_goals rfl

end ValueType

/-- Coercing a value that a property takes does not change it. -/
theorem Property.coerce_of_takes {p : Property} {v : Value} (h : p.Takes v) : p.coerce v = .ok v := by
  refine coerce_eq_ok_iff.2 ⟨h.null, ?_⟩
  rcases h.admits with rfl | hv
  · exact p.valueType.coerce_null
  · exact ValueType.coerce_of_valueType hv

/-- The default of a shadow property. -/
theorem Property.takes_defaultValue {p : Property} (h : p.shadow = true) :
    p.Takes p.defaultValue := by
  refine ⟨?_, fun _ => .inr h⟩
  unfold defaultValue ValueType.Admits
  split
  · exact .inl rfl
  · cases p.valueType <;> first | exact .inr rfl | exact .inl rfl

/-- Contents can be made of null, where they are optional, and of every value of the declared type. -/
theorem NativeKind.exists_ofValue {kind : NativeKind} {v : Value} (hv : kind.valueType.Admits v)
    (hnull : v = .null → kind.isNullable = true) : ∃ c, kind.ofValue v = .ok c := by
  induction kind with
  | optional kind ih =>
    by_cases hn : v = .null
    · subst hn
      exact ⟨none, rfl⟩
    · obtain ⟨c, hc⟩ := ih hv fun h => absurd h hn
      exact ⟨some c, by rw [ofValue_optional hn, hc]; rfl⟩
  | _ =>
    rcases hv with rfl | hv
    · cases hnull rfl
    · cases v <;> first | exact ⟨_, rfl⟩ | cases hv

end EntityMapper
