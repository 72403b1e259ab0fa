import EntityMapper.Proofs.Value.Typed
import EntityMapper.Tracking.Generation

/-!
# Drawn values

What the library generates by itself is a value of the property's type that is no default
(`Property.Drawn`): an identifier of version 4, the text of one, or an integer below zero, a different
one at each draw. An integer type has room for some of these only, and from then on draws fail
(`ValueType.Exhausted`). One lemma says what a draw comes to in either case
(`Generators.valueAt_builtIn`).
-/

namespace EntityMapper

/-! ## Integers below zero -/

namespace ValueType

variable {t : ValueType} {v : Value} {n : Int} {m k : Nat}

/-- The number of integers below zero that a type has room for. -/
def negatives : ValueType → Nat
  | .tinyInt => 0x80
  | .smallInt => 0x8000
  | .int => 0x80000000
  | .bigInt => 0x8000000000000000
  | _ => 0

/-- A type of integers that has room for no more than some number of integers below zero. -/
def Exhausted (t : ValueType) (m : Nat) : Prop :=
  t.isInteger = true ∧ t.negatives ≤ m

instance (t : ValueType) (m : Nat) : Decidable (t.Exhausted m) :=
  inferInstanceAs (Decidable (_ ∧ _))

theorem Exhausted.mono (h : t.Exhausted m) (hk : m ≤ k) : t.Exhausted k :=
  ⟨h.1, Nat.le_trans h.2 hk⟩

/-- The integers below zero that a type of integers has room for. -/
theorem integerValue?_below (ht : t.isInteger = true) (m : Nat) :
    (∃ v, t.integerValue? (-1 - m) = some v) ↔ ¬ t.Exhausted m := by
  rw [Exhausted, and_iff_right ht, Nat.not_le]
  cases t with
  | tinyInt | smallInt | int | bigInt =>
    dsimp only [integerValue?, negatives]
    split
    · exact ⟨fun _ => by omega, fun _ => ⟨_, rfl⟩⟩
    · exact ⟨nofun, fun _ => by omega⟩
  | _ => cases ht

end ValueType

/-! ## Identifiers -/

namespace Uuid

variable (bits : BitVec 128)

theorem random_ne_nil : random bits ≠ nil := by
  intro h
  have hbit : (random bits).bits.getLsbD 63 = nil.bits.getLsbD 63 := by rw [h]
  simp [random, nil] at hbit

theorem display_ne_empty (u : Uuid) : u.display ≠ "" := by
  simp [display]

end Uuid

/-! ## Values that are no defaults -/

namespace Property

variable {p : Property} {v w : Value}

/-- A default is neither a document, where the type is another one, nor an array. -/
theorem scalar_of_isDefault (htype : p.valueType ≠ .json) (h : p.isDefault v = true) :
    (∀ j, v ≠ .json j) ∧ ∀ items, v ≠ .array items := by
  unfold isDefault defaultValue at h
  constructor
  all_goals
    rintro _ rfl
    cases hnullable : p.nullable <;> cases ht : p.valueType <;> rw [hnullable, ht] at h <;>
      first | cases h | exact htype ht

/-- A default is key-equal to nothing else. -/
theorem keyEqual_of_isDefault (htype : p.valueType ≠ .json) (hv : p.isDefault v = true)
    (hw : p.isDefault w = false) : v.keyEqual w = false := by
  by_contra hequal
  obtain ⟨hjson, harray⟩ := scalar_of_isDefault htype hv
  rw [Value.eq_of_keyEqual (Bool.not_eq_false _ ▸ hequal) hjson harray, hw] at hv
  cases hv

/-- A value that is not null and not the default is none. -/
theorem isDefault_eq_false (htype : p.valueType ≠ .json) (hnull : v ≠ .null)
    (hne : v ≠ p.defaultValue) : p.isDefault v = false := by
  by_contra h
  rw [Bool.not_eq_false] at h
  obtain ⟨hjson, harray⟩ := scalar_of_isDefault htype h
  rcases Bool.or_eq_true_iff.1 h with hv | hv
  · exact hnull (Value.isNull_eq_true_iff.1 hv)
  · exact hne (Value.eq_of_keyEqual hv hjson harray)

/-- No integer but zero is a default. -/
theorem integer?_defaultValue {n : Int} (h : p.defaultValue.integer? = some n) : n = 0 := by
  unfold defaultValue at h
  cases hnullable : p.nullable <;> cases ht : p.valueType <;> rw [hnullable, ht] at h <;> cases h <;>
    rfl

/-- What a property may get at a draw from a generator of its own: a value of its type that is no
default. Integers go down by one with each draw. -/
structure Drawn (p : Property) (m : Nat) (v : Value) : Prop where
  coerced : p.coerce v = .ok v
  notDefault : p.isDefault v = false
  integer : p.valueType.isInteger = true → v.integer? = some (-1 - (m : Int))

variable {m : Nat}

/-- A value of the property's type is drawn if it is not the default. -/
theorem drawn_of_valueType (htype : p.valueType ≠ .json) (hv : v.valueType? = some p.valueType)
    (hne : v ≠ p.defaultValue)
    (hinteger : p.valueType.isInteger = true → v.integer? = some (-1 - (m : Int))) : p.Drawn m v := by
  have hnull : v ≠ .null := by
    rintro rfl
    cases hv
  exact ⟨coerce_of_takes ⟨.inr hv, fun h => absurd h hnull⟩, isDefault_eq_false htype hnull hne,
    hinteger⟩

/-- Random identifiers are drawn. -/
theorem drawn_uuid (ht : p.valueType = .uuid) (bits : BitVec 128) (m : Nat) :
    p.Drawn m (.uuid (.random bits)) := by
  refine drawn_of_valueType (by rw [ht]; nofun) (by rw [ht]; rfl) ?_ fun h => by rw [ht] at h; cases h
  unfold defaultValue
  rw [ht]
  cases p.nullable with
  | true => nofun
  | false => exact fun h => Uuid.random_ne_nil _ (Value.uuid.inj h)

/-- And their texts. -/
theorem drawn_text (ht : p.valueType = .text) (bits : BitVec 128) (m : Nat) :
    p.Drawn m (.text (Uuid.random bits).display) := by
  refine drawn_of_valueType (by rw [ht]; nofun) (by rw [ht]; rfl) ?_ fun h => by rw [ht] at h; cases h
  unfold defaultValue
  rw [ht]
  cases p.nullable with
  | true => nofun
  | false => exact fun h => Uuid.display_ne_empty _ (Value.text.inj h)

/-- An integer below zero is drawn if the type of the property has room for it. -/
theorem drawn_integer (hinteger : p.valueType.isInteger = true)
    (hv : p.valueType.integerValue? (-1 - (m : Int)) = some v) : p.Drawn m v := by
  have htype : p.valueType ≠ .json := fun ht => by rw [ht] at hinteger; cases hinteger
  have hn := ValueType.integer?_of_integerValue? hv
  refine drawn_of_valueType htype (ValueType.integerValue?_valueType hv) ?_ fun _ => hn
  rintro rfl
  have := integer?_defaultValue hn
  omega

/-- There was room for an integer that was drawn. -/
theorem Drawn.not_exhausted (h : p.Drawn m v) : ¬ p.valueType.Exhausted m := by
  intro hexhausted
  have hn := h.integer hexhausted.1
  have hnull : v.isNull = false := by
    cases v <;> first | rfl | cases hn
  have hv := ValueType.valueType_of_coerce (coerce_eq_ok_iff.1 h.coerced).2 hnull
  exact (ValueType.integerValue?_below hexhausted.1 m).1
    ⟨v, ValueType.integerValue?_of_integer? hv hn⟩ hexhausted

end Property

namespace Generators

variable {p : Property} {generator : Generator} {m : Nat}

/-- The next integer below zero, as long as the type of the property has room for it. -/
theorem valueAt_temporaryInteger (g : Generators) (id : GeneratorId)
    (hinteger : p.valueType.isInteger = true) (hm : m < ValueType.bigInt.negatives) :
    (p.valueType.Exhausted m ∧
      ∃ text, g.valueAt id .temporaryInteger m p = .error (.type p.valueType.name text none)) ∨
    ∃ v, g.valueAt id .temporaryInteger m p = .ok v ∧ p.Drawn m v := by
  have hm : m < 0x8000000000000000 := hm
  have htoInt : (Value.bigInt (.ofInt (-1 - (m : Int)))).integer? = some (-1 - (m : Int)) :=
    congrArg some (Int64.toInt_ofInt_of_le (by omega) (by omega))
  rw [valueAt, ValueType.coerce_of_integer? hinteger htoInt]
  cases hv : p.valueType.integerValue? (-1 - (m : Int)) with
  | none =>
    refine .inl ⟨?_, _, rfl⟩
    by_contra hroom
    obtain ⟨v, hsome⟩ := (ValueType.integerValue?_below hinteger m).2 hroom
    cases hv.symm.trans hsome
  | some v => exact .inr ⟨v, rfl, Property.drawn_integer hinteger hv⟩

/-- **What a draw comes to**: a value, as long as the type of the property has room for it. -/
theorem valueAt_builtIn (g : Generators) (id : GeneratorId)
    (h : builtIn? p.valueType = some generator) (hm : m < ValueType.bigInt.negatives) :
    (p.valueType.Exhausted m ∧
      ∃ text, g.valueAt id generator m p = .error (.type p.valueType.name text none)) ∨
    ∃ v, g.valueAt id generator m p = .ok v ∧ p.Drawn m v := by
  unfold builtIn? at h
  split at h
  · next hinteger =>
    cases h
    exact valueAt_temporaryInteger g id hinteger hm
  · split at h
    · next ht =>
      cases h
      exact .inr ⟨_, rfl, Property.drawn_uuid ht _ m⟩
    · next ht =>
      cases h
      exact .inr ⟨_, rfl, Property.drawn_text ht _ m⟩
    · cases h

end Generators

end EntityMapper
