import EntityMapper.Proofs.Tracking.Typed

/-!
# Values and native fields

A property that is declared for native fields of a kind (`Property.DeclaredFor`) coerces values to
those that such fields hold: contents can be made of each of them, and show it again
(`Property.DeclaredFor.exists_ofValue`). So a field takes whatever its property accepts, and what is
read from it can be written back without a change (`Property.DeclaredFor.fits`).
-/

namespace EntityMapper

/-! ## Contents as values -/

namespace NativeKind

variable {kind : NativeKind}

/-- Contents show a value of the declared type, or null. -/
theorem admits_toValue (c : kind.Contents) : kind.valueType.Admits (kind.toValue c) := by
  induction kind with
  | optional kind ih =>
    cases c with
    | none => exact .inl rfl
    | some c => exact ih c
  | _ => exact .inr rfl

/-- Only optional contents show null. -/
theorem isNullable_of_toValue {c : kind.Contents} (h : kind.toValue c = .null) :
    kind.isNullable = true := by
  cases kind with
  | optional kind => rfl
  | _ => cases h

end NativeKind

/-! ## Fields -/

/-- Writing what a field holds changes nothing. -/
theorem Fields.set_of_lookup {fields : Fields} {name : String} {v : Value}
    (h : fields.lookup name = some v) : fields.set name v = fields := by
  induction fields with
  | nil => cases h
  | cons field rest ih =>
    obtain ⟨n, w⟩ := field
    unfold set
    rw [List.lookup_cons] at h
    split
    · next hn =>
      rw [hn, beq_self_eq_true] at h
      cases h
      rfl
    · next hn =>
      rw [beq_eq_false_iff_ne.2 (Ne.symm hn)] at h
      rw [ih h]

/-! ## Properties that are declared for fields -/

/-- A property that is declared for native fields with contents of a kind. -/
structure Property.DeclaredFor (p : Property) (kind : NativeKind) : Prop where
  valueType : p.valueType = kind.valueType
  nullable : p.nullable = kind.isNullable
  native : p.shadow = false

/-- A declaration that fits a kind makes such a property, where there is a native type. -/
theorem EntityType.place_declaredFor {t : EntityType} (h : t.native.isSome = true) (name : String)
    (kind : NativeKind) : (t.place (.typed name kind)).DeclaredFor kind where
  valueType := rfl
  nullable := rfl
  native := by simpa [place, PropertySpec.typed] using h

namespace Property.DeclaredFor

variable {p : Property} {kind : NativeKind} {v w : Value}

theorem takes_toValue (declared : p.DeclaredFor kind) (c : kind.Contents) :
    p.Takes (kind.toValue c) where
  admits := declared.valueType ▸ NativeKind.admits_toValue c
  null h := .inl (declared.nullable.trans (NativeKind.isNullable_of_toValue h))

/-- Contents can be made of a coerced value, and show it. -/
theorem exists_ofValue (declared : p.DeclaredFor kind) (h : p.coerce v = .ok w) :
    ∃ c, kind.ofValue w = .ok c ∧ kind.toValue c = w := by
  have htakes := takes_of_coerce h
  have hadmits : kind.valueType.Admits w := declared.valueType ▸ htakes.admits
  have hnull : w = .null → kind.isNullable = true := by
    intro hw
    simpa [declared.native, declared.nullable] using htakes.null hw
  obtain ⟨c, hc⟩ := NativeKind.exists_ofValue hadmits hnull
  exact ⟨c, hc, NativeKind.toValue_of_ofValue hadmits hc⟩

/-- **Coerced values fit native fields.** Contents can be made of a coerced value, and the value that
they show is key-equal to it. So a setter for such contents takes it, and it is read again; and what
is read from a field is accepted by its property and written back without a change. -/
theorem fits (declared : p.DeclaredFor kind) (h : p.coerce v = .ok w) :
    (∃ c, kind.ofValue w = .ok c ∧ (kind.toValue c).keyEqual w = true) ∧
    (∀ a : Accessor, a.Holds kind → ∀ i : Instance, i.type = a.owner →
      ∃ i', a.set i w = .ok i' ∧ a.get i' = .ok w) ∧
    ∀ (i : Instance) (name : String) (c : kind.Contents),
      i.fields.lookup name = some (kind.toValue c) →
      (Accessor.field i.type name kind).get i = .ok (kind.toValue c) ∧
      p.coerce (kind.toValue c) = .ok (kind.toValue c) ∧
      (Accessor.field i.type name kind).set i (kind.toValue c) = .ok i := by
  obtain ⟨c, hc, hvalue⟩ := declared.exists_ofValue h
  refine ⟨⟨c, hc, ?_⟩, fun a holds i hi => ?_, fun i name c hfield => ?_⟩
  · rw [hvalue]
    exact w.keyEqual_self
  · have hserves := holds.serves declared.valueType declared.nullable declared.native
    obtain ⟨fields, hwrite, hread⟩ := hserves i.fields w (takes_of_coerce h)
    refine ⟨{ i with fields }, Accessor.set_eq_ok_iff.2 ⟨hi, fields, hwrite, rfl⟩, ?_⟩
    rw [Accessor.get, if_pos hi, hread]
  · have hsame := coerce_of_takes (declared.takes_toValue c)
    obtain ⟨c', hc', hvalue'⟩ := declared.exists_ofValue hsame
    refine ⟨?_, hsame, Accessor.set_eq_ok_iff.2 ⟨rfl, i.fields, ?_, rfl⟩⟩
    · simp [Accessor.get, Accessor.field, Fields.get, hfield]
    · simp [Accessor.field, hc', Except.map, hvalue', Fields.set_of_lookup hfield]

end Property.DeclaredFor

/-! ## An example -/

namespace Gauges

/-- Gauges, kept in instances. -/
def type : EntityType where
  id := ⟨0⟩
  name := "Gauge"
  native := some ⟨"Gauge"⟩

/-- The level of a gauge, which may be missing. -/
def level : Property :=
  type.place (.typed "Level" (.optional .double))

/-- A gauge without a level. -/
def gauge : Instance :=
  ⟨⟨"Gauge"⟩, [("Name", .text "A"), ("Level", .null)]⟩

/-- The accessor of the level. -/
def accessor : Accessor :=
  .field ⟨"Gauge"⟩ "Level" (.optional .double)

/-- The number 1.5 in 32 bits. -/
def reading : Single :=
  ⟨0x3FC00000⟩

end Gauges

namespace Property.DeclaredFor

open Gauges

theorem fits_gauges : level.DeclaredFor (.optional .double) ∧
    level.coerce (.float reading) = .ok (.double reading.toDouble) ∧
    (∃ i, accessor.set gauge (.double reading.toDouble) = .ok i ∧
      accessor.get i = .ok (.double reading.toDouble)) ∧
    accessor.get gauge = .ok .null ∧ accessor.set gauge .null = .ok gauge := by
  have declared := EntityType.place_declaredFor (t := type) rfl "Level" (.optional .double)
  have hcoerce : level.coerce (.float reading) = .ok (.double reading.toDouble) := rfl
  obtain ⟨-, hset, hsame⟩ := declared.fits hcoerce
  obtain ⟨hget, -, hback⟩ := hsame gauge "Level" none rfl
  exact ⟨declared, hcoerce, hset accessor (Accessor.field_holds ..) gauge rfl, hget, hback⟩

end Property.DeclaredFor

end EntityMapper
