import EntityMapper.Proofs.Stepwise
import EntityMapper.Proofs.Value.Typed
import EntityMapper.Tracking.Entry

/-!
# Primary values

A primary value is kept in a shadow slot or behind an accessor. Writing one is `Entry.putPrimary`,
and what it does is `Entry.putPrimary_eq_ok_iff`.

A property has a field of its own (`Entry.OwnFields`) if its accessor serves the property
(`Accessor.Serves`), and the other accessors do not see its writes (`Entry.FieldsApart`). Then a value
that the property takes and that was written is the primary value
(`Entry.primaryValue_of_putPrimary`), and the other primary values stay
(`Entry.primaryValue_of_putPrimary_other`).

What contents a field has is left to its accessor. A field with contents of one of the kinds of the
library (`Accessor.Holds`) serves the properties that are declared for this kind
(`Accessor.Holds.serves`).
-/

namespace EntityMapper

/-! ## Accessors -/

namespace Accessor

variable {a b : Accessor} {i i' : Instance} {v w : Value}

theorem set_eq_ok_iff : a.set i v = .ok i' ↔
    i.type = a.owner ∧ ∃ fields, a.write i.fields v = .ok fields ∧ i' = { i with fields } := by
  unfold set
  split
  · rename_i h
    cases hw : a.write i.fields v with
    | error err => simp [Except.map, h]
    | ok fields => simp [Except.map, h, eq_comm]
  · rename_i h
    simp [h]

/-- An accessor of a field with contents of a kind: it takes what can be such contents, and reads
what it took. -/
structure Holds (a : Accessor) (kind : NativeKind) : Prop where
  refuses : ∀ fields v err, kind.ofValue v = .error err → a.write fields v = .error err
  takes : ∀ fields v c, kind.ofValue v = .ok c →
    ∃ fields', a.write fields v = .ok fields' ∧ a.read fields' = kind.toValue c

/-- An accessor of a field that a property is declared for: it takes what the property takes, and reads
what it took. -/
def Serves (a : Accessor) (p : Property) : Prop :=
  ∀ fields v, p.Takes v → ∃ fields', a.write fields v = .ok fields' ∧ a.read fields' = v

theorem Serves.read_of_write {p : Property} {fields fields' : Fields} (h : a.Serves p)
    (hv : p.Takes v) (hw : a.write fields v = .ok fields') : a.read fields' = v := by
  obtain ⟨fields₁, h₁, hread⟩ := h fields v hv
  rw [h₁] at hw
  cases hw
  exact hread

/-- A field of a kind serves the properties that are declared with this kind. -/
theorem Holds.serves {kind : NativeKind} {p : Property} (h : a.Holds kind)
    (htype : p.valueType = kind.valueType) (hnullable : p.nullable = kind.isNullable)
    (hshadow : p.shadow = false) : a.Serves p := by
  intro fields v hv
  have hnull : v = .null → kind.isNullable = true := by
    intro hv'
    simpa [hshadow, hnullable] using hv.null hv'
  obtain ⟨c, hc⟩ := NativeKind.exists_ofValue (htype ▸ hv.admits) hnull
  obtain ⟨fields', hwrite, hread⟩ := h.takes fields v c hc
  exact ⟨fields', hwrite, hread.trans (NativeKind.toValue_of_ofValue (htype ▸ hv.admits) hc)⟩

/-- An accessor whose writes another one does not see. -/
def Apart (a b : Accessor) : Prop :=
  ∀ fields v fields', a.write fields v = .ok fields' → b.read fields' = b.read fields

end Accessor

namespace Fields

theorem get_set_self (fields : Fields) (name : String) (v : Value) :
    (fields.set name v).get name = v := by
  induction fields with
  | nil => simp [set, get]
  | cons field rest ih =>
    obtain ⟨n, w⟩ := field
    unfold set
    split
    · rename_i h
      simp [get, h]
    · rename_i h
      simpa [get, List.lookup_cons, beq_eq_false_iff_ne.2 (Ne.symm h)] using ih

theorem get_set_of_ne (fields : Fields) {name other : String} (v : Value) (h : other ≠ name) :
    (fields.set name v).get other = fields.get other := by
  induction fields with
  | nil => simp [set, get, List.lookup_cons, beq_eq_false_iff_ne.2 h]
  | cons field rest ih =>
    obtain ⟨n, w⟩ := field
    unfold set
    split
    · rename_i hn
      simp [get, List.lookup_cons, hn, beq_eq_false_iff_ne.2 h]
    · unfold get at ih ⊢
      rw [List.lookup_cons, List.lookup_cons]
      split
      · rfl
      · exact ih

end Fields

namespace Accessor

/-- The accessor of a field holds contents of the field's kind. -/
theorem field_holds (owner : NativeType) (name : String) (kind : NativeKind) :
    (field owner name kind).Holds kind where
  refuses fields v err h := by simp [field, h, Except.map]
  takes fields v c h := by
    refine ⟨fields.set name (kind.toValue c), ?_, fields.get_set_self name _⟩
    simp [field, h, Except.map]

/-- The accessors of two fields do not see each other's writes. -/
theorem field_apart {owner owner' : NativeType} {name other : String} {kind kind' : NativeKind}
    (h : other ≠ name) : (field owner name kind).Apart (field owner' other kind') := by
  intro fields v fields' hw
  cases hc : kind.ofValue v with
  | error err => simp [field, hc, Except.map] at hw
  | ok c =>
    simp only [field, hc, Except.map, Except.ok.injEq] at hw
    subst hw
    exact fields.get_set_of_ne _ h

end Accessor

/-! ## Reading and writing -/

namespace Entry

variable {e e' : Entry} {p q : Property} {v : Value}

theorem owns_of_requireOwned (h : e.requireOwned p = .ok ()) : e.type.owns p = true := by
  unfold requireOwned at h
  split at h
  · assumption
  · cases h

/-- The accessor of a property that has a native field. -/
def accessor? (e : Entry) (p : Property) : Option Accessor :=
  (e.accessors[p.index]?).join

theorem mem_accessors_of_accessor? {a : Accessor} (h : e.accessor? p = some a) :
    some a ∈ e.accessors :=
  List.mem_of_getElem? (Option.join_eq_some_iff.1 h)

theorem primaryValue_shadow (h : e.accessor? p = none) :
    e.primaryValue p = .ok ((e.shadow[p.index]?).getD .null) := by
  unfold accessor? at h
  rw [primaryValue, h]

theorem primaryValue_native {a : Accessor} {i : Instance} (h : e.accessor? p = some a)
    (hi : e.native = some i) : e.primaryValue p = a.get i := by
  unfold accessor? at h
  rw [primaryValue, h]
  simp only [hi]

/-- A primary value is written to the shadow slot, or through the accessor to the instance. -/
theorem putPrimary_eq_ok_iff : e.putPrimary p v = .ok e' ↔
    (e.accessor? p = none ∧ e' = { e with shadow := e.shadow.set p.index v }) ∨
    ∃ a i i', e.accessor? p = some a ∧ e.native = some i ∧ a.set i v = .ok i' ∧
      e' = { e with native := some i' } := by
  unfold putPrimary accessor?
  cases ha : (e.accessors[p.index]?).join with
  | none => simp [eq_comm]
  | some a =>
    cases hi : e.native with
    | none => simp
    | some i =>
      cases hs : a.set i v with
      | error err => simp [hs, Except.map]
      | ok i' => simp [hs, Except.map, eq_comm]

/-- Writes of a property are not seen by another one. -/
def Apart (e : Entry) (p q : Property) : Prop :=
  ∀ a b, e.accessor? p = some a → e.accessor? q = some b → a.Apart b

/-- The native properties have fields that are not seen by each other. -/
def FieldsApart (e : Entry) : Prop :=
  ∀ p ∈ e.type.properties, ∀ q ∈ e.type.properties, p.index ≠ q.index → e.Apart p q

/-- Each native property has a field of its own, of whatever contents it is declared for. -/
structure OwnFields (e : Entry) : Prop where
  served : ∀ p ∈ e.type.properties, ∀ a, e.accessor? p = some a → a.Serves p
  apart : e.FieldsApart

theorem putPrimary_accessors (h : e.putPrimary p v = .ok e') : e'.accessors = e.accessors := by
  rcases putPrimary_eq_ok_iff.1 h with ⟨-, rfl⟩ | ⟨_, _, _, -, -, -, rfl⟩ <;> rfl

theorem putPrimary_sidecars (h : e.putPrimary p v = .ok e') : e'.sidecars = e.sidecars := by
  rcases putPrimary_eq_ok_iff.1 h with ⟨-, rfl⟩ | ⟨_, _, _, -, -, -, rfl⟩ <;> rfl

theorem putPrimary_accessor? (h : e.putPrimary p v = .ok e') : e'.accessor? q = e.accessor? q := by
  rw [accessor?, accessor?, putPrimary_accessors h]

/-- A value that its property takes is the primary value once it was written. -/
theorem primaryValue_of_putPrimary (own : e.OwnFields) (hp : p ∈ e.type.properties)
    (hlt : p.index < e.shadow.length) (hv : p.Takes v) (h : e.putPrimary p v = .ok e') :
    e'.primaryValue p = .ok v := by
  have hacc := putPrimary_accessor? (q := p) h
  rcases putPrimary_eq_ok_iff.1 h with ⟨ha, rfl⟩ | ⟨a, i, i', ha, hi, hs, rfl⟩
  · rw [primaryValue_shadow (hacc.trans ha)]
    simp [hlt]
  · obtain ⟨ht, fields, hw, rfl⟩ := Accessor.set_eq_ok_iff.1 hs
    rw [primaryValue_native (hacc.trans ha) rfl, Accessor.get, if_pos ht]
    exact congrArg Except.ok ((own.served p hp a ha).read_of_write hv hw)

/-- A primary value stays where others are written. -/
theorem primaryValue_of_putPrimary_apart (apart : e.Apart p q) (hne : p.index ≠ q.index)
    (h : e.putPrimary p v = .ok e') : e'.primaryValue q = e.primaryValue q := by
  have hacc := putPrimary_accessor? (q := q) h
  rcases putPrimary_eq_ok_iff.1 h with ⟨ha, rfl⟩ | ⟨a, i, i', ha, hi, hs, rfl⟩
  · cases hb : e.accessor? q with
    | none =>
      rw [primaryValue_shadow (hacc.trans hb), primaryValue_shadow hb]
      simp [hne]
    | some b =>
      unfold accessor? at hb hacc
      rw [primaryValue, primaryValue, hacc, hb]
      rfl
  · obtain ⟨ht, fields, hw, rfl⟩ := Accessor.set_eq_ok_iff.1 hs
    cases hb : e.accessor? q with
    | none => rw [primaryValue_shadow (hacc.trans hb), primaryValue_shadow hb]
    | some b =>
      have hr := apart a b ha hb i.fields v fields hw
      rw [primaryValue_native (hacc.trans hb) rfl, primaryValue_native hb hi, Accessor.get,
        Accessor.get, hr]

/-- The other primary values stay. -/
theorem primaryValue_of_putPrimary_other (apart : e.FieldsApart) (hp : p ∈ e.type.properties)
    (hq : q ∈ e.type.properties) (hne : p.index ≠ q.index) (h : e.putPrimary p v = .ok e') :
    e'.primaryValue q = e.primaryValue q :=
  primaryValue_of_putPrimary_apart (apart p hp q hq hne) hne h

end Entry

end EntityMapper
