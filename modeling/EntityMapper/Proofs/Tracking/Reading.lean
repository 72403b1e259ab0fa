import EntityMapper.Proofs.Tracking.Capture
import EntityMapper.Proofs.Value.Key

/-!
# What readers see of an entry

Readers see of an entry its current, baseline and snapshot values, its flags and state, and its keys
(`Entry.Intact`). A current value is the one that the first sidecar with one shows
(`Sidecar.reads`), or else the primary value.

Capturing the primary value of a property (`Entry.capturing`) leaves the baseline values as they are
(`Entry.baselineValue_capturing`). It leaves the current values as well
(`Entry.overlay?_capturing`), unless the sidecar for baseline values is one that reads see through:
then the captured value comes to hide what later sidecars hold (`Entry.CaptureShows`).
-/

namespace EntityMapper

namespace Sidecar

variable {s : Sidecar} {p q : Property} {v : Value}

/-- The value that reads see in a sidecar. -/
def reads (s : Sidecar) (p : Property) : Option Value :=
  if s.transparentRead then s.get? p else none

theorem covers_congr (s : Sidecar) (h : q.same p = true) : s.covers q = s.covers p := by
  obtain ⟨howner, hindex⟩ := Property.same_iff.1 h
  simp only [covers, Property.same, howner, hindex]

theorem get?_congr (s : Sidecar) (h : q.same p = true) : s.get? q = s.get? p := by
  rw [get?, get?, s.covers_congr h, (Property.same_iff.1 h).2]

theorem reads_congr (s : Sidecar) (h : q.same p = true) : s.reads q = s.reads p := by
  rw [reads, reads, s.get?_congr h]

/-- The sidecar with a value held for the position of a property. -/
def holding (s : Sidecar) (p : Property) (v : Value) : Sidecar :=
  { s with values := put p.index v s.values }

theorem get?_holding (hcovers : s.covers p = true) : (s.holding p v).get? p = some v := by
  have hcovers' : (s.holding p v).covers p = true := hcovers
  rw [get?, if_pos hcovers']
  exact lookup_put_self

theorem get?_holding_of_ne (h : q.index ≠ p.index) : (s.holding p v).get? q = s.get? q := by
  have hlookup : (s.holding p v).values.lookup q.index = s.values.lookup q.index := lookup_put_of_ne h
  rw [get?, get?, hlookup]
  rfl

end Sidecar

namespace Entry

variable {e e' : Entry} {p q : Property} {c : Value} {properties : List Property}

/-! ## What is seen of an entry -/

/-- An entry and the same one as far as its readers see: values of all kinds, flags and state, and
keys. -/
structure Intact (e e' : Entry) : Prop where
  get : ∀ q, e'.get q = e.get q
  baselineValue : ∀ q, e'.baselineValue q = e.baselineValue q
  snapshotValue : ∀ q, e'.snapshotValue q = e.snapshotValue q
  state : e'.state = e.state
  modified : e'.modified = e.modified
  primaryKey : e'.primaryKey = e.primaryKey
  dependentKey : ∀ fk, e'.dependentKey fk = e.dependentKey fk
  dependentSnapshot : ∀ fk, e'.dependentSnapshot fk = e.dependentSnapshot fk
  principalKey : ∀ fk, e'.principalKey fk = e.principalKey fk

theorem Intact.refl (e : Entry) : e.Intact e :=
  ⟨fun _ => rfl, fun _ => rfl, fun _ => rfl, rfl, rfl, rfl, fun _ => rfl, fun _ => rfl, fun _ => rfl⟩

/-- Keys are a matter of the values that they are read from. -/
theorem Intact.of_values (h : e.Revalued e') (hget : ∀ q, e'.get q = e.get q)
    (hbaseline : ∀ q, e'.baselineValue q = e.baselineValue q)
    (hsnapshot : ∀ q, e'.snapshotValue q = e.snapshotValue q) : e.Intact e' := by
  have hread : e'.get = e.get := funext hget
  have hseen : e'.snapshotValue = e.snapshotValue := funext hsnapshot
  refine ⟨hget, hbaseline, hsnapshot, h.state, h.modified, ?_, fun fk => ?_, fun fk => ?_, fun fk => ?_⟩
  · rw [Entry.primaryKey, Entry.primaryKey, h.type, hread]
  · rw [Entry.dependentKey, Entry.dependentKey, hread]
  · rw [Entry.dependentSnapshot, Entry.dependentSnapshot, hseen]
  · rw [Entry.principalKey, Entry.principalKey, hread]

theorem get_of_owns (h : e.type.owns p = true) :
    e.get p = (e.overlay? p).elim (e.primaryValue p) .ok := by
  have howned : e.requireOwned p = .ok () := if_pos h
  rw [get, howned]
  cases e.overlay? p <;> rfl

theorem get_of_overlay?_eq_none (howns : e.type.owns p = true) (h : e.overlay? p = none) :
    e.get p = e.primaryValue p := by
  rw [get_of_owns howns, h]
  rfl

theorem requireOwned_of_not_owns (h : e.type.owns p = false) :
    e.requireOwned p = .error (.notFound .property p.name (some e.type.name)) :=
  if_neg (by simp [h])

/-- Strange properties are refused by all readers alike. -/
theorem reads_of_not_owns (h : e.type.owns p = false) :
    e.get p = .error (.notFound .property p.name (some e.type.name)) ∧
    e.baselineValue p = .error (.notFound .property p.name (some e.type.name)) ∧
    e.snapshotValue p = .error (.notFound .property p.name (some e.type.name)) := by
  rw [get, baselineValue, snapshotValue, requireOwned_of_not_owns h]
  exact ⟨rfl, rfl, rfl⟩

theorem overlay?_eq (e : Entry) (p : Property) : e.overlay? p = e.sidecars.findSome? (·.reads p) := rfl

/-- What reads see of sidecars, where one has its place among the others. -/
theorem overlay?_of_sidecars {t : Sidecar} {before after : List Sidecar}
    (h : e.sidecars = before ++ t :: after) (q : Property) : e.overlay? q =
      (before.findSome? (·.reads q)).or ((t.reads q).or (after.findSome? (·.reads q))) := by
  rw [overlay?_eq, h, List.findSome?_append, List.findSome?_cons]
  cases t.reads q <;> rfl

theorem overlay?_congr (h : q.same p = true) : e.overlay? q = e.overlay? p := by
  rw [overlay?_eq, overlay?_eq]
  congr 1
  funext s
  exact s.reads_congr h

theorem get_congr (h : q.same p = true) (hp : e.type.owns p = true) : e.get q = e.get p := by
  rw [get_of_owns ((EntityType.owns_congr h).trans hp), get_of_owns hp, overlay?_congr h,
    primaryValue_congr (Property.same_iff.1 h).2]

theorem snapshotValue_congr (h : q.same p = true) (hp : e.type.owns p = true) :
    e.snapshotValue q = e.snapshotValue p := by
  have hindex := (Property.same_iff.1 h).2
  rw [snapshotValue_of_owns ((EntityType.owns_congr h).trans hp), snapshotValue_of_owns hp, hindex,
    primaryValue_congr hindex]

/-- Readings that agree value by value make equal keys. -/
theorem exists_keys_equal {read read' : Property → Result Value}
    (h : ∀ p ∈ properties, ∃ v w, read p = .ok v ∧ read' p = .ok w ∧ v.keyEqual w = true) :
    ∃ k k', keyOf properties read = .ok k ∧ keyOf properties read' = .ok k' ∧
      k.equal k' = true := by
  have hvalues : ∃ vs ws, properties.mapM read = .ok vs ∧ properties.mapM read' = .ok ws ∧
      List.Forall₂ (fun v w => v.keyEqual w = true) vs ws := by
    induction properties with
    | nil => exact ⟨[], [], rfl, rfl, .nil⟩
    | cons p properties ih =>
      obtain ⟨⟨v, w, hv, hw, hequal⟩, hrest⟩ := List.forall_mem_cons.1 h
      obtain ⟨vs, ws, hvs, hws, hequals⟩ := ih hrest
      refine ⟨v :: vs, w :: ws, ?_, ?_, .cons hequal hequals⟩
      · rw [List.mapM_cons, hv, hvs]
        rfl
      · rw [List.mapM_cons, hw, hws]
        rfl
  obtain ⟨vs, ws, hvs, hws, hequals⟩ := hvalues
  refine ⟨_, _, ?_, ?_, EntityKey.equal_ofValues hequals⟩
  · rw [keyOf, hvs]
    rfl
  · rw [keyOf, hws]
    rfl

/-! ## Capturing -/

/-- The sidecar for baseline values, which is made if there is none. -/
def baselineSidecar (e : Entry) : Sidecar :=
  (e.sidecar? Sidecar.baselineName).getD (.baseline e.type.properties)

/-- The entry with a value captured, unless one is. -/
def capturing (e : Entry) (p : Property) (c : Value) : Entry :=
  if e.baselineSidecar.hasValue p then e else e.attach (e.baselineSidecar.holding p c)

/-- A value is captured if the sidecar for baseline values covers its property. -/
theorem captureBaseline_of_covers (h : e.baselineSidecar.covers p = true) :
    e.captureBaseline p c = .ok (e.capturing p c) := by
  unfold captureBaseline capturing
  dsimp only
  rw [← baselineSidecar, Sidecar.set, if_pos h]
  split <;> rfl

theorem captureBaseline_of_not_covers (h : e.baselineSidecar.covers p = false) :
    ∃ err, e.captureBaseline p c = .error err := by
  have hnone : e.baselineSidecar.hasValue p = false := by
    simp [Sidecar.hasValue, Sidecar.get?, h]
  unfold captureBaseline
  dsimp only
  rw [← baselineSidecar, Sidecar.set, hnone, h]
  exact ⟨_, rfl⟩

theorem capturing_eq (e : Entry) (p : Property) (c : Value) :
    ∃ sidecars, e.capturing p c = { e with sidecars } := by
  unfold capturing
  split
  · exact ⟨e.sidecars, rfl⟩
  · exact ⟨_, rfl⟩

theorem name_baselineSidecar (e : Entry) : e.baselineSidecar.name = Sidecar.baselineName := by
  unfold baselineSidecar
  cases h : e.sidecar? Sidecar.baselineName with
  | none => rfl
  | some b => simpa using List.find?_some h

theorem captured?_eq (e : Entry) (q : Property) : e.captured? q = e.baselineSidecar.get? q := by
  unfold captured? baselineSidecar
  cases e.sidecar? Sidecar.baselineName with
  | some b => rfl
  | none =>
    rw [Option.bind_none, Option.getD_none, Sidecar.get?]
    split <;> rfl

/-- Capturing the primary value of a property changes no baseline value. -/
theorem baselineValue_capturing (hp : e.type.owns p = true)
    (hcovers : e.baselineSidecar.covers p = true) (hcurrent : e.primaryValue p = .ok c) (q : Property) :
    (e.capturing p c).baselineValue q = e.baselineValue q := by
  unfold capturing
  split
  · rfl
  rename_i hnone
  have hnone : e.baselineSidecar.get? p = none := by simpa [Sidecar.hasValue] using hnone
  by_cases howns : e.type.owns q = true
  · have hattach : (e.attach (e.baselineSidecar.holding p c)).captured? q =
        (e.baselineSidecar.holding p c).get? q := captured?_attach e.name_baselineSidecar
    rw [baselineValue_of_owns (e := e.attach _) howns, baselineValue_of_owns howns, hattach,
      captured?_eq]
    by_cases hindex : q.index = p.index
    · have hsame := EntityType.same_of_owns howns hp hindex
      rw [Sidecar.get?_congr _ hsame, Sidecar.get?_congr _ hsame, Sidecar.get?_holding hcovers, hnone]
      exact ((primaryValue_congr hindex).trans hcurrent).symm
    · rw [Sidecar.get?_holding_of_ne hindex]
      rfl
  · have howns : e.type.owns q = false := by simpa using howns
    rw [(reads_of_not_owns howns).2.1, (reads_of_not_owns (e := e.attach _) howns).2.1]
    rfl

/-- The captured value of a property becomes what reads see: the sidecar for baseline values is one
that they see through, it holds nothing for the property yet, and neither do the ones before it. -/
def CaptureHides (e : Entry) (p : Property) : Prop :=
  ∃ before b after, e.sidecars = before ++ b :: after ∧ b.name = Sidecar.baselineName ∧
    (∀ t ∈ before, t.name ≠ Sidecar.baselineName ∧ t.reads p = none) ∧
    b.transparentRead = true ∧ b.get? p = none

/-- The captured value hides another one that was seen before. -/
def CaptureShows (e : Entry) (p : Property) (c : Value) : Prop :=
  e.CaptureHides p ∧ ∃ v, e.overlay? p = some v ∧ v ≠ c

theorem attachTo_append {s b : Sidecar} {before after : List Sidecar}
    (hbefore : ∀ t ∈ before, t.name ≠ s.name) (hb : b.name = s.name) :
    attachTo s (before ++ b :: after) = before ++ s :: after := by
  induction before with
  | nil => exact if_pos hb
  | cons t before ih =>
    obtain ⟨ht, hbefore⟩ := List.forall_mem_cons.1 hbefore
    rw [List.cons_append, attachTo, if_neg ht, ih hbefore]
    rfl

/-- The sidecar for baseline values has its place among the others. -/
theorem exists_baselineSidecar {b : Sidecar} (h : e.sidecar? Sidecar.baselineName = some b) :
    e.baselineSidecar = b ∧ ∃ before after, e.sidecars = before ++ b :: after ∧
      ∀ t ∈ before, t.name ≠ Sidecar.baselineName := by
  obtain ⟨-, before, after, hsidecars, hbefore⟩ := List.find?_eq_some_iff_append.1 h
  exact ⟨by rw [baselineSidecar, h, Option.getD_some], before, after, hsidecars,
    fun t ht => by simpa using hbefore t ht⟩

/-- What reads see of one more baseline value, where the sidecars are known. -/
theorem overlay?_holding {b : Sidecar} {before after : List Sidecar}
    (hsidecars : e.sidecars = before ++ b :: after) (hb : b.name = Sidecar.baselineName)
    (hbefore : ∀ t ∈ before, t.name ≠ Sidecar.baselineName) (q : Property) :
    (e.attach (b.holding p c)).overlay? q = (before.findSome? (·.reads q)).or
      (((b.holding p c).reads q).or (after.findSome? (·.reads q))) := by
  have hattach : (e.attach (b.holding p c)).sidecars = before ++ b.holding p c :: after := by
    have hname : (b.holding p c).name = b.name := rfl
    rw [attach, hsidecars]
    exact attachTo_append (fun t ht => by rw [hname, hb]; exact hbefore t ht) rfl
  exact overlay?_of_sidecars hattach q

/-- Where the captured value is seen, it is what reads give. -/
theorem overlay?_capturing_of_hides (hcovers : e.baselineSidecar.covers p = true)
    (h : e.CaptureHides p) : (e.capturing p c).overlay? p = some c := by
  obtain ⟨before, b, after, hsidecars, hb, hbefore, hread, hnone⟩ := h
  have hfind : e.sidecar? Sidecar.baselineName = some b := by
    refine List.find?_eq_some_iff_append.2 ⟨by simpa using hb, before, after, hsidecars, fun t ht => ?_⟩
    simpa using (hbefore t ht).1
  obtain ⟨hbaseline, -⟩ := exists_baselineSidecar hfind
  rw [hbaseline] at hcovers
  have hheld : (b.holding p c).reads p = some c := by
    have hread' : (b.holding p c).transparentRead = true := hread
    rw [Sidecar.reads, if_pos hread', Sidecar.get?_holding hcovers]
  rw [capturing, hbaseline, Sidecar.hasValue, hnone, Option.isSome_none, if_neg Bool.false_ne_true,
    overlay?_holding hsidecars hb (fun t ht => (hbefore t ht).1),
    List.findSome?_eq_none_iff.2 fun t ht => (hbefore t ht).2, hheld]
  rfl

/-- Where it is not, reads give what they gave, as they do for all other properties. -/
theorem overlay?_capturing (h : q.same p = true → ¬ e.CaptureHides p)
    (hplace : q.index = p.index → q.same p = true) :
    (e.capturing p c).overlay? q = e.overlay? q := by
  unfold capturing
  split
  · rfl
  rename_i hvalue
  have hnone : e.baselineSidecar.get? p = none := by simpa [Sidecar.hasValue] using hvalue
  cases hfind : e.sidecar? Sidecar.baselineName with
  | none =>
    -- a new sidecar comes last, and reads pass it by
    have hbaseline : e.baselineSidecar = .baseline e.type.properties := by
      rw [baselineSidecar, hfind, Option.getD_none]
    have hnames : ∀ t ∈ e.sidecars, t.name ≠ (e.baselineSidecar.holding p c).name := fun t ht => by
      rw [show (e.baselineSidecar.holding p c).name = _ from e.name_baselineSidecar]
      simpa using List.find?_eq_none.1 hfind t ht
    have hnew : (e.baselineSidecar.holding p c).reads q = none := by
      rw [hbaseline]
      rfl
    rw [overlay?_eq, attach, attachTo_of_notMem hnames, List.findSome?_append,
      List.findSome?_singleton, hnew, Option.or_none, overlay?_eq]
  | some b =>
    obtain ⟨hbaseline, before, after, hsidecars, hbefore⟩ := exists_baselineSidecar hfind
    have hb : b.name = Sidecar.baselineName := hbaseline ▸ e.name_baselineSidecar
    rw [hbaseline] at hnone ⊢
    rw [overlay?_holding hsidecars hb hbefore, overlay?_of_sidecars hsidecars]
    cases hfirst : before.findSome? (·.reads q) with
    | some v => rfl
    | none =>
      have hreads : (b.holding p c).reads q = b.reads q := by
        by_cases hindex : q.index = p.index
        · have hsame := hplace hindex
          have hhidden : b.transparentRead = false := by
            by_contra hread
            refine h hsame ⟨before, b, after, hsidecars, hb, fun t ht => ⟨hbefore t ht, ?_⟩,
              by simpa using hread, hnone⟩
            rw [← t.reads_congr hsame]
            exact List.findSome?_eq_none_iff.1 hfirst t ht
          rw [Sidecar.reads, Sidecar.reads, hhidden,
            if_neg (show ¬ (b.holding p c).transparentRead = true by
              rw [show (b.holding p c).transparentRead = b.transparentRead from rfl, hhidden]
              exact Bool.false_ne_true)]
          rfl
        · rw [Sidecar.reads, Sidecar.reads, Sidecar.get?_holding_of_ne hindex]
          rfl
      rw [hreads]

end Entry

end EntityMapper
