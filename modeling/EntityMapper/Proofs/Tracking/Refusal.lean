import EntityMapper.Proofs.Tracking.Reading
import EntityMapper.Proofs.Tracking.Snapshot

/-!
# Refused writes

Writing a property (`Action.set`) fails where the property is strange, the value is not one of its
type, or the primary value cannot be read; then nothing has been done. The storage may refuse the
value as well (`Entry.Refuses`), and by then the value before it has been captured as the baseline
and the new one noted in the relationship snapshot (`Action.perform_set_of_refuses`). There is no
third way to fail (`Action.set_error_cases`).

Readers can tell that from nothing having been done in two places, and in no other
(`Action.set_keeps_sight_iff`): the snapshot value of a relationship property is then the value that
was refused, and what was captured may hide another value (`Entry.CaptureShows`).
-/

namespace EntityMapper

open Stepwise

namespace Entry

variable {e e' : Entry} {p q : Property} {v w c : Value}

/-! ## Noting -/

/-- Neither sidecars nor the snapshot are any matter to the storage. -/
theorem putPrimary_dressed (e : Entry) (sidecars : List Sidecar) (snapshot : List (Nat × Value))
    (p : Property) (v : Value) : ({ e with sidecars, snapshot } : Entry).putPrimary p v =
      (e.putPrimary p v).map fun e' => { e' with sidecars, snapshot } := by
  obtain ⟨id, type, native, shadow, accessors, state, modified, _, _⟩ := e
  unfold putPrimary
  dsimp only
  cases (accessors[p.index]?).join with
  | none => rfl
  | some a =>
    cases native with
    | none => rfl
    | some i =>
      dsimp only
      cases a.set i v <;> rfl

/-- The value noted for a relationship property is its snapshot value. -/
theorem snapshotValue_noted (hp : e.type.owns p = true) (hrel : e.type.inRelationship p = true) :
    (e.noted p w).snapshotValue p = .ok w := by
  have howns : (e.noted p w).type.owns p = true := hp
  have hlookup : (e.noted p w).snapshot.lookup p.index = some w := by
    rw [noted, if_pos hrel]
    exact Sidecar.lookup_put_self
  rw [snapshotValue_of_owns howns, hlookup]

/-- Noting a value changes no snapshot value but that of the property. -/
theorem snapshotValue_noted_of (hp : e.type.owns p = true)
    (h : e.type.inRelationship p = true → e.snapshotValue p = .ok w) (q : Property) :
    (e.noted p w).snapshotValue q = e.snapshotValue q := by
  by_cases howns : e.type.owns q = true
  · by_cases hrel : e.type.inRelationship p = true
    · by_cases hindex : q.index = p.index
      · have hsame := EntityType.same_of_owns howns hp hindex
        have hp' : (e.noted p w).type.owns p = true := hp
        rw [snapshotValue_congr hsame hp', snapshotValue_congr hsame hp, snapshotValue_noted hp hrel,
          h hrel]
      · have howns' : (e.noted p w).type.owns q = true := howns
        have hlookup : (e.noted p w).snapshot.lookup q.index = e.snapshot.lookup q.index := by
          rw [noted, if_pos hrel]
          exact Sidecar.lookup_put_of_ne hindex
        rw [snapshotValue_of_owns howns', snapshotValue_of_owns howns, hlookup]
        rfl
    · rw [← noted_eq, if_neg hrel]
  · have howns : e.type.owns q = false := by simpa using howns
    have howns' : (e.noted p w).type.owns q = false := howns
    rw [(reads_of_not_owns howns).2.2, (reads_of_not_owns howns').2.2]
    rfl

/-! ## Refusals -/

/-- The storage refuses a value, in a write that has come as far as that: the value is one of the
property's type, no sidecar takes it, it is not there already, and the one before it, `c`, can be
captured. -/
structure Refuses (e : Entry) (p : Property) (v w c : Value) : Prop where
  owned : e.type.owns p = true
  coerced : p.coerce v = .ok w
  direct : ∀ s ∈ e.sidecars, (s.transparentWrite && s.covers p) = false
  current : e.primaryValue p = .ok c
  changes : c.keyEqual w = false
  covered : e.baselineSidecar.covers p = true
  refused : ∃ err, e.putPrimary p w = .error err

/-- The entry that a refusal leaves. -/
def afterRefusal (e : Entry) (p : Property) (w c : Value) : Entry :=
  (e.capturing p c).noted p w

theorem afterRefusal_eq (e : Entry) (p : Property) (w c : Value) :
    ∃ sidecars snapshot, e.afterRefusal p w c = { e with sidecars, snapshot } := by
  obtain ⟨sidecars, hcapturing⟩ := e.capturing_eq p c
  exact ⟨sidecars, _, by rw [afterRefusal, hcapturing]; rfl⟩

theorem afterRefusal_revalued (e : Entry) (p : Property) (w c : Value) :
    e.Revalued (e.afterRefusal p w c) := by
  obtain ⟨sidecars, snapshot, h⟩ := e.afterRefusal_eq p w c
  rw [h]
  exact ⟨rfl, rfl, rfl⟩

theorem primaryValue_afterRefusal (e : Entry) (p : Property) (w c : Value) (q : Property) :
    (e.afterRefusal p w c).primaryValue q = e.primaryValue q := by
  obtain ⟨sidecars, snapshot, h⟩ := e.afterRefusal_eq p w c
  rw [h]
  rfl

/-- What the storage says to a value is no matter of what was captured and noted before. -/
theorem putPrimary_afterRefusal (e : Entry) (p : Property) (w c : Value) :
    (e.afterRefusal p w c).putPrimary p w = (e.putPrimary p w).map fun e' =>
      { e' with sidecars := (e.capturing p c).sidecars
                snapshot := (e.afterRefusal p w c).snapshot } := by
  rw [← putPrimary_dressed]
  obtain ⟨sidecars, hcapturing⟩ := e.capturing_eq p c
  rw [afterRefusal, hcapturing]
  rfl

theorem get_afterRefusal_of_owns (hq : e.type.owns q = true) : (e.afterRefusal p w c).get q =
    ((e.capturing p c).overlay? q).elim (e.primaryValue q) .ok := by
  have howns : (e.afterRefusal p w c).type.owns q = true :=
    (e.afterRefusal_revalued p w c).type ▸ hq
  rw [get_of_owns howns, primaryValue_afterRefusal]
  rfl

/-- After a refusal reads give what they gave, unless the captured value hides another one. -/
theorem get_afterRefusal (h : e.Refuses p v w c) (hshows : ¬ e.CaptureShows p c) (q : Property) :
    (e.afterRefusal p w c).get q = e.get q := by
  have htype := (e.afterRefusal_revalued p w c).type
  by_cases hq : e.type.owns q = true
  · by_cases hhides : q.same p = true ∧ e.CaptureHides p
    · obtain ⟨hsame, hhides⟩ := hhides
      rw [get_congr hsame (htype ▸ h.owned), get_congr hsame h.owned, get_afterRefusal_of_owns h.owned,
        overlay?_capturing_of_hides h.covered hhides, get_of_owns h.owned]
      cases hv : e.overlay? p with
      | none => exact h.current.symm
      | some v' =>
        by_cases hvc : v' = c
        · rw [hvc]
        · exact absurd ⟨hhides, v', hv, hvc⟩ hshows
    · rw [get_afterRefusal_of_owns hq, overlay?_capturing (fun hsame hh => hhides ⟨hsame, hh⟩)
        (EntityType.same_of_owns hq h.owned), get_of_owns hq]
  · have hq : e.type.owns q = false := by simpa using hq
    rw [(reads_of_not_owns hq).1, (reads_of_not_owns (htype ▸ hq)).1, htype]

/-- **What a refusal shows**: readers see that the refused value was noted, unless it was the
snapshot value already, and what was captured, where that hides another value. -/
theorem intact_afterRefusal_iff (h : e.Refuses p v w c) :
    e.Intact (e.afterRefusal p w c) ↔
      (e.type.inRelationship p = true → e.snapshotValue p = .ok w) ∧ ¬ e.CaptureShows p c := by
  obtain ⟨sidecars, hcapturing⟩ := e.capturing_eq p c
  have htype : (e.capturing p c).type = e.type := by rw [hcapturing]
  have howns : (e.capturing p c).type.owns p = true := htype ▸ h.owned
  have hsnapshot : ∀ q, (e.capturing p c).snapshotValue q = e.snapshotValue q := fun q => by
    rw [hcapturing]
    rfl
  constructor
  · intro hintact
    refine ⟨fun hrel => ?_, fun ⟨hhides, v', hv', hne⟩ => ?_⟩
    · rw [← hintact.snapshotValue p, afterRefusal]
      exact snapshotValue_noted howns (htype ▸ hrel)
    · have hget := hintact.get p
      rw [get_afterRefusal_of_owns h.owned, overlay?_capturing_of_hides h.covered hhides,
        get_of_owns h.owned, hv'] at hget
      exact hne (Except.ok.inj hget).symm
  · rintro ⟨hnoted, hshows⟩
    refine .of_values (e.afterRefusal_revalued p w c) (get_afterRefusal h hshows)
      (baselineValue_capturing h.owned h.covered h.current) fun q => ?_
    rw [afterRefusal, snapshotValue_noted_of howns (fun hrel => ?_), hsnapshot]
    rw [hsnapshot]
    exact hnoted (htype ▸ hrel)

end Entry

namespace Action

variable {s s' : Scope} {p : Property} {v w c : Value} {err : Error}

/-- Writing a value of the property's type comes to writing it to the first sidecar that takes it, or
else to the primary value. -/
theorem perform_set_of_coerced (howned : s.entry.requireOwned p = .ok ()) (hw : p.coerce v = .ok w) :
    Stepwise.perform (set p v) s = Stepwise.perform
      ((s.entry.sidecars.find? fun t => t.transparentWrite && t.covers p).elim (write p w)
        fun t => update fun e => do return e.attach (← t.set p w)) s := by
  rw [set, perform_bind, perform_read, howned]
  dsimp only
  rw [perform_bind, perform_read, hw]
  dsimp only
  rw [perform_bind, perform_read]
  dsimp only
  cases s.entry.sidecars.find? fun t => t.transparentWrite && t.covers p <;> rfl

/-- Writing to the primary value, where no sidecar takes the value. -/
theorem perform_set_direct (howned : s.entry.type.owns p = true) (hw : p.coerce v = .ok w)
    (hdirect : ∀ t ∈ s.entry.sidecars, (t.transparentWrite && t.covers p) = false) :
    Stepwise.perform (set p v) s = Stepwise.perform (write p w) s := by
  have hfind : (s.entry.sidecars.find? fun t => t.transparentWrite && t.covers p) = none :=
    List.find?_eq_none.2 fun t ht => by simp [hdirect t ht]
  rw [perform_set_of_coerced (if_pos howned) hw, hfind]
  rfl

/-- A value that is there already is not written. -/
theorem perform_write_of_equal (hcurrent : s.entry.primaryValue p = .ok c)
    (hequal : c.keyEqual w = true) : Stepwise.perform (write p w) s = (.ok (), s) := by
  rw [write, perform_bind, perform_read, hcurrent]
  dsimp only
  rw [if_pos hequal]
  rfl

/-- Once the value before it is captured, a write comes to whether the storage takes the value. -/
theorem perform_write_of_captured (hcurrent : s.entry.primaryValue p = .ok c)
    (hchanges : c.keyEqual w = false) (hcovered : s.entry.baselineSidecar.covers p = true) :
    Stepwise.perform (write p w) s = Stepwise.perform (do
      update (·.putPrimary p w)
      flagWritten p) { s with entry := s.entry.afterRefusal p w c } := by
  rw [write, perform_bind, perform_read, hcurrent]
  dsimp only
  rw [if_neg (by simp [hchanges]), perform_bind, perform_update,
    Entry.captureBaseline_of_covers hcovered]
  dsimp only
  rw [perform_bind, perform_modifyEntry]
  dsimp only
  rw [Entry.noted_eq]
  rfl

/-- A refusal leaves the entry with the value before it captured and the new one noted. -/
theorem perform_set_of_refuses (h : s.entry.Refuses p v w c) :
    ∃ err, Stepwise.perform (set p v) s =
      (.error err, { s with entry := s.entry.afterRefusal p w c }) := by
  obtain ⟨err, hput⟩ := h.refused
  refine ⟨err, ?_⟩
  rw [perform_set_direct h.owned h.coerced h.direct,
    perform_write_of_captured h.current h.changes h.covered, perform_bind, perform_update,
    Entry.putPrimary_afterRefusal, hput]
  rfl

/-- Otherwise it has the value, too, and what is left is to flag its property. -/
theorem perform_write_of_taken {e : Entry} (hcurrent : s.entry.primaryValue p = .ok c)
    (hchanges : c.keyEqual w = false) (hcovered : s.entry.baselineSidecar.covers p = true)
    (hput : s.entry.putPrimary p w = .ok e) :
    Stepwise.perform (write p w) s = Stepwise.perform (flagWritten p) { s with entry :=
      { e with sidecars := (s.entry.capturing p c).sidecars
               snapshot := (s.entry.afterRefusal p w c).snapshot } } := by
  rw [perform_write_of_captured hcurrent hchanges hcovered, perform_bind, perform_update,
    Entry.putPrimary_afterRefusal, hput]
  rfl

/-- Writing to the primary value fails if the storage refuses the value, or else with nothing
done. -/
theorem write_error_cases (howned : s.entry.type.owns p = true)
    (h : Stepwise.perform (write p w) s = (.error err, s')) :
    s' = s ∨ ∃ c, s.entry.primaryValue p = .ok c ∧ c.keyEqual w = false ∧
      s.entry.baselineSidecar.covers p = true ∧ ∃ err, s.entry.putPrimary p w = .error err := by
  cases hcurrent : s.entry.primaryValue p with
  | error err' =>
    rw [write, perform_bind, perform_read, hcurrent] at h
    cases h
    exact .inl rfl
  | ok c =>
  cases hchanges : c.keyEqual w with
  | true =>
    rw [perform_write_of_equal hcurrent hchanges] at h
    cases h
  | false =>
  cases hcovered : s.entry.baselineSidecar.covers p with
  | false =>
    obtain ⟨err', hcapture⟩ := Entry.captureBaseline_of_not_covers hcovered
    rw [write, perform_bind, perform_read, hcurrent] at h
    dsimp only at h
    rw [if_neg (by simp [hchanges]), perform_bind, perform_update, hcapture] at h
    cases h
    exact .inl rfl
  | true =>
  cases hput : s.entry.putPrimary p w with
  | error err' => exact .inr ⟨c, rfl, hchanges, rfl, err', rfl⟩
  | ok e =>
    -- once the storage has taken the value, nothing fails any more
    have howned' : e.type.owns p = true := (Entry.putPrimary_revalued hput).type ▸ howned
    rw [perform_write_of_taken hcurrent hchanges hcovered hput, perform_flagWritten howned'] at h
    cases h

/-- **How writing fails**: with a refusal of the storage, or with nothing done. -/
theorem set_error_cases (h : Stepwise.perform (set p v) s = (.error err, s')) :
    ((∀ w c, ¬ s.entry.Refuses p v w c) ∧ s' = s) ∨
      ∃ w c, s.entry.Refuses p v w c ∧ s' = { s with entry := s.entry.afterRefusal p w c } := by
  by_cases hrefuses : ∃ w c, s.entry.Refuses p v w c
  · obtain ⟨w, c, hr⟩ := hrefuses
    obtain ⟨err', hrun⟩ := perform_set_of_refuses hr
    rw [hrun] at h
    cases h
    exact .inr ⟨w, c, hr, rfl⟩
  refine .inl ⟨fun w c hr => hrefuses ⟨w, c, hr⟩, ?_⟩
  cases howned : s.entry.requireOwned p with
  | error err' =>
    rw [set, perform_bind, perform_read, howned] at h
    cases h
    rfl
  | ok _ =>
  have howns := Entry.owns_of_requireOwned howned
  cases hw : p.coerce v with
  | error err' =>
    rw [set, perform_bind, perform_read, howned] at h
    dsimp only at h
    rw [perform_bind, perform_read, hw] at h
    cases h
    rfl
  | ok w =>
  cases hfind : s.entry.sidecars.find? fun t => t.transparentWrite && t.covers p with
  | some t =>
    rw [perform_set_of_coerced howned hw, hfind, Option.elim_some, perform_update] at h
    split at h
    · cases h
    · cases h
      rfl
  | none =>
  have hdirect : ∀ t ∈ s.entry.sidecars, (t.transparentWrite && t.covers p) = false := fun t ht => by
    simpa using List.find?_eq_none.1 hfind t ht
  rw [perform_set_direct howns hw hdirect] at h
  rcases write_error_cases howns h with hsame | ⟨c, hcurrent, hchanges, hcovered, hrefused⟩
  · exact hsame
  · exact absurd ⟨w, c, howns, hw, hdirect, hcurrent, hchanges, hcovered, hrefused⟩ hrefuses

/-- **A failed write changes nothing** that is seen of the entry or of its session, exactly if the
storage did not refuse the value, or the refused value was the snapshot value of its property before,
should the property be in a relationship, and what was captured hides no other value. -/
theorem set_keeps_sight_iff (h : Stepwise.perform (set p v) s = (.error err, s')) :
    (s'.session = s.session ∧ s.entry.Intact s'.entry) ↔ ∀ w c, s.entry.Refuses p v w c →
      (s.entry.type.inRelationship p = true → s.entry.snapshotValue p = .ok w) ∧
        ¬ s.entry.CaptureShows p c := by
  rcases set_error_cases h with ⟨hnone, rfl⟩ | ⟨w, c, hr, rfl⟩
  · exact ⟨fun _ w c hr => absurd hr (hnone w c), fun _ => ⟨rfl, .refl _⟩⟩
  · constructor
    · rintro ⟨-, hintact⟩ w' c' hr'
      obtain rfl : w = w' := Except.ok.inj (hr.coerced.symm.trans hr'.coerced)
      obtain rfl : c = c' := Except.ok.inj (hr.current.symm.trans hr'.current)
      exact (Entry.intact_afterRefusal_iff hr).1 hintact
    · intro hcond
      exact ⟨rfl, (Entry.intact_afterRefusal_iff hr).2 (hcond w c hr)⟩

end Action

/-! ## An example -/

namespace Guests

/-- The number of a guest, which the field for it cannot always hold. -/
def number : Property where
  name := "Number"
  owner := ⟨0⟩
  ownerName := "Guest"
  index := 0
  valueType := .bigInt
  nullable := false
  shadow := false
  concurrencyToken := false
  clientGenerated := false
  storeGeneration := .never
  column := none
  tableKey := none

/-- Guests are told apart by their numbers. -/
def type : EntityType where
  id := ⟨0⟩
  name := "Guest"
  native := some ⟨"Guest"⟩
  properties := [number]
  key := some ⟨number, [], List.forall_mem_nil _⟩

/-- A guest with a field of 32 bits for the number. -/
def guest : Entry :=
  .fresh ⟨1⟩ type (some ⟨⟨"Guest"⟩, [("Number", .int 7)]⟩) [some (.field ⟨"Guest"⟩ "Number" .int32)]

/-- A session with the guest. -/
def session : Session where
  model := ⟨[type]⟩
  registry := .empty
  generators := .ofOverrides [] fun _ _ => 0
  made := 1

/-- A number of more than 32 bits. -/
def wide : Value := .bigInt 4294967296

theorem guest_refuses : guest.Refuses number wide wide (.int 7) where
  owned := rfl
  coerced := rfl
  direct := by decide
  current := rfl
  changes := rfl
  covered := by decide
  refused := ⟨_, rfl⟩

end Guests

namespace Action

theorem set_keeps_sight_iff_guests :
    (∃ err s', Stepwise.perform (set Guests.number Guests.wide) ⟨Guests.guest, Guests.session⟩ =
      (.error err, s') ∧ ¬ (s'.session = Guests.session ∧ Guests.guest.Intact s'.entry)) ∧
    ∃ err s', Stepwise.perform (set Guests.number .null) ⟨Guests.guest, Guests.session⟩ =
      (.error err, s') ∧ s'.session = Guests.session ∧ Guests.guest.Intact s'.entry := by
  constructor
  · obtain ⟨err, hrun⟩ := perform_set_of_refuses (s := ⟨Guests.guest, Guests.session⟩)
      Guests.guest_refuses
    refine ⟨err, _, hrun, fun hkept => ?_⟩
    obtain ⟨hnoted, -⟩ := (set_keeps_sight_iff hrun).1 hkept _ _ Guests.guest_refuses
    have hsnapshot : (.ok (.int 7) : Result Value) = .ok Guests.wide := hnoted rfl
    cases hsnapshot
  · have hrun : Stepwise.perform (set Guests.number .null) ⟨Guests.guest, Guests.session⟩ =
        (.error (.type "BIGINT" "NULL" (some "Number")), ⟨Guests.guest, Guests.session⟩) := rfl
    refine ⟨_, _, hrun, (set_keeps_sight_iff hrun).2 fun w c hr => ?_⟩
    cases hr.coerced

end Action

end EntityMapper
