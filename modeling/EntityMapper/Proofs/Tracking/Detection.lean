import EntityMapper.Proofs.Tracking.Snapshot
import EntityMapper.Proofs.Tracking.Tracked
import Mathlib.Data.List.Nodup

/-!
# Detected changes

Detecting changes (`Action.detect`) looks at one property after the other, and compares its primary
value with two others: with its baseline value, to flag the property (`Entry.Differs`), and with the
last value seen of it in a relationship, to take over the current one (`Entry.Stale`).

`Entry.Detected` says what comes of that, and `Action.detect_spec` that detecting changes does it and
then finds nothing more. What one property more does is in `Entry.Scanned.next`. Where there is
nothing to notice, nothing is changed (`Action.perform_detect_of_quiet`).
-/

namespace EntityMapper

open Stepwise

namespace Entry

variable {e e' : Entry} {p q : Property} {current : Value} {seen : List Property} {found : Bool}

/-! ## What there is to notice -/

/-- The primary value of a property is another one than its baseline value. -/
def Differs (e : Entry) (p : Property) : Prop :=
  ∃ baseline current, e.baselineValue p = .ok baseline ∧ e.primaryValue p = .ok current ∧
    baseline.keyEqual current = false

/-- The primary value of a relationship property is another one than the last value seen of it. -/
def Stale (e : Entry) (p : Property) : Prop :=
  e.type.inRelationship p = true ∧ ∃ last current, e.snapshotValue p = .ok last ∧
    e.primaryValue p = .ok current ∧ last.keyEqual current = false

/-- The flag of a property. -/
def flagAt (e : Entry) (p : Property) : Bool :=
  (e.modified[p.index]?).getD false

theorem isModified_of_owns (h : e.type.owns p = true) : e.isModified p = .ok (e.flagAt p) := by
  have howned : e.requireOwned p = .ok () := if_pos h
  rw [isModified, howned]
  rfl

/-- A property without a captured value has its primary value as the baseline value. -/
theorem differs_iff (howns : e.type.owns p = true) (hcurrent : e.primaryValue p = .ok current) :
    e.Differs p ↔ ∃ baseline, e.captured? p = some baseline ∧ baseline.keyEqual current = false := by
  unfold Differs
  rw [baselineValue_of_owns howns, hcurrent]
  cases e.captured? p with
  | none =>
    refine ⟨?_, fun ⟨_, h, _⟩ => nomatch h⟩
    rintro ⟨_, _, ⟨⟩, ⟨⟩, h⟩
    cases current.keyEqual_self.symm.trans h
  | some baseline => simp

/-- A property that was never seen has its primary value in the place of the last one seen. -/
theorem stale_iff (howns : e.type.owns p = true) (hcurrent : e.primaryValue p = .ok current) :
    e.Stale p ↔ e.type.inRelationship p = true ∧
      ∃ last, e.snapshot.lookup p.index = some last ∧ last.keyEqual current = false := by
  unfold Stale
  rw [snapshotValue_of_owns howns, hcurrent]
  refine and_congr_right fun _ => ?_
  cases e.snapshot.lookup p.index with
  | none =>
    refine ⟨?_, fun ⟨_, h, _⟩ => nomatch h⟩
    rintro ⟨_, _, ⟨⟩, ⟨⟩, h⟩
    cases current.keyEqual_self.symm.trans h
  | some last => simp

theorem unnoticed_iff (howns : e.type.owns p = true) (hcurrent : e.primaryValue p = .ok current) :
    Action.unnoticed e p current = true ↔ e.Differs p ∧ e.flagAt p = false := by
  rw [differs_iff howns hcurrent, Action.unnoticed, ← flagAt]
  cases e.captured? p <;> simp

theorem missed_iff (howns : e.type.owns p = true) (hcurrent : e.primaryValue p = .ok current) :
    Action.missed e p current = true ↔ e.Stale p := by
  rw [stale_iff howns hcurrent, Action.missed]
  cases e.snapshot.lookup p.index <;> simp

/-! ## Looking at the properties -/

/-- An entry and what it is once the changes of some properties were noticed. -/
structure Scanned (e : Entry) (seen : List Property) (found : Bool) (e' : Entry) : Prop where
  frame : ∃ state modified snapshot, e' = { e with state, modified, snapshot }
  length : e'.modified.length = e.modified.length
  flags : ∀ p ∈ e.type.properties,
    e'.flagAt p = true ↔ e.flagAt p = true ∨ p ∈ seen ∧ e.Differs p
  unseen : ∀ p ∈ e.type.properties, p ∉ seen →
    e'.snapshot.lookup p.index = e.snapshot.lookup p.index
  fresh : ∀ p ∈ seen, ¬ e'.Stale p
  modified : (∃ p ∈ seen, e.Differs p ∧ e.flagAt p = false) → e'.state = .modified
  same : (¬ ∃ p ∈ seen, e.Differs p ∧ e.flagAt p = false) → e'.state = e.state
  found_iff : found = true ↔ ∃ p ∈ seen, (e.Differs p ∧ e.flagAt p = false) ∨ e.Stale p

theorem Scanned.refl (e : Entry) : e.Scanned [] false e where
  frame := ⟨_, _, _, rfl⟩
  length := rfl
  flags _ _ := by simp
  unseen _ _ _ := rfl
  fresh _ hp := absurd hp List.not_mem_nil
  modified := fun ⟨_, hp, _⟩ => absurd hp List.not_mem_nil
  same _ := rfl
  found_iff := by simp

theorem Scanned.make (h : e.Scanned seen found e') : e'.make = e.make := by
  obtain ⟨_, _, _, rfl⟩ := h.frame
  rfl

end Entry

namespace Action

variable {s s' : Scope} {e : Entry} {p q : Property} {current : Value} {seen : List Property}
  {found : Bool}

/-- What noticing changes in an unchanged or modified entry. -/
theorem entry_noticed_of (h : s.entry.state = .unchanged ∨ s.entry.state = .modified) (p : Property)
    (current : Value) :
    (noticed s p current).entry = { s.entry with
      state := if unnoticed s.entry p current then .modified else s.entry.state
      modified := if unnoticed s.entry p current then s.entry.modified.set p.index true
        else s.entry.modified
      snapshot := if missed s.entry p current then Sidecar.put p.index current s.entry.snapshot
        else s.entry.snapshot } := by
  unfold noticed
  dsimp only
  cases unnoticed s.entry p current <;> cases missed s.entry p current
  · rfl
  · rfl
  · exact Scope.entry_flag_on h
  · exact congrArg (·.recordSnapshot p current) (Scope.entry_flag_on h)

/-- Noticing flags the property if it was unnoticed, and no other one. -/
theorem flagAt_noticed (h : s.entry.state = .unchanged ∨ s.entry.state = .modified)
    (hlt : p.index < s.entry.modified.length) (q : Property) :
    (noticed s p current).entry.flagAt q = true ↔
      s.entry.flagAt q = true ∨ q.index = p.index ∧ unnoticed s.entry p current = true := by
  rw [entry_noticed_of h, Entry.flagAt, Entry.flagAt]
  cases unnoticed s.entry p current with
  | false => simp
  | true =>
    by_cases hindex : q.index = p.index
    · simp [hindex, hlt]
    · simp [hindex, List.getElem?_set_ne (Ne.symm hindex)]

/-- Noticing makes the current value the last one seen, where another one was, and no other one. -/
theorem lookup_noticed_of_ne (h : s.entry.state = .unchanged ∨ s.entry.state = .modified)
    (hindex : q.index ≠ p.index) :
    (noticed s p current).entry.snapshot.lookup q.index = s.entry.snapshot.lookup q.index := by
  rw [entry_noticed_of h]
  dsimp only
  split
  · exact Sidecar.lookup_put_of_ne hindex
  · rfl

/-- Afterwards the property is not stale. -/
theorem not_stale_noticed (h : s.entry.state = .unchanged ∨ s.entry.state = .modified)
    (howns : s.entry.type.owns p = true) (hcurrent : s.entry.primaryValue p = .ok current) :
    ¬ (noticed s p current).entry.Stale p := by
  have hentry := entry_noticed_of h p current
  have howns' : (noticed s p current).entry.type.owns p = true := by rw [hentry]; exact howns
  have hcurrent' : (noticed s p current).entry.primaryValue p = .ok current := by
    rw [hentry]
    exact hcurrent
  rw [← Entry.missed_iff howns' hcurrent', missed, hentry]
  dsimp only
  split
  · simp [Sidecar.lookup_put_self, Value.keyEqual_self]
  · next hmissed => exact hmissed

end Action

namespace Entry

variable {s : Scope} {e e' : Entry} {p q : Property} {current : Value} {seen : List Property}
  {found : Bool}

theorem stale_congr (hv : e.Valid) (htype : e'.type = e.type)
    (hprimary : e'.primaryValue q = e.primaryValue q)
    (hlookup : e'.snapshot.lookup q.index = e.snapshot.lookup q.index)
    (howns : e.type.owns q = true) : e'.Stale q ↔ e.Stale q := by
  obtain ⟨current, hcurrent⟩ := hv.primaryValue_ok q
  rw [stale_iff howns hcurrent, stale_iff (htype ▸ howns) (hprimary.trans hcurrent), htype, hlookup]

namespace Scanned

theorem primaryValue (h : e.Scanned seen found e') : e'.primaryValue = e.primaryValue := by
  obtain ⟨_, _, _, rfl⟩ := h.frame
  rfl

theorem type (h : e.Scanned seen found e') : e'.type = e.type :=
  congrArg Make.type h.make

/-- The entry is unchanged or modified still. -/
theorem state (h : e.Scanned seen found e') (hstate : e.state = .unchanged ∨ e.state = .modified) :
    e'.state = .unchanged ∨ e'.state = .modified := by
  by_cases hsome : ∃ q ∈ seen, e.Differs q ∧ e.flagAt q = false
  · exact .inr (h.modified hsome)
  · rwa [h.same hsome]

/-- Where a property was not looked at before, what is unnoticed of it is what was unnoticed. -/
theorem unnoticed_iff (h : e.Scanned seen found e') (hp : p ∈ e.type.properties)
    (howns : e.type.owns p = true) (hnew : p ∉ seen) (hcurrent : e.primaryValue p = .ok current) :
    Action.unnoticed e' p current = true ↔ e.Differs p ∧ e.flagAt p = false := by
  have hdiffers : e'.Differs p ↔ e.Differs p := by
    obtain ⟨_, _, _, rfl⟩ := h.frame
    rfl
  have hflag : e'.flagAt p = e.flagAt p := by
    simpa [hnew, ← Bool.eq_iff_iff] using h.flags p hp
  rw [Entry.unnoticed_iff (h.type ▸ howns) (h.primaryValue ▸ hcurrent), hdiffers, hflag]

theorem missed_iff (h : e.Scanned seen found e') (hv : e.Valid) (hp : p ∈ e.type.properties)
    (hnew : p ∉ seen) (hcurrent : e.primaryValue p = .ok current) :
    Action.missed e' p current = true ↔ e.Stale p := by
  have howns := hv.placed.owns_of_mem hp
  rw [Entry.missed_iff (h.type ▸ howns) (h.primaryValue ▸ hcurrent)]
  exact stale_congr hv h.type (congrFun h.primaryValue p) (h.unseen p hp hnew) howns

end Scanned

/-- **One property more.** -/
theorem Scanned.next (hs : e.Scanned seen found s.entry) (hv : e.Valid)
    (hlength : e.modified.length = e.type.properties.length)
    (hstate : e.state = .unchanged ∨ e.state = .modified) (hsub : ∀ q ∈ seen, q ∈ e.type.properties)
    (hp : p ∈ e.type.properties) (hnew : p ∉ seen) (hcurrent : e.primaryValue p = .ok current) :
    e.Scanned (p :: seen)
      (Action.unnoticed s.entry p current || Action.missed s.entry p current || found)
      (Action.noticed s p current).entry := by
  have howns := hv.placed.owns_of_mem hp
  have hstate' := hs.state hstate
  have hunnoticed := hs.unnoticed_iff hp howns hnew hcurrent
  have hmissed := hs.missed_iff hv hp hnew hcurrent
  have hlt : p.index < s.entry.modified.length := hs.length ▸ hlength ▸ hv.placed.index_lt hp
  have hne : ∀ q ∈ e.type.properties, q ≠ p → q.index ≠ p.index := fun q hq hqp hindex =>
    hqp (hv.placed.eq_of_index hq hp hindex)
  have hentry := Action.entry_noticed_of hstate' p current
  refine ⟨?frame, ?length, fun q hq => ?flags, fun q hq hunseen => ?unseen, fun q hq => ?fresh,
    fun hsome => ?modified, fun hnone => ?same, ?found⟩
  case frame =>
    obtain ⟨_, _, _, hframe⟩ := hs.frame
    exact ⟨_, _, _, by rw [hentry, hframe]⟩
  case length =>
    rw [hentry, ← hs.length]
    dsimp only
    split
    · exact List.length_set
    · rfl
  case flags =>
    rw [Action.flagAt_noticed hstate' hlt, hs.flags q hq, hunnoticed]
    by_cases hqp : q = p
    · subst hqp
      cases hflag : e.flagAt q <;> simp [hnew]
    · simp [hqp, hne q hq hqp]
  case unseen =>
    obtain ⟨hqp, hunseen⟩ := not_or.1 (mt List.mem_cons.2 hunseen)
    rw [Action.lookup_noticed_of_ne hstate' (hne q hq hqp), hs.unseen q hq hunseen]
  case fresh =>
    rcases List.mem_cons.1 hq with rfl | hq
    · exact Action.not_stale_noticed hstate' (hs.type ▸ howns) (hs.primaryValue ▸ hcurrent)
    · have hqp : q ≠ p := fun heq => hnew (heq ▸ hq)
      refine mt (stale_congr (hv.of_make hs.make) (by rw [hentry]) (by rw [hentry]; rfl) ?_ ?_).1
        (hs.fresh q hq)
      · exact Action.lookup_noticed_of_ne hstate' (hne q (hsub q hq) hqp)
      · exact hs.type ▸ hv.placed.owns_of_mem (hsub q hq)
  case modified =>
    rw [hentry]
    dsimp only
    split
    · rfl
    · next hnot =>
      obtain ⟨q, hq, hd⟩ := hsome
      rcases List.mem_cons.1 hq with rfl | hq
      · exact absurd (hunnoticed.2 hd) hnot
      · exact hs.modified ⟨q, hq, hd⟩
  case same =>
    rw [List.exists_mem_cons_iff, not_or] at hnone
    rw [hentry]
    dsimp only
    rw [if_neg (mt hunnoticed.1 hnone.1), hs.same hnone.2]
  case found =>
    rw [List.exists_mem_cons_iff, ← hs.found_iff, ← hunnoticed, ← hmissed, Bool.or_eq_true,
      Bool.or_eq_true]

end Entry

/-! ## All properties -/

namespace Action

open Entry

variable {s : Scope} {e : Entry} {seen properties : List Property} {found : Bool}

/-- Some properties more. -/
theorem exists_scanned (hs : e.Scanned seen found s.entry) (hv : e.Valid)
    (hlength : e.modified.length = e.type.properties.length)
    (hstate : e.state = .unchanged ∨ e.state = .modified) (hseen : ∀ q ∈ seen, q ∈ e.type.properties)
    (hsub : ∀ p ∈ properties, p ∈ e.type.properties) (hnodup : (properties.reverse ++ seen).Nodup) :
    ∃ found' s', Stepwise.perform
        (properties.foldlM (fun changed p => do return (← detectAt p) || changed) found) s =
          (.ok found', s') ∧
      e.Scanned (properties.reverse ++ seen) found' s'.entry := by
  induction properties generalizing seen found s with
  | nil => exact ⟨found, s, rfl, hs⟩
  | cons p properties ih =>
    obtain ⟨hp, hsub⟩ := List.forall_mem_cons.1 hsub
    rw [List.reverse_cons, List.append_assoc, List.singleton_append] at hnodup ⊢
    have hnew : p ∉ seen := (List.nodup_cons.1 (List.nodup_append.1 hnodup).2.1).1
    obtain ⟨current, hcurrent⟩ := hv.primaryValue_ok p
    have hnext := hs.next hv hlength hstate hseen hp hnew hcurrent
    have hrun : Stepwise.perform (detectAt p) s =
        (.ok (unnoticed s.entry p current || missed s.entry p current), noticed s p current) := by
      obtain ⟨_, _, _, hframe⟩ := hs.frame
      refine perform_detectAt (if_pos ?_) ?_ <;> rw [hframe]
      · exact hv.placed.owns_of_mem hp
      · exact hcurrent
    obtain ⟨found', s', hrest, hs'⟩ := ih hnext (List.forall_mem_cons.2 ⟨hp, hseen⟩) hsub hnodup
    refine ⟨found', s', ?_, hs'⟩
    rw [List.foldlM_cons, perform_bind, perform_bind_of_ok hrun]
    exact hrest

/-- Where there is nothing to notice, nothing is changed. -/
theorem perform_detect_of_quiet (hv : s.entry.Valid)
    (hquiet : ∀ p ∈ s.entry.type.properties,
      ¬ (s.entry.Differs p ∧ s.entry.flagAt p = false) ∧ ¬ s.entry.Stale p) :
    Stepwise.perform detect s = (.ok false, s) := by
  have hall : ∀ properties : List Property, (∀ p ∈ properties, p ∈ s.entry.type.properties) →
      Stepwise.perform
        (properties.foldlM (fun changed p => do return (← detectAt p) || changed) false) s =
          (.ok false, s) := by
    intro properties hsub
    induction properties with
    | nil => rfl
    | cons p properties ih =>
      obtain ⟨hp, hsub⟩ := List.forall_mem_cons.1 hsub
      obtain ⟨current, hcurrent⟩ := hv.primaryValue_ok p
      have howns := hv.placed.owns_of_mem hp
      have hunnoticed : unnoticed s.entry p current = false :=
        Bool.eq_false_iff.2 (mt (unnoticed_iff howns hcurrent).1 (hquiet p hp).1)
      have hmissed : missed s.entry p current = false :=
        Bool.eq_false_iff.2 (mt (missed_iff howns hcurrent).1 (hquiet p hp).2)
      have hrun : Stepwise.perform (detectAt p) s = (.ok false, s) := by
        rw [perform_detectAt (if_pos howns) hcurrent, noticed, hunnoticed, hmissed]
        rfl
      rw [List.foldlM_cons, perform_bind, perform_bind_of_ok hrun]
      exact ih hsub
  rw [detect, perform_bind, perform_read]
  dsimp only
  split
  · exact hall _ fun _ hp => hp
  · rfl

end Action

/-- An unchanged or modified entry and what it is once its changes are detected. -/
structure Entry.Detected (e : Entry) (found : Bool) (e' : Entry) : Prop where
  /-- Nothing but state, flags and snapshot is another one. -/
  frame : ∃ state modified snapshot, e' = { e with state, modified, snapshot }
  flags : ∀ p ∈ e.type.properties,
    e'.isModified p = .ok true ↔ e.isModified p = .ok true ∨ e.Differs p
  modified : (∃ p ∈ e.type.properties, e.isModified p = .ok false ∧ e'.isModified p = .ok true) →
    e'.state = .modified
  same : (¬ ∃ p ∈ e.type.properties, e.isModified p = .ok false ∧ e'.isModified p = .ok true) →
    e'.state = e.state
  found_iff : found = true ↔ ∃ p ∈ e.type.properties,
    (e.isModified p = .ok false ∧ e'.isModified p = .ok true) ∨ e.Stale p

namespace Entry

variable {e e' : Entry} {found : Bool}

/-- What is left to say once all properties were looked at. -/
theorem Scanned.detected {seen : List Property} (h : e.Scanned seen found e')
    (placed : e.type.Placed) (hseen : ∀ p, p ∈ seen ↔ p ∈ e.type.properties) :
    e.Detected found e' := by
  have hflag : ∀ p ∈ e.type.properties, e.isModified p = .ok (e.flagAt p) := fun p hp =>
    isModified_of_owns (placed.owns_of_mem hp)
  have hflag' : ∀ p ∈ e.type.properties, e'.isModified p = .ok (e'.flagAt p) := by
    obtain ⟨_, _, _, rfl⟩ := h.frame
    exact fun p hp => isModified_of_owns (placed.owns_of_mem hp)
  have hflags : ∀ p ∈ e.type.properties, e'.flagAt p = true ↔ e.flagAt p = true ∨ e.Differs p := by
    intro p hp
    simpa [hseen, hp] using h.flags p hp
  -- A property is newly flagged if its change was unnoticed.
  have hnew : ∀ p ∈ e.type.properties, (e.isModified p = .ok false ∧ e'.isModified p = .ok true) ↔
      e.Differs p ∧ e.flagAt p = false := by
    intro p hp
    rw [hflag p hp, hflag' p hp, Except.ok.injEq, Except.ok.injEq, hflags p hp, and_comm]
    cases e.flagAt p <;> simp
  have hsome : (∃ p ∈ e.type.properties, e.isModified p = .ok false ∧ e'.isModified p = .ok true) ↔
      ∃ p ∈ seen, e.Differs p ∧ e.flagAt p = false := by
    simp only [hseen]
    exact exists_congr fun p => and_congr_right (hnew p)
  refine ⟨h.frame, fun p hp => ?_, fun hs => h.modified (hsome.1 hs),
    fun hs => h.same (mt hsome.2 hs), ?_⟩
  · rw [hflag p hp, hflag' p hp, Except.ok.injEq, Except.ok.injEq, hflags p hp]
  · rw [h.found_iff]
    simp only [hseen]
    exact exists_congr fun p => and_congr_right fun hp => or_congr_left (hnew p hp).symm

/-- After that there is nothing more to notice. -/
theorem Scanned.quiet {seen : List Property} (h : e.Scanned seen found e')
    (hseen : ∀ p, p ∈ seen ↔ p ∈ e.type.properties) (p : Property) (hp : p ∈ e.type.properties) :
    ¬ (e'.Differs p ∧ e'.flagAt p = false) ∧ ¬ e'.Stale p := by
  have hdiffers : e'.Differs p ↔ e.Differs p := by
    obtain ⟨_, _, _, rfl⟩ := h.frame
    rfl
  refine ⟨fun ⟨hd, hflag⟩ => ?_, h.fresh p ((hseen p).2 hp)⟩
  rw [(h.flags p hp).2 (.inr ⟨(hseen p).2 hp, hdiffers.1 hd⟩)] at hflag
  cases hflag

end Entry

namespace Action

/-- **Detecting changes** of a valid entry that is unchanged or modified flags the properties whose
values differ from the baseline, and then there is nothing more to detect. -/
theorem detect_spec {s : Scope} (hv : s.entry.Valid)
    (hlength : s.entry.modified.length = s.entry.type.properties.length)
    (hstate : s.entry.state = .unchanged ∨ s.entry.state = .modified) :
    ∃ found s', Stepwise.perform detect s = (.ok found, s') ∧ s.entry.Detected found s'.entry ∧
      Stepwise.perform detect s' = (.ok false, s') := by
  have hnodup : (s.entry.type.properties.reverse ++ []).Nodup := by
    simpa using List.Nodup.of_map _ hv.placed.nodup_index
  obtain ⟨found, s', hrun, hs⟩ := exists_scanned (Entry.Scanned.refl s.entry) hv hlength hstate
    (List.forall_mem_nil _) (fun _ hp => hp) hnodup
  have hseen : ∀ p, p ∈ s.entry.type.properties.reverse ++ [] ↔ p ∈ s.entry.type.properties := by
    simp
  have hdetect : Stepwise.perform detect s = (.ok found, s') := by
    rw [detect, perform_bind, perform_read]
    dsimp only
    rw [if_pos (by simpa using hstate), hrun]
  have htype : s'.entry.type = s.entry.type := congrArg Make.type hs.make
  exact ⟨found, s', hdetect, hs.detected hv.placed hseen,
    perform_detect_of_quiet (hv.of_make hs.make) fun p hp => hs.quiet hseen p (htype ▸ hp)⟩

end Action

end EntityMapper
