import EntityMapper.Proofs.Tracking.Detection
import EntityMapper.Proofs.UnitOfWork.Made
import EntityMapper.Proofs.UnitOfWork.Typed

/-!
# Changes of a unit of work

Whatever was done in a unit of work, accepting the changes of an entry leaves nothing of them
(`UnitOfWork.accept_makes_clean`), and detecting changes flags what differs from the baseline, no
more and no less (`UnitOfWork.detect_flags_differences`). Both go through for every entry, captured
lazily or eagerly, with or without a native instance, and whatever was attached to it.
-/

namespace EntityMapper

open Stepwise

/-- In an entry whose changes were accepted there is nothing to notice. -/
theorem Entry.Accepted.quiet {e e' : Entry} (h : e.Accepted e') (hv : e.Valid) (p : Property)
    (hp : p ∈ e'.type.properties) : ¬ (e'.Differs p ∧ e'.flagAt p = false) ∧ ¬ e'.Stale p := by
  have htype : e'.type = e.type := congrArg Make.type h.make
  have howns : e.type.owns p = true := hv.placed.owns_of_mem (htype ▸ hp)
  constructor
  · rintro ⟨⟨baseline, current, hbaseline, hcurrent, hne⟩, -⟩
    rw [h.baseline p howns, ← h.primary, hcurrent] at hbaseline
    cases hbaseline
    cases (Value.keyEqual_self _).symm.trans hne
  · rintro ⟨hrel, last, current, hlast, hcurrent, hne⟩
    rw [h.snapshot p howns (htype ▸ hrel), ← h.primary, hcurrent] at hlast
    cases hlast
    cases (Value.keyEqual_self _).symm.trans hne

/-- Accepting the changes of an unchanged entry does nothing. -/
theorem Action.accept_unchanged {s : Scope} (h : s.entry.state = .unchanged) :
    Stepwise.perform accept s = (.ok (), s) := by
  rw [accept, perform_bind, perform_read]
  dsimp only
  rw [h]
  rfl

/-! ## An example -/

namespace Parts

/-- Parts whose baseline values are captured at once. -/
def eager : EntityType :=
  { type with capturesLazily := false }

/-- The entry of the first part, with some baseline values and some last values seen. -/
def seen (number whole : Value) (state : EntityState) (modified : List Bool)
    (baseline snapshot : List (Nat × Value)) : Entry :=
  { entry with
    type := eager
    native := some ⟨⟨"Part"⟩, [("Number", number), ("Whole", whole)]⟩
    state, modified
    sidecars := [.baselineWith eager.properties baseline]
    snapshot }

/-- The part is new. -/
def adopted (state : EntityState) : Entry :=
  seen (.int 1) .null state [false, false] [(0, .int 1), (1, .null)] []

/-- It was made one of another part. -/
def moved : Entry :=
  seen (.int 1) (.int 7) .modified [false, true] [(0, .int 1), (1, .null)] [(1, .int 7)]

/-- The change was accepted. -/
def accepted (number whole : Value) : Entry :=
  seen number whole .unchanged [false, false] [(0, .int 1), (1, .int 7)] [(1, .int 7), (0, .int 1)]

/-- What the tracker knows of the part. -/
def trackedAs (state : EntityState) : Tracker :=
  ⟨[(⟨1⟩, ⟨"Part", state⟩)]⟩

theorem moved_reachable : (work moved (trackedAs .modified)).Reachable := by
  have hstart : Session.start (some ⟨[type]⟩) (work entry .empty).session.registry
      (.ofOverrides [] fun _ _ => 0) = .ok { (work entry .empty).session with made := 0 } := rfl
  have hmade : Session.adopt { (work entry .empty).session with made := 0 } eager (part .null) =
      .ok (adopted .unknown, (work entry .empty).session) := rfl
  have h₁ : (work (adopted .unknown) .empty).Reachable :=
    (UnitOfWork.Reachable.start hstart).step (.adopt hmade)
  have h₂ : (work (adopted .unchanged) (trackedAs .unchanged)).Reachable :=
    h₁.step (.act (e := adopted .unknown) (.head _) (.setState .unchanged))
  exact h₂.step (.act (e := adopted .unchanged) (.head _) (.set whole (.int 7)))

/-- Then the native instance was changed. -/
theorem accepted_reachable :
    (work (accepted (.int 2) (.int 9)) (trackedAs .unchanged)).Reachable := by
  have h : (work (accepted (.int 1) (.int 7)) (trackedAs .unchanged)).Reachable :=
    moved_reachable.step (.act (e := moved) (.head _) .accept)
  exact h.step (.act (e := accepted (.int 1) (.int 7)) (.head _)
    (.mutate fun fields => (fields.set "Number" (.int 2)).set "Whole" (.int 9)))

end Parts

namespace UnitOfWork

variable {u : UnitOfWork} {e : Entry}

/-- **Accepting changes makes an entry clean.** A new or modified entry becomes unchanged, without
flags; its primary values stay, and are its baseline and the last values seen. Then there is nothing
to detect, and nothing to accept. A deleted entry becomes unknown, with all that it has, and is no
longer tracked. -/
theorem accept_makes_clean (h : u.Reachable) (he : e ∈ u.entries)
    (registry : u.session.registry.Sound) (placed : e.type.Placed) :
    (e.state = .added ∨ e.state = .modified → ∃ s,
      perform Action.accept ⟨e, u.session⟩ = (.ok (), s) ∧ e.Accepted s.entry ∧
      perform Action.detect s = (.ok false, s) ∧ perform Action.accept s = (.ok (), s)) ∧
    (e.state = .deleted → ∃ s,
      perform Action.accept ⟨e, u.session⟩ = (.ok (), s) ∧
      s.entry = { e with state := .unknown } ∧ s.session.tracker.isTracked e.id = false) := by
  have hv := valid_of_reachable h he registry placed
  constructor
  · intro hstate
    obtain ⟨e', hrun, haccepted⟩ := Action.accept_spec hv hstate u.session
    exact ⟨_, hrun, haccepted,
      Action.perform_detect_of_quiet (hv.of_make haccepted.make) (haccepted.quiet hv),
      Action.accept_unchanged haccepted.state⟩
  · intro hstate
    refine ⟨_, Action.accept_deleted hstate u.session, rfl, ?_⟩
    have hstopped : (u.session.tracker.stop e.id).find? e.id = none :=
      Tracker.find?_stop.trans (if_pos rfl)
    rw [Tracker.isTracked, Tracker.state?, ← Tracker.find?, hstopped]
    rfl

theorem accept_makes_clean_parts :
    (Parts.work Parts.moved (Parts.trackedAs .modified)).Reachable ∧ ∃ s,
      perform Action.accept ⟨Parts.moved, (Parts.work Parts.moved (Parts.trackedAs .modified)).session⟩ =
        (.ok (), s) ∧
      s.entry.state = .unchanged ∧ s.entry.baselineValue Parts.whole = .ok (.int 7) ∧
      perform Action.detect s = (.ok false, s) := by
  obtain ⟨hclean, -⟩ := accept_makes_clean (e := Parts.moved) Parts.moved_reachable (.head _)
    Parts.type_fielded.registry ⟨Parts.placed.index, Parts.placed.owner⟩
  obtain ⟨s, hrun, haccepted, hdetect, -⟩ := hclean (.inr rfl)
  refine ⟨Parts.moved_reachable, s, hrun, haccepted.state, ?_, hdetect⟩
  rw [haccepted.baseline Parts.whole rfl]
  rfl

/-- **Detecting changes is exact.** In an unchanged or modified entry it flags the properties whose
primary values differ from their baseline values, and tells whether there was anything new. Values
stay as they are, and detecting changes again changes nothing. -/
theorem detect_flags_differences (h : u.Reachable) (he : e ∈ u.entries)
    (registry : u.session.registry.Sound) (placed : e.type.Placed)
    (hstate : e.state = .unchanged ∨ e.state = .modified) :
    ∃ found s, perform Action.detect ⟨e, u.session⟩ = (.ok found, s) ∧ e.Detected found s.entry ∧
      (∀ p, s.entry.primaryValue p = e.primaryValue p ∧ s.entry.get p = e.get p ∧
        s.entry.baselineValue p = e.baselineValue p) ∧
      perform Action.detect s = (.ok false, s) := by
  have hflags := (inStep_of_reachable h).roster.flags e.id e
    ((inStep_of_reachable h).entryOf_of_mem he)
  obtain ⟨found, s, hrun, hdetected, hagain⟩ := Action.detect_spec (s := ⟨e, u.session⟩)
    (valid_of_reachable h he registry placed) hflags.length hstate
  refine ⟨found, s, hrun, hdetected, fun p => ?_, hagain⟩
  obtain ⟨_, _, _, hframe⟩ := hdetected.frame
  rw [hframe]
  exact ⟨rfl, rfl, rfl⟩

theorem detect_flags_differences_parts :
    let u := Parts.work (Parts.accepted (.int 2) (.int 9)) (Parts.trackedAs .unchanged)
    u.Reachable ∧ ∃ s,
      perform Action.detect ⟨Parts.accepted (.int 2) (.int 9), u.session⟩ = (.ok true, s) ∧
      s.entry.state = .modified ∧ s.entry.isModified Parts.whole = .ok true ∧
      s.entry.baselineValue Parts.whole = .ok (.int 7) ∧
      perform Action.detect s = (.ok false, s) := by
  intro u
  obtain ⟨found, s, hrun, hdetected, hvalues, hagain⟩ :=
    detect_flags_differences (u := u) (e := Parts.accepted (.int 2) (.int 9))
      Parts.accepted_reachable (.head _) Parts.type_fielded.registry
      ⟨Parts.placed.index, Parts.placed.owner⟩ (.inl rfl)
  have hmem : Parts.whole ∈ (Parts.accepted (.int 2) (.int 9)).type.properties := .tail _ (.head _)
  have hdiffers : (Parts.accepted (.int 2) (.int 9)).Differs Parts.whole :=
    ⟨.int 7, .int 9, rfl, rfl, rfl⟩
  have hflag := (hdetected.flags Parts.whole hmem).2 (.inr hdiffers)
  obtain rfl : found = true := hdetected.found_iff.2 ⟨Parts.whole, hmem, .inl ⟨rfl, hflag⟩⟩
  refine ⟨Parts.accepted_reachable, s, hrun, hdetected.modified ⟨Parts.whole, hmem, rfl, hflag⟩, hflag,
    ?_, hagain⟩
  rw [(hvalues Parts.whole).2.2]
  rfl

end UnitOfWork

end EntityMapper
