import EntityMapper.Proofs.Tracking.Acceptance

/-!
# Entries with baseline values only

Unless its user attaches others, an entry has no sidecars but the one for baseline values
(`Entry.OnlyBaseline`). Such an entry shows its primary values (`Entry.OnlyBaseline.get`), and
committing and accepting keep it of that kind (`Entry.OnlyBaseline.of_commit`,
`Entry.OnlyBaseline.of_accepted`). Accepting makes it clean (`Entry.Accepted.clean`).
-/

namespace EntityMapper

open Stepwise

namespace Entry

/-- All sidecars of an entry are of the kind that the library makes for baseline values. -/
def OnlyBaseline (e : Entry) : Prop :=
  ∀ t ∈ e.sidecars, ∃ values, t = Sidecar.baselineWith e.type.properties values

variable {e e' e₁ : Entry} {p : Property} {values : List (Nat × Value)}
  {session session' : Session}

theorem OnlyBaseline.notCommitted (h : e.OnlyBaseline) :
    ∀ t ∈ e.sidecars, t.autoCommit = false ∧ t.name ≠ Sidecar.generatedName := by
  intro t ht
  have hne : Sidecar.baselineName ≠ Sidecar.generatedName := by decide
  obtain ⟨values, rfl⟩ := h t ht
  exact ⟨rfl, hne⟩

/-- Such an entry shows its primary values. -/
theorem OnlyBaseline.get (h : e.OnlyBaseline) (howns : e.type.owns p = true) :
    e.get p = e.primaryValue p := by
  have howned : e.requireOwned p = .ok () := if_pos howns
  have hoverlay : e.overlay? p = none := by
    refine List.findSome?_eq_none_iff.2 fun t ht => ?_
    obtain ⟨values, rfl⟩ := h t ht
    rfl
  rw [Entry.get, howned, hoverlay]
  rfl

/-- What is written when the generated values of such an entry are committed. -/
theorem OnlyBaseline.pending_holding (h : e.OnlyBaseline) :
    (e.holding values).pending = (generatedWith e.type values).stored := by
  have hnot : e.sidecars.filter (·.autoCommit) = [] :=
    List.filter_eq_nil_iff.2 fun t ht => by simp [(h.notCommitted t ht).1]
  rw [pending, holding, attach, attachTo_of_notMem fun t ht => (h.notCommitted t ht).2,
    List.filter_append, hnot]
  simp [generatedWith, Sidecar.generated]

theorem OnlyBaseline.rollBack_holding (h : e.OnlyBaseline) : (e.holding values).rollBack = e :=
  (Entry.rollBack_holding fun t ht => (h.notCommitted t ht).2).trans
    (rollBack_eq fun t ht => (h.notCommitted t ht).1)

theorem OnlyBaseline.sidecar?_generated (h : e.OnlyBaseline) :
    e.sidecar? Sidecar.generatedName = none :=
  List.find?_eq_none.2 fun t ht => by simp [(h.notCommitted t ht).2]

/-! ## Committing and accepting -/

/-- Committing leaves the sidecars of an entry with generated values as they were before those. -/
theorem OnlyBaseline.of_commit (h : e.OnlyBaseline)
    (hcommit : perform Action.commit ⟨e.holding values, session⟩ = (.ok (), ⟨e₁, session'⟩)) :
    e₁.OnlyBaseline := by
  have hframe := Action.frame_commit ⟨e.holding values, session⟩
  rw [hcommit] at hframe
  dsimp only at hframe
  rw [h.rollBack_holding] at hframe
  have hsidecars := congrArg Entry.sidecars hframe
  have htype := congrArg Entry.type hframe
  simp only [frame] at hsidecars htype
  intro t ht
  rw [hsidecars] at ht
  rw [htype]
  exact h t ht

/-- Accepting keeps the sidecars of that kind. -/
theorem OnlyBaseline.of_accepted (h : e.OnlyBaseline) (ha : e.Accepted e') : e'.OnlyBaseline := by
  intro t ht
  have htype : e'.type = e.type := congrArg Make.type ha.make
  rw [htype]
  rcases ha.sidecars t ht with ht | ⟨b, hb, rfl⟩ | ⟨values, rfl⟩
  · exact h t ht
  · obtain ⟨values, rfl⟩ := h b hb
    exact ⟨[], rfl⟩
  · exact ⟨values, rfl⟩

/-- An entry without pending changes: its values are its baseline, and in relationships the last
ones seen. -/
structure Clean (e : Entry) : Prop where
  modified : ∀ flag ∈ e.modified, flag = false
  baseline : ∀ p, e.type.owns p = true → ∃ v, e.get p = .ok v ∧ e.baselineValue p = .ok v
  snapshot : ∀ p, e.type.owns p = true → e.type.inRelationship p = true →
    ∃ v, e.get p = .ok v ∧ e.snapshotValue p = .ok v

/-- Accepting leaves no pending changes. -/
theorem Accepted.clean (ha : e.Accepted e') (hv : e.Valid) (hbase : e.OnlyBaseline) : e'.Clean := by
  have htype : e'.type = e.type := congrArg Make.type ha.make
  have hget : ∀ p, e.type.owns p = true → e'.get p = e.primaryValue p := fun p howns =>
    ((hbase.of_accepted ha).get (htype ▸ howns)).trans (ha.primary p)
  refine ⟨ha.modified, fun p howns => ?_, fun p howns hrel => ?_⟩
  · rw [htype] at howns
    obtain ⟨v, hvalue⟩ := hv.primaryValue_ok p
    exact ⟨v, (hget p howns).trans hvalue, (ha.baseline p howns).trans hvalue⟩
  · rw [htype] at howns hrel
    obtain ⟨v, hvalue⟩ := hv.primaryValue_ok p
    exact ⟨v, (hget p howns).trans hvalue, (ha.snapshot p howns hrel).trans hvalue⟩

end Entry

end EntityMapper
