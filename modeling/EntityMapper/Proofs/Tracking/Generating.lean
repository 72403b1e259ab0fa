import EntityMapper.Proofs.Tracking.Refusal

/-!
# Generating values that fails

An unknown entry that is added gets its generated values first, one property after the other, and
each value is written before the next one is asked for. No other change of state can fail
(`Action.setState_error_cases`).

Where that fails, the entry is still unknown, with the flags that it had, and its session has the
tracked set that it had (`Action.setState_keeps_tracking`). The values that were generated before
stay, however. So the current values are as they were if the entity type has a single property that
is generated by the client (`Action.get_of_setState_error`).
-/

namespace EntityMapper

open Stepwise

namespace Entry

variable {e : Entry} {p : Property} {c : Value}

/-- No sidecar for baseline values is one that reads see through; the one that the library makes never
is. -/
def BaselineHidden (e : Entry) : Prop :=
  ∀ t ∈ e.sidecars, t.name = Sidecar.baselineName → t.transparentRead = false

theorem BaselineHidden.not_captureShows (h : e.BaselineHidden) : ¬ e.CaptureShows p c := by
  rintro ⟨⟨before, b, after, hsidecars, hname, -, hread, -⟩, -⟩
  have hmem : b ∈ e.sidecars := by simp [hsidecars]
  rw [h b hmem hname] at hread
  cases hread

end Entry

/-- A scope and the same one after values were drawn and written: state and flags are as they were,
and so is the session, but for the generators. -/
structure Scope.Drawn (s s' : Scope) : Prop where
  state : s'.entry.state = s.entry.state
  modified : s'.entry.modified = s.entry.modified
  session : s'.session = { s.session with generators := s'.session.generators }

theorem Scope.Drawn.refl (s : Scope) : s.Drawn s := ⟨rfl, rfl, rfl⟩

namespace Action

variable {s s' s₀ : Scope} {p : Property} {v : Value} {err : Error} {target : EntityState}

/-! ## What stays -/

theorem update_keeps_drawn {g : Entry → Result Entry} (h : ∀ e e', g e = .ok e' → e.Revalued e') :
    Keeps s₀.Drawn (update g) := by
  intro s hs
  rw [perform_update]
  cases hg : g s.entry with
  | error err => exact hs
  | ok e =>
    have hvalues := h _ _ hg
    exact ⟨hvalues.state.trans hs.state, hvalues.modified.trans hs.modified, hs.session⟩

theorem modifyEntry_keeps_drawn {g : Entry → Entry} (h : ∀ e : Entry, e.Revalued (g e)) :
    Keeps s₀.Drawn (modifyEntry g) :=
  update_keeps_drawn fun e _ he => Except.ok.inj he ▸ h e

theorem choose_keeps_drawn (p : Property) : Keeps s₀.Drawn (choose p) := by
  intro s hs
  rw [choose, perform_mk]
  split
  · exact ⟨hs.state, hs.modified, by rw [hs.session]⟩
  · exact hs

theorem draw_keeps_drawn (id : GeneratorId) (p : Property) : Keeps s₀.Drawn (draw id p) :=
  fun _ hs => ⟨hs.state, hs.modified, by rw [draw, perform_mk, hs.session]⟩

/-- Writing to an unknown entry flags nothing. -/
theorem perform_flagWritten_of_unknown (h : s.entry.state = .unknown) :
    Stepwise.perform (flagWritten p) s = (.ok (), s) := by
  rw [flagWritten, perform_bind, perform_read]
  dsimp only
  rw [if_neg (by simp [h])]
  rfl

section Unknown

variable (hunknown : s₀.entry.state = .unknown)
include hunknown

theorem write_keeps_drawn (p : Property) (v : Value) : Keeps s₀.Drawn (write p v) := by
  have hflag : Keeps s₀.Drawn (flagWritten p) := by
    intro s hs
    rw [perform_flagWritten_of_unknown (hs.state.trans hunknown)]
    exact hs
  have hnote : Keeps s₀.Drawn
      (modifyEntry fun e => if e.type.inRelationship p then e.recordSnapshot p v else e) := by
    refine modifyEntry_keeps_drawn fun e => ?_
    rw [Entry.noted_eq]
    exact ⟨rfl, rfl, rfl⟩
  refine (keeps_read _).bind fun current => Keeps.ite (keeps_pure _) ?_
  exact (update_keeps_drawn fun _ _ => Entry.captureBaseline_revalued).bind fun _ =>
    hnote.bind fun _ => (update_keeps_drawn fun _ _ => Entry.putPrimary_revalued).bind fun _ => hflag

theorem set_keeps_drawn (p : Property) (v : Value) : Keeps s₀.Drawn (set p v) := by
  refine (keeps_read _).bind fun _ => (keeps_read _).bind fun v => (keeps_read _).bind fun e => ?_
  split
  · refine update_keeps_drawn fun e e' h => ?_
    obtain ⟨s, -, h⟩ := Result.bind_eq_ok_iff.1 h
    cases h
    exact e.revalued_sidecars _
  · exact write_keeps_drawn hunknown p v

theorem generate_keeps_drawn (p : Property) : Keeps s₀.Drawn (generate p) := by
  refine Keeps.ite ((keeps_read _).bind fun current => Keeps.ite ?_ (keeps_pure _)) (keeps_pure _)
  exact (choose_keeps_drawn p).bind fun id => (draw_keeps_drawn id p).bind fun v =>
    set_keeps_drawn hunknown p v

end Unknown

/-- Of all changes of state only the one from unknown to added can fail, in generating values. -/
theorem setState_error_cases (h : Stepwise.perform (setState target) s = (.error err, s')) :
    s.entry.state = .unknown ∧
      Stepwise.perform (s.entry.type.properties.forM generate) s = (.error err, s') := by
  by_cases hsame : s.entry.state = entered s.entry.state target
  · rw [perform_setState_self hsame] at h
    cases h
  rw [perform_setState hsame] at h
  split at h
  · rename_i hnew
    refine ⟨hnew.1, ?_⟩
    rcases hrun : Stepwise.perform (s.entry.type.properties.forM generate) s with ⟨err' | _, s₁⟩
    · rw [hrun] at h
      exact h
    · rw [hrun] at h
      cases h
  · cases h

/-- **A failed change of state** keeps the state, the flags, and the session with its tracked set, up to
the values that were drawn. -/
theorem setState_keeps_tracking (h : Stepwise.perform (setState target) s = (.error err, s')) :
    s.Drawn s' := by
  obtain ⟨hunknown, hrun⟩ := setState_error_cases h
  have hkeeps : Keeps s.Drawn (s.entry.type.properties.forM generate) :=
    Keeps.forM fun p _ => generate_keeps_drawn hunknown p
  have hdrawn := hkeeps s (.refl s)
  rwa [hrun] at hdrawn

/-! ## What does not -/

theorem perform_generate_of_not (h : p.clientGenerated = false) (s : Scope) :
    Stepwise.perform (generate p) s = (.ok (), s) := by
  rw [generate, h]
  rfl

theorem perform_generates_of_not {properties : List Property}
    (h : ∀ p ∈ properties, p.clientGenerated = false) (s : Scope) :
    Stepwise.perform (properties.forM generate) s = (.ok (), s) := by
  induction properties with
  | nil => rfl
  | cons p properties ih =>
    obtain ⟨hp, hrest⟩ := List.forall_mem_cons.1 h
    rw [perform_forM_cons, perform_bind_of_ok (perform_generate_of_not hp s), ih hrest]

theorem entry_choose (s : Scope) : (Stepwise.perform (choose p) s).2.entry = s.entry := by
  rw [choose, perform_mk]
  split <;> rfl

theorem entry_draw (id : GeneratorId) (s : Scope) :
    (Stepwise.perform (draw id p) s).2.entry = s.entry := rfl

/-- Generating the value of a property fails with the entry as it was, or with a refusal. -/
theorem generate_error_cases (h : Stepwise.perform (generate p) s = (.error err, s')) :
    p.clientGenerated = true ∧ (s'.entry = s.entry ∨
      ∃ v w c, s.entry.Refuses p v w c ∧ s'.entry = s.entry.afterRefusal p w c) := by
  cases hgenerated : p.clientGenerated with
  | false =>
    rw [perform_generate_of_not hgenerated] at h
    cases h
  | true =>
  refine ⟨rfl, ?_⟩
  rw [generate, if_pos hgenerated, perform_bind, perform_read] at h
  cases hget : s.entry.get p with
  | error err' =>
    rw [hget] at h
    cases h
    exact .inl rfl
  | ok current =>
  rw [hget] at h
  dsimp only at h
  split at h
  · have hchosen := entry_choose (p := p) s
    rcases hchoose : Stepwise.perform (choose p) s with ⟨err' | id, s₁⟩
    · rw [perform_bind_of_error hchoose] at h
      cases h
      rw [hchoose] at hchosen
      exact .inl hchosen
    rw [hchoose] at hchosen
    rw [perform_bind_of_ok hchoose] at h
    have hdrawn := (entry_draw (p := p) id s₁).trans hchosen
    rcases hdraw : Stepwise.perform (draw id p) s₁ with ⟨err' | v, s₂⟩
    · rw [perform_bind_of_error hdraw] at h
      cases h
      rw [hdraw] at hdrawn
      exact .inl hdrawn
    rw [hdraw] at hdrawn
    rw [perform_bind_of_ok hdraw] at h
    rcases set_error_cases h with ⟨-, rfl⟩ | ⟨w, c, hr, rfl⟩
    · exact .inl hdrawn
    · rw [hdrawn] at hr
      exact .inr ⟨v, w, c, hr, by rw [hdrawn]⟩
  · cases h

/-- Where an entity type has a single property that is generated by the client, **a failed change of
state changes no current value**. -/
theorem get_of_setState_error (hone : s.entry.type.properties.countP (·.clientGenerated) ≤ 1)
    (hhidden : s.entry.BaselineHidden)
    (h : Stepwise.perform (setState target) s = (.error err, s')) (q : Property) :
    s'.entry.get q = s.entry.get q := by
  obtain ⟨-, hrun⟩ := setState_error_cases h
  obtain ⟨before, p, after, s₁, hproperties, hbefore, hp⟩ := perform_forM_eq_error hrun
  obtain ⟨hgenerated, hentry⟩ := generate_error_cases hp
  -- the property that fails is the only one to be generated, so nothing was written before
  have hnone : ∀ r ∈ before, r.clientGenerated = false := by
    rw [hproperties, List.countP_append, List.countP_cons, if_pos hgenerated] at hone
    have hzero : before.countP (·.clientGenerated) = 0 := by omega
    simpa using List.countP_eq_zero.1 hzero
  rw [perform_generates_of_not hnone] at hbefore
  cases hbefore
  rcases hentry with hsame | ⟨v, w, c, hr, hrefused⟩
  · rw [hsame]
  · rw [hrefused]
    exact Entry.get_afterRefusal hr hhidden.not_captureShows q

end Action

end EntityMapper
