import EntityMapper.Proofs.Save.Success

/-!
# Failed saves

A save that fails before it settles entries leaves all of them as they are. But entries are settled
one after the other, and a native field may refuse a value that is committed to it. Then the entries
settled before stay accepted, and what was written of the refusing one stays written:
`Saving.save_keeps_entries_iff` says that a failed save keeps states, flags and primary values
exactly where none of this happens.
-/

namespace EntityMapper

open Stepwise

/-! ## What a failure has to keep -/

/-- The entry is still in its state, with its flags and its primary values. -/
structure Entry.Keeps (e e' : Entry) : Prop where
  state : e'.state = e.state
  modified : e'.modified = e.modified
  primary : ∀ p, e'.primaryValue p = e.primaryValue p

namespace Entry

variable {e e' e'' : Entry}

theorem keeps_refl (e : Entry) : e.Keeps e :=
  ⟨rfl, rfl, fun _ => rfl⟩

theorem Keeps.trans (h : e.Keeps e') (h' : e'.Keeps e'') : e.Keeps e'' :=
  ⟨h'.state.trans h.state, h'.modified.trans h.modified,
    fun p => (h'.primary p).trans (h.primary p)⟩

theorem keeps_rollBack (e : Entry) : e.Keeps e.rollBack :=
  ⟨rfl, rfl, fun _ => rfl⟩

theorem keeps_staged (e : Entry) (values : Option (List (Nat × Value))) :
    e.Keeps (e.staged values) := by
  cases values <;> exact ⟨rfl, rfl, fun _ => rfl⟩

end Entry

/-- Each entry is still in its state, with its flags and its primary values. -/
def SaveScope.Keeps (s s' : SaveScope) : Prop :=
  ∀ e ∈ s.entries, ∃ e', s'.entryOf e.id = some e' ∧ e.Keeps e'

namespace Saving

open SaveScope

variable {d : Dialect} {executor : Executor} {s s' s₁ s₂ : SaveScope} {plan : Plan} {err : Error}
  {before after : List Command} {c : Command} {e : Entry} {scope : Scope}
  {held : EntryId → Option (List (Nat × Value))} {messages : List SentCommand}

/-- A failure while sending keeps the entries. -/
theorem keeps_rollBack_staged (hnodup : s.ids.Nodup) :
    s.Keeps (rollBack (s.staged held messages)) := by
  intro e he
  have hkeeps := (e.keeps_staged (held e.id)).trans (Entry.keeps_rollBack _)
  refine ⟨_, ?_, hkeeps⟩
  rw [entryOf_rollBack, entryOf_staged, entryOf_of_mem hnodup he, Option.map_some, Option.map_some]

/-! ## Failing while entries are settled -/

/-- All commands were sent, the entries of those before `c` were settled, and then a value of the
entry of `c` could not be written, after some others were. -/
structure FailsSettling (d : Dialect) (executor : Executor) (s : SaveScope) (before : List Command)
    (c : Command) (s₂ : SaveScope) (e : Entry) (scope : Scope) : Prop where
  reached : ∃ plan after s₁, Plan.ofEntries s.entries = .ok plan ∧
    plan.commands = before ++ c :: after ∧
    perform (execute d executor plan.commands) s = (.ok (), s₁) ∧
    perform (before.forM settle) s₁ = (.ok (), s₂)
  entry : s₂.entryOf c.entry = some e
  refused : ∃ written pair rest err, e.pending = written ++ pair :: rest ∧
    perform (written.forM Action.commitPair) ⟨e.rollBack, s₂.session⟩ = (.ok (), scope) ∧
    scope.entry.putPrimary pair.1 pair.2 = .error err

/-- Sending leaves the entries as they are, but for generated values. -/
theorem staged_of_execute (hnodup : s.ids.Nodup) (hplan : Plan.ofEntries s.entries = .ok plan)
    (h : perform (execute d executor plan.commands) s = (.ok (), s₁)) :
    ∃ held messages, s₁ = s.staged held messages := by
  rcases perform_plan d executor hnodup hplan with
    ⟨exchanges, held, hexecuted⟩ | ⟨exchanges, c, last, err, hstopped⟩
  · rw [hexecuted.run] at h
    cases h
    exact ⟨held, _, rfl⟩
  · obtain ⟨held, hrun⟩ := hstopped.run
    rw [hrun] at h
    cases h

/-- The entry of the next command is not among those settled before. -/
theorem entry_notMem_before (hnodup : s.ids.Nodup) (hplan : Plan.ofEntries s.entries = .ok plan)
    (hcommands : plan.commands = before ++ c :: after) : c.entry ∉ before.map (·.entry) := by
  have hdistinct := Plan.entries_nodup hnodup hplan
  rw [hcommands, List.map_append, List.map_cons, List.nodup_middle, List.nodup_cons,
    List.mem_append, not_or] at hdistinct
  exact hdistinct.1.1

namespace FailsSettling

theorem commit_error (h : FailsSettling d executor s before c s₂ e scope) :
    ∃ err, perform Action.commit ⟨e, s₂.session⟩ = (.error err, scope) := by
  obtain ⟨written, pair, rest, err, hpending, hwritten, hput⟩ := h.refused
  exact ⟨err, Action.perform_commit_eq_error_iff.2 ⟨written, pair, rest, hpending, hwritten, hput⟩⟩

theorem make (h : FailsSettling d executor s before c s₂ e scope) :
    scope.entry.make = e.make := by
  obtain ⟨err, hcommit⟩ := h.commit_error
  have hfixes := Action.commit_fixes_make ⟨e, s₂.session⟩
  rwa [hcommit] at hfixes

theorem state (h : FailsSettling d executor s before c s₂ e scope) :
    scope.entry.state = e.state := by
  obtain ⟨err, hcommit⟩ := h.commit_error
  have hstate := Action.state_commit ⟨e, s₂.session⟩
  rwa [hcommit] at hstate

theorem modified (h : FailsSettling d executor s before c s₂ e scope) :
    scope.entry.modified = e.modified := by
  obtain ⟨err, hcommit⟩ := h.commit_error
  have hmodified := Action.modified_commit ⟨e, s₂.session⟩
  rwa [hcommit] at hmodified

theorem entryOf_left (h : FailsSettling d executor s before c s₂ e scope) (id : EntryId) :
    (rollBack (s₂.replace scope)).entryOf id =
      if id = c.entry then some scope.entry.rollBack else (s₂.entryOf id).map (·.rollBack) := by
  rw [entryOf_rollBack, entryOf_replace_of_make h.entry h.make]
  split <;> rfl

/-- The save fails, and this is what it leaves. -/
theorem save_error (h : FailsSettling d executor s before c s₂ e scope) :
    ∃ err, save d executor s = (.error err, rollBack (s₂.replace scope)) := by
  obtain ⟨plan, after, s₁, hplan, hcommands, hexecute, hbefore⟩ := h.reached
  obtain ⟨err, hcommit⟩ := h.commit_error
  have hsettle : perform (settle c) s₂ = (.error err, s₂.replace scope) := by
    rw [settle, perform_onEntry h.entry, Action.settle, perform_bind_of_error hcommit]
  refine ⟨err, ?_⟩
  rw [save_of_execute_ok hplan hexecute, hcommands, perform_forM_of_error hbefore hsettle]

/-- What was settled before is in another state; the other entries are as they were when the
commands had been sent. -/
theorem before_spec (hs : s.Valid) (h : FailsSettling d executor s before c s₂ e scope) :
    (∀ c' ∈ before, ∃ e₁ ∈ s.entries, e₁.id ≠ c.entry ∧
      ∃ e', s₂.entryOf e₁.id = some e' ∧ e'.state ≠ e₁.state) ∧
    ∀ e₁ ∈ s.entries, e₁.id ∉ before.map (·.entry) →
      ∃ values, s₂.entryOf e₁.id = some (e₁.staged values) := by
  obtain ⟨plan, after, s₁, hplan, hcommands, hexecute, hbefore⟩ := h.reached
  obtain ⟨held, messages, rfl⟩ := staged_of_execute hs.nodup hplan hexecute
  have hsub : before.Sublist plan.commands := hcommands ▸ List.sublist_append_left ..
  obtain ⟨-, hsettled, hothers⟩ := settled_of_plan hs hplan hsub hbefore
  refine ⟨fun c' hc' => ?_, fun e₁ he₁ hnot => ⟨held e₁.id, hothers e₁ he₁ hnot⟩⟩
  obtain ⟨e₁, he₁, hc₁⟩ := Plan.commandOf_of_mem hplan (hsub.subset hc')
  obtain ⟨e', he', hdone⟩ := hsettled c' hc' e₁ he₁ hc₁
  refine ⟨e₁, he₁, fun heq => ?_, e', he', fun heq => ?_⟩
  · refine entry_notMem_before hs.nodup hplan hcommands (List.mem_map.2 ⟨c', hc', ?_⟩)
    exact hc₁.entry.trans heq
  · -- A state that settling leaves asks for no command.
    have hop := hc₁.operation
    rw [← heq, hdone.state] at hop
    split at hop <;> cases hop

/-- A failure while settling keeps the entries only if nothing was settled or written before. -/
theorem keeps_iff (hs : s.Valid) (h : FailsSettling d executor s before c s₂ e scope) :
    s.Keeps (rollBack (s₂.replace scope)) ↔
      before = [] ∧ ∀ p, scope.entry.primaryValue p = e.primaryValue p := by
  obtain ⟨hsettled, hothers⟩ := h.before_spec hs
  constructor
  · intro hkeeps
    have hnil : before = [] := by
      refine List.eq_nil_iff_forall_not_mem.2 fun c' hc' => ?_
      obtain ⟨e₁, he₁, hne, e', he', hstate⟩ := hsettled c' hc'
      obtain ⟨e'', he'', hkeep⟩ := hkeeps e₁ he₁
      rw [h.entryOf_left, if_neg hne, he', Option.map_some] at he''
      cases he''
      exact hstate hkeep.state
    refine ⟨hnil, fun p => ?_⟩
    obtain ⟨plan, after, s₁, hplan, hcommands, -, -⟩ := h.reached
    obtain ⟨e₁, he₁, hc₁⟩ := Plan.commandOf_of_mem hplan
      (hcommands ▸ List.mem_append_right _ List.mem_cons_self)
    obtain ⟨values, hstaged⟩ := hothers e₁ he₁ (by simp [hnil])
    rw [← hc₁.entry, h.entry] at hstaged
    cases hstaged
    obtain ⟨e', he', hkeep⟩ := hkeeps e₁ he₁
    rw [h.entryOf_left, if_pos hc₁.entry.symm] at he'
    cases he'
    exact (hkeep.primary p).trans ((e₁.keeps_staged values).primary p).symm
  · rintro ⟨rfl, hprimary⟩ e₁ he₁
    obtain ⟨values, hstaged⟩ := hothers e₁ he₁ (by simp)
    rw [h.entryOf_left]
    by_cases hid : e₁.id = c.entry
    · rw [if_pos hid]
      rw [hid, h.entry] at hstaged
      cases hstaged
      have hkeeps : (e₁.staged values).Keeps scope.entry := ⟨h.state, h.modified, hprimary⟩
      exact ⟨_, rfl, ((e₁.keeps_staged values).trans hkeeps).trans scope.entry.keeps_rollBack⟩
    · rw [if_neg hid, hstaged]
      exact ⟨_, rfl, (e₁.keeps_staged values).trans (Entry.keeps_rollBack _)⟩

end FailsSettling

/-! ## What a failed save keeps -/

/-- Settling fails where a commit fails. -/
theorem failsSettling_of_error (hs : s.Valid) (hplan : Plan.ofEntries s.entries = .ok plan)
    (hexecute : perform (execute d executor plan.commands) s = (.ok (), s.staged held messages))
    (hsettle : perform (plan.commands.forM settle) (s.staged held messages) = (.error err, s₁)) :
    ∃ before c s₂ e scope, FailsSettling d executor s before c s₂ e scope ∧
      s₁ = s₂.replace scope := by
  obtain ⟨before, c, after, s₂, hcommands, hbefore, hc⟩ := perform_forM_eq_error hsettle
  have hsub : before.Sublist plan.commands := hcommands ▸ List.sublist_append_left ..
  obtain ⟨-, -, hothers⟩ := settled_of_plan hs hplan hsub hbefore
  have hmem : c ∈ plan.commands := hcommands ▸ List.mem_append_right _ List.mem_cons_self
  obtain ⟨e, he, hcommand⟩ := Plan.commandOf_of_mem hplan hmem
  have hnot : e.id ∉ before.map (·.entry) :=
    hcommand.entry ▸ entry_notMem_before hs.nodup hplan hcommands
  have hpending := pending_of_staged hs he hcommand (hothers e he hnot)
  rcases perform_settle hpending with ⟨err', scope, hcommit, hrun⟩ | ⟨scope, -, hrun⟩
  · rw [hc] at hrun
    cases hrun
    obtain ⟨written, pair, rest, hrefused⟩ := Action.perform_commit_eq_error_iff.1 hcommit
    exact ⟨before, c, s₂, _, scope, ⟨⟨plan, after, _, hplan, hcommands, hexecute, hbefore⟩,
      hpending.entry, written, pair, rest, err, hrefused⟩, rfl⟩
  · rw [hc] at hrun
    cases hrun

/-- A save that fails keeps the entries, or fails while it settles them. -/
theorem keeps_or_failsSettling (hs : s.Valid) (h : save d executor s = (.error err, s')) :
    s.Keeps s' ∨ ∃ before c s₂ e scope, FailsSettling d executor s before c s₂ e scope ∧
      s' = rollBack (s₂.replace scope) := by
  cases hplan : Plan.ofEntries s.entries with
  | error err =>
    rw [save_of_plan_error hplan] at h
    cases h
    exact .inl fun e he => ⟨e, entryOf_of_mem hs.nodup he, e.keeps_refl⟩
  | ok plan =>
    rcases perform_plan d executor hs.nodup hplan with
      ⟨exchanges, held, hexecuted⟩ | ⟨exchanges, c, last, err, hstopped⟩
    · rw [save_of_execute_ok hplan hexecuted.run] at h
      rcases hsettle : perform (plan.commands.forM settle)
        (s.staged held (exchanges.map (·.message))) with ⟨err | _, s₃⟩
      · rw [hsettle] at h
        cases h
        obtain ⟨before, c, s₂, e, scope, hfails, rfl⟩ :=
          failsSettling_of_error hs hplan hexecuted.run hsettle
        exact .inr ⟨before, c, s₂, e, scope, hfails, rfl⟩
      · rw [hsettle] at h
        cases h
    · obtain ⟨held, hrun⟩ := hstopped.run
      rw [save_of_execute_error hplan hrun] at h
      cases h
      exact .inl (keeps_rollBack_staged hs.nodup)

/-- **What a failed save keeps.** A save that fails keeps the states, flags and primary values of
all entries, unless it fails while it settles them. Then it keeps them exactly if no entry was
settled before, and no value of the refused entry was changed. -/
theorem save_keeps_entries_iff (hs : s.Valid) (h : save d executor s = (.error err, s')) :
    s.Keeps s' ↔ ∀ before c s₂ e scope, FailsSettling d executor s before c s₂ e scope →
      before = [] ∧ ∀ p, scope.entry.primaryValue p = e.primaryValue p := by
  constructor
  · intro hkeeps before c s₂ e scope hfails
    obtain ⟨err', hsave⟩ := hfails.save_error
    rw [h] at hsave
    cases hsave
    exact (hfails.keeps_iff hs).1 hkeeps
  · intro hnothing
    rcases keeps_or_failsSettling hs h with hkeeps | ⟨before, c, s₂, e, scope, hfails, rfl⟩
    · exact hkeeps
    · exact (hfails.keeps_iff hs).2 (hnothing before c s₂ e scope hfails)

end Saving

/-! ## An example -/

/-- A store that takes every row, and returns keys that soon need more than 32 bits. -/
def People.growing : Executor := fun sent =>
  .ok (.rows [[.bigInt (if sent.length = 1 then 7 else 0x100000000)]])

namespace Saving

open People

theorem save_keeps_entries_iff_people : (People.scope .int32).Valid ∧
    ∃ err s', save .sqlite growing (People.scope .int32) = (.error err, s') ∧
      ¬ (People.scope .int32).Keeps s' ∧
      ∃ before c s₂ e scope,
        FailsSettling .sqlite growing (People.scope .int32) before c s₂ e scope := by
  have hs := scope_valid .int32
  have hfails : (save .sqlite growing (People.scope .int32)).1.isOk = false := by
    rw [save, plan_scope]
    decide +kernel
  have haccepted : ((save .sqlite growing (People.scope .int32)).2.entryOf ⟨1⟩).map (·.state) =
      some .unchanged := by
    rw [save, plan_scope]
    decide +kernel
  rcases hsave : save .sqlite growing (People.scope .int32) with ⟨err | counts, s'⟩
  · rw [hsave] at haccepted
    have hnot : ¬ (People.scope .int32).Keeps s' := by
      intro hkeeps
      obtain ⟨e', he', hkeep⟩ := hkeeps (added 1 .int32) List.mem_cons_self
      have hlookup : s'.entryOf ⟨1⟩ = some e' := he'
      rw [hlookup, Option.map_some, hkeep.state] at haccepted
      cases haccepted
    refine ⟨hs, err, s', rfl, hnot, ?_⟩
    by_contra hnever
    refine hnot ((save_keeps_entries_iff hs hsave).2 fun before c s₂ e scope hf => ?_)
    exact absurd ⟨before, c, s₂, e, scope, hf⟩ hnever
  · rw [hsave] at hfails
    cases hfails

end Saving

end EntityMapper
