import EntityMapper.Proofs.Save.Sending
import EntityMapper.Proofs.Tracking.Acceptance

/-!
# Settling entries

After all commands of a save succeeded, their entries are settled one after the other: the values of
an entry's sidecars are committed, and then its changes are accepted (`Entry.Settled`). Only the
commit can fail (`Action.perform_settle`), since a native field may refuse a value.

Settling some entries settles each of them and does nothing to the others
(`Saving.settled_of_perform`).
-/

namespace EntityMapper

open Stepwise

namespace Entry

/-- What has become of an entry that was settled: its values were committed, and its changes
accepted. -/
def Settled (e e' : Entry) : Prop :=
  ∃ e₁ session session', perform Action.commit ⟨e, session⟩ = (.ok (), ⟨e₁, session'⟩) ∧
    if e.state = .deleted then e' = { e₁ with state := .unknown } else e₁.Accepted e'

variable {e e' : Entry}

theorem Settled.make (h : e.Settled e') : e'.make = e.make := by
  obtain ⟨e₁, session, session', hcommit, h⟩ := h
  have hfixes := Action.commit_fixes_make ⟨e, session⟩
  rw [hcommit] at hfixes
  split at h
  · rw [h]
    exact hfixes
  · exact h.make.trans hfixes

/-- A settled entry is unchanged, or unknown if it was deleted. -/
theorem Settled.state (h : e.Settled e') :
    e'.state = if e.state = .deleted then .unknown else .unchanged := by
  obtain ⟨e₁, session, session', hcommit, h⟩ := h
  split at h
  · rename_i hdeleted
    rw [h, if_pos hdeleted]
  · rename_i hkept
    rw [h.state, if_neg hkept]

end Entry

namespace Action

variable {e : Entry}

/-- A valid entry is settled, unless a native field refuses one of its values. -/
theorem perform_settle (hv : e.Valid) {op : Operation} (hop : e.state.operation? = some op)
    (session : Session) :
    (∃ err scope, Stepwise.perform commit ⟨e, session⟩ = (.error err, scope) ∧
      Stepwise.perform settle ⟨e, session⟩ = (.error err, scope)) ∨
    ∃ scope, Stepwise.perform settle ⟨e, session⟩ = (.ok (), scope) ∧ e.Settled scope.entry := by
  have hmake := commit_fixes_make ⟨e, session⟩
  have hstate := state_commit ⟨e, session⟩
  rcases hcommit : Stepwise.perform commit ⟨e, session⟩ with ⟨err | _, ⟨e₁, session₁⟩⟩
  · exact .inl ⟨err, _, rfl, perform_bind_of_error hcommit _⟩
  · rw [hcommit] at hmake hstate
    have hsettle : Stepwise.perform settle ⟨e, session⟩ = Stepwise.perform accept ⟨e₁, session₁⟩ :=
      perform_bind_of_ok hcommit _
    right
    by_cases hdeleted : e.state = .deleted
    · rw [hsettle, accept_deleted (hstate.trans hdeleted) session₁]
      exact ⟨_, rfl, e₁, session, session₁, hcommit, by rw [if_pos hdeleted]⟩
    · have hchanged : e₁.state = .added ∨ e₁.state = .modified := by
        rw [show e₁.state = e.state from hstate]
        exact EntityState.changed_of_operation hop hdeleted
      obtain ⟨e', haccept, haccepted⟩ := accept_spec (hv.of_make hmake) hchanged session₁
      rw [hsettle, haccept]
      exact ⟨_, rfl, e₁, session, session₁, hcommit, by rwa [if_neg hdeleted]⟩

end Action

/-- The entries of a save are well formed, and of different identities. -/
structure SaveScope.Valid (s : SaveScope) : Prop where
  nodup : s.ids.Nodup
  entries : ∀ e ∈ s.entries, e.Valid

namespace Saving

open SaveScope

variable {s s' : SaveScope} {c : Command} {e : Entry}

/-- An entry that a save can settle. -/
structure Pending (s : SaveScope) (c : Command) (e : Entry) : Prop where
  entry : s.entryOf c.entry = some e
  valid : e.Valid
  operation : e.state.operation? = some c.operation

/-- An entry with a command can be settled, also while it holds generated values. -/
theorem pending_of_staged {values : Option (List (Nat × Value))} (hs : s.Valid)
    (he : e ∈ s.entries) (hc : Command.CommandOf e c)
    (h : s'.entryOf e.id = some (e.staged values)) : Pending s' c (e.staged values) where
  entry := hc.entry ▸ h
  valid := (hs.entries e he).of_make make_staged
  operation := by
    rw [state_staged]
    exact hc.operation

theorem perform_settle (h : Pending s c e) :
    (∃ err scope, perform Action.commit ⟨e, s.session⟩ = (.error err, scope) ∧
      perform (settle c) s = (.error err, s.replace scope)) ∨
    ∃ scope, e.Settled scope.entry ∧ perform (settle c) s = (.ok (), s.replace scope) := by
  rw [settle, perform_onEntry h.entry]
  rcases Action.perform_settle h.valid h.operation s.session with
    ⟨err, scope, hcommit, hsettle⟩ | ⟨scope, hsettle, hsettled⟩
  · rw [hsettle]
    exact .inl ⟨err, scope, hcommit, rfl⟩
  · rw [hsettle]
    exact .inr ⟨scope, hsettled, rfl⟩

/-- The lookup after a step on an entry that has kept its identity. -/
theorem entryOf_replace_of_make {scope : Scope} (h : s.entryOf c.entry = some e)
    (hmake : scope.entry.make = e.make) (id : EntryId) : (s.replace scope).entryOf id =
      if id = c.entry then some scope.entry else s.entryOf id := by
  have hid : scope.entry.id = c.entry := (congrArg Make.id hmake).trans (id_of_entryOf h)
  rw [← hid]
  exact entryOf_replace (hid ▸ h)

/-- **Settling entries** settles each of them and does nothing to the others. -/
theorem settled_of_perform {commands : List Command} (hdistinct : (commands.map (·.entry)).Nodup)
    (hpending : ∀ c ∈ commands, ∃ e, Pending s c e)
    (h : perform (commands.forM settle) s = (.ok (), s')) :
    s'.ids = s.ids ∧
    (∀ c ∈ commands, ∀ e, s.entryOf c.entry = some e →
      ∃ e', s'.entryOf c.entry = some e' ∧ e.Settled e') ∧
    ∀ id, id ∉ commands.map (·.entry) → s'.entryOf id = s.entryOf id := by
  induction commands generalizing s with
  | nil =>
    cases h
    exact ⟨rfl, fun c hc => (by cases hc), fun _ _ => rfl⟩
  | cons c commands ih =>
    obtain ⟨hnot, hrest⟩ := List.nodup_cons.1 hdistinct
    obtain ⟨e, he⟩ := hpending c List.mem_cons_self
    rw [perform_forM_cons] at h
    obtain ⟨⟨⟩, s₁, h₁, h₂⟩ := perform_bind_eq_ok_iff.1 h
    rcases perform_settle he with ⟨err, scope, -, hstep⟩ | ⟨scope, hsettled, hstep⟩
    · rw [hstep] at h₁
      cases h₁
    · rw [hstep] at h₁
      cases h₁
      have hlookup := entryOf_replace_of_make he.entry hsettled.make
      have hother : ∀ c' ∈ commands, (s.replace scope).entryOf c'.entry = s.entryOf c'.entry := by
        intro c' hc'
        have hne : c'.entry ≠ c.entry := fun heq => hnot (List.mem_map.2 ⟨c', hc', heq⟩)
        rw [hlookup, if_neg hne]
      have hpending' : ∀ c' ∈ commands, ∃ e, Pending (s.replace scope) c' e := by
        intro c' hc'
        obtain ⟨e', he'⟩ := hpending c' (List.mem_cons_of_mem _ hc')
        exact ⟨e', (hother c' hc').trans he'.entry, he'.valid, he'.operation⟩
      obtain ⟨hids, hdone, hrest⟩ := ih hrest hpending' h₂
      refine ⟨hids.trans ids_replace, fun c' hc' e' he' => ?_, fun id hid => ?_⟩
      · rcases List.mem_cons.1 hc' with rfl | hc'
        · rw [he.entry] at he'
          cases he'
          refine ⟨scope.entry, ?_, hsettled⟩
          rw [hrest _ hnot, hlookup, if_pos rfl]
        · exact hdone c' hc' e' ((hother c' hc').trans he')
      · rw [List.map_cons, List.mem_cons, not_or] at hid
        rw [hrest id hid.2, hlookup, if_neg hid.1]

/-- Once all commands were sent, settling the entries of some of them settles those, and leaves the
others as they are. -/
theorem settled_of_plan {plan : Plan} {commands : List Command}
    {held : EntryId → Option (List (Nat × Value))} {messages : List SentCommand} (hs : s.Valid)
    (hplan : Plan.ofEntries s.entries = .ok plan) (hsub : commands.Sublist plan.commands)
    (h : perform (commands.forM settle) (s.staged held messages) = (.ok (), s')) :
    s'.ids = s.ids ∧
    (∀ c ∈ commands, ∀ e ∈ s.entries, Command.CommandOf e c →
      ∃ e', s'.entryOf e.id = some e' ∧ (e.staged (held e.id)).Settled e') ∧
    ∀ e ∈ s.entries, e.id ∉ commands.map (·.entry) →
      s'.entryOf e.id = some (e.staged (held e.id)) := by
  have hstaged : ∀ e ∈ s.entries,
      (s.staged held messages).entryOf e.id = some (e.staged (held e.id)) := by
    intro e he
    rw [entryOf_staged, entryOf_of_mem hs.nodup he, Option.map_some]
  have hpending : ∀ c ∈ commands, ∃ e, Pending (s.staged held messages) c e := by
    intro c hc
    obtain ⟨e, he, hcommand⟩ := Plan.commandOf_of_mem hplan (hsub.subset hc)
    exact ⟨_, pending_of_staged hs he hcommand (hstaged e he)⟩
  have hdistinct := (Plan.entries_nodup hs.nodup hplan).sublist (hsub.map (·.entry))
  obtain ⟨hids, hsettled, hothers⟩ := settled_of_perform hdistinct hpending h
  refine ⟨hids.trans ids_staged, fun c hc e he hcommand => ?_, fun e he hnot => ?_⟩
  · have hfound : (s.staged held messages).entryOf c.entry = some (e.staged (held e.id)) := by
      rw [hcommand.entry, hstaged e he]
    obtain ⟨e', he', hdone⟩ := hsettled c hc _ hfound
    exact ⟨e', hcommand.entry ▸ he', hdone⟩
  · rw [hothers _ hnot, hstaged e he]

end Saving

end EntityMapper
