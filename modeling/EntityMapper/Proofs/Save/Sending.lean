import EntityMapper.Proofs.Save.Exchange

/-!
# Sending a plan

`Saving.perform_execute` says what the phase of sending does: it goes through, and entries hold what
was returned for them, or it stops at a command that fails. `Saving.save_sends_until_failure` is
what follows for a save: which commands it sends, what it answers, and that a failure while sending
leaves all entries as they were.
-/

namespace EntityMapper

open Stepwise

namespace Saving

open SaveScope Command

variable {d : Dialect} {executor : Executor} {s : SaveScope} {e : Entry} {c : Command}
  {held : EntryId → Option (List (Nat × Value))} {messages : List SentCommand}
  {values : List (Nat × Value)}

/-! ## Runs of commands -/

/-- A command is carried out and holds what was returned, or it fails. -/
theorem perform_runCommand (hnodup : s.ids.Nodup) (he : e ∈ s.entries) (hc : CommandOf e c)
    (hheld : held c.entry = some values) (messages : List SentCommand) :
    (∃ x : Exchange, x.command = c ∧ CarriedOut d executor (s.sent ++ messages) [x] ∧
      perform (runCommand d executor c) (s.staged held messages) = (.ok (), s.staged
        (Function.update held c.entry (some (withGenerated values c.reads x.generated)))
        (messages ++ [x.message]))) ∨
    ∃ last err held', FailsAt d executor (s.sent ++ messages) c last err ∧
      perform (runCommand d executor c) (s.staged held messages) =
        (.error err, s.staged held' (messages ++ last)) := by
  cases hm : c.message d with
  | error err =>
    refine .inr ⟨[], err, held, .unwritten hm, ?_⟩
    rw [perform_runCommand_unwritten hm, List.append_nil]
  | ok m =>
    rw [perform_runCommand_written hm]
    have hsend : perform (send executor m) (s.staged held messages) = _ := perform_send m
    cases ha : executor (s.sent ++ messages ++ [m]) with
    | error err =>
      rw [ha] at hsend
      rw [perform_bind_of_error hsend]
      exact .inr ⟨[m], err, held, .unanswered hm ha, rfl⟩
    | ok answer =>
      rw [ha] at hsend
      rw [perform_bind_of_ok hsend]
      rcases perform_take hnodup he hc hheld m.text answer (messages ++ [m]) with
        ⟨ws, haccepts, hrun⟩ | ⟨err, held', hrefuses, hrun⟩
      · exact .inl ⟨⟨c, m, answer, ws⟩, rfl, .cons hm ha haccepts .nil, hrun⟩
      · exact .inr ⟨[m], err, held', .refused hm ha hrefuses, hrun⟩

/-- What a run of commands comes to: all are carried out, and each entry holds what was returned
for it. -/
structure RanThrough (d : Dialect) (executor : Executor) (s : SaveScope)
    (held held' : EntryId → Option (List (Nat × Value))) (messages : List SentCommand)
    (commands : List Command) (exchanges : List Exchange) : Prop where
  sends : exchanges.map (·.command) = commands
  carriedOut : CarriedOut d executor (s.sent ++ messages) exchanges
  run : perform (commands.forM (runCommand d executor)) (s.staged held messages) =
    (.ok (), s.staged held' (messages ++ exchanges.map (·.message)))
  received : ∀ x ∈ exchanges,
    held' x.command.entry = some (withGenerated [] x.command.reads x.generated)
  others : ∀ id, id ∉ commands.map (·.entry) → held' id = held id

/-- What a run of commands comes to otherwise: it ends at one that fails. -/
structure RanInto (d : Dialect) (executor : Executor) (s : SaveScope)
    (held held' : EntryId → Option (List (Nat × Value))) (messages : List SentCommand)
    (commands : List Command) (exchanges : List Exchange) (c : Command) (last : List SentCommand)
    (err : Error) : Prop where
  sends : ∃ after, commands = exchanges.map (·.command) ++ c :: after
  carriedOut : CarriedOut d executor (s.sent ++ messages) exchanges
  fails : FailsAt d executor (s.sent ++ messages ++ exchanges.map (·.message)) c last err
  run : perform (commands.forM (runCommand d executor)) (s.staged held messages) =
    (.error err, s.staged held' (messages ++ exchanges.map (·.message) ++ last))

/-- **A run of commands** carries all of them out, or it ends at one that fails. -/
theorem perform_runCommands {commands : List Command} (hnodup : s.ids.Nodup)
    (hmade : ∀ c ∈ commands, ∃ e ∈ s.entries, CommandOf e c)
    (hdistinct : (commands.map (·.entry)).Nodup) (hheld : ∀ c ∈ commands, held c.entry = some [])
    (messages : List SentCommand) :
    (∃ exchanges held', RanThrough d executor s held held' messages commands exchanges) ∨
    ∃ exchanges c last err held',
      RanInto d executor s held held' messages commands exchanges c last err := by
  induction commands generalizing held messages with
  | nil =>
    refine .inl ⟨[], held, rfl, .nil, ?_, fun x hx => (by cases hx), fun _ _ => rfl⟩
    rw [List.map_nil, List.append_nil]
    rfl
  | cons c commands ih =>
    obtain ⟨e, he, hc⟩ := hmade c List.mem_cons_self
    obtain ⟨hnot, hrest⟩ := List.nodup_cons.1 hdistinct
    rcases perform_runCommand hnodup he hc (hheld c List.mem_cons_self) messages with
      ⟨x, rfl, hx, hrun⟩ | ⟨last, err, held', hfails, hrun⟩
    · have hheld' : ∀ c' ∈ commands, Function.update held x.command.entry
          (some (withGenerated [] x.command.reads x.generated)) c'.entry = some [] := by
        intro c' hc'
        have hne : c'.entry ≠ x.command.entry := fun h => hnot (List.mem_map.2 ⟨c', hc', h⟩)
        rw [Function.update_of_ne hne, hheld c' (List.mem_cons_of_mem _ hc')]
      have hstep := perform_bind_of_ok hrun fun _ => commands.forM (runCommand d executor)
      rcases ih (fun c' hc' => hmade c' (List.mem_cons_of_mem _ hc')) hrest hheld'
        (messages ++ [x.message]) with ⟨exchanges, held', h⟩ | ⟨exchanges, c', last, err, held', h⟩
      · refine .inl ⟨x :: exchanges, held', ?_, ?_, ?_, ?_, ?_⟩
        · rw [List.map_cons, h.sends]
        · exact hx.append (List.append_assoc .. ▸ h.carriedOut)
        · rw [perform_forM_cons, hstep, h.run, List.map_cons, List.append_assoc]
          rfl
        · intro y hy
          rcases List.mem_cons.1 hy with rfl | hy
          · rw [h.others _ hnot, Function.update_self]
          · exact h.received y hy
        · intro id hid
          rw [List.map_cons, List.mem_cons, not_or] at hid
          rw [h.others id hid.2, Function.update_of_ne hid.1]
      · obtain ⟨after, hafter⟩ := h.sends
        refine .inr ⟨x :: exchanges, c', last, err, held', ⟨after, ?_⟩, ?_, ?_, ?_⟩
        · rw [List.map_cons, List.cons_append, hafter]
        · exact hx.append (List.append_assoc .. ▸ h.carriedOut)
        · have hfails := h.fails
          rwa [← List.append_assoc, List.append_assoc _ [_], List.singleton_append] at hfails
        · rw [perform_forM_cons, hstep, h.run, List.map_cons, List.append_assoc messages [_]]
          rfl
    · refine .inr ⟨[], c, last, err, held', ⟨commands, rfl⟩, .nil, ?_, ?_⟩
      · rwa [List.map_nil, List.append_nil]
      · rw [perform_forM_cons, perform_bind_of_error hrun, List.map_nil, List.append_nil]

/-! ## The phase of sending -/

theorem perform_prepare (hnodup : s.ids.Nodup) (he : e ∈ s.entries) (hc : CommandOf e c) :
    perform (prepare c) (s.staged held messages) =
      (.ok (), s.staged (Function.update held c.entry (some [])) messages) := by
  have hprepare : (e.staged (held e.id)).prepare = e.holding [] := by
    cases held e.id with
    | none => rfl
    | some values => exact Entry.prepare_holding
  rw [prepare, hc.entry]
  refine perform_onEntry_staged hnodup he ?_
  rw [Action.perform_modifyEntry, hprepare]
  rfl

/-- Preparing some entries leaves each of them without generated values. -/
theorem perform_prepares {commands : List Command} (hnodup : s.ids.Nodup)
    (hmade : ∀ c ∈ commands, ∃ e ∈ s.entries, CommandOf e c)
    (held : EntryId → Option (List (Nat × Value))) (messages : List SentCommand) :
    ∃ held', perform (commands.forM prepare) (s.staged held messages) =
        (.ok (), s.staged held' messages) ∧
      (∀ c ∈ commands, held' c.entry = some []) ∧
      ∀ id, id ∉ commands.map (·.entry) → held' id = held id := by
  induction commands generalizing held with
  | nil => exact ⟨held, rfl, fun c hc => (by cases hc), fun _ _ => rfl⟩
  | cons c commands ih =>
    obtain ⟨e, he, hc⟩ := hmade c List.mem_cons_self
    obtain ⟨held', hrun, hempty, hothers⟩ := ih
      (fun c hc => hmade c (List.mem_cons_of_mem _ hc)) (Function.update held c.entry (some []))
    refine ⟨held', ?_, fun c' hc' => ?_, fun id hid => ?_⟩
    · rw [perform_forM_cons, perform_bind_of_ok (perform_prepare hnodup he hc), hrun]
    · rcases List.mem_cons.1 hc' with rfl | hc'
      · by_cases hagain : c'.entry ∈ commands.map (·.entry)
        · obtain ⟨c₂, hc₂, heq⟩ := List.mem_map.1 hagain
          rw [← heq, hempty c₂ hc₂]
        · rw [hothers _ hagain, Function.update_self]
      · exact hempty c' hc'
    · rw [List.map_cons, List.mem_cons, not_or] at hid
      rw [hothers id hid.2, Function.update_of_ne hid.1]

/-- The phase of sending went through: each entry with a command holds what was returned for it,
and the others are as before. -/
structure Executed (d : Dialect) (executor : Executor) (s : SaveScope) (commands : List Command)
    (exchanges : List Exchange) (held : EntryId → Option (List (Nat × Value))) : Prop where
  sends : exchanges.map (·.command) = commands
  carriedOut : CarriedOut d executor s.sent exchanges
  run : perform (execute d executor commands) s =
    (.ok (), s.staged held (exchanges.map (·.message)))
  received : ∀ x ∈ exchanges,
    held x.command.entry = some (withGenerated [] x.command.reads x.generated)
  others : ∀ id, id ∉ commands.map (·.entry) → held id = none

/-- The phase of sending ended at a command that failed. -/
structure Stopped (d : Dialect) (executor : Executor) (s : SaveScope) (commands : List Command)
    (exchanges : List Exchange) (c : Command) (last : List SentCommand) (err : Error) : Prop where
  sends : ∃ after, commands = exchanges.map (·.command) ++ c :: after
  carriedOut : CarriedOut d executor s.sent exchanges
  fails : FailsAt d executor (s.sent ++ exchanges.map (·.message)) c last err
  run : ∃ held, perform (execute d executor commands) s =
    (.error err, s.staged held (exchanges.map (·.message) ++ last))

/-- **The phase of sending** carries all commands out, or it ends at one that fails. -/
theorem perform_execute {commands : List Command} (hnodup : s.ids.Nodup)
    (hmade : ∀ c ∈ commands, ∃ e ∈ s.entries, CommandOf e c)
    (hdistinct : (commands.map (·.entry)).Nodup) :
    (∃ exchanges held, Executed d executor s commands exchanges held) ∨
    ∃ exchanges c last err, Stopped d executor s commands exchanges c last err := by
  obtain ⟨held, hprepare, hempty, hothers⟩ :=
    perform_prepares hnodup hmade (fun _ => none) []
  rw [staged_none] at hprepare
  have hstart := perform_bind_of_ok hprepare fun _ => commands.forM (runCommand d executor)
  have hsent : s.sent ++ [] = s.sent := List.append_nil _
  rcases perform_runCommands hnodup hmade hdistinct hempty [] with
    ⟨exchanges, held', h⟩ | ⟨exchanges, c, last, err, held', h⟩
  · refine .inl ⟨exchanges, held', h.sends, hsent ▸ h.carriedOut, ?_, h.received, fun id hid => ?_⟩
    · exact hstart.trans h.run
    · rw [h.others id hid, hothers id hid]
  · have hfails := h.fails
    rw [hsent] at hfails
    exact .inr ⟨exchanges, c, last, err, h.sends, hsent ▸ h.carriedOut, hfails, held',
      hstart.trans h.run⟩

/-! ## A save -/

variable {plan : Plan} {s₁ s₂ : SaveScope} {err : Error}

/-- The commands of a plan can be sent. -/
theorem perform_plan (d : Dialect) (executor : Executor) (hnodup : s.ids.Nodup)
    (hplan : Plan.ofEntries s.entries = .ok plan) :
    (∃ exchanges held, Executed d executor s plan.commands exchanges held) ∨
    ∃ exchanges c last err, Stopped d executor s plan.commands exchanges c last err :=
  perform_execute hnodup (fun _ => Plan.commandOf_of_mem hplan) (Plan.entries_nodup hnodup hplan)

/-- Settling entries sends nothing. -/
theorem sent_settle (commands : List Command) (s : SaveScope) :
    (perform (commands.forM settle) s).2.sent = s.sent := by
  induction commands generalizing s with
  | nil => rfl
  | cons c commands ih =>
    have hstep : (perform (settle c) s).2.sent = s.sent := by
      rw [settle, onEntry, perform_mk]
      split <;> rfl
    rw [perform_forM_cons, perform_bind]
    rcases hrun : perform (settle c) s with ⟨err | _, s₁⟩
    · rw [hrun] at hstep
      exact hstep
    · rw [hrun] at hstep
      exact (ih s₁).trans hstep

theorem save_of_plan_error (h : Plan.ofEntries s.entries = .error err) :
    save d executor s = (.error err, s) := by
  rw [save, h]

/-- A save that fails while it sends drops the generated values. -/
theorem save_of_execute_error (hplan : Plan.ofEntries s.entries = .ok plan)
    (h : perform (execute d executor plan.commands) s = (.error err, s₁)) :
    save d executor s = (.error err, rollBack s₁) := by
  have hrun : perform (runPlan d executor plan) s = (.error err, s₁) := perform_bind_of_error h _
  have hne : plan.commands.isEmpty = false := by
    cases hcommands : plan.commands with
    | nil =>
      rw [hcommands] at h
      cases h
    | cons => rfl
  have hrun : (runPlan d executor plan).run.run s = (.error err, s₁) := hrun
  simp only [save, hplan, hne, hrun, Bool.false_eq_true, if_false]

/-- A save that has sent all commands settles their entries. -/
theorem save_of_execute_ok (hplan : Plan.ofEntries s.entries = .ok plan)
    (h : perform (execute d executor plan.commands) s = (.ok (), s₁)) :
    save d executor s = match perform (plan.commands.forM settle) s₁ with
      | (.ok _, s₂) =>
        (.ok ⟨plan.inserts.length, plan.updates.length, plan.deletes.length⟩, s₂)
      | (.error err, s₂) => (.error err, rollBack s₂) := by
  have hcounts := Plan.counts_eq hplan
  cases hcommands : plan.commands with
  | nil =>
    rw [hcommands] at h hcounts
    cases h
    rw [save, hplan]
    simp only [hcommands, List.isEmpty_nil, if_true, perform_forM_nil]
    exact congrArg (fun n => (Except.ok n, s)) hcounts
  | cons c commands =>
    have hsettle : perform (runPlan d executor plan) s =
        perform (plan.commands.forM settle >>= fun _ =>
          return plan.commands.foldl (fun n c => n.count c.operation) {}) s₁ :=
      perform_bind_of_ok h _
    have hrun : (runPlan d executor plan).run.run s = _ := hsettle
    rw [← hcommands]
    simp only [save, hplan, hrun, perform_bind]
    rw [if_neg (by simp [hcommands])]
    rcases perform (plan.commands.forM settle) s₁ with ⟨err | _, s₂⟩
    · rfl
    · exact congrArg (fun n => (Except.ok n, s₂)) hcounts

/-- **Sending, answering and rolling back.** Let no entry have a sidecar that is committed or that
is named like the one for generated values, and let the plan be made. Then a save sends the commands
of the plan in order, each once, up to the first that fails. If one fails, the save answers its
error and leaves all entries as they were. Otherwise all commands were sent, and if the save
succeeds, it counts the commands of the plan. -/
theorem save_sends_until_failure (hnodup : s.ids.Nodup)
    (hsidecars : ∀ e ∈ s.entries, ∀ sidecar ∈ e.sidecars,
      sidecar.autoCommit = false ∧ sidecar.name ≠ Sidecar.generatedName)
    (hplan : Plan.ofEntries s.entries = .ok plan) :
    (∃ exchanges c after last err,
      plan.commands = exchanges.map (·.command) ++ c :: after ∧
      CarriedOut d executor s.sent exchanges ∧
      FailsAt d executor (s.sent ++ exchanges.map (·.message)) c last err ∧
      save d executor s =
        (.error err, { s with sent := s.sent ++ exchanges.map (·.message) ++ last })) ∨
    ∃ exchanges : List Exchange,
      plan.commands = exchanges.map (·.command) ∧
      CarriedOut d executor s.sent exchanges ∧
      (save d executor s).2.sent = s.sent ++ exchanges.map (·.message) ∧
      ∀ counts, (save d executor s).1 = .ok counts →
        counts = ⟨plan.inserts.length, plan.updates.length, plan.deletes.length⟩ := by
  rcases perform_plan d executor hnodup hplan with
    ⟨exchanges, held, h⟩ | ⟨exchanges, c, last, err, h⟩
  · refine .inr ⟨exchanges, h.sends.symm, h.carriedOut, ?_, ?_⟩
    · rw [save_of_execute_ok hplan h.run]
      have hsent := sent_settle plan.commands (s.staged held (exchanges.map (·.message)))
      rcases hsettle : perform (plan.commands.forM settle) _ with ⟨err | _, s₂⟩
      · rw [hsettle] at hsent
        exact hsent
      · rw [hsettle] at hsent
        exact hsent
    · intro counts hcounts
      rw [save_of_execute_ok hplan h.run] at hcounts
      rcases hsettle : perform (plan.commands.forM settle) _ with ⟨err | _, s₂⟩
      · rw [hsettle] at hcounts
        cases hcounts
      · rw [hsettle] at hcounts
        exact (Except.ok.inj hcounts).symm
  · obtain ⟨after, hafter⟩ := h.sends
    obtain ⟨held, hrun⟩ := h.run
    refine .inl ⟨exchanges, c, after, last, err, hafter, h.carriedOut, h.fails, ?_⟩
    rw [save_of_execute_error hplan hrun, rollBack_staged hsidecars, List.append_assoc]

end Saving

/-! ## An example -/

namespace People

/-- The key of a person, which the store generates. -/
def key : Property where
  name := "Id"
  owner := ⟨0⟩
  ownerName := "Person"
  index := 0
  valueType := .bigInt
  nullable := false
  shadow := false
  concurrencyToken := false
  clientGenerated := false
  storeGeneration := .onInsert
  column := none
  tableKey := none

/-- The name of a person. -/
def name : Property :=
  { key with name := "Name", index := 1, valueType := .text, storeGeneration := .never }

/-- People, kept in instances with a field for each property. -/
def type : EntityType where
  id := ⟨0⟩
  name := "Person"
  native := some ⟨"Person"⟩
  properties := [key, name]
  key := some ⟨key, [], List.forall_mem_nil _⟩

/-- A new person, whose key field has contents of some kind. -/
def added (number : Nat) (kind : NativeKind) : Entry where
  id := ⟨number⟩
  type := type
  native := some ⟨⟨"Person"⟩, [("Id", kind.valueType.defaultValue), ("Name", .text "Ann")]⟩
  shadow := [.bigInt 0, .text ""]
  accessors := [some (.field ⟨"Person"⟩ "Id" kind), some (.field ⟨"Person"⟩ "Name" .string)]
  state := .added
  modified := [false, false]
  sidecars := [.baseline [key, name]]
  snapshot := []

/-- Two new people. -/
def scope (kind : NativeKind) : SaveScope where
  entries := [added 1 kind, added 2 kind]
  session := {
    model := ⟨[type]⟩
    registry := .empty
    generators := .ofOverrides [] fun _ _ => 0
    tracker := (Tracker.empty.start ⟨1⟩ "Person" .added).start ⟨2⟩ "Person" .added
    made := 2 }

/-- The command that inserts a new person. -/
def insertion (number : Nat) (kind : NativeKind) : Command where
  entry := ⟨number⟩
  entityType := type
  operation := .insert
  columns :=
    let zero := kind.valueType.defaultValue
    [⟨key, { key := true, read := true }, zero, zero, none, none⟩,
      ⟨name, { write := true }, .text "Ann", .text "Ann", some "@p0", none⟩]

theorem plan_scope (kind : NativeKind) : Plan.ofEntries (scope kind).entries =
    .ok ⟨[], [insertion 1 kind, insertion 2 kind], []⟩ := by
  refine Plan.ofEntries_eq_ok_iff.2 ⟨[insertion 1 kind, insertion 2 kind], rfl, ?_⟩
  refine (Plan.ofCommands_of_inserts (fun c hc => ?_) ?_).symm
  · rcases List.mem_pair.1 hc with rfl | rfl <;> rfl
  · exact List.pairwise_pair.2 (Nat.le_refl _)

/-- A store that takes one row, and is closed then. -/
def oneRow : Executor := fun sent =>
  if sent.length = 1 then .ok (.rows [[.bigInt 7]]) else .error (.store "closed")

end People

namespace Saving

open People

theorem save_sends_until_failure_people :
    (People.scope .int64).ids.Nodup ∧
    (∀ e ∈ (People.scope .int64).entries, ∀ sidecar ∈ e.sidecars,
      sidecar.autoCommit = false ∧ sidecar.name ≠ Sidecar.generatedName) ∧
    ∃ plan, Plan.ofEntries (People.scope .int64).entries = .ok plan ∧
      (save .sqlite oneRow (People.scope .int64)).2.entries = (People.scope .int64).entries := by
  have hnodup : (People.scope .int64).ids.Nodup := by decide
  have hsidecars : ∀ e ∈ (People.scope .int64).entries, ∀ sidecar ∈ e.sidecars,
      sidecar.autoCommit = false ∧ sidecar.name ≠ Sidecar.generatedName := by decide
  have hplan := plan_scope .int64
  refine ⟨hnodup, hsidecars, _, hplan, ?_⟩
  rcases save_sends_until_failure hnodup hsidecars hplan with
    ⟨exchanges, c, after, last, err, -, -, -, hsave⟩ | ⟨exchanges, hsends, hcarried, -, -⟩
  · rw [hsave]
  · have hlen : exchanges.length = 2 := (List.length_map _).symm.trans (congrArg _ hsends).symm
    obtain ⟨x, y, rfl⟩ := List.length_eq_two.1 hlen
    -- The second answer would have to come from a closed store.
    cases hcarried with
    | cons _ _ _ rest =>
      cases rest with
      | cons _ answer _ _ => cases answer

end Saving

end EntityMapper
