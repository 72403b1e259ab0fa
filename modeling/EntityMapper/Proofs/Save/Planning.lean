import EntityMapper.Proofs.Command.Columns
import EntityMapper.Save.Execution

/-!
# The commands of a plan

A plan reorders the commands that the entries make (`Plan.commands_perm`): each command is that of
one of the entries (`Plan.exists_of_mem`), each entry that makes a command has it in the plan
(`Plan.ofEntry_of_mem`), and no entry has two (`Plan.entries_nodup`).
-/

namespace EntityMapper

namespace Plan

variable {entries : List Entry} {commands : List Command} {plan : Plan} {c : Command} {e : Entry}

/-- Grouping by operation only reorders. -/
theorem filters_perm (commands : List Command) :
    (commands.filter (·.operation = .delete) ++ commands.filter (·.operation = .insert) ++
      commands.filter (·.operation = .update)).Perm commands := by
  induction commands with
  | nil => exact .nil
  | cons c commands ih =>
    cases hop : c.operation with
    | delete =>
      rw [List.filter_cons_of_pos (by simp [hop]), List.filter_cons_of_neg (by simp [hop]),
        List.filter_cons_of_neg (by simp [hop])]
      exact ih.cons c
    | insert =>
      rw [List.filter_cons_of_neg (by simp [hop]), List.filter_cons_of_pos (by simp [hop]),
        List.filter_cons_of_neg (by simp [hop])]
      exact (List.perm_middle.append_right _).trans (ih.cons c)
    | update =>
      rw [List.filter_cons_of_neg (by simp [hop]), List.filter_cons_of_neg (by simp [hop]),
        List.filter_cons_of_pos (by simp [hop])]
      exact List.perm_middle.trans (ih.cons c)

/-- Planning only reorders. -/
theorem commands_perm (commands : List Command) : (ofCommands commands).commands.Perm commands :=
  (((List.mergeSort_perm ..).append (List.mergeSort_perm ..)).append_right _).trans
    (filters_perm commands)

/-- Inserts that are in order already are a plan as they are. -/
theorem ofCommands_of_inserts (hop : ∀ c ∈ commands, c.operation = .insert)
    (hsorted : commands.Pairwise fun a b => dependencies a ≤ dependencies b) :
    ofCommands commands = ⟨[], commands, []⟩ := by
  have hinserts : commands.filter (·.operation = .insert) = commands :=
    List.filter_eq_self.2 fun c hc => by simp [hop c hc]
  have hdeletes : commands.filter (·.operation = .delete) = [] :=
    List.filter_eq_nil_iff.2 fun c hc => by simp [hop c hc]
  have hupdates : commands.filter (·.operation = .update) = [] :=
    List.filter_eq_nil_iff.2 fun c hc => by simp [hop c hc]
  have hsort :
      commands.mergeSort (fun a b => decide (dependencies a ≤ dependencies b)) = commands :=
    List.mergeSort_of_pairwise (hsorted.imp fun h => decide_eq_true h)
  rw [ofCommands, hinserts, hdeletes, hupdates, hsort, List.mergeSort_nil]

theorem commandsOf_eq_ok_iff : commandsOf entries = .ok commands ↔
    ∃ made, entries.mapM (Command.ofEntry · {}) = .ok made ∧ commands = made.filterMap id := by
  rw [commandsOf, Result.bind_eq_ok_iff]
  exact ⟨fun ⟨made, h, hc⟩ => ⟨made, h, (Except.ok.inj hc).symm⟩, fun ⟨made, h, hc⟩ =>
    ⟨made, h, congrArg Except.ok hc.symm⟩⟩

theorem ofEntries_eq_ok_iff : ofEntries entries = .ok plan ↔
    ∃ commands, commandsOf entries = .ok commands ∧ plan = ofCommands commands := by
  rw [ofEntries, Result.bind_eq_ok_iff]
  exact ⟨fun ⟨commands, h, hp⟩ => ⟨commands, h, (Except.ok.inj hp).symm⟩, fun ⟨commands, h, hp⟩ =>
    ⟨commands, h, congrArg Except.ok hp.symm⟩⟩

/-- Each command of a plan is the one that an entry makes. -/
theorem exists_of_mem (h : ofEntries entries = .ok plan) (hc : c ∈ plan.commands) :
    ∃ e ∈ entries, Command.ofEntry e {} = .ok (some c) := by
  obtain ⟨commands, hcommands, rfl⟩ := ofEntries_eq_ok_iff.1 h
  obtain ⟨made, hmade, rfl⟩ := commandsOf_eq_ok_iff.1 hcommands
  obtain ⟨oc, hoc, rfl⟩ := List.mem_filterMap.1 ((commands_perm _).mem_iff.1 hc)
  exact Result.exists_of_mem_mapM hmade hoc

theorem commandOf_of_mem (h : ofEntries entries = .ok plan) (hc : c ∈ plan.commands) :
    ∃ e ∈ entries, Command.CommandOf e c := by
  obtain ⟨e, he, hmake⟩ := exists_of_mem h hc
  exact ⟨e, he, Command.ofEntry_eq_some hmake⟩

/-- A planned entry makes a command, which is in the plan, or none. -/
theorem ofEntry_of_mem (h : ofEntries entries = .ok plan) (he : e ∈ entries) :
    ∃ made, Command.ofEntry e {} = .ok made ∧ ∀ c ∈ made, c ∈ plan.commands := by
  obtain ⟨commands, hcommands, rfl⟩ := ofEntries_eq_ok_iff.1 h
  obtain ⟨made, hmade, rfl⟩ := commandsOf_eq_ok_iff.1 hcommands
  obtain ⟨oc, hoc, hmake⟩ := Result.exists_mem_mapM hmade he
  refine ⟨oc, hmake, fun c hc => (commands_perm _).mem_iff.2 ?_⟩
  exact List.mem_filterMap.2 ⟨oc, hoc, hc⟩

theorem entries_sublist {made : List (Option Command)}
    (h : entries.mapM (Command.ofEntry · {}) = .ok made) :
    ((made.filterMap id).map (·.entry)).Sublist (entries.map (·.id)) := by
  induction Result.mapM_eq_ok_iff.1 h with
  | nil => exact .slnil
  | @cons e oc entries made hc hs ih =>
    have ih := ih (Result.mapM_eq_ok_iff.2 hs)
    cases oc with
    | none => exact ih.cons _
    | some c =>
      have hmap : ((some c :: made).filterMap id).map (·.entry) =
          e.id :: (made.filterMap id).map (·.entry) :=
        congrArg (· :: _) (Command.ofEntry_eq_some hc).entry
      rw [hmap]
      exact ih.cons_cons _

/-- No entry has two commands in a plan. -/
theorem entries_nodup (hnodup : (entries.map (·.id)).Nodup) (h : ofEntries entries = .ok plan) :
    (plan.commands.map (·.entry)).Nodup := by
  obtain ⟨commands, hcommands, rfl⟩ := ofEntries_eq_ok_iff.1 h
  obtain ⟨made, hmade, rfl⟩ := commandsOf_eq_ok_iff.1 hcommands
  exact ((commands_perm _).map _).nodup_iff.2 (hnodup.sublist (entries_sublist hmade))

/-! ## Counting -/

theorem foldl_count (commands : List Command) (n : SaveCounts) :
    commands.foldl (fun n c => n.count c.operation) n =
      { inserted := n.inserted + commands.countP (·.operation = .insert)
        updated := n.updated + commands.countP (·.operation = .update)
        deleted := n.deleted + commands.countP (·.operation = .delete) } := by
  induction commands generalizing n with
  | nil => rfl
  | cons c commands ih =>
    rw [List.foldl_cons, ih]
    cases hop : c.operation <;>
      simp [SaveCounts.count, hop, Nat.add_assoc, Nat.add_comm 1]

/-- A whole plan counts the commands of its groups. -/
theorem counts_eq (h : ofEntries entries = .ok plan) :
    plan.commands.foldl (fun (n : SaveCounts) c => n.count c.operation) {} =
      { inserted := plan.inserts.length
        updated := plan.updates.length
        deleted := plan.deletes.length } := by
  obtain ⟨commands, -, rfl⟩ := ofEntries_eq_ok_iff.1 h
  have hcount : ∀ op : Operation, (ofCommands commands).commands.countP (·.operation = op) =
      (commands.filter (·.operation = op)).length := by
    intro op
    rw [(commands_perm commands).countP_eq, List.countP_eq_length_filter]
  rw [foldl_count, hcount, hcount, hcount]
  simp [ofCommands, List.length_mergeSort]

end Plan

end EntityMapper
