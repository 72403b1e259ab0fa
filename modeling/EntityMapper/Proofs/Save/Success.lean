import EntityMapper.Proofs.Save.Settling
import EntityMapper.Proofs.Tracking.Baseline
import Mathlib.Data.List.Nodup

/-!
# Successful saves

When a save succeeds, each entry with a command is clean and holds what the store returned for it
(`Entry.SavedBy`), the other entries are as they were, and another save has nothing to do
(`Saving.save_accepts`).

The way of a returned value: it is coerced when it is taken into the sidecar for generated values
(`Command.Accepts.takes`), found there by its position (`Command.lookup_withGenerated`), and
committed to the primary value (`Entry.committed_spec`), which an accepted entry shows
(`Entry.savedBy_of_settled`).
-/

namespace EntityMapper

open Stepwise

/-! ## Returned values -/

namespace Command

variable {c : Command} {ws : List Value} {values : List (Nat × Value)} {i : Nat}

theorem takes_of_mapM {columns : List ColumnChange} {row : List Value}
    (hlen : row.length = columns.length)
    (h : (columns.zip row).mapM coercePair = .ok ws) :
    List.Forall₂ (fun column w => column.property.Takes w) columns ws := by
  induction columns generalizing row ws with
  | nil =>
    cases h
    exact .nil
  | cons column columns ih =>
    cases row with
    | nil => cases hlen
    | cons v row =>
      rw [List.zip_cons_cons, List.mapM_cons] at h
      obtain ⟨w, hw, h⟩ := Result.bind_eq_ok_iff.1 h
      obtain ⟨ws, hws, h⟩ := Result.bind_eq_ok_iff.1 h
      cases h
      exact .cons (Property.takes_of_coerce hw) (ih (Nat.succ.inj hlen) hws)

/-- What an accepted answer returns is taken by the properties that are read back. -/
theorem Accepts.takes {answer : StoreResult} (h : c.Accepts answer ws) :
    List.Forall₂ (fun column w => column.property.Takes w) c.reads ws := by
  cases h with
  | row _ hlen hws => exact takes_of_mapM hlen hws
  | count hreads | number hreads =>
    rw [readsBack_eq_false_iff.1 hreads]
    exact .nil

/-- Each returned value is found at the position of its property. -/
theorem lookup_withGenerated {R : ColumnChange → Value → Prop} {columns : List ColumnChange}
    (hdistinct : (columns.map (·.property.index)).Nodup) (h : List.Forall₂ R columns ws)
    (values : List (Nat × Value)) :
    List.Forall₂ (fun column w => R column w ∧
      (withGenerated values columns ws).lookup column.property.index = some w) columns ws := by
  induction h generalizing values with
  | nil => exact .nil
  | @cons column w columns ws hw _ ih =>
    obtain ⟨hnot, hdistinct⟩ := List.nodup_cons.1 hdistinct
    refine .cons ⟨hw, ?_⟩ (ih hdistinct (Sidecar.put column.property.index w values))
    have hothers : ∀ entry ∈ (columns.map (·.property.index)).zip ws,
        entry.1 ≠ column.property.index := by
      intro entry hentry heq
      have hmem := (List.of_mem_zip hentry).1
      rw [heq] at hmem
      exact hnot hmem
    exact (Sidecar.lookup_putAll_of_notMem hothers).trans Sidecar.lookup_put_self

/-- Nothing is found at other positions. -/
theorem lookup_withGenerated_of_notMem {columns : List ColumnChange}
    (h : i ∉ columns.map (·.property.index)) : (withGenerated [] columns ws).lookup i = none :=
  Sidecar.lookup_putAll_of_notMem fun _ hentry heq => h (heq ▸ (List.of_mem_zip hentry).1)

end Command

/-! ## Committing what was returned -/

namespace Entry

variable {e e' e₁ : Entry} {p : Property} {values : List (Nat × Value)} {c : Command}
  {ws : List Value} {session session' : Session}

theorem mem_stored_generatedWith {t : EntityType} {pair : Property × Value} :
    pair ∈ (generatedWith t values).stored ↔
      pair.1 ∈ t.generable ∧ values.lookup pair.1.index = some pair.2 := by
  obtain ⟨p, v⟩ := pair
  simp only [Sidecar.stored, List.mem_filterMap, Option.map_eq_some_iff, Prod.mk.injEq]
  constructor
  · rintro ⟨q, hq, w, hw, rfl, rfl⟩
    exact ⟨hq, hw⟩
  · rintro ⟨hp, hv⟩
    exact ⟨p, hp, v, hv, rfl, rfl⟩

theorem stored_sublist (s : Sidecar) : (s.stored.map (·.1)).Sublist s.covered := by
  obtain ⟨name, covered, values⟩ := s
  unfold Sidecar.stored
  induction covered with
  | nil => exact .slnil
  | cons p covered ih =>
    rw [List.filterMap_cons]
    cases values.lookup p.index with
    | none => exact ih.cons p
    | some v => exact ih.cons_cons p

theorem nodup_index_stored {t : EntityType} (placed : t.Placed) :
    ((generatedWith t values).stored.map (·.1.index)).Nodup := by
  have hsub : ((generatedWith t values).stored.map (·.1)).Sublist t.properties :=
    (stored_sublist _).trans List.filter_sublist
  have hindex := hsub.map Property.index
  rw [List.map_map] at hindex
  exact placed.nodup_index.sublist hindex

/-- Each returned value is among those that are committed. -/
theorem mem_stored_of_returned (hv : e.Valid) (hc : Command.CommandOf e c)
    (hws : List.Forall₂ (fun column w => column.property.Takes w) c.reads ws) :
    List.Forall₂ (fun column w => (column.property, w) ∈
      (generatedWith e.type (Command.withGenerated [] c.reads ws)).stored) c.reads ws := by
  have hlookup := Command.lookup_withGenerated (hc.nodup_index_reads hv.placed) hws []
  have hgenerable := (List.forall₂_and_left _ _).2
    ⟨fun column (hcolumn : column ∈ c.reads) => hc.generable_of_mem_reads hcolumn, hlookup⟩
  exact hgenerable.imp fun column w h => mem_stored_generatedWith.2 ⟨h.1, h.2.2⟩

/-- What is committed to a property was returned for it. -/
theorem returned_of_mem_stored (hv : e.Valid) (hc : Command.CommandOf e c)
    (hws : List.Forall₂ (fun column w => column.property.Takes w) c.reads ws)
    {pair : Property × Value}
    (hpair : pair ∈ (generatedWith e.type (Command.withGenerated [] c.reads ws)).stored) :
    pair.1 ∈ c.reads.map (·.property) ∧ pair.1.Takes pair.2 := by
  obtain ⟨hp, hvalue⟩ := mem_stored_generatedWith.1 hpair
  have hmem : pair.1.index ∈ c.reads.map (·.property.index) := by
    by_contra hnot
    rw [Command.lookup_withGenerated_of_notMem hnot] at hvalue
    cases hvalue
  obtain ⟨column, hcolumn, heq⟩ := List.mem_map.1 hmem
  have hsame : column.property = pair.1 :=
    hv.placed.eq_of_index (hc.reads_sublist.subset (List.mem_map_of_mem hcolumn))
      (List.mem_filter.1 hp).1 heq
  obtain ⟨w, -, htakes, hw⟩ := exists_of_forall₂
    (Command.lookup_withGenerated (hc.nodup_index_reads hv.placed) hws []) hcolumn
  rw [heq, hvalue] at hw
  cases hw
  exact ⟨List.mem_map.2 ⟨column, hcolumn, hsame⟩, hsame ▸ htakes⟩

/-- Committing the generated values of an entry writes each returned value, and nothing else. -/
theorem committed_spec (hv : e.Valid) (hbase : e.OnlyBaseline) (own : e.OwnFields)
    (hc : Command.CommandOf e c)
    (hws : List.Forall₂ (fun column w => column.property.Takes w) c.reads ws)
    (h : perform Action.commit
      ⟨e.holding (Command.withGenerated [] c.reads ws), session⟩ = (.ok (), ⟨e₁, session'⟩)) :
    List.Forall₂ (fun column w => e₁.primaryValue column.property = .ok w) c.reads ws ∧
    ∀ q ∈ e.type.properties, q ∉ c.reads.map (·.property) →
      e₁.primaryValue q = e.primaryValue q := by
  rw [Action.perform_commit] at h
  dsimp only at h
  rw [hbase.pending_holding, hbase.rollBack_holding] at h
  have hproperties : c.reads.map (·.property) ⊆ e.type.properties := hc.reads_sublist.subset
  obtain ⟨hwritten, hkept⟩ := Action.primaryValue_of_commitPairs own hv
    (fun pair hpair => by
      obtain ⟨hread, htakes⟩ := returned_of_mem_stored hv hc hws hpair
      exact ⟨hproperties hread, htakes⟩)
    (nodup_index_stored hv.placed) h
  refine ⟨(mem_stored_of_returned hv hc hws).imp fun column w hmem => hwritten _ hmem, ?_⟩
  intro q hq hnot
  refine hkept q hq fun hmem => hnot ?_
  obtain ⟨pair, hpair, heq⟩ := List.mem_map.1 hmem
  have hread := (returned_of_mem_stored hv hc hws hpair).1
  rwa [hv.placed.eq_of_index (hproperties hread) hq heq] at hread

/-! ## Saved entries -/

/-- What a save makes of an entry for which the store returned some values. -/
structure SavedBy (e : Entry) (c : Command) (ws : List Value) (e' : Entry) : Prop where
  state : e.state = .deleted ∧ e'.state = .unknown ∨
    (e.state = .added ∨ e.state = .modified) ∧ e'.state = .unchanged
  returned : List.Forall₂ (fun column w => e'.get column.property = .ok w) c.reads ws
  others : ∀ p ∈ e.type.properties, p ∉ c.reads.map (·.property) → e'.get p = e.get p
  clean : e.state ≠ .deleted → e'.Clean
  generated : e'.sidecar? Sidecar.generatedName = none

/-- **Saved entries.** An entry that held the returned values and was settled shows them, and is
clean unless it was deleted. -/
theorem savedBy_of_settled (hv : e.Valid) (hbase : e.OnlyBaseline) (own : e.OwnFields)
    (hc : Command.CommandOf e c)
    (hws : List.Forall₂ (fun column w => column.property.Takes w) c.reads ws)
    (h : (e.holding (Command.withGenerated [] c.reads ws)).Settled e') : e.SavedBy c ws e' := by
  have hstate := h.state
  have hmake' : e'.make = e.make := h.make
  have htype : e'.type = e.type := congrArg Make.type hmake'
  obtain ⟨e₁, session, session', hcommit, h⟩ := h
  obtain ⟨hreturned, hothers⟩ := committed_spec hv hbase own hc hws hcommit
  have hmake : e₁.make = e.make := by
    have hfixes := Action.commit_fixes_make
      ⟨e.holding (Command.withGenerated [] c.reads ws), session⟩
    rwa [hcommit] at hfixes
  have hbase₁ := hbase.of_commit hcommit
  have hkept : e'.OnlyBaseline ∧ (∀ p, e'.primaryValue p = e₁.primaryValue p) ∧
      (e.state ≠ .deleted → e'.Clean) := by
    split at h
    · rename_i hdeleted
      rw [h]
      exact ⟨hbase₁, fun _ => rfl, fun hnot => absurd hdeleted hnot⟩
    · exact ⟨hbase₁.of_accepted h, h.primary, fun _ => h.clean (hv.of_make hmake) hbase₁⟩
  obtain ⟨hbase', hprimary, hclean⟩ := hkept
  have hget : ∀ p ∈ e.type.properties, e'.get p = e₁.primaryValue p := fun p hp =>
    (hbase'.get (htype ▸ hv.placed.owns_of_mem hp)).trans (hprimary p)
  constructor
  case state =>
    by_cases hdeleted : e.state = .deleted
    · exact .inl ⟨hdeleted, hstate.trans (if_pos hdeleted)⟩
    · exact .inr ⟨EntityState.changed_of_operation hc.operation hdeleted,
        hstate.trans (if_neg hdeleted)⟩
  case returned =>
    have hread := (List.forall₂_and_left _ _).2 ⟨fun column (hcolumn : column ∈ c.reads) =>
      hc.reads_sublist.subset (List.mem_map_of_mem hcolumn), hreturned⟩
    exact hread.imp fun column w h => (hget _ h.1).trans h.2
  case others =>
    intro p hp hnot
    rw [hget p hp, hothers p hp hnot, hbase.get (hv.placed.owns_of_mem hp)]
  case clean => exact hclean
  case generated => exact hbase'.sidecar?_generated

end Entry

/-! ## Successful saves -/

namespace Saving

open SaveScope

variable {d : Dialect} {executor : Executor} {s s' : SaveScope} {e e' : Entry} {c : Command}
  {plan : Plan} {exchanges : List Exchange} {held : EntryId → Option (List (Nat × Value))}
  {counts : SaveCounts}

theorem accepts_of_mem {sent : List SentCommand} {x : Exchange}
    (h : CarriedOut d executor sent exchanges) (hx : x ∈ exchanges) :
    x.command.Accepts x.answer x.generated := by
  induction h with
  | nil => cases hx
  | cons _ _ accepts _ ih =>
    rcases List.mem_cons.1 hx with rfl | hx
    · exact accepts
    · exact ih hx

/-- A save that succeeds has sent all commands, and has settled their entries. -/
theorem executed_of_save (hnodup : s.ids.Nodup) (hplan : Plan.ofEntries s.entries = .ok plan)
    (h : save d executor s = (.ok counts, s')) :
    ∃ exchanges held, Executed d executor s plan.commands exchanges held ∧
      perform (plan.commands.forM settle) (s.staged held (exchanges.map (·.message))) =
        (.ok (), s') := by
  rcases perform_plan d executor hnodup hplan with
    ⟨exchanges, held, hexecuted⟩ | ⟨exchanges, c, last, err, hstopped⟩
  · refine ⟨exchanges, held, hexecuted, ?_⟩
    rw [save_of_execute_ok hplan hexecuted.run] at h
    rcases hsettle : perform (plan.commands.forM settle)
      (s.staged held (exchanges.map (·.message))) with ⟨err | _, s₂⟩
    · rw [hsettle] at h
      cases h
    · rw [hsettle] at h
      cases h
      exact hsettle
  · obtain ⟨held, hrun⟩ := hstopped.run
    rw [save_of_execute_error hplan hrun] at h
    cases h

/-- An entry with a command is saved by it. -/
theorem savedBy_of_mem (hs : s.Valid) (hbase : ∀ e ∈ s.entries, e.OnlyBaseline)
    (own : ∀ e ∈ s.entries, e.OwnFields) (hplan : Plan.ofEntries s.entries = .ok plan)
    (hexecuted : Executed d executor s plan.commands exchanges held)
    (hsettle : perform (plan.commands.forM settle)
      (s.staged held (exchanges.map (·.message))) = (.ok (), s'))
    (he : e ∈ s.entries) (hmake : Command.ofEntry e {} = .ok (some c)) :
    ∃ x ∈ exchanges, x.command = c ∧
      ∃ e', s'.entryOf e.id = some e' ∧ e.SavedBy c x.generated e' := by
  have hc := Command.ofEntry_eq_some hmake
  obtain ⟨made, hmade, hplanned⟩ := Plan.ofEntry_of_mem hplan he
  rw [hmake] at hmade
  cases hmade
  have hmem := hplanned c rfl
  obtain ⟨x, hx, rfl⟩ := List.mem_map.1 (hexecuted.sends ▸ hmem)
  refine ⟨x, hx, rfl, ?_⟩
  obtain ⟨-, hsettled, -⟩ := settled_of_plan hs hplan (List.Sublist.refl _) hsettle
  obtain ⟨e', he', hdone⟩ := hsettled _ hmem e he hc
  rw [← hc.entry, hexecuted.received x hx] at hdone
  exact ⟨e', he', Entry.savedBy_of_settled (hs.entries e he) (hbase e he) (own e he) hc
    (accepts_of_mem hexecuted.carriedOut hx).takes hdone⟩

/-- An entry without a command stays. -/
theorem entryOf_of_no_command (hs : s.Valid) (hplan : Plan.ofEntries s.entries = .ok plan)
    (hexecuted : Executed d executor s plan.commands exchanges held)
    (hsettle : perform (plan.commands.forM settle)
      (s.staged held (exchanges.map (·.message))) = (.ok (), s'))
    (he : e ∈ s.entries) (hmake : Command.ofEntry e {} = .ok none) :
    s'.entryOf e.id = some e := by
  have hnot : e.id ∉ plan.commands.map (·.entry) := by
    intro hmem
    obtain ⟨c, hc, hid⟩ := List.mem_map.1 hmem
    obtain ⟨other, hother, hmakes⟩ := Plan.exists_of_mem hplan hc
    have hsame : other.id = e.id := (Command.ofEntry_eq_some hmakes).entry.symm.trans hid
    rw [List.inj_on_of_nodup_map hs.nodup hother he hsame, hmake] at hmakes
    cases hmakes
  obtain ⟨-, -, hothers⟩ := settled_of_plan hs hplan (List.Sublist.refl _) hsettle
  rw [hothers e he hnot, hexecuted.others _ hnot]
  rfl

/-- Only the states of pending changes make commands. -/
theorem ofEntry_of_no_operation (h : e.state.operation? = none) :
    Command.ofEntry e {} = .ok none := by
  rw [Command.ofEntry, h]

/-- Where no entry makes a command, a save has nothing to do. -/
theorem save_of_no_commands (h : ∀ e ∈ s.entries, Command.ofEntry e {} = .ok none) :
    save d executor s = (.ok {}, s) := by
  have hmade : ∀ entries : List Entry, (∀ e ∈ entries, Command.ofEntry e {} = .ok none) →
      Plan.ofEntries entries = .ok (.ofCommands []) := by
    intro entries h
    refine Plan.ofEntries_eq_ok_iff.2 ⟨[], Plan.commandsOf_eq_ok_iff.2 ?_, rfl⟩
    refine ⟨entries.map fun _ => none, ?_, ?_⟩
    · exact Result.mapM_eq_ok_iff.2 (List.forall₂_map_right_iff.2 (List.forall₂_same.2 h))
    · simp [List.filterMap_map]
  have hempty : (Plan.ofCommands []).commands = [] :=
    List.perm_nil.1 (Plan.commands_perm [])
  rw [save, hmade s.entries h]
  simp only [hempty, List.isEmpty_nil, if_true]

/-- **Successful saves.** Let all entries be well formed, with fields of their own and no sidecars
but those for baseline values. If a save succeeds, the store was sent the commands of the plan and
answered each of them; an entry with a command is saved by it, an entry without stays as it was, and
another save has nothing to do. -/
theorem save_accepts (hs : s.Valid) (hbase : ∀ e ∈ s.entries, e.OnlyBaseline)
    (own : ∀ e ∈ s.entries, e.OwnFields) (h : save d executor s = (.ok counts, s')) :
    ∃ plan exchanges, Plan.ofEntries s.entries = .ok plan ∧
      exchanges.map (·.command) = plan.commands ∧
      CarriedOut d executor s.sent exchanges ∧
      s'.sent = s.sent ++ exchanges.map (·.message) ∧
      s'.ids = s.ids ∧
      (∀ e ∈ s.entries, Command.ofEntry e {} = .ok none ∧ s'.entryOf e.id = some e ∨
        ∃ x ∈ exchanges, Command.ofEntry e {} = .ok (some x.command) ∧
          ∃ e', s'.entryOf e.id = some e' ∧ e.SavedBy x.command x.generated e') ∧
      ∀ d' executor', save d' executor' s' = (.ok {}, s') := by
  cases hplan : Plan.ofEntries s.entries with
  | error err =>
    rw [save_of_plan_error hplan] at h
    cases h
  | ok plan =>
    obtain ⟨exchanges, held, hexecuted, hsettle⟩ := executed_of_save hs.nodup hplan h
    have hentries : ∀ e ∈ s.entries, Command.ofEntry e {} = .ok none ∧ s'.entryOf e.id = some e ∨
        ∃ x ∈ exchanges, Command.ofEntry e {} = .ok (some x.command) ∧
          ∃ e', s'.entryOf e.id = some e' ∧ e.SavedBy x.command x.generated e' := by
      intro e he
      obtain ⟨made, hmake, -⟩ := Plan.ofEntry_of_mem hplan he
      cases made with
      | none => exact .inl ⟨hmake, entryOf_of_no_command hs hplan hexecuted hsettle he hmake⟩
      | some c =>
        obtain ⟨x, hx, rfl, hsaved⟩ := savedBy_of_mem hs hbase own hplan hexecuted hsettle he hmake
        exact .inr ⟨x, hx, hmake, hsaved⟩
    obtain ⟨hids, -, -⟩ := settled_of_plan hs hplan (List.Sublist.refl _) hsettle
    have hsent := sent_settle plan.commands (s.staged held (exchanges.map (·.message)))
    rw [hsettle] at hsent
    refine ⟨plan, exchanges, rfl, hexecuted.sends, hexecuted.carriedOut, hsent, hids, hentries, ?_⟩
    intro d' executor'
    refine save_of_no_commands fun e' he' => ?_
    have hmem : e'.id ∈ s.ids := hids ▸ List.mem_map_of_mem he'
    obtain ⟨e, he, hid⟩ := List.mem_map.1 hmem
    have hfound : s'.entryOf e.id = some e' := hid ▸ entryOf_of_mem (hids ▸ hs.nodup) he'
    rcases hentries e he with ⟨hmake, hstays⟩ | ⟨x, -, -, e₁, he₁, hsaved⟩
    · rw [hfound] at hstays
      cases hstays
      exact hmake
    · rw [hfound] at he₁
      cases he₁
      refine ofEntry_of_no_operation ?_
      rcases hsaved.state with ⟨-, hstate⟩ | ⟨-, hstate⟩ <;> rw [hstate] <;> rfl

end Saving

/-! ## An example -/

namespace People

/-- A store that takes every row, and numbers them. -/
def numbering : Executor := fun sent => .ok (.rows [[.bigInt (.ofNat sent.length)]])

theorem added_valid (number : Nat) (kind : NativeKind) : (added number kind).Valid where
  placed := by
    constructor
    · intro i p h
      match i with
      | 0 | 1 =>
        cases h
        rfl
      | _ + 2 => cases h
    · intro p hp
      rcases List.mem_pair.1 hp with rfl | rfl <;> rfl
  shadow := rfl
  native := by
    intro a ha
    refine ⟨_, rfl, ?_⟩
    rcases List.mem_pair.1 ha with h | h <;> cases h <;> rfl

theorem scope_valid (kind : NativeKind) : (scope kind).Valid where
  nodup := (by decide : [(⟨1⟩ : EntryId), ⟨2⟩].Nodup)
  entries := by
    intro e he
    rcases List.mem_pair.1 he with rfl | rfl <;> exact added_valid _ kind

theorem added_onlyBaseline (number : Nat) (kind : NativeKind) :
    (added number kind).OnlyBaseline := by
  intro t ht
  exact ⟨[], List.mem_singleton.1 ht⟩

theorem added_ownFields (number : Nat) : (added number .int64).OwnFields where
  served := by
    intro p hp a ha
    rcases List.mem_pair.1 hp with rfl | rfl <;> cases ha
    · exact (Accessor.field_holds _ _ .int64).serves rfl rfl rfl
    · exact (Accessor.field_holds _ _ .string).serves rfl rfl rfl
  apart := by
    intro p hp q hq hne a b ha hb
    rcases List.mem_pair.1 hp with rfl | rfl <;> rcases List.mem_pair.1 hq with rfl | rfl <;>
      cases ha <;> cases hb
    · exact absurd rfl hne
    · exact Accessor.field_apart (by decide)
    · exact Accessor.field_apart (by decide)
    · exact absurd rfl hne

end People

namespace Saving

open People

theorem save_accepts_people :
    (People.scope .int64).Valid ∧ (∀ e ∈ (People.scope .int64).entries, e.OnlyBaseline) ∧
    (∀ e ∈ (People.scope .int64).entries, e.OwnFields) ∧
    ∃ counts s', save .sqlite numbering (People.scope .int64) = (.ok counts, s') ∧
      ∀ d' executor', save d' executor' s' = (.ok {}, s') := by
  have hs := scope_valid .int64
  have hbase : ∀ e ∈ (People.scope .int64).entries, e.OnlyBaseline := by
    intro e he
    rcases List.mem_pair.1 he with rfl | rfl <;> exact added_onlyBaseline _ _
  have own : ∀ e ∈ (People.scope .int64).entries, e.OwnFields := by
    intro e he
    rcases List.mem_pair.1 he with rfl | rfl <;> exact added_ownFields _
  have hok : (save .sqlite numbering (People.scope .int64)).1.isOk := by
    rw [save, plan_scope]
    decide +kernel
  rcases hsave : save .sqlite numbering (People.scope .int64) with ⟨err | counts, s'⟩
  · rw [hsave] at hok
    cases hok
  · obtain ⟨plan, exchanges, -, -, -, -, -, -, hagain⟩ := save_accepts hs hbase own hsave
    exact ⟨hs, hbase, own, counts, s', rfl, hagain⟩

end Saving

end EntityMapper
