import EntityMapper.Proofs.Command.Edits
import EntityMapper.Proofs.Save.Success

/-!
# Flags and saves

A modified entry that a save makes unchanged has lost its flags. Which of the flagged properties did
the update of the entry write or read back? All but those of the key, for an update does not write
the key; a key property is among them only if the store generates it on updates
(`Saving.save_covers_flags`). A changed key is accepted without being written
(`Saving.save_omits_key_notes`).
-/

namespace EntityMapper

open Stepwise

/-! ## The update of an entry -/

namespace Command

variable {e : Entry} {names : ParameterNames} {c : Command} {p : Property}

/-- A property is written or read back. -/
def Covers (c : Command) (p : Property) : Prop :=
  p ∈ c.settings.map (·.property) ∨ p ∈ c.reads.map (·.property)

/-- An update covers a flagged property outside the key, or one that the store generates on
updates. -/
theorem covers_iff_of_update (h : ofEntry e names = .ok (some c)) (hop : c.operation = .update)
    (hp : p ∈ e.modifiedProperties) :
    c.Covers p ↔ e.type.inKey p = false ∨ p.storeGeneration.update = true := by
  obtain ⟨hmem, hflag⟩ := List.mem_filter.1 hp
  rw [Covers, properties_settings h, properties_reads h, List.mem_filter, List.mem_filter, hop]
  cases hkey : e.type.inKey p <;> cases hgen : p.storeGeneration.update <;>
    simp [rolesAt, rolesOf, hmem, hflag, hkey, hgen]

end Command

/-! ## Accepted entries -/

namespace Saving

variable {d : Dialect} {executor : Executor} {s s' : SaveScope} {e e' : Entry} {counts : SaveCounts}

/-- **Accepted flags.** If a save succeeds and makes a modified entry unchanged, the store has
carried out an update of the entry. Of the properties that were flagged, the update has written or
read back those outside the key, and those that the store generates on updates. -/
theorem save_covers_flags (hs : s.Valid) (h : save d executor s = (.ok counts, s'))
    (he : e ∈ s.entries) (hmodified : e.state = .modified) (he' : s'.entryOf e.id = some e')
    (hunchanged : e'.state = .unchanged) :
    ∃ exchanges, CarriedOut d executor s.sent exchanges ∧
      s'.sent = s.sent ++ exchanges.map (·.message) ∧
      ∃ x ∈ exchanges, Command.ofEntry e {} = .ok (some x.command) ∧
        x.command.operation = .update ∧
        ∀ p ∈ e.modifiedProperties,
          x.command.Covers p ↔ e.type.inKey p = false ∨ p.storeGeneration.update = true := by
  cases hplan : Plan.ofEntries s.entries with
  | error err =>
    rw [save_of_plan_error hplan] at h
    cases h
  | ok plan =>
    obtain ⟨exchanges, held, hexecuted, hsettle⟩ := executed_of_save hs.nodup hplan h
    have hsent := sent_settle plan.commands (s.staged held (exchanges.map (·.message)))
    rw [hsettle] at hsent
    refine ⟨exchanges, hexecuted.carriedOut, hsent, ?_⟩
    obtain ⟨made, hmake, hplanned⟩ := Plan.ofEntry_of_mem hplan he
    cases made with
    | none =>
      -- Without a command the entry would still be modified.
      have hstays := entryOf_of_no_command hs hplan hexecuted hsettle he hmake
      rw [he'] at hstays
      cases hstays
      rw [hmodified] at hunchanged
      cases hunchanged
    | some c =>
      have hmem : c ∈ exchanges.map (·.command) := hexecuted.sends ▸ hplanned c rfl
      obtain ⟨x, hx, rfl⟩ := List.mem_map.1 hmem
      have hop : x.command.operation = .update := by
        have hoperation := (Command.ofEntry_eq_some hmake).operation
        rw [hmodified] at hoperation
        exact (Option.some.inj hoperation).symm
      exact ⟨x, hx, hmake, hop, fun p hp => Command.covers_iff_of_update hmake hop hp⟩

end Saving

/-! ## An example -/

namespace Notes

/-- A note of which the key and the text were written. -/
def rekeyed : Entry :=
  (Action.setAll [(key, .bigInt 2), (body, .text "New")] ⟨loaded (.int 7), session⟩).entry

/-- The command that saves it: the old key is a condition, and the new one is not written. -/
def rekeying : Command :=
  { update (.int 7) with
    columns := ⟨key, { key := true, condition := true }, .bigInt 2, .bigInt 1, none, some "@p0"⟩ ::
      (update (.int 7)).columns.tail }

/-- The text of that command. -/
def rekeyingText : String :=
  "UPDATE \"Note\" SET \"Body\" = @p1\nWHERE \"Id\" = @p0 AND \"Version\" = @p2;\n" ++
    "SELECT changes();\n"

/-- The note, to be saved. -/
def scope : SaveScope where
  entries := [rekeyed]
  session := session

/-- A store in which every command affects one row. -/
def oneRow : Executor := fun _ => .ok (.affected 1)

theorem ofEntry_rekeyed : Command.ofEntry rekeyed {} = .ok (some rekeying) := rfl

theorem plan_scope : Plan.ofEntries scope.entries = .ok ⟨[], [], [rekeying]⟩ := by
  refine Plan.ofEntries_eq_ok_iff.2 ⟨[rekeying], rfl, ?_⟩
  simp [Plan.ofCommands, rekeying, update]

/-- The save succeeds, with one update, and the note is unchanged then. -/
theorem save_scope : ∃ counts s' e', Saving.save .sqlite oneRow scope = (.ok counts, s') ∧
    s'.entryOf rekeyed.id = some e' ∧ e'.state = .unchanged ∧
    s'.sent.map (·.text) = [rekeyingText] := by
  have hrun : (Saving.save .sqlite oneRow scope).1.isOk ∧
      ((Saving.save .sqlite oneRow scope).2.entryOf rekeyed.id).map (·.state) = some .unchanged ∧
      (Saving.save .sqlite oneRow scope).2.sent.map (·.text) = [rekeyingText] := by
    rw [Saving.save, plan_scope]
    decide +kernel
  obtain ⟨hok, hstate, hsent⟩ := hrun
  rcases hsave : Saving.save .sqlite oneRow scope with ⟨err | counts, s'⟩
  · rw [hsave] at hok
    cases hok
  · rw [hsave] at hstate hsent
    obtain ⟨e', he', hunchanged⟩ := Option.map_eq_some_iff.1 hstate
    exact ⟨counts, s', e', rfl, he', hunchanged, hsent⟩

theorem scope_valid : scope.Valid where
  nodup := List.nodup_singleton _
  entries := by
    intro e he
    rw [List.mem_singleton.1 he]
    exact (loaded_valid (.int 7)).of_make (Action.make_setAll _ _)

end Notes

namespace Saving

open Notes

/-- A flagged key is accepted, but was neither written nor read back. -/
theorem save_omits_key_notes :
    rekeyed.state = .modified ∧ key ∈ rekeyed.modifiedProperties ∧
    (∃ counts s' e', save .sqlite oneRow scope = (.ok counts, s') ∧
      s'.entryOf rekeyed.id = some e' ∧ e'.state = .unchanged ∧
      s'.sent.map (·.text) = [rekeyingText]) ∧
    Command.ofEntry rekeyed {} = .ok (some rekeying) ∧ ¬ rekeying.Covers key := by
  refine ⟨rfl, by decide, save_scope, ofEntry_rekeyed, ?_⟩
  unfold Command.Covers
  decide

theorem save_covers_flags_notes :
    ∃ counts s' e', save .sqlite oneRow scope = (.ok counts, s') ∧
      scope.Valid ∧ rekeyed ∈ scope.entries ∧ rekeyed.state = .modified ∧
      s'.entryOf rekeyed.id = some e' ∧ e'.state = .unchanged ∧
      body ∈ rekeyed.modifiedProperties ∧ rekeying.Covers body := by
  obtain ⟨counts, s', e', hsave, he', hunchanged, -⟩ := save_scope
  have hmem : rekeyed ∈ scope.entries := List.mem_singleton_self _
  have hflag : body ∈ rekeyed.modifiedProperties := by decide
  obtain ⟨exchanges, -, -, x, -, hmake, -, hcovers⟩ :=
    save_covers_flags scope_valid hsave hmem rfl he' hunchanged
  rw [ofEntry_rekeyed] at hmake
  have hsame : rekeying = x.command := Option.some.inj (Except.ok.inj hmake)
  exact ⟨counts, s', e', hsave, scope_valid, hmem, rfl, he', hunchanged, hflag,
    hsame ▸ (hcovers body hflag).2 (.inl rfl)⟩

end Saving

end EntityMapper
