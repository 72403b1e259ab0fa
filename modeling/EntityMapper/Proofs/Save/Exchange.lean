import EntityMapper.Proofs.Save.Planning
import EntityMapper.Proofs.Save.Scope

/-!
# The exchange with the store

A save sends commands one after the other, up to the first that fails, and takes the answers.

* `Command.Accepts` says which answers are accepted, and what they return for the columns that are
  read back; `Command.Refuses` gives the error for every other answer
  (`Command.accepts_or_refuses`).
* `CarriedOut` is a run of commands that the store answered and whose answers were accepted, and
  `FailsAt` is the command at which a run ends.
* `Saving.perform_take` says what taking an answer does to the scope of a save.
-/

namespace EntityMapper

open Stepwise

/-! ## Answers -/

namespace Command

variable {c : Command} {text : String} {answer : StoreResult} {ws : List Value} {err : Error}

/-- The command as it is sent. -/
def message (c : Command) (d : Dialect) : Result SentCommand :=
  (c.sql d).map fun text => ⟨text, c.parameters⟩

/-- The store did what the command asks for, and returned these values for the columns that are
read back. -/
inductive Accepts (c : Command) : StoreResult → List Value → Prop
  /-- One row with an acceptable value for each column that is read back. -/
  | row {row ws : List Value} (reads : c.readsBack = true) (length : row.length = c.reads.length)
      (values : c.coerced row = .ok ws) : Accepts c (.rows [row]) ws
  /-- One row was affected. -/
  | count (reads : c.readsBack = false) : Accepts c (.affected 1) []
  /-- The same, told by a row that holds the number one. -/
  | number {v : Value} (reads : c.readsBack = false) (one : v.integer? = some 1) :
      Accepts c (.rows [[v]]) []

/-- The error for an answer that is not accepted. -/
inductive Refuses (c : Command) (text : String) : StoreResult → Error → Prop
  | countForValues {n : Nat} (reads : c.readsBack = true) :
      Refuses c text (.affected n) (.update .countForValues (some text))
  | notOneRow {rows : List (List Value)} (reads : c.readsBack = true) (rows_ne : rows.length ≠ 1) :
      Refuses c text (.rows rows) (.update (.affected rows.length) (some text))
  | notEachColumn {row : List Value} (reads : c.readsBack = true)
      (length_ne : row.length ≠ c.reads.length) : Refuses c text (.rows [row])
        (.update (.generatedCount c.reads.length c.entityType.name row.length) none)
  | badValue {row : List Value} {err : Error} (reads : c.readsBack = true)
      (length : row.length = c.reads.length) (values : c.coerced row = .error err) :
      Refuses c text (.rows [row]) err
  | wrongCount {n : Nat} (reads : c.readsBack = false) (n_ne : n ≠ 1) :
      Refuses c text (.affected n) (.update (.affected n) (some text))
  | wrongNumber {v : Value} {n : Nat} (reads : c.readsBack = false) (number : v.integer? = some n)
      (n_ne : n ≠ 1) : Refuses c text (.rows [[v]]) (.update (.affected n) (some text))
  | notNumber {v : Value} (reads : c.readsBack = false) (number : ∀ n : Nat, v.integer? ≠ some n) :
      Refuses c text (.rows [[v]]) (.update .countNotNumber (some text))
  | notOneColumn {row : List Value} (reads : c.readsBack = false) (row_ne : row.length ≠ 1) :
      Refuses c text (.rows [row]) (.update .countColumns (some text))
  | notOneCount {rows : List (List Value)} (reads : c.readsBack = false)
      (rows_ne : rows.length ≠ 1) :
      Refuses c text (.rows rows) (.update .countRows (some text))

end Command

/-! ## Runs of commands -/

/-- A command that was sent, with the answer and the values that it returned. -/
structure Exchange where
  command : Command
  message : SentCommand
  answer : StoreResult
  generated : List Value

/-- After some messages were sent, commands are sent one after the other, and each answer is
accepted. -/
inductive CarriedOut (d : Dialect) (executor : Executor) : List SentCommand → List Exchange → Prop
  | nil {sent : List SentCommand} : CarriedOut d executor sent []
  | cons {sent : List SentCommand} {x : Exchange} {exchanges : List Exchange}
      (message : x.command.message d = .ok x.message)
      (answer : executor (sent ++ [x.message]) = .ok x.answer)
      (accepts : x.command.Accepts x.answer x.generated)
      (rest : CarriedOut d executor (sent ++ [x.message]) exchanges) :
      CarriedOut d executor sent (x :: exchanges)

theorem CarriedOut.append {d : Dialect} {executor : Executor} {sent : List SentCommand}
    {x : Exchange} {exchanges : List Exchange} (hx : CarriedOut d executor sent [x])
    (h : CarriedOut d executor (sent ++ [x.message]) exchanges) :
    CarriedOut d executor sent (x :: exchanges) := by
  cases hx with
  | cons message answer accepts _ => exact .cons message answer accepts h

/-- After some messages were sent, a command fails: it has no text, or the store fails, or the
answer is refused. The list has the message of the command if it was sent. -/
inductive FailsAt (d : Dialect) (executor : Executor) (sent : List SentCommand) (c : Command) :
    List SentCommand → Error → Prop
  | unwritten {err : Error} (message : c.message d = .error err) : FailsAt d executor sent c [] err
  | unanswered {m : SentCommand} {err : Error} (message : c.message d = .ok m)
      (answer : executor (sent ++ [m]) = .error err) : FailsAt d executor sent c [m] err
  | refused {m : SentCommand} {answer : StoreResult} {err : Error} (message : c.message d = .ok m)
      (answered : executor (sent ++ [m]) = .ok answer) (refuses : c.Refuses m.text answer err) :
      FailsAt d executor sent c [m] err

namespace Saving

open SaveScope Command

variable {d : Dialect} {executor : Executor} {s : SaveScope} {e : Entry} {c : Command}
  {held : EntryId → Option (List (Nat × Value))} {messages : List SentCommand}
  {values : List (Nat × Value)}

theorem perform_send (m : SentCommand) : perform (send executor m) (s.staged held messages) =
    (executor (s.sent ++ messages ++ [m]), s.staged held (messages ++ [m])) := by
  have hsent : s.sent ++ messages ++ [m] = s.sent ++ (messages ++ [m]) := List.append_assoc ..
  rw [send, perform_mk]
  simp only [staged, hsent]

theorem perform_check_ok {α : Type} (text : String) (a : α) (s : SaveScope) :
    perform (check text (.ok a)) s = (.ok a, s) := rfl

theorem perform_check_error {α : Type} (text : String) (cause : UpdateError) (s : SaveScope) :
    perform (check text (.error cause) : Saving α) s = (.error (.update cause (some text)), s) :=
  rfl

theorem perform_runCommand_unwritten {err : Error} (h : c.message d = .error err) (s : SaveScope) :
    perform (runCommand d executor c) s = (.error err, s) := by
  unfold message at h
  unfold runCommand
  cases ht : c.sql d with
  | error err' =>
    rw [ht] at h
    cases h
    rfl
  | ok text =>
    rw [ht] at h
    cases h

theorem perform_runCommand_written {m : SentCommand} (h : c.message d = .ok m) :
    perform (runCommand d executor c) (s.staged held messages) =
      perform (send executor m >>= take c m.text) (s.staged held messages) := by
  unfold message at h
  unfold runCommand
  cases ht : c.sql d with
  | error err =>
    rw [ht] at h
    cases h
  | ok text =>
    rw [ht] at h
    cases h
    rfl

/-- A row of generated values goes into the entry, up to the first that is refused. -/
theorem perform_onEntry_receive (hnodup : s.ids.Nodup) (he : e ∈ s.entries) (hc : CommandOf e c)
    (hheld : held c.entry = some values) (row : List Value) (messages : List SentCommand) :
    ∃ values', perform (onEntry c.entry (c.receive row)) (s.staged held messages) =
      (if c.reads.length ≠ row.length then
        .error (.update (.generatedCount c.reads.length c.entityType.name row.length) none)
      else (c.coerced row).map fun _ => (),
        s.staged (Function.update held c.entry (some values')) messages) ∧
      ∀ ws, c.reads.length = row.length → c.coerced row = .ok ws →
        values' = withGenerated values c.reads ws := by
  have hreads : ∀ column ∈ c.reads, e.type.owns column.property = true ∧
      column.property ∈ e.type.generable := fun column hcolumn =>
    ⟨hc.owns_of_mem_reads hcolumn, hc.generable_of_mem_reads hcolumn⟩
  obtain ⟨values', hrun, hvalues⟩ := perform_receive hreads values row s.session
  refine ⟨values', ?_, hvalues⟩
  rw [hc.entry] at hheld ⊢
  refine perform_onEntry_staged hnodup he ?_
  rw [hheld]
  exact hrun

/-- An answer that reports a number of rows is accepted if that is one. -/
theorem accepts_or_refuses_count (hreads : c.readsBack = false) (text : String)
    (answer : StoreResult) :
    (c.Accepts answer [] ∧ (do checkOneRow (← reportedRows answer)) = .ok ()) ∨
    ∃ cause, c.Refuses text answer (.update cause (some text)) ∧
      (do checkOneRow (← reportedRows answer)) = .error cause := by
  have hcheck : ∀ n, n ≠ 1 → checkOneRow n = .error (.affected n) := fun n hn => if_neg hn
  cases answer with
  | affected n =>
    by_cases hn : n = 1
    · subst hn
      exact .inl ⟨.count hreads, rfl⟩
    · exact .inr ⟨_, .wrongCount hreads hn, hcheck n hn⟩
  | rows rows =>
    match rows with
    | [] => exact .inr ⟨_, .notOneCount hreads nofun, rfl⟩
    | row :: _ :: _ =>
      refine .inr ⟨.countRows, .notOneCount hreads (by simp), ?_⟩
      rcases row with _ | ⟨v, _ | _⟩ <;> rfl
    | [[]] => exact .inr ⟨_, .notOneColumn hreads nofun, rfl⟩
    | [_ :: _ :: _] => exact .inr ⟨_, .notOneColumn hreads (by simp), rfl⟩
    | [[v]] =>
      cases hv : v.integer? with
      | none =>
        refine .inr ⟨.countNotNumber, .notNumber hreads (by simp [hv]), ?_⟩
        rw [reportedRows, hv]
        rfl
      | some n =>
        by_cases hn : 0 ≤ n
        · obtain ⟨n, rfl⟩ := Int.eq_ofNat_of_zero_le hn
          have hrows : reportedRows (.rows [[v]]) = .ok n := by
            rw [reportedRows, hv]
            simp
          rw [hrows]
          by_cases hone : n = 1
          · subst hone
            exact .inl ⟨.number hreads hv, rfl⟩
          · exact .inr ⟨_, .wrongNumber hreads hv hone, hcheck n hone⟩
        · refine .inr ⟨.countNotNumber, .notNumber hreads fun m hm => hn ?_, ?_⟩
          · rw [hv] at hm
            rw [Option.some.inj hm]
            exact Int.natCast_nonneg m
          · rw [reportedRows, hv]
            simp only [if_neg hn]
            rfl

/-- An answer is accepted, and what it returned is held, or it is refused. -/
theorem perform_take (hnodup : s.ids.Nodup) (he : e ∈ s.entries) (hc : CommandOf e c)
    (hheld : held c.entry = some values) (text : String) (answer : StoreResult)
    (messages : List SentCommand) :
    (∃ ws, c.Accepts answer ws ∧ perform (take c text answer) (s.staged held messages) =
      (.ok (), s.staged
        (Function.update held c.entry (some (withGenerated values c.reads ws))) messages)) ∨
    ∃ err held', c.Refuses text answer err ∧
      perform (take c text answer) (s.staged held messages) =
        (.error err, s.staged held' messages) := by
  cases hreads : c.readsBack with
  | false =>
    have htake : take c text answer = check text (do checkOneRow (← reportedRows answer)) :=
      if_neg (by simp [hreads])
    have hkeep : Function.update held c.entry (some (withGenerated values c.reads [])) = held := by
      rw [readsBack_eq_false_iff.1 hreads, withGenerated_nil, ← hheld, Function.update_eq_self]
    rw [htake]
    rcases accepts_or_refuses_count hreads text answer with
      ⟨haccepts, hok⟩ | ⟨cause, hrefuses, herr⟩
    · rw [hok, perform_check_ok]
      exact .inl ⟨[], haccepts, by rw [hkeep]⟩
    · rw [herr, perform_check_error]
      exact .inr ⟨_, held, hrefuses, rfl⟩
  | true =>
    have htake : take c text answer = (do
        let row ← check text (generatedRow answer)
        onEntry c.entry (c.receive row)) := if_pos hreads
    rw [htake]
    cases answer with
    | affected n => exact .inr ⟨_, held, .countForValues hreads, rfl⟩
    | rows rows =>
      match rows with
      | [] => exact .inr ⟨_, held, .notOneRow hreads nofun, rfl⟩
      | _ :: _ :: _ => exact .inr ⟨_, held, .notOneRow hreads (by simp), rfl⟩
      | [row] =>
        obtain ⟨values', hrun, hvalues⟩ :=
          perform_onEntry_receive hnodup he hc hheld row messages
        have hbind := perform_bind_of_ok (perform_check_ok text row (s.staged held messages))
          fun row => onEntry c.entry (c.receive row)
        rw [generatedRow, hbind, hrun]
        by_cases hlen : c.reads.length = row.length
        · rw [if_neg (not_not.2 hlen)]
          cases hws : c.coerced row with
          | error err => exact .inr ⟨err, _, .badValue hreads hlen.symm hws, rfl⟩
          | ok ws =>
            rw [hvalues ws hlen hws]
            exact .inl ⟨ws, .row hreads hlen.symm hws, rfl⟩
        · rw [if_pos hlen]
          exact .inr ⟨_, _, .notEachColumn hreads (Ne.symm hlen), rfl⟩

end Saving

end EntityMapper
