import EntityMapper.Proofs.Tracking.Drawing
import EntityMapper.Proofs.Tracking.Make
import Mathlib.Logic.Relation

/-!
# The lifecycle of an entry

Whatever an action does, for the lifecycle of its entry it is a run of a few kinds of steps
(`Scope.Step`): values change, or generated values are drawn, and neither concerns the lifecycle; a
flag is set or taken away; or the entry enters a state, with the flags that go with it. In the last
two the tracked set follows.

`Scope.Leads moves s s'` says that such steps lead from `s` to `s'`, where the entry enters states
only as `moves` permits. What generators give on the way is drawn for properties of the entry's type
(`Scope.Leads.generators`). Each action has a lemma `…_keeps`, which says that it goes on by such steps,
also where it fails: writing permits no moves of its own, accepting none to the deleted state, and no
action one from added to deleted. An invariant of the lifecycle is then shown for one step.

For invariants of other kinds, on which values may matter, there is `Action.Unmarked`: those to which
flags and drawn values are no matter. For them it is enough to look at writing and at entering states,
and at detecting changes unless snapshots are no matter, too (`Action.Indifferent`).
-/

namespace EntityMapper

open Stepwise

/-! ## Steps of a lifecycle -/

/-- The flags that go with a state. -/
def Entry.flagsFor (e : Entry) : EntityState → List Bool
  | .modified => e.flagAll.modified
  | .unchanged => e.clearFlags.modified
  | _ => e.modified

namespace Scope

/-- The entry with other flags. -/
def withFlags (s : Scope) (flags : List Bool) : Scope :=
  { s with entry := { s.entry with modified := flags } }

/-- The entry in another state, and the tracked set in step with it. -/
def moveTo (s : Scope) (new : EntityState) : Scope where
  entry := { s.entry with state := new }
  session := { s.session with tracker :=
    if !new.isTracked then s.session.tracker.stop s.entry.id
    else if s.entry.state.isTracked then s.session.tracker.update s.entry.id new
    else s.session.tracker.start s.entry.id s.entry.type.name new }

/-- The flag at a position set or taken away. The first flag of an unchanged entry makes it modified,
and a modified entry without flags becomes unchanged. -/
def flag (s : Scope) (i : Nat) (on : Bool) : Scope :=
  let flags := s.entry.modified.set i on
  if on && s.entry.state = .unchanged then (s.withFlags flags).moveTo .modified
  else if !on && s.entry.state = .modified && !flags.any id then
    (s.withFlags flags).moveTo .unchanged
  else s.withFlags flags

/-- The entry in another state, with the flags that go with it. -/
def enter (s : Scope) (new : EntityState) : Scope :=
  (s.withFlags (s.entry.flagsFor new)).moveTo new

/-- Which states an entry may enter, from which. -/
abbrev Moves := EntityState → EntityState → Prop

/-- No state is entered. -/
def Moves.none : Moves := fun _ _ => False

/-- Nothing is deleted. -/
def Moves.sparing : Moves := fun _ new => new ≠ .deleted

/-- What is deleted was not added. -/
def Moves.lawful : Moves := fun old new => old = .added → new ≠ .deleted

/-- One step of the lifecycle of an entry. -/
inductive Step (moves : Moves) (s : Scope) : Scope → Prop
  /-- Other values. -/
  | values {e : Entry} (h : s.entry.Revalued e) : Step moves s { s with entry := e }
  /-- A use of the generators. -/
  | draw {g : Generators} (h : s.session.generators.Draws s.entry.type g) :
      Step moves s { s with session := { s.session with generators := g } }
  /-- A flag of a property set or taken away. -/
  | flag {i : Nat} (on : Bool) (h : i < s.entry.type.properties.length) :
      Step moves s (s.flag i on)
  /-- A state entered. -/
  | enter {new : EntityState} (h : moves s.entry.state new) : Step moves s (s.enter new)

/-- Steps of the lifecycle lead from one scope to another. -/
def Leads (moves : Moves) : Scope → Scope → Prop :=
  Relation.ReflTransGen (Step moves)

variable {moves : Moves} {s₀ s s' : Scope}

theorem Leads.refl (s : Scope) : s.Leads moves s := Relation.ReflTransGen.refl

theorem Leads.step (h : s₀.Leads moves s) (hs : s.Step moves s') : s₀.Leads moves s' :=
  Relation.ReflTransGen.tail h hs

theorem Leads.trans (h : s₀.Leads moves s) (h' : s.Leads moves s') : s₀.Leads moves s' :=
  Relation.ReflTransGen.trans h h'

/-- More moves may be permitted. -/
theorem Leads.mono {moves' : Moves} (hmoves : ∀ old new, moves old new → moves' old new)
    (h : s.Leads moves s') : s.Leads moves' s' := by
  refine Relation.ReflTransGen.mono (fun s₁ s₂ hs => ?_) _ _ h
  cases hs with
  | values h => exact .values h
  | draw h => exact .draw h
  | flag on h => exact .flag on h
  | enter h => exact .enter (hmoves _ _ h)

/-! ### What no step changes -/

/-- Flagging changes flags, and the state perhaps. -/
theorem flag_cases (s : Scope) (i : Nat) (on : Bool) :
    s.flag i on = s.withFlags (s.entry.modified.set i on) ∨
    s.flag i on = (s.withFlags (s.entry.modified.set i on)).moveTo .modified ∨
    s.flag i on = (s.withFlags (s.entry.modified.set i on)).moveTo .unchanged := by
  unfold flag
  dsimp only
  split
  · exact .inr (.inl rfl)
  · split
    · exact .inr (.inr rfl)
    · exact .inl rfl

theorem entry_flag (s : Scope) (i : Nat) (on : Bool) :
    ∃ state modified, (s.flag i on).entry = { s.entry with state, modified } := by
  rcases s.flag_cases i on with h | h | h <;> rw [h]
  · exact ⟨s.entry.state, _, rfl⟩
  · exact ⟨.modified, _, rfl⟩
  · exact ⟨.unchanged, _, rfl⟩

/-- Setting a flag makes an unchanged or modified entry a modified one. -/
theorem entry_flag_on {i : Nat} (h : s.entry.state = .unchanged ∨ s.entry.state = .modified) :
    (s.flag i true).entry =
      { s.entry with state := .modified, modified := s.entry.modified.set i true } := by
  obtain ⟨⟨id, type, native, shadow, accessors, state, modified, sidecars, snapshot⟩, session⟩ := s
  rcases h with rfl | rfl <;> rfl

theorem Step.make (h : s.Step moves s') : s'.entry.make = s.entry.make := by
  cases h with
  | values h => exact h.make
  | draw h => rfl
  | @flag i on h => rcases s.flag_cases i on with h | h | h <;> rw [h] <;> rfl
  | enter h => rfl

theorem Step.made (h : s.Step moves s') : s'.session.made = s.session.made := by
  cases h with
  | values h => rfl
  | draw h => rfl
  | @flag i on h => rcases s.flag_cases i on with h | h | h <;> rw [h] <;> rfl
  | enter h => rfl

theorem Step.registry (h : s.Step moves s') : s'.session.registry = s.session.registry := by
  cases h with
  | values h => rfl
  | draw h => rfl
  | @flag i on h => rcases s.flag_cases i on with h | h | h <;> rw [h] <;> rfl
  | enter h => rfl

theorem Leads.make (h : s.Leads moves s') : s'.entry.make = s.entry.make := by
  induction h with
  | refl => rfl
  | tail _ hs ih => exact hs.make.trans ih

theorem Leads.made (h : s.Leads moves s') : s'.session.made = s.session.made := by
  induction h with
  | refl => rfl
  | tail _ hs ih => exact hs.made.trans ih

theorem Leads.registry (h : s.Leads moves s') : s'.session.registry = s.session.registry := by
  induction h with
  | refl => rfl
  | tail _ hs ih => exact hs.registry.trans ih

theorem Leads.id (h : s.Leads moves s') : s'.entry.id = s.entry.id := congrArg Make.id h.make

theorem Leads.type (h : s.Leads moves s') : s'.entry.type = s.entry.type := congrArg Make.type h.make

/-- On the way the generators are used for the type of the entry. -/
theorem Leads.generators {types : List EntityType} (h : s.Leads moves s')
    (distinct : EntityType.Distinct types) (ht : s.entry.type ∈ types) :
    s.session.generators.Continues types s'.session.generators := by
  induction h with
  | refl => exact .refl types _
  | @tail s₁ s₂ hs₁ hs ih =>
    refine ih.trans ?_
    cases hs with
    | values h => exact .refl types _
    | draw h => exact h.continues distinct (Leads.type hs₁ ▸ ht)
    | @flag i on h => rcases s₁.flag_cases i on with h | h | h <;> rw [h] <;> exact .refl types _
    | enter h => exact .refl types _

/-! ### Where the moves lead -/

theorem state_flag_of_unknown {i : Nat} {on : Bool} (h : s.entry.state = .unknown) :
    (s.flag i on).entry.state = .unknown := by
  simp [flag, withFlags, h]

/-- Without moves an unknown entry stays unknown. -/
theorem Leads.unknown (h : s.Leads Moves.none s') (hs : s.entry.state = .unknown) :
    s'.entry.state = .unknown := by
  induction h with
  | refl => exact hs
  | tail _ hstep ih =>
    cases hstep with
    | values h => exact h.state.trans ih
    | draw h => exact ih
    | flag on h => exact state_flag_of_unknown ih
    | enter h => exact h.elim

/-- Where nothing is deleted, an entry that is not deleted is not afterwards. -/
theorem Leads.ne_deleted (h : s.Leads Moves.sparing s') (hs : s.entry.state ≠ .deleted) :
    s'.entry.state ≠ .deleted := by
  induction h with
  | refl => exact hs
  | @tail s₁ _ _ hstep ih =>
    cases hstep with
    | values h => exact h.state ▸ ih
    | draw h => exact ih
    | @flag i on h =>
      rcases s₁.flag_cases i on with h | h | h <;> rw [h]
      · exact ih
      · nofun
      · nofun
    | enter h => exact h

end Scope

/-! ## Actions -/

namespace Action

open Scope

variable {moves : Moves} {I : Scope → Prop} {s₀ s : Scope} {p : Property} {v : Value} {α : Type}

theorem keeps_modifyEntry {g : Entry → Entry} (h : ∀ e : Entry, e.Revalued (g e)) :
    Keeps (Leads moves s₀) (modifyEntry g) :=
  fun s hs => hs.step (.values (h s.entry))

theorem keeps_update {g : Entry → Result Entry} (h : ∀ e e', g e = .ok e' → e.Revalued e') :
    Keeps (Leads moves s₀) (update g) := by
  intro s hs
  rw [perform_update]
  cases hg : g s.entry with
  | ok e => exact hs.step (.values (h _ _ hg))
  | error err => exact hs

/-- What goes by steps of the lifecycle leaves the make of the entry alone. -/
theorem fixes_make {x : Action α} (h : ∀ s₀, Keeps (Leads Moves.none s₀) x) : Fixes Entry.make x :=
  fun s => (h s s (.refl s)).make

/-- An invariant to which flags and drawn values are no matter. -/
structure Unmarked (I : Scope → Prop) : Prop where
  flag : ∀ {s : Scope} {i : Nat} (on : Bool), i < s.entry.type.properties.length → I s →
    I (s.flag i on)
  draw : ∀ {s : Scope} {g : Generators}, s.session.generators.Draws s.entry.type g → I s →
    I { s with session := { s.session with generators := g } }

/-- An invariant to which snapshots are no matter, either. Actions keep it if writing and entering
states do. -/
structure Indifferent (I : Scope → Prop) : Prop extends Unmarked I where
  snapshot : ∀ {s : Scope} (p : Property) (v : Value), I s →
    I { s with entry := s.entry.recordSnapshot p v }

theorem leads_indifferent : Indifferent (Leads moves s₀) where
  flag on hi h := h.step (.flag on hi)
  snapshot p v h := h.step (.values (Entry.recordSnapshot_revalued _ p v))
  draw hg h := h.step (.draw hg)

theorem Indifferent.keeps_recordSnapshot (h : Indifferent I) (p : Property) (v : Value) : Keeps I
    (modifyEntry fun e => if e.type.inRelationship p then e.recordSnapshot p v else e) := by
  intro s hs
  rw [perform_modifyEntry]
  split
  · exact h.snapshot p v hs
  · exact hs

/-! ### States and flags -/

theorem perform_move {old new : EntityState} (h : s.entry.state = old) :
    Stepwise.perform (move old new) s = (.ok (), s.moveTo new) := by
  subst h
  rfl

/-- Flagging a property of the entry. -/
theorem perform_setModified (s : Scope) (p : Property) (on : Bool) :
    Stepwise.perform (setModified p on) s = match s.entry.requireOwned p with
      | .ok _ => (.ok (), s.flag p.index on)
      | .error err => (.error err, s) := by
  rw [setModified, perform_bind, perform_read]
  cases s.entry.requireOwned p with
  | error err => rfl
  | ok _ =>
    dsimp only
    rw [perform_bind, perform_modifyEntry]
    dsimp only
    rw [perform_bind, perform_read]
    dsimp only
    unfold flag
    dsimp only
    split
    · rename_i h
      exact perform_move (by simpa using (Bool.and_eq_true_iff.1 h).2)
    · split
      · rename_i h
        refine perform_move ?_
        simpa using (Bool.and_eq_true_iff.1 (Bool.and_eq_true_iff.1 h).1).2
      · rfl

theorem index_lt_of_requireOwned {e : Entry} (h : e.requireOwned p = .ok ()) :
    p.index < e.type.properties.length :=
  EntityType.index_lt_of_owns (Entry.owns_of_requireOwned h)

theorem Unmarked.keeps_setModified (h : Unmarked I) (p : Property) (on : Bool) :
    Keeps I (setModified p on) := by
  intro s hs
  rw [perform_setModified]
  cases howned : s.entry.requireOwned p with
  | error err => exact hs
  | ok _ => exact h.flag on (index_lt_of_requireOwned howned) hs

theorem setModified_keeps (p : Property) (on : Bool) : Keeps (Leads moves s₀) (setModified p on) :=
  leads_indifferent.keeps_setModified p on

/-! ### Writing -/

/-- The last step of a write, which flags the property of an entry that is stored already. -/
def flagWritten (p : Property) : Action Unit := do
  let e ← read .ok
  if e.state = .unchanged || e.state = .modified then setModified p true

theorem perform_flagWritten (howned : s.entry.type.owns p = true) :
    Stepwise.perform (flagWritten p) s = (.ok (),
      if s.entry.state = .unchanged || s.entry.state = .modified then s.flag p.index true else s) := by
  have hread : s.entry.requireOwned p = .ok () := if_pos howned
  rw [flagWritten, perform_bind, perform_read]
  dsimp only
  split
  · rw [perform_setModified, hread]
  · rfl

theorem Unmarked.keeps_flagWritten (h : Unmarked I) (p : Property) : Keeps I (flagWritten p) :=
  (keeps_read _).bind fun _ => (h.keeps_setModified p true).ite (keeps_pure _)

theorem write_keeps (p : Property) (v : Value) : Keeps (Leads moves s₀) (write p v) := by
  refine (keeps_read _).bind fun current => Keeps.ite (keeps_pure _) ?_
  exact (keeps_update fun _ _ => Entry.captureBaseline_revalued).bind fun _ =>
    (leads_indifferent.keeps_recordSnapshot p v).bind fun _ =>
    (keeps_update fun _ _ => Entry.putPrimary_revalued).bind fun _ =>
    leads_indifferent.keeps_flagWritten p

theorem set_keeps (p : Property) (v : Value) : Keeps (Leads moves s₀) (set p v) := by
  refine (keeps_read _).bind fun _ => (keeps_read _).bind fun v => (keeps_read _).bind fun e => ?_
  split
  · refine keeps_update fun e e' h => ?_
    obtain ⟨s, -, h⟩ := Result.bind_eq_ok_iff.1 h
    cases h
    exact e.revalued_sidecars _
  · exact write_keeps p v

theorem set_fixes_make (p : Property) (v : Value) : Fixes Entry.make (set p v) :=
  fixes_make fun _ => set_keeps p v

theorem setNamed_keeps (name : String) (v : Value) : Keeps (Leads moves s₀) (setNamed name v) :=
  (keeps_read _).bind fun p => set_keeps p v

/-! ### Generation -/

section Generating

variable (h : Unmarked I)
include h

theorem Unmarked.of_type (t : EntityType) : Unmarked fun s => I s ∧ s.entry.type = t where
  flag := by
    rintro s i on hi ⟨hs, rfl⟩
    obtain ⟨state, modified, hentry⟩ := s.entry_flag i on
    exact ⟨h.flag on hi hs, by rw [hentry]⟩
  draw hg hs := ⟨h.draw hg hs.1, hs.2⟩

theorem Unmarked.keeps_generate (hp : ∀ s, I s → p ∈ s.entry.type.properties)
    (hset : ∀ v, Keeps I (set p v)) : Keeps I (generate p) := by
  have hchoose : Keeps I (choose p) := by
    intro s hs
    simp only [choose, perform_mk]
    split
    · next hg => exact h.draw (.choose (hp s hs) hg) hs
    · exact hs
  have hdraw : ∀ id, Keeps I (Action.draw id p) := fun id s hs => h.draw (.next (hp s hs) id) hs
  refine Keeps.ite ((keeps_read _).bind fun current => Keeps.ite ?_ (keeps_pure _)) (keeps_pure _)
  exact hchoose.bind fun id => (hdraw id).bind hset

/-- Generating values for an entry writes values to its properties. -/
theorem Unmarked.keeps_generates (hset : ∀ p ∈ s.entry.type.properties, ∀ v, Keeps I (set p v))
    (hs : I s) : I (Stepwise.perform (s.entry.type.properties.forM generate) s).2 := by
  have hkeeps : Keeps (fun s' => I s' ∧ s'.entry.type = s.entry.type)
      (s.entry.type.properties.forM generate) := by
    refine Keeps.forM fun p hp => (h.of_type _).keeps_generate (fun s' hs' => hs'.2 ▸ hp) fun v s' hs' =>
      ⟨hset p hp v s' hs'.1, ?_⟩
    exact (congrArg Make.type (set_fixes_make p v s')).trans hs'.2
  exact (hkeeps s ⟨hs, rfl⟩).1

end Generating

/-! ### Entering states -/

/-- The state that is entered when a state is asked for. -/
def entered (old target : EntityState) : EntityState :=
  if old = .added && target = .deleted then .unknown else target

theorem entered_ne_deleted {old target : EntityState} (h : old = .added) :
    entered old target ≠ .deleted := by
  subst h
  cases target <;> decide

/-- Entering a state sets the flags that go with it, and then the state. -/
theorem perform_enter {old : EntityState} (new : EntityState) (h : s.entry.state = old) :
    Stepwise.perform (do
      modifyEntry fun e => match new with
        | .modified => e.flagAll
        | .unchanged => e.clearFlags
        | _ => e
      move old new) s = (.ok (), s.enter new) := by
  subst h
  cases new <;> rfl

/-- Generating values leaves an unknown entry unknown. -/
theorem state_generate (h : s.entry.state = .unknown) :
    (Stepwise.perform (s.entry.type.properties.forM generate) s).2.entry.state = .unknown := by
  have hleads : s.Leads Moves.none (Stepwise.perform (s.entry.type.properties.forM generate) s).2 :=
    leads_indifferent.keeps_generates (fun p _ => set_keeps p) (.refl s)
  exact hleads.unknown h

/-- Asking for the state that the entry is in. -/
theorem perform_setState_self {target : EntityState}
    (h : s.entry.state = entered s.entry.state target) :
    Stepwise.perform (setState target) s = (.ok (), s) := by
  rw [setState, perform_bind, perform_read]
  dsimp only
  rw [← entered, if_pos h]
  rfl

/-- Asking for another state: an unknown entry that becomes added gets its generated values first,
which may fail; then the state is entered. -/
theorem perform_setState {target : EntityState} (h : s.entry.state ≠ entered s.entry.state target) :
    Stepwise.perform (setState target) s =
      if s.entry.state = .unknown ∧ entered s.entry.state target = .added then
        match Stepwise.perform (s.entry.type.properties.forM generate) s with
        | (.ok _, s₁) => (.ok (), s₁.enter (entered s.entry.state target))
        | (.error err, s₁) => (.error err, s₁)
      else (.ok (), s.enter (entered s.entry.state target)) := by
  rw [setState, perform_bind, perform_read]
  dsimp only
  rw [← entered, if_neg h]
  split
  · rename_i hnew
    have hnew : s.entry.state = .unknown ∧ entered s.entry.state target = .added := by
      simpa using hnew
    rw [if_pos hnew, perform_bind, perform_read]
    dsimp only
    rw [perform_bind]
    have hunknown := state_generate hnew.1
    rcases hrun : Stepwise.perform (s.entry.type.properties.forM generate) s with ⟨err | _, s₁⟩
    · rfl
    · rw [hrun] at hunknown
      exact perform_enter _ (hunknown.trans hnew.1.symm)
  · rename_i hnew
    rw [if_neg (by simpa using hnew)]
    exact perform_enter _ rfl

/-- An unknown entry becomes added once it has got its generated values. -/
theorem perform_setState_added (h : s.entry.state = .unknown) :
    Stepwise.perform (setState .added) s =
      match Stepwise.perform (s.entry.type.properties.forM generate) s with
      | (.ok _, s₁) => (.ok (), s₁.enter .added)
      | (.error err, s₁) => (.error err, s₁) := by
  have hentered : entered s.entry.state .added = .added := by
    rw [h]
    rfl
  rw [perform_setState (by rw [hentered, h]; nofun), if_pos ⟨h, hentered⟩, hentered]

theorem Unmarked.keeps_setState (h : Unmarked I)
    (hset : ∀ s, I s → ∀ p ∈ s.entry.type.properties, ∀ v, Keeps I (set p v))
    {target : EntityState} (henter : ∀ s, I s → I (s.enter (entered s.entry.state target))) :
    Keeps I (setState target) := by
  intro s hs
  by_cases hsame : s.entry.state = entered s.entry.state target
  · rw [perform_setState_self hsame]
    exact hs
  · rw [perform_setState hsame]
    split
    · rename_i hnew
      have hgenerate := h.keeps_generates (hset s hs) hs
      have hunknown := state_generate hnew.1
      rcases hrun : Stepwise.perform (s.entry.type.properties.forM generate) s with ⟨err | _, s₁⟩
      · rwa [hrun] at hgenerate
      · rw [hrun] at hgenerate hunknown
        -- Generating values leaves the entry unknown, so the state to be entered is the same.
        have hstate : s₁.entry.state = s.entry.state := hunknown.trans hnew.1.symm
        exact hstate ▸ henter s₁ hgenerate
    · exact henter s hs

theorem setState_keeps {target : EntityState} (h : ∀ old, moves old (entered old target)) :
    Keeps (Leads moves s₀) (setState target) :=
  leads_indifferent.keeps_setState (fun _ _ p _ => set_keeps p) fun _ hs => hs.step (.enter (h _))

/-- An added entry that is to be deleted becomes unknown. -/
theorem perform_setState_deleted_of_added (h : s.entry.state = .added) :
    Stepwise.perform (setState .deleted) s = (.ok (), s.moveTo .unknown) := by
  have hentered : entered s.entry.state .deleted = .unknown := by
    rw [h]
    rfl
  rw [perform_setState (by rw [hentered, h]; nofun), hentered, if_neg (by rw [h]; nofun)]
  rfl

/-- Asking for a state other than deleted deletes nothing. -/
theorem sparing_entered {target : EntityState} (h : target ≠ .deleted) (old : EntityState) :
    Moves.sparing old (entered old target) := by
  unfold entered
  split
  · nofun
  · exact h

/-! ### Accepting and detecting changes -/

theorem rebase_keeps : Keeps (Leads moves s₀) rebase :=
  (keeps_modifyEntry Entry.clearBaseline_revalued).bind fun _ =>
    (keeps_update fun _ _ => Entry.captureAllIfEager_revalued).bind fun _ =>
    (keeps_read _).bind fun _ => Keeps.forM fun p _ => (keeps_read _).bind fun v =>
    keeps_modifyEntry fun e => e.recordSnapshot_revalued p v

theorem accept_keeps : Keeps (Leads Moves.sparing s₀) accept := by
  refine (keeps_read _).bind fun e => ?_
  split
  · exact keeps_pure _
  · exact keeps_pure _
  · exact setState_keeps (sparing_entered (by decide))
  all_goals exact rebase_keeps.bind fun _ => setState_keeps (sparing_entered (by decide))

theorem Unmarked.keeps_detectAt (h : Unmarked I)
    (hrecord : ∀ v, Keeps I (modifyEntry (·.recordSnapshot p v))) : Keeps I (detectAt p) := by
  refine (keeps_read _).bind fun current => (keeps_read _).bind fun e => ?_
  have rest : ∀ seen answer, Keeps I (do
      if seen = true then modifyEntry (·.recordSnapshot p current)
      return answer : Action Bool) := fun seen answer =>
    Keeps.ite ((hrecord current).bind fun _ => keeps_pure _) (keeps_pure _)
  exact Keeps.ite ((h.keeps_setModified p true).bind fun _ => rest _ _) (rest _ _)

/-- Detecting changes records values of the properties of the entry. -/
theorem Unmarked.keeps_detect (h : Unmarked I) (hrecord : ∀ s, I s →
    ∀ p ∈ s.entry.type.properties, ∀ v, Keeps I (modifyEntry (·.recordSnapshot p v))) :
    Keeps I detect := by
  refine keeps_bind_read fun s hs e he => ?_
  cases he
  refine Keeps.ite ?_ (keeps_pure _) s hs
  exact Keeps.foldlM (fun _ p hp =>
    (h.keeps_detectAt (hrecord s hs p hp)).bind fun _ => keeps_pure _) _

theorem Indifferent.keeps_detect (h : Indifferent I) : Keeps I detect :=
  h.toUnmarked.keeps_detect fun _ _ p _ v _ hs => h.snapshot p v hs

theorem detect_keeps : Keeps (Leads moves s₀) detect :=
  leads_indifferent.keeps_detect

/-! ### Committing -/

theorem commitValue_keeps (p : Property) (v : Value) : Keeps (Leads moves s₀) (commitValue p v) :=
  (keeps_update fun _ _ => Entry.putPrimary_revalued).bind fun _ =>
    leads_indifferent.keeps_recordSnapshot p v

theorem commitValue_fixes_make (p : Property) (v : Value) : Fixes Entry.make (commitValue p v) :=
  fixes_make fun _ => commitValue_keeps p v

theorem commit_keeps : Keeps (Leads moves s₀) commit :=
  (keeps_read _).bind fun _ => (keeps_modifyEntry fun e => e.revalued_sidecars _).bind fun _ =>
    Keeps.forM fun _ _ => Keeps.forM fun _ _ => commitValue_keeps _ _

theorem commit_fixes_make : Fixes Entry.make commit :=
  fixes_make fun _ => commit_keeps

theorem settle_keeps : Keeps (Leads Moves.sparing s₀) settle :=
  commit_keeps.bind fun _ => accept_keeps

/-- Receiving a row prepares the entry, if need be, and puts values into its sidecar. -/
theorem keeps_receive {c : Command} {row : List Value}
    (hprepare : Keeps I (modifyEntry fun e => if e.isPrepared then e else e.prepare))
    (htake : ∀ column ∈ c.reads, ∀ v,
      Keeps I (update (·.setSidecarValue Sidecar.generatedName column.property v))) :
    Keeps I (c.receive row) := by
  refine Keeps.ite ((keeps_throw _).bind fun _ => hprepare.bind fun _ => ?_)
    (hprepare.bind fun _ => ?_)
  all_goals exact Keeps.forM fun pair hpair => htake pair.1 (List.of_mem_zip hpair).1 pair.2

theorem receive_keeps (c : Command) (row : List Value) :
    Keeps (Leads moves s₀) (c.receive row) := by
  refine keeps_receive (keeps_modifyEntry fun e => ?_) fun _ _ _ =>
    keeps_update fun _ _ => Entry.setSidecarValue_revalued
  split
  · exact .refl e
  · exact e.revalued_sidecars _

end Action

end EntityMapper
