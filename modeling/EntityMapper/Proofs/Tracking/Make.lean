import EntityMapper.Command.Basic
import EntityMapper.Proofs.Tracking.Primary
import EntityMapper.Tracking.Factory

/-!
# What actions leave alone

An action changes values, flags, sidecars and the state of its entry, and may stop halfway. Some
things it never touches: `Action.Fixes f` says that `f` reads the same of the entry after an action
as before, whether the action succeeds or fails.

`Entry.make` is what no action changes: identity, entity type, accessors, the native type of the
instance, and the number of slots. Most changes of an entry also leave its state and its flags alone
(`Entry.Revalued`).
-/

namespace EntityMapper

open Stepwise

namespace Action

variable {α β γ : Type} {f : Entry → γ}

@[simp] theorem perform_read (g : Entry → Result α) (s : Scope) :
    Stepwise.perform (read g) s = (g s.entry, s) := rfl

theorem perform_update (g : Entry → Result Entry) (s : Scope) :
    Stepwise.perform (update g) s = match g s.entry with
      | .ok e => (.ok (), { s with entry := e })
      | .error err => (.error err, s) := rfl

/-- What follows a reading that fails is not done. -/
theorem perform_read_bind_of_error {g : Entry → Result α} {s : Scope} {err : Error}
    (h : g s.entry = .error err) (k : α → Action β) :
    Stepwise.perform (read g >>= k) s = (.error err, s) :=
  perform_bind_of_error (by rw [perform_read, h]) k

theorem perform_update_of_error {g : Entry → Result Entry} {s : Scope} {err : Error}
    (h : g s.entry = .error err) : Stepwise.perform (update g) s = (.error err, s) := by
  rw [perform_update, h]

theorem perform_update_eq_ok_iff {g : Entry → Result Entry} {s s' : Scope} :
    Stepwise.perform (update g) s = (.ok (), s') ↔
      ∃ e, g s.entry = .ok e ∧ s' = { s with entry := e } := by
  rw [perform_update]
  cases g s.entry with
  | error err => simp
  | ok e => simp [eq_comm]

@[simp] theorem perform_modifyEntry (g : Entry → Entry) (s : Scope) :
    Stepwise.perform (modifyEntry g) s = (.ok (), { s with entry := g s.entry }) := rfl

@[simp] theorem perform_modifySession (g : Session → Session) (s : Scope) :
    Stepwise.perform (modifySession g) s = (.ok (), { s with session := g s.session }) := rfl

/-! ## Invariants of the entry -/

theorem keeps_read {I : Scope → Prop} (g : Entry → Result α) : Keeps I (read g) := fun _ h => h

/-- What follows a reading may count on what was read. -/
theorem keeps_bind_read {I : Scope → Prop} {g : Entry → Result α} {k : α → Action β}
    (h : ∀ s, I s → ∀ a, g s.entry = .ok a → I (Stepwise.perform (k a) s).2) :
    Keeps I (read g >>= k) := by
  intro s hs
  rw [perform_bind, perform_read]
  cases hg : g s.entry with
  | error err => exact hs
  | ok a => exact h s hs a hg

theorem keeps_modifyEntry_of {I : Entry → Prop} {g : Entry → Entry} (h : ∀ e, I e → I (g e)) :
    Keeps (fun s => I s.entry) (modifyEntry g) :=
  fun s => h s.entry

theorem keeps_update_of {I : Entry → Prop} {g : Entry → Result Entry}
    (h : ∀ e e', I e → g e = .ok e' → I e') : Keeps (fun s => I s.entry) (update g) := by
  intro s hs
  rw [perform_update]
  cases hg : g s.entry with
  | ok e => exact h _ _ hs hg
  | error err => exact hs

/-! ## Fixed readings -/

/-- A reading of the entry that an action does not change, also where it fails. -/
def Fixes (f : Entry → γ) (action : Action α) : Prop :=
  ∀ s, f (Stepwise.perform action s).2.entry = f s.entry

theorem fixes_modifyEntry {g : Entry → Entry} (h : ∀ e, f (g e) = f e) : Fixes f (modifyEntry g) :=
  fun s => h s.entry

theorem fixes_update {g : Entry → Result Entry} (h : ∀ e e', g e = .ok e' → f e' = f e) :
    Fixes f (update g) :=
  fun s => keeps_update_of (fun e e' he hg => (h e e' hg).trans he) s rfl

theorem Fixes.keeps {x : Action α} (h : Fixes f x) (c : γ) : Keeps (fun s => f s.entry = c) x :=
  fun s hs => (h s).trans hs

theorem Fixes.bind {x : Action α} {k : α → Action β} (hx : Fixes f x) (hk : ∀ a, Fixes f (k a)) :
    Fixes f (x >>= k) :=
  fun s => (hx.keeps _).bind (fun a => (hk a).keeps _) s rfl

theorem Fixes.forM {step : α → Action Unit} {as : List α} (h : ∀ a ∈ as, Fixes f (step a)) :
    Fixes f (as.forM step) :=
  fun s => Keeps.forM (fun a ha => (h a ha).keeps _) s rfl

end Action

/-! ## The make of an entry -/

/-- What stays the same about an entry for good. -/
structure Make where
  id : EntryId
  type : EntityType
  accessors : List (Option Accessor)
  native : Option NativeType
  shadows : Nat

namespace Entry

/-- The make of an entry. -/
def make (e : Entry) : Make where
  id := e.id
  type := e.type
  accessors := e.accessors
  native := e.native.map (·.type)
  shadows := e.shadow.length

end Entry

/-! ## Other values -/

/-- An entry and the same one with other values: of one make, and at one point of its lifecycle. -/
structure Entry.Revalued (e e' : Entry) : Prop where
  make : e'.make = e.make
  state : e'.state = e.state
  modified : e'.modified = e.modified

namespace Entry

variable {e e' e₁ : Entry} {p : Property} {v : Value}

theorem Revalued.refl (e : Entry) : e.Revalued e := ⟨rfl, rfl, rfl⟩

theorem Revalued.trans (h : e.Revalued e₁) (h' : e₁.Revalued e') : e.Revalued e' :=
  ⟨h'.make.trans h.make, h'.state.trans h.state, h'.modified.trans h.modified⟩

theorem Revalued.id (h : e.Revalued e') : e'.id = e.id := congrArg Make.id h.make

theorem Revalued.type (h : e.Revalued e') : e'.type = e.type := congrArg Make.type h.make

theorem revalued_sidecars (e : Entry) (sidecars : List Sidecar) :
    e.Revalued { e with sidecars } := ⟨rfl, rfl, rfl⟩

theorem putPrimary_revalued (h : e.putPrimary p v = .ok e') : e.Revalued e' := by
  rcases putPrimary_eq_ok_iff.1 h with ⟨-, rfl⟩ | ⟨a, i, i', -, hi, hs, rfl⟩
  · refine ⟨?_, rfl, rfl⟩
    simp [make]
  · obtain ⟨-, fields, -, rfl⟩ := Accessor.set_eq_ok_iff.1 hs
    refine ⟨?_, rfl, rfl⟩
    simp [make, hi]

theorem captureBaseline_revalued (h : e.captureBaseline p v = .ok e') : e.Revalued e' := by
  unfold captureBaseline at h
  simp only at h
  split at h
  · cases h
    exact .refl e
  · obtain ⟨s, -, h⟩ := Result.bind_eq_ok_iff.1 h
    cases h
    exact e.revalued_sidecars _

theorem captureAllIfEager_eq (h : e.captureAllIfEager = .ok e') :
    ∃ sidecars, e' = { e with sidecars } := by
  unfold captureAllIfEager at h
  split at h
  · cases h
    exact ⟨e.sidecars, rfl⟩
  · obtain ⟨s, -, h⟩ := Result.bind_eq_ok_iff.1 h
    cases h
    exact ⟨_, rfl⟩

theorem captureAllIfEager_revalued (h : e.captureAllIfEager = .ok e') : e.Revalued e' := by
  obtain ⟨sidecars, rfl⟩ := captureAllIfEager_eq h
  exact e.revalued_sidecars sidecars

theorem setSidecarValue_revalued {name : String} (h : e.setSidecarValue name p v = .ok e') :
    e.Revalued e' := by
  obtain ⟨-, -, h⟩ := Result.bind_eq_ok_iff.1 h
  obtain ⟨w, -, h⟩ := Result.bind_eq_ok_iff.1 h
  obtain ⟨s, -, h⟩ := Result.bind_eq_ok_iff.1 h
  obtain ⟨s', -, h⟩ := Result.bind_eq_ok_iff.1 h
  cases h
  exact e.revalued_sidecars _

theorem clearBaseline_revalued (e : Entry) : e.Revalued e.clearBaseline := by
  unfold clearBaseline
  split
  · exact e.revalued_sidecars _
  · exact .refl e

theorem recordSnapshot_revalued (e : Entry) (p : Property) (v : Value) :
    e.Revalued (e.recordSnapshot p v) := ⟨rfl, rfl, rfl⟩

end Entry

end EntityMapper
