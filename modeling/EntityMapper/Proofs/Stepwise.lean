import EntityMapper.Error
import Mathlib.Data.List.Forall2

/-!
# Running steps

The library's operations are written as steps that read and change a state and may fail halfway; a
failure leaves what was done before it. `Stepwise.perform` runs such steps, and the lemmas here take
a run apart: a run of two steps (`perform_bind`), of a list of steps (`perform_forM_cons`), and a
list of steps that each succeed or leave the state alone (`perform_forM_eq_ok_iff`).

`Stepwise.Keeps I` says of steps that they keep the invariant `I`, whether they succeed or fail. What
is composed of such steps keeps it, too.
-/

namespace EntityMapper

/-- Two results in a row succeed if both do. -/
theorem Result.bind_eq_ok_iff {α β : Type} {x : Result α} {f : α → Result β} {b : β} :
    x >>= f = .ok b ↔ ∃ a, x = .ok a ∧ f a = .ok b := by
  cases x with
  | error err => exact ⟨fun h => (nomatch h), fun ⟨_, h, _⟩ => (nomatch h)⟩
  | ok a => exact ⟨fun h => ⟨a, rfl, h⟩, fun ⟨_, h, h'⟩ => by cases h; exact h'⟩

/-- What follows a failure is not done. -/
theorem Result.bind_of_error {α β : Type} {x : Result α} {err : Error} (h : x = .error err)
    (f : α → Result β) : x >>= f = .error err := by
  rw [h]
  rfl

theorem Result.map_eq_ok_iff {α β : Type} {x : Result α} {f : α → β} {b : β} :
    x.map f = .ok b ↔ ∃ a, x = .ok a ∧ f a = b := by
  cases x with
  | error err => exact ⟨nofun, fun ⟨_, h, _⟩ => nomatch h⟩
  | ok a => exact ⟨fun h => ⟨a, rfl, Except.ok.inj h⟩, fun ⟨_, h, h'⟩ => by cases h; exact congrArg _ h'⟩

/-- A list of results succeeds if each of them does. -/
theorem Result.mapM_eq_ok_iff {α β : Type} {f : α → Result β} {as : List α} {bs : List β} :
    as.mapM f = .ok bs ↔ List.Forall₂ (fun a b => f a = .ok b) as bs := by
  induction as generalizing bs with
  | nil =>
    rw [List.mapM_nil, List.forall₂_nil_left_iff]
    exact ⟨fun h => (Except.ok.inj h).symm, fun h => congrArg Except.ok h.symm⟩
  | cons a as ih =>
    rw [List.mapM_cons, Result.bind_eq_ok_iff, List.forall₂_cons_left_iff]
    constructor
    · rintro ⟨b, hb, h⟩
      obtain ⟨bs', hbs, h⟩ := Result.bind_eq_ok_iff.1 h
      exact ⟨b, bs', hb, ih.1 hbs, (Except.ok.inj h).symm⟩
    · rintro ⟨b, bs', hb, hbs, rfl⟩
      exact ⟨b, hb, Result.bind_eq_ok_iff.2 ⟨bs', ih.2 hbs, rfl⟩⟩

/-- A list of results succeeds with what each of them succeeds with. -/
theorem Result.exists_mapM_eq_ok {α β : Type} {f : α → Result β} {R : α → β → Prop} {as : List α}
    (h : ∀ a ∈ as, ∃ b, f a = .ok b ∧ R a b) : ∃ bs, as.mapM f = .ok bs ∧ List.Forall₂ R as bs := by
  induction as with
  | nil => exact ⟨[], rfl, .nil⟩
  | cons a as ih =>
    obtain ⟨⟨b, hb, hr⟩, hrest⟩ := List.forall_mem_cons.1 h
    obtain ⟨bs, hbs, hrs⟩ := ih hrest
    refine ⟨b :: bs, ?_, .cons hr hrs⟩
    rw [List.mapM_cons, hb, hbs]
    rfl

/-- A list of checks succeeds if each of them does. -/
theorem Result.forM_eq_ok_iff {α : Type} {f : α → Result PUnit} {as : List α} :
    as.forM f = .ok ⟨⟩ ↔ ∀ a ∈ as, f a = .ok ⟨⟩ := by
  induction as with
  | nil => exact ⟨fun _ => List.forall_mem_nil _, fun _ => rfl⟩
  | cons a as ih =>
    rw [List.forall_mem_cons, ← ih]
    exact Result.bind_eq_ok_iff.trans ⟨fun ⟨⟨⟩, h, h'⟩ => ⟨h, h'⟩, fun ⟨h, h'⟩ => ⟨⟨⟩, h, h'⟩⟩

/-- A list of checks fails with the error of one of them. -/
theorem Result.exists_of_forM_error {α : Type} {f : α → Result PUnit} {as : List α} {err : Error}
    (h : as.forM f = .error err) : ∃ a ∈ as, f a = .error err := by
  induction as with
  | nil => cases h
  | cons a as ih =>
    have hcons : (a :: as).forM f = f a >>= fun _ => as.forM f := rfl
    rw [hcons] at h
    cases ha : f a with
    | error err' =>
      rw [ha] at h
      exact ⟨a, List.mem_cons_self, ha.trans h⟩
    | ok _ =>
      rw [ha] at h
      obtain ⟨b, hb, herr⟩ := ih h
      exact ⟨b, List.mem_cons_of_mem _ hb, herr⟩

/-- In two related lists, each item of the first is related to one of the second. -/
theorem exists_of_forall₂ {α β : Type} {R : α → β → Prop} {as : List α} {bs : List β}
    (h : List.Forall₂ R as bs) {a : α} (ha : a ∈ as) : ∃ b ∈ bs, R a b := by
  induction h with
  | nil => cases ha
  | cons hab _ ih =>
    rcases List.mem_cons.1 ha with rfl | ha
    · exact ⟨_, List.mem_cons_self, hab⟩
    · obtain ⟨b, hb, hr⟩ := ih ha
      exact ⟨b, List.mem_cons_of_mem _ hb, hr⟩

/-- In a list without repeated keys, an item is found by its key. -/
theorem find?_key_of_mem {α β : Type} [DecidableEq β] {key : α → β} {as : List α} {a : α}
    (hnodup : (as.map key).Nodup) (ha : a ∈ as) : as.find? (key · == key a) = some a := by
  induction as with
  | nil => cases ha
  | cons b as ih =>
    obtain ⟨hnot, hnodup⟩ := List.nodup_cons.1 hnodup
    rcases List.mem_cons.1 ha with rfl | ha
    · simp
    · have hne : key b ≠ key a := fun h => hnot (List.mem_map.2 ⟨a, ha, h.symm⟩)
      rw [List.find?_cons_of_neg (by simpa using hne)]
      exact ih hnodup ha

/-- Keys are not repeated when an item with a new one is added at the end. -/
theorem nodup_keys_append {α β : Type} {key : α → β} {as : List α} {a : α}
    (hnodup : (as.map key).Nodup) (hnew : ∀ b ∈ as, key b ≠ key a) :
    ((as ++ [a]).map key).Nodup := by
  rw [List.map_append, List.nodup_append]
  refine ⟨hnodup, by simp, fun k hold k' hlast => ?_⟩
  obtain ⟨b, hb, rfl⟩ := List.mem_map.1 hold
  rw [List.map_singleton, List.mem_singleton] at hlast
  rw [hlast]
  exact hnew b hb

/-- Each item of a list of results comes from one of the arguments. -/
theorem Result.exists_of_mem_mapM {α β : Type} {f : α → Result β} {as : List α} {bs : List β}
    (h : as.mapM f = .ok bs) {b : β} (hb : b ∈ bs) : ∃ a ∈ as, f a = .ok b :=
  exists_of_forall₂ (List.Forall₂.flip (Result.mapM_eq_ok_iff.1 h)) hb

/-- Each of the arguments gives one of the items. -/
theorem Result.exists_mem_mapM {α β : Type} {f : α → Result β} {as : List α} {bs : List β}
    (h : as.mapM f = .ok bs) {a : α} (ha : a ∈ as) : ∃ b ∈ bs, f a = .ok b :=
  exists_of_forall₂ (Result.mapM_eq_ok_iff.1 h) ha

/-- A fold of results succeeds if its first step does and the others do from there. -/
theorem Result.foldlM_cons_eq_ok_iff {σ α : Type} {f : σ → α → Result σ} {a : α} {as : List α}
    {s s' : σ} :
    (a :: as).foldlM f s = .ok s' ↔ ∃ s₁, f s a = .ok s₁ ∧ as.foldlM f s₁ = .ok s' := by
  rw [List.foldlM_cons, Result.bind_eq_ok_iff]

namespace Stepwise

variable {σ α β : Type}

/-- The answer of some steps, and the state that they leave. -/
def perform (x : ExceptT Error (StateM σ) α) (s : σ) : Result α × σ :=
  x.run.run s

@[simp] theorem perform_mk (f : σ → Result α × σ) (s : σ) : perform (ExceptT.mk f) s = f s := rfl

@[simp] theorem perform_pure (a : α) (s : σ) :
    perform (pure a : ExceptT Error (StateM σ) α) s = (.ok a, s) := rfl

@[simp] theorem perform_throw (err : Error) (s : σ) :
    perform (throw err : ExceptT Error (StateM σ) α) s = (.error err, s) := rfl

/-- A step that fails ends the run; otherwise the next step goes on from its answer and state. -/
theorem perform_bind (x : ExceptT Error (StateM σ) α) (f : α → ExceptT Error (StateM σ) β) (s : σ) :
    perform (x >>= f) s = match perform x s with
      | (.ok a, s) => perform (f a) s
      | (.error err, s) => (.error err, s) := by
  change (match x s with
    | (r, s) => (ExceptT.bindCont f r : StateM σ (Except Error β)) s) = match x s with
      | (.ok a, s) => perform (f a) s
      | (.error err, s) => (.error err, s)
  rcases x s with ⟨_ | _, _⟩ <;> rfl

theorem perform_bind_of_ok {x : ExceptT Error (StateM σ) α} {s s' : σ} {a : α}
    (h : perform x s = (.ok a, s')) (f : α → ExceptT Error (StateM σ) β) :
    perform (x >>= f) s = perform (f a) s' := by
  rw [perform_bind, h]

theorem perform_bind_of_error {x : ExceptT Error (StateM σ) α} {s s' : σ} {err : Error}
    (h : perform x s = (.error err, s')) (f : α → ExceptT Error (StateM σ) β) :
    perform (x >>= f) s = (.error err, s') := by
  rw [perform_bind, h]

/-- Two steps succeed if the first does and the second does from there. -/
theorem perform_bind_eq_ok_iff {x : ExceptT Error (StateM σ) α}
    {f : α → ExceptT Error (StateM σ) β} {s s' : σ} {b : β} :
    perform (x >>= f) s = (.ok b, s') ↔
      ∃ a s₁, perform x s = (.ok a, s₁) ∧ perform (f a) s₁ = (.ok b, s') := by
  rw [perform_bind]
  rcases perform x s with ⟨err | a, s₁⟩
  · simp
  · constructor
    · intro h
      exact ⟨a, s₁, rfl, h⟩
    · rintro ⟨a', s', h, h'⟩
      cases h
      exact h'

theorem perform_forM_nil (f : α → ExceptT Error (StateM σ) PUnit) (s : σ) :
    perform (([] : List α).forM f) s = (.ok ⟨⟩, s) := rfl

theorem perform_forM_cons (a : α) (as : List α) (f : α → ExceptT Error (StateM σ) PUnit) (s : σ) :
    perform ((a :: as).forM f) s = perform (f a >>= fun _ => as.forM f) s := rfl

theorem perform_forM_append (as bs : List α) (f : α → ExceptT Error (StateM σ) PUnit) (s : σ) :
    perform ((as ++ bs).forM f) s = perform (as.forM f >>= fun _ => bs.forM f) s := by
  induction as generalizing s with
  | nil => rfl
  | cons a as ih =>
    rw [List.cons_append, perform_forM_cons, perform_bind, perform_bind, perform_forM_cons,
      perform_bind]
    rcases perform (f a) s with ⟨err | _, s₁⟩
    · rfl
    · exact (ih s₁).trans (perform_bind ..)

/-- A loop that fails does so at one of its steps, and the steps before succeed. -/
theorem perform_forM_eq_error {as : List α} {f : α → ExceptT Error (StateM σ) PUnit} {s s' : σ}
    {err : Error} (h : perform (as.forM f) s = (.error err, s')) :
    ∃ before a after s₁, as = before ++ a :: after ∧ perform (before.forM f) s = (.ok ⟨⟩, s₁) ∧
      perform (f a) s₁ = (.error err, s') := by
  induction as generalizing s with
  | nil => cases h
  | cons a as ih =>
    rw [perform_forM_cons] at h
    rcases hstep : perform (f a) s with ⟨err' | _, s₁⟩
    · rw [perform_bind_of_error hstep] at h
      cases h
      exact ⟨[], a, as, s, rfl, rfl, hstep⟩
    · rw [perform_bind_of_ok hstep] at h
      obtain ⟨before, b, after, s₂, rfl, hbefore, hb⟩ := ih h
      refine ⟨a :: before, b, after, s₂, rfl, ?_, hb⟩
      rw [perform_forM_cons, perform_bind_of_ok hstep, hbefore]

theorem perform_forM_of_error {before after : List α} {a : α}
    {f : α → ExceptT Error (StateM σ) PUnit} {s s₁ s' : σ} {err : Error}
    (hbefore : perform (before.forM f) s = (.ok ⟨⟩, s₁))
    (ha : perform (f a) s₁ = (.error err, s')) :
    perform ((before ++ a :: after).forM f) s = (.error err, s') := by
  rw [perform_forM_append, perform_bind_of_ok hbefore, perform_forM_cons, perform_bind_of_error ha]

/-- A loop in a loop is a loop over all items. -/
theorem perform_forM_flatMap (as : List α) (g : α → List β)
    (f : β → ExceptT Error (StateM σ) PUnit) (s : σ) :
    perform (as.forM fun a => (g a).forM f) s = perform ((as.flatMap g).forM f) s := by
  induction as generalizing s with
  | nil => rfl
  | cons a as ih =>
    rw [List.flatMap_cons, perform_forM_append, perform_forM_cons, perform_bind, perform_bind]
    rcases perform ((g a).forM f) s with ⟨err | _, s₁⟩
    · rfl
    · exact ih s₁

/-- A loop of steps that each succeed or leave the state alone succeeds where the loop of their
effects does. -/
theorem perform_forM_eq_ok_iff {step : α → ExceptT Error (StateM σ) PUnit} {f : σ → α → Result σ}
    (h : ∀ a s s', perform (step a) s = (.ok ⟨⟩, s') ↔ f s a = .ok s') {as : List α} {s s' : σ} :
    perform (as.forM step) s = (.ok ⟨⟩, s') ↔ as.foldlM f s = .ok s' := by
  induction as generalizing s with
  | nil =>
    rw [perform_forM_nil, List.foldlM_nil]
    exact ⟨fun h => congrArg Except.ok (Prod.mk.inj h).2, fun h => by cases h; rfl⟩
  | cons a as ih =>
    rw [perform_forM_cons, perform_bind_eq_ok_iff, Result.foldlM_cons_eq_ok_iff]
    constructor
    · rintro ⟨⟨⟩, s₁, h₁, h₂⟩
      exact ⟨s₁, (h a s s₁).1 h₁, ih.1 h₂⟩
    · rintro ⟨s₁, h₁, h₂⟩
      exact ⟨⟨⟩, s₁, (h a s s₁).2 h₁, ih.2 h₂⟩

/-! ## Invariants -/

/-- Steps that keep an invariant, also where they fail. -/
def Keeps (I : σ → Prop) (x : ExceptT Error (StateM σ) α) : Prop :=
  ∀ s, I s → I (perform x s).2

variable {I : σ → Prop} {x y : ExceptT Error (StateM σ) α}

theorem keeps_pure (a : α) : Keeps I (pure a) := fun _ h => h

theorem keeps_throw (err : Error) : Keeps I (throw err : ExceptT Error (StateM σ) α) := fun _ h => h

theorem Keeps.bind {f : α → ExceptT Error (StateM σ) β} (hx : Keeps I x) (hf : ∀ a, Keeps I (f a)) :
    Keeps I (x >>= f) := by
  intro s hs
  have hx := hx s hs
  rw [perform_bind]
  rcases h : perform x s with ⟨err | a, s₁⟩
  · rwa [h] at hx
  · rw [h] at hx
    exact hf a s₁ hx

theorem Keeps.forM {step : α → ExceptT Error (StateM σ) PUnit} {as : List α}
    (h : ∀ a ∈ as, Keeps I (step a)) : Keeps I (as.forM step) := by
  induction as with
  | nil => exact keeps_pure _
  | cons a as ih =>
    exact (h a List.mem_cons_self).bind fun _ => ih fun b hb => h b (List.mem_cons_of_mem _ hb)

theorem Keeps.foldlM {step : β → α → ExceptT Error (StateM σ) β} {as : List α}
    (h : ∀ b, ∀ a ∈ as, Keeps I (step b a)) (b : β) : Keeps I (as.foldlM step b) := by
  induction as generalizing b with
  | nil => exact keeps_pure b
  | cons a as ih =>
    exact (h b a List.mem_cons_self).bind fun b =>
      ih (fun b a ha => h b a (List.mem_cons_of_mem _ ha)) b

theorem Keeps.ite {c : Prop} [Decidable c] (hx : Keeps I x) (hy : Keeps I y) :
    Keeps I (if c then x else y) := by
  split
  · exact hx
  · exact hy

end Stepwise

end EntityMapper
