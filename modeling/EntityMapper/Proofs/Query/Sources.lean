import EntityMapper.Proofs.Stepwise
import EntityMapper.Query.Compilation

/-!
# Registered sources

A compilation has its query sources, what is fetched for each of them, and the order of both in three
places. It registers a source in all of them (`Compilation.withSource`), and it changes what is fetched
for a source in one (`Compilation.modifySelect`); whatever else it does is made of these two.

`Compilation.InStep` says that the three are about the same identities, each of them once. Both
changes keep them so. Then what is fetched for a registered source is found
(`Compilation.InStep.exists_registered`), and the registered sources have the identities of the order
(`Compilation.InStep.map_registered`).
-/

namespace EntityMapper

namespace Compilation

variable {c c' : Compilation} {id id' : SourceId} {s : QuerySource} {t : EntityType}
  {f : Select → Select} {r : Registered}

/-! ## Entries -/

section Entries

variable {α : Type} {a b : α} {entries : SourceId → Option α}

theorem put_self : put id a entries id = some a :=
  if_pos rfl

theorem put_of_ne (h : id' ≠ id) : put id a entries id' = entries id' :=
  if_neg h

theorem put_eq_some (h : put id a entries id' = some b) :
    id' = id ∧ a = b ∨ id' ≠ id ∧ entries id' = some b := by
  by_cases hid : id' = id
  · rw [hid] at h
    exact .inl ⟨hid, Option.some.inj (put_self.symm.trans h)⟩
  · exact .inr ⟨hid, (put_of_ne hid).symm.trans h⟩

theorem isSome_put :
    (put id a entries id').isSome = true ↔ id' = id ∨ (entries id').isSome = true := by
  by_cases h : id' = id
  · simp [h, put_self]
  · simp [h, put_of_ne h]

end Entries

theorem registered?_eq_some_iff : c.registered? id = some r ↔
    c.source? id = some r.source ∧ c.select? id = some r.select := by
  obtain ⟨source, select⟩ := r
  simp only [registered?, Option.bind_eq_bind, Option.bind_eq_some_iff, Option.pure_def,
    Option.some.injEq, Registered.mk.injEq]
  constructor
  · rintro ⟨_, hs, _, hsel, rfl, rfl⟩
    exact ⟨hs, hsel⟩
  · rintro ⟨hs, hsel⟩
    exact ⟨_, hs, _, hsel, rfl, rfl⟩

/-! ## Changes -/

/-- The compilation with one more source, for which nothing is demanded or read so far. -/
def withSource (c : Compilation) (s : QuerySource) (t : EntityType) : Compilation :=
  { c with
    select? := put s.id ⟨s.id, s.itemName, t, none, []⟩ c.select?
    source? := put s.id s c.source?
    order := c.order ++ [s.id] }

/-- Adding a source finds something fetched for it, or registers it. -/
theorem addSource_eq_ok_iff : c.addSource s = .ok c' ↔
    (c.select? s.id).isSome = true ∧ c' = c ∨
      c.select? s.id = none ∧ ∃ t, s.itemType.resolve c.model = some t ∧ c' = c.withSource s t := by
  unfold addSource
  cases hsel : c.select? s.id with
  | some sel => simp [eq_comm]
  | none =>
    cases ht : s.itemType.resolve c.model with
    | none => simp
    | some t => simp [withSource, eq_comm]

theorem select?_modifySelect (c : Compilation) (id : SourceId) (f : Select → Select)
    (id' : SourceId) : (c.modifySelect id f).select? id' =
      if id' = id then (c.select? id').map f else c.select? id' := by
  unfold modifySelect
  by_cases hid : id' = id
  · rw [if_pos hid, hid]
    cases hsel : c.select? id with
    | none => exact hsel
    | some sel => exact put_self
  · rw [if_neg hid]
    cases c.select? id with
    | none => rfl
    | some sel => exact put_of_ne hid

/-- What is fetched after a change was changed, or was fetched before. -/
theorem select?_modifySelect_eq_some {sel : Select}
    (h : (c.modifySelect id f).select? id' = some sel) :
    (id' = id ∧ ∃ sel₀, c.select? id' = some sel₀ ∧ f sel₀ = sel) ∨
      id' ≠ id ∧ c.select? id' = some sel := by
  rw [select?_modifySelect] at h
  split at h
  · next hid => exact .inl ⟨hid, Option.map_eq_some_iff.1 h⟩
  · next hid => exact .inr ⟨hid, h⟩

@[simp] theorem source?_modifySelect (c : Compilation) (id : SourceId) (f : Select → Select) :
    (c.modifySelect id f).source? = c.source? := by
  unfold modifySelect
  split <;> rfl

@[simp] theorem order_modifySelect (c : Compilation) (id : SourceId) (f : Select → Select) :
    (c.modifySelect id f).order = c.order := by
  unfold modifySelect
  split <;> rfl

@[simp] theorem model_modifySelect (c : Compilation) (id : SourceId) (f : Select → Select) :
    (c.modifySelect id f).model = c.model := by
  unfold modifySelect
  split <;> rfl

theorem changeSelect_eq_ok_iff : c.changeSelect id f = .ok c' ↔
    (c.select? id).isSome = true ∧ c' = c.modifySelect id f := by
  unfold changeSelect select
  cases c.select? id with
  | none => exact ⟨nofun, fun h => by cases h.1⟩
  | some sel => simp [bind, Except.bind, pure, Except.pure, eq_comm]

/-! ## Steps -/

theorem perform_update_eq_ok_iff {f : Compilation → Result Compilation} :
    Stepwise.perform (Step.update f) c = (.ok (), c') ↔ f c = .ok c' := by
  rw [Step.update, Stepwise.perform_mk]
  cases f c <;> simp

theorem keeps_update {I : Compilation → Prop} {f : Compilation → Result Compilation}
    (h : ∀ c c', I c → f c = .ok c' → I c') : Stepwise.Keeps I (Step.update f) := by
  intro c hc
  rw [Step.update, Stepwise.perform_mk]
  cases hf : f c with
  | error err => exact hc
  | ok c' => exact h c c' hc hf

theorem keeps_changeSelect {I : Compilation → Prop} (h : ∀ c, I c → I (c.modifySelect id f)) :
    Stepwise.Keeps I (Step.update (·.changeSelect id f)) := by
  refine keeps_update fun c c' hc hf => ?_
  obtain ⟨-, rfl⟩ := changeSelect_eq_ok_iff.1 hf
  exact h c hc

/-- What is pushed down for a source is what the filter says about it. -/
theorem pushDown_of_mem_pushDownAll {e : Expression} {pushed : List (SourceId × Option Predicate)}
    {x : SourceId × Option Predicate} (h : c.pushDownAll e = .ok pushed) (hx : x ∈ pushed) :
    c.pushDown (some x.1) e = .ok x.2 := by
  obtain ⟨id, -, hid⟩ := Result.exists_of_mem_mapM h hx
  obtain ⟨p, hp, rfl⟩ := Result.map_eq_ok_iff.1 hid
  exact hp

/-- Adding a filter keeps an invariant that is kept by demands that were made of the same sources. -/
theorem keeps_addFilter {I : Compilation → Prop} {e : Expression}
    (h : ∀ c c', I c → I c' → c'.source? = c.source? → ∀ id p,
      c.pushDown (some id) e = .ok (some p) → I (c'.modifySelect id (·.demand p))) :
    Stepwise.Keeps I (addFilter e) := by
  intro c hc
  have hread : Stepwise.perform (Step.read (·.pushDownAll e)) c = (c.pushDownAll e, c) := rfl
  cases hpushed : c.pushDownAll e with
  | error err =>
    rw [addFilter, Stepwise.perform_bind_of_error (hread.trans (by rw [hpushed]))]
    exact hc
  | ok pushed =>
    rw [addFilter, Stepwise.perform_bind_of_ok (hread.trans (by rw [hpushed]))]
    -- The demands were all made before the first of them is added.
    have hkeeps : Stepwise.Keeps (fun c' => I c' ∧ c'.source? = c.source?)
        (pushed.forM fun p => Step.update (·.addPushedDown p)) := by
      refine .forM fun x hx => ?_
      have hx := pushDown_of_mem_pushDownAll hpushed hx
      obtain ⟨id, _ | p⟩ := x
      · exact keeps_update fun c' c'' hc' hok => by cases hok; exact hc'
      · refine keeps_changeSelect fun c' ⟨hc', hsource⟩ => ⟨h c c' hc hc' hsource id p hx, ?_⟩
        rw [source?_modifySelect, hsource]
    exact (hkeeps c ⟨hc, rfl⟩).1

/-! ## In step -/

/-- Sources, what is fetched for them, and the order are about the same identities, each of them once
and the source's own. -/
structure InStep (c : Compilation) : Prop where
  nodup : c.order.Nodup
  sources : ∀ id, id ∈ c.order ↔ (c.source? id).isSome = true
  selects : ∀ id, id ∈ c.order ↔ (c.select? id).isSome = true
  own : ∀ id s, c.source? id = some s → s.id = id

namespace InStep

theorem empty (m : Model) : InStep { model := m } where
  nodup := .nil
  sources := by simp
  selects := by simp
  own := nofun

/-- Registering a source for whose identity nothing is fetched. -/
theorem withSource (h : c.InStep) (hnew : c.select? s.id = none) (t : EntityType) :
    (c.withSource s t).InStep where
  nodup := by
    have hnot : s.id ∉ c.order := by
      rw [h.selects, hnew]
      exact Bool.false_ne_true
    exact List.nodup_append.2 ⟨h.nodup, List.pairwise_singleton .., fun id hid id' hid' heq =>
      hnot (List.mem_singleton.1 hid' ▸ heq ▸ hid)⟩
  sources id := by
    rw [Compilation.withSource, List.mem_append, List.mem_singleton, isSome_put, h.sources, or_comm]
  selects id := by
    rw [Compilation.withSource, List.mem_append, List.mem_singleton, isSome_put, h.selects, or_comm]
  own id s' hs' := by
    rcases put_eq_some hs' with ⟨rfl, rfl⟩ | ⟨-, hs'⟩
    · rfl
    · exact h.own id s' hs'

theorem modifySelect (h : c.InStep) (id : SourceId) (f : Select → Select) :
    (c.modifySelect id f).InStep where
  nodup := (order_modifySelect c id f).symm ▸ h.nodup
  sources id' := by
    rw [order_modifySelect, source?_modifySelect]
    exact h.sources id'
  selects id' := by
    rw [order_modifySelect, select?_modifySelect, h.selects]
    split
    · rw [Option.isSome_map]
    · rfl
  own := (source?_modifySelect c id f).symm ▸ h.own

/-- Where nothing is fetched, no source is registered. -/
theorem source?_eq_none (h : c.InStep) (hid : c.select? id = none) : c.source? id = none := by
  rw [← Option.not_isSome_iff_eq_none, ← h.sources, h.selects, hid]
  exact Bool.false_ne_true

theorem exists_registered (h : c.InStep) (hid : id ∈ c.order) : ∃ r, c.registered? id = some r := by
  obtain ⟨s, hs⟩ := Option.isSome_iff_exists.1 ((h.sources id).1 hid)
  obtain ⟨sel, hsel⟩ := Option.isSome_iff_exists.1 ((h.selects id).1 hid)
  exact ⟨⟨s, sel⟩, registered?_eq_some_iff.2 ⟨hs, hsel⟩⟩

/-- Where each registered source says which one it is, the registered sources say the order. -/
theorem map_registered (h : c.InStep) {g : Registered → SourceId}
    (hg : ∀ id r, c.registered? id = some r → g r = id) : c.registered.map g = c.order := by
  have hself : ∀ id ∈ c.order, (c.registered? id).map g = some id := by
    intro id hid
    obtain ⟨r, hr⟩ := h.exists_registered hid
    rw [hr, Option.map_some, hg id r hr]
  rw [registered, List.map_filterMap, List.filterMap_congr hself, List.filterMap_some]

/-- A registered source is not registered again. -/
theorem addSource_of_mem (h : c.InStep) (hs : s.id ∈ c.order) : c.addSource s = .ok c :=
  addSource_eq_ok_iff.2 (.inl ⟨(h.selects s.id).1 hs, rfl⟩)

end InStep

end Compilation

end EntityMapper
