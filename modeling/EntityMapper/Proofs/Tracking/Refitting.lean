import EntityMapper.Proofs.Tracking.Routing
import EntityMapper.Proofs.Tracking.Stability

/-!
# What becomes of sidecars and snapshots

Whatever an action does to the sidecars and the relationship snapshot of an entry, it refits them
(`Entry.Refit`): it puts a sidecar in place of one of its name, or after the others, and records
values of properties that the entity type owns. So names of sidecars stay in order
(`Entry.Refits.names`), and nothing strange comes in.

Each action has a lemma `…_refits`, which says that it does nothing else, also where it fails. Only
detaching sidecars does, and a commit refits the entry once it has detached some.
-/

namespace EntityMapper

open Stepwise

/-! ## Attaching -/

/-- A sidecar that a save takes no part in: its values are not committed, and it is not the one for
generated values. -/
def Sidecar.Lasting (s : Sidecar) : Prop :=
  s.autoCommit = false ∧ s.name ≠ Sidecar.generatedName

instance : DecidablePred Sidecar.Lasting := fun s =>
  inferInstanceAs (Decidable (s.autoCommit = false ∧ s.name ≠ Sidecar.generatedName))

namespace Entry

variable {e e₀ e' : Entry} {s t : Sidecar} {sidecars : List Sidecar} {p : Property} {v : Value}
  {name : String}

/-- The names of the attached sidecars, in the order of attachment. -/
def sidecarNames (e : Entry) : List String :=
  e.sidecars.map (·.name)

/-- The names of those that saves take no part in. -/
def lastingNames (e : Entry) : List String :=
  (e.sidecars.filter (·.Lasting)).map (·.name)

/-- A sidecar that is attached has the place of the one of its name, or is the last. -/
theorem names_prefix_attachTo (s : Sidecar) (sidecars : List Sidecar) :
    sidecars.map (·.name) <+: (attachTo s sidecars).map (·.name) := by
  by_cases hmem : s.name ∈ sidecars.map (·.name)
  · rw [names_attachTo_of_mem hmem]
  · rw [attachTo_of_notMem fun t ht hname => hmem (hname ▸ List.mem_map_of_mem ht), List.map_append]
    exact List.prefix_append _ _

/-- Among sidecars of different names, one takes the place of another and the rest stay. -/
theorem attachTo_eq_map (hnodup : (sidecars.map (·.name)).Nodup)
    (hmem : s.name ∈ sidecars.map (·.name)) :
    attachTo s sidecars = sidecars.map fun t => if t.name = s.name then s else t := by
  induction sidecars with
  | nil => cases hmem
  | cons t rest ih =>
    obtain ⟨hnot, hnodup⟩ := List.nodup_cons.1 hnodup
    rw [attachTo, List.map_cons]
    by_cases hname : t.name = s.name
    · rw [if_pos hname, if_pos hname]
      have hrest : ∀ u ∈ rest, (if u.name = s.name then s else u) = u := fun u hu =>
        if_neg fun heq => hnot (List.mem_map.2 ⟨u, hu, heq.trans hname.symm⟩)
      rw [List.map_congr_left hrest, List.map_id']
    · rw [if_neg hname, if_neg hname, ih hnodup ((List.mem_cons.1 hmem).resolve_left (Ne.symm hname))]

/-- Among sidecars of different names, each is found by its own. -/
theorem sidecar?_of_mem (h : e.sidecarNames.Nodup) (ht : t ∈ e.sidecars) :
    e.sidecar? t.name = some t :=
  find?_key_of_mem h ht

/-- The lasting sidecars stay in order if one that takes the place of a lasting one is lasting. -/
theorem lasting_attachTo (h : ∀ t, sidecars.find? (·.name == s.name) = some t → t.Lasting → s.Lasting) :
    ((sidecars.filter (·.Lasting)).map (·.name)).Sublist
      (((attachTo s sidecars).filter (·.Lasting)).map (·.name)) := by
  induction sidecars with
  | nil => exact List.nil_sublist _
  | cons t rest ih =>
    unfold attachTo
    by_cases hname : t.name = s.name
    · rw [if_pos hname]
      have hlasting := h t (List.find?_cons_of_pos (by simpa using hname))
      by_cases ht : t.Lasting
      · rw [List.filter_cons_of_pos (by simpa using ht),
          List.filter_cons_of_pos (by simpa using hlasting ht), List.map_cons, List.map_cons, hname]
      · rw [List.filter_cons_of_neg (by simpa using ht)]
        exact ((List.sublist_cons_self s rest).filter _).map _
    · rw [if_neg hname]
      rw [List.find?_cons_of_neg (by simpa using hname)] at h
      rw [List.filter_cons, List.filter_cons]
      split
      · exact (ih h).cons_cons _
      · exact ih h

/-! ## Refitting -/

/-- What actions attach to an entry: a sidecar for properties of the entity type, or for those of one
that is attached, and a lasting one in place of a lasting one. -/
structure Supplies (e : Entry) (s : Sidecar) : Prop where
  covered : ∀ p ∈ s.covered, e.type.owns p = true ∨ ∃ t ∈ e.sidecars, p ∈ t.covered
  lasting : ∀ t, e.sidecar? s.name = some t → t.Lasting → s.Lasting

/-- An attached sidecar may hold other values. -/
theorem supplies_values (h : e.sidecar? t.name = some t) (values : List (Nat × Value)) :
    e.Supplies { t with values } where
  covered p hp := .inr ⟨t, List.mem_of_find?_eq_some h, hp⟩
  lasting u hu hlasting := by
    obtain rfl := Option.some.inj (h.symm.trans hu)
    exact hlasting

theorem supplies_baseline (placed : e.type.Placed) (values : List (Nat × Value)) :
    e.Supplies (.baselineWith e.type.properties values) where
  covered _ hp := .inl (placed.owns_of_mem hp)
  lasting _ _ _ :=
    have hname : Sidecar.baselineName ≠ Sidecar.generatedName := by decide
    ⟨rfl, hname⟩

theorem supplies_baselineSidecar (placed : e.type.Placed) (values : List (Nat × Value)) :
    e.Supplies { e.baselineSidecar with values } := by
  unfold baselineSidecar
  cases h : e.sidecar? Sidecar.baselineName with
  | none => exact supplies_baseline placed values
  | some t =>
    have hname : t.name = Sidecar.baselineName := by simpa using List.find?_some h
    exact supplies_values (hname ▸ h) values

theorem supplies_generated (placed : e.type.Placed) :
    e.Supplies (.generated (e.type.properties.filter (·.storeGeneration.insert))) where
  covered _ hp := .inl (placed.owns_of_mem (List.mem_filter.1 hp).1)
  lasting t ht hlasting := by
    have ht : e.sidecar? Sidecar.generatedName = some t := ht
    exact absurd (by simpa using List.find?_some ht) hlasting.2

/-- One change of sidecars or snapshot, or of neither. -/
inductive Refit (e : Entry) : Entry → Prop
  | values {e' : Entry} (type : e'.type = e.type) (sidecars : e'.sidecars = e.sidecars)
      (snapshot : e'.snapshot = e.snapshot) : Refit e e'
  | attach {s : Sidecar} (h : e.Supplies s) : Refit e (e.attach s)
  | record {p : Property} (h : e.type.owns p = true) (v : Value) : Refit e (e.recordSnapshot p v)

/-- Such changes, one after the other. -/
def Refits : Entry → Entry → Prop :=
  Relation.ReflTransGen Refit

namespace Refits

theorem refl (e : Entry) : e.Refits e := Relation.ReflTransGen.refl

theorem step (h : e₀.Refits e) (hs : e.Refit e') : e₀.Refits e' := Relation.ReflTransGen.tail h hs

theorem of_refit (h : e.Refit e') : e.Refits e' := (refl e).step h

theorem trans (h : e₀.Refits e) (h' : e.Refits e') : e₀.Refits e' := Relation.ReflTransGen.trans h h'

theorem type (h : e.Refits e') : e'.type = e.type := by
  induction h with
  | refl => rfl
  | tail _ hs ih =>
    refine Eq.trans ?_ ih
    cases hs with
    | values type => exact type
    | attach => rfl
    | record => rfl

/-- Sidecars stay in their places, and others come after them. -/
theorem names (h : e.Refits e') : e.sidecarNames <+: e'.sidecarNames := by
  induction h with
  | refl => exact List.prefix_rfl
  | tail _ hs ih =>
    refine ih.trans ?_
    cases hs with
    | values _ sidecars => rw [sidecarNames, sidecarNames, sidecars]
    | attach => exact names_prefix_attachTo _ _
    | record => exact List.prefix_rfl

theorem nodup (h : e.Refits e') (hnodup : e.sidecarNames.Nodup) : e'.sidecarNames.Nodup := by
  induction h with
  | refl => exact hnodup
  | tail _ hs ih =>
    cases hs with
    | values _ sidecars => rwa [sidecarNames, sidecars]
    | attach => exact nodup_attachTo ih
    | record => exact ih

theorem lastingNames (h : e.Refits e') : e.lastingNames.Sublist e'.lastingNames := by
  induction h with
  | refl => exact List.Sublist.refl _
  | tail _ hs ih =>
    refine ih.trans ?_
    cases hs with
    | values _ sidecars => rw [Entry.lastingNames, Entry.lastingNames, sidecars]
    | attach h => exact lasting_attachTo h.lasting
    | record => exact List.Sublist.refl _

end Refits

/-! ### Changes of the entry -/

theorem exists_values_of_foldlM {properties : List Property} {read : Property → Result Value}
    {s' : Sidecar}
    (h : properties.foldlM (fun s p => do Sidecar.set s p (← read p)) s = .ok s') :
    ∃ values, s' = { s with values } := by
  induction properties generalizing s with
  | nil =>
    cases h
    exact ⟨_, rfl⟩
  | cons p properties ih =>
    obtain ⟨s₁, h₁, h⟩ := Result.foldlM_cons_eq_ok_iff.1 h
    obtain ⟨v, -, h₁⟩ := Result.bind_eq_ok_iff.1 h₁
    obtain ⟨-, rfl⟩ := Sidecar.set_eq_ok_iff.1 h₁
    obtain ⟨values, rfl⟩ := ih h
    exact ⟨values, rfl⟩

theorem sidecar?_of_sidecar (h : e.sidecar name = .ok s) : e.sidecar? s.name = some s := by
  have hname := name_of_sidecar h
  unfold sidecar at h
  split at h
  · rename_i hfound
    cases h
    rwa [hname]
  · cases h

theorem putPrimary_refit (h : e.putPrimary p v = .ok e') : e.Refit e' :=
  .values (putPrimary_revalued h).type (putPrimary_sidecars h) (putPrimary_snapshot h)

theorem noted_refits (h : e.type.owns p = true) (v : Value) : e.Refits
    (if e.type.inRelationship p then e.recordSnapshot p v else e) := by
  split
  · exact .of_refit (.record h v)
  · exact .refl e

theorem captureBaseline_refits (placed : e.type.Placed) (h : e.captureBaseline p v = .ok e') :
    e.Refits e' := by
  unfold captureBaseline at h
  dsimp only at h
  rw [← baselineSidecar] at h
  split at h
  · cases h
    exact .refl e
  · obtain ⟨s, hs, h⟩ := Result.bind_eq_ok_iff.1 h
    obtain ⟨-, rfl⟩ := Sidecar.set_eq_ok_iff.1 hs
    cases h
    exact .of_refit (.attach (supplies_baselineSidecar placed _))

theorem captureAllIfEager_refits (placed : e.type.Placed) (h : e.captureAllIfEager = .ok e') :
    e.Refits e' := by
  unfold captureAllIfEager at h
  split at h
  · cases h
    exact .refl e
  · obtain ⟨s, hs, h⟩ := Result.bind_eq_ok_iff.1 h
    obtain ⟨values, rfl⟩ := exists_values_of_foldlM hs
    cases h
    exact .of_refit (.attach (supplies_baseline placed values))

theorem setBaselineValue_refits (placed : e.type.Placed) (h : e.setBaselineValue p v = .ok e') :
    e.Refits e' := by
  obtain ⟨-, -, h⟩ := Result.bind_eq_ok_iff.1 h
  obtain ⟨w, -, h⟩ := Result.bind_eq_ok_iff.1 h
  obtain ⟨s, hs, h⟩ := Result.bind_eq_ok_iff.1 h
  obtain ⟨-, rfl⟩ := Sidecar.set_eq_ok_iff.1 hs
  cases h
  exact .of_refit (.attach (supplies_baselineSidecar placed _))

theorem setSnapshotValue_refits (h : e.setSnapshotValue p v = .ok e') : e.Refits e' := by
  obtain ⟨⟨⟩, howned, h⟩ := Result.bind_eq_ok_iff.1 h
  obtain ⟨w, -, h⟩ := Result.bind_eq_ok_iff.1 h
  cases h
  exact .of_refit (.record (owns_of_requireOwned howned) w)

/-- A value may be put into an attached sidecar. -/
theorem fill_refits (h : (do return e.attach (← (← e.sidecar name).set p v)) = .ok e') :
    e.Refits e' := by
  obtain ⟨s, hs, h⟩ := Result.bind_eq_ok_iff.1 h
  obtain ⟨s', hs', h⟩ := Result.bind_eq_ok_iff.1 h
  obtain ⟨-, rfl⟩ := Sidecar.set_eq_ok_iff.1 hs'
  cases h
  exact .of_refit (.attach (supplies_values (sidecar?_of_sidecar hs) _))

theorem setSidecarValue_refits (h : e.setSidecarValue name p v = .ok e') : e.Refits e' := by
  obtain ⟨-, -, h⟩ := Result.bind_eq_ok_iff.1 h
  obtain ⟨w, -, h⟩ := Result.bind_eq_ok_iff.1 h
  exact fill_refits h

theorem remove_refits (h : (do return e.attach ((← e.sidecar name).remove p)) = .ok e') :
    e.Refits e' := by
  obtain ⟨s, hs, h⟩ := Result.bind_eq_ok_iff.1 h
  cases h
  unfold Sidecar.remove
  split
  · exact .of_refit (.attach (supplies_values (sidecar?_of_sidecar hs) _))
  · exact .of_refit (.attach (supplies_values (sidecar?_of_sidecar hs) s.values))

theorem clear_refits (h : (do return e.attach (← e.sidecar name).clear) = .ok e') :
    e.Refits e' := by
  obtain ⟨s, hs, h⟩ := Result.bind_eq_ok_iff.1 h
  cases h
  exact .of_refit (.attach (supplies_values (sidecar?_of_sidecar hs) []))

theorem clearBaseline_refits (e : Entry) : e.Refits e.clearBaseline := by
  unfold clearBaseline
  split
  · rename_i s hs
    have hname : s.name = Sidecar.baselineName := by simpa using List.find?_some hs
    exact .of_refit (.attach (supplies_values (hname ▸ hs) []))
  · exact .refl e

theorem prepare_refits (placed : e.type.Placed) : e.Refits e.prepare :=
  .of_refit (.attach (supplies_generated placed))

end Entry

/-! ### Actions -/

namespace Action

open Entry

variable {e₀ : Entry} {p : Property} {α : Type}

theorem refits_unmarked : Unmarked fun s => e₀.Refits s.entry where
  flag := by
    intro s i on _ hs
    obtain ⟨state, modified, hentry⟩ := s.entry_flag i on
    rw [hentry]
    exact hs.step (.values rfl rfl rfl)
  draw _ hs := hs

theorem update_refits {g : Entry → Result Entry}
    (h : ∀ e e' : Entry, e.type = e₀.type → g e = .ok e' → e.Refits e') :
    Keeps (fun s => e₀.Refits s.entry) (update g) :=
  keeps_update_of fun e e' he hg => he.trans (h e e' he.type hg)

theorem modifyEntry_refits {g : Entry → Entry}
    (h : ∀ e : Entry, e.type = e₀.type → e.Refits (g e)) :
    Keeps (fun s => e₀.Refits s.entry) (modifyEntry g) :=
  keeps_modifyEntry_of fun e he => he.trans (h e he.type)

theorem recordSnapshot_refits (howns : e₀.type.owns p = true) (v : Value) :
    Keeps (fun s => e₀.Refits s.entry) (modifyEntry (·.recordSnapshot p v)) :=
  modifyEntry_refits fun _ htype => .of_refit (.record (htype ▸ howns) v)

/-- What is done to a property that was checked is done to one that the entity type owns. -/
theorem keeps_bind_requireOwned {k : Unit → Action α}
    (h : e₀.type.owns p = true → Keeps (fun s => e₀.Refits s.entry) (k ())) :
    Keeps (fun s => e₀.Refits s.entry) (read (·.requireOwned p) >>= k) :=
  keeps_bind_read fun s hs _ howned => h (hs.type ▸ owns_of_requireOwned howned) s hs

section

variable (placed : e₀.type.Placed)
include placed

theorem write_refits (howns : e₀.type.owns p = true) (v : Value) :
    Keeps (fun s => e₀.Refits s.entry) (write p v) := by
  refine (keeps_read _).bind fun current => Keeps.ite (keeps_pure _) ?_
  exact (update_refits fun _ _ htype => captureBaseline_refits (htype ▸ placed)).bind fun _ =>
    (modifyEntry_refits fun _ htype => noted_refits (htype ▸ howns) v).bind fun _ =>
    (update_refits fun _ _ _ h => .of_refit (putPrimary_refit h)).bind fun _ =>
    refits_unmarked.keeps_flagWritten p

theorem set_refits (names : e₀.sidecarNames.Nodup) (p : Property) (v : Value) :
    Keeps (fun s => e₀.Refits s.entry) (set p v) := by
  refine keeps_bind_requireOwned fun howns => (keeps_read _).bind fun w =>
    keeps_bind_read fun s hs e he => ?_
  cases he
  split
  · rename_i t ht
    rw [perform_update]
    split
    · rename_i e' he'
      obtain ⟨t', ht', he'⟩ := Result.bind_eq_ok_iff.1 he'
      obtain ⟨-, rfl⟩ := Sidecar.set_eq_ok_iff.1 ht'
      cases he'
      have hfound := sidecar?_of_mem (hs.nodup names) (List.mem_of_find?_eq_some ht)
      exact hs.step (.attach (supplies_values hfound _))
    · exact hs
  · exact write_refits placed howns w s hs

theorem detect_refits : Keeps (fun s => e₀.Refits s.entry) detect :=
  refits_unmarked.keeps_detect fun _ hs _ hp =>
    recordSnapshot_refits (placed.owns_of_mem (hs.type ▸ hp))

theorem rebase_refits : Keeps (fun s => e₀.Refits s.entry) rebase := by
  refine (modifyEntry_refits fun e _ => clearBaseline_refits e).bind fun _ =>
    (update_refits fun _ _ htype => captureAllIfEager_refits (htype ▸ placed)).bind fun _ =>
    keeps_bind_read fun s hs e he => ?_
  cases he
  refine Keeps.forM (fun p hp => (keeps_read _).bind fun v => recordSnapshot_refits ?_ v) s hs
  exact placed.owns_of_mem (hs.type ▸ (List.mem_filter.1 hp).1)

theorem receive_refits (c : Command) (row : List Value) :
    Keeps (fun s => e₀.Refits s.entry) (c.receive row) := by
  refine keeps_receive (modifyEntry_refits fun e htype => ?_) fun _ _ _ =>
    update_refits fun _ _ _ => setSidecarValue_refits
  split
  · exact .refl e
  · exact prepare_refits (htype ▸ placed)

variable (names : e₀.sidecarNames.Nodup)
include names

theorem setNamed_refits (name : String) (v : Value) :
    Keeps (fun s => e₀.Refits s.entry) (setNamed name v) :=
  (keeps_read _).bind fun p => set_refits placed names p v

theorem setState_refits (target : EntityState) :
    Keeps (fun s => e₀.Refits s.entry) (setState target) := by
  refine refits_unmarked.keeps_setState (fun _ _ p _ => set_refits placed names p) fun s hs => ?_
  exact hs.step (.values rfl rfl rfl)

theorem accept_refits : Keeps (fun s => e₀.Refits s.entry) accept := by
  refine (keeps_read _).bind fun e => ?_
  have hstate := setState_refits placed names
  split
  · exact keeps_pure _
  · exact keeps_pure _
  · exact hstate _
  all_goals exact (rebase_refits placed).bind fun _ => hstate _

end

/-- A commit of values of owned properties. -/
theorem commitPair_refits {pair : Property × Value} (howns : e₀.type.owns pair.1 = true) :
    Keeps (fun s => e₀.Refits s.entry) (commitPair pair) :=
  (update_refits fun _ _ _ h => .of_refit (putPrimary_refit h)).bind fun _ =>
    modifyEntry_refits fun _ htype => noted_refits (htype ▸ howns) pair.2

/-- Once the sidecars are detached, a commit refits the entry. -/
theorem commit_refits {s : Scope}
    (covered : ∀ t ∈ s.entry.sidecars, ∀ p ∈ t.covered, s.entry.type.owns p = true) :
    s.entry.rollBack.Refits (Stepwise.perform commit s).2.entry := by
  rw [perform_commit]
  refine Keeps.forM (fun pair hpair => commitPair_refits ?_) { s with entry := s.entry.rollBack }
    (Refits.refl _)
  obtain ⟨t, ht, hstored⟩ := List.mem_flatMap.1 hpair
  obtain ⟨q, hq, hsome⟩ := List.mem_filterMap.1 hstored
  obtain ⟨v, -, rfl⟩ := Option.map_eq_some_iff.1 hsome
  exact covered t (List.mem_filter.1 ht).1 q hq

end Action

end EntityMapper
