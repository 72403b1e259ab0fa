import EntityMapper.Proofs.Tracking.Shape
import EntityMapper.Proofs.UnitOfWork.Made
import EntityMapper.Proofs.UnitOfWork.Relationships

/-!
# The shape of the entries of a unit of work

Whatever is done in a unit of work, its entries are in shape, and their sidecars in order
(`UnitOfWork.shape_of_reachable`). Slots come with the making of an entry and stay
(`UnitOfWork.slots_of_reachable`). Sidecars and snapshot are about properties of the entity type from
then on, because operations and saves keep them so (`UnitOfWork.stocked_of_reachable`); a save does as
it consists of actions that do.
-/

namespace EntityMapper

open Stepwise

/-! ## New entries -/

namespace Session

variable {s s' : Session} {t : EntityType} {e : Entry} {native : Option Instance}

/-- A new entry has at most the sidecar for baseline values, and an empty snapshot. -/
theorem newEntry_furnished (ht : t.Placed) (h : s.newEntry t native = .ok e) : e.Furnished := by
  obtain ⟨accessors, -, h⟩ := Result.bind_eq_ok_iff.1 h
  cases h
  have hfurnished : Entry.Furnished { Entry.fresh ⟨s.made + 1⟩ t native accessors with
      sidecars := [.baseline t.properties] } := by
    refine ⟨List.nodup_singleton _, fun b hb p hp => ?_, nofun⟩
    obtain rfl := List.mem_singleton.1 hb
    exact ht.owns_of_mem hp
  have hsub : (if t.native.isSome then [.baseline t.properties] else []).Sublist
      [Sidecar.baseline t.properties] := by
    split
    · exact List.Sublist.refl _
    · exact List.nil_sublist _
  exact hfurnished.of_sublist hsub

/-- An entry is made with sidecars and a snapshot for its own properties. -/
theorem Fills.furnished (h : s.Fills t e s') (ht : t.Placed) : e.Furnished := by
  obtain ⟨native, e₁, e₂, -, he₁, hloads, hcapture, -⟩ := h
  have htype : e₂.type = e₁.type := hloads.revalued.type
  have hloaded : e₁.Refit e₂ := .values htype hloads.sidecars hloads.snapshot
  refine ((newEntry_furnished ht he₁).refit hloaded).refits (Entry.captureAllIfEager_refits ?_ hcapture)
  rwa [htype, newEntry_type he₁]

/-- A new entry has a shadow value for each property, and an accessor for all but shadow
properties. -/
theorem newEntry_slots (ht : t.Placed) (h : s.newEntry t native = .ok e) :
    e.accessors.length = t.properties.length ∧ e.shadow.length = t.properties.length ∧
      ∀ p ∈ t.properties, p.shadow = true ↔ e.accessors[p.index]? = some none := by
  have haccessor := fun p => accessor?_of_newEntry (p := p) ht h
  obtain ⟨accessors, haccessors, h⟩ := Result.bind_eq_ok_iff.1 h
  cases h
  have hlength : accessors.length = t.properties.length :=
    (Result.mapM_eq_ok_iff.1 haccessors).length_eq.symm
  refine ⟨hlength, List.length_map _, fun p hp => ?_⟩
  have hlt : p.index < accessors.length := hlength ▸ ht.index_lt hp
  have hslot : accessors[p.index]? = some accessors[p.index] := List.getElem?_eq_getElem hlt
  have hjoin : (Entry.fresh ⟨s.made + 1⟩ t native accessors).accessor? p = accessors[p.index] :=
    congrArg Option.join hslot
  change p.shadow = true ↔ accessors[p.index]? = some none
  rw [hslot, ← hjoin, Option.some.injEq]
  rcases haccessor p hp with ⟨hshadow, hnone⟩ | ⟨hshadow, a, -, hsome⟩
  · exact iff_of_true hshadow hnone
  · rw [hshadow, hsome]
    exact iff_of_false Bool.false_ne_true nofun

theorem FillsFrom.slots (h : s.FillsFrom t native e) (ht : t.Placed) :
    e.accessors.length = t.properties.length ∧ e.shadow.length = t.properties.length ∧
      ∀ p ∈ t.properties, p.shadow = true ↔ e.accessors[p.index]? = some none := by
  obtain ⟨-, e₁, e₂, he₁, hloads, hcapture⟩ := h
  have hvalues := hloads.revalued.trans (Entry.captureAllIfEager_revalued hcapture)
  have haccessors : e.accessors = e₁.accessors := congrArg Make.accessors hvalues.make
  have hshadow : e.shadow.length = e₁.shadow.length := congrArg Make.shadows hvalues.make
  rw [haccessors, hshadow]
  exact newEntry_slots ht he₁

end Session

/-! ## What saves keep -/

/-- An entry with sidecars and a snapshot for its own properties, where certain lasting sidecars are
attached in a certain order. -/
structure Entry.Stocked (kept : List String) (e : Entry) : Prop where
  furnished : e.Furnished
  kept : kept.Sublist e.lastingNames

namespace Entry.Stocked

variable {kept : List String} {e e' : Entry}

theorem refits (h : e.Stocked kept) (hr : e.Refits e') : e'.Stocked kept :=
  ⟨h.furnished.refits hr, h.kept.trans hr.lastingNames⟩

/-- Lasting sidecars are not rolled back. -/
theorem rollBack (h : e.Stocked kept) : e.rollBack.Stocked kept := by
  have hlasting : e.rollBack.lastingNames = e.lastingNames := by
    unfold lastingNames Entry.rollBack
    rw [List.filter_filter]
    refine congrArg (List.map _) (List.filter_congr fun t _ => ?_)
    cases hcommits : t.autoCommit <;> simp [Sidecar.Lasting, hcommits]
  exact ⟨h.furnished.of_sublist List.filter_sublist, hlasting.symm ▸ h.kept⟩

end Entry.Stocked

namespace Action

variable {kept : List String} {α : Type} {x : Action α}

/-- An action keeps an entry stocked if it does so for entity types with their properties in place. -/
theorem keeps_stocked (hmake : Fixes Entry.make x) (hx : ∀ s : Scope, s.entry.type.Placed →
      s.entry.Stocked kept → (Stepwise.perform x s).2.entry.Stocked kept) :
    Keeps (fun s => s.entry.type.Placed → s.entry.Stocked kept) x := by
  intro s hs placed
  have htype : (Stepwise.perform x s).2.entry.type = s.entry.type := congrArg Make.type (hmake s)
  exact hx s (htype ▸ placed) (hs (htype ▸ placed))

theorem keeps_settle_stocked :
    Keeps (fun s => s.entry.type.Placed → s.entry.Stocked kept) settle := by
  refine (keeps_stocked commit_fixes_make fun s _ hs => ?_).bind fun _ =>
    keeps_stocked (fun s => (accept_keeps s (.refl s)).make) fun s placed hs => ?_
  · exact hs.rollBack.refits (commit_refits hs.furnished.covered)
  · exact hs.refits (accept_refits placed hs.furnished.names s (.refl _))

end Action

/-- A save keeps each entry stocked. -/
theorem Saving.stocked_save {id : EntryId} {kept : List String} {s : SaveScope}
    (hs : EntryHolds id (fun e => e.type.Placed → e.Stocked kept) s) (d : Dialect)
    (executor : Executor) :
    EntryHolds id (fun e => e.type.Placed → e.Stocked kept) (save d executor s).2 := by
  refine entryHolds_save (fun e he placed => (he placed).refits (Entry.prepare_refits placed))
    (fun _ _ _ c _ row => ?_) Action.keeps_settle_stocked (fun e he placed => (he placed).rollBack)
    d executor hs
  exact Action.keeps_stocked (Action.fixes_make fun _ => Action.receive_keeps c row)
    fun s placed hs => hs.refits (Action.receive_refits placed c row s (.refl _))

/-! ## Units of work -/

namespace UnitOfWork

variable {u u' : UnitOfWork} {e : Entry} {id : EntryId} {kept : List String}

/-- Accessors and shadow values stay as they were made. -/
theorem slots_of_reachable (h : u.Reachable) (he : e ∈ u.entries) (placed : e.type.Placed) :
    e.accessors.length = e.type.properties.length ∧ e.shadow.length = e.type.properties.length ∧
      ∀ p ∈ e.type.properties, p.shadow = true ↔ e.accessors[p.index]? = some none := by
  refine holds_of_made (P := fun _ e => e.type.Placed →
    e.accessors.length = e.type.properties.length ∧ e.shadow.length = e.type.properties.length ∧
      ∀ p ∈ e.type.properties, p.shadow = true ↔ e.accessors[p.index]? = some none)
    (fun _ e e' hmake hslots => ?_) (fun s t native e hfills placed => ?_) h he placed
  · have htype : e'.type = e.type := congrArg Make.type hmake
    have haccessors : e'.accessors = e.accessors := congrArg Make.accessors hmake
    have hshadow : e'.shadow.length = e.shadow.length := congrArg Make.shadows hmake
    rwa [htype, haccessors, hshadow]
  · obtain ⟨-, rfl, -⟩ := hfills.fills.fresh
    exact hfills.slots placed

/-- A save keeps the entries of a unit of work stocked. -/
theorem stocked_merge (hstep : u.InStep)
    (h : u.EntryHolds id fun e => e.type.Placed → e.Stocked kept) {chosen : List Entry}
    (hchosen : ∀ e ∈ chosen, e ∈ u.entries) (d : Dialect) (executor : Executor) :
    (u.merge (Saving.save d executor { entries := chosen, session := u.session }).2).EntryHolds id
      fun e => e.type.Placed → e.Stocked kept := by
  refine h.merge (Saving.stocked_save (fun e he => ?_) d executor)
  have hid : e.id = id := SaveScope.id_of_entryOf he
  exact h e (hid ▸ hstep.entryOf_of_mem (hchosen e (List.mem_of_find?_eq_some he)))

/-- A save leaves entities of the types that they are of. -/
theorem type_of_merge (hstep : u.InStep) (he : e ∈ u.entries) {chosen : List Entry}
    (hchosen : ∀ e ∈ chosen, e ∈ u.entries) (d : Dialect) (executor : Executor) {e' : Entry}
    (he' : (u.merge (Saving.save d executor
      { entries := chosen, session := u.session }).2).entryOf e.id = some e') : e'.type = e.type := by
  have hmake : ∀ (r : Registry) (e₁ e₂ : Entry), e₂.make = e₁.make →
      (e₁.id = e.id → e₁.type = e.type) → e₂.id = e.id → e₂.type = e.type := by
    intro _ e₁ e₂ hmake htype hid
    have hid₁ : e₂.id = e₁.id := congrArg Make.id hmake
    exact (congrArg Make.type hmake).trans (htype (hid₁.symm.trans hid))
  have hall : ∀ id e₁, u.entryOf id = some e₁ → e₁.id = e.id → e₁.type = e.type := by
    intro id e₁ he₁ hid
    have hid₁ : e₁.id = id := Roster.id_of_ofEntries he₁
    have hentry := hstep.entryOf_of_mem he
    rw [← hid, hid₁, he₁] at hentry
    rw [Option.some.inj hentry]
  exact lasts_merge (lasting_of_make hmake .sparing) hstep.nodup hchosen d executor hall e.id e' he'
    (Roster.id_of_ofEntries he')

/-- Whatever is done, sidecars and snapshots are about properties of the entity types. -/
theorem stocked_of_reachable (h : u.Reachable) :
    u.EntryHolds id fun e => e.type.Placed → e.Stocked [] := by
  induction h with
  | start h => exact fun e he => absurd (mem_of_entryOf he) List.not_mem_nil
  | step h hs ih =>
    have hstep := inStep_of_reachable h
    rcases hs.cases with ⟨t, e, s, hfills, rfl⟩ | ⟨e, he, op, rfl⟩ | ⟨chosen, hchosen, d, ex, rfl⟩
    · obtain ⟨hid, htype, -⟩ := hfills.fresh
      exact ih.append (hid ▸ hstep.entryOf_next) fun _ placed =>
        ⟨hfills.furnished (htype ▸ placed), List.nil_sublist _⟩
    · refine ih.put (hstep.entryOf_of_mem he) (fun _ hstocked placed => ?_) fun _ _ he => he
      have placed : e.type.Placed := (op.leads_run ⟨e, _⟩).type ▸ placed
      exact ⟨EntryOperation.furnished_run (hstocked placed).furnished placed op,
        List.nil_sublist _⟩
    · exact stocked_merge hstep ih hchosen d ex

/-- The sidecars of an entry keep the order of their attachment: one that is attached has the place of
the one of its name, or the last one; no operation changes the order, whether it attaches or detaches
some; and those that saves take no part in are in order after a save. -/
structure KeepsOrder (u : UnitOfWork) (e : Entry) : Prop where
  attach : ∀ s e', e.attachOwned s = .ok e' → e'.sidecars =
    if s.name ∈ e.sidecarNames then e.sidecars.map fun t => if t.name = s.name then s else t
    else e.sidecars ++ [s]
  attaching : ∀ op : EntryOperation, op.detaches = false →
    e.sidecarNames <+: (op.run ⟨e, u.session⟩).entry.sidecarNames
  detaching : ∀ op : EntryOperation, op.detaches = true →
    (op.run ⟨e, u.session⟩).entry.sidecarNames.Sublist e.sidecarNames
  saving : ∀ chosen : List Entry, (∀ e ∈ chosen, e ∈ u.entries) → ∀ d executor e',
    (u.merge (Saving.save d executor { entries := chosen, session := u.session }).2).entryOf e.id =
      some e' → e.lastingNames.Sublist e'.sidecarNames

theorem keepsOrder_of_furnished (hstep : u.InStep) (he : e ∈ u.entries) (placed : e.type.Placed)
    (h : e.Furnished) : u.KeepsOrder e where
  attach s e' hattach := by
    rcases e.attachOwned_cases s with ⟨-, hok⟩ | ⟨_, -, -, herr⟩
    · obtain rfl := Except.ok.inj (hok.symm.trans hattach)
      split
      · rename_i hmem
        exact Entry.attachTo_eq_map h.names hmem
      · rename_i hnew
        exact Entry.attachTo_of_notMem fun t ht hname => hnew (List.mem_map.2 ⟨t, ht, hname⟩)
    · rw [herr] at hattach
      cases hattach
  attaching _ hop := EntryOperation.names_prefix_run (s := ⟨e, u.session⟩) h placed hop
  detaching _ hop := EntryOperation.names_sublist_run hop _
  saving chosen hchosen d executor e' he' := by
    have hentry := hstep.entryOf_of_mem he
    have hstart : u.EntryHolds e.id fun e' => e'.type.Placed → e'.Stocked e.lastingNames := by
      intro e₁ he₁ _
      obtain rfl := Option.some.inj (hentry.symm.trans he₁)
      exact ⟨h, List.Sublist.refl _⟩
    have htype := type_of_merge hstep he hchosen d executor he'
    have hstocked := stocked_merge hstep hstart hchosen d executor e' he' (htype ▸ placed)
    exact hstocked.kept.trans (List.filter_sublist.map _)

/-- **Entries are in shape.** Whatever is done in a unit of work, an entry has one accessor slot, one
flag and one shadow value for each property of its entity type, with no accessor for the shadow
properties alone; its sidecars have different names, keep their order and cover properties of the
entity type only; and its snapshot is for positions of properties. So whatever property an operation
is given or comes across has its slots, unless the entity type does not own it: then it is refused, and
nothing is done. -/
theorem shape_of_reachable (h : u.Reachable) (he : e ∈ u.entries) (placed : e.type.Placed) :
    e.InShape ∧ u.KeepsOrder e ∧
    (∀ p, e.type.owns p = true → e.InRange p) ∧ (∀ p ∈ e.type.properties, e.InRange p) ∧
    (∀ s ∈ e.sidecars, ∀ p ∈ s.covered, e.InRange p) ∧
    ∀ p, e.type.owns p = false → e.Rejects u.session p := by
  have hstep := inStep_of_reachable h
  have hentry := hstep.entryOf_of_mem he
  have hfurnished := (stocked_of_reachable h e hentry placed).furnished
  obtain ⟨haccessors, hshadow, hshadowed⟩ := slots_of_reachable h he placed
  have hflags : e.modified.length = e.type.properties.length := (hstep.roster.flags e.id e hentry).length
  have hshape : e.InShape := ⟨hfurnished, haccessors, hflags, hshadow, hshadowed⟩
  exact ⟨hshape, keepsOrder_of_furnished hstep he placed hfurnished, fun _ => hshape.inRange,
    fun _ hp => hshape.inRange (placed.owns_of_mem hp),
    fun s hs p hp => hshape.inRange (hfurnished.covered s hs p hp), fun _ => hfurnished.rejects⟩

/-- The number of another entity type, which has the name and the position of that of parts. -/
def lookAlike : Property :=
  { Parts.number with owner := ⟨1⟩, ownerName := "Tool" }

theorem shape_of_reachable_parts :
    (Parts.work (Parts.edited (.int 7)) Parts.tracked).Reachable ∧ (Parts.edited (.int 7)).InShape ∧
    (Parts.edited (.int 7)).InRange Parts.whole ∧
    perform (Action.set lookAlike (.int 3))
        ⟨Parts.edited (.int 7), (Parts.work (Parts.edited (.int 7)) Parts.tracked).session⟩ =
      (.error (.notFound .property "Number" (some "Part")),
        ⟨Parts.edited (.int 7), (Parts.work (Parts.edited (.int 7)) Parts.tracked).session⟩) ∧
    (Parts.edited (.int 7)).attachOwned (.plain "Tray" [Parts.whole, lookAlike]) =
      .error (.notFound .property "Number" (some "Part")) := by
  have hreachable := Parts.edited_watched.reachable
  obtain ⟨hshape, -, hrange, -, -, hrejects⟩ :=
    shape_of_reachable (e := Parts.edited (.int 7)) hreachable (.head _) Parts.placed
  exact ⟨hreachable, hshape, hrange Parts.whole rfl, (hrejects lookAlike rfl).uses (.set (.int 3)), rfl⟩

end UnitOfWork

end EntityMapper
