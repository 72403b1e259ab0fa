import EntityMapper.Proofs.Tracking.Operations
import EntityMapper.Proofs.Tracking.Typed

/-!
# Relationship snapshots

The relationship snapshot of an entry holds the last values seen of the properties that take part in
keys. `Entry.SnappedAt` says that the one of a property is its primary value, up to key equality;
a property without one has the primary value in its place.

Four kinds of actions record values there: writing, committing, accepting, and detecting changes.
`Entry.Faithful` is the invariant that carries the snapshot through them: the entry is typed, so that
no value is refused halfway between the snapshot and the storage (`Entry.Faithful.written`), and the
snapshot follows the primary values of the properties `seen`. All operations keep it, also where they
fail (`EntryOperation.faithful_run`); those that go around the snapshot lose sight of the properties,
and detecting changes sees all of them again (`Action.detect_faithful`).
-/

namespace EntityMapper

open Stepwise

/-! ## Faithful entries -/

namespace Entry

variable {t : EntityType} {seen seen' : Property → Prop} {e e' : Entry} {p q : Property} {v w : Value}

/-- The last value seen of a relationship property is the primary value. -/
def SnappedAt (e : Entry) (p : Property) : Prop :=
  e.type.inRelationship p = true → ∀ last, e.snapshot.lookup p.index = some last →
    ∃ current, e.primaryValue p = .ok current ∧ last.keyEqual current = true

/-- A typed entry, whose relationship snapshot follows the primary values of the properties seen. -/
structure Faithful (t : EntityType) (seen : Property → Prop) (e : Entry) : Prop where
  type : e.type = t
  typed : e.Typed
  snapped : ∀ p ∈ t.properties, seen p → e.SnappedAt p

/-- The entry with a written value noted in its relationship snapshot, if the property is in one. -/
def noted (e : Entry) (p : Property) (v : Value) : Entry :=
  { e with snapshot :=
      if e.type.inRelationship p then Sidecar.put p.index v e.snapshot else e.snapshot }

theorem noted_eq (e : Entry) (p : Property) (v : Value) :
    (if e.type.inRelationship p then e.recordSnapshot p v else e) = e.noted p v := by
  unfold noted
  split <;> rfl

/-- A value may be noted before it is put in or after that. -/
theorem putPrimary_noted (h : e.putPrimary p v = .ok e') :
    (e.noted p v).putPrimary p v = .ok (e'.noted p v) := by
  rcases putPrimary_eq_ok_iff.1 h with ⟨ha, rfl⟩ | ⟨a, i, i', ha, hi, hs, rfl⟩
  · exact putPrimary_eq_ok_iff.2 (.inl ⟨ha, rfl⟩)
  · exact putPrimary_eq_ok_iff.2 (.inr ⟨a, i, i', ha, hi, hs, rfl⟩)

namespace Faithful

theorem mem (h : e.Faithful t seen) (hp : p ∈ t.properties) : p ∈ e.type.properties := h.type ▸ hp

theorem placed (h : e.Faithful t seen) : t.Placed := h.type ▸ h.typed.declared.valid.placed

theorem mono (h : e.Faithful t seen) (hseen : ∀ p ∈ t.properties, seen' p → seen p) :
    e.Faithful t seen' :=
  ⟨h.type, h.typed, fun p hp hs => h.snapped p hp (hseen p hp hs)⟩

/-- State and flags are no matter. -/
theorem of_record (h : e.Faithful t seen) (state : EntityState) (modified : List Bool) :
    Faithful t seen { e with state, modified } :=
  ⟨h.type, h.typed.of_record state modified, h.snapped⟩

/-- Nor are the sidecars, as long as they are typed. -/
theorem overlaid (h : e.Faithful t seen) (ho : e.Overlaid e') : e'.Faithful t seen := by
  have htyped := ho.typed h.typed
  obtain ⟨sidecars, rfl, -⟩ := ho
  exact ⟨h.type, htyped, h.snapped⟩

/-- **Recording** the primary value of a property. -/
theorem recordCurrent (h : e.Faithful t seen) (hp : p ∈ t.properties)
    (hcurrent : e.primaryValue p = .ok v) :
    (e.recordSnapshot p v).Faithful t fun q => seen q ∨ q = p := by
  refine ⟨h.type, h.typed.recordSnapshot (h.mem hp) (h.typed.primary p (h.mem hp) v hcurrent), ?_⟩
  intro q hq hseen hrel last hlast
  rcases h.placed.of_lookup_put hp hq hlast with ⟨rfl, rfl⟩ | ⟨hne, hlast⟩
  · exact ⟨last, hcurrent, last.keyEqual_self⟩
  · exact h.snapped q hq (hseen.resolve_right hne) hrel last hlast

/-- Storing a value that its property takes loses sight of that property. -/
theorem stored (h : e.Faithful t seen) (hp : p ∈ t.properties) (hv : p.Takes v)
    (hput : e.putPrimary p v = .ok e') : e'.Faithful t fun q => seen q ∧ q ≠ p := by
  have htype : e'.type = e.type := (putPrimary_revalued hput).type
  refine ⟨htype.trans h.type, h.typed.putPrimary (h.mem hp) hv hput, ?_⟩
  rintro q hq ⟨hseen, hne⟩ hrel last hlast
  have hindex : p.index ≠ q.index := fun heq => hne (h.placed.eq_of_index hq hp heq.symm)
  rw [htype] at hrel
  rw [putPrimary_snapshot hput] at hlast
  rw [h.typed.declared.primaryValue_of_putPrimary_other (h.mem hp) (h.mem hq) hindex hput]
  exact h.snapped q hq hseen hrel last hlast

/-- **Writing** a value that its property takes, to the storage and to the snapshot. -/
theorem written (h : e.Faithful t seen) (hp : p ∈ t.properties) (hv : p.Takes v)
    (hput : e.putPrimary p v = .ok e') : (e'.noted p v).Faithful t seen := by
  have hstored := h.stored hp hv hput
  have hvalue : e'.primaryValue p = .ok v :=
    h.typed.declared.primaryValue_of_putPrimary (h.mem hp) hv hput
  rw [← noted_eq]
  split
  · refine (hstored.recordCurrent hp hvalue).mono fun q _ hseen => ?_
    by_cases heq : q = p
    · exact .inr heq
    · exact .inl ⟨hseen, heq⟩
  · -- Nothing is noted for a property outside relationships, and nothing has to be.
    rename_i hrel
    refine ⟨hstored.type, hstored.typed, fun q hq hseen hrel' => ?_⟩
    exact hstored.snapped q hq ⟨hseen, fun heq => hrel (heq ▸ hrel')⟩ hrel'

end Faithful

end Entry

/-! ## Actions -/

namespace Action

variable {t : EntityType} {seen : Property → Prop} {s s' : Scope} {p : Property} {v : Value}
  {α : Type}

/-- Actions that keep an entry faithful, also where they fail. -/
def KeepsFaithful (t : EntityType) (seen : Property → Prop) (x : Action α) : Prop :=
  Keeps (fun s => s.entry.Faithful t seen) x

/-- Flags and drawn values are no matter. -/
theorem faithful_unmarked : Unmarked fun s => s.entry.Faithful t seen where
  flag := by
    intro s i on _ hs
    obtain ⟨state, modified, hflag⟩ := s.entry_flag i on
    rw [hflag]
    exact hs.of_record state modified
  draw _ hs := hs

/-- Sidecars may change, as long as they are typed. -/
theorem update_keeps_faithful {g : Entry → Result Entry}
    (h : ∀ e e' : Entry, e.Faithful t seen → g e = .ok e' → e.Overlaid e') :
    KeepsFaithful t seen (update g) :=
  keeps_update_of fun _ _ he hg => he.overlaid (h _ _ he hg)

theorem modifyEntry_keeps_faithful {g : Entry → Entry}
    (h : ∀ e : Entry, e.Faithful t seen → e.Overlaid (g e)) : KeepsFaithful t seen (modifyEntry g) :=
  keeps_modifyEntry_of fun _ he => he.overlaid (h _ he)

/-! ### Writing -/

/-- The value is noted first, and then put in, which is not refused. -/
theorem write_keeps_faithful (hp : p ∈ t.properties) (hv : p.Takes v) :
    KeepsFaithful t seen (write p v) := by
  intro s hs
  rw [write, perform_bind, perform_read]
  cases hcurrent : s.entry.primaryValue p with
  | error err => exact hs
  | ok current =>
    dsimp only
    split
    · exact hs
    rw [perform_bind, perform_update]
    cases hcapture : s.entry.captureBaseline p current with
    | error err => exact hs
    | ok e₁ =>
      have hs₁ : e₁.Faithful t seen := hs.overlaid (hs.typed.captureBaseline (hs.mem hp)
        (hs.typed.primary p (hs.mem hp) current hcurrent) hcapture)
      obtain ⟨e₂, hput⟩ := hs₁.typed.declared.exists_putPrimary (hs₁.mem hp) hv
      dsimp only
      rw [perform_bind, perform_modifyEntry]
      dsimp only
      rw [Entry.noted_eq, perform_bind, perform_update, Entry.putPrimary_noted hput]
      exact faithful_unmarked.keeps_flagWritten p _ (hs₁.written hp hv hput)

theorem set_keeps_faithful (hp : t.Knows p) (v : Value) : KeepsFaithful t seen (set p v) := by
  intro s hs
  rw [set, perform_bind, perform_read]
  cases howned : s.entry.requireOwned p with
  | error err => exact hs
  | ok _ =>
    have hp : p ∈ t.properties := hp (hs.type ▸ Entry.owns_of_requireOwned howned)
    dsimp only
    rw [perform_bind, perform_read]
    cases hw : p.coerce v with
    | error err => exact hs
    | ok w =>
      have hw : p.Takes w := Property.takes_of_coerce hw
      dsimp only
      rw [perform_bind, perform_read]
      dsimp only
      split
      · rename_i sidecar hfind
        have hsidecar : sidecar.Typed t :=
          hs.type ▸ hs.typed.sidecars _ (List.mem_of_find?_eq_some hfind)
        refine update_keeps_faithful (fun e e' he hset => ?_) s hs
        obtain ⟨sidecar', hset', hset⟩ := Result.bind_eq_ok_iff.1 hset
        cases hset
        exact he.typed.attach_set (he.type ▸ hsidecar) (he.mem hp) hw hset'
      · exact write_keeps_faithful hp hw s hs

theorem setNamed_keeps_faithful (name : String) (v : Value) :
    KeepsFaithful t seen (setNamed name v) := by
  intro s hs
  rw [setNamed, perform_bind, perform_read]
  cases hp : s.entry.type.property name with
  | error err => exact hs
  | ok p =>
    unfold EntityType.property at hp
    split at hp
    · rename_i q hfind
      cases hp
      have hmem : p ∈ t.properties := hs.type ▸ List.mem_of_find?_eq_some hfind
      exact set_keeps_faithful (EntityType.knows_of_mem hmem) v s hs
    · cases hp

/-- A state may come with generated values, which are written. -/
theorem setState_keeps_faithful (target : EntityState) :
    KeepsFaithful t seen (setState target) := by
  refine faithful_unmarked.keeps_setState (fun s hs p hp v => ?_) fun s hs => hs.of_record ..
  exact set_keeps_faithful (EntityType.knows_of_mem (hs.type ▸ hp)) v

/-! ### Accepting -/

/-- Recording the primary value of a property that is read at the same time. -/
theorem recordCurrent_keeps_faithful (hp : p ∈ t.properties) : KeepsFaithful t seen (do
    let current ← read (·.primaryValue p)
    modifyEntry (·.recordSnapshot p current)) := by
  intro s hs
  rw [perform_bind, perform_read]
  cases hcurrent : s.entry.primaryValue p with
  | error err => exact hs
  | ok current => exact (hs.recordCurrent hp hcurrent).mono fun _ _ => .inl

theorem rebase_keeps_faithful : KeepsFaithful t seen rebase := by
  refine (modifyEntry_keeps_faithful fun _ he => he.typed.clearBaseline).bind fun _ =>
    (update_keeps_faithful fun _ _ he => he.typed.captureAllIfEager).bind fun _ s hs => ?_
  rw [perform_bind, perform_read]
  refine Keeps.forM (fun p hp => recordCurrent_keeps_faithful ?_) s hs
  exact hs.type ▸ (List.mem_filter.1 hp).1

theorem accept_keeps_faithful : KeepsFaithful t seen accept := by
  refine (keeps_read _).bind fun e => ?_
  split
  · exact keeps_pure _
  · exact keeps_pure _
  · exact setState_keeps_faithful _
  all_goals exact rebase_keeps_faithful.bind fun _ => setState_keeps_faithful _

/-! ### Committing -/

theorem commitPair_keeps_faithful {pair : Property × Value} (hp : pair.1 ∈ t.properties)
    (hv : pair.1.Takes pair.2) : KeepsFaithful t seen (commitPair pair) := by
  intro s hs
  obtain ⟨e', hput⟩ := hs.typed.declared.exists_putPrimary (hs.mem hp) hv
  rw [commitPair, commitValue, perform_bind, perform_update, hput]
  dsimp only
  rw [perform_modifyEntry]
  dsimp only
  rw [Entry.noted_eq]
  exact hs.written hp hv hput

theorem commit_keeps_faithful : KeepsFaithful t seen commit := by
  intro s hs
  have hpending : KeepsFaithful t seen (s.entry.pending.forM commitPair) := by
    refine Keeps.forM fun pair hpair => ?_
    obtain ⟨hp, hv⟩ := hs.typed.of_mem_pending hpair
    exact commitPair_keeps_faithful (hs.type ▸ hp) hv
  rw [perform_commit]
  exact hpending { s with entry := s.entry.rollBack } (hs.overlaid hs.typed.rollBack)

theorem settle_keeps_faithful : KeepsFaithful t seen settle :=
  commit_keeps_faithful.bind fun _ => accept_keeps_faithful

/-! ### Detecting changes -/

/-- Whether the current value of a property is another one than its captured baseline, and the property
is not flagged. -/
def unnoticed (e : Entry) (p : Property) (current : Value) : Bool :=
  (e.captured? p).any fun baseline =>
    !baseline.keyEqual current && !(e.modified[p.index]?).getD false

/-- Whether the last value seen of a relationship property is another one than the current value. -/
def missed (e : Entry) (p : Property) (current : Value) : Bool :=
  e.type.inRelationship p && (e.snapshot.lookup p.index).any fun last => !last.keyEqual current

/-- The scope once a change of a property was noticed: the property is flagged, and the current value
is the last one seen. -/
def noticed (s : Scope) (p : Property) (current : Value) : Scope :=
  let s₁ := if unnoticed s.entry p current then s.flag p.index true else s
  if missed s.entry p current then { s₁ with entry := s₁.entry.recordSnapshot p current } else s₁

/-- Detecting changes of a property tells whether there was one to notice. -/
theorem perform_detectAt {current : Value} (howned : s.entry.requireOwned p = .ok ())
    (hcurrent : s.entry.primaryValue p = .ok current) :
    Stepwise.perform (detectAt p) s =
      (.ok (unnoticed s.entry p current || missed s.entry p current), noticed s p current) := by
  rw [detectAt, perform_bind, perform_read, hcurrent]
  dsimp only
  rw [perform_bind, perform_read]
  dsimp only
  rw [← missed, ← unnoticed]
  have hseen : ∀ (answer : Bool) (s₁ : Scope), Stepwise.perform (do
      if missed s.entry p current then modifyEntry (·.recordSnapshot p current)
      return answer) s₁ = (.ok answer, if missed s.entry p current then
        { s₁ with entry := s₁.entry.recordSnapshot p current } else s₁) := by
    intro answer s₁
    split <;> rfl
  unfold noticed
  dsimp only
  split
  · rw [perform_bind, perform_setModified, howned]
    exact hseen _ _
  · exact hseen _ s

/-- Noticing a change concerns state, flags and snapshot only. -/
theorem entry_noticed (s : Scope) (p : Property) (current : Value) : ∃ state modified,
    (noticed s p current).entry = { s.entry with
      state, modified
      snapshot := if missed s.entry p current then Sidecar.put p.index current s.entry.snapshot
        else s.entry.snapshot } := by
  obtain ⟨state, modified, hflag⟩ := s.entry_flag p.index true
  unfold noticed
  dsimp only
  split <;> split
  · exact ⟨state, modified, by rw [hflag]; rfl⟩
  · exact ⟨_, _, rfl⟩
  · exact ⟨state, modified, hflag⟩
  · exact ⟨_, _, rfl⟩

/-- Detecting changes of a property sees it. -/
theorem detectAt_faithful (hs : s.entry.Faithful t seen) (hp : p ∈ t.properties) :
    ∃ answer s', Stepwise.perform (detectAt p) s = (.ok answer, s') ∧
      s'.entry.Faithful t fun q => seen q ∨ q = p := by
  obtain ⟨current, hcurrent⟩ := hs.typed.declared.valid.primaryValue_ok p
  have howned : s.entry.requireOwned p = .ok () := if_pos (hs.type ▸ hs.placed.owns_of_mem hp)
  obtain ⟨state, modified, hentry⟩ := entry_noticed s p current
  have hs₁ : Entry.Faithful t seen { s.entry with state, modified } := hs.of_record state modified
  refine ⟨_, _, perform_detectAt howned hcurrent, ?_⟩
  rw [hentry]
  split
  · exact hs₁.recordCurrent hp hcurrent
  · rename_i hmissed
    refine ⟨hs₁.type, hs₁.typed, fun q hq hseen => ?_⟩
    rcases hseen with hseen | rfl
    · exact hs₁.snapped q hq hseen
    · intro hrel last hlast
      have hrel : s.entry.type.inRelationship q = true := hrel
      have hlast : s.entry.snapshot.lookup q.index = some last := hlast
      refine ⟨current, hcurrent, ?_⟩
      simpa [missed, hrel, hlast] using hmissed

/-- Detecting changes of some properties sees all of them. -/
theorem detectAll_faithful {properties : List Property} (hs : s.entry.Faithful t seen)
    (hsub : ∀ p ∈ properties, p ∈ t.properties) (changed : Bool) :
    ∃ answer s', Stepwise.perform
        (properties.foldlM (fun changed p => do return (← detectAt p) || changed) changed) s =
          (.ok answer, s') ∧
      s'.entry.Faithful t fun q => seen q ∨ q ∈ properties := by
  induction properties generalizing s seen changed with
  | nil => exact ⟨changed, s, rfl, hs.mono fun q _ hq => hq.resolve_right List.not_mem_nil⟩
  | cons p properties ih =>
    obtain ⟨hp, hsub⟩ := List.forall_mem_cons.1 hsub
    obtain ⟨found, s₁, hrun, hs₁⟩ := detectAt_faithful hs hp
    obtain ⟨answer, s', hrest, hs'⟩ := ih hs₁ hsub (found || changed)
    refine ⟨answer, s', ?_, hs'.mono fun q _ hq => ?_⟩
    · rw [List.foldlM_cons, perform_bind, perform_bind_of_ok hrun]
      exact hrest
    · rw [List.mem_cons] at hq
      exact or_assoc.2 hq

/-- **Detecting changes** goes through, and in an unchanged or modified entry it sees all of them. -/
theorem detect_faithful (hs : s.entry.Faithful t seen) :
    ∃ answer s', Stepwise.perform detect s = (.ok answer, s') ∧
      s'.entry.Faithful t fun p =>
        seen p ∨ s.entry.state = .unchanged ∨ s.entry.state = .modified := by
  rw [detect, perform_bind, perform_read]
  dsimp only
  split
  · obtain ⟨answer, s', hrun, hs'⟩ := detectAll_faithful hs (fun p hp => hs.type ▸ hp) false
    exact ⟨answer, s', hrun, hs'.mono fun p hp _ => .inr (hs.mem hp)⟩
  · rename_i hstate
    exact ⟨false, s, rfl, hs.mono fun p _ hp => hp.resolve_right fun h => hstate (by simpa using h)⟩

theorem detect_keeps_faithful : KeepsFaithful t seen detect := by
  intro s hs
  obtain ⟨answer, s', hrun, hs'⟩ := detect_faithful hs
  rw [hrun]
  exact hs'.mono fun _ _ => .inl

/-! ### Receiving -/

/-- Rows are taken into the sidecar for generated values. -/
theorem receive_keeps_faithful {c : Command} (hc : ∀ column ∈ c.reads, t.Knows column.property)
    (row : List Value) : KeepsFaithful t seen (c.receive row) := by
  refine keeps_receive (modifyEntry_keeps_faithful fun e he => ?_) fun column hcolumn v =>
    update_keeps_faithful fun e e' he hset => ?_
  · split
    · exact he.typed.overlaid_self
    · exact he.typed.prepare
  · exact he.typed.setSidecarValue (he.type ▸ hc column hcolumn) hset

end Action

/-! ## Operations -/

namespace EntryOperation

variable {t : EntityType} {seen : Property → Prop} {s : Scope} {op : EntryOperation}

/-- The operations that go around the relationship snapshot, or around what it follows. -/
def tampers : EntryOperation → Bool
  | mutate _ | setSnapshotValue .. => true
  | _ => false

/-- The operations whose arguments fit an entry: its properties are genuine, sidecars come without
values or with such as their properties take, and are filled through the entry, and the fields of the
native instance keep their types. -/
def Fits (e : Entry) : EntryOperation → Prop
  | set p _ | setBaselineValue p _ | setSnapshotValue p _ | setSidecarValue _ p _ => e.type.Knows p
  | attach s => ∀ p ∈ s.covered, e.type.Knows p ∧
      ∀ v, s.values.lookup p.index = some v → p.Takes v
  | receive c _ => ∀ column ∈ c.reads, e.type.Knows column.property
  | mutate change => (mutated e change).FieldsTyped
  | fillSidecar .. => False
  | setNamed .. | setModified .. | setState _ | accept | detect | detach _ | removeSidecarValue ..
  | clearSidecar _ | prepare | commit | rollBack => True

theorem mutated_typed {e : Entry} (h : e.Typed) {change : Fields → Fields}
    (fields : (mutated e change).FieldsTyped) : (mutated e change).Typed := by
  have hdeclared := h.declared.of_make (mutated_revalued e change).make
  exact ⟨hdeclared, hdeclared.primary fields h.shadows, h.sidecars, h.snapshot⟩

/-- **An operation** keeps an entry faithful, also where it fails; one that goes around the snapshot
loses sight of the properties. -/
theorem faithful_run (h : s.entry.Faithful t seen) (hop : op.Fits s.entry)
    (htampers : op.tampers = true → ∀ p, ¬ seen p) : (op.run s).entry.Faithful t seen := by
  cases op with
  | set p v =>
    have hp : s.entry.type.Knows p := hop
    exact Action.set_keeps_faithful (h.type ▸ hp) v s h
  | setNamed name v => exact Action.setNamed_keeps_faithful name v s h
  | setModified p on => exact Action.faithful_unmarked.keeps_setModified p on s h
  | setState target => exact Action.setState_keeps_faithful target s h
  | accept => exact Action.accept_keeps_faithful s h
  | detect => exact Action.detect_keeps_faithful.bind (fun _ => keeps_pure _) s h
  | setBaselineValue p v =>
    refine Action.update_keeps_faithful (fun e e' he hset => ?_) s h
    exact he.typed.setBaselineValue (he.type ▸ h.type ▸ hop) hset
  | setSnapshotValue p v =>
    refine Action.keeps_update_of (fun e e' (he : e.Faithful t seen) hset => ?_) s h
    obtain ⟨⟨⟩, howned, hset⟩ := Result.bind_eq_ok_iff.1 hset
    obtain ⟨w, hw, hset⟩ := Result.bind_eq_ok_iff.1 hset
    cases hset
    have hp : t.Knows p := h.type ▸ hop
    have hmem : p ∈ t.properties := hp (he.type ▸ Entry.owns_of_requireOwned howned)
    exact ⟨he.type, he.typed.recordSnapshot (he.mem hmem) (Property.takes_of_coerce hw),
      fun q _ hseen => absurd hseen (htampers rfl q)⟩
  | attach sidecar =>
    refine Action.update_keeps_faithful (fun e e' he hattach => ?_) s h
    exact he.typed.attachOwned (he.type ▸ h.type ▸ hop) hattach
  | detach name => exact Action.modifyEntry_keeps_faithful (fun e he => he.typed.detach name) s h
  | setSidecarValue name p v =>
    refine Action.update_keeps_faithful (fun e e' he hset => ?_) s h
    exact he.typed.setSidecarValue (he.type ▸ h.type ▸ hop) hset
  | fillSidecar name p v => exact hop.elim
  | removeSidecarValue name p =>
    refine Action.update_keeps_faithful (fun e e' he hset => ?_) s h
    obtain ⟨sidecar, hsidecar, hset⟩ := Result.bind_eq_ok_iff.1 hset
    cases hset
    exact he.typed.attach ((he.typed.of_sidecar hsidecar).remove p)
  | clearSidecar name =>
    refine Action.update_keeps_faithful (fun e e' he hset => ?_) s h
    obtain ⟨sidecar, hsidecar, hset⟩ := Result.bind_eq_ok_iff.1 hset
    cases hset
    exact he.typed.attach (he.typed.of_sidecar hsidecar).clear
  | prepare => exact Action.modifyEntry_keeps_faithful (fun e he => he.typed.prepare) s h
  | commit => exact Action.commit_keeps_faithful s h
  | rollBack => exact Action.modifyEntry_keeps_faithful (fun e he => he.typed.rollBack) s h
  | receive c row =>
    have hc : ∀ column ∈ c.reads, s.entry.type.Knows column.property := hop
    exact Action.receive_keeps_faithful (h.type ▸ hc) row s h
  | mutate change =>
    exact ⟨h.type, mutated_typed h.typed hop, fun p _ hseen => absurd hseen (htampers rfl p)⟩

end EntryOperation

end EntityMapper
