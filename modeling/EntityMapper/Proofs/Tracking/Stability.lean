import EntityMapper.Proofs.Tracking.Capture
import EntityMapper.Proofs.Tracking.Operations

/-!
# Stable baselines

Conflicts are told by baseline values, so between two saves these must not move, whatever is done to
the entry. `EntryOperation.SparesBaseline` lists what is not meant to move them: everything but
accepting, committing, replacing a baseline value, and meddling with the sidecar for baseline values;
changes behind the entry's back are on the list where the baseline is captured at once.

`Entry.Steady e₀ e` says that `e` has kept the baseline of `e₀`. Each action on the list goes on with
it, also where it fails: writing captures before it writes (`Action.write_keeps_baseline`), and the
others leave alone what a baseline value is read from (`Entry.Steady.of_same`). So any number of
operations keeps all baseline values (`EntryOperation.baselineValue_runAll`).
-/

namespace EntityMapper

open Stepwise

/-! ## Keeping a baseline -/

namespace Entry

variable {e₀ e e' : Entry} {s : Sidecar} {p q : Property} {v : Value} {name : String}

/-- An entry that has kept the baseline of an earlier one. -/
structure Steady (e₀ e : Entry) : Prop where
  make : e.make = e₀.make
  builtIn : e.BuiltIn
  captured : ∀ q, (e₀.captured? q).isSome → (e.captured? q).isSome
  baseline : ∀ q, e₀.type.owns q = true → e.baselineValue q = e₀.baselineValue q

theorem Steady.refl (hbase : e.BuiltIn) : e.Steady e :=
  ⟨rfl, hbase, fun _ h => h, fun _ _ => rfl⟩

theorem Steady.type (h : e₀.Steady e) : e.type = e₀.type := congrArg Make.type h.make

theorem Steady.placed (h : e₀.Steady e) (placed : e₀.type.Placed) : e.type.Placed :=
  h.type ▸ placed

/-- The baseline stays where the captured values do, and the primary values. -/
theorem Steady.of_same (h : e₀.Steady e) (hmake : e'.make = e.make) (hbase : e'.BuiltIn)
    (hcaptured : ∀ q, e'.captured? q = e.captured? q)
    (hprimary : ∀ q, e'.primaryValue q = e.primaryValue q) : e₀.Steady e' := by
  have htype : e'.type = e.type := congrArg Make.type hmake
  refine ⟨hmake.trans h.make, hbase, fun q hq => ?_, fun q howns => ?_⟩
  · rw [hcaptured]
    exact h.captured q hq
  · have howns' : e.type.owns q = true := h.type ▸ howns
    rw [← h.baseline q howns, baselineValue_of_owns (htype ▸ howns'), baselineValue_of_owns howns',
      hcaptured, hprimary]

/-- State, flags and relationship snapshot are no matter. -/
theorem Steady.of_record (h : e₀.Steady e) (state : EntityState) (modified : List Bool)
    (snapshot : List (Nat × Value)) : e₀.Steady { e with state, modified, snapshot } :=
  h.of_same rfl h.builtIn (fun _ => rfl) fun _ => rfl

theorem Steady.recordSnapshot (h : e₀.Steady e) (p : Property) (v : Value) :
    e₀.Steady (e.recordSnapshot p v) :=
  h.of_record e.state e.modified _

theorem Steady.of_captures (h : e₀.Steady e) (hc : e.Captures e') : e₀.Steady e' where
  make := hc.revalued.make.trans h.make
  builtIn := h.builtIn.of_captures hc
  captured q hq := hc.captured q (h.captured q hq)
  baseline q howns := (hc.baseline q (h.type ▸ howns)).trans (h.baseline q howns)

theorem Steady.of_putPrimary (h : e₀.Steady e) (placed : e₀.type.Placed) (apart : e₀.FieldsApart)
    (hcaptured : (e.captured? p).isSome) (hput : e.putPrimary p v = .ok e') : e₀.Steady e' := by
  have hvalues := putPrimary_revalued hput
  have hsame : ∀ q, e'.captured? q = e.captured? q :=
    captured?_of_sidecars (putPrimary_sidecars hput)
  have howns : e.type.owns p = true := h.builtIn.owns_of_captured (h.placed placed) hcaptured
  refine ⟨hvalues.make.trans h.make, ?_, fun q hq => ?_, fun q hq => ?_⟩
  · refine h.builtIn.of_members hvalues.type fun t ht => .inl ?_
    rwa [putPrimary_sidecars hput] at ht
  · rw [hsame]
    exact h.captured q hq
  · refine Eq.trans ?_ (h.baseline q hq)
    exact baselineValue_of_putPrimary (h.placed placed) (apart.of_make h.make) howns hcaptured hput
      (h.type ▸ hq)

/-! ### Other sidecars -/

theorem Steady.attach (h : e₀.Steady e) (hname : s.name ≠ Sidecar.baselineName) :
    e₀.Steady (e.attach s) := by
  refine h.of_same (e.revalued_sidecars _).make ?_ (captured?_attach_of_ne hname) fun _ => rfl
  refine h.builtIn.of_members rfl fun t ht => ?_
  rcases mem_attachTo ht with rfl | ht
  · exact .inr (.inl hname)
  · exact .inl ht

theorem Steady.detach (h : e₀.Steady e) (hname : name ≠ Sidecar.baselineName) :
    e₀.Steady (e.detach name) :=
  h.of_same (e.revalued_sidecars _).make
    (h.builtIn.of_members rfl fun _ ht => .inl (List.mem_of_mem_eraseP ht))
    (captured?_detach_of_ne hname) fun _ => rfl

theorem Steady.rollBack (h : e₀.Steady e) : e₀.Steady e.rollBack :=
  h.of_same (e.revalued_sidecars _).make
    (h.builtIn.of_members rfl fun _ ht => .inl (List.mem_filter.1 ht).1)
    h.builtIn.captured?_rollBack fun _ => rfl

theorem Steady.prepare (h : e₀.Steady e) : e₀.Steady e.prepare := by
  have hname : Sidecar.generatedName ≠ Sidecar.baselineName := by decide
  exact h.attach hname

theorem name_of_sidecar (h : e.sidecar name = .ok s) : s.name = name := by
  unfold sidecar at h
  split at h
  · rename_i hfind
    cases h
    simpa using List.find?_some hfind
  · cases h

theorem name_of_set {s' : Sidecar} (h : s.set p v = .ok s') : s'.name = s.name := by
  obtain ⟨-, rfl⟩ := Sidecar.set_eq_ok_iff.1 h
  rfl

/-- A sidecar of another name may be replaced by one of its own name. -/
theorem Steady.replace {s' : Sidecar} (h : e₀.Steady e) (hname : name ≠ Sidecar.baselineName)
    (hs : e.sidecar name = .ok s) (hs' : s'.name = s.name) : e₀.Steady (e.attach s') := by
  refine h.attach ?_
  rw [hs', name_of_sidecar hs]
  exact hname

theorem Steady.setSidecarValue (h : e₀.Steady e) (hname : name ≠ Sidecar.baselineName)
    (hset : e.setSidecarValue name p v = .ok e') : e₀.Steady e' := by
  obtain ⟨-, -, hset⟩ := Result.bind_eq_ok_iff.1 hset
  obtain ⟨w, -, hset⟩ := Result.bind_eq_ok_iff.1 hset
  obtain ⟨s, hs, hset⟩ := Result.bind_eq_ok_iff.1 hset
  obtain ⟨s', hs', hset⟩ := Result.bind_eq_ok_iff.1 hset
  cases hset
  exact h.replace hname hs (name_of_set hs')

/-! ### Changes behind the entry's back -/

theorem Steady.mutated (h : e₀.Steady e)
    (held : ∀ q, e₀.type.owns q = true → (e₀.captured? q).isSome) (change : Fields → Fields) :
    e₀.Steady (EntryOperation.mutated e change) := by
  have hvalues := EntryOperation.mutated_revalued e change
  refine ⟨hvalues.make.trans h.make, h.builtIn, h.captured, fun q howns => ?_⟩
  have howns' : e.type.owns q = true := h.type ▸ howns
  obtain ⟨w, hw⟩ := Option.isSome_iff_exists.1 (h.captured q (held q howns))
  have hw' : (EntryOperation.mutated e change).captured? q = some w := hw
  rw [← h.baseline q howns, baselineValue_of_owns (hvalues.type ▸ howns'),
    baselineValue_of_owns howns', hw, hw']

end Entry

/-! ## Actions -/

namespace Action

variable {α : Type} {e₀ : Entry} {p : Property} {v : Value}

/-- Actions that keep the baseline of an entry, also where they fail. -/
def KeepsBaseline (e₀ : Entry) (x : Action α) : Prop :=
  Keeps (fun s => e₀.Steady s.entry) x

/-- Flags, snapshots and drawn values are no matter. -/
theorem steady_indifferent : Indifferent fun s => e₀.Steady s.entry where
  flag := by
    intro s i on _ hs
    obtain ⟨state, modified, hflag⟩ := s.entry_flag i on
    rw [hflag]
    exact hs.of_record state modified _
  snapshot p v hs := hs.recordSnapshot p v
  draw _ hs := hs

/-! ### Writing -/

section Writing

variable (placed : e₀.type.Placed) (apart : e₀.FieldsApart)
include placed apart

/-- Putting in a value and flagging it, once the baseline value is held. -/
theorem put_keeps_baseline (p : Property) (v : Value) {s : Scope} (hs : e₀.Steady s.entry)
    (hcaptured : (s.entry.captured? p).isSome) :
    e₀.Steady (Stepwise.perform (do
      update (·.putPrimary p v)
      flagWritten p) s).2.entry := by
  rw [perform_bind, perform_update]
  cases hput : s.entry.putPrimary p v with
  | error err => exact hs
  | ok e =>
    exact steady_indifferent.keeps_flagWritten p _ (hs.of_putPrimary placed apart hcaptured hput)

/-- Writing a value captures the one before it, and only then replaces it. -/
theorem write_keeps_baseline (p : Property) (v : Value) : KeepsBaseline e₀ (write p v) := by
  intro s hs
  rw [write, perform_bind, perform_read]
  cases hcurrent : s.entry.primaryValue p with
  | error err => exact hs
  | ok current =>
    dsimp only
    split
    · exact hs
    rw [perform_bind, perform_update]
    cases hcapture : s.entry.captureBaseline p current with
    | error err => exact hs
    | ok e₁ =>
      dsimp only
      rw [perform_bind, perform_modifyEntry]
      dsimp only
      obtain ⟨hcaptures, hcaptured⟩ :=
        Entry.captures_of_captureBaseline (hs.placed placed) hs.builtIn hcurrent hcapture
      have hs₁ := hs.of_captures hcaptures
      -- From here on the baseline value of `p` is held, whatever becomes of its primary value.
      refine put_keeps_baseline placed apart p v ?_ ?_
      · exact steady_indifferent.keeps_recordSnapshot p v ⟨e₁, s.session⟩ hs₁
      · dsimp only
        split <;> exact hcaptured

theorem set_keeps_baseline (p : Property) (v : Value) : KeepsBaseline e₀ (set p v) := by
  refine (keeps_read _).bind fun _ => (keeps_read _).bind fun v => ?_
  intro s hs
  rw [perform_bind, perform_read]
  dsimp only
  split
  · rename_i t hfind
    -- The built-in sidecar for baseline values takes no writes, so this is another one.
    have hname : t.name ≠ Sidecar.baselineName := by
      intro hname
      obtain ⟨values, rfl⟩ := hs.builtIn t (List.mem_of_find?_eq_some hfind) hname
      have htakes := List.find?_some hfind
      cases htakes
    refine keeps_update_of (I := e₀.Steady) (fun e e' he hset => ?_) s hs
    obtain ⟨t', ht', hset⟩ := Result.bind_eq_ok_iff.1 hset
    cases hset
    exact he.attach (Entry.name_of_set ht' ▸ hname)
  · exact write_keeps_baseline placed apart p v s hs

theorem setNamed_keeps_baseline (name : String) (v : Value) :
    KeepsBaseline e₀ (setNamed name v) :=
  (keeps_read _).bind fun p => set_keeps_baseline placed apart p v

/-- A state may come with generated values, which are written. -/
theorem setState_keeps_baseline (target : EntityState) : KeepsBaseline e₀ (setState target) :=
  steady_indifferent.keeps_setState (fun _ _ p _ => set_keeps_baseline placed apart p) fun _ hs => hs.of_record ..

end Writing

theorem receive_keeps_baseline (c : Command) (row : List Value) :
    KeepsBaseline e₀ (c.receive row) := by
  have hname : Sidecar.generatedName ≠ Sidecar.baselineName := by decide
  refine keeps_receive (keeps_modifyEntry_of fun e h => ?_) fun _ _ _ =>
    keeps_update_of fun _ _ h hset => h.setSidecarValue hname hset
  split
  · exact h
  · exact h.prepare

end Action

/-! ## Operations -/

namespace EntryOperation

variable {e : Entry} {s : Scope} {ops : List EntryOperation}

/-- The operations that are not meant to move the baseline of an entry. -/
def SparesBaseline (t : EntityType) : EntryOperation → Prop
  | accept | commit | setBaselineValue .. => False
  | attach s => s.name ≠ Sidecar.baselineName
  | detach name | setSidecarValue name .. | fillSidecar name .. | removeSidecarValue name _
  | clearSidecar name => name ≠ Sidecar.baselineName
  | mutate _ => t.capturesLazily = false
  | set .. | setNamed .. | setModified .. | setState _ | detect | setSnapshotValue .. | prepare
  | rollBack | receive .. => True

/-- Each of them keeps the baseline. -/
theorem keeps_baseline {e₀ : Entry} (placed : e₀.type.Placed) (apart : e₀.FieldsApart)
    {op : EntryOperation} (h : op.SparesBaseline e₀.type)
    (heager : ∀ change, op = .mutate change → e₀.HoldsIfEager) :
    Action.KeepsBaseline e₀ op.action := by
  cases op with
  | accept | commit | setBaselineValue p v => exact h.elim
  | set p v => exact Action.set_keeps_baseline placed apart p v
  | setNamed name v => exact Action.setNamed_keeps_baseline placed apart name v
  | setModified p on => exact Action.steady_indifferent.keeps_setModified p on
  | setState target => exact Action.setState_keeps_baseline placed apart target
  | detect => exact Action.steady_indifferent.keeps_detect.bind fun _ => keeps_pure _
  | setSnapshotValue p v =>
    refine Action.keeps_update_of fun e e' he hset => ?_
    obtain ⟨-, -, hset⟩ := Result.bind_eq_ok_iff.1 hset
    obtain ⟨w, -, hset⟩ := Result.bind_eq_ok_iff.1 hset
    cases hset
    exact he.recordSnapshot p w
  | attach s =>
    refine Action.keeps_update_of fun e e' he hset => ?_
    obtain ⟨-, -, hset⟩ := Result.bind_eq_ok_iff.1 hset
    cases hset
    exact he.attach h
  | detach name => exact Action.keeps_modifyEntry_of fun e he => he.detach h
  | setSidecarValue name p v =>
    exact Action.keeps_update_of fun e e' he hset => he.setSidecarValue h hset
  | fillSidecar name p v =>
    refine Action.keeps_update_of fun e e' he hset => ?_
    obtain ⟨s, hs, hset⟩ := Result.bind_eq_ok_iff.1 hset
    obtain ⟨s', hs', hset⟩ := Result.bind_eq_ok_iff.1 hset
    cases hset
    exact he.replace h hs (Entry.name_of_set hs')
  | removeSidecarValue name p =>
    refine Action.keeps_update_of fun e e' he hset => ?_
    obtain ⟨s, hs, hset⟩ := Result.bind_eq_ok_iff.1 hset
    cases hset
    have hname : (s.remove p).name = s.name := by
      unfold Sidecar.remove
      split <;> rfl
    exact he.replace h hs hname
  | clearSidecar name =>
    refine Action.keeps_update_of fun e e' he hset => ?_
    obtain ⟨s, hs, hset⟩ := Result.bind_eq_ok_iff.1 hset
    cases hset
    exact he.replace h hs rfl
  | prepare => exact Action.keeps_modifyEntry_of fun e he => he.prepare
  | rollBack => exact Action.keeps_modifyEntry_of fun e he => he.rollBack
  | receive c row => exact Action.receive_keeps_baseline c row
  | mutate change =>
    exact Action.keeps_modifyEntry_of fun e he => he.mutated (heager change rfl h) change

/-- Any number of them does. -/
theorem steady_runAll {e₀ : Entry} (placed : e₀.type.Placed) (apart : e₀.FieldsApart)
    (hops : ∀ op ∈ ops, op.SparesBaseline e₀.type)
    (heager : ∀ change, .mutate change ∈ ops → e₀.HoldsIfEager) (h : e₀.Steady s.entry) :
    e₀.Steady (runAll ops s).entry := by
  induction ops generalizing s with
  | nil => exact h
  | cons op ops ih =>
    obtain ⟨hop, hops⟩ := List.forall_mem_cons.1 hops
    refine ih hops (fun change hmem => heager change (List.mem_cons_of_mem _ hmem)) ?_
    refine keeps_baseline placed apart hop (fun change heq => heager change ?_) s h
    exact heq ▸ List.mem_cons_self

/-- **Baselines are stable.** Let an entry have its properties at their places, with fields that do
not see each other, and let its sidecar for baseline values be the built-in one. Then no number of
operations that are not meant to move its baseline changes the baseline value of any property,
whether they succeed or fail. Where the baseline is captured at once, and thus held, changes behind
the entry's back do not move it either. -/
theorem baselineValue_runAll (placed : e.type.Placed) (apart : e.FieldsApart) (hbase : e.BuiltIn)
    (hops : ∀ op ∈ ops, op.SparesBaseline e.type)
    (heager : ∀ change, .mutate change ∈ ops → e.HoldsIfEager) (session : Session) (q : Property) :
    (runAll ops ⟨e, session⟩).entry.baselineValue q = e.baselineValue q := by
  have h : e.Steady (runAll ops ⟨e, session⟩).entry :=
    steady_runAll placed apart hops heager (.refl hbase)
  by_cases howns : e.type.owns q = true
  · exact h.baseline q howns
  · rw [Entry.baselineValue, Entry.baselineValue, Entry.requireOwned, Entry.requireOwned, h.type,
      if_neg howns]
    rfl

end EntryOperation

/-! ## An example -/

namespace Tags

/-- The number of a tag. -/
def code : Property where
  name := "Code"
  owner := ⟨0⟩
  ownerName := "Tag"
  index := 0
  valueType := .int
  nullable := false
  shadow := false
  concurrencyToken := false
  clientGenerated := false
  storeGeneration := .never
  column := none
  tableKey := none

/-- What is on a tag. -/
def label : Property :=
  { code with name := "Label", index := 1, valueType := .text }

/-- Tags, whose baseline is captured at once. -/
def type : EntityType where
  id := ⟨0⟩
  name := "Tag"
  native := some ⟨"Tag"⟩
  properties := [code, label]
  key := some ⟨code, [], List.forall_mem_nil _⟩
  capturesLazily := false

/-- A tag as it was read. -/
def tag : Entry where
  id := ⟨1⟩
  type := type
  native := some ⟨⟨"Tag"⟩, [("Code", .int 1), ("Label", .text "Old")]⟩
  shadow := [.int 0, .text ""]
  accessors := [some (.field ⟨"Tag"⟩ "Code" .int32), some (.field ⟨"Tag"⟩ "Label" .string)]
  state := .unchanged
  modified := [false, false]
  sidecars := [.baselineWith type.properties [(0, .int 1), (1, .text "Old")]]
  snapshot := []

/-- A session with the tag. -/
def session : Session where
  model := ⟨[type]⟩
  registry := .empty
  generators := .ofOverrides [] fun _ _ => 0
  tracker := Tracker.empty.start ⟨1⟩ "Tag" .unchanged
  made := 1

/-- The tag is written, with a number that is refused, too, and changed behind its entry's back,
before and after the changes are detected. -/
def operations : List EntryOperation :=
  [.set label (.text "New"), .set code (.text "One"), .mutate (Fields.set "Code" (.int 2)), .detect,
    .prepare, .setSidecarValue Sidecar.generatedName code (.int 5), .rollBack,
    .mutate (Fields.set "Label" (.text "Newer")), .setState .deleted]

theorem placed : type.Placed where
  index := by
    intro i p h
    match i with
    | 0 | 1 =>
      cases h
      rfl
    | _ + 2 => cases h
  owner := by decide

theorem tag_fieldsApart : tag.FieldsApart := by
  intro p hp q hq hne a b ha hb
  rcases List.mem_pair.1 hp with rfl | rfl <;> rcases List.mem_pair.1 hq with rfl | rfl
  · exact absurd rfl hne
  · cases ha
    cases hb
    exact Accessor.field_apart (by decide)
  · cases ha
    cases hb
    exact Accessor.field_apart (by decide)
  · exact absurd rfl hne

theorem tag_builtIn : tag.BuiltIn :=
  fun _ ht _ => ⟨_, List.mem_singleton.1 ht⟩

theorem tag_holdsIfEager : tag.HoldsIfEager := by
  intro _ q howns
  obtain ⟨p, hp, -, hsame⟩ := placed.exists_of_owns howns
  rw [← Entry.captured?_congr hsame]
  rcases List.mem_pair.1 hp with rfl | rfl <;> rfl

end Tags

namespace EntryOperation

theorem baselineValue_runAll_tags :
    Tags.tag.FieldsApart ∧ Tags.tag.BuiltIn ∧ Tags.tag.HoldsIfEager ∧
    (runAll Tags.operations ⟨Tags.tag, Tags.session⟩).entry.baselineValue Tags.label =
      .ok (.text "Old") ∧
    (runAll Tags.operations ⟨Tags.tag, Tags.session⟩).entry.primaryValue Tags.label =
      .ok (.text "Newer") := by
  refine ⟨Tags.tag_fieldsApart, Tags.tag_builtIn, Tags.tag_holdsIfEager, ?_, rfl⟩
  have hops : ∀ op ∈ Tags.operations, op.SparesBaseline Tags.type := by
    have hname : Sidecar.generatedName ≠ Sidecar.baselineName := by decide
    simp [Tags.operations, SparesBaseline, Tags.type, hname]
  exact baselineValue_runAll Tags.placed Tags.tag_fieldsApart Tags.tag_builtIn hops
    (fun _ _ => Tags.tag_holdsIfEager) Tags.session Tags.label

end EntryOperation

end EntityMapper
