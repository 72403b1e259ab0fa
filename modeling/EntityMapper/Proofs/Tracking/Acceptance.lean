import EntityMapper.Proofs.Tracking.Lifecycle
import EntityMapper.Proofs.Tracking.Sidecars

/-!
# Committing and accepting

After all commands of a save succeeded, the values of its sidecars are copied into the primary
values of their entries, and the changes of each entry are accepted.

* `Action.perform_commit` takes a commit apart: it detaches the sidecars that are committed, and
  then writes their values (`Entry.pending`) one after the other. Where that goes through, the
  written values are the primary values, and the others stay (`Action.primaryValue_of_commitPairs`);
  where it fails, a value cannot be written (`Action.perform_commit_eq_error_iff`).
* `Entry.Accepted` says what a new or modified entry is once its changes are accepted, and
  `Action.accept_spec` that accepting does it. `Action.accept_deleted` is the other case.
-/

namespace EntityMapper

open Stepwise

/-! ## Committing -/

namespace Entry

/-- The values that a commit writes, in order. -/
def pending (e : Entry) : List (Property × Value) :=
  (e.sidecars.filter (·.autoCommit)).flatMap (·.stored)

/-- The entry without its primary values and its relationship snapshot. -/
def frame (e : Entry) : Entry :=
  { e with native := none, shadow := [], snapshot := [] }

variable {e e' : Entry} {p : Property} {v : Value}

theorem putPrimary_frame (h : e.putPrimary p v = .ok e') : e'.frame = e.frame := by
  rcases putPrimary_eq_ok_iff.1 h with ⟨-, rfl⟩ | ⟨_, _, _, -, -, -, rfl⟩ <;> rfl

theorem accessor?_of_make (h : e'.make = e.make) (p : Property) :
    e'.accessor? p = e.accessor? p := by
  have hacc : e'.accessors = e.accessors := congrArg Make.accessors h
  rw [accessor?, accessor?, hacc]

theorem FieldsApart.of_make (apart : e.FieldsApart) (h : e'.make = e.make) : e'.FieldsApart := by
  have htype : e'.type = e.type := congrArg Make.type h
  intro p hp q hq hne a b ha hb
  exact apart p (htype ▸ hp) q (htype ▸ hq) hne a b (accessor?_of_make h p ▸ ha)
    (accessor?_of_make h q ▸ hb)

theorem OwnFields.of_make (own : e.OwnFields) (h : e'.make = e.make) : e'.OwnFields := by
  have htype : e'.type = e.type := congrArg Make.type h
  refine ⟨fun p hp a ha => ?_, own.apart.of_make h⟩
  exact own.served p (htype ▸ hp) a (accessor?_of_make h p ▸ ha)

end Entry

namespace Action

variable {e : Entry} {s s' : Scope}

/-- A commit of one value. -/
def commitPair (pair : Property × Value) : Action Unit :=
  commitValue pair.1 pair.2

/-- A commit writes the values of the sidecars that it has detached. -/
theorem perform_commit (s : Scope) : Stepwise.perform commit s =
    Stepwise.perform (s.entry.pending.forM commitPair) { s with entry := s.entry.rollBack } :=
  perform_forM_flatMap (s.entry.sidecars.filter fun t : Sidecar => t.autoCommit) Sidecar.stored
    commitPair { s with entry := s.entry.rollBack }

theorem commitPair_fixes_frame (pair : Property × Value) :
    Fixes Entry.frame (commitPair pair) := by
  refine (fixes_update fun _ _ => Entry.putPrimary_frame).bind fun _ =>
    fixes_modifyEntry fun e => ?_
  split <;> rfl

theorem commitPairs_fixes_frame (pairs : List (Property × Value)) :
    Fixes Entry.frame (pairs.forM commitPair) :=
  Fixes.forM fun pair _ => commitPair_fixes_frame pair

/-- What a commit does, also where it fails: nothing but detaching sidecars and writing values. -/
theorem frame_commit (s : Scope) :
    (Stepwise.perform commit s).2.entry.frame = s.entry.rollBack.frame := by
  rw [perform_commit]
  exact commitPairs_fixes_frame _ _

theorem state_commit (s : Scope) : (Stepwise.perform commit s).2.entry.state = s.entry.state := by
  have hframe := congrArg Entry.state (frame_commit s)
  exact hframe

theorem modified_commit (s : Scope) :
    (Stepwise.perform commit s).2.entry.modified = s.entry.modified := by
  have hframe := congrArg Entry.modified (frame_commit s)
  exact hframe

theorem commitPair_fixes_make (pair : Property × Value) : Fixes Entry.make (commitPair pair) :=
  commitValue_fixes_make pair.1 pair.2

/-- A commit of one value that goes through has written it. -/
theorem putPrimary_of_commitPair {pair : Property × Value}
    (h : Stepwise.perform (commitPair pair) s = (.ok (), s')) :
    ∃ e, s.entry.putPrimary pair.1 pair.2 = .ok e ∧
      ∀ q, s'.entry.primaryValue q = e.primaryValue q := by
  obtain ⟨⟨⟩, s₁, h₁, h₂⟩ := perform_bind_eq_ok_iff.1 h
  rw [perform_update] at h₁
  cases hput : s.entry.putPrimary pair.1 pair.2 with
  | error err =>
    rw [hput] at h₁
    cases h₁
  | ok e =>
    rw [hput] at h₁
    cases h₁
    rw [perform_modifyEntry] at h₂
    cases h₂
    refine ⟨e, rfl, fun q => ?_⟩
    dsimp only
    split <;> rfl

/-- A commit of one value fails where it cannot be written, and changes nothing then. -/
theorem perform_commitPair_eq_error_iff {pair : Property × Value} {err : Error} :
    Stepwise.perform (commitPair pair) s = (.error err, s') ↔
      s' = s ∧ s.entry.putPrimary pair.1 pair.2 = .error err := by
  cases hput : s.entry.putPrimary pair.1 pair.2 with
  | error err' =>
    have hstep : Stepwise.perform (update (·.putPrimary pair.1 pair.2)) s = (.error err', s) := by
      rw [perform_update, hput]
    rw [commitPair, commitValue, perform_bind_of_error hstep]
    simp [and_comm, eq_comm]
  | ok e =>
    have hstep : Stepwise.perform (update (·.putPrimary pair.1 pair.2)) s =
        (.ok (), { s with entry := e }) := by
      rw [perform_update, hput]
    rw [commitPair, commitValue, perform_bind_of_ok hstep, perform_modifyEntry]
    simp

/-- A commit fails at the first value that cannot be written, and leaves what it wrote before. -/
theorem perform_commit_eq_error_iff {err : Error} :
    Stepwise.perform commit s = (.error err, s') ↔
      ∃ written pair rest, s.entry.pending = written ++ pair :: rest ∧
        Stepwise.perform (written.forM commitPair) { s with entry := s.entry.rollBack } =
          (.ok (), s') ∧ s'.entry.putPrimary pair.1 pair.2 = .error err := by
  rw [perform_commit]
  constructor
  · intro h
    obtain ⟨written, pair, rest, s₁, hpending, hwritten, hfails⟩ := perform_forM_eq_error h
    obtain ⟨rfl, hput⟩ := perform_commitPair_eq_error_iff.1 hfails
    exact ⟨written, pair, rest, hpending, hwritten, hput⟩
  · rintro ⟨written, pair, rest, hpending, hwritten, hput⟩
    rw [hpending]
    exact perform_forM_of_error hwritten (perform_commitPair_eq_error_iff.2 ⟨rfl, hput⟩)

/-- Where a commit goes through, each written value is the primary value, and the others stay. -/
theorem primaryValue_of_commitPairs {pairs : List (Property × Value)} (own : s.entry.OwnFields)
    (hv : s.entry.Valid)
    (hpairs : ∀ pair ∈ pairs, pair.1 ∈ s.entry.type.properties ∧ pair.1.Takes pair.2)
    (hdistinct : (pairs.map (·.1.index)).Nodup)
    (h : Stepwise.perform (pairs.forM commitPair) s = (.ok (), s')) :
    (∀ pair ∈ pairs, s'.entry.primaryValue pair.1 = .ok pair.2) ∧
    ∀ q ∈ s.entry.type.properties, q.index ∉ pairs.map (·.1.index) →
      s'.entry.primaryValue q = s.entry.primaryValue q := by
  induction pairs generalizing s with
  | nil =>
    cases h
    exact ⟨fun pair hp => (by cases hp), fun _ _ _ => rfl⟩
  | cons pair pairs ih =>
    rw [perform_forM_cons] at h
    obtain ⟨⟨⟩, s₁, h₁, h₂⟩ := perform_bind_eq_ok_iff.1 h
    obtain ⟨hmem, htakes⟩ := hpairs pair List.mem_cons_self
    obtain ⟨hnot, hrest⟩ := List.nodup_cons.1 hdistinct
    have hmake : s₁.entry.make = s.entry.make := by
      have hfixes := commitPair_fixes_make pair s
      rwa [h₁] at hfixes
    have htype : s₁.entry.type = s.entry.type := congrArg Make.type hmake
    obtain ⟨e, hput, hprimary⟩ := putPrimary_of_commitPair h₁
    have hlt : pair.1.index < s.entry.shadow.length := hv.shadow ▸ hv.placed.index_lt hmem
    obtain ⟨hwritten, hkept⟩ := ih (own.of_make hmake) (hv.of_make hmake)
      (fun pair hp => htype ▸ hpairs pair (List.mem_cons_of_mem _ hp)) hrest h₂
    constructor
    · intro other hother
      rcases List.mem_cons.1 hother with rfl | hother
      · rw [hkept other.1 (htype ▸ hmem) hnot, hprimary]
        exact Entry.primaryValue_of_putPrimary own hmem hlt htakes hput
      · exact hwritten other hother
    · intro q hq hne
      rw [List.map_cons, List.mem_cons, not_or] at hne
      rw [hkept q (htype ▸ hq) hne.2, hprimary]
      exact Entry.primaryValue_of_putPrimary_other own.apart hmem hq (Ne.symm hne.1) hput

end Action

/-! ## Taking over current values -/

namespace EntityType

variable {t : EntityType} {p q : Property}

theorem contains_congr {k : Key} (h : q.same p = true) : k.contains q = k.contains p := by
  obtain ⟨howner, hindex⟩ := Property.same_iff.1 h
  simp [Key.contains, Property.same, howner, hindex]

/-- Whether a property is in a relationship is a matter of its place. -/
theorem inRelationship_congr (h : q.same p = true) : t.inRelationship q = t.inRelationship p := by
  simp only [inRelationship, inKey, contains_congr h]

end EntityType

/-- The sidecar for baseline values, with some values. -/
def Sidecar.baselineWith (covered : List Property) (values : List (Nat × Value)) : Sidecar :=
  { Sidecar.baseline covered with values }

namespace Sidecar

variable {covered : List Property} {values : List (Nat × Value)} {p : Property} {v : Value}

theorem covers_baselineWith (hp : p ∈ covered) : (baselineWith covered values).covers p = true :=
  List.any_eq_true.2 ⟨p, hp, Property.same_self p⟩

/-- A sidecar takes values of the properties that it covers. -/
theorem set_eq_ok_iff {s s' : Sidecar} : s.set p v = .ok s' ↔
    s.covers p = true ∧ s' = { s with values := put p.index v s.values } := by
  unfold set
  split
  · rename_i hcovers
    rw [and_iff_right hcovers, Except.ok.injEq, eq_comm]
  · rename_i hcovers
    exact ⟨nofun, fun h => absurd h.1 hcovers⟩

theorem set_baselineWith (hp : p ∈ covered) :
    (baselineWith covered values).set p v =
      .ok (baselineWith covered (put p.index v values)) := by
  rw [set, if_pos (covers_baselineWith hp)]
  rfl

end Sidecar

/-- The sidecar for baseline values covers what the entity type owns. -/
theorem EntityType.Placed.covers_baselineWith {t : EntityType} (placed : t.Placed) (p : Property)
    (values : List (Nat × Value)) :
    (Sidecar.baselineWith t.properties values).covers p = t.owns p := by
  refine Bool.eq_iff_iff.2 ⟨fun h => ?_, fun h => ?_⟩
  · obtain ⟨q, hq, hsame⟩ := List.any_eq_true.1 h
    exact EntityType.owns_congr hsame ▸ placed.owns_of_mem hq
  · obtain ⟨q, hq, -, hsame⟩ := placed.exists_of_owns h
    exact List.any_eq_true.2 ⟨q, hq, hsame⟩

theorem EntityType.Placed.get?_baselineWith {t : EntityType} (placed : t.Placed) (p : Property)
    (values : List (Nat × Value)) :
    (Sidecar.baselineWith t.properties values).get? p =
      if t.owns p then values.lookup p.index else none := by
  rw [Sidecar.get?, placed.covers_baselineWith]
  rfl

namespace Entry

variable {e : Entry} {properties : List Property} {vs : List Value} {p q : Property} {v : Value}

theorem primaryValue_congr (h : p.index = q.index) : e.primaryValue p = e.primaryValue q := by
  rw [primaryValue, primaryValue, h]

/-- The primary values of some properties, by position. -/
theorem primaryValue_of_mem_zip (h : properties.mapM e.primaryValue = .ok vs) {i : Nat}
    (hmem : (i, v) ∈ (properties.map (·.index)).zip vs) :
    ∃ q, q.index = i ∧ e.primaryValue q = .ok v := by
  induction Result.mapM_eq_ok_iff.1 h with
  | nil => cases hmem
  | cons hq hs ih =>
    rcases List.mem_cons.1 hmem with heq | hmem
    · cases heq
      exact ⟨_, rfl, hq⟩
    · exact ih (Result.mapM_eq_ok_iff.2 hs) hmem

theorem exists_mem_zip (h : properties.mapM e.primaryValue = .ok vs) (hp : p ∈ properties) :
    ∃ v, e.primaryValue p = .ok v ∧ (p.index, v) ∈ (properties.map (·.index)).zip vs := by
  induction Result.mapM_eq_ok_iff.1 h with
  | nil => cases hp
  | cons hq hs ih =>
    rcases List.mem_cons.1 hp with rfl | hp
    · exact ⟨_, hq, List.mem_cons_self⟩
    · obtain ⟨v, hv, hmem⟩ := ih (Result.mapM_eq_ok_iff.2 hs) hp
      exact ⟨v, hv, List.mem_cons_of_mem _ hmem⟩

/-- Once the primary values of some properties are put in, each is found at its position. -/
theorem lookup_putAll_primaryValue (h : properties.mapM e.primaryValue = .ok vs)
    (hp : p ∈ properties) (values : List (Nat × Value)) :
    ∃ v, e.primaryValue p = .ok v ∧
      (Sidecar.putAll values ((properties.map (·.index)).zip vs)).lookup p.index = some v := by
  obtain ⟨v, hv, hmem⟩ := exists_mem_zip h hp
  refine ⟨v, hv, Sidecar.lookup_putAll_of_mem (fun entry hentry hi => ?_) hmem⟩
  obtain ⟨q, hq, hw⟩ := primaryValue_of_mem_zip h hentry
  rw [primaryValue_congr (hq.trans hi), hv] at hw
  exact (Except.ok.inj hw).symm

theorem foldlM_capture {covered : List Property} (hsub : ∀ p ∈ properties, p ∈ covered)
    (h : properties.mapM e.primaryValue = .ok vs) (values : List (Nat × Value)) :
    properties.foldlM (fun s p => do Sidecar.set s p (← e.primaryValue p))
        (Sidecar.baselineWith covered values) =
      .ok (Sidecar.baselineWith covered
        (Sidecar.putAll values ((properties.map (·.index)).zip vs))) := by
  induction Result.mapM_eq_ok_iff.1 h generalizing values with
  | nil => rfl
  | @cons p v properties vs hv hs ih =>
    have hset : (Sidecar.baselineWith covered values).set p v =
        .ok (Sidecar.baselineWith covered (Sidecar.put p.index v values)) :=
      Sidecar.set_baselineWith (hsub p List.mem_cons_self)
    refine Result.foldlM_cons_eq_ok_iff.2 ⟨_, Result.bind_eq_ok_iff.2 ⟨v, hv, hset⟩, ?_⟩
    exact ih (fun p hp => hsub p (List.mem_cons_of_mem _ hp)) (Result.mapM_eq_ok_iff.2 hs) _

/-- The entry with the current values as its baseline: none is captured, or all are. -/
def rebased (e : Entry) (vs : List Value) : Entry :=
  if e.type.capturesLazily then e.clearBaseline
  else e.clearBaseline.attach (Sidecar.baselineWith e.type.properties
    (Sidecar.putAll [] ((e.type.properties.map (·.index)).zip vs)))

/-- The entry with its changes accepted, given the values of all properties and of those in
relationships. -/
def accepted (e : Entry) (vs rs : List Value) : Entry :=
  { (e.rebased vs).clearFlags with
    snapshot := Sidecar.putAll e.snapshot
      (((e.type.properties.filter e.type.inRelationship).map (·.index)).zip rs)
    state := .unchanged }

theorem clearBaseline_eq (e : Entry) :
    ∃ sidecars, e.clearBaseline = { e with sidecars } := by
  unfold clearBaseline
  split
  · exact ⟨_, rfl⟩
  · exact ⟨e.sidecars, rfl⟩

theorem rebased_eq (e : Entry) (vs : List Value) :
    ∃ sidecars, e.rebased vs = { e with sidecars } := by
  obtain ⟨sidecars, h⟩ := e.clearBaseline_eq
  rw [rebased, h]
  split
  · exact ⟨_, rfl⟩
  · exact ⟨_, rfl⟩

theorem captureAllIfEager_clearBaseline (h : e.type.properties.mapM e.primaryValue = .ok vs) :
    e.clearBaseline.captureAllIfEager = .ok (e.rebased vs) := by
  obtain ⟨sidecars, hcleared⟩ := e.clearBaseline_eq
  have htype : e.clearBaseline.type = e.type := by rw [hcleared]
  have hprimary : e.clearBaseline.primaryValue = e.primaryValue := by rw [hcleared]; rfl
  rw [captureAllIfEager, rebased, htype]
  split
  · rfl
  · have hcapture := foldlM_capture (fun p hp => hp) (hprimary ▸ h) []
    refine Result.bind_eq_ok_iff.2 ⟨_, hcapture, rfl⟩

end Entry

namespace Action

variable {e : Entry} {vs rs : List Value} {session : Session}

theorem perform_recordSnapshots {properties : List Property}
    (h : properties.mapM e.primaryValue = .ok rs) (session : Session) :
    Stepwise.perform (properties.forM fun p => do
        let current ← read (·.primaryValue p)
        modifyEntry (·.recordSnapshot p current)) ⟨e, session⟩ =
      (.ok (), ⟨{ e with
        snapshot := Sidecar.putAll e.snapshot ((properties.map (·.index)).zip rs) }, session⟩) := by
  induction properties generalizing e rs with
  | nil =>
    cases h
    rfl
  | cons p properties ih =>
    rw [List.mapM_cons] at h
    obtain ⟨v, hv, h⟩ := Result.bind_eq_ok_iff.1 h
    obtain ⟨rs', hrs, h⟩ := Result.bind_eq_ok_iff.1 h
    cases h
    have hstep : Stepwise.perform (do
        let current ← read (·.primaryValue p)
        modifyEntry (·.recordSnapshot p current)) ⟨e, session⟩ =
          (.ok (), ⟨e.recordSnapshot p v, session⟩) := by
      rw [perform_bind, perform_read, hv]
      rfl
    rw [perform_forM_cons, perform_bind_of_ok hstep]
    exact ih (e := e.recordSnapshot p v) hrs

theorem perform_setState_unchanged (h : e.state = .added ∨ e.state = .modified)
    (session : Session) :
    Stepwise.perform (setState .unchanged) ⟨e, session⟩ =
      (.ok (), ⟨{ e.clearFlags with state := .unchanged },
        { session with tracker := session.tracker.update e.id .unchanged }⟩) := by
  obtain ⟨id, type, native, shadow, accessors, state, modified, sidecars, snapshot⟩ := e
  rcases h with rfl | rfl <;> rfl

/-- Making the current values the baseline of an entry whose values can be read. -/
theorem perform_rebase (hvs : e.type.properties.mapM e.primaryValue = .ok vs)
    (hrs : (e.type.properties.filter e.type.inRelationship).mapM e.primaryValue = .ok rs)
    (session : Session) :
    Stepwise.perform rebase ⟨e, session⟩ = (.ok (), ⟨{ e.rebased vs with
      snapshot := Sidecar.putAll e.snapshot
        (((e.type.properties.filter e.type.inRelationship).map (·.index)).zip rs) }, session⟩) := by
  obtain ⟨sidecars, hrebased⟩ := e.rebased_eq vs
  have htype : (e.rebased vs).type = e.type := by rw [hrebased]
  have hsnapshot : (e.rebased vs).snapshot = e.snapshot := by rw [hrebased]
  have hprimary : (e.rebased vs).primaryValue = e.primaryValue := by rw [hrebased]; rfl
  have hcapture : Stepwise.perform (update (·.captureAllIfEager)) ⟨e.clearBaseline, session⟩ =
      (.ok (), ⟨e.rebased vs, session⟩) := by
    rw [perform_update, Entry.captureAllIfEager_clearBaseline hvs]
  have hrecord := perform_recordSnapshots (e := e.rebased vs) (htype ▸ hprimary ▸ hrs) session
  rw [hsnapshot, htype] at hrecord
  refine (perform_bind_of_ok (perform_modifyEntry _ _) _).trans ?_
  refine (perform_bind_of_ok hcapture _).trans ?_
  refine (perform_bind_of_ok (perform_read _ _) _).trans ?_
  exact htype ▸ hrecord

/-- Accepting the changes of a new or modified entry whose values can be read. -/
theorem perform_accept (hstate : e.state = .added ∨ e.state = .modified)
    (hvs : e.type.properties.mapM e.primaryValue = .ok vs)
    (hrs : (e.type.properties.filter e.type.inRelationship).mapM e.primaryValue = .ok rs)
    (session : Session) :
    Stepwise.perform accept ⟨e, session⟩ = (.ok (), ⟨e.accepted vs rs,
      { session with tracker := session.tracker.update e.id .unchanged }⟩) := by
  have haccept : Stepwise.perform accept ⟨e, session⟩ =
      Stepwise.perform (rebase >>= fun _ => setState .unchanged) ⟨e, session⟩ := by
    rw [accept, perform_bind, perform_read]
    rcases hstate with h | h <;> simp only [h]
  obtain ⟨sidecars, hrebased⟩ := e.rebased_eq vs
  have hid : (e.rebased vs).id = e.id := by rw [hrebased]
  have hstate : (e.rebased vs).state = .added ∨ (e.rebased vs).state = .modified := by
    rw [hrebased]
    exact hstate
  rw [haccept, perform_bind_of_ok (perform_rebase hvs hrs session)]
  refine (perform_setState_unchanged ?_ session).trans ?_
  · exact hstate
  · rw [← hid]
    rfl

end Action

/-! ## What accepting does -/

namespace Entry

variable {e : Entry} {vs rs : List Value} {p : Property}

theorem baselineValue_of_owns (h : e.type.owns p = true) :
    e.baselineValue p = match e.captured? p with
      | some v => .ok v
      | none => e.primaryValue p := by
  have howned : e.requireOwned p = .ok () := if_pos h
  rw [baselineValue, howned]
  rfl

theorem snapshotValue_of_owns (h : e.type.owns p = true) :
    e.snapshotValue p = match e.snapshot.lookup p.index with
      | some v => .ok v
      | none => e.primaryValue p := by
  have howned : e.requireOwned p = .ok () := if_pos h
  rw [snapshotValue, howned]
  rfl

theorem captured?_attach {t : Sidecar} (h : t.name = Sidecar.baselineName) :
    (e.attach t).captured? p = t.get? p := by
  have hsidecar : (e.attach t).sidecar? Sidecar.baselineName = some t := h ▸ sidecar?_attach
  rw [captured?, hsidecar]
  rfl

theorem captured?_clearBaseline : e.clearBaseline.captured? p = none := by
  unfold clearBaseline
  split
  · rename_i b h
    have hname : b.name = Sidecar.baselineName := by simpa using List.find?_some h
    have hclear : b.clear.name = Sidecar.baselineName := hname
    rw [captured?_attach hclear, Sidecar.get?]
    split <;> rfl
  · rename_i h
    rw [captured?, h]
    rfl

/-- After rebasing, the baseline value of a property is its current one. -/
theorem baselineValue_rebased (placed : e.type.Placed)
    (hvs : e.type.properties.mapM e.primaryValue = .ok vs) (howns : e.type.owns p = true) :
    (e.rebased vs).baselineValue p = e.primaryValue p := by
  obtain ⟨sidecars, hrebased⟩ := e.rebased_eq vs
  have htype : (e.rebased vs).type = e.type := by rw [hrebased]
  have hprimary : (e.rebased vs).primaryValue p = e.primaryValue p := by rw [hrebased]; rfl
  rw [baselineValue_of_owns (htype ▸ howns), hprimary]
  by_cases hlazy : e.type.capturesLazily = true
  · rw [rebased, if_pos hlazy, captured?_clearBaseline]
  · obtain ⟨q, hq, hindex, -⟩ := placed.exists_of_owns howns
    obtain ⟨v, hv, hlookup⟩ := lookup_putAll_primaryValue hvs hq []
    rw [rebased, if_neg hlazy, captured?_attach rfl, placed.get?_baselineWith, if_pos howns,
      ← hindex, ← primaryValue_congr hindex, hv, hlookup]

theorem mem_sidecars_clearBaseline {t : Sidecar} (h : t ∈ e.clearBaseline.sidecars) :
    t ∈ e.sidecars ∨ ∃ b ∈ e.sidecars, t = b.clear := by
  unfold clearBaseline at h
  split at h
  · rename_i b hb
    rcases mem_attachTo h with rfl | h
    · exact .inr ⟨b, List.mem_of_find?_eq_some hb, rfl⟩
    · exact .inl h
  · exact .inl h

/-- A new or modified entry and what it is once its changes are accepted. -/
structure Accepted (e e' : Entry) : Prop where
  make : e'.make = e.make
  state : e'.state = .unchanged
  modified : ∀ flag ∈ e'.modified, flag = false
  primary : ∀ p, e'.primaryValue p = e.primaryValue p
  baseline : ∀ p, e.type.owns p = true → e'.baselineValue p = e.primaryValue p
  snapshot : ∀ p, e.type.owns p = true → e.type.inRelationship p = true →
    e'.snapshotValue p = e.primaryValue p
  sidecars : ∀ t ∈ e'.sidecars, t ∈ e.sidecars ∨ (∃ b ∈ e.sidecars, t = b.clear) ∨
    ∃ values, t = Sidecar.baselineWith e.type.properties values

theorem accepted_spec (placed : e.type.Placed)
    (hvs : e.type.properties.mapM e.primaryValue = .ok vs)
    (hrs : (e.type.properties.filter e.type.inRelationship).mapM e.primaryValue = .ok rs) :
    e.Accepted (e.accepted vs rs) := by
  obtain ⟨sidecars, hrebased⟩ := e.rebased_eq vs
  have hprimary : ∀ p, (e.accepted vs rs).primaryValue p = e.primaryValue p := by
    intro p
    rw [accepted, hrebased]
    rfl
  constructor
  case make =>
    rw [accepted, hrebased]
    rfl
  case state => rfl
  case modified =>
    intro flag hflag
    obtain ⟨_, -, rfl⟩ := List.mem_map.1 hflag
    rfl
  case primary => exact hprimary
  case baseline => exact fun p howns => baselineValue_rebased placed hvs howns
  case snapshot =>
    intro p howns hrel
    obtain ⟨q, hq, hindex, hsame⟩ := placed.exists_of_owns howns
    have hqrel : e.type.inRelationship q = true :=
      (EntityType.inRelationship_congr hsame).trans hrel
    obtain ⟨v, hv, hlookup⟩ :=
      lookup_putAll_primaryValue hrs (List.mem_filter.2 ⟨hq, hqrel⟩) e.snapshot
    have howns : (e.accepted vs rs).type.owns p = true := by
      rw [accepted, hrebased]
      exact howns
    have hlookup : (e.accepted vs rs).snapshot.lookup p.index = some v := hindex ▸ hlookup
    rw [snapshotValue_of_owns howns, hlookup]
    exact (primaryValue_congr hindex ▸ hv).symm
  case sidecars =>
    intro t ht
    have ht : t ∈ (e.rebased vs).sidecars := ht
    unfold rebased at ht
    split at ht
    · exact (mem_sidecars_clearBaseline ht).imp_right .inl
    · rcases mem_attachTo ht with rfl | ht
      · exact .inr (.inr ⟨_, rfl⟩)
      · exact (mem_sidecars_clearBaseline ht).imp_right .inl

/-- The values of some properties of a valid entry can be read. -/
theorem Valid.mapM_primaryValue_ok (hv : e.Valid) (properties : List Property) :
    ∃ vs, properties.mapM e.primaryValue = .ok vs := by
  induction properties with
  | nil => exact ⟨[], rfl⟩
  | cons p properties ih =>
    obtain ⟨v, hv⟩ := hv.primaryValue_ok p
    obtain ⟨vs, hvs⟩ := ih
    refine ⟨v :: vs, ?_⟩
    rw [List.mapM_cons, hv, hvs]
    rfl

end Entry

namespace Action

variable {e : Entry}

/-- **Accepting changes.** The changes of a valid entry that is new or modified are accepted: its
current values are its baseline and its snapshot, and it is unchanged. -/
theorem accept_spec (hv : e.Valid) (hstate : e.state = .added ∨ e.state = .modified)
    (session : Session) :
    ∃ e', Stepwise.perform accept ⟨e, session⟩ = (.ok (), ⟨e',
        { session with tracker := session.tracker.update e.id .unchanged }⟩) ∧ e.Accepted e' := by
  obtain ⟨vs, hvs⟩ := hv.mapM_primaryValue_ok e.type.properties
  obtain ⟨rs, hrs⟩ := hv.mapM_primaryValue_ok (e.type.properties.filter e.type.inRelationship)
  exact ⟨e.accepted vs rs, perform_accept hstate hvs hrs session,
    Entry.accepted_spec hv.placed hvs hrs⟩

/-- Accepting a deleted entry only makes it unknown. -/
theorem accept_deleted (hstate : e.state = .deleted) (session : Session) :
    Stepwise.perform accept ⟨e, session⟩ = (.ok (), ⟨{ e with state := .unknown },
      { session with tracker := session.tracker.stop e.id }⟩) := by
  obtain ⟨id, type, native, shadow, accessors, state, modified, sidecars, snapshot⟩ := e
  cases hstate
  rfl

end Action

end EntityMapper
