import EntityMapper.Proofs.Tracking.Reading
import EntityMapper.Proofs.Tracking.Typed

/-!
# What commits do to readers

Readers see the value of the first sidecar that shows one (`Entry.overlay?`). A commit writes the
values of all sidecars, one after the other, so that the last one stays (`Entry.lastOverlay?`). So
where the sidecars that are committed are those that reads see through, a commit changes what readers
see exactly if the first and the last value shown for a property differ
(`Action.commit_keeps_reads_iff`).
-/

namespace EntityMapper

open Stepwise

/-! ## The last of several values -/

/-- The last value that pairs give for the place of a property. -/
def lastFor (pairs : List (Property × Value)) (q : Property) : Option Value :=
  pairs.reverse.findSome? fun pair => if pair.1.index = q.index then some pair.2 else none

section LastFor

variable {pairs rest : List (Property × Value)} {pair : Property × Value} {q : Property} {v : Value}

@[simp] theorem lastFor_nil : lastFor [] q = none := rfl

theorem lastFor_append : lastFor (pairs ++ rest) q = (lastFor rest q).or (lastFor pairs q) := by
  rw [lastFor, List.reverse_append, List.findSome?_append]
  rfl

theorem lastFor_cons : lastFor (pair :: rest) q =
    (lastFor rest q).or (if pair.1.index = q.index then some pair.2 else none) := by
  rw [← List.singleton_append, lastFor_append]
  congr 1
  rw [lastFor, List.reverse_singleton, List.findSome?_singleton]

/-- Where all pairs for a place agree, they give what one of them does. -/
theorem lastFor_eq_some (hmem : ∃ pair ∈ pairs, pair.1.index = q.index)
    (hagree : ∀ pair ∈ pairs, pair.1.index = q.index → pair.2 = v) : lastFor pairs q = some v := by
  obtain ⟨pair, hpair, hindex⟩ := hmem
  cases hlast : lastFor pairs q with
  | none =>
    have hnone := List.findSome?_eq_none_iff.1 hlast pair (List.mem_reverse.2 hpair)
    rw [if_pos hindex] at hnone
    cases hnone
  | some w =>
    -- the last value comes with one of the pairs
    obtain ⟨other, hother, hvalue⟩ := List.exists_of_findSome?_eq_some hlast
    obtain ⟨hindex, rfl⟩ : other.1.index = q.index ∧ other.2 = w := by simpa using hvalue
    rw [hagree other (List.mem_reverse.1 hother) hindex]

theorem lastFor_eq_none (h : ∀ pair ∈ pairs, pair.1.index ≠ q.index) : lastFor pairs q = none :=
  List.findSome?_eq_none_iff.2 fun pair hpair => if_neg (h pair (List.mem_reverse.1 hpair))

end LastFor

/-- What a typed sidecar stores for the place of a property is what it holds for it. -/
theorem Sidecar.Typed.lastFor_stored {t : EntityType} {s : Sidecar} {q : Property} (h : s.Typed t)
    (placed : t.Placed) (hq : q ∈ t.properties) : lastFor s.stored q = s.get? q := by
  have hstored : ∀ pair ∈ s.stored, pair.1 ∈ s.covered ∧ s.values.lookup pair.1.index = some pair.2 := by
    intro pair hpair
    obtain ⟨p, hp, hvalue⟩ := List.mem_filterMap.1 hpair
    obtain ⟨v, hv, rfl⟩ := Option.map_eq_some_iff.1 hvalue
    exact ⟨hp, hv⟩
  have hplace : ∀ pair ∈ s.stored, pair.1.index = q.index → pair.1 = q := fun pair hpair hindex =>
    placed.eq_of_index (h pair.1 (hstored pair hpair).1).1 hq hindex
  rw [get?]
  split
  · rename_i hcovers
    obtain ⟨p, hp, hsame⟩ := List.any_eq_true.1 hcovers
    obtain rfl := placed.eq_of_index (h p hp).1 hq (Property.same_iff.1 hsame).2
    cases hlookup : s.values.lookup p.index with
    | none =>
      refine lastFor_eq_none fun pair hpair hindex => ?_
      rw [← hindex, (hstored pair hpair).2] at hlookup
      cases hlookup
    | some v =>
      refine lastFor_eq_some ⟨(p, v), List.mem_filterMap.2 ⟨p, hp, by rw [hlookup]; rfl⟩, rfl⟩
        fun pair hpair hindex => ?_
      have hheld := (hstored pair hpair).2
      rw [hindex, hlookup] at hheld
      exact (Option.some.inj hheld).symm
  · rename_i hcovers
    refine lastFor_eq_none fun pair hpair hindex => hcovers ?_
    refine List.any_eq_true.2 ⟨pair.1, (hstored pair hpair).1, ?_⟩
    rw [hplace pair hpair hindex]
    exact q.same_self

/-! ## Readers before and after -/

namespace Entry

variable {e e' : Entry} {p q : Property}

/-- The value that the last sidecar with one shows for a property. -/
def lastOverlay? (e : Entry) (p : Property) : Option Value :=
  e.sidecars.reverse.findSome? (·.reads p)

/-- The same current values, up to key equality, and so the same keys. -/
structure ReadsAlike (e e' : Entry) : Prop where
  get : ∀ p, e.type.owns p = true →
    ∃ v w, e.get p = .ok v ∧ e'.get p = .ok w ∧ v.keyEqual w = true
  primaryKey : ∀ k, e.primaryKey = .ok k → ∃ k', e'.primaryKey = .ok k' ∧ k.equal k' = true
  dependentKey : ∀ fk k, e.dependentKey fk = .ok k →
    ∃ k', e'.dependentKey fk = .ok k' ∧ k.equal k' = true
  principalKey : ∀ fk k, e.principalKey fk = .ok k →
    ∃ k', e'.principalKey fk = .ok k' ∧ k.equal k' = true

/-- Keys are made of current values. -/
theorem ReadsAlike.of_get (htype : e'.type = e.type) (h : ∀ p, e.type.owns p = true →
    ∃ v w, e.get p = .ok v ∧ e'.get p = .ok w ∧ v.keyEqual w = true) : e.ReadsAlike e' := by
  have hkey : ∀ properties k, keyOf properties e.get = .ok k →
      ∃ k', keyOf properties e'.get = .ok k' ∧ k.equal k' = true := by
    intro properties k hk
    obtain ⟨vs, hvs, -⟩ := Result.bind_eq_ok_iff.1 hk
    have howns : ∀ p ∈ properties, e.type.owns p = true := by
      intro p hp
      obtain ⟨v, -, hv⟩ := Result.exists_mem_mapM hvs hp
      obtain ⟨⟨⟩, howned, -⟩ := Result.bind_eq_ok_iff.1 hv
      exact owns_of_requireOwned howned
    obtain ⟨k₁, k₂, hk₁, hk₂, hequal⟩ := exists_keys_equal fun p hp => h p (howns p hp)
    rw [hk] at hk₁
    cases hk₁
    exact ⟨k₂, hk₂, hequal⟩
  refine ⟨h, fun k hk => ?_, fun fk => hkey _, fun fk => hkey _⟩
  obtain ⟨key, hprimary, hk⟩ := Result.bind_eq_ok_iff.1 hk
  obtain ⟨k', hk', hequal⟩ := hkey _ k hk
  exact ⟨k', Result.bind_eq_ok_iff.2 ⟨key, htype ▸ hprimary, hk'⟩, hequal⟩

/-- The sidecars that are committed are those that reads see through. -/
def CommitsReads (e : Entry) : Prop :=
  ∀ s ∈ e.sidecars, s.autoCommit = s.transparentRead

/-- What a commit writes last for a property is what the last sidecar shows. -/
theorem lastFor_pending (hcommits : e.CommitsReads) (placed : e.type.Placed)
    (htyped : ∀ s ∈ e.sidecars, s.Typed e.type) (hq : q ∈ e.type.properties) :
    lastFor e.pending q = e.lastOverlay? q := by
  unfold CommitsReads at hcommits
  unfold pending lastOverlay?
  generalize e.sidecars = sidecars at hcommits htyped
  induction sidecars with
  | nil => rfl
  | cons s sidecars ih =>
    obtain ⟨hflag, hflags⟩ := List.forall_mem_cons.1 hcommits
    obtain ⟨hs, hrest⟩ := List.forall_mem_cons.1 htyped
    have hshown : lastFor (([s].filter (·.autoCommit)).flatMap (·.stored)) q = s.reads q := by
      rw [Sidecar.reads, ← hflag]
      cases hcommit : s.autoCommit with
      | true => simpa [hcommit] using hs.lastFor_stored placed hq
      | false => simp [hcommit]
    rw [← List.singleton_append, List.filter_append, List.flatMap_append, lastFor_append,
      ih hflags hrest, hshown, List.reverse_append, List.findSome?_append, List.reverse_singleton,
      List.findSome?_singleton]

/-- Nothing is shown any more once the committed sidecars are dropped. -/
theorem overlay?_of_rollBack (hcommits : e.CommitsReads) (h : e'.sidecars = e.rollBack.sidecars)
    (p : Property) : e'.overlay? p = none := by
  rw [overlay?_eq, h]
  refine List.findSome?_eq_none_iff.2 fun s hs => ?_
  obtain ⟨hs, hkept⟩ := List.mem_filter.1 hs
  have hread : s.transparentRead = false := by
    rw [← hcommits s hs]
    simpa using hkept
  rw [Sidecar.reads, hread]
  rfl

theorem lastOverlay?_eq_none_iff : e.lastOverlay? p = none ↔ e.overlay? p = none := by
  rw [lastOverlay?, overlay?_eq, List.findSome?_eq_none_iff, List.findSome?_eq_none_iff]
  simp

/-- Where readers see the last value that was shown, they see what they saw if it is the first one. -/
theorem readsAlike_iff (hv : e.Valid) (htype : e'.type = e.type)
    (hafter : ∀ p ∈ e.type.properties,
      e'.get p = (e.lastOverlay? p).elim (e.primaryValue p) .ok) :
    e.ReadsAlike e' ↔ ∀ p ∈ e.type.properties, ∀ v w,
      e.overlay? p = some v → e.lastOverlay? p = some w → v.keyEqual w = true := by
  have hbefore : ∀ p ∈ e.type.properties, e.get p =
      (e.overlay? p).elim (e.primaryValue p) .ok := fun p hp =>
    get_of_owns (hv.placed.owns_of_mem hp)
  constructor
  · intro halike p hp v w hfirst hlast
    obtain ⟨v', w', hv', hw', hequal⟩ := halike.get p (hv.placed.owns_of_mem hp)
    rw [hbefore p hp, hfirst] at hv'
    rw [hafter p hp, hlast] at hw'
    cases hv'
    cases hw'
    exact hequal
  · intro hagree
    refine .of_get htype fun p howns => ?_
    obtain ⟨q, hq, -, hsame⟩ := hv.placed.exists_of_owns howns
    rw [← get_congr hsame howns, ← get_congr hsame (htype ▸ howns), hbefore q hq, hafter q hq]
    cases hfirst : e.overlay? q with
    | none =>
      rw [lastOverlay?_eq_none_iff.2 hfirst]
      obtain ⟨v, hvalue⟩ := hv.primaryValue_ok q
      exact ⟨v, v, hvalue, hvalue, v.keyEqual_self⟩
    | some v =>
      cases hlast : e.lastOverlay? q with
      | none =>
        rw [lastOverlay?_eq_none_iff.1 hlast] at hfirst
        cases hfirst
      | some w => exact ⟨v, w, rfl, rfl, hagree q hq v w hfirst hlast⟩

end Entry

/-! ## Committing -/

namespace Action

variable {s s' : Scope} {q : Property}

/-- A run of writes goes through on a typed entry, and leaves for each property the last value that was
written to it. -/
theorem perform_commitPairs {pairs : List (Property × Value)} (hdeclared : s.entry.Declared)
    (hpairs : ∀ pair ∈ pairs, pair.1 ∈ s.entry.type.properties ∧ pair.1.Takes pair.2) :
    ∃ s', Stepwise.perform (pairs.forM commitPair) s = (.ok (), s') ∧
      ∀ q ∈ s.entry.type.properties, s'.entry.primaryValue q =
        (lastFor pairs q).elim (s.entry.primaryValue q) .ok := by
  induction pairs generalizing s with
  | nil => exact ⟨s, rfl, fun _ _ => rfl⟩
  | cons pair pairs ih =>
    obtain ⟨⟨hmem, htakes⟩, hrest⟩ := List.forall_mem_cons.1 hpairs
    obtain ⟨e, hput⟩ := hdeclared.exists_putPrimary hmem htakes
    obtain ⟨⟨r, s₁⟩, hstep⟩ : ∃ rs, Stepwise.perform (commitPair pair) s = rs := ⟨_, rfl⟩
    cases r with
    | error err =>
      rw [(perform_commitPair_eq_error_iff.1 hstep).2] at hput
      cases hput
    | ok _ =>
      obtain ⟨e', hput', hprimary⟩ := putPrimary_of_commitPair hstep
      obtain rfl := Except.ok.inj (hput.symm.trans hput')
      have hmake : s₁.entry.make = s.entry.make := by
        have hfixes := commitPair_fixes_make pair s
        rwa [hstep] at hfixes
      have htype : s₁.entry.type = s.entry.type := congrArg Make.type hmake
      obtain ⟨s', hrun, hlast⟩ := ih (hdeclared.of_make hmake) (by rwa [htype])
      refine ⟨s', by rw [perform_forM_cons, perform_bind_of_ok hstep, hrun], fun q hq => ?_⟩
      rw [hlast q (htype ▸ hq), hprimary, lastFor_cons]
      cases lastFor pairs q with
      | some v => rfl
      | none =>
        by_cases hindex : pair.1.index = q.index
        · obtain rfl := hdeclared.valid.placed.eq_of_index hmem hq hindex
          rw [if_pos rfl]
          exact hdeclared.primaryValue_of_putPrimary hmem htakes hput
        · rw [if_neg hindex]
          exact hdeclared.primaryValue_of_putPrimary_other hmem hq hindex hput

/-- A commit goes through, and readers then see the last value that was shown for each property. -/
theorem exists_commit (hdeclared : s.entry.Declared)
    (htyped : ∀ t ∈ s.entry.sidecars, t.Typed s.entry.type) (hcommits : s.entry.CommitsReads) :
    ∃ s', Stepwise.perform commit s = (.ok (), s') ∧ s'.entry.type = s.entry.type ∧
      ∀ p ∈ s.entry.type.properties, s'.entry.get p =
        (s.entry.lastOverlay? p).elim (s.entry.primaryValue p) .ok := by
  have placed := hdeclared.valid.placed
  have hpending : ∀ pair ∈ s.entry.pending,
      pair.1 ∈ s.entry.type.properties ∧ pair.1.Takes pair.2 := fun pair hpair => by
    obtain ⟨t, ht, hstored⟩ := List.mem_flatMap.1 hpair
    exact (htyped t (List.mem_filter.1 ht).1).of_mem_stored hstored
  obtain ⟨s', hrun, hlast⟩ := perform_commitPairs (s := { s with entry := s.entry.rollBack })
    (hdeclared.of_make rfl) hpending
  rw [← perform_commit] at hrun
  have hframe : s'.entry.frame = s.entry.rollBack.frame := by
    have hcommitted := frame_commit s
    rwa [hrun] at hcommitted
  have htype : s'.entry.type = s.entry.type := by
    have hframed := congrArg Entry.type hframe
    exact hframed
  have hsidecars : s'.entry.sidecars = s.entry.rollBack.sidecars := by
    have hframed := congrArg Entry.sidecars hframe
    exact hframed
  refine ⟨s', hrun, htype, fun p hp => ?_⟩
  rw [Entry.get_of_overlay?_eq_none (htype ▸ placed.owns_of_mem hp)
    (Entry.overlay?_of_rollBack hcommits hsidecars p), hlast p hp,
    Entry.lastFor_pending hcommits placed htyped hp]
  rfl

/-- **A commit keeps what readers see**, up to key equality, exactly if the first and the last sidecar
that show a value of a property show the same one. -/
theorem commit_keeps_reads_iff (hdeclared : s.entry.Declared)
    (htyped : ∀ t ∈ s.entry.sidecars, t.Typed s.entry.type) (hcommits : s.entry.CommitsReads) :
    ∃ s', Stepwise.perform commit s = (.ok (), s') ∧
      (s.entry.ReadsAlike s'.entry ↔ ∀ p ∈ s.entry.type.properties, ∀ v w,
        s.entry.overlay? p = some v → s.entry.lastOverlay? p = some w → v.keyEqual w = true) := by
  obtain ⟨s', hrun, htype, hafter⟩ := exists_commit hdeclared htyped hcommits
  exact ⟨s', hrun, Entry.readsAlike_iff hdeclared.valid htype hafter⟩

end Action

/-! ## An example -/

namespace Badges

/-- What is on a badge. -/
def label : Property where
  name := "Label"
  owner := ⟨0⟩
  ownerName := "Badge"
  index := 0
  valueType := .text
  nullable := true
  shadow := true
  concurrencyToken := false
  clientGenerated := false
  storeGeneration := .never
  column := none
  tableKey := none

/-- Badges, without a native type. -/
def type : EntityType where
  id := ⟨0⟩
  name := "Badge"
  properties := [label]

/-- A sidecar that reads see through, and that is committed. -/
def overlay (name text : String) : Sidecar where
  name
  covered := [label]
  values := [(0, .text text)]
  transparentRead := true
  autoCommit := true

/-- A badge with two such sidecars. -/
def badge (first second : String) : Entry :=
  { Entry.fresh ⟨1⟩ type none [none] with sidecars := [overlay "A" first, overlay "B" second] }

/-- A session with badges. -/
def session : Session where
  model := ⟨[type]⟩
  registry := .empty
  generators := .ofOverrides [] fun _ _ => 0
  made := 1

variable (first second : String)

theorem placed : type.Placed where
  index := by
    intro i p h
    match i with
    | 0 =>
      cases h
      rfl
    | _ + 1 => cases h
  owner := by decide

theorem accessors_eq : (badge first second).accessors = [none] := rfl

/-- Badges have no native fields. -/
theorem accessor?_eq_none (p : Property) : (badge first second).accessor? p = none := by
  rw [Entry.accessor?, accessors_eq]
  cases p.index <;> rfl

theorem declared : (badge first second).Declared where
  valid := ⟨placed, rfl, fun a ha => by
    rw [accessors_eq, List.mem_singleton] at ha
    cases ha⟩
  native p hp := by
    rw [accessor?_eq_none, List.mem_singleton.1 hp]
    rfl
  served p _ a ha := by
    rw [accessor?_eq_none] at ha
    cases ha
  apart p _ q _ _ a b ha := by
    rw [accessor?_eq_none] at ha
    cases ha
  foreignKeys _ hfk := absurd hfk List.not_mem_nil

theorem typed : ∀ t ∈ (badge first second).sidecars, t.Typed type := by
  have hoverlay : ∀ name text, (overlay name text).Typed type := by
    intro name text p hp
    obtain rfl := List.mem_singleton.1 hp
    refine ⟨List.mem_singleton_self _, fun v hv => ?_⟩
    cases hv
    exact Property.takes_of_coerce (rfl : label.coerce (.text text) = .ok (.text text))
  intro t ht
  rcases List.mem_pair.1 ht with rfl | rfl <;> exact hoverlay _ _

theorem commitsReads : (badge first second).CommitsReads := by
  intro t ht
  rcases List.mem_pair.1 ht with rfl | rfl <;> rfl

end Badges

namespace Action

theorem commit_keeps_reads_iff_badges :
    (∃ s', Stepwise.perform commit ⟨Badges.badge "x" "y", Badges.session⟩ = (.ok (), s') ∧
      ¬ (Badges.badge "x" "y").ReadsAlike s'.entry) ∧
    ∃ s', Stepwise.perform commit ⟨Badges.badge "x" "x", Badges.session⟩ = (.ok (), s') ∧
      (Badges.badge "x" "x").ReadsAlike s'.entry := by
  constructor
  · obtain ⟨s', hrun, hiff⟩ := commit_keeps_reads_iff (s := ⟨Badges.badge "x" "y", Badges.session⟩)
      (Badges.declared _ _) (Badges.typed _ _) (Badges.commitsReads _ _)
    refine ⟨s', hrun, fun halike => ?_⟩
    have hequal := hiff.1 halike Badges.label (List.mem_singleton_self _) (.text "x") (.text "y") rfl rfl
    exact absurd hequal (by decide)
  · obtain ⟨s', hrun, hiff⟩ := commit_keeps_reads_iff (s := ⟨Badges.badge "x" "x", Badges.session⟩)
      (Badges.declared _ _) (Badges.typed _ _) (Badges.commitsReads _ _)
    refine ⟨s', hrun, hiff.2 fun p hp v w hv hw => ?_⟩
    rw [List.mem_singleton.1 hp] at hv hw
    cases hv
    cases hw
    rfl

end Action

end EntityMapper
