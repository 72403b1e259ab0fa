import EntityMapper.Proofs.Query.Meaning
import EntityMapper.Proofs.Tracking.Baseline
import EntityMapper.Proofs.Tracking.Capture

/-!
# Writing to unchanged entries

An entry that is unchanged and has the values of a row as its current and baseline values is written
to, any number of times. `Entry.Edited` is what then always holds: the baseline values are still
those of the row, and so are the values of properties without a flag. The first write of a property
captures its baseline value before the value is lost (`Entry.captures_of_captureBaseline`), and what
one write does, `Entry.Touched` says (`Action.set_touches`).
-/

namespace EntityMapper

open Stepwise

namespace Entry

variable {e e' : Entry} {p : Property}

/-! ## One write -/

/-- What writing a property comes to: the baseline stays, and either nothing else has changed, or
the property is flagged and the others have their values. -/
structure Touched (e : Entry) (p : Property) (e' : Entry) : Prop where
  make : e'.make = e.make
  sidecars : e'.OnlyBaseline
  baseline : ∀ q ∈ e.type.properties, e'.baselineValue q = e.baselineValue q
  change :
    (e'.state = e.state ∧ e'.modified = e.modified ∧ ∀ q, e'.primaryValue q = e.primaryValue q) ∨
    (e'.state = .modified ∧ e'.modified = e.modified.set p.index true ∧
      ∀ q ∈ e.type.properties, q.index ≠ p.index → e'.primaryValue q = e.primaryValue q)

theorem OnlyBaseline.builtIn (h : e.OnlyBaseline) : e.BuiltIn :=
  fun t ht _ => h t ht

theorem OnlyBaseline.of_captures (h : e.OnlyBaseline) (hc : e.Captures e') : e'.OnlyBaseline := by
  intro t ht
  rw [hc.type]
  exact (hc.members t ht).elim (h t) fun hmade => hmade

theorem OnlyBaseline.touched_refl (h : e.OnlyBaseline) (p : Property) : e.Touched p e :=
  ⟨rfl, h, fun _ _ => rfl, .inl ⟨rfl, rfl, fun _ => rfl⟩⟩

end Entry

namespace Action

variable {e : Entry} {p : Property} {v : Value}

/-- Flagging a property of an unchanged or modified entry. -/
theorem perform_setModified_true (howns : e.type.owns p = true)
    (hstate : e.state = .unchanged ∨ e.state = .modified) (session : Session) :
    (Stepwise.perform (setModified p true) ⟨e, session⟩).2.entry =
      { e with modified := e.modified.set p.index true, state := .modified } := by
  have howned : e.requireOwned p = .ok () := if_pos howns
  rw [perform_setModified, howned]
  exact Scope.entry_flag_on hstate

/-- Putting in a value and flagging it, once the baseline value is captured. -/
theorem put_touches (hv : e.Valid) (apart : e.FieldsApart) (hbase : e.OnlyBaseline)
    (hstate : e.state = .unchanged ∨ e.state = .modified) (hp : p ∈ e.type.properties)
    (hcaptured : (e.captured? p).isSome) (v : Value) (session : Session) :
    e.Touched p (Stepwise.perform (do
      update (·.putPrimary p v)
      flagWritten p) ⟨e, session⟩).2.entry := by
  cases hput : e.putPrimary p v with
  | error err =>
    have hrefused : Stepwise.perform (update (·.putPrimary p v)) ⟨e, session⟩ =
        (.error err, ⟨e, session⟩) := by
      rw [perform_update, hput]
    rw [perform_bind_of_error hrefused]
    exact hbase.touched_refl p
  | ok e₁ =>
    have hwritten : Stepwise.perform (update (·.putPrimary p v)) ⟨e, session⟩ =
        (.ok (), ⟨e₁, session⟩) := by
      rw [perform_update, hput]
    have hvalues := Entry.putPrimary_revalued hput
    have htype : e₁.type = e.type := hvalues.type
    have hsidecars : e₁.sidecars = e.sidecars := Entry.putPrimary_sidecars hput
    have hflagged := perform_setModified_true (htype ▸ hv.placed.owns_of_mem hp)
      (hvalues.state ▸ hstate) session
    rw [perform_bind_of_ok hwritten, flagWritten, perform_bind, perform_read]
    dsimp only
    rw [if_pos (by rcases hstate with h | h <;> simp [hvalues.state, h]), hflagged]
    have hbaseline : ∀ q ∈ e.type.properties, e₁.baselineValue q = e.baselineValue q := fun q hq =>
      Entry.baselineValue_of_putPrimary hv.placed apart (hv.placed.owns_of_mem hp)
        hcaptured hput (hv.placed.owns_of_mem hq)
    have hother : ∀ q ∈ e.type.properties, q.index ≠ p.index →
        e₁.primaryValue q = e.primaryValue q := fun q hq hne =>
      Entry.primaryValue_of_putPrimary_other apart hp hq (Ne.symm hne) hput
    exact {
      make := hvalues.make
      sidecars := fun t ht => by
        change ∃ values, t = Sidecar.baselineWith e₁.type.properties values
        rw [htype]
        exact hbase t (hsidecars ▸ ht)
      baseline := hbaseline
      change := .inr ⟨rfl, congrArg (·.set p.index true) hvalues.modified, hother⟩ }

/-- Writing a value to an unchanged or modified entry. -/
theorem write_touches (hv : e.Valid) (apart : e.FieldsApart) (hbase : e.OnlyBaseline)
    (hstate : e.state = .unchanged ∨ e.state = .modified) (hp : p ∈ e.type.properties) (v : Value)
    (session : Session) :
    e.Touched p (Stepwise.perform (write p v) ⟨e, session⟩).2.entry := by
  obtain ⟨current, hcurrent⟩ := hv.primaryValue_ok p
  rw [write, perform_bind, perform_read, hcurrent]
  dsimp only
  split
  · exact hbase.touched_refl p
  cases hcapture : e.captureBaseline p current with
  | error err =>
    have hrefused : Stepwise.perform (update (·.captureBaseline p current)) ⟨e, session⟩ =
        (.error err, ⟨e, session⟩) := by
      rw [perform_update, hcapture]
    rw [perform_bind_of_error hrefused]
    exact hbase.touched_refl p
  | ok e₁ =>
    have hupdate : Stepwise.perform (update (·.captureBaseline p current)) ⟨e, session⟩ =
        (.ok (), ⟨e₁, session⟩) := by
      rw [perform_update, hcapture]
    rw [perform_bind_of_ok hupdate, perform_bind_of_ok (perform_modifyEntry ..)]
    obtain ⟨hcaptures, hcaptured⟩ :=
      Entry.captures_of_captureBaseline hv.placed hbase.builtIn hcurrent hcapture
    have hbase₁ := hbase.of_captures hcaptures
    have hbaseline : ∀ q ∈ e.type.properties, e₁.baselineValue q = e.baselineValue q := fun q hq =>
      hcaptures.baseline q (hv.placed.owns_of_mem hq)
    obtain ⟨sidecars, rfl⟩ := hcaptures.sidecars
    obtain ⟨snapshot, hsnapshot⟩ : ∃ snapshot,
        (if e.type.inRelationship p then { e with sidecars }.recordSnapshot p v
          else { e with sidecars }) = { e with sidecars, snapshot } := by
      split
      · exact ⟨_, rfl⟩
      · exact ⟨e.snapshot, rfl⟩
    dsimp only
    rw [hsnapshot]
    have hv₁ : { e with sidecars, snapshot }.Valid := hv.of_make rfl
    have apart₁ : { e with sidecars, snapshot }.FieldsApart := apart.of_make rfl
    have ht := put_touches hv₁ apart₁ hbase₁ hstate hp hcaptured v session
    exact ⟨ht.make, ht.sidecars, fun q hq => (ht.baseline q hq).trans (hbaseline q hq), ht.change⟩

/-- Setting a property of an unchanged or modified entry. -/
theorem set_touches (hv : e.Valid) (apart : e.FieldsApart) (hbase : e.OnlyBaseline)
    (hstate : e.state = .unchanged ∨ e.state = .modified) (hp : p ∈ e.type.properties) (v : Value)
    (session : Session) :
    e.Touched p (Stepwise.perform (set p v) ⟨e, session⟩).2.entry := by
  have howned : e.requireOwned p = .ok () := if_pos (hv.placed.owns_of_mem hp)
  have hpass : e.sidecars.find? (fun s => s.transparentWrite && s.covers p) = none := by
    refine List.find?_eq_none.2 fun s hs => ?_
    obtain ⟨values, rfl⟩ := hbase s hs
    exact Bool.false_ne_true
  rw [set, perform_bind, perform_read, howned]
  dsimp only
  rw [perform_bind, perform_read]
  cases p.coerce v with
  | error err => exact hbase.touched_refl p
  | ok w =>
    dsimp only
    rw [perform_bind, perform_read]
    dsimp only
    rw [hpass]
    exact write_touches hv apart hbase hstate hp w session

end Action

/-! ## Any number of writes -/

namespace Entry

variable {e e' : Entry} {p : Property} {row : Row}

/-- The current values of an entry are those of a row. -/
def Shows (e : Entry) (row : Row) : Prop :=
  ∀ p ∈ e.type.properties, e.get p = .ok (row p.index)

/-- The baseline values of an entry are those of a row. -/
def HasBaseline (e : Entry) (row : Row) : Prop :=
  ∀ p ∈ e.type.properties, e.baselineValue p = .ok (row p.index)

/-- An entry that was unchanged, with the values of a row, before properties outside the key were
written. -/
structure Edited (e : Entry) (row : Row) : Prop where
  valid : e.Valid
  apart : e.FieldsApart
  sidecars : e.OnlyBaseline
  flags : e.modified.length = e.type.properties.length
  state : e.state = .unchanged ∨ e.state = .modified
  baseline : e.HasBaseline row
  /-- A value that differs from the baseline is flagged, and it is not in the key. -/
  kept : ∀ p ∈ e.type.properties, e.type.inKey p = true ∨ e.modified[p.index]? = some false →
    e.primaryValue p = .ok (row p.index)
  /-- Nothing is lost while the entry is unchanged. -/
  unchanged : e.state = .unchanged → ∀ p ∈ e.type.properties, e.primaryValue p = .ok (row p.index)
  /-- A modified entry has something to save. -/
  modified : e.state = .modified →
    ∃ p ∈ e.type.properties, e.type.inKey p = false ∧ e.modified[p.index]? = some true

/-- One more write outside the key. -/
theorem Edited.touch (h : e.Edited row) (hp : p ∈ e.type.properties)
    (hkey : e.type.inKey p = false) (ht : e.Touched p e') : e'.Edited row := by
  have htype : e'.type = e.type := congrArg Make.type ht.make
  have hlt : p.index < e.modified.length := h.flags ▸ h.valid.placed.index_lt hp
  have hbaseline : e'.HasBaseline row := fun q hq =>
    (ht.baseline q (htype ▸ hq)).trans (h.baseline q (htype ▸ hq))
  rcases ht.change with ⟨hstate, hflags, hprimary⟩ | ⟨hstate, hflags, hprimary⟩
  · refine ⟨h.valid.of_make ht.make, h.apart.of_make ht.make, ht.sidecars, ?_, ?_, hbaseline, ?_, ?_,
      ?_⟩
    · rw [hflags, htype, h.flags]
    · rw [hstate]
      exact h.state
    · intro q hq hsame
      rw [hflags, htype] at hsame
      exact (hprimary q).trans (h.kept q (htype ▸ hq) hsame)
    · intro hunchanged q hq
      exact (hprimary q).trans (h.unchanged (hstate ▸ hunchanged) q (htype ▸ hq))
    · rw [hstate, hflags, htype]
      exact h.modified
  · refine ⟨h.valid.of_make ht.make, h.apart.of_make ht.make, ht.sidecars, ?_, .inr hstate, hbaseline,
      ?_, ?_, ?_⟩
    · rw [hflags, htype, List.length_set, h.flags]
    · intro q hq hsame
      rw [htype] at hq hsame
      by_cases hindex : q.index = p.index
      · obtain rfl := h.valid.placed.eq_of_index hq hp hindex
        rw [hflags, List.getElem?_set_self hlt, hkey] at hsame
        rcases hsame with h | h <;> cases h
      · rw [hflags, List.getElem?_set_ne (Ne.symm hindex)] at hsame
        exact (hprimary q hq hindex).trans (h.kept q hq hsame)
    · intro hunchanged
      rw [hstate] at hunchanged
      cases hunchanged
    · intro _
      rw [hflags, htype]
      exact ⟨p, hp, hkey, List.getElem?_set_self hlt⟩

/-- The current values of such an entry are its primary values. -/
theorem Edited.get (h : e.Edited row) (hp : p ∈ e.type.properties) :
    e.get p = e.primaryValue p :=
  h.sidecars.get (h.valid.placed.owns_of_mem hp)

end Entry

namespace Action

variable {e : Entry} {row : Row}

/-- Sets properties one after the other, and goes on after a value that is refused. -/
def setAll (edits : List (Property × Value)) (s : Scope) : Scope :=
  edits.foldl (fun s edit => ((set edit.1 edit.2).perform s).2) s

theorem make_setAll (edits : List (Property × Value)) (s : Scope) :
    (setAll edits s).entry.make = s.entry.make := by
  induction edits generalizing s with
  | nil => rfl
  | cons edit edits ih => exact (ih _).trans (set_fixes_make edit.1 edit.2 s)

/-- **Any number of writes** outside the key. -/
theorem edited_setAll {edits : List (Property × Value)} {s : Scope} (h : s.entry.Edited row)
    (hedits : ∀ edit ∈ edits,
      edit.1 ∈ s.entry.type.properties ∧ s.entry.type.inKey edit.1 = false) :
    (setAll edits s).entry.Edited row := by
  induction edits generalizing s with
  | nil => exact h
  | cons edit edits ih =>
    obtain ⟨⟨hp, hkey⟩, hedits⟩ := List.forall_mem_cons.1 hedits
    have ht := set_touches h.valid h.apart h.sidecars h.state hp edit.2 s.session
    have htype : ((set edit.1 edit.2).perform s).2.entry.type = s.entry.type :=
      congrArg Make.type ht.make
    exact ih (h.touch hp hkey ht) (htype ▸ hedits)

/-- Deleting an unchanged or modified entry changes nothing but its state. -/
theorem perform_setState_deleted (h : e.state = .unchanged ∨ e.state = .modified)
    (session : Session) :
    (setState .deleted).perform ⟨e, session⟩ = (.ok (), ⟨{ e with state := .deleted },
      { session with tracker := session.tracker.update e.id .deleted }⟩) := by
  obtain ⟨id, type, native, shadow, accessors, state, modified, sidecars, snapshot⟩ := e
  rcases h with rfl | rfl <;> rfl

end Action

end EntityMapper
