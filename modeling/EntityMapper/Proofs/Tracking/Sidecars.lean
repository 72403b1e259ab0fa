import EntityMapper.Proofs.Command.Columns

/-!
# Sidecars during a save

For a save an entry gets a sidecar for generated values, and the values that the store returns go
there. `Entry.holding e vs` is the entry `e` with that sidecar, holding the values `vs`:

* `Entry.prepare` makes it of any entry, without values;
* `Command.receive` adds the values of a row, in the representation of their properties
  (`Command.coerced`), and stays within this shape also where it fails (`Command.perform_receive`);
* dropping what would be committed gives the entry back (`Entry.rollBack_holding`).
-/

namespace EntityMapper

open Stepwise

/-! ## Values by position -/

namespace Sidecar

variable {i j : Nat} {v : Value} {values : List (Nat × Value)}

theorem lookup_put_self : (put i v values).lookup i = some v := by
  induction values with
  | nil => simp [put]
  | cons entry rest ih =>
    obtain ⟨k, w⟩ := entry
    unfold put
    split
    · rename_i h
      simp [h]
    · rename_i h
      rw [List.lookup_cons, beq_eq_false_iff_ne.2 (Ne.symm h)]
      exact ih

theorem lookup_put_of_ne (h : j ≠ i) : (put i v values).lookup j = values.lookup j := by
  induction values with
  | nil => simp [put, List.lookup_cons, beq_eq_false_iff_ne.2 h]
  | cons entry rest ih =>
    obtain ⟨k, w⟩ := entry
    unfold put
    split
    · rename_i hk
      simp [List.lookup_cons, hk, beq_eq_false_iff_ne.2 h]
    · rw [List.lookup_cons, List.lookup_cons, ih]

/-- Values with more of them put in, in order. -/
def putAll (values new : List (Nat × Value)) : List (Nat × Value) :=
  new.foldl (fun values entry => put entry.1 entry.2 values) values

variable {new : List (Nat × Value)}

theorem lookup_putAll_of_notMem (h : ∀ entry ∈ new, entry.1 ≠ i) :
    (putAll values new).lookup i = values.lookup i := by
  induction new generalizing values with
  | nil => rfl
  | cons entry new ih =>
    have hne : i ≠ entry.1 := Ne.symm (h entry List.mem_cons_self)
    have hrest := fun other (hother : other ∈ new) => h other (List.mem_cons_of_mem _ hother)
    exact (ih hrest).trans (lookup_put_of_ne hne)

/-- Where the new values agree, each of them is found. -/
theorem lookup_putAll_of_mem (hagree : ∀ entry ∈ new, entry.1 = i → entry.2 = v)
    (h : (i, v) ∈ new) : (putAll values new).lookup i = some v := by
  induction new generalizing values with
  | nil => cases h
  | cons entry new ih =>
    have hrest := fun other (hother : other ∈ new) => hagree other (List.mem_cons_of_mem _ hother)
    by_cases hagain : (i, v) ∈ new
    · exact ih hrest hagain
    · have hhead : entry = (i, v) := by
        rcases List.mem_cons.1 h with heq | hmem
        · exact heq.symm
        · exact absurd hmem hagain
      have hnot : ∀ other ∈ new, other.1 ≠ i := fun other hother heq =>
        hagain ((Prod.ext heq (hrest other hother heq) : other = (i, v)) ▸ hother)
      rw [hhead]
      exact (lookup_putAll_of_notMem hnot).trans lookup_put_self

end Sidecar

/-! ## Attaching -/

namespace Entry

variable {e : Entry} {s s' : Sidecar} {sidecars : List Sidecar} {name : String}

theorem attachTo_attachTo (h : s.name = s'.name) :
    attachTo s' (attachTo s sidecars) = attachTo s' sidecars := by
  induction sidecars with
  | nil => simp [attachTo, h]
  | cons t rest ih =>
    by_cases ht : t.name = s.name
    · simp [attachTo, ht, h]
    · simp [attachTo, ht, ← h, ih]

/-- The last of two sidecars of one name counts. -/
theorem attach_attach (h : s.name = s'.name) : (e.attach s).attach s' = e.attach s' := by
  unfold attach
  rw [attachTo_attachTo h]

theorem find?_attachTo :
    (attachTo s sidecars).find? (·.name == s.name) = some s := by
  induction sidecars with
  | nil => simp [attachTo]
  | cons t rest ih =>
    by_cases ht : t.name = s.name
    · simp [attachTo, ht]
    · simp [attachTo, ht, ih]

theorem sidecar?_attach : (e.attach s).sidecar? s.name = some s := find?_attachTo

theorem attachTo_of_notMem (h : ∀ t ∈ sidecars, t.name ≠ s.name) :
    attachTo s sidecars = sidecars ++ [s] := by
  induction sidecars with
  | nil => rfl
  | cons t rest ih =>
    rw [attachTo, if_neg (h t List.mem_cons_self), ih fun t ht => h t (List.mem_cons_of_mem _ ht)]
    rfl

/-- In the place of the one of its name, a sidecar leaves the names as they are. -/
theorem names_attachTo_of_mem (h : s.name ∈ sidecars.map (·.name)) :
    (attachTo s sidecars).map (·.name) = sidecars.map (·.name) := by
  induction sidecars with
  | nil => cases h
  | cons t rest ih =>
    unfold attachTo
    split
    · rename_i hname
      rw [List.map_cons, List.map_cons, hname]
    · rename_i hname
      rw [List.map_cons, List.map_cons, ih ((List.mem_cons.1 h).resolve_left (Ne.symm hname))]

theorem mem_attachTo (h : s' ∈ attachTo s sidecars) : s' = s ∨ s' ∈ sidecars := by
  induction sidecars with
  | nil => exact .inl (List.mem_singleton.1 h)
  | cons t rest ih =>
    unfold attachTo at h
    split at h
    · rcases List.mem_cons.1 h with rfl | h
      · exact .inl rfl
      · exact .inr (List.mem_cons_of_mem _ h)
    · rcases List.mem_cons.1 h with rfl | h
      · exact .inr List.mem_cons_self
      · exact (ih h).imp_right (List.mem_cons_of_mem _)

/-! ## Holding generated values -/

/-- The sidecar for generated values, with some values. -/
def generatedWith (t : EntityType) (values : List (Nat × Value)) : Sidecar :=
  { Sidecar.generated t.generable with values }

/-- The entry with the sidecar for generated values, holding some values. -/
def holding (e : Entry) (values : List (Nat × Value)) : Entry :=
  e.attach (generatedWith e.type values)

variable {values values' : List (Nat × Value)} {p : Property} {v : Value}

theorem prepare_holding : (e.holding values).prepare = e.holding [] := attach_attach rfl

theorem sidecar?_holding :
    (e.holding values).sidecar? Sidecar.generatedName = some (generatedWith e.type values) :=
  sidecar?_attach

theorem isPrepared_holding : (e.holding values).isPrepared = true := by
  rw [isPrepared, sidecar?_holding]
  rfl

/-- A coerced value joins the generated values. -/
theorem setSidecarValue_holding (howns : e.type.owns p = true) (hp : p ∈ e.type.generable) :
    (e.holding values).setSidecarValue Sidecar.generatedName p v =
      (p.coerce v).map fun w => e.holding (Sidecar.put p.index w values) := by
  have hcovers : (generatedWith e.type values).covers p = true :=
    List.any_eq_true.2 ⟨p, hp, Property.same_self p⟩
  have hset : ∀ w, (generatedWith e.type values).set p w =
      .ok (generatedWith e.type (Sidecar.put p.index w values)) := by
    intro w
    rw [Sidecar.set, if_pos hcovers]
    rfl
  have howns : (e.holding values).requireOwned p = .ok () := if_pos howns
  rw [setSidecarValue, howns]
  cases p.coerce v with
  | error err => rfl
  | ok w =>
    change (do return (e.holding values).attach (← (← (e.holding values).sidecar _).set p w)) = _
    rw [sidecar, sidecar?_holding]
    change (do return (e.holding values).attach (← (generatedWith e.type values).set p w)) = _
    rw [hset]
    exact congrArg Except.ok (attach_attach rfl)

theorem rollBack_eq (h : ∀ s ∈ e.sidecars, s.autoCommit = false) : e.rollBack = e := by
  have h : e.sidecars.filter (!·.autoCommit) = e.sidecars :=
    List.filter_eq_self.2 fun s hs => by simp [h s hs]
  rw [rollBack, h]

/-- Dropping what would be committed takes the generated values away. -/
theorem rollBack_holding (h : ∀ s ∈ e.sidecars, s.name ≠ Sidecar.generatedName) :
    (e.holding values).rollBack = e.rollBack := by
  unfold rollBack holding attach
  rw [attachTo_of_notMem h]
  simp [generatedWith, Sidecar.generated]

end Entry

/-! ## Receiving a row -/

namespace Command

variable {c : Command} {e : Entry} {values : List (Nat × Value)} {row ws : List Value}
  {session : Session}

/-- A value in the representation of the property that it is read into. -/
def coercePair (pair : ColumnChange × Value) : Result Value :=
  pair.1.property.coerce pair.2

/-- The values of a row, in the representation of the properties that they are read into. -/
def coerced (c : Command) (row : List Value) : Result (List Value) :=
  (c.reads.zip row).mapM coercePair

/-- Generated values with those of some columns. -/
def withGenerated (values : List (Nat × Value)) (columns : List ColumnChange) (ws : List Value) :
    List (Nat × Value) :=
  Sidecar.putAll values ((columns.map (·.property.index)).zip ws)

@[simp] theorem withGenerated_nil : withGenerated values [] ws = values := rfl

/-- A pair is taken into the generated values, or refused. -/
def takePair (pair : ColumnChange × Value) : Action Unit :=
  Action.update (·.setSidecarValue Sidecar.generatedName pair.1.property pair.2)

theorem perform_takePair {pair : ColumnChange × Value} (howns : e.type.owns pair.1.property = true)
    (hgen : pair.1.property ∈ e.type.generable) :
    perform (takePair pair) ⟨e.holding values, session⟩ = match coercePair pair with
      | .ok w => (.ok (), ⟨e.holding (Sidecar.put pair.1.property.index w values), session⟩)
      | .error err => (.error err, ⟨e.holding values, session⟩) := by
  rw [takePair, Action.perform_update, Entry.setSidecarValue_holding howns hgen, coercePair]
  cases pair.1.property.coerce pair.2 <;> rfl

/-- Values are taken one after the other, up to the first that is refused. -/
theorem perform_takePairs {pairs : List (ColumnChange × Value)}
    (h : ∀ pair ∈ pairs, e.type.owns pair.1.property = true ∧
      pair.1.property ∈ e.type.generable) (values : List (Nat × Value)) (session : Session) :
    ∃ values', perform (pairs.forM takePair) ⟨e.holding values, session⟩ =
      ((pairs.mapM coercePair).map fun _ => (), ⟨e.holding values', session⟩) ∧
      ∀ ws, pairs.mapM coercePair = .ok ws →
        values' = withGenerated values (pairs.map (·.1)) ws := by
  induction pairs generalizing values with
  | nil =>
    refine ⟨values, rfl, fun ws hws => ?_⟩
    cases hws
    rfl
  | cons pair pairs ih =>
    obtain ⟨howns, hgen⟩ := h pair List.mem_cons_self
    rw [perform_forM_cons, List.mapM_cons, perform_bind, perform_takePair howns hgen]
    cases hw : coercePair pair with
    | error err => exact ⟨values, rfl, fun ws hws => by cases hws⟩
    | ok w =>
      obtain ⟨values', hrun, hvalues⟩ := ih (fun pair hp => h pair (List.mem_cons_of_mem _ hp))
        (Sidecar.put pair.1.property.index w values)
      cases hws : pairs.mapM coercePair with
      | error err =>
        rw [hws] at hrun
        exact ⟨values', hrun, fun ws hws => by cases hws⟩
      | ok ws =>
        rw [hws] at hrun
        refine ⟨values', hrun, fun ws' hws' => ?_⟩
        cases hws'
        exact hvalues ws hws

/-- A row of the right length is taken as far as its values are accepted; another one is refused. -/
theorem perform_receive (h : ∀ column ∈ c.reads, e.type.owns column.property = true ∧
      column.property ∈ e.type.generable) (values : List (Nat × Value)) (row : List Value)
    (session : Session) :
    ∃ values', perform (c.receive row) ⟨e.holding values, session⟩ =
      (if c.reads.length ≠ row.length then
        .error (.update (.generatedCount c.reads.length c.entityType.name row.length) none)
      else (c.coerced row).map fun _ => (), ⟨e.holding values', session⟩) ∧
      ∀ ws, c.reads.length = row.length → c.coerced row = .ok ws →
        values' = withGenerated values c.reads ws := by
  unfold receive
  split
  · rename_i hne
    exact ⟨values, rfl, fun ws heq => absurd heq hne⟩
  · rename_i heq
    have heq : c.reads.length = row.length := not_not.1 heq
    have hpairs : ∀ pair ∈ c.reads.zip row, e.type.owns pair.1.property = true ∧
        pair.1.property ∈ e.type.generable := fun pair hp => h pair.1 (List.of_mem_zip hp).1
    obtain ⟨values', hrun, hvalues⟩ := perform_takePairs hpairs values session
    refine ⟨values', ?_, fun ws _ hws => ?_⟩
    · rw [perform_bind, Action.perform_modifyEntry, if_pos Entry.isPrepared_holding]
      exact hrun
    · rw [hvalues ws hws, List.map_fst_zip (Nat.le_of_eq heq)]

end Command

end EntityMapper
