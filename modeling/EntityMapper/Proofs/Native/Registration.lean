import EntityMapper.Native.Registry
import Mathlib.Data.Finset.Card

/-!
# What a registry answers

A program registers native types and asks for accessors and fresh instances, in any order
(`Registry.Call`). Only registrations matter for what it is told, and of these the first for each
native type and name (`Registry.first_registration_stays`): an accessor or instance that was found
once is found for good, and registrations for other native types change no answer.

What carries this is that a registration adds entries to two collections in which the first entry for
a key wins (`Registry.register_eq`), so that a whole history adds the entries of all its registrations
(`Registry.afterAll_eq`).
-/

namespace EntityMapper

/-! ## The keys of entries -/

namespace FirstWins

variable {α β : Type} [DecidableEq α] {c : FirstWins α β} {key : α} {entries : List (α × β)}

/-- The keys with an entry. -/
def keys (c : FirstWins α β) : List α :=
  c.entries.map Prod.fst

theorem mem_keys_iff : key ∈ c.keys ↔ (c.find? key).isSome = true := by
  rw [find?, List.lookup_isSome_iff, keys, List.mem_map]
  exact exists_congr fun entry => and_congr_right fun _ => by rw [beq_iff_eq, eq_comm]

/-- Adding an entry gives no key a second one. -/
theorem nodup_keys_add {v : β} (h : c.keys.Nodup) : (c.add key v).keys.Nodup := by
  unfold add
  split
  · exact h
  · rename_i hnone
    have hnew : key ∉ c.keys := fun hmem => by
      rw [mem_keys_iff, hnone] at hmem
      cases hmem
    rw [keys, List.map_append]
    exact List.nodup_append'.2
      ⟨h, List.nodup_singleton key, List.disjoint_singleton.2 hnew⟩

theorem nodup_keys_addAll (h : c.keys.Nodup) : (c.addAll entries).keys.Nodup := by
  induction entries generalizing c with
  | nil => exact h
  | cons entry entries ih => exact ih (nodup_keys_add h)

/-- As many entries are kept of the added ones as there are keys among them. -/
theorem size_addAll_empty (entries : List (α × β)) :
    (empty.addAll entries).size = (entries.map Prod.fst).toFinset.card := by
  have hnodup : (empty.addAll entries).keys.Nodup := nodup_keys_addAll List.nodup_nil
  have hkeys : (empty.addAll entries).keys.toFinset = (entries.map Prod.fst).toFinset := by
    ext key
    rw [List.mem_toFinset, List.mem_toFinset, mem_keys_iff, find?_addAll, List.mem_map]
    exact first?_isSome_iff
  rw [← hkeys, List.toFinset_card_of_nodup hnodup, keys, List.length_map, size]

end FirstWins

/-! ## Registrations as entries -/

namespace Registration

/-- The accessors of a registration, for its native type and their names. -/
def accessorEntries (registration : Registration) : List ((NativeType × String) × Accessor) :=
  registration.accessors.map fun a => ((registration.native, a.name), a)

/-- The fresh fields of a registration, for its native type. -/
def freshEntries (registration : Registration) : List (NativeType × Fields) :=
  registration.fresh.toList.map fun fields => (registration.native, fields)

/-- A registration has no entries for other native types. -/
theorem native_of_mem_accessorEntries {registration : Registration}
    {entry : (NativeType × String) × Accessor} (h : entry ∈ registration.accessorEntries) :
    entry.1.1 = registration.native := by
  obtain ⟨a, -, rfl⟩ := List.mem_map.1 h
  rfl

theorem native_of_mem_freshEntries {registration : Registration} {entry : NativeType × Fields}
    (h : entry ∈ registration.freshEntries) : entry.1 = registration.native := by
  obtain ⟨fields, -, rfl⟩ := List.mem_map.1 h
  rfl

end Registration

namespace Registry

variable {r : Registry}

theorem register_eq (r : Registry) (registration : Registration) :
    r.register registration = ⟨r.accessors.addAll registration.accessorEntries,
      r.fresh.addAll registration.freshEntries⟩ := by
  unfold register
  rw [FirstWins.addAll, Registration.accessorEntries, List.foldl_map]
  cases hfresh : registration.fresh with
  | none => rw [Registration.freshEntries, hfresh]; rfl
  | some fields => rw [Registration.freshEntries, hfresh]; rfl

/-! ## Histories -/

/-- What a program may ask of a registry. -/
inductive Call
  | register (registration : Registration)
  | accessor (native : NativeType) (name : String)
  | accessorOf (t : EntityType) (p : Property)
  | create (native : NativeType)

/-- What it is told. -/
inductive Answer
  | registered
  | accessor (a : Option Accessor)
  | accessorOf (a : Result Accessor)
  | created (i : Result Instance)

/-- The answer to a call, and the registry then. -/
def perform (r : Registry) : Call → Answer × Registry
  | .register registration => (.registered, r.register registration)
  | .accessor native name => (.accessor (r.accessor? native name), r)
  | .accessorOf t p => (.accessorOf (r.accessorOf t p), r)
  | .create native => (.created (r.freshInstance native), r)

/-- The registry after a call. -/
def after (r : Registry) (c : Call) : Registry :=
  (r.perform c).2

/-- The registry after some calls. -/
def afterAll (r : Registry) (calls : List Call) : Registry :=
  calls.foldl after r

/-- The registration that a call makes. -/
def Call.registration? : Call → Option Registration
  | .register registration => some registration
  | _ => none

/-- The registrations among some calls, in order. -/
def registrations (calls : List Call) : List Registration :=
  calls.filterMap Call.registration?

/-- The native type that a call is about. -/
def Call.native? : Call → Option NativeType
  | .register registration => some registration.native
  | .accessor native _ => some native
  | .accessorOf t _ => t.native
  | .create native => some native

/-- What was asked for is there. -/
def Answer.Found : Answer → Prop
  | .registered => True
  | .accessor a => ∃ found, a = some found
  | .accessorOf a => ∃ found, a = .ok found
  | .created i => ∃ made, i = .ok made

/-- Every accessor that was ever given, in order. -/
def givenAccessors (calls : List Call) : List ((NativeType × String) × Accessor) :=
  (registrations calls).flatMap Registration.accessorEntries

/-- All fresh fields that were ever given, in order. -/
def givenFresh (calls : List Call) : List (NativeType × Fields) :=
  (registrations calls).flatMap Registration.freshEntries

/-- A call adds the entries of its registration, if it makes one. -/
theorem after_eq (r : Registry) (c : Call) :
    r.after c = ⟨r.accessors.addAll (givenAccessors [c]), r.fresh.addAll (givenFresh [c])⟩ := by
  cases c with
  | register registration =>
    simp [after, perform, register_eq, givenAccessors, givenFresh, registrations,
      Call.registration?]
  | accessor native name => rfl
  | accessorOf t p => rfl
  | create native => rfl

theorem givenAccessors_cons (c : Call) (calls : List Call) :
    givenAccessors (c :: calls) = givenAccessors [c] ++ givenAccessors calls := by
  rw [givenAccessors, registrations, ← List.singleton_append, List.filterMap_append,
    List.flatMap_append]
  rfl

theorem givenFresh_cons (c : Call) (calls : List Call) :
    givenFresh (c :: calls) = givenFresh [c] ++ givenFresh calls := by
  rw [givenFresh, registrations, ← List.singleton_append, List.filterMap_append,
    List.flatMap_append]
  rfl

/-- Some calls add the entries of all their registrations. -/
theorem afterAll_eq (r : Registry) (calls : List Call) : r.afterAll calls =
    ⟨r.accessors.addAll (givenAccessors calls), r.fresh.addAll (givenFresh calls)⟩ := by
  induction calls generalizing r with
  | nil => rfl
  | cons c calls ih =>
    rw [givenAccessors_cons, givenFresh_cons, FirstWins.addAll_append, FirstWins.addAll_append,
      afterAll, List.foldl_cons, after_eq]
    exact ih _

theorem accessor?_afterAll (r : Registry) (calls : List Call) (native : NativeType) (name : String) :
    (r.afterAll calls).accessor? native name =
      (r.accessor? native name).or (FirstWins.first? (givenAccessors calls) (native, name)) := by
  rw [accessor?, afterAll_eq]
  exact r.accessors.find?_addAll _ _

theorem find?_fresh_afterAll (r : Registry) (calls : List Call) (native : NativeType) :
    (r.afterAll calls).fresh.find? native =
      (r.fresh.find? native).or (FirstWins.first? (givenFresh calls) native) := by
  rw [afterAll_eq]
  exact r.fresh.find?_addAll _ _

/-! ## Answers -/

section Answers

variable {calls : List Call} {native : NativeType}

/-- An accessor that is registered stays registered. -/
theorem accessor?_stays {name : String} {a : Accessor} (h : r.accessor? native name = some a)
    (calls : List Call) : (r.afterAll calls).accessor? native name = some a := by
  rw [accessor?_afterAll, h, Option.some_or]

/-- Registrations for other native types add no accessors for one. -/
theorem accessor?_of_apart (h : ∀ registration ∈ registrations calls, registration.native ≠ native)
    (name : String) : (r.afterAll calls).accessor? native name = r.accessor? native name := by
  have hnone : FirstWins.first? (givenAccessors calls) (native, name) = none := by
    refine FirstWins.first?_eq_none fun entry hentry hkey => ?_
    obtain ⟨registration, hmem, hentry⟩ := List.mem_flatMap.1 hentry
    refine h registration hmem ?_
    rw [← Registration.native_of_mem_accessorEntries hentry, hkey]
  rw [accessor?_afterAll, hnone, Option.or_none]

theorem freshInstance_stays {i : Instance} (h : r.freshInstance native = .ok i)
    (calls : List Call) : (r.afterAll calls).freshInstance native = .ok i := by
  unfold freshInstance at h ⊢
  split at h
  · rename_i fields hfields
    rw [find?_fresh_afterAll, hfields]
    exact h
  · cases h

theorem freshInstance_of_apart
    (h : ∀ registration ∈ registrations calls, registration.native ≠ native) :
    (r.afterAll calls).freshInstance native = r.freshInstance native := by
  have hnone : FirstWins.first? (givenFresh calls) native = none := by
    refine FirstWins.first?_eq_none fun entry hentry hkey => ?_
    obtain ⟨registration, hmem, hentry⟩ := List.mem_flatMap.1 hentry
    refine h registration hmem ?_
    rw [← Registration.native_of_mem_freshEntries hentry, hkey]
  rw [freshInstance, find?_fresh_afterAll, hnone, Option.or_none]
  rfl

theorem accessorOf_stays {t : EntityType} {p : Property} {a : Accessor}
    (h : r.accessorOf t p = .ok a) (calls : List Call) :
    (r.afterAll calls).accessorOf t p = .ok a := by
  unfold accessorOf at h ⊢
  split at h
  · rename_i found hfound
    obtain ⟨native, hnative, hfound⟩ := Option.bind_eq_some_iff.1 hfound
    rw [hnative, Option.bind_some, accessor?_stays hfound]
    exact h
  · cases h

theorem accessorOf_of_apart {t : EntityType} (ht : t.native = some native)
    (h : ∀ registration ∈ registrations calls, registration.native ≠ native) (p : Property) :
    (r.afterAll calls).accessorOf t p = r.accessorOf t p := by
  unfold accessorOf
  rw [ht, Option.bind_some, Option.bind_some, accessor?_of_apart h]

/-- What was found once is found for good. -/
theorem perform_stays {c : Call} (h : (r.perform c).1.Found) (calls : List Call) :
    ((r.afterAll calls).perform c).1 = (r.perform c).1 := by
  cases c with
  | register registration => rfl
  | accessor native name =>
    obtain ⟨a, ha⟩ := h
    exact congrArg Answer.accessor ((accessor?_stays ha calls).trans ha.symm)
  | accessorOf t p =>
    obtain ⟨a, ha⟩ := h
    exact congrArg Answer.accessorOf ((accessorOf_stays ha calls).trans ha.symm)
  | create native =>
    obtain ⟨i, hi⟩ := h
    exact congrArg Answer.created ((freshInstance_stays hi calls).trans hi.symm)

/-- Registrations for other native types change nothing that is told about one. -/
theorem perform_of_apart {c : Call} (hc : c.native? = some native)
    (h : ∀ registration ∈ registrations calls, registration.native ≠ native) :
    ((r.afterAll calls).perform c).1 = (r.perform c).1 := by
  cases c with
  | register registration => rfl
  | accessor native' name =>
    cases hc
    exact congrArg Answer.accessor (accessor?_of_apart h name)
  | accessorOf t p => exact congrArg Answer.accessorOf (accessorOf_of_apart hc h p)
  | create native' =>
    cases hc
    exact congrArg Answer.created (freshInstance_of_apart h)

end Answers

/-- **The first registration stays.** Whatever a program asks of a new registry: the accessor of a
native type and a name is the first that was ever given for them, and there is none if none was
given; a fresh instance has the first fields that were ever given for its native type; what was found
once is found for good; later registrations for other native types change no answer about one; and
the registry holds one accessor and one fresh instance for each key that was given. -/
theorem first_registration_stays (earlier later : List Call) :
    (∀ native name, (empty.afterAll earlier).accessor? native name =
      FirstWins.first? (givenAccessors earlier) (native, name)) ∧
    (∀ native, (empty.afterAll earlier).freshInstance native =
      (FirstWins.first? (givenFresh earlier) native).elim (.error (.notFound .accessor native.name none))
        fun fields => .ok ⟨native, fields⟩) ∧
    (∀ c, ((empty.afterAll earlier).perform c).1.Found →
      (((empty.afterAll earlier).afterAll later).perform c).1 =
        ((empty.afterAll earlier).perform c).1) ∧
    (∀ c native, c.native? = some native →
      (∀ registration ∈ registrations later, registration.native ≠ native) →
      (((empty.afterAll earlier).afterAll later).perform c).1 =
        ((empty.afterAll earlier).perform c).1) ∧
    (empty.afterAll earlier).accessors.size =
      ((givenAccessors earlier).map Prod.fst).toFinset.card ∧
    (empty.afterAll earlier).fresh.size = ((givenFresh earlier).map Prod.fst).toFinset.card := by
  refine ⟨fun native name => ?_, fun native => ?_, fun c hc => perform_stays hc later,
    fun c native hc hlater => perform_of_apart hc hlater, ?_, ?_⟩
  · rw [accessor?_afterAll]
    exact Option.none_or
  · have hfresh : (empty.afterAll earlier).fresh.find? native = FirstWins.first? (givenFresh earlier) native :=
      (find?_fresh_afterAll ..).trans Option.none_or
    rw [freshInstance, hfresh]
    cases FirstWins.first? (givenFresh earlier) native <;> rfl
  · rw [afterAll_eq]
    exact FirstWins.size_addAll_empty _
  · rw [afterAll_eq]
    exact FirstWins.size_addAll_empty _

/-- Products are registered twice, with `Id` of two widths and, the second time, `Id` given once more
and fresh fields; an accessor is asked for between; and a person has an `Id`, too. -/
def products : List Call := [
  .register ⟨⟨"Product"⟩, none, [.field ⟨"Product"⟩ "Id" .int32, .field ⟨"Product"⟩ "Name" .string]⟩,
  .accessor ⟨"Person"⟩ "Id",
  .register ⟨⟨"Product"⟩, some [("Id", .int 7)],
    [.field ⟨"Product"⟩ "Id" .int64, .field ⟨"Product"⟩ "Id" .uuid]⟩,
  .register ⟨⟨"Person"⟩, none, [.field ⟨"Person"⟩ "Id" .int64]⟩]

theorem first_registration_stays_products :
    (empty.afterAll products).accessor? ⟨"Product"⟩ "Id" = some (.field ⟨"Product"⟩ "Id" .int32) ∧
    ((empty.afterAll products).afterAll products).accessor? ⟨"Product"⟩ "Id" =
      some (.field ⟨"Product"⟩ "Id" .int32) ∧
    (empty.afterAll (products.take 1)).freshInstance ⟨"Product"⟩ =
      .error (.notFound .accessor "Product" none) ∧
    (empty.afterAll products).freshInstance ⟨"Product"⟩ = .ok ⟨⟨"Product"⟩, [("Id", .int 7)]⟩ ∧
    (empty.afterAll products).accessors.size = 3 ∧ (empty.afterAll products).fresh.size = 1 := by
  obtain ⟨haccessor, hfresh, hstays, -, haccessors, hinstances⟩ :=
    first_registration_stays products products
  have hid : (empty.afterAll products).accessor? ⟨"Product"⟩ "Id" =
      some (.field ⟨"Product"⟩ "Id" .int32) := haccessor ⟨"Product"⟩ "Id"
  refine ⟨hid, ?_, (first_registration_stays (products.take 1) []).2.1 ⟨"Product"⟩,
    hfresh ⟨"Product"⟩, haccessors.trans (by decide), hinstances.trans (by decide)⟩
  have hlater := hstays (.accessor ⟨"Product"⟩ "Id") ⟨_, hid⟩
  exact Answer.accessor.inj (hlater.trans (congrArg Answer.accessor hid))

end Registry

end EntityMapper
