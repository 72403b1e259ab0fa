import EntityMapper.Proofs.Tracking.Adding
import EntityMapper.Proofs.UnitOfWork.Made

/-!
# Adding entries in a unit of work

In a unit of work whose entries are all of entity types of one configuration, generators are only ever
used for properties of these (`UnitOfWork.Proceeds.continues`). So a property without an override
draws from a generator of its own, however often and in whatever order entries are added, and the
integers that it gets are below zero and different from each other. Once its type has no room for
another one, entries that want one are not added any more (`UnitOfWork.adding_generates`), although
that need not be what adding fails for: in the example, another property comes first.
-/

namespace EntityMapper

open Stepwise

namespace UnitOfWork

variable {types : List EntityType} {u u' u₁ : UnitOfWork} {e : Entry} {s : Scope}
  {answer : Result Unit}

/-! ## Generators -/

/-- All entries are of some entity types. -/
def Of (types : List EntityType) (u : UnitOfWork) : Prop :=
  ∀ e ∈ u.entries, e.type ∈ types

/-- Steps lead from one unit of work to another, and on the way all entries are of some entity types. -/
def Proceeds (types : List EntityType) : UnitOfWork → UnitOfWork → Prop :=
  Relation.ReflTransGen fun u u' => u.Step u' ∧ u'.Of types

/-- A unit of work with entries of some entity types, whose session started with new generators. -/
def Configured (types : List EntityType) (u : UnitOfWork) : Prop :=
  ∃ model registry overrides random s,
    Session.start model registry (.ofOverrides overrides random) = .ok s ∧ Proceeds types ⟨[], s⟩ u

/-- How generators go on is a matter of the types of all entries. -/
theorem lasting_continues (distinct : EntityType.Distinct types) (g : Generators)
    (moves : Scope.Moves) : Lasting moves fun roster session =>
      (∀ id e, roster id = some e → e.type ∈ types) → g.Continues types session.generators where
  leads := by
    intro roster session e s h he hs htypes
    have hbefore : ∀ id e', roster id = some e' → e'.type ∈ types := by
      intro id e' he'
      by_cases hid : id = e.id
      · subst hid
        cases he.symm.trans he'
        rw [← hs.type]
        exact htypes e.id s.entry (Function.update_self ..)
      · exact htypes id e' ((Function.update_of_ne hid ..).trans he')
    exact (h hbefore).trans (hs.generators distinct (hbefore e.id e he))
  values := by
    intro roster session f h hf htypes
    refine h fun id e he => ?_
    rw [← (hf id e).type]
    exact htypes id (f id e) (congrArg (Option.map (f id)) he)

theorem Step.continues (distinct : EntityType.Distinct types) (hu : u.InStep) (hs : u.Step u')
    (htypes : u'.Of types) :
    u.session.generators.Continues types u'.session.generators := by
  have hroster : ∀ id e, u'.entryOf id = some e → e.type ∈ types := fun id e he =>
    htypes e (mem_of_entryOf he)
  rcases hs.cases with ⟨t, e, s, hfills, rfl⟩ | ⟨e, he, op, rfl⟩ | ⟨chosen, hchosen, d, ex, rfl⟩
  · obtain ⟨-, -, -, -, rfl⟩ := hfills.fresh
    exact .refl types _
  · have hleads := op.leads_run ⟨e, u.session⟩
    rw [entryOf_put (hu.entryOf_of_mem he) hleads.id] at hroster
    exact (lasting_continues distinct _ _).leads (fun _ => .refl types _) (hu.entryOf_of_mem he)
      hleads hroster
  · exact lasts_merge (lasting_continues distinct _ .sparing) hu.nodup hchosen d ex
      (fun _ => .refl types _) hroster

/-- **Generators go on** while a unit of work proceeds. -/
theorem Proceeds.continues (distinct : EntityType.Distinct types) (hu : u.Reachable)
    (h : u.Proceeds types u') :
    u'.Reachable ∧ u.session.generators.Continues types u'.session.generators := by
  induction h with
  | refl => exact ⟨hu, .refl types _⟩
  | tail _ hs ih =>
    obtain ⟨hreachable, hcontinues⟩ := ih
    exact ⟨hreachable.step hs.1,
      hcontinues.trans (hs.1.continues distinct (inStep_of_reachable hreachable) hs.2)⟩

theorem Configured.proceeds (h : u.Configured types) (h' : u.Proceeds types u') :
    u'.Configured types := by
  obtain ⟨model, registry, overrides, random, s, hstart, hs⟩ := h
  exact ⟨model, registry, overrides, random, s, hstart, hs.trans h'⟩

theorem Configured.step (h : u.Configured types) (hs : u.Step u') (hof : u'.Of types) :
    u'.Configured types :=
  h.proceeds (.single ⟨hs, hof⟩)

theorem Configured.of (h : u.Configured types) : u.Of types := by
  obtain ⟨model, registry, overrides, random, s, -, hs⟩ := h
  cases hs with
  | refl => exact List.forall_mem_nil _
  | tail _ hs => exact hs.2

/-- Properties without an override draw from generators that the library has for them. -/
theorem Configured.builtIn (h : u.Configured types) (distinct : EntityType.Distinct types) :
    u.Reachable ∧ u.session.generators.BuiltInFor types := by
  obtain ⟨model, registry, overrides, random, s, hstart, hs⟩ := h
  obtain ⟨hreachable, hcontinues⟩ := hs.continues distinct (.start hstart)
  refine ⟨hreachable, hcontinues.builtIn ?_⟩
  cases model with
  | none => cases hstart
  | some model =>
    cases hstart
    exact Generators.builtInFor_ofOverrides types overrides random

/-! ## Adding -/

/-- An unknown entry is added, and that succeeds or fails. Its properties are kept in shadow slots or in
native fields of their own, none of its sidecars is one that reads or writes see through, and what the
client generates comes from generators of the library, which do not run out of 64 bits. -/
structure Adding (u : UnitOfWork) (e : Entry) (answer : Result Unit) (s : Scope) : Prop where
  mem : e ∈ u.entries
  unknown : e.state = .unknown
  fielded : e.type.Fielded u.session.registry
  plain : e.Plain
  supplied : e.type.Supplied u.session.generators
  run : perform (Action.setState .added) ⟨e, u.session⟩ = (answer, s)
  drawn : ∀ p ∈ e.type.properties, s.session.generators.drawnFor e.type p ≤ ValueType.bigInt.negatives

/-- An integer that a property is given when its entry is to be added, also where that fails in the end. -/
def Generated (e : Entry) (s : Scope) (p : Property) (n : Int) : Prop :=
  p ∈ e.type.properties ∧ e.Wants p ∧ p.valueType.isInteger = true ∧
    ∃ v, s.entry.get p = .ok v ∧ p.isDefault v = false ∧ v.integer? = some n

/-- Asking for a state is a step, whatever comes of it. -/
theorem Step.setState {target : EntityState} (he : e ∈ u.entries)
    (hrun : perform (Action.setState target) ⟨e, u.session⟩ = (answer, s)) : u.Step (u.put s) := by
  have hs : (EntryOperation.setState target).run ⟨e, u.session⟩ = s := congrArg Prod.snd hrun
  exact hs ▸ .act he (.setState target)

/-- One more step that adds an entry. -/
theorem Adding.proceeds (h : u.Adding e answer s) (hu : u.Configured types)
    (distinct : EntityType.Distinct types) : u.Proceeds types (u.put s) := by
  obtain ⟨hreachable, -⟩ := hu.builtIn distinct
  have hstep := Step.setState h.mem h.run
  refine .single ⟨hstep, fun e' he' => ?_⟩
  have hleads : Scope.Leads .lawful ⟨e, u.session⟩ s := by
    have hrun : (EntryOperation.setState .added).run ⟨e, u.session⟩ = s := congrArg Prod.snd h.run
    exact hrun ▸ EntryOperation.leads_run (.setState .added) ⟨e, u.session⟩
  have hentry := (inStep_of_reachable (hreachable.step hstep)).entryOf_of_mem he'
  rw [entryOf_put ((inStep_of_reachable hreachable).entryOf_of_mem h.mem) hleads.id,
    Function.update_apply] at hentry
  split at hentry
  · cases hentry
    exact hleads.type ▸ hu.of e h.mem
  · exact hu.of e' (mem_of_entryOf hentry)

theorem Adding.addable (h : u.Adding e answer s) (hu : u.Configured types)
    (distinct : EntityType.Distinct types) : Scope.Addable types ⟨e, u.session⟩ := by
  obtain ⟨hreachable, hbuiltIn⟩ := hu.builtIn distinct
  exact ⟨⟨h.unknown, declared_of_reachable hreachable h.mem h.fielded, h.plain⟩, hu.of e h.mem,
    hbuiltIn, h.supplied⟩

theorem Adding.adds (h : u.Adding e (.ok ()) s) (hu : u.Configured types)
    (distinct : EntityType.Distinct types) : Scope.Adds ⟨e, u.session⟩ s := by
  rcases Action.add_spec distinct (h.addable hu distinct) h.run h.drawn with
    ⟨-, hadds⟩ | ⟨_, herr, -⟩
  · exact hadds
  · cases herr

variable {p p' : Property} {n n' : Int}

/-- An integer that was generated is told by the number of a draw. -/
theorem Generated.exists_draw (hn : Generated e s p n) (h : u.Adding e answer s)
    (hu : u.Configured types) (distinct : EntityType.Distinct types) :
    ∃ m : Nat, u.session.generators.drawnFor e.type p ≤ m ∧
      m < s.session.generators.drawnFor e.type p ∧ n = -1 - (m : Int) := by
  obtain ⟨hp, ⟨-, c, hcurrent, hdefault⟩, hinteger, v, hget, hgiven, hn⟩ := hn
  rcases Action.add_refreshes distinct (h.addable hu distinct) h.run h.drawn hp with
    hsame | ⟨m, v', hfirst, hlast, hv, hget'⟩
  · cases hget.symm.trans (hsame.trans hcurrent)
    cases hdefault.symm.trans hgiven
  · cases hget.symm.trans hget'
    exact ⟨m, hfirst, hlast, Option.some.inj (hn.symm.trans (hv.integer hinteger))⟩

/-- Another entry that is to be added later is given another integer. -/
theorem Adding.generated_ne {e' : Entry} {s' : Scope} {answer' : Result Unit} (h : u.Adding e answer s)
    (hu : u.Configured types) (distinct : EntityType.Distinct types)
    (hproceeds : (u.put s).Proceeds types u') (h' : u'.Adding e' answer' s')
    (hid : e'.type.id = e.type.id) (hn : Generated e s p n) (hn' : Generated e' s' p' n')
    (hindex : p'.index = p.index) : n ≠ n' := by
  have hput := hu.proceeds (h.proceeds hu distinct)
  have hu' := hput.proceeds hproceeds
  have htype : e'.type = e.type :=
    distinct.apart _ (hu'.of e' h'.mem) _ (hu.of e h.mem) hid
  obtain rfl : p' = p :=
    (distinct.placed _ (hu.of e h.mem)).eq_of_index (htype ▸ hn'.1) hn.1 hindex
  obtain ⟨m, -, hlast, rfl⟩ := hn.exists_draw h hu distinct
  obtain ⟨m', hfirst, -, rfl⟩ := hn'.exists_draw h' hu' distinct
  rw [htype] at hfirst
  -- The first number was drawn before the second unit of work, and the second one after that.
  have hlater : s.session.generators.Later u'.session.generators :=
    (hproceeds.continues distinct (hput.builtIn distinct).1).2.later
  have hle := hlater.drawnFor_le e.type p'
  omega

end UnitOfWork

/-! ## An example -/

namespace Tickets

open UnitOfWork

/-- The code of a ticket. -/
def code : Property where
  name := "Code"
  owner := ⟨0⟩
  ownerName := "Ticket"
  index := 0
  valueType := .tinyInt
  nullable := false
  shadow := true
  concurrencyToken := false
  clientGenerated := true
  storeGeneration := .never
  column := none
  tableKey := none

/-- The number of a ticket. -/
def number : Property :=
  { code with name := "Number", index := 1 }

/-- Tickets, whose codes and numbers are generated by the client, and of which there are few. -/
def type : EntityType where
  id := ⟨0⟩
  name := "Ticket"
  properties := [code, number]

/-- A new ticket, with a code perhaps, and without a number. -/
def ticket (n : Nat) (code : Int8) (sidecars : List Sidecar) : Entry where
  id := ⟨n⟩
  type
  native := none
  shadow := [.tinyInt code, .tinyInt 0]
  accessors := [none, none]
  state := .unknown
  modified := [false, false]
  sidecars
  snapshot := []

/-- A sidecar for baseline values that has room for none. -/
def blind : Sidecar :=
  ⟨Sidecar.baselineName, [], [], false, false, false⟩

/-- Generators that were not used so far. -/
def fresh : Generators :=
  .ofOverrides [] fun _ _ => 0

/-- The generators after some draws of numbers. -/
def worn (drawn : Nat) : Generators :=
  { fresh with
    chosen := fresh.chosen.add (⟨0⟩, 1) ⟨0⟩
    sources := [⟨.temporaryInteger, drawn⟩] }

/-- A session in which some tickets were made. -/
def session (made : Nat) (generators : Generators) : Session where
  model := ⟨[type]⟩
  registry := .empty
  generators
  made

/-- Two tickets, of which the first one has a code, and the second one perhaps. -/
def issued (code : Int8) (first second : List Sidecar) (generators : Generators) : UnitOfWork where
  entries := [ticket 1 5 first, ticket 2 code second]
  session := session 2 generators

theorem type_placed : type.Placed where
  index := by
    intro i p h
    match i with
    | 0 | 1 =>
      cases h
      rfl
    | _ + 2 => cases h
  owner := by decide

theorem distinct : EntityType.Distinct [type] where
  placed := List.forall_mem_singleton.2 type_placed
  apart := by simp

theorem shadowed : ∀ p ∈ type.properties, p.shadow = true := by
  decide

theorem type_fielded : type.Fielded .empty where
  placed := type_placed
  registry := Registry.sound_empty
  served p hp hp' := by cases (shadowed p hp).symm.trans hp'
  apart p hp q _ hp' := by cases (shadowed p hp).symm.trans hp'
  foreignKeys := List.forall_mem_nil _

theorem of_issued (code : Int8) (first second : List Sidecar) (g : Generators) :
    (issued code first second g).Of [type] :=
  List.forall_mem_cons.2 ⟨.head _, List.forall_mem_singleton.2 (.head _)⟩

theorem issued_configured {code : Int8}
    (hsecond : (session 1 fresh).materialize type [.tinyInt code, .tinyInt 0] =
      .ok (ticket 2 code [], session 2 fresh)) :
    (issued code [] [] fresh).Configured [type] := by
  have hstart : UnitOfWork.Configured [type] ⟨[], session 0 fresh⟩ :=
    ⟨some ⟨[type]⟩, .empty, [], fun _ _ => 0, session 0 fresh, rfl, .refl⟩
  have hfirst : (session 0 fresh).materialize type [.tinyInt 5, .tinyInt 0] =
      .ok (ticket 1 5 [], session 1 fresh) := rfl
  have hone : UnitOfWork.Configured [type] ⟨[ticket 1 5 []], session 1 fresh⟩ :=
    hstart.step (.materialize hfirst) (List.forall_mem_singleton.2 (.head _))
  exact hone.step (.materialize hsecond) (of_issued _ _ _ _)

/-- A ticket that got its number. -/
def numbered (n : Nat) (code number : Int8) : Entry :=
  { ticket n code [.baselineWith type.properties [(1, .tinyInt 0)]] with
    shadow := [.tinyInt code, .tinyInt number]
    state := .added }

/-- After the first ticket was added. -/
def first : Scope where
  entry := numbered 1 5 (-1)
  session := { session 2 (worn 1) with tracker := ⟨[(⟨1⟩, ⟨"Ticket", .added⟩)]⟩ }

/-- After the second one was added, too. -/
def second : Scope where
  entry := numbered 2 6 (-2)
  session :=
    { session 2 (worn 2) with
      tracker := ⟨[(⟨1⟩, ⟨"Ticket", .added⟩), (⟨2⟩, ⟨"Ticket", .added⟩)]⟩ }

/-- After adding the second one failed. -/
def missed : Scope where
  entry := ticket 2 0 [blind]
  session := session 2
    { worn 128 with
      chosen := (worn 128).chosen.add (⟨0⟩, 0) ⟨1⟩
      sources := [⟨.temporaryInteger, 128⟩, ⟨.temporaryInteger, 1⟩] }

/-- What it takes to add one of the tickets. -/
theorem adding {u : UnitOfWork} {n : Nat} {c : Int8} {sidecars : List Sidecar} {answer : Result Unit}
    {s : Scope} (hmem : ticket n c sidecars ∈ u.entries) (hplain : (ticket n c sidecars).Plain)
    (hregistry : u.session.registry = .empty) (hoverrides : u.session.generators.overrides = [])
    (hrun : perform (Action.setState .added) ⟨ticket n c sidecars, u.session⟩ = (answer, s))
    (hdrawn : ∀ p ∈ type.properties, s.session.generators.drawnFor type p ≤ 128) :
    u.Adding (ticket n c sidecars) answer s where
  mem := hmem
  unknown := rfl
  fielded := hregistry ▸ type_fielded
  plain := hplain
  supplied := by
    rw [EntityType.Supplied, hoverrides]
    exact List.forall_mem_cons.2
      ⟨fun _ => ⟨rfl, _, rfl⟩, List.forall_mem_singleton.2 fun _ => ⟨rfl, _, rfl⟩⟩
  run := hrun
  drawn p hp := Nat.le_trans (hdrawn p hp) (by decide)

theorem plain_blind (n : Nat) (c : Int8) : (ticket n c [blind]).Plain :=
  List.forall_mem_singleton.2 ⟨rfl, rfl⟩

theorem blind_configured : (issued 0 [blind] [blind] fresh).Configured [type] := by
  have hone : (issued 0 [blind] [] fresh).Configured [type] :=
    (issued_configured rfl).step (.act (e := ticket 1 5 []) (.head _) (.attach blind)) (of_issued _ _ _ _)
  exact hone.step (.act (e := ticket 2 0 []) (.tail _ (.head _)) (.attach blind)) (of_issued _ _ _ _)

/-- Adding the first ticket fails, whatever is drawn for its number. -/
theorem perform_setState_blind {n : Nat} (hn : n < ValueType.bigInt.negatives)
    (hdeclared : (ticket 1 5 [blind]).Declared) :
    ∃ err, perform (Action.setState .added) ⟨ticket 1 5 [blind], session 2 (worn n)⟩ =
      (.error err, ⟨ticket 1 5 [blind], session 2 (worn (n + 1))⟩) := by
  have hready : (ticket 1 5 [blind]).Ready := ⟨rfl, hdeclared, plain_blind 1 5⟩
  have hcode : perform (Action.generate code) ⟨ticket 1 5 [blind], session 2 (worn n)⟩ =
      (.ok (), ⟨ticket 1 5 [blind], session 2 (worn n)⟩) := rfl
  have hchoose : (worn n).choose type number = .ok (⟨0⟩, worn n) := rfl
  have hnext : (worn n).next ⟨0⟩ number =
      ((worn n).valueAt ⟨0⟩ .temporaryInteger n number, worn (n + 1)) := rfl
  have htype : number.valueType ≠ .json := by decide
  have hgenerator : Generators.builtIn? number.valueType = some .temporaryInteger := rfl
  have hnumber : ∃ err, perform (Action.generate number) ⟨ticket 1 5 [blind], session 2 (worn n)⟩ =
      (.error err, ⟨ticket 1 5 [blind], session 2 (worn (n + 1))⟩) := by
    rw [Action.perform_generate_of_draw ⟨rfl, .tinyInt 0, rfl, rfl⟩ hchoose hnext]
    rcases Generators.valueAt_builtIn (worn n) ⟨0⟩ hgenerator hn with
      ⟨-, text, hvalue⟩ | ⟨v, hvalue, hv⟩
    · exact ⟨_, by rw [hvalue]; rfl⟩
    · rw [hvalue]
      exact Action.perform_set_of_uncovered hready (.tail _ (.head _)) hv.coerced rfl
        (Property.keyEqual_of_isDefault htype rfl hv.notDefault) rfl
  obtain ⟨err, hnumber⟩ := hnumber
  have hproperties : (ticket 1 5 [blind]).type.properties = [code, number] := rfl
  have hrun : perform ((ticket 1 5 [blind]).type.properties.forM Action.generate)
      ⟨ticket 1 5 [blind], session 2 (worn n)⟩ =
        (.error err, ⟨ticket 1 5 [blind], session 2 (worn (n + 1))⟩) := by
    rw [hproperties, perform_forM_cons, perform_bind_of_ok hcode, perform_forM_cons,
      perform_bind_of_error hnumber]
  exact ⟨err, by rw [Action.perform_setState_added rfl, hrun]⟩

/-- However often that is tried, a number was drawn each time. -/
theorem worn_configured (n : Nat) (hn : n < ValueType.bigInt.negatives) :
    (issued 0 [blind] [blind] (worn (n + 1))).Configured [type] := by
  induction n with
  | zero =>
    exact blind_configured.step (.act (e := ticket 1 5 [blind]) (.head _) (.setState .added))
      (of_issued _ _ _ _)
  | succ n ih =>
    have hu := ih (Nat.lt_of_succ_lt hn)
    have hdeclared := declared_of_reachable (hu.builtIn distinct).1 (.head _) type_fielded
    obtain ⟨err, hrun⟩ := perform_setState_blind hn hdeclared
    have hstep := Step.setState (u := issued 0 [blind] [blind] (worn (n + 1))) (.head _) hrun
    exact hu.step hstep (of_issued _ _ _ _)

end Tickets

namespace UnitOfWork

variable {types : List EntityType} {u : UnitOfWork} {e : Entry} {s : Scope} {answer : Result Unit}

/-- **Values that are generated when entries are added.** Where adding an entry succeeds, no property
that the client generates has its default any more, the others and those that had another value keep
it, and no flag is set. The integers that properties are given, also where adding fails in the end, are
below zero, and no entry of the entity type that is to be added later is given the same one for the
property. Where the type of a property has no room for another integer, an entry that wants one is not
added. Nothing else makes adding fail, except that the value before a generated one may have to be
captured where there is no room for it. -/
theorem adding_generates (distinct : EntityType.Distinct types) (hu : u.Configured types)
    (h : u.Adding e answer s) :
    (answer = .ok () →
      s.entry.state = .added ∧ s.entry.modified = e.modified ∧
      (∀ p ∈ e.type.properties, p.clientGenerated = true →
        ∃ v, s.entry.get p = .ok v ∧ p.isDefault v = false) ∧
      (∀ p ∈ e.type.properties, ¬ e.Wants p → s.entry.get p = e.get p) ∧
      ∀ p ∈ e.type.properties, e.Wants p → p.valueType.isInteger = true → ∃ n, Generated e s p n) ∧
    (∀ p n, Generated e s p n → n < 0 ∧
      ∀ (u' : UnitOfWork) (e' : Entry) (answer' : Result Unit) (s' : Scope),
        (u.put s).Proceeds types u' → u'.Adding e' answer' s' → e'.type.id = e.type.id →
        ∀ p' n', Generated e' s' p' n' → p'.index = p.index → n ≠ n') ∧
    (∀ p ∈ e.type.properties, e.Wants p →
      p.valueType.Exhausted (u.session.generators.drawnFor e.type p) → ∃ err, answer = .error err) ∧
    ∀ err, answer = .error err → ∃ p ∈ e.type.properties, e.Wants p ∧
      (p.valueType.Exhausted (u.session.generators.drawnFor e.type p) ∧
          (∃ text, err = .type p.valueType.name text none) ∨
        e.baselineSidecar.covers p = false) := by
  have haddable := h.addable hu distinct
  have hspec := Action.add_spec distinct haddable h.run h.drawn
  refine ⟨?_, fun p n hn => ⟨?_, ?_⟩, fun p hp hwants hexhausted => ?_, fun err herr => ?_⟩
  · rintro rfl
    have hadds := h.adds hu distinct
    refine ⟨hadds.state, hadds.modified, fun p hp => hadds.not_default hp
      haddable.ready.declared.valid h.plain, hadds.kept, fun p hp hwants hinteger => ?_⟩
    obtain ⟨m, v, -, -, hv, hget⟩ := hadds.given p hp hwants
    exact ⟨-1 - (m : Int), hp, hwants, hinteger, v, hget, hv.notDefault, hv.integer hinteger⟩
  · obtain ⟨m, -, -, rfl⟩ := hn.exists_draw h hu distinct
    omega
  · intro u' e' answer' s' hproceeds h' hid p' n' hn' hindex
    exact h.generated_ne hu distinct hproceeds h' hid hn hn' hindex
  · rcases hspec with ⟨-, hadds⟩ | ⟨err, herr, -⟩
    · obtain ⟨m, v, hfirst, -, hv, -⟩ := hadds.given p hp hwants
      exact absurd (hexhausted.mono hfirst) hv.not_exhausted
    · exact ⟨err, herr⟩
  · rcases hspec with ⟨hok, -⟩ | ⟨_, herr', hstarves⟩
    · cases hok.symm.trans herr
    · cases herr.symm.trans herr'
      exact hstarves.reason

/-- Two tickets get different numbers. -/
theorem adding_generates_tickets :
    let u := Tickets.issued 6 [] [] Tickets.fresh
    u.Configured [Tickets.type] ∧ u.Adding (Tickets.ticket 1 5 []) (.ok ()) Tickets.first ∧
      (u.put Tickets.first).Adding (Tickets.ticket 2 6 []) (.ok ()) Tickets.second ∧
      ∃ n n', Generated (Tickets.ticket 1 5 []) Tickets.first Tickets.number n ∧
        Generated (Tickets.ticket 2 6 []) Tickets.second Tickets.number n' ∧ n ≠ n' := by
  intro u
  have hu : u.Configured [Tickets.type] := Tickets.issued_configured rfl
  have h : u.Adding (Tickets.ticket 1 5 []) (.ok ()) Tickets.first :=
    Tickets.adding (.head _) (List.forall_mem_nil _) rfl rfl rfl (by decide)
  have h' : (u.put Tickets.first).Adding (Tickets.ticket 2 6 []) (.ok ()) Tickets.second :=
    Tickets.adding (.tail _ (.head _)) (List.forall_mem_nil _) rfl rfl rfl (by decide)
  obtain ⟨-, hgenerated, -, -⟩ := adding_generates Tickets.distinct hu h
  have hn : Generated (Tickets.ticket 1 5 []) Tickets.first Tickets.number (-1) :=
    ⟨.tail _ (.head _), ⟨rfl, _, rfl, rfl⟩, rfl, _, rfl, rfl, rfl⟩
  have hn' : Generated (Tickets.ticket 2 6 []) Tickets.second Tickets.number (-2) :=
    ⟨.tail _ (.head _), ⟨rfl, _, rfl, rfl⟩, rfl, _, rfl, rfl, rfl⟩
  obtain ⟨-, happart⟩ := hgenerated _ _ hn
  exact ⟨hu, h, h', -1, -2, hn, hn', happart _ _ _ _ .refl h' rfl _ _ hn' rfl⟩

/-- The number of the second ticket has no room left, and still that is not what adding fails for: its
code comes first, and the sidecar for baseline values has no room for that. -/
theorem adding_fails_otherwise_tickets :
    let u := Tickets.issued 0 [Tickets.blind] [Tickets.blind] (Tickets.worn 128)
    let e := Tickets.ticket 2 0 [Tickets.blind]
    u.Configured [Tickets.type] ∧ Tickets.number ∈ e.type.properties ∧ e.Wants Tickets.number ∧
      Tickets.number.valueType.Exhausted (u.session.generators.drawnFor e.type Tickets.number) ∧
      ∃ err s, u.Adding e (.error err) s ∧ ∀ name text source, err ≠ .type name text source := by
  intro u e
  refine ⟨Tickets.worn_configured 127 (by decide), .tail _ (.head _), ⟨rfl, _, rfl, rfl⟩, by decide,
    .notFound .property "Code" (some "sidecar 'OriginalValues'"), Tickets.missed, ?_, nofun⟩
  exact Tickets.adding (.tail _ (.head _)) (Tickets.plain_blind 2 0) rfl rfl rfl (by decide)

end UnitOfWork

end EntityMapper
