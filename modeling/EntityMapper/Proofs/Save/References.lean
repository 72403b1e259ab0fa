import EntityMapper.Proofs.Save.Planning
import Mathlib.Data.List.Perm.Subperm
import Mathlib.Logic.Relation

/-!
# The order of a plan and foreign keys

A store with foreign keys wants the row that others refer to before them: it is inserted first and
deleted last. A plan orders commands by the number of entity types that each refers to directly
(`Plan.pairwise_commands`). That is an order for foreign keys exactly where an entity type has more
principals than each of these has (`Plan.respectsReferences_iff`), as when it refers to all that its
principals refer to (`Plan.respectsReferences_of_subset`). In a chain of references all types
but the first have one principal, and then the order of the input decides
(`Plan.respectsReferences_iff_chain`).
-/

namespace EntityMapper

/-! ## Principals -/

namespace EntityType

variable {t p : EntityType} {id : EntityTypeId} {ids : List EntityTypeId}

/-- A foreign key of an entity type refers to another one. -/
def RefersTo (t p : EntityType) : Prop :=
  p.id ≠ t.id ∧ ∃ fk ∈ t.foreignKeys, fk.principal.owner = p.id

instance (t p : EntityType) : Decidable (t.RefersTo p) :=
  inferInstanceAs (Decidable (_ ∧ _))

theorem mem_insertId {other : EntityTypeId} :
    other ∈ insertId id ids ↔ other = id ∨ other ∈ ids := by
  induction ids with
  | nil => simp [insertId]
  | cons head rest ih =>
    unfold insertId
    split
    · simp
    · split
      · rename_i heq
        simp [heq]
      · simp only [List.mem_cons, ih]
        tauto

/-- Identities in ascending order stay so, each once. -/
theorem pairwise_insertId (id : EntityTypeId) (h : ids.Pairwise fun a b => a.number < b.number) :
    (insertId id ids).Pairwise fun a b => a.number < b.number := by
  induction ids with
  | nil => exact List.pairwise_singleton ..
  | cons head rest ih =>
    obtain ⟨hhead, hrest⟩ := List.pairwise_cons.1 h
    unfold insertId
    split
    · rename_i hlt
      refine List.pairwise_cons.2 ⟨fun other hother => ?_, h⟩
      rcases List.mem_cons.1 hother with rfl | hother
      · exact hlt
      · exact Nat.lt_trans hlt (hhead other hother)
    · split
      · exact h
      · rename_i hlt hne
        have hnumber : head.number ≠ id.number := fun heq =>
          hne (by cases id; cases head; exact congrArg _ heq.symm)
        refine List.pairwise_cons.2 ⟨fun other hother => ?_, ih hrest⟩
        rcases mem_insertId.1 hother with rfl | hother
        · omega
        · exact hhead other hother

theorem foldl_insertId (new : List EntityTypeId) (h : ids.Pairwise fun a b => a.number < b.number) :
    (new.foldl (fun ids id => insertId id ids) ids).Pairwise (fun a b => a.number < b.number) ∧
      ∀ id, id ∈ new.foldl (fun ids id => insertId id ids) ids ↔ id ∈ new ∨ id ∈ ids := by
  induction new generalizing ids with
  | nil => exact ⟨h, fun id => by simp⟩
  | cons head new ih =>
    obtain ⟨hsorted, hmem⟩ := ih (pairwise_insertId head h)
    refine ⟨hsorted, fun id => (hmem id).trans ?_⟩
    rw [mem_insertId, List.mem_cons]
    tauto

theorem nodup_principals (t : EntityType) : t.principals.Nodup :=
  (foldl_insertId _ List.Pairwise.nil).1.imp fun hlt heq => by
    rw [heq] at hlt
    exact Nat.lt_irrefl _ hlt

theorem mem_principals : p.id ∈ t.principals ↔ t.RefersTo p := by
  refine ((foldl_insertId _ List.Pairwise.nil).2 p.id).trans ?_
  simp only [List.mem_filter, List.mem_map, List.not_mem_nil, or_false, bne_iff_ne, RefersTo]
  tauto

theorem not_refersTo_self : ¬ t.RefersTo t := fun h => h.1 rfl

end EntityType

/-- No entity type refers to itself through others. -/
def Model.Acyclic (m : Model) : Prop :=
  ∀ t ∈ m.types, ¬ Relation.TransGen (fun t p => p ∈ m.types ∧ t.RefersTo p) t t

/-- References that lead down in some numbering form no cycle. -/
theorem Model.acyclic_of_lt {m : Model} (rank : EntityType → Nat)
    (h : ∀ t ∈ m.types, ∀ p ∈ m.types, t.RefersTo p → rank p < rank t) : m.Acyclic := by
  intro t ht hcycle
  have hdown : ∀ p, Relation.TransGen (fun t p => p ∈ m.types ∧ t.RefersTo p) t p →
      p ∈ m.types ∧ rank p < rank t := by
    intro p hpath
    induction hpath with
    | single hstep => exact ⟨hstep.1, h t ht _ hstep.1 hstep.2⟩
    | tail _ hstep ih =>
      obtain ⟨hmem, hlt⟩ := ih
      exact ⟨hstep.1, Nat.lt_trans (h _ hmem _ hstep.1 hstep.2) hlt⟩
  exact Nat.lt_irrefl _ (hdown t hcycle).2

/-! ## The order of commands -/

/-- No row is inserted before one of an entity type that its own refers to, and none is deleted
before one of an entity type that refers to its own. -/
def RespectsReferences (commands : List Command) : Prop :=
  commands.Pairwise fun a b =>
    (a.operation = .insert → b.operation = .insert → ¬ a.entityType.RefersTo b.entityType) ∧
    (a.operation = .delete → b.operation = .delete → ¬ b.entityType.RefersTo a.entityType)

namespace Plan

variable {commands : List Command} {c : Command}

section

variable (r : Nat → Nat → Prop) [DecidableRel r]

theorem dependencies_trans [IsTrans Nat r] (a b c : Command)
    (hab : decide (r (dependencies a) (dependencies b)))
    (hbc : decide (r (dependencies b) (dependencies c))) :
    decide (r (dependencies a) (dependencies c)) :=
  decide_eq_true (IsTrans.trans _ _ _ (of_decide_eq_true hab) (of_decide_eq_true hbc))

theorem dependencies_total [Std.Total r] (a b : Command) :
    decide (r (dependencies a) (dependencies b)) || decide (r (dependencies b) (dependencies a)) := by
  rcases total_of r (dependencies a) (dependencies b) with h | h <;> simp [h]

/-- Commands that are sorted by their numbers of principals are in this order. -/
theorem pairwise_mergeSort [IsTrans Nat r] [Std.Total r] (commands : List Command) :
    (commands.mergeSort fun a b => decide (r (dependencies a) (dependencies b))).Pairwise
      fun a b => r (dependencies a) (dependencies b) :=
  (List.pairwise_mergeSort (dependencies_trans r) (dependencies_total r) commands).imp
    of_decide_eq_true

end

theorem pairwise_inserts (commands : List Command) :
    (ofCommands commands).inserts.Pairwise fun a b => dependencies a ≤ dependencies b :=
  pairwise_mergeSort (· ≤ ·) _

theorem pairwise_deletes (commands : List Command) :
    (ofCommands commands).deletes.Pairwise fun a b => dependencies b ≤ dependencies a :=
  pairwise_mergeSort (· ≥ ·) _

theorem operation_of_mem_inserts (h : c ∈ (ofCommands commands).inserts) :
    c.operation = .insert := by
  have hmem := (List.mergeSort_perm _ _).mem_iff.1 h
  exact of_decide_eq_true (List.mem_filter.1 hmem).2

theorem operation_of_mem_deletes (h : c ∈ (ofCommands commands).deletes) :
    c.operation = .delete := by
  have hmem := (List.mergeSort_perm _ _).mem_iff.1 h
  exact of_decide_eq_true (List.mem_filter.1 hmem).2

theorem operation_of_mem_updates (h : c ∈ (ofCommands commands).updates) :
    c.operation = .update :=
  of_decide_eq_true (List.mem_filter.1 h).2

/-- The order of a plan: inserts by ascending numbers of principals, deletes by descending ones. -/
theorem pairwise_commands (commands : List Command) :
    (ofCommands commands).commands.Pairwise fun a b =>
      (a.operation = .insert → b.operation = .insert → dependencies a ≤ dependencies b) ∧
      (a.operation = .delete → b.operation = .delete → dependencies b ≤ dependencies a) := by
  refine List.pairwise_append.2
    ⟨List.pairwise_append.2 ⟨?deletes, ?inserts, ?between⟩, ?updates, ?last⟩
  case deletes =>
    refine (pairwise_deletes commands).imp_of_mem fun ha _ hle => ⟨fun hop => ?_, fun _ _ => hle⟩
    cases (operation_of_mem_deletes ha).symm.trans hop
  case inserts =>
    refine (pairwise_inserts commands).imp_of_mem fun ha _ hle => ⟨fun _ _ => hle, fun hop => ?_⟩
    cases (operation_of_mem_inserts ha).symm.trans hop
  case between =>
    intro a ha b hb
    refine ⟨fun hop => ?_, fun _ hop => ?_⟩
    · cases (operation_of_mem_deletes ha).symm.trans hop
    · cases (operation_of_mem_inserts hb).symm.trans hop
  case updates =>
    refine List.pairwise_of_forall_mem_list fun a ha b _ => ⟨fun hop => ?_, fun hop => ?_⟩
    all_goals cases (operation_of_mem_updates ha).symm.trans hop
  case last =>
    intro a _ b hb
    refine ⟨fun _ hop => ?_, fun _ hop => ?_⟩
    all_goals cases (operation_of_mem_updates hb).symm.trans hop

/-- A plan respects references to entity types with fewer principals. -/
theorem respectsReferences_of_lt {m : Model}
    (h : ∀ t ∈ m.types, ∀ p ∈ m.types, t.RefersTo p → p.principals.length < t.principals.length)
    (htypes : ∀ c ∈ commands, c.entityType ∈ m.types) :
    RespectsReferences (ofCommands commands).commands := by
  have hmem : ∀ c ∈ (ofCommands commands).commands, c.entityType ∈ m.types := fun c hc =>
    htypes c ((commands_perm commands).mem_iff.1 hc)
  refine (pairwise_commands commands).imp_of_mem fun {a b} ha hb ⟨hinsert, hdelete⟩ => ⟨?_, ?_⟩
  · intro hopa hopb hrefers
    have hlt := h _ (hmem a ha) _ (hmem b hb) hrefers
    exact Nat.not_le.2 hlt (hinsert hopa hopb)
  · intro hopa hopb hrefers
    have hlt := h _ (hmem b hb) _ (hmem a ha) hrefers
    exact Nat.not_le.2 hlt (hdelete hopa hopb)

/-- An entity type that refers to all that one of its principals refers to has more principals. -/
theorem length_principals_lt {t p : EntityType} (h : t.RefersTo p)
    (hsub : p.principals ⊆ t.principals) : p.principals.length < t.principals.length := by
  have hnodup : (p.id :: p.principals).Nodup :=
    List.nodup_cons.2 ⟨fun hself =>
      EntityType.not_refersTo_self (EntityType.mem_principals.1 hself), p.nodup_principals⟩
  have hincluded : p.id :: p.principals ⊆ t.principals :=
    List.cons_subset.2 ⟨EntityType.mem_principals.2 h, hsub⟩
  exact (List.subperm_of_subset hnodup hincluded).length_le

/-- A plan respects references where each entity type refers to all that its principals refer to. -/
theorem respectsReferences_of_subset {m : Model}
    (h : ∀ t ∈ m.types, ∀ p ∈ m.types, t.RefersTo p → p.principals ⊆ t.principals)
    (htypes : ∀ c ∈ commands, c.entityType ∈ m.types) :
    RespectsReferences (ofCommands commands).commands :=
  respectsReferences_of_lt (fun t ht p hp hrefers =>
    length_principals_lt hrefers (h t ht p hp hrefers)) htypes

/-- An insert of a row of an entity type. -/
def insertOf (t : EntityType) : Command :=
  ⟨⟨0⟩, t, .insert, []⟩

/-- **The order of a plan and foreign keys.** All plans for the entity types of a model respect
their references exactly where an entity type has more principals than each of these has. -/
theorem respectsReferences_iff (m : Model) :
    (∀ commands : List Command, (∀ c ∈ commands, c.entityType ∈ m.types) →
      RespectsReferences (ofCommands commands).commands) ↔
    ∀ t ∈ m.types, ∀ p ∈ m.types, t.RefersTo p → p.principals.length < t.principals.length := by
  constructor
  · intro hplans t ht p hp hrefers
    by_contra hge
    -- With no more principals than `p`, an insert for `t` stays before one for `p`.
    have hsorted : [insertOf t, insertOf p].Pairwise fun a b => dependencies a ≤ dependencies b :=
      List.pairwise_pair.2 (Nat.not_lt.1 hge)
    have hinserts : ∀ c ∈ [insertOf t, insertOf p], c.operation = .insert := by
      intro c hc
      rcases List.mem_pair.1 hc with rfl | rfl <;> rfl
    have hplan := hplans [insertOf t, insertOf p] fun c hc => by
      rcases List.mem_pair.1 hc with rfl | rfl
      · exact ht
      · exact hp
    rw [ofCommands_of_inserts hinserts hsorted] at hplan
    exact (List.pairwise_pair.1 hplan).1 rfl rfl hrefers
  · exact fun hmore commands htypes => respectsReferences_of_lt hmore htypes

end Plan

/-! ## An example -/

namespace Blogs

/-- The key of an entity type, or its reference to another row. -/
def number (owner index : Nat) : Property where
  name := "Id"
  owner := ⟨owner⟩
  ownerName := ""
  index := index
  valueType := .bigInt
  nullable := false
  shadow := true
  concurrencyToken := false
  clientGenerated := false
  storeGeneration := .never
  column := none
  tableKey := none

/-- A key of one property. -/
def keyAt (owner index : Nat) : Key :=
  ⟨number owner index, [], List.forall_mem_nil _⟩

/-- An entity type with a reference to each of some others. -/
def typeWith (id : Nat) (name : String) (others : List Nat) : EntityType where
  id := ⟨id⟩
  name := name
  properties := number id 0 :: others.mapIdx fun i _ => number id (i + 1)
  key := some (keyAt id 0)
  foreignKeys := others.mapIdx fun i other => ⟨keyAt other 0, keyAt id (i + 1), rfl⟩

/-- Comments refer to posts, and posts to blogs. -/
def chain : Model :=
  ⟨[typeWith 0 "Blog" [], typeWith 1 "Post" [0], typeWith 2 "Comment" [1]]⟩

end Blogs

namespace Plan

theorem respectsReferences_iff_chain : Blogs.chain.Acyclic ∧
    ¬ ∀ commands : List Command, (∀ c ∈ commands, c.entityType ∈ Blogs.chain.types) →
      RespectsReferences (ofCommands commands).commands := by
  refine ⟨Model.acyclic_of_lt (·.id.number) (by decide), fun hplans => ?_⟩
  have hmore := (respectsReferences_iff Blogs.chain).1 hplans
  -- A comment refers to a post, and both have one principal.
  exact absurd hmore (by decide)

end Plan

end EntityMapper
