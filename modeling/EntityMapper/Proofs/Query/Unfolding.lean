import EntityMapper.Proofs.Query.Pushdown
import Mathlib.Logic.Relation

/-!
# Unfolding tuples

An equality or inequality of two tuples says the same as the comparisons of their positions, joined by
conjunction or disjunction (`Expression.unfolded`). Pushing it down goes position by position as well,
and comes to the same as pushing down what it unfolds to (`Compilation.pushDown_unfolded`).

So one may think of pushing down as going on, step by step, to the sides of conjunctions and
disjunctions and to what tuples unfold to (`Expression.Next`). What tuples unfold to can be larger than
they are, and yet there is always a last step (`Expression.wellFounded_next`).
-/

namespace EntityMapper

namespace Expression

variable {op : Comparison} {l r e : Expression} {ls rs es : List Expression}

/-- The conjunction of two filters if tuples are to be equal, and else their disjunction. -/
def join (op : Comparison) (l r : Expression) : Expression :=
  if op = .equal then .both l r else .either l r

/-- The comparison of two tuples as the comparisons of their positions, if there are any. -/
def unfolded (op : Comparison) (ls rs : List Expression) : Option Expression :=
  match List.zipWith (.compare op) ls rs with
  | [] => none
  | e :: es => some (es.foldl (join op) e)

/-- What pushing down an expression goes on to. -/
inductive Next : Expression → Expression → Prop
  | bothLeft (l r : Expression) : Next l (.both l r)
  | bothRight (l r : Expression) : Next r (.both l r)
  | eitherLeft (l r : Expression) : Next l (.either l r)
  | eitherRight (l r : Expression) : Next r (.either l r)
  | unfold {op : Comparison} {ls rs : List Expression} {e : Expression} (hop : op.isEquality = true)
      (hlength : ls.length = rs.length) (he : unfolded op ls rs = some e) :
      Next e (.compare op (.tuple ls) (.tuple rs))

/-! ## There is a last step -/

theorem acc_join (op : Comparison) (hl : Acc Next l) (hr : Acc Next r) : Acc Next (join op l r) := by
  unfold join
  split
  all_goals
    refine .intro _ fun e he => ?_
    cases he with
    | _ => assumption

theorem acc_foldl_join (op : Comparison) (he : Acc Next e) (hes : ∀ e ∈ es, Acc Next e) :
    Acc Next (es.foldl (join op) e) := by
  induction es generalizing e with
  | nil => exact he
  | cons e' es ih =>
    obtain ⟨he', hes⟩ := List.forall_mem_cons.1 hes
    exact ih (acc_join op he he') hes

/-- Comparisons, by the recursion over nested tuples. -/
theorem acc_compare (op : Comparison) (l r : Expression) : Acc Next (.compare op l r) := by
  refine (Compilation.equality.mutual_induct (fun l r => Acc Next (.compare op l r))
    (fun ls rs => ∀ e ∈ List.zipWith (.compare op) ls rs, Acc Next e)
    ?tuples ?lengths ?others ?cons ?nil).1 l r
  case tuples =>
    intro ls rs _ ih
    refine .intro _ fun e he => ?_
    cases he with
    | unfold _ _ he =>
      unfold unfolded at he
      split at he
      · cases he
      · next heq =>
        cases he
        rw [heq] at ih
        obtain ⟨he, hes⟩ := List.forall_mem_cons.1 ih
        exact acc_foldl_join op he hes
  case lengths =>
    intro ls rs hlength
    refine .intro _ fun e he => ?_
    cases he with
    | unfold _ heq _ => exact absurd heq hlength
  case others =>
    intro l r h
    refine .intro _ fun e he => ?_
    cases he with
    | unfold => exact absurd rfl (h _ _ rfl)
  case cons =>
    intro l ls r rs ih ihs
    exact List.forall_mem_cons.2 ⟨ih, ihs⟩
  case nil =>
    intro ls rs h e he
    cases ls with
    | nil => cases he
    | cons l ls =>
      cases rs with
      | nil => cases he
      | cons r rs => exact (h l ls r rs rfl rfl).elim

theorem acc_next : ∀ e : Expression, Acc Next e
  | .compare op l r => acc_compare op l r
  | .both l r => by
    refine .intro _ fun e he => ?_
    cases he with
    | bothLeft => exact acc_next l
    | bothRight => exact acc_next r
  | .either l r => by
    refine .intro _ fun e he => ?_
    cases he with
    | eitherLeft => exact acc_next l
    | eitherRight => exact acc_next r
  | .source _ | .member _ _ | .constant _ | .tuple _ | .negation _ | .subquery _ | .call _ _ =>
    .intro _ fun e he => nomatch he

/-- **Pushing down comes to an end.** -/
theorem wellFounded_next : WellFounded Next :=
  ⟨acc_next⟩

end Expression

/-! ## Pushing down what tuples unfold to -/

namespace Compilation

open Expression (join unfolded)

variable {c : Compilation} {filter : Option SourceId} {op : Comparison} {l r e : Expression}
  {ls rs es : List Expression} {p q : Option Predicate} {ps : List (Option Predicate)}

theorem pushDown_compare (hop : op.isEquality = true) (l r : Expression) :
    c.pushDown filter (.compare op l r) = .ok (c.equality filter op l r) := by
  rw [pushDown, if_pos hop]

theorem pushDown_join (hl : c.pushDown filter l = .ok p) (hr : c.pushDown filter r = .ok q) :
    c.pushDown filter (join op l r) = .ok ((if op = .equal then narrow else widen) p q) := by
  unfold join
  split
  all_goals
    rw [pushDown, hl, hr]
    rfl

theorem pushDown_foldl_join (he : c.pushDown filter e = .ok p)
    (hes : List.Forall₂ (fun e p => c.pushDown filter e = .ok p) es ps) :
    c.pushDown filter (es.foldl (join op) e) =
      .ok (ps.foldl (if op = .equal then narrow else widen) p) := by
  induction hes generalizing e p with
  | nil => exact he
  | cons hfirst _ ih => exact ih (pushDown_join he hfirst)

theorem pushDown_positions (hop : op.isEquality = true) (ls rs : List Expression) :
    List.Forall₂ (fun e p => c.pushDown filter e = .ok p) (List.zipWith (.compare op) ls rs)
      (c.equalities filter op ls rs) := by
  induction ls generalizing rs with
  | nil => exact .nil
  | cons l ls ih =>
    cases rs with
    | nil => exact .nil
    | cons r rs => exact .cons (pushDown_compare hop l r) (ih rs)

/-- **Pushing down tuples** comes to pushing down what they unfold to. -/
theorem pushDown_unfolded (hop : op.isEquality = true) (hlength : ls.length = rs.length) :
    c.pushDown filter (.compare op (.tuple ls) (.tuple rs)) =
      (unfolded op ls rs).elim (.ok none) (c.pushDown filter) := by
  have hpositions : List.Forall₂ (fun e p => c.pushDown filter e = .ok p)
      (List.zipWith (.compare op) ls rs) (c.equalities filter op ls rs) :=
    pushDown_positions hop ls rs
  rw [pushDown_compare hop, equality, if_pos hlength, unfolded]
  generalize c.equalities filter op ls rs = ps at hpositions
  generalize List.zipWith (Expression.compare op) ls rs = es at hpositions
  cases hpositions with
  | nil => rfl
  | cons hfirst hrest => exact (pushDown_foldl_join hfirst hrest).symm

end Compilation

end EntityMapper
