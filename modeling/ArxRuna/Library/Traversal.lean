import Mathlib.Algebra.BigOperators.Group.List.Basic
import Mathlib.Algebra.Order.Ring.Nat
import Mathlib.Data.List.Induction
import Mathlib.Data.List.Sort
import Mathlib.Logic.Hydra
import Mathlib.Tactic.Tauto
namespace ArxRuna.Library.Traversal
open Relation
variable {α : Type*} {children : α → List α}

-- A recursive query that keeps duplicates: each row taken from the queue is
-- returned and its children are queued behind the others. `none` is a walk that
-- has not come to an end.
def traverse (children : α → List α) : Nat → List α → Option (List α)
  | _, [] => some []
  | 0, _ :: _ => none
  | fuel + 1, row :: queue => (traverse children fuel (queue ++ children row)).map (row :: ·)

def Child (children : α → List α) (above below : α) : Prop := below ∈ children above

-- Replacing a row by its children goes down in the order of cut and expand.
theorem traverse_ends_of_acc {queue : List α}
    (ends : Acc (CutExpand (Function.swap (Child children))) (queue : Multiset α)) :
    ∃ fuel rows, traverse children fuel queue = some rows := by
  generalize same : (queue : Multiset α) = rows at ends
  induction ends generalizing queue with
  | intro rows _ ih =>
    subst same
    cases queue with
    | nil => exact ⟨0,[],rfl⟩
    | cons row queue =>
      have cut : CutExpand (Function.swap (Child children)) ((queue ++ children row : List α) : Multiset α)
          ((row :: queue : List α) : Multiset α) := by
        refine ⟨(children row : Multiset α),row,fun below member => member,?_⟩
        rw [← Multiset.coe_add,add_comm _ ({row} : Multiset α),Multiset.singleton_add,← Multiset.cons_add,
          Multiset.cons_coe]
      obtain ⟨fuel,found,ended⟩ := ih _ cut rfl
      exact ⟨fuel + 1,row :: found,by rw [traverse,ended,Option.map_some]⟩

-- Where every child ranks above its parent and no rank exceeds the bound, every
-- walk comes to an end.
theorem traverse_ends {rank : α → Nat} {bound : Nat}
    (ranked : ∀ above below, below ∈ children above → rank above < rank below ∧ rank below ≤ bound)
    (queue : List α) : ∃ fuel rows, traverse children fuel queue = some rows := by
  have apart (x : α) : x ∉ children x := fun member => lt_irrefl _ (ranked x x member).1
  have irreflexive : Std.Irrefl (Function.swap (Child children)) := ⟨apart⟩
  have measured : WellFounded (Function.swap (Child children)) := by
    refine Subrelation.wf (fun {below above} member => ?_) (measure fun x => bound - rank x).wf
    obtain ⟨higher,bounded⟩ := ranked above below member
    change bound - rank below < bound - rank above
    omega
  apply traverse_ends_of_acc
  exact acc_of_singleton fun row _ => (measured.apply row).cutExpand

theorem mem_traverse (ended : traverse children fuel queue = some rows) :
    x ∈ rows ↔ ∃ row ∈ queue, ReflTransGen (Child children) row x := by
  induction fuel generalizing queue rows with
  | zero =>
    cases queue with
    | nil =>
      cases ended
      simp
    | cons row queue => cases ended
  | succ fuel ih =>
    cases queue with
    | nil =>
      cases ended
      simp
    | cons row queue =>
      rw [traverse,Option.map_eq_some_iff] at ended
      obtain ⟨later,walked,rfl⟩ := ended
      rw [List.mem_cons,ih walked]
      constructor
      · rintro (rfl | ⟨start,member,path⟩)
        · exact ⟨x,List.mem_cons_self,.refl⟩
        · rcases List.mem_append.mp member with old | below
          · exact ⟨start,List.mem_cons_of_mem _ old,path⟩
          · exact ⟨row,List.mem_cons_self,.head below path⟩
      · rintro ⟨start,member,path⟩
        rcases List.mem_cons.mp member with rfl | old
        · rcases path.cases_head with same | ⟨below,child,onward⟩
          · exact .inl same.symm
          · exact .inr ⟨below,List.mem_append_right _ child,onward⟩
        · exact .inr ⟨start,List.mem_append_left _ old,path⟩

end ArxRuna.Library.Traversal
