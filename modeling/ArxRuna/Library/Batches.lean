import Mathlib.Algebra.BigOperators.Group.List.Basic
import Mathlib.Algebra.Order.Ring.Nat
import Mathlib.Data.List.Induction
import Mathlib.Data.List.Sort
import Mathlib.Tactic.Tauto
namespace ArxRuna.Library.Batches
variable {α : Type*} {good : α → Bool} {limit : Nat} {queue : List α} {x : α}

-- A queue is worked on from its head, a batch at a time: of the first `limit` items
-- the good ones go.
def round (good : α → Bool) (limit : Nat) (queue : List α) : List α :=
  (queue.take limit).filter (!good ·) ++ queue.drop limit

-- What stays for good: an item that is not good, and everything behind `limit` such
-- items.
def settled (good : α → Bool) : Nat → List α → List α
  | 0, queue => queue
  | _, [] => []
  | limit + 1, x :: rest => if good x then settled good (limit + 1) rest else x :: settled good limit rest

@[simp] theorem settled_zero : settled good 0 queue = queue := by
  cases queue <;> rfl

@[simp] theorem settled_nil : settled good limit [] = [] := by
  cases limit <;> rfl

theorem settled_good (holds : good x = true) : settled good (limit + 1) (x :: rest) = settled good (limit + 1) rest := by
  rw [settled,if_pos holds]

theorem settled_bad (fails : good x = false) : settled good (limit + 1) (x :: rest) = x :: settled good limit rest := by
  rw [settled,if_neg (by simp [fails])]

theorem settled_round (small : batch ≤ limit) : settled good limit (round good batch queue) = settled good limit queue := by
  induction queue generalizing batch limit with
  | nil => simp [round]
  | cons x rest ih =>
    cases batch with
    | zero => simp [round]
    | succ batch =>
      obtain ⟨limit,rfl⟩ := Nat.exists_eq_add_of_le' (Nat.lt_of_lt_of_le (Nat.succ_pos batch) small)
      have split : round good (batch + 1) (x :: rest) =
          if good x then round good batch rest else x :: round good batch rest := by
        unfold round
        cases holds : good x <;> simp [holds]
      rw [split]
      cases holds : good x with
      | true =>
        rw [if_pos rfl,settled_good holds]
        exact ih (by omega)
      | false =>
        rw [if_neg (by simp),settled_bad holds,settled_bad holds,ih (by omega)]

theorem settled_stuck (stuck : ∀ x ∈ queue.take limit, good x = false) : settled good limit queue = queue := by
  induction queue generalizing limit with
  | nil => exact settled_nil
  | cons x rest ih =>
    cases limit with
    | zero => exact settled_zero
    | succ limit =>
      rw [List.take_succ_cons,List.forall_mem_cons] at stuck
      rw [settled_bad stuck.1,ih stuck.2]

theorem mem_settled_split {front back : List α} : x ∈ settled good limit (front ++ x :: back) ↔
    x ∈ settled good limit front ∨ good x = false ∨ limit ≤ (front.filter (!good ·)).length ∨
      x ∈ settled good (limit - (front.filter (!good ·)).length) back := by
  induction front generalizing limit with
  | nil =>
    cases limit with
    | zero => simp
    | succ limit =>
      cases holds : good x with
      | true => simp [settled_good holds]
      | false => simp [settled_bad holds]
  | cons y front ih =>
    cases limit with
    | zero => simp
    | succ limit =>
      rw [List.cons_append]
      cases holds : good y with
      | true => simp [settled_good holds,ih,holds]
      | false =>
        rw [settled_bad holds,settled_bad holds,List.mem_cons,List.mem_cons,ih]
        simp [holds]
        tauto

theorem mem_of_settled (member : x ∈ settled good limit queue) : x ∈ queue := by
  induction queue generalizing limit with
  | nil => simp at member
  | cons y rest ih =>
    cases limit with
    | zero => simpa using member
    | succ limit =>
      cases holds : good y with
      | true =>
        rw [settled_good holds] at member
        exact List.mem_cons_of_mem _ (ih member)
      | false =>
        rw [settled_bad holds] at member
        rcases List.mem_cons.mp member with rfl | later
        · exact List.mem_cons_self
        · exact List.mem_cons_of_mem _ (ih later)

-- In a sorted queue without repetitions an item stays iff it is not good, or at
-- least `limit` items that are not good come before it.
theorem mem_settled {before : α → α → Prop} [DecidableRel before] [DecidableEq α]
    (sorted : queue.Pairwise before) (apart : queue.Nodup)
    (antisymm : ∀ a ∈ queue, ∀ b ∈ queue, before a b → before b a → a = b) (member : x ∈ queue) :
    x ∈ settled good limit queue ↔
      good x = false ∨ limit ≤ (queue.filter fun y => before y x ∧ y ≠ x ∧ good y = false).length := by
  obtain ⟨front,back,rfl⟩ := List.append_of_mem member
  rw [List.pairwise_append,List.pairwise_cons] at sorted
  obtain ⟨_,⟨after,_⟩,across⟩ := sorted
  rw [List.nodup_append,List.nodup_cons] at apart
  obtain ⟨_,⟨notBack,_⟩,disjoint⟩ := apart
  have notFront : x ∉ front := fun there => disjoint x there x List.mem_cons_self rfl
  have ahead : front.filter (fun y => before y x ∧ y ≠ x ∧ good y = false) = front.filter (!good ·) := by
    apply List.filter_congr
    intro y there
    have other : y ≠ x := fun same => notFront (same ▸ there)
    simp [across y there x List.mem_cons_self,other]
  have behind : back.filter (fun y => before y x ∧ y ≠ x ∧ good y = false) = [] := by
    rw [List.filter_eq_nil_iff]
    intro y there holds
    obtain ⟨below,other,_⟩ := of_decide_eq_true holds
    exact other (antisymm y (by simp [there]) x (by simp) below (after y there))
  rw [mem_settled_split,List.filter_append,ahead,List.filter_cons_of_neg (by simp),behind,List.append_nil]
  have gone : x ∉ settled good limit front := fun there => notFront (mem_of_settled there)
  have gone' {k : Nat} : x ∉ settled good k back := fun there => notBack (mem_of_settled there)
  simp [gone,gone']

end ArxRuna.Library.Batches
