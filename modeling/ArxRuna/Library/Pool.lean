import Mathlib.Algebra.BigOperators.Group.List.Basic
import Mathlib.Algebra.Order.Ring.Nat
import Mathlib.Data.List.Induction
import Mathlib.Data.List.Sort
import Mathlib.Tactic.Tauto
namespace ArxRuna.Library.Pool
variable {σ : Type*} {pool : List σ} {p q : σ → Prop} {old new : σ}

-- A pool of tasks, each at its stage; a task is known by its place. One of them
-- moves from `old` to `new`.
theorem new_member (here : pool[t]? = some old) : new ∈ pool.set t new :=
  List.mem_set (List.getElem?_eq_some_iff.mp here).1 new

theorem exists_new (here : pool[t]? = some old) (holds : p new) : ∃ stage ∈ pool.set t new, p stage :=
  ⟨new,new_member here,holds⟩

theorem exists_kept (here : pool[t]? = some old) (kept : p old → p new) (found : ∃ stage ∈ pool, p stage) :
    ∃ stage ∈ pool.set t new, p stage := by
  obtain ⟨stage,member,holds⟩ := found
  obtain ⟨i,bound,there⟩ := List.getElem_of_mem member
  by_cases same : t = i
  · subst same
    rw [List.getElem?_eq_getElem bound,there,Option.some.injEq] at here
    exact ⟨new,List.mem_set bound new,kept (here ▸ holds)⟩
  · refine ⟨stage,List.mem_iff_getElem?.mpr ⟨i,?_⟩,holds⟩
    rw [List.getElem?_set_ne same,List.getElem?_eq_getElem bound,there]

theorem exists_back (ahead : p new → ∃ stage ∈ pool, p stage) (found : ∃ stage ∈ pool.set t new, p stage) :
    ∃ stage ∈ pool, p stage := by
  obtain ⟨stage,member,holds⟩ := found
  rcases List.mem_or_eq_of_mem_set member with before | rfl
  · exact ⟨stage,before,holds⟩
  · exact ahead holds

theorem forall_moved (all : ∀ stage ∈ pool, p stage) (holds : p new) : ∀ stage ∈ pool.set t new, p stage := by
  intro stage member
  rcases List.mem_or_eq_of_mem_set member with before | rfl
  · exact all stage before
  · exact holds

theorem count_moved (p : σ → Bool) (new : σ) (here : pool[t]? = some old) :
    (pool.set t new).countP p + (p old).toNat = pool.countP p + (p new).toNat := by
  obtain ⟨bound,there⟩ := List.getElem?_eq_some_iff.mp here
  have inside : (p old).toNat ≤ pool.countP p := by
    cases holds : p old with
    | false => exact Nat.zero_le _
    | true => exact List.countP_pos_iff.mpr ⟨old,there ▸ List.getElem_mem bound,holds⟩
  rw [List.countP_set bound,there]
  generalize pool.countP p = total at inside ⊢
  revert inside
  cases p old <;> cases p new <;> intro inside <;>
    simp only [Bool.toNat_true,Bool.toNat_false,Bool.false_eq_true,reduceIte] at inside ⊢ <;> omega

theorem exists_modified {change : σ → σ} (kept : ∀ old, pool[t]? = some old → p old → p (change old))
    (found : ∃ stage ∈ pool, p stage) : ∃ stage ∈ pool.modify t change, p stage := by
  obtain ⟨stage,member,holds⟩ := found
  obtain ⟨i,there⟩ := List.mem_iff_getElem?.mp member
  by_cases same : t = i
  · subst same
    refine ⟨change stage,List.mem_iff_getElem?.mpr ⟨t,?_⟩,kept stage there holds⟩
    rw [List.getElem?_modify,there]
    simp
  · refine ⟨stage,List.mem_iff_getElem?.mpr ⟨i,?_⟩,holds⟩
    rw [List.getElem?_modify,there]
    simp [same]

theorem exists_modified_back {change : σ → σ} (ahead : ∀ old, p (change old) → p old)
    (found : ∃ stage ∈ pool.modify t change, p stage) : ∃ stage ∈ pool, p stage := by
  obtain ⟨stage,member,holds⟩ := found
  obtain ⟨i,there⟩ := List.mem_iff_getElem?.mp member
  rw [List.getElem?_modify,Option.map_eq_map,Option.map_eq_some_iff] at there
  obtain ⟨old,before,rfl⟩ := there
  refine ⟨old,List.mem_of_getElem? before,?_⟩
  split at holds
  · exact ahead old holds
  · exact holds

theorem exists_snoc (found : ∃ stage ∈ pool, p stage) : ∃ stage ∈ pool ++ [new], p stage := by
  obtain ⟨stage,member,holds⟩ := found
  exact ⟨stage,List.mem_append_left _ member,holds⟩

theorem exists_snoc_back (fresh : ¬ p new) (found : ∃ stage ∈ pool ++ [new], p stage) : ∃ stage ∈ pool, p stage := by
  obtain ⟨stage,member,holds⟩ := found
  rcases List.mem_append.mp member with before | last
  · exact ⟨stage,before,holds⟩
  · exact absurd (List.mem_singleton.mp last ▸ holds) fresh

theorem forall_snoc (all : ∀ stage ∈ pool, p stage) (holds : p new) : ∀ stage ∈ pool ++ [new], p stage := by
  intro stage member
  rcases List.mem_append.mp member with before | last
  · exact all stage before
  · rw [List.mem_singleton.mp last]
    exact holds

end ArxRuna.Library.Pool
