import Mathlib.Algebra.BigOperators.Group.List.Basic
import Mathlib.Algebra.Order.Ring.Nat
import Mathlib.Data.List.Induction
import Mathlib.Data.List.Sort
import Mathlib.Tactic.Tauto
namespace ArxRuna.Library.Packing
variable {α κ : Type*}

-- Greedy packing: an item opens a new bin when it would overfill a bin that
-- already holds something. An item above the capacity gets a bin of its own.
def greedy (weight : α → Nat) (capacity : Nat) : List α → List α → Nat → List (List α)
  | [], current, _ => if current.isEmpty then [] else [current]
  | item :: rest, current, size =>
    if capacity < size + weight item ∧ ¬ current.isEmpty then
      current :: greedy weight capacity rest [item] (weight item)
    else greedy weight capacity rest (current ++ [item]) (size + weight item)

theorem greedy_flatten (weight : α → Nat) (capacity : Nat) (items current : List α) (size : Nat) :
    (greedy weight capacity items current size).flatten = current ++ items := by
  induction items generalizing current size with
  | nil =>
    unfold greedy
    split
    · rename_i empty
      simp [List.isEmpty_iff.mp empty]
    · simp
  | cons item rest ih =>
    unfold greedy
    split
    · rw [List.flatten_cons,ih]
      simp
    · rw [ih]
      simp

def layoutStep (done : List α × List (κ × Nat × Nat)) (part : κ × List α) : List α × List (κ × Nat × Nat) :=
  (done.1 ++ part.2,done.2 ++ [(part.1,done.1.length,part.2.length)])

def layout (parts : List (κ × List α)) : List α × List (κ × Nat × Nat) := parts.foldl layoutStep ([],[])

def slice (offset length : Nat) (text : List α) : List α := (text.drop offset).take length

theorem layout_snoc (parts : List (κ × List α)) (part : κ × List α) :
    layout (parts ++ [part]) = layoutStep (layout parts) part := by
  simp [layout]

-- Every extent stays inside the text and cuts out the part it was made for,
-- whatever is padded after it.
theorem layout_extent {parts : List (κ × List α)} (member : (key,offset,length) ∈ (layout parts).2) :
    offset + length ≤ (layout parts).1.length ∧
    ∃ part, (key,part) ∈ parts ∧ length = part.length ∧ ∀ pad, slice offset length ((layout parts).1 ++ pad) = part := by
  induction parts using List.reverseRecOn with
  | nil => cases member
  | append_singleton parts last ih =>
    rw [layout_snoc] at member ⊢
    simp only [layoutStep,List.mem_append,List.mem_singleton,Prod.mk.injEq,List.length_append] at member ⊢
    rcases member with old | ⟨rfl,rfl,rfl⟩
    · obtain ⟨inside,part,found,size,cut⟩ := ih old
      refine ⟨by omega,part,.inl found,size,fun pad => ?_⟩
      rw [List.append_assoc]
      exact cut _
    · refine ⟨by omega,last.2,.inr rfl,rfl,fun pad => ?_⟩
      simp [slice]

theorem layout_part {parts : List (κ × List α)} (member : (key,part) ∈ parts) :
    ∃ offset, (key,offset,part.length) ∈ (layout parts).2 ∧
      ∀ pad, slice offset part.length ((layout parts).1 ++ pad) = part := by
  induction parts using List.reverseRecOn with
  | nil => cases member
  | append_singleton parts last ih =>
    rw [layout_snoc]
    simp only [layoutStep,List.mem_append,List.mem_singleton,Prod.mk.injEq] at member ⊢
    rcases member with old | new
    · obtain ⟨offset,found,cut⟩ := ih old
      refine ⟨offset,.inl found,fun pad => ?_⟩
      rw [List.append_assoc]
      exact cut _
    · cases new
      exact ⟨_,.inr ⟨rfl,rfl,rfl⟩,fun pad => by simp [slice]⟩

end ArxRuna.Library.Packing
