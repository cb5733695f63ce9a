import Mathlib.Algebra.BigOperators.Group.List.Basic
import Mathlib.Algebra.Order.Ring.Nat
import Mathlib.Data.List.Induction
import Mathlib.Data.List.Sort
import Mathlib.Tactic.Tauto
namespace ArxRuna.Library.Chunking
variable {α : Type*} {size : Nat}

-- Parts of one size, the last one possibly shorter. No part is empty.
def chunks (size : Nat) (text : List α) : List (List α) :=
  if size = 0 ∨ text = [] then [] else text.take size :: chunks size (text.drop size)
termination_by text.length
decreasing_by
  rename_i more
  obtain ⟨positive,full⟩ := not_or.mp more
  have := List.length_pos_of_ne_nil full
  rw [List.length_drop]
  omega

@[simp] theorem chunks_nil : chunks size ([] : List α) = [] := by
  rw [chunks,if_pos (.inr rfl)]

theorem chunks_cons (positive : 0 < size) {text : List α} (full : text ≠ []) :
    chunks size text = text.take size :: chunks size (text.drop size) := by
  have more : ¬ (size = 0 ∨ text = []) := by
    intro ended
    rcases ended with zero | empty
    · omega
    · exact full empty
  rw [chunks,if_neg more]

theorem chunks_empty (positive : 0 < size) {text : List α} : chunks size text = [] ↔ text = [] := by
  constructor
  · intro none
    by_contra full
    rw [chunks_cons positive full] at none
    cases none
  · intro empty
    rw [empty,chunks_nil]

-- Every text is empty or a first part with the chunks of the rest after it.
theorem chunks_induction (positive : 0 < size) {motive : List α → Prop} (empty : motive [])
    (more : ∀ text, text ≠ [] → motive (text.drop size) → motive text) (text : List α) : motive text := by
  induction sized : text.length using Nat.strongRecOn generalizing text with
  | _ length ih =>
    by_cases full : text = []
    · rw [full]
      exact empty
    · have := List.length_pos_of_ne_nil full
      refine more text full (ih (text.drop size).length ?_ _ rfl)
      rw [List.length_drop]
      omega

theorem chunks_flatten (positive : 0 < size) (text : List α) : (chunks size text).flatten = text := by
  induction text using chunks_induction positive with
  | empty => rw [chunks_nil,List.flatten_nil]
  | more text full ih => rw [chunks_cons positive full,List.flatten_cons,ih,List.take_append_drop]

theorem chunks_length (positive : 0 < size) (text : List α) :
    (chunks size text).length = (text.length + size - 1) / size := by
  induction text using chunks_induction positive with
  | empty =>
    rw [chunks_nil,List.length_nil,List.length_nil,Nat.zero_add,Nat.div_eq_of_lt (by omega)]
  | more text full ih =>
    have some := List.length_pos_of_ne_nil full
    rw [chunks_cons positive full,List.length_cons,ih,List.length_drop]
    by_cases last : text.length ≤ size
    · have one : (text.length + size - 1) / size = 1 := by
        refine Nat.div_eq_of_lt_le ?_ ?_ <;> omega
      rw [one,Nat.div_eq_of_lt (by omega)]
    · have split : text.length + size - 1 = (text.length - size + size - 1) + size := by omega
      rw [split,Nat.add_div_right _ positive]

theorem chunks_get (positive : 0 < size) {text : List α} {i : Nat} (found : (chunks size text)[i]? = some part) :
    part = (text.drop (i * size)).take size ∧ i * size < text.length := by
  induction i generalizing text with
  | zero =>
    by_cases full : text = []
    · rw [full,chunks_nil] at found
      cases found
    · rw [chunks_cons positive full] at found
      cases found
      rw [Nat.zero_mul,List.drop_zero]
      exact ⟨rfl,List.length_pos_of_ne_nil full⟩
  | succ i ih =>
    by_cases full : text = []
    · rw [full,chunks_nil] at found
      cases found
    · rw [chunks_cons positive full,List.getElem?_cons_succ] at found
      obtain ⟨same,within⟩ := ih found
      rw [List.length_drop] at within
      rw [same,List.drop_drop,Nat.add_mul,Nat.one_mul,Nat.add_comm size]
      exact ⟨rfl,by omega⟩

-- What a part at one place of a text contributes to the window from `start` up
-- to, and without, `stop`.
def window (size start stop place : Nat) (part : List α) : List α :=
  (part.take (stop - place * size)).drop (start - place * size)

-- Only the last part may be shorter than the size.
def Filled (size : Nat) : List (List α) → Prop
  | [] => True
  | part :: rest => (part.length = size ∨ rest = [] ∧ part.length ≤ size) ∧ Filled size rest

theorem filled_short {parts : List (List α)} (filled : Filled size parts) : ∀ part ∈ parts, part.length ≤ size := by
  induction parts with
  | nil => simp
  | cons part rest ih =>
    intro other member
    rcases List.mem_cons.mp member with rfl | later
    · rcases filled.1 with full | ⟨_,short⟩
      · exact le_of_eq full
      · exact short
    · exact ih filled.2 other later

theorem filled_places {parts : List (List α)}
    (full : ∀ i (within : i < parts.length), i + 1 ≠ parts.length → parts[i].length = size)
    (last : ∀ part ∈ parts, part.length ≤ size) : Filled size parts := by
  induction parts with
  | nil => trivial
  | cons part rest ih =>
    refine ⟨?_,ih ?_ ?_⟩
    · by_cases none : rest = []
      · exact .inr ⟨none,last part List.mem_cons_self⟩
      · have more := List.length_pos_of_ne_nil none
        exact .inl (full 0 (by simp) (by rw [List.length_cons]; omega))
    · intro i within before
      exact full (i + 1) (by rw [List.length_cons]; omega) (by rw [List.length_cons]; omega)
    · intro other member
      exact last other (List.mem_cons_of_mem _ member)

theorem filled_length {parts : List (List α)} (filled : Filled size (parts ++ [last])) :
    (parts ++ [last]).flatten.length = parts.length * size + last.length := by
  induction parts with
  | nil => simp
  | cons part rest ih =>
    have full : part.length = size := by
      rcases filled.1 with full | ⟨none,_⟩
      · exact full
      · simp at none
    rw [List.cons_append,List.flatten_cons,List.length_append,ih filled.2,full,List.length_cons,Nat.add_mul,Nat.one_mul]
    omega

theorem windows_flatten {parts : List (List α)} (filled : Filled size parts) :
    ((parts.zipIdx place).map fun indexed => window size start stop indexed.2 indexed.1).flatten =
      window size start stop place parts.flatten := by
  induction parts generalizing place with
  | nil => simp [window]
  | cons part rest ih =>
    have next : (place + 1) * size = place * size + size := by rw [Nat.add_mul,Nat.one_mul]
    rw [List.zipIdx_cons,List.map_cons,List.flatten_cons,List.flatten_cons,ih filled.2]
    rcases filled.1 with full | ⟨rfl,_⟩
    · unfold window
      have later : stop - (place * size + size) = stop - place * size - size := by omega
      rw [next,later,List.take_append,List.drop_append,full,List.length_take,full]
      congr 1
      by_cases beyond : stop ≤ place * size + size
      · have none : stop - place * size - size = 0 := by omega
        rw [none]
        simp
      · congr 1
        omega
    · simp [window]

theorem window_before {part : List α} (short : part.length ≤ size) (before : (place + 1) * size ≤ start) :
    window size start stop place part = [] := by
  rw [Nat.add_mul,Nat.one_mul] at before
  apply List.drop_eq_nil_of_le
  rw [List.length_take]
  omega

theorem window_after {part : List α} (after : stop ≤ place * size) : window size start stop place part = [] := by
  rw [window,Nat.sub_eq_zero_of_le after,List.take_zero,List.drop_nil]

-- Between the place of the first position and that of the last one lies all of a
-- window.
theorem windows_between {parts : List (List α)} {first last : Nat} (filled : Filled size parts)
    (early : first * size ≤ start) (late : stop ≤ (last + 1) * size) (order : first ≤ last) :
    (((((parts.zipIdx).map fun indexed => window size start stop indexed.2 indexed.1).drop first).take
      (last - first + 1))).flatten = window size start stop 0 parts.flatten := by
  let windows := (parts.zipIdx).map fun indexed => window size start stop indexed.2 indexed.1
  have at_place (i : Nat) (within : i < windows.length) :
      ∃ part ∈ parts, windows[i] = window size start stop i part := by
    have inside : i < parts.length := by simpa [windows] using within
    exact ⟨parts[i],List.getElem_mem _,by simp [windows]⟩
  have front : (windows.take first).flatten = [] := by
    rw [List.flatten_eq_nil_iff]
    intro piece member
    obtain ⟨i,within,rfl⟩ := List.mem_iff_getElem.mp member
    rw [List.length_take] at within
    obtain ⟨part,there,same⟩ := at_place i (by omega)
    rw [List.getElem_take,same]
    apply window_before (filled_short filled part there)
    have := Nat.mul_le_mul_right size (show i + 1 ≤ first by omega)
    omega
  have back : ((windows.drop first).drop (last - first + 1)).flatten = [] := by
    rw [List.flatten_eq_nil_iff]
    intro piece member
    obtain ⟨i,within,rfl⟩ := List.mem_iff_getElem.mp member
    rw [List.length_drop,List.length_drop] at within
    obtain ⟨part,there,same⟩ := at_place (first + (last - first + 1 + i)) (by omega)
    rw [List.getElem_drop,List.getElem_drop,same]
    apply window_after
    have := Nat.mul_le_mul_right size (show last + 1 ≤ first + (last - first + 1 + i) by omega)
    omega
  have whole : ((parts.zipIdx 0).map fun indexed => window size start stop indexed.2 indexed.1).flatten =
      window size start stop 0 parts.flatten := windows_flatten filled
  have cut : windows = windows.take first ++ ((windows.drop first).take (last - first + 1) ++
      (windows.drop first).drop (last - first + 1)) := by
    rw [List.take_append_drop,List.take_append_drop]
  rw [← whole]
  change _ = windows.flatten
  rw [cut,List.flatten_append,List.flatten_append,front,back,List.nil_append,List.append_nil]

end ArxRuna.Library.Chunking
