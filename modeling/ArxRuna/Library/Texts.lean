import Mathlib.Algebra.BigOperators.Group.List.Basic
import Mathlib.Algebra.Order.Ring.Nat
import Mathlib.Data.List.Induction
import Mathlib.Data.List.Sort
import Mathlib.Tactic.Tauto
namespace ArxRuna.Library.Texts
variable {α : Type} [DecidableEq α] {sep : α} {a b text : List α}

def segments (sep : α) (text : List α) : List (List α) := (text.splitOn sep).filter (· ≠ [])

def join (sep : α) (pieces : List (List α)) : List α := [sep].intercalate pieces

def trimStart (sep : α) (text : List α) : List α := text.dropWhile (· = sep)

def trimEnd (sep : α) (text : List α) : List α := (trimStart sep text.reverse).reverse

def splitOnce (sep : α) : List α → Option (List α × List α)
  | [] => none
  | c :: rest => if c = sep then some ([],rest) else (splitOnce sep rest).map fun halves => (c :: halves.1,halves.2)

theorem splitOn_whole (text : List α) : ∀ piece ∈ text.splitOn sep, sep ∉ piece := by
  induction text with
  | nil => simp
  | cons c rest ih =>
    rw [List.splitOn_cons_eq_if_modifyHead]
    split
    · simpa using ih
    · rename_i other
      obtain ⟨first,later,split⟩ := List.exists_cons_of_ne_nil (List.splitOn_ne_nil sep rest)
      rw [split,List.forall_mem_cons] at ih
      rw [split,List.modifyHead_cons,List.forall_mem_cons]
      refine ⟨?_,ih.2⟩
      rw [List.mem_cons,not_or]
      exact ⟨fun same => other (beq_iff_eq.mpr same.symm),ih.1⟩

theorem segments_proper (text : List α) : ∀ piece ∈ segments sep text, piece ≠ [] ∧ sep ∉ piece := by
  intro piece member
  obtain ⟨split,filled⟩ := List.mem_filter.mp member
  exact ⟨by simpa using filled,splitOn_whole text piece split⟩

@[simp] theorem segments_nil : segments sep [] = [] := by
  simp [segments]

theorem segments_append (a b : List α) : segments sep (a ++ sep :: b) = segments sep a ++ segments sep b := by
  unfold segments
  rw [List.splitOn_append_cons_self,List.filter_append]

@[simp] theorem segments_lead : segments sep (sep :: b) = segments sep b := by
  have split : segments sep ([] ++ sep :: b) = _ := segments_append [] b
  simpa using split

theorem segments_trail (a : List α) : segments sep (a ++ [sep]) = segments sep a := by
  rw [segments_append,segments_nil,List.append_nil]

theorem segments_piece (whole : sep ∉ a) (filled : a ≠ []) : segments sep a = [a] := by
  unfold segments
  rw [List.splitOn_eq_singleton whole]
  simp [filled]

theorem segments_trimStart : segments sep (trimStart sep text) = segments sep text := by
  induction text with
  | nil => rfl
  | cons c rest ih =>
    by_cases lead : c = sep
    · subst lead
      rw [segments_lead,← ih]
      simp [trimStart]
    · simp [trimStart,lead]

theorem trimEnd_trail (a : List α) : trimEnd sep (a ++ [sep]) = trimEnd sep a := by
  simp [trimEnd,trimStart]

theorem trimEnd_clean (a : List α) (other : c ≠ sep) : trimEnd sep (a ++ [c]) = a ++ [c] := by
  simp [trimEnd,trimStart,other]

theorem trimEnd_piece (a : List α) (whole : sep ∉ piece) (filled : piece ≠ []) : trimEnd sep (a ++ piece) = a ++ piece := by
  obtain ⟨front,last,rfl⟩ := List.eq_nil_or_concat piece |>.resolve_left filled
  have other : last ≠ sep := by
    rintro rfl
    exact whole (by simp)
  rw [List.concat_eq_append,← List.append_assoc,trimEnd_clean _ other]

theorem trimStart_piece (whole : sep ∉ piece) : trimStart sep piece = piece := by
  cases piece with
  | nil => rfl
  | cons c rest =>
    rw [List.mem_cons,not_or] at whole
    simp [trimStart,Ne.symm whole.1]

omit [DecidableEq α] in
@[simp] theorem join_piece (piece : List α) : join sep [piece] = piece := by
  simp [join]

theorem segments_trimEnd (text : List α) : segments sep (trimEnd sep text) = segments sep text := by
  induction text using List.reverseRecOn with
  | nil => rfl
  | append_singleton rest c ih =>
    by_cases trail : c = sep
    · subst trail
      rw [trimEnd_trail,ih,segments_trail]
    · rw [trimEnd_clean _ trail]

theorem segments_join {pieces : List (List α)} (proper : ∀ piece ∈ pieces, piece ≠ [] ∧ sep ∉ piece) :
    segments sep (join sep pieces) = pieces := by
  by_cases empty : pieces = []
  · subst empty
    exact segments_nil
  · unfold segments join
    rw [List.splitOn_intercalate sep (fun piece member => (proper piece member).2) empty,List.filter_eq_self]
    intro piece member
    simpa using (proper piece member).1

theorem splitOnce_first (whole : sep ∉ a) : splitOnce sep (a ++ sep :: b) = some (a,b) := by
  induction a with
  | nil => simp [splitOnce]
  | cons c rest ih =>
    rw [List.mem_cons,not_or] at whole
    simp [splitOnce,Ne.symm whole.1,ih whole.2]

theorem splitOnce_parts (split : splitOnce sep text = some (a,b)) : text = a ++ sep :: b ∧ sep ∉ a := by
  induction text generalizing a with
  | nil => cases split
  | cons c rest ih =>
    unfold splitOnce at split
    split at split
    · rename_i here
      cases split
      exact ⟨by rw [here]; rfl,List.not_mem_nil⟩
    · rename_i other
      obtain ⟨⟨before,after⟩,later,same⟩ := Option.map_eq_some_iff.mp split
      cases same
      obtain ⟨whole,free⟩ := ih later
      refine ⟨by rw [whole]; rfl,?_⟩
      rw [List.mem_cons,not_or]
      exact ⟨Ne.symm other,free⟩

-- In a sorted listing an entry is among the first `n` exactly if fewer than `n`
-- entries come before it.
theorem mem_take_sorted {β : Type} [LE β] [LT β] [Std.IsLinearOrder β] [Std.LawfulOrderLT β] [DecidableLT β]
    {listing : List β} {entry : β} {n : Nat}
    (sorted : listing.Pairwise (· ≤ ·)) (member : entry ∈ listing) :
    entry ∈ listing.take n ↔ (listing.filter (· < entry)).length < n := by
  induction listing generalizing n with
  | nil => cases member
  | cons head rest ih =>
    obtain ⟨least,tail⟩ := List.pairwise_cons.mp sorted
    cases n with
    | zero => simp
    | succ n =>
      by_cases first : entry = head
      · have none_before : (head :: rest).filter (· < entry) = [] := by
          rw [List.filter_eq_nil_iff]
          intro other there
          rcases List.mem_cons.mp there with rfl | there
          · simpa [first] using Std.lt_irrefl
          · simpa [first] using Std.not_lt.mpr (least other there)
        rw [none_before]
        simp [first]
      · have later : entry ∈ rest := (List.mem_cons.mp member).resolve_left first
        have before : head < entry := Std.lt_of_le_of_ne (least entry later) (Ne.symm first)
        rw [List.take_succ_cons,List.mem_cons,ih tail later,List.filter_cons_of_pos (by simpa using before),
          List.length_cons]
        simp [first]

end ArxRuna.Library.Texts
