import ArxRuna.Library.Fallible
import Mathlib.Data.List.AList
namespace ArxRuna.Library.Rewrite
open Fallible
variable {κ ν ε : Type} [DecidableEq κ]

-- A table is a list of rows with distinct keys.
abbrev Table (κ ν : Type) := AList fun _ : κ => ν

-- Reads all rows first, then rewrites them one by one. `none` leaves a row as it
-- is; the first failure ends the traversal.
def rewriteRows (f : κ → ν → Except ε (Option ν)) (rows : List (Σ _ : κ, ν)) (table : Table κ ν) :
    Except ε (Table κ ν) :=
  rows.foldlM (fun table row => do
    match ← f row.1 row.2 with
    | none => .ok table
    | some value => .ok (table.insert row.1 value)) table

def rewriteAll (f : κ → ν → Except ε (Option ν)) (table : Table κ ν) : Except ε (Table κ ν) :=
  rewriteRows f table.entries table

variable {f : κ → ν → Except ε (Option ν)}

theorem rewrite_rows_cons : rewriteRows f (⟨k,v⟩ :: rest) table = .ok last ↔
    ∃ found, f k v = .ok found ∧
      rewriteRows f rest (match found with | none => table | some value => table.insert k value) = .ok last := by
  rw [rewriteRows,List.foldlM_cons]
  simp only [bind_ok]
  constructor
  · rintro ⟨next,⟨found,here,put⟩,later⟩
    refine ⟨found,here,?_⟩
    cases found with
    | none => cases put; exact later
    | some value => cases put; exact later
  · rintro ⟨found,here,later⟩
    cases found with
    | none => exact ⟨table,⟨none,here,rfl⟩,later⟩
    | some value => exact ⟨table.insert k value,⟨some value,here,rfl⟩,later⟩

theorem rewrite_rows_other {rows : List (Σ _ : κ, ν)} {table last : Table κ ν} (other : ∀ row ∈ rows, row.1 ≠ k)
    (rewritten : rewriteRows f rows table = .ok last) : last.lookup k = table.lookup k := by
  induction rows generalizing table with
  | nil => cases rewritten; rfl
  | cons row rest ih =>
    obtain ⟨found,_,later⟩ := rewrite_rows_cons.mp rewritten
    rw [ih (fun row member => other row (List.mem_cons_of_mem _ member)) later]
    cases found with
    | none => rfl
    | some value => exact AList.lookup_insert_ne (other row List.mem_cons_self).symm

theorem rewrite_rows_lookup {rows : List (Σ _ : κ, ν)} {table last : Table κ ν} (distinct : rows.NodupKeys)
    (there : ∀ row ∈ rows, table.lookup row.1 = some row.2) (rewritten : rewriteRows f rows table = .ok last)
    (member : ⟨k,v⟩ ∈ rows) : ∃ found, f k v = .ok found ∧ last.lookup k = some (found.getD v) := by
  induction rows generalizing table with
  | nil => cases member
  | cons row rest ih =>
    obtain ⟨found,here,later⟩ := rewrite_rows_cons.mp rewritten
    obtain ⟨fresh,distinct⟩ := List.nodupKeys_cons.mp distinct
    have apart : ∀ other ∈ rest, other.1 ≠ row.1 := fun other inside same =>
      fresh (same ▸ List.mem_map_of_mem inside)
    rcases List.mem_cons.mp member with same | inside
    · cases same
      refine ⟨found,here,?_⟩
      rw [rewrite_rows_other apart later]
      cases found with
      | none => exact there _ List.mem_cons_self
      | some value => exact AList.lookup_insert table
    · refine ih distinct (fun other inside => ?_) later inside
      cases found with
      | none => exact there other (List.mem_cons_of_mem _ inside)
      | some value =>
        rw [AList.lookup_insert_ne (apart other inside)]
        exact there other (List.mem_cons_of_mem _ inside)

theorem mem_entries {table : Table κ ν} : ⟨k,v⟩ ∈ table.entries ↔ table.lookup k = some v :=
  AList.mem_lookup_iff.symm

theorem rewrite_lookup {table last : Table κ ν} (rewritten : rewriteAll f table = .ok last)
    (there : table.lookup k = some v) : ∃ found, f k v = .ok found ∧ last.lookup k = some (found.getD v) :=
  rewrite_rows_lookup table.nodupKeys (fun _ member => mem_entries.mp member) rewritten (mem_entries.mpr there)

theorem rewrite_rows_total {rows : List (Σ _ : κ, ν)} {table : Table κ ν} :
    (∃ last, rewriteRows f rows table = .ok last) ↔ ∀ row ∈ rows, ∃ found, f row.1 row.2 = .ok found := by
  induction rows generalizing table with
  | nil => exact ⟨fun _ row member => absurd member List.not_mem_nil,fun _ => ⟨table,rfl⟩⟩
  | cons row rest ih =>
    constructor
    · rintro ⟨last,rewritten⟩ other member
      obtain ⟨found,here,later⟩ := rewrite_rows_cons.mp rewritten
      rcases List.mem_cons.mp member with rfl | inside
      · exact ⟨found,here⟩
      · exact ih.mp ⟨last,later⟩ other inside
    · intro each
      obtain ⟨found,here⟩ := each row List.mem_cons_self
      obtain ⟨last,later⟩ := ih.mpr fun other inside => each other (List.mem_cons_of_mem _ inside)
      exact ⟨last,rewrite_rows_cons.mpr ⟨found,here,later⟩⟩

theorem rewrite_total {table : Table κ ν} :
    (∃ last, rewriteAll f table = .ok last) ↔ ∀ k v, table.lookup k = some v → ∃ found, f k v = .ok found := by
  rw [rewriteAll,rewrite_rows_total]
  constructor
  · intro each k v there
    exact each ⟨k,v⟩ (mem_entries.mpr there)
  · intro each row member
    exact each row.1 row.2 (mem_entries.mp member)

end ArxRuna.Library.Rewrite
