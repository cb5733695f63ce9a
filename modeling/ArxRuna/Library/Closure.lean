import Mathlib.Algebra.BigOperators.Group.List.Basic
import Mathlib.Algebra.Order.Ring.Nat
import Mathlib.Data.List.Induction
import Mathlib.Data.List.Sort
import Mathlib.Tactic.Tauto
namespace ArxRuna.Library.Closure
open Relation
variable {α : Type*} [DecidableEq α]

-- A finite relation as a list of (source, target) pairs.
abbrev Edges (α : Type*) := List (α × α)

def Linked (edges : Edges α) (source target : α) : Prop := (source,target) ∈ edges

def spread (edges : Edges α) (seen : List α) : List α :=
  seen ++ (edges.filter fun edge => edge.1 ∈ seen ∧ edge.2 ∉ seen).map Prod.snd

def saturate (edges : Edges α) : Nat → List α → List α
  | 0, seen => seen
  | fuel + 1, seen => saturate edges fuel (spread edges seen)

-- One round per edge is enough: every round that adds something uses an edge up.
def closure (edges : Edges α) (seen : List α) : List α :=
  saturate edges edges.length seen

def Closed (edges : Edges α) (seen : List α) : Prop :=
  ∀ edge ∈ edges, edge.1 ∈ seen → edge.2 ∈ seen

def pending (edges : Edges α) (seen : List α) : Nat :=
  (edges.filter fun edge => edge.2 ∉ seen).length

theorem mem_spread {edges : Edges α} {seen : List α} :
    x ∈ spread edges seen ↔ x ∈ seen ∨ ∃ source ∈ seen, Linked edges source x := by
  simp only [spread,List.mem_append,List.mem_map,List.mem_filter,decide_eq_true_eq,Linked]
  constructor
  · rintro (old | ⟨⟨source,target⟩,⟨member,found,_⟩,rfl⟩)
    · exact .inl old
    · exact .inr ⟨source,found,member⟩
  · rintro (old | ⟨source,found,member⟩)
    · exact .inl old
    · rcases Classical.em (x ∈ seen) with old | new
      · exact .inl old
      · exact .inr ⟨(source,x),⟨member,found,new⟩,rfl⟩

theorem spread_of_closed {edges : Edges α} (closed : Closed edges seen) : spread edges seen = seen := by
  have none : (edges.filter fun edge => edge.1 ∈ seen ∧ edge.2 ∉ seen) = [] := by
    rw [List.filter_eq_nil_iff]
    intro edge member
    have := closed edge member
    simp only [decide_eq_true_eq,not_and,not_not]
    exact this
  simp only [spread,none,List.map_nil,List.append_nil]

theorem saturate_of_closed {edges : Edges α} (closed : Closed edges seen) :
    saturate edges fuel seen = seen := by
  induction fuel with
  | zero => rfl
  | succ fuel ih => rw [saturate,spread_of_closed closed,ih]

theorem pending_spread_lt {edges : Edges α} (opened : ¬ Closed edges seen) :
    pending edges (spread edges seen) < pending edges seen := by
  simp only [Closed,not_forall] at opened
  obtain ⟨edge,member,found,missing⟩ := opened
  have added : edge.2 ∈ spread edges seen := mem_spread.mpr (.inr ⟨edge.1,found,member⟩)
  have nested : (edges.filter fun other => other.2 ∉ spread edges seen)
      = (edges.filter fun other => other.2 ∉ seen).filter fun other => other.2 ∉ spread edges seen := by
    rw [List.filter_filter]
    refine List.filter_congr fun other _ => ?_
    have kept : other.2 ∈ seen → other.2 ∈ spread edges seen := fun old => mem_spread.mpr (.inl old)
    simpa [Bool.decide_and] using fun fresh => fun old => fresh (kept old)
  unfold pending
  rw [nested]
  exact List.length_filter_lt_length_iff_exists.mpr
    ⟨edge,List.mem_filter.mpr ⟨member,by simpa using missing⟩,by simpa using added⟩

theorem saturate_closed {edges : Edges α} (enough : pending edges seen ≤ fuel) :
    Closed edges (saturate edges fuel seen) := by
  induction fuel generalizing seen with
  | zero =>
    intro edge member _
    have empty : (edges.filter fun edge => edge.2 ∉ seen) = [] := List.length_eq_zero_iff.mp (by
      simpa [pending] using enough)
    have := List.filter_eq_nil_iff.mp empty edge member
    simpa [saturate] using this
  | succ fuel ih =>
    rcases Classical.em (Closed edges seen) with closed | opened
    · rw [saturate,spread_of_closed closed,saturate_of_closed closed]
      exact closed
    · have := pending_spread_lt opened
      exact ih (by omega)

theorem closure_closed (edges : Edges α) (seen : List α) : Closed edges (closure edges seen) :=
  saturate_closed (List.length_filter_le _ _)

theorem saturate_start {edges : Edges α} (old : x ∈ seen) : x ∈ saturate edges fuel seen := by
  induction fuel generalizing seen with
  | zero => exact old
  | succ fuel ih => exact ih (mem_spread.mpr (.inl old))

theorem saturate_reached {edges : Edges α} (member : x ∈ saturate edges fuel seen) :
    ∃ source ∈ seen, ReflTransGen (Linked edges) source x := by
  induction fuel generalizing seen with
  | zero => exact ⟨x,member,.refl⟩
  | succ fuel ih =>
    obtain ⟨source,found,path⟩ := ih member
    rcases mem_spread.mp found with old | ⟨earlier,old,link⟩
    · exact ⟨source,old,path⟩
    · exact ⟨earlier,old,.head link path⟩

theorem mem_closure {edges : Edges α} :
    x ∈ closure edges seen ↔ ∃ source ∈ seen, ReflTransGen (Linked edges) source x := by
  constructor
  · exact saturate_reached
  · rintro ⟨source,old,path⟩
    induction path with
    | refl => exact saturate_start old
    | tail _ link ih => exact closure_closed edges seen _ link ih

end ArxRuna.Library.Closure
