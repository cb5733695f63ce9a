import Mathlib.Algebra.BigOperators.Group.List.Basic
import Mathlib.Algebra.Order.Ring.Nat
import Mathlib.Data.List.Induction
import Mathlib.Data.List.Sort
import Mathlib.Tactic.Tauto
namespace ArxRuna.Library.Framing

-- A format whose texts are frames one after the other: `next` reads the frame at the
-- head of a text, if there is one.
structure Frames (α ι : Type) where
  next : List α → Option (ι × List α)
  bytes : ι → List α
  next_bytes : ∀ {rest frame later}, next rest = some (frame,later) → rest = bytes frame ++ later
  bytes_nonempty : ∀ frame, bytes frame ≠ []

variable {α ι : Type} (f : Frames α ι)

theorem next_shorter (found : f.next rest = some (frame,later)) : later.length < rest.length := by
  rw [f.next_bytes found,List.length_append]
  have := List.length_pos_of_ne_nil (f.bytes_nonempty frame)
  omega

def Frames.parse (rest : List α) : List ι × List α :=
  match _ : f.next rest with
  | none => ([],rest)
  | some (frame,later) => (frame :: (Frames.parse later).1,(Frames.parse later).2)
termination_by rest.length
decreasing_by all_goals exact next_shorter f (by assumption)

def Frames.encode (frames : List ι) : List α := frames.flatMap f.bytes

def Frames.without (drops : ι → Bool) (rest : List α) : List α :=
  f.encode ((f.parse rest).1.filter (!drops ·)) ++ (f.parse rest).2

-- Some frames with some of the droppable ones left out.
inductive Thinned (drops : ι → Bool) : List ι → List ι → Prop where
  | done : Thinned drops [] []
  | keep (frame : ι) : Thinned drops frames left → Thinned drops (frame :: frames) (frame :: left)
  | drop : drops frame = true → Thinned drops frames left → Thinned drops (frame :: frames) left

def Frames.Spared (drops : ι → Bool) (rest text : List α) : Prop :=
  ∃ left, Thinned drops (f.parse rest).1 left ∧ text = f.encode left ++ (f.parse rest).2

variable {f} {rest later tail : List α} {frame : ι} {frames left : List ι} {drops : ι → Bool}

theorem thinned_refl (frames : List ι) : Thinned drops frames frames := by
  induction frames with
  | nil => exact .done
  | cons frame frames ih => exact .keep frame ih

end ArxRuna.Library.Framing
