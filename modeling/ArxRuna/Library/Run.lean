import Mathlib.Algebra.BigOperators.Group.List.Basic
import Mathlib.Algebra.Order.Ring.Nat
import Mathlib.Data.List.Induction
import Mathlib.Data.List.Sort
import Mathlib.Tactic.Tauto
namespace ArxRuna.Library.Run
variable {σ α : Type*}

-- A machine is a partial step function. `none` means that the action cannot be
-- taken in this state; an action that fails at run time is a step of its own.
def run (step : σ → α → Option σ) : σ → List α → Option σ
  | s, [] => some s
  | s, act :: rest =>
    match step s act with
    | none => none
    | some next => run step next rest

-- `Along` reads a property at every point of one run, the start included.
def Along (step : σ → α → Option σ) (P : σ → Prop) : σ → List α → Prop
  | s, [] => P s
  | s, act :: rest =>
    P s ∧ match step s act with
      | none => True
      | some next => Along step P next rest

-- `Guarded` reads a condition before every step of one run.
def Guarded (step : σ → α → Option σ) (ok : σ → α → Prop) : σ → List α → Prop
  | _, [] => True
  | s, act :: rest =>
    ok s act ∧ match step s act with
      | none => True
      | some next => Guarded step ok next rest

variable {step : σ → α → Option σ} {P Inv : σ → Prop} {ok : σ → α → Prop}

@[simp] theorem run_nil (s : σ) : run step s [] = some s := rfl

theorem run_cons (s : σ) (act : α) (rest : List α) :
    run step s (act :: rest) = (step s act).bind (run step · rest) := by
  simp only [run]
  cases step s act <;> rfl

theorem run_append (s : σ) (front back : List α) :
    run step s (front ++ back) = (run step s front).bind (run step · back) := by
  induction front generalizing s with
  | nil => rfl
  | cons act rest ih =>
    rw [List.cons_append,run_cons,run_cons]
    cases step s act with
    | none => rfl
    | some next => exact ih next

theorem along_start (along : Along step P s acts) : P s := by
  cases acts with
  | nil => exact along
  | cons act rest => exact along.1

theorem along_last (along : Along step P s acts) (ran : run step s acts = some last) : P last := by
  induction acts generalizing s with
  | nil => cases ran; exact along
  | cons act rest ih =>
    rw [run_cons] at ran
    obtain ⟨next,taken,later⟩ := Option.bind_eq_some_iff.mp ran
    obtain ⟨_,tail⟩ := along
    rw [taken] at tail
    exact ih tail later

theorem along_mono (weaker : ∀ s, P s → Q s) (along : Along step P s acts) : Along step Q s acts := by
  induction acts generalizing s with
  | nil => exact weaker s along
  | cons act rest ih =>
    obtain ⟨here,tail⟩ := along
    refine ⟨weaker s here,?_⟩
    cases taken : step s act with
    | none => trivial
    | some next => rw [taken] at tail; exact ih tail

theorem along_invariant (preserves : ∀ s act next, Inv s → step s act = some next → Inv next)
    (start : Inv s) : Along step Inv s acts := by
  induction acts generalizing s with
  | nil => exact start
  | cons act rest ih =>
    refine ⟨start,?_⟩
    cases taken : step s act with
    | none => trivial
    | some next => exact ih (preserves s act next start taken)

-- The invariant rule for runs whose steps all meet the condition.
theorem along_guarded (preserves : ∀ s act next, Inv s → ok s act → step s act = some next → Inv next)
    (start : Inv s) (guarded : Guarded step ok s acts) : Along step Inv s acts := by
  induction acts generalizing s with
  | nil => exact start
  | cons act rest ih =>
    obtain ⟨allowed,tail⟩ := guarded
    refine ⟨start,?_⟩
    cases taken : step s act with
    | none => trivial
    | some next =>
      rw [taken] at tail
      exact ih (preserves s act next start allowed taken) tail

theorem guarded_cons (allowed : ok s act) (taken : step s act = some next)
    (later : Guarded step ok next rest) : Guarded step ok s (act :: rest) := by
  refine ⟨allowed,?_⟩
  rw [taken]
  exact later

theorem guarded_last (allowed : ok s act) : Guarded step ok s [act] := by
  refine ⟨allowed,?_⟩
  cases step s act <;> trivial

theorem guarded_of_actions (all : ∀ act ∈ acts, ∀ s, ok s act) : Guarded step ok s acts := by
  induction acts generalizing s with
  | nil => trivial
  | cons act rest ih =>
    refine ⟨all act List.mem_cons_self s,?_⟩
    cases step s act with
    | none => trivial
    | some next => exact ih fun act member => all act (List.mem_cons_of_mem _ member)

-- A condition met by every step of a run gives every other that it implies where
-- the invariant holds.
theorem guarded_mono (weaker : ∀ s act, P s → ok s act → ok' s act)
    (preserves : ∀ s act next, P s → ok s act → step s act = some next → P next)
    (start : P s) (guarded : Guarded step ok s acts) : Guarded step ok' s acts := by
  induction acts generalizing s with
  | nil => trivial
  | cons act rest ih =>
    obtain ⟨allowed,tail⟩ := guarded
    refine ⟨weaker s act start allowed,?_⟩
    cases taken : step s act with
    | none => trivial
    | some next =>
      rw [taken] at tail
      exact ih (preserves s act next start allowed taken) tail

-- Where every step outside the condition breaks the property at once, the
-- condition is exact: the property holds at every point of a run iff every step
-- of the run meets the condition.
theorem along_iff_guarded (implies : ∀ s, Inv s → P s)
    (preserves : ∀ s act next, Inv s → ok s act → step s act = some next → Inv next)
    (breaks : ∀ s act next, Inv s → ¬ ok s act → step s act = some next → ¬ P next)
    (start : Inv s) (ran : run step s acts = some last) :
    Along step P s acts ↔ Guarded step ok s acts := by
  constructor
  · intro along
    induction acts generalizing s with
    | nil => trivial
    | cons act rest ih =>
      rw [run_cons] at ran
      obtain ⟨next,taken,later⟩ := Option.bind_eq_some_iff.mp ran
      obtain ⟨_,tail⟩ := along
      rw [taken] at tail
      have allowed : ok s act := by
        by_contra refused
        exact breaks s act next start refused taken (along_start tail)
      refine ⟨allowed,?_⟩
      rw [taken]
      exact ih (preserves s act next start allowed taken) later tail
  · intro guarded
    exact along_mono implies (along_guarded preserves start guarded)

end ArxRuna.Library.Run
