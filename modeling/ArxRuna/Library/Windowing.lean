import ArxRuna.Library.Run
namespace ArxRuna.Library.Windowing
open Library.Run
variable {α ρ : Type*}

-- A machine whose states are seen through `f` runs as the one it stands for.
theorem run_through {σ τ β γ : Type*} {step : σ → γ → Option σ} {shown : τ → β → Option τ} {f : σ → τ} {g : β → γ}
    (same : ∀ s event, shown (f s) event = (step s (g event)).map f) (s : σ) (events : List β) :
    run shown (f s) events = (run step s (events.map g)).map f := by
  induction events generalizing s with
  | nil => rfl
  | cons event rest ih =>
    rw [List.map_cons,run_cons,run_cons,same]
    cases step s (g event) with
    | none => rfl
    | some next => exact ih next

variable [DecidableEq α]

-- A list of tasks is worked off through a window: some are started at once, and a
-- completion may start the next one. Tasks complete in any order.
structure Window (α ρ : Type*) where
  waiting : List α
  flying : List α
  ended : List (α × ρ)

def Window.opened (limit : Nat) (tasks : List α) : Window α ρ := ⟨tasks.drop limit,tasks.take limit,[]⟩

-- `goesOn` reads everything that has ended, the last completion included.
def Window.complete (goesOn : List (α × ρ) → Bool) (w : Window α ρ) (event : α × ρ) : Option (Window α ρ) :=
  if event.1 ∈ w.flying then
    if goesOn (w.ended ++ [event]) then
      some ⟨w.waiting.drop 1,w.flying.erase event.1 ++ w.waiting.take 1,w.ended ++ [event]⟩
    else some ⟨w.waiting,w.flying.erase event.1,w.ended ++ [event]⟩
  else none

-- The tasks started are the front of the list; each of them is in flight or has
-- ended, once.
structure Worked (limit : Nat) (tasks : List α) (goesOn : List (α × ρ) → Bool) (w : Window α ρ) : Prop where
  accounted : ∃ started, started ++ w.waiting = tasks ∧ (w.flying ++ w.ended.map (·.1)).Perm started
  narrow : w.flying.length ≤ limit
  busy : w.flying = [] → goesOn w.ended = true → w.waiting = []

variable {limit : Nat} {tasks : List α} {goesOn : List (α × ρ) → Bool} {w next : Window α ρ}

omit [DecidableEq α] in
theorem opened_worked (room : 0 < limit) : Worked limit tasks goesOn (Window.opened limit tasks) := by
  refine ⟨⟨tasks.take limit,List.take_append_drop limit tasks,?_⟩,?_,fun idle _ => ?_⟩
  · simp [Window.opened]
  · simp [Window.opened]
  · rcases List.take_eq_nil_iff.mp idle with zero | empty
    · omega
    · simp [Window.opened,empty]

theorem complete_some {event : α × ρ} (completed : w.complete goesOn event = some next) :
    event.1 ∈ w.flying ∧ next.ended = w.ended ++ [event] := by
  unfold Window.complete at completed
  split at completed
  · rename_i flying
    split at completed <;> cases completed <;> exact ⟨flying,rfl⟩
  · cases completed

theorem erase_ended {event : α × ρ} (flying : event.1 ∈ w.flying) :
    (w.flying.erase event.1 ++ (w.ended ++ [event]).map (·.1)).Perm (w.flying ++ w.ended.map (·.1)) := by
  rw [List.map_append,← List.append_assoc]
  refine List.perm_append_comm.trans ?_
  apply List.Perm.append_right (w.ended.map (·.1)) (List.perm_cons_erase flying).symm

theorem complete_worked {event : α × ρ} (worked : Worked limit tasks goesOn w)
    (completed : w.complete goesOn event = some next) : Worked limit tasks goesOn next := by
  obtain ⟨started,whole,same⟩ := worked.accounted
  obtain ⟨flying,_⟩ := complete_some completed
  have fewer : (w.flying.erase event.1).length + 1 = w.flying.length := by
    rw [List.length_erase_of_mem flying]
    have := List.length_pos_of_mem flying
    omega
  have narrow := worked.narrow
  unfold Window.complete at completed
  rw [if_pos flying] at completed
  split at completed
  · cases completed
    refine ⟨⟨started ++ w.waiting.take 1,?_,?_⟩,?_,fun idle _ => ?_⟩
    · rw [List.append_assoc,List.take_append_drop,whole]
    · dsimp only
      rw [List.append_assoc]
      refine (List.perm_append_comm_assoc _ _ _).trans ?_
      refine List.perm_append_comm.trans ?_
      exact ((erase_ended flying).trans same).append_right _
    · simp only [List.length_append,List.length_take]
      omega
    · have none := (List.append_eq_nil_iff.mp idle).2
      rcases List.take_eq_nil_iff.mp none with zero | empty
      · cases zero
      · simp [empty]
  · rename_i stopped
    cases completed
    refine ⟨⟨started,whole,(erase_ended flying).trans same⟩,by dsimp only; omega,fun _ goes => ?_⟩
    exact absurd goes stopped

theorem run_worked (room : 0 < limit) {events : List (α × ρ)}
    (ran : run (Window.complete goesOn) (Window.opened limit tasks) events = some w) :
    Worked limit tasks goesOn w ∧ w.ended = events := by
  have step : ∀ (s : Window α ρ) event next, Worked limit tasks goesOn s →
      s.complete goesOn event = some next → Worked limit tasks goesOn next :=
    fun _ _ _ worked completed => complete_worked worked completed
  refine ⟨along_last (along_invariant step (opened_worked room)) ran,?_⟩
  have ended : ∀ (events : List (α × ρ)) (s t : Window α ρ), run (Window.complete goesOn) s events = some t →
      t.ended = s.ended ++ events := by
    intro events
    induction events with
    | nil =>
      intro s t ran
      cases ran
      simp
    | cons event rest ih =>
      intro s t ran
      rw [run_cons] at ran
      obtain ⟨next,completed,later⟩ := Option.bind_eq_some_iff.mp ran
      rw [ih next t later,(complete_some completed).2,List.append_assoc,List.singleton_append]
  simpa [Window.opened] using ended events _ w ran

omit [DecidableEq α] in
-- A window that has run dry and would go on has worked off the whole list.
theorem worked_dry (worked : Worked limit tasks goesOn w) (idle : w.flying = []) (goes : goesOn w.ended = true) :
    (w.ended.map (·.1)).Perm tasks := by
  obtain ⟨started,whole,same⟩ := worked.accounted
  rw [worked.busy idle goes,List.append_nil] at whole
  rw [idle,List.nil_append,whole] at same
  exact same

omit [DecidableEq α] in
theorem worked_once [BEq α] (worked : Worked limit tasks goesOn w) :
    (∀ task, (w.flying ++ w.ended.map (·.1)).count task ≤ tasks.count task) ∧
      w.flying.length + w.ended.length ≤ tasks.length := by
  obtain ⟨started,whole,same⟩ := worked.accounted
  subst whole
  constructor
  · intro task
    rw [same.count_eq,List.count_append]
    exact Nat.le_add_right _ _
  · have counted := same.length_eq
    simp only [List.length_append,List.length_map] at counted ⊢
    omega

end ArxRuna.Library.Windowing
