import ArxRuna.Session.Tasks
namespace ArxRuna.Session.Lifecycle
open Library.Run Library.Pool Tasks
open Backoff (LifecycleState)
variable {s core next : State} {t e : Nat} {old new stage : Stage} {timer changed : Timer} {outcome : Outcome}

-- An install that has marked the session active opens the gate next.
def opening : Stage → Bool
  | .openGate _ => true
  | _ => false

-- A lock that has closed the gate and will mark the session expired.
def locking : Stage → Bool
  | .lockCancelTimer | .waitIdle | .takeSession | .takeConf | .clearSession | .expire => true
  | _ => false

-- An expiry that has closed the gate and that nothing stops any more.
def closing (timer : Timer) : Bool :=
  !timer.aborted && (timer.stage = .waiting || timer.stage = .takeConf || timer.stage = .clearSession ||
    timer.stage = .expire)

-- Between its write of the lifecycle and its opening of the gate.
def Opening (s : State) : Prop := ∃ stage ∈ s.tasks, opening stage

def GateExplained (s : State) : Prop := gateClosed s.gateAndCounter = true →
  s.lifecycle ≠ .active ∨ (∃ stage ∈ s.tasks, opening stage ∨ locking stage) ∨ ∃ timer ∈ s.timers, closing timer

-- No restart aborts an expiry that has closed the gate, an aborted timer does not
-- go on to close it, and the counter has room for the operation it counts.
def GateOrderly (s : State) : Action → Prop
  | .task t _ =>
    match s.tasks[t]? with
    | some (.cancelTimer _) => ∀ e, s.timer = some e → ∀ timer, s.timers[e]? = some timer → closing timer = false
    | some (.exchange loaded) => loaded ≠ counterMask
    | _ => True
  | .timer e => ∀ timer, s.timers[e]? = some timer → timer.stage = .sleeping → timer.aborted = false
  | _ => True

def loadedOpen : Stage → Prop
  | .exchange loaded => gateClosed loaded = false
  | _ => True

structure GateInvariant (s : State) : Prop where
  law : GateExplained s
  loaded : ∀ stage ∈ s.tasks, loadedOpen stage

theorem gate_stays (inv : GateInvariant s) (here : s.tasks[t]? = some old)
    (keeps : opening old ∨ locking old → opening new ∨ locking new) (opened : loadedOpen new)
    (gate : core.gateAndCounter = s.gateAndCounter) (lifecycle : core.lifecycle = s.lifecycle)
    (tasks : core.tasks = s.tasks)
    (timers : (∃ timer ∈ s.timers, closing timer) → ∃ timer ∈ core.timers, closing timer) :
    GateInvariant (core.move t new) := by
  refine ⟨fun closed => ?_,?_⟩
  · rw [State.move] at closed ⊢
    rcases inv.law (gate ▸ closed) with inactive | task | timer
    · exact .inl (lifecycle ▸ inactive)
    · refine .inr (.inl ?_)
      dsimp only
      rw [tasks]
      exact exists_kept here keeps task
    · exact .inr (.inr (timers timer))
  · change ∀ stage ∈ core.tasks.set t new, loadedOpen stage
    rw [tasks]
    exact forall_moved inv.loaded opened

theorem gate_moved (inv : GateInvariant s) (here : s.tasks[t]? = some old)
    (keeps : opening old ∨ locking old → opening new ∨ locking new) (opened : loadedOpen new)
    (gate : core.gateAndCounter = s.gateAndCounter) (lifecycle : core.lifecycle = s.lifecycle)
    (tasks : core.tasks = s.tasks) (timers : core.timers = s.timers) : GateInvariant (core.move t new) :=
  gate_stays inv here keeps opened gate lifecycle tasks (fun found => timers ▸ found)

-- A step after which the law holds at once.
theorem gate_excused (inv : GateInvariant s) (opened : loadedOpen new) (tasks : core.tasks = s.tasks)
    (law : GateExplained (core.move t new)) : GateInvariant (core.move t new) := by
  refine ⟨law,?_⟩
  change ∀ stage ∈ core.tasks.set t new, loadedOpen stage
  rw [tasks]
  exact forall_moved inv.loaded opened

theorem install_gate (inv : GateInvariant s) (here : s.tasks[t]? = some stage)
    (taken : install s t outcome stage = some next) : GateInvariant next := by
  unfold install at taken
  cases stage with
  | acquireGate kind vaultId =>
    dsimp only at taken
    split at taken
    · cases taken
    · cases taken
      exact gate_moved inv here id trivial rfl rfl rfl rfl
  | checkInactive kind vaultId =>
    dsimp only at taken
    split at taken
    · cases taken
      exact gate_moved inv here id trivial rfl rfl rfl rfl
    · cases kind <;> cases taken <;> exact gate_moved inv here id trivial rfl rfl rfl rfl
  | reserved vaultId =>
    dsimp only at taken
    split at taken <;> cases taken <;> exact gate_moved inv here id trivial rfl rfl rfl rfl
  | openDatabase vaultId => cases outcome <;> cases taken <;> exact gate_moved inv here id trivial rfl rfl rfl rfl
  | writeSession keys =>
    cases taken
    exact gate_moved inv here id trivial rfl rfl rfl rfl
  | writeLifecycle vaultId =>
    cases taken
    exact gate_excused inv trivial rfl fun _ => .inr (.inl (exists_new here (.inl rfl)))
  | openGate vaultId =>
    cases taken
    refine gate_excused inv trivial rfl fun closed => ?_
    have opened := gate_opened s.gateAndCounter
    exact absurd closed (by rw [Bool.not_eq_true]; exact opened)
  | writeVaultId vaultId =>
    cases taken
    exact gate_moved inv here id trivial rfl rfl rfl rfl
  | writeDbPath vaultId =>
    cases taken
    exact gate_moved inv here id trivial rfl rfl rfl rfl
  | _ => cases taken

theorem swap_gate (inv : GateInvariant s) (here : s.tasks[t]? = some stage)
    (taken : swap s t outcome stage = some next) : GateInvariant next := by
  unfold swap at taken
  cases stage with
  | checkActive vaultId =>
    cases taken
    split <;> exact gate_moved inv here id trivial rfl rfl rfl rfl
  | readDbPath vaultId =>
    cases taken
    split <;> exact gate_moved inv here id trivial rfl rfl rfl rfl
  | reopenDatabase vaultId => cases outcome <;> cases taken <;> exact gate_moved inv here id trivial rfl rfl rfl rfl
  | swapSession keys =>
    cases taken
    exact gate_moved inv here id trivial rfl rfl rfl rfl
  | swapVaultId vaultId =>
    cases taken
    exact gate_moved inv here id trivial rfl rfl rfl rfl
  | _ => cases taken

theorem cancel_closing (fresh : ∀ e, s.timer = some e → ∀ timer, s.timers[e]? = some timer → closing timer = false)
    (found : ∃ timer ∈ s.timers, closing timer) : ∃ timer ∈ s.cancelTimer.timers, closing timer := by
  unfold State.cancelTimer
  cases slot : s.timer with
  | none => exact found
  | some e =>
    refine exists_modified (fun timer there holds => ?_) found
    rw [fresh e slot timer there] at holds
    cases holds

theorem store_closing {place : Nat} (found : ∃ timer ∈ s.timers, closing timer) :
    ∃ timer ∈ (s.storeTimer place).timers, closing timer := by
  unfold State.storeTimer
  cases s.timer with
  | none => exact found
  | some e => exact exists_modified (fun _ _ holds => holds) found

theorem cancel_core (s : State) : s.cancelTimer.gateAndCounter = s.gateAndCounter ∧
    s.cancelTimer.lifecycle = s.lifecycle ∧ s.cancelTimer.tasks = s.tasks := by
  unfold State.cancelTimer
  cases s.timer <;> exact ⟨rfl,rfl,rfl⟩

theorem store_core (s : State) (timer : Nat) : (s.storeTimer timer).gateAndCounter = s.gateAndCounter ∧
    (s.storeTimer timer).lifecycle = s.lifecycle ∧ (s.storeTimer timer).tasks = s.tasks := by
  unfold State.storeTimer
  cases s.timer <;> exact ⟨rfl,rfl,rfl⟩

theorem restart_gate (inv : GateInvariant s) (here : s.tasks[t]? = some stage)
    (orderly : GateOrderly s (.task t outcome)) (taken : restart s t stage = some next) : GateInvariant next := by
  unfold restart at taken
  cases stage with
  | resetCheck =>
    cases taken
    split <;> exact gate_moved inv here id trivial rfl rfl rfl rfl
  | cancelTimer restarter =>
    cases taken
    obtain ⟨gate,lifecycle,tasks⟩ := cancel_core s
    rw [GateOrderly,here] at orderly
    exact gate_stays inv here id trivial gate lifecycle tasks (cancel_closing orderly)
  | spawnTimer restarter =>
    cases taken
    exact gate_stays inv here id trivial rfl rfl rfl exists_snoc
  | storeTimer restarter timer =>
    obtain ⟨gate,lifecycle,tasks⟩ := store_core s timer
    cases restarter <;> cases taken <;> exact gate_stays inv here id trivial gate lifecycle tasks store_closing
  | _ => cases taken

theorem lock_gate (inv : GateInvariant s) (here : s.tasks[t]? = some stage)
    (taken : lock s t stage = some next) : GateInvariant next := by
  unfold lock at taken
  cases stage with
  | lockCheck =>
    cases taken
    split <;> exact gate_moved inv here id trivial rfl rfl rfl rfl
  | closeGate =>
    cases taken
    exact gate_excused inv trivial rfl fun _ => .inr (.inl (exists_new here (.inr rfl)))
  | lockCancelTimer =>
    cases taken
    obtain ⟨_,_,tasks⟩ := cancel_core s
    refine gate_excused inv trivial tasks fun _ => .inr (.inl ?_)
    exact exists_new (tasks ▸ here) (.inr rfl)
  | waitIdle =>
    dsimp only at taken
    split at taken
    · cases taken
      exact gate_moved inv here id trivial rfl rfl rfl rfl
    · cases taken
  | takeSession =>
    cases taken
    exact gate_moved inv here id trivial rfl rfl rfl rfl
  | takeConf =>
    cases taken
    exact gate_moved inv here id trivial rfl rfl rfl rfl
  | clearSession =>
    cases taken
    exact gate_moved inv here id trivial rfl rfl rfl rfl
  | expire =>
    dsimp only at taken
    split at taken
    · cases taken
      exact gate_excused inv trivial rfl fun _ => .inl (by rintro ⟨⟩)
    · rename_i inactive
      cases taken
      exact gate_excused inv trivial rfl fun _ => .inl inactive
  | clearVaultId =>
    cases taken
    exact gate_moved inv here id trivial rfl rfl rfl rfl
  | clearDbPath =>
    cases taken
    exact gate_moved inv here id trivial rfl rfl rfl rfl
  | _ => cases taken

theorem counted_open {word : UInt32} (opened : gateClosed word = false) (room : word ≠ counterMask) :
    gateClosed (counted word) = false := by
  have count := counted_word opened
  rw [Bool.eq_false_iff,ne_eq,gate_closed_iff] at opened ⊢
  rw [count]
  intro full
  apply room
  rw [← UInt32.toNat_inj]
  change word.toNat = 2 ^ 31 - 1
  omega

theorem operation_gate (inv : GateInvariant s) (here : s.tasks[t]? = some stage)
    (orderly : GateOrderly s (.task t outcome)) (taken : operation s t stage = some next) : GateInvariant next := by
  unfold operation at taken
  cases stage with
  | load =>
    cases taken
    cases gate : gateClosed s.gateAndCounter with
    | true => exact gate_moved inv here id trivial rfl rfl rfl rfl
    | false => exact gate_moved inv here id gate rfl rfl rfl rfl
  | exchange loaded =>
    dsimp only at taken
    split at taken
    · cases taken
      rw [GateOrderly,here] at orderly
      have opened := counted_open (inv.loaded _ (List.mem_of_getElem? here)) orderly
      exact gate_excused inv trivial rfl fun closed => absurd (opened.symm.trans closed) Bool.false_ne_true
    · cases taken
      exact gate_moved inv here id trivial rfl rfl rfl rfl
  | send =>
    cases taken
    exact gate_moved inv here id trivial rfl rfl rfl rfl
  | recheck =>
    cases taken
    split <;> exact gate_moved inv here id trivial rfl rfl rfl rfl
  | undo =>
    cases taken
    exact gate_moved inv here id trivial rfl rfl rfl rfl
  | guarding =>
    cases taken
    exact gate_moved inv here id trivial rfl rfl rfl rfl
  | _ => cases taken

theorem timer_gate (inv : GateInvariant s) (here : s.timers[e]? = some timer)
    (orderly : GateOrderly s (.timer e)) (taken : runTimer s e timer = some next) : GateInvariant next := by
  have moved {core : State} {changed : Timer} (keeps : closing timer → closing changed)
      (gate : core.gateAndCounter = s.gateAndCounter) (lifecycle : core.lifecycle = s.lifecycle)
      (tasks : core.tasks = s.tasks) (timers : core.timers = s.timers) : GateInvariant (core.moveTimer e changed) := by
    refine ⟨fun closed => ?_,tasks ▸ inv.loaded⟩
    rw [State.moveTimer] at closed ⊢
    rcases inv.law (gate ▸ closed) with inactive | task | found
    · exact .inl (lifecycle ▸ inactive)
    · exact .inr (.inl (tasks ▸ task))
    · refine .inr (.inr ?_)
      dsimp only
      rw [timers]
      exact exists_kept here keeps found
  unfold runTimer at taken
  cases phase : timer.stage with
  | sleeping =>
    rw [phase] at taken
    cases taken
    refine ⟨fun _ => .inr (.inr (exists_new here ?_)),inv.loaded⟩
    have live := orderly timer here phase
    simp [closing,live]
  | waiting =>
    rw [phase] at taken
    dsimp only at taken
    split at taken
    · cases taken
      exact moved (by simp [closing,phase]) rfl rfl rfl rfl
    · cases taken
  | takeConf =>
    rw [phase] at taken
    cases taken
    exact moved (by simp [closing,phase]) rfl rfl rfl rfl
  | clearSession =>
    rw [phase] at taken
    cases taken
    exact moved (by simp [closing,phase]) rfl rfl rfl rfl
  | expire =>
    rw [phase] at taken
    cases taken
    split
    · exact ⟨fun _ => .inl (by rintro ⟨⟩),inv.loaded⟩
    · rename_i inactive
      exact ⟨fun _ => .inl inactive,inv.loaded⟩
  | ended =>
    rw [phase] at taken
    cases taken

theorem advance_gate (inv : GateInvariant s) (here : s.tasks[t]? = some stage)
    (orderly : GateOrderly s (.task t outcome)) (taken : advance s t outcome stage = some next) :
    GateInvariant next := by
  unfold advance at taken
  split at taken
  all_goals first
    | exact install_gate inv here taken
    | exact swap_gate inv here taken
    | exact restart_gate inv here orderly taken
    | exact lock_gate inv here taken
    | exact operation_gate inv here orderly taken

theorem reap_closing (timer : Timer) (dropped : timer.aborted ∨ timer.cancelled ∧ timer.stage = .sleeping) :
    closing timer = false := by
  rcases dropped with aborted | ⟨_,sleeping⟩
  · simp [closing,aborted]
  · simp [closing,sleeping]

theorem gate_preserved (inv : GateInvariant s) (orderly : GateOrderly s act) (taken : step s act = some next) :
    GateInvariant next := by
  cases act with
  | call operation =>
    cases taken
    refine ⟨fun closed => ?_,forall_snoc inv.loaded (by cases operation <;> trivial)⟩
    rcases inv.law closed with inactive | task | timer
    · exact .inl inactive
    · exact .inr (.inl (exists_snoc task))
    · exact .inr (.inr timer)
  | task t outcome =>
    obtain ⟨stage,here,taken⟩ := Option.bind_eq_some_iff.mp taken
    exact advance_gate inv here orderly taken
  | timer e =>
    obtain ⟨timer,here,taken⟩ := Option.bind_eq_some_iff.mp taken
    exact timer_gate inv here orderly taken
  | reap e =>
    obtain ⟨timer,here,taken⟩ := Option.bind_eq_some_iff.mp taken
    split at taken
    · rename_i dropped
      cases taken
      refine ⟨fun closed => ?_,inv.loaded⟩
      rcases inv.law closed with inactive | task | found
      · exact .inl inactive
      · exact .inr (.inl task)
      · refine .inr (.inr (exists_kept here (fun live => ?_) found))
        rw [reap_closing timer dropped] at live
        cases live
    · cases taken
  | setRcloneConfPath path =>
    cases taken
    exact ⟨inv.law,inv.loaded⟩

-- A lock between its first drop of the keys and its change of the lifecycle.
def clearing : Stage → Bool
  | .takeConf | .clearSession | .expire => true
  | _ => false

def expiringTimer (timer : Timer) : Bool := timer.stage = .expire

def Ending (s : State) : Prop := ∃ timer ∈ s.timers, expiringTimer timer

def withStore : Stage → Prop
  | .writeSession keys => keys.metadataStore = true
  | .swapSession keys => keys.metadataStore = true
  | _ => True

theorem start_gate : GateInvariant start := ⟨fun _ => .inl (by rintro ⟨⟩),by rintro stage ⟨⟩⟩

def unlocking : List Action :=
  [.call (.authenticate "v"),.task 0 .proceeds,.task 0 .proceeds,.task 0 (.opens true),.task 0 .proceeds,
   .task 0 .proceeds,.task 0 .proceeds,.task 0 .proceeds,.task 0 .proceeds,.task 0 .proceeds,.task 0 .proceeds,
   .task 0 .proceeds]

end ArxRuna.Session.Lifecycle
