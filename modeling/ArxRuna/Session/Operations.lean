import ArxRuna.Session.Lifecycle
namespace ArxRuna.Session.Operations
open Library.Run Library.Pool Tasks Lifecycle
open Backoff (LifecycleState)
variable {s core next : State} {t e : Nat} {old new stage : Stage} {timer : Timer} {outcome : Outcome}

def holding : Stage → Bool
  | .recheck | .undo | .guarding => true
  | _ => false

-- A lock or an expiry that has closed the gate and has keys to drop yet.
def shutting : Stage → Bool
  | .lockCancelTimer | .waitIdle | .takeSession | .takeConf | .clearSession => true
  | _ => false

def shuttingTimer (timer : Timer) : Bool :=
  timer.stage = .waiting || timer.stage = .takeConf || timer.stage = .clearSession

def drained : Stage → Bool
  | .takeSession | .takeConf | .clearSession => true
  | _ => false

def drainedTimer (timer : Timer) : Bool := timer.stage = .takeConf || timer.stage = .clearSession

def Shutting (s : State) : Prop := (∃ stage ∈ s.tasks, shutting stage) ∨ ∃ timer ∈ s.timers, shuttingTimer timer

def Drained (s : State) : Prop := (∃ stage ∈ s.tasks, drained stage) ∨ ∃ timer ∈ s.timers, drainedTimer timer

-- Keys are dropped while no guard is alive, and the watch channel counts exactly
-- the guards and the operations on their way.
structure GuardLaw (s : State) : Prop where
  cleared : ∀ alive ∈ s.cleared, alive = 0
  counted : s.operationCounter = s.tasks.countP holding

-- An install does not open the gate under a lock or an expiry that has keys to
-- drop yet, and the watch channel has room for one more.
def GuardOrderly (s : State) : Action → Prop
  | .task t _ =>
    match s.tasks[t]? with
    | some (.openGate _) => ¬ Shutting s
    | some .send => s.operationCounter + 1 < 2 ^ 32
    | _ => True
  | _ => True

structure GuardInvariant (s : State) : Prop extends GuardLaw s where
  shut : Shutting s → gateClosed s.gateAndCounter = true
  empty : Drained s → guards s.tasks = 0
  loaded : ∀ stage ∈ s.tasks, loadedOpen stage

theorem drained_shutting (found : Drained s) : Shutting s := by
  rcases found with ⟨stage,member,holds⟩ | ⟨timer,member,holds⟩
  · refine .inl ⟨stage,member,?_⟩
    cases stage <;> first | rfl | cases holds
  · refine .inr ⟨timer,member,?_⟩
    rw [shuttingTimer,Bool.or_assoc]
    exact (congrArg _ holds).trans (Bool.or_true _)

theorem guards_held (tasks : List Stage) : guards tasks ≤ tasks.countP holding := by
  refine List.countP_mono_left fun stage _ guarding => ?_
  rw [of_decide_eq_true guarding]
  rfl

-- The timers of two states are at the same stages.
structure SameTimers (s core : State) : Prop where
  shutting : (∃ timer ∈ core.timers, shuttingTimer timer) ↔ ∃ timer ∈ s.timers, shuttingTimer timer
  drained : (∃ timer ∈ core.timers, drainedTimer timer) ↔ ∃ timer ∈ s.timers, drainedTimer timer

theorem same_timers (same : core.timers = s.timers) : SameTimers s core :=
  ⟨by rw [same],by rw [same]⟩

theorem guard_stays (inv : GuardInvariant s) (here : s.tasks[t]? = some old)
    (holds : holding old = holding new) (alive : decide (old = .guarding) = decide (new = .guarding))
    (shuts : shutting new → shutting old) (drains : drained new → drained old) (opened : loadedOpen new)
    (gate : core.gateAndCounter = s.gateAndCounter) (counter : core.operationCounter = s.operationCounter)
    (cleared : core.cleared = s.cleared) (tasks : core.tasks = s.tasks) (timers : SameTimers s core) :
    GuardInvariant (core.move t new) := by
  have count : (s.tasks.set t new).countP holding = s.tasks.countP holding := by
    have moved := count_moved holding new here
    rw [holds] at moved
    exact Nat.add_right_cancel moved
  have guarded : guards (s.tasks.set t new) = guards s.tasks := by
    have moved := count_moved (fun stage => decide (stage = .guarding)) new here
    rw [alive] at moved
    exact Nat.add_right_cancel moved
  refine ⟨⟨?_,?_⟩,?_,?_,?_⟩
  · exact cleared ▸ inv.cleared
  · change core.operationCounter = (core.tasks.set t new).countP holding
    rw [counter,tasks,count]
    exact inv.counted
  · change ((∃ stage ∈ core.tasks.set t new, shutting stage) ∨ ∃ timer ∈ core.timers, shuttingTimer timer) →
      gateClosed core.gateAndCounter = true
    rw [tasks,timers.shutting,gate]
    exact fun found => inv.shut (found.imp_left (exists_back fun holds =>
      ⟨old,List.mem_of_getElem? here,shuts holds⟩))
  · change ((∃ stage ∈ core.tasks.set t new, drained stage) ∨ ∃ timer ∈ core.timers, drainedTimer timer) →
      guards (core.tasks.set t new) = 0
    rw [tasks,timers.drained,guarded]
    exact fun found => inv.empty (found.imp_left (exists_back fun holds =>
      ⟨old,List.mem_of_getElem? here,drains holds⟩))
  · change ∀ stage ∈ core.tasks.set t new, loadedOpen stage
    rw [tasks]
    exact forall_moved inv.loaded opened

theorem guard_moved (inv : GuardInvariant s) (here : s.tasks[t]? = some old)
    (holds : holding old = holding new) (alive : decide (old = .guarding) = decide (new = .guarding))
    (shuts : shutting new → shutting old) (drains : drained new → drained old) (opened : loadedOpen new)
    (gate : core.gateAndCounter = s.gateAndCounter) (counter : core.operationCounter = s.operationCounter)
    (cleared : core.cleared = s.cleared) (tasks : core.tasks = s.tasks) (timers : core.timers = s.timers) :
    GuardInvariant (core.move t new) :=
  guard_stays inv here holds alive shuts drains opened gate counter cleared tasks (same_timers timers)

theorem install_guard (inv : GuardInvariant s) (here : s.tasks[t]? = some stage)
    (orderly : GuardOrderly s (.task t outcome)) (taken : install s t outcome stage = some next) :
    GuardInvariant next := by
  unfold install at taken
  cases stage with
  | acquireGate kind vaultId =>
    dsimp only at taken
    split at taken
    · cases taken
    · cases taken
      exact guard_moved inv here rfl rfl id id trivial rfl rfl rfl rfl rfl
  | checkInactive kind vaultId =>
    dsimp only at taken
    split at taken
    · cases taken
      exact guard_moved inv here rfl rfl id id trivial rfl rfl rfl rfl rfl
    · cases kind <;> cases taken <;> exact guard_moved inv here rfl rfl id id trivial rfl rfl rfl rfl rfl
  | reserved vaultId =>
    dsimp only at taken
    split at taken <;> cases taken <;> exact guard_moved inv here rfl rfl id id trivial rfl rfl rfl rfl rfl
  | openDatabase vaultId =>
    cases outcome <;> cases taken <;> exact guard_moved inv here rfl rfl id id trivial rfl rfl rfl rfl rfl
  | openGate vaultId =>
    cases taken
    rw [GuardOrderly,here] at orderly
    have still : GuardInvariant (s.move t (.writeVaultId vaultId)) :=
      guard_moved inv here rfl rfl id id trivial rfl rfl rfl rfl rfl
    refine ⟨⟨still.cleared,still.counted⟩,fun found => absurd ?_ orderly,still.empty,still.loaded⟩
    exact found.imp_left (exists_back (by rintro ⟨⟩))
  | writeSession keys =>
    cases taken
    exact guard_moved inv here rfl rfl id id trivial rfl rfl rfl rfl rfl
  | writeLifecycle vaultId =>
    cases taken
    exact guard_moved inv here rfl rfl id id trivial rfl rfl rfl rfl rfl
  | writeVaultId vaultId =>
    cases taken
    exact guard_moved inv here rfl rfl id id trivial rfl rfl rfl rfl rfl
  | writeDbPath vaultId =>
    cases taken
    exact guard_moved inv here rfl rfl id id trivial rfl rfl rfl rfl rfl
  | _ => cases taken

theorem swap_guard (inv : GuardInvariant s) (here : s.tasks[t]? = some stage)
    (taken : swap s t outcome stage = some next) : GuardInvariant next := by
  unfold swap at taken
  cases stage with
  | checkActive vaultId =>
    cases taken
    split <;> exact guard_moved inv here rfl rfl id id trivial rfl rfl rfl rfl rfl
  | readDbPath vaultId =>
    cases taken
    split <;> exact guard_moved inv here rfl rfl id id trivial rfl rfl rfl rfl rfl
  | reopenDatabase vaultId =>
    cases outcome <;> cases taken <;> exact guard_moved inv here rfl rfl id id trivial rfl rfl rfl rfl rfl
  | swapSession keys =>
    cases taken
    exact guard_moved inv here rfl rfl id id trivial rfl rfl rfl rfl rfl
  | swapVaultId vaultId =>
    cases taken
    exact guard_moved inv here rfl rfl id id trivial rfl rfl rfl rfl rfl
  | _ => cases taken

theorem modified_same (place : Nat) (change : Timer → Timer) (same : ∀ timer, (change timer).stage = timer.stage)
    (timers : core.timers = s.timers.modify place change) : SameTimers s core := by
  have shutting (timer : Timer) : shuttingTimer (change timer) = shuttingTimer timer := by
    rw [shuttingTimer,shuttingTimer,same]
  have drained (timer : Timer) : drainedTimer (change timer) = drainedTimer timer := by
    rw [drainedTimer,drainedTimer,same]
  refine ⟨?_,?_⟩ <;> rw [timers] <;> constructor
  · exact exists_modified_back fun timer holds => (shutting timer).symm.trans holds
  · exact exists_modified fun timer _ holds => (shutting timer).trans holds
  · exact exists_modified_back fun timer holds => (drained timer).symm.trans holds
  · exact exists_modified fun timer _ holds => (drained timer).trans holds

-- What cancelling and storing a handle leave alone.
structure SameCount (s core : State) : Prop where
  gate : core.gateAndCounter = s.gateAndCounter
  counter : core.operationCounter = s.operationCounter
  cleared : core.cleared = s.cleared
  tasks : core.tasks = s.tasks
  timers : SameTimers s core

theorem cancel_count (s : State) : SameCount s s.cancelTimer := by
  unfold State.cancelTimer
  cases s.timer with
  | none => exact ⟨rfl,rfl,rfl,rfl,same_timers rfl⟩
  | some e => exact ⟨rfl,rfl,rfl,rfl,modified_same e Timer.abort (fun _ => rfl) rfl⟩

theorem store_count (s : State) (place : Nat) : SameCount s (s.storeTimer place) := by
  unfold State.storeTimer
  cases s.timer with
  | none => exact ⟨rfl,rfl,rfl,rfl,same_timers rfl⟩
  | some e => exact ⟨rfl,rfl,rfl,rfl,modified_same e (fun old => {old with cancelled := true}) (fun _ => rfl) rfl⟩

theorem spawn_timers (s : State) : SameTimers s s.spawnTimer :=
  ⟨⟨exists_snoc_back (by rintro ⟨⟩),exists_snoc⟩,⟨exists_snoc_back (by rintro ⟨⟩),exists_snoc⟩⟩

theorem restart_guard (inv : GuardInvariant s) (here : s.tasks[t]? = some stage)
    (taken : restart s t stage = some next) : GuardInvariant next := by
  unfold restart at taken
  cases stage with
  | resetCheck =>
    cases taken
    split <;> exact guard_moved inv here rfl rfl id id trivial rfl rfl rfl rfl rfl
  | cancelTimer restarter =>
    cases taken
    obtain ⟨gate,counter,cleared,tasks,timers⟩ := cancel_count s
    exact guard_stays inv here rfl rfl id id trivial gate counter cleared tasks timers
  | spawnTimer restarter =>
    cases taken
    exact guard_stays inv here rfl rfl id id trivial rfl rfl rfl rfl (spawn_timers s)
  | storeTimer restarter timer =>
    obtain ⟨gate,counter,cleared,tasks,timers⟩ := store_count s timer
    cases restarter <;> cases taken <;>
      exact guard_stays inv here rfl rfl id id trivial gate counter cleared tasks ⟨timers.shutting,timers.drained⟩
  | _ => cases taken

theorem clear_zero (inv : GuardInvariant s) (drained : Drained s) : ∀ alive ∈ s.clearKeys.cleared, alive = 0 := by
  unfold State.clearKeys
  dsimp only
  split
  · intro alive member
    rcases List.mem_cons.mp member with rfl | old
    · exact inv.empty drained
    · exact inv.cleared alive old
  · exact inv.cleared

theorem lock_guard (inv : GuardInvariant s) (here : s.tasks[t]? = some stage)
    (taken : lock s t stage = some next) : GuardInvariant next := by
  unfold lock at taken
  cases stage with
  | lockCheck =>
    cases taken
    split <;> exact guard_moved inv here rfl rfl id id trivial rfl rfl rfl rfl rfl
  | closeGate =>
    cases taken
    have count := count_moved holding .lockCancelTimer here
    have alive := count_moved (fun stage => decide (stage = .guarding)) .lockCancelTimer here
    refine ⟨⟨inv.cleared,inv.counted.trans count.symm⟩,fun _ => gate_closed_or _,fun found => ?_,
      forall_moved inv.loaded trivial⟩
    refine alive.trans (inv.empty (found.imp_left (exists_back ?_)))
    rintro ⟨⟩
  | lockCancelTimer =>
    cases taken
    obtain ⟨gate,counter,cleared,tasks,timers⟩ := cancel_count s
    exact guard_stays inv here rfl rfl (fun _ => rfl) id trivial gate counter cleared tasks timers
  | waitIdle =>
    dsimp only at taken
    split at taken
    · rename_i idle
      cases taken
      have still : GuardInvariant (s.move t .lockCancelTimer) :=
        guard_moved inv here rfl rfl (fun _ => rfl) (by rintro ⟨⟩) trivial rfl rfl rfl rfl rfl
      have count := count_moved holding .takeSession here
      have none : guards (s.tasks.set t .takeSession) = 0 := by
        have held := guards_held (s.tasks.set t .takeSession)
        have zero := inv.counted.symm.trans idle
        have same : (s.tasks.set t .takeSession).countP holding = s.tasks.countP holding := count
        omega
      refine ⟨⟨inv.cleared,inv.counted.trans count.symm⟩,fun _ => ?_,fun _ => none,forall_moved inv.loaded trivial⟩
      exact inv.shut (.inl ⟨_,List.mem_of_getElem? here,rfl⟩)
    · cases taken
  | takeSession =>
    cases taken
    have drained : Drained s := .inl ⟨_,List.mem_of_getElem? here,rfl⟩
    have still : GuardInvariant (s.move t .takeConf) :=
      guard_moved inv here rfl rfl (fun _ => rfl) (fun _ => rfl) trivial rfl rfl rfl rfl rfl
    exact ⟨⟨clear_zero inv drained,still.counted⟩,still.shut,still.empty,still.loaded⟩
  | takeConf =>
    cases taken
    exact guard_moved inv here rfl rfl (fun _ => rfl) (fun _ => rfl) trivial rfl rfl rfl rfl rfl
  | clearSession =>
    cases taken
    have drained : Drained s := .inl ⟨_,List.mem_of_getElem? here,rfl⟩
    have still : GuardInvariant (s.move t .expire) :=
      guard_moved inv here rfl rfl (fun _ => rfl) (fun _ => rfl) trivial rfl rfl rfl rfl rfl
    exact ⟨⟨clear_zero inv drained,still.counted⟩,still.shut,still.empty,still.loaded⟩
  | expire =>
    dsimp only at taken
    split at taken <;> cases taken <;> exact guard_moved inv here rfl rfl id id trivial rfl rfl rfl rfl rfl
  | clearVaultId =>
    cases taken
    exact guard_moved inv here rfl rfl id id trivial rfl rfl rfl rfl rfl
  | clearDbPath =>
    cases taken
    exact guard_moved inv here rfl rfl id id trivial rfl rfl rfl rfl rfl
  | _ => cases taken

theorem give_back (inv : GuardInvariant s) (here : s.tasks[t]? = some stage) (held : holding stage = true) :
    GuardInvariant ({s with operationCounter := s.operationCounter - 1}.move t .ended) := by
  have count := count_moved holding .ended here
  have alive := count_moved (fun stage => decide (stage = .guarding)) .ended here
  rw [held] at count
  refine ⟨⟨inv.cleared,?_⟩,?_,fun found => ?_,forall_moved inv.loaded trivial⟩
  · change s.operationCounter - 1 = (s.tasks.set t .ended).countP holding
    have same := inv.counted
    change (s.tasks.set t .ended).countP holding + 1 = s.tasks.countP holding + 0 at count
    omega
  · exact fun found => inv.shut (found.imp_left (exists_back (by rintro ⟨⟩)))
  · have none := inv.empty (found.imp_left (exists_back (by rintro ⟨⟩)))
    change guards (s.tasks.set t .ended) + _ = guards s.tasks + 0 at alive
    change guards (s.tasks.set t .ended) = 0
    omega

theorem operation_guard (inv : GuardInvariant s) (here : s.tasks[t]? = some stage)
    (orderly : GuardOrderly s (.task t outcome)) (taken : operation s t stage = some next) :
    GuardInvariant next := by
  unfold operation at taken
  cases stage with
  | load =>
    cases taken
    cases gate : gateClosed s.gateAndCounter with
    | true => exact guard_moved inv here rfl rfl id id trivial rfl rfl rfl rfl rfl
    | false => exact guard_moved inv here rfl rfl (by rintro ⟨⟩) (by rintro ⟨⟩) gate rfl rfl rfl rfl rfl
  | exchange loaded =>
    dsimp only at taken
    split at taken
    · rename_i same
      cases taken
      have opened := inv.loaded _ (List.mem_of_getElem? here)
      have still : GuardInvariant (s.move t .send) :=
        guard_moved inv here rfl rfl (by rintro ⟨⟩) (by rintro ⟨⟩) trivial rfl rfl rfl rfl rfl
      refine ⟨⟨still.cleared,still.counted⟩,fun found => ?_,still.empty,still.loaded⟩
      have closed := still.shut found
      change gateClosed s.gateAndCounter = true at closed
      rw [same,opened] at closed
      cases closed
    · cases taken
      exact guard_moved inv here rfl rfl (by rintro ⟨⟩) (by rintro ⟨⟩) trivial rfl rfl rfl rfl rfl
  | send =>
    cases taken
    rw [GuardOrderly,here] at orderly
    have count := count_moved holding .recheck here
    have alive := count_moved (fun stage => decide (stage = .guarding)) .recheck here
    refine ⟨⟨inv.cleared,?_⟩,?_,fun found => ?_,forall_moved inv.loaded trivial⟩
    · change min (s.operationCounter + 1) (2 ^ 32 - 1) = (s.tasks.set t .recheck).countP holding
      have same := inv.counted
      change (s.tasks.set t .recheck).countP holding + 0 = s.tasks.countP holding + 1 at count
      omega
    · exact fun found => inv.shut (found.imp_left (exists_back (by rintro ⟨⟩)))
    · exact alive.trans (inv.empty (found.imp_left (exists_back (by rintro ⟨⟩))))
  | recheck =>
    cases taken
    cases gate : gateClosed s.gateAndCounter with
    | true => exact guard_moved inv here rfl rfl id id trivial rfl rfl rfl rfl rfl
    | false =>
      have count := count_moved holding .guarding here
      have quiet : ¬ Shutting (s.move t .guarding) := by
        intro found
        have closed := inv.shut (found.imp_left (exists_back (by rintro ⟨⟩)))
        rw [gate] at closed
        cases closed
      refine ⟨⟨inv.cleared,inv.counted.trans ?_⟩,fun found => absurd found quiet,
        fun found => absurd (drained_shutting found) quiet,forall_moved inv.loaded trivial⟩
      exact (Nat.add_right_cancel count).symm
  | undo =>
    cases taken
    exact give_back inv here rfl
  | guarding =>
    cases taken
    exact give_back inv here rfl
  | _ => cases taken

theorem timer_guard (inv : GuardInvariant s) (here : s.timers[e]? = some timer)
    (taken : runTimer s e timer = some next) : GuardInvariant next := by
  have moved {core : State} {changed : Timer} (shuts : shuttingTimer changed → shuttingTimer timer)
      (drains : drainedTimer changed → drainedTimer timer) (gate : core.gateAndCounter = s.gateAndCounter)
      (cleared : ∀ alive ∈ core.cleared, alive = 0) (counter : core.operationCounter = s.operationCounter)
      (tasks : core.tasks = s.tasks) (timers : core.timers = s.timers) :
      GuardInvariant (core.moveTimer e changed) := by
    refine ⟨⟨cleared,?_⟩,?_,?_,?_⟩
    · change core.operationCounter = core.tasks.countP holding
      rw [counter,tasks]
      exact inv.counted
    · change ((∃ stage ∈ core.tasks, shutting stage) ∨ ∃ timer ∈ core.timers.set e changed, shuttingTimer timer) →
        gateClosed core.gateAndCounter = true
      rw [tasks,timers,gate]
      exact fun found => inv.shut (found.imp_right (exists_back fun holds =>
        ⟨timer,List.mem_of_getElem? here,shuts holds⟩))
    · change ((∃ stage ∈ core.tasks, drained stage) ∨ ∃ timer ∈ core.timers.set e changed, drainedTimer timer) →
        guards core.tasks = 0
      rw [tasks,timers]
      exact fun found => inv.empty (found.imp_right (exists_back fun holds =>
        ⟨timer,List.mem_of_getElem? here,drains holds⟩))
    · change ∀ stage ∈ core.tasks, loadedOpen stage
      rw [tasks]
      exact inv.loaded
  unfold runTimer at taken
  cases phase : timer.stage with
  | sleeping =>
    rw [phase] at taken
    cases taken
    refine ⟨⟨inv.cleared,inv.counted⟩,fun _ => gate_closed_or _,fun found => ?_,inv.loaded⟩
    exact inv.empty (found.imp_right (exists_back (by rintro ⟨⟩)))
  | waiting =>
    rw [phase] at taken
    dsimp only at taken
    split at taken
    · rename_i idle
      cases taken
      have none : guards s.tasks = 0 := by
        have held := guards_held s.tasks
        have zero := inv.counted.symm.trans idle
        omega
      refine ⟨⟨inv.cleared,inv.counted⟩,fun found => inv.shut ?_,fun _ => none,inv.loaded⟩
      refine found.imp_right (exists_back fun _ => ⟨timer,List.mem_of_getElem? here,?_⟩)
      simp [shuttingTimer,phase]
    · cases taken
  | takeConf =>
    rw [phase] at taken
    cases taken
    exact moved (by simp [shuttingTimer,phase]) (by simp [drainedTimer,phase]) rfl inv.cleared rfl rfl rfl
  | clearSession =>
    have empty : Drained s := .inr ⟨timer,List.mem_of_getElem? here,by simp [drainedTimer,phase]⟩
    rw [phase] at taken
    cases taken
    exact moved (by rintro ⟨⟩) (by rintro ⟨⟩) rfl (clear_zero inv empty) rfl rfl rfl
  | expire =>
    rw [phase] at taken
    cases taken
    split <;> exact moved (by rintro ⟨⟩) (by rintro ⟨⟩) rfl inv.cleared rfl rfl rfl
  | ended =>
    rw [phase] at taken
    cases taken

theorem guard_preserved (inv : GuardInvariant s) (orderly : GuardOrderly s act) (taken : step s act = some next) :
    GuardInvariant next := by
  cases act with
  | call operation =>
    cases taken
    have count : (s.tasks ++ [operation.first]).countP holding = s.tasks.countP holding := by
      cases operation <;> simp [List.countP_append,Operation.first,holding]
    have alive : guards (s.tasks ++ [operation.first]) = guards s.tasks := by
      cases operation <;> simp [guards,List.countP_append,Operation.first]
    refine ⟨⟨inv.cleared,inv.counted.trans count.symm⟩,fun found => inv.shut ?_,fun found => ?_,
      forall_snoc inv.loaded (by cases operation <;> trivial)⟩
    · exact found.imp_left (exists_snoc_back (by cases operation <;> rintro ⟨⟩))
    · exact alive.trans (inv.empty (found.imp_left (exists_snoc_back (by cases operation <;> rintro ⟨⟩))))
  | task t outcome =>
    obtain ⟨stage,here,taken⟩ := Option.bind_eq_some_iff.mp taken
    unfold advance at taken
    split at taken
    all_goals first
      | exact install_guard inv here orderly taken
      | exact swap_guard inv here taken
      | exact restart_guard inv here taken
      | exact lock_guard inv here taken
      | exact operation_guard inv here orderly taken
  | timer e =>
    obtain ⟨timer,here,taken⟩ := Option.bind_eq_some_iff.mp taken
    exact timer_guard inv here taken
  | reap e =>
    obtain ⟨timer,here,taken⟩ := Option.bind_eq_some_iff.mp taken
    split at taken
    · cases taken
      refine ⟨⟨inv.cleared,inv.counted⟩,fun found => inv.shut ?_,fun found => inv.empty ?_,inv.loaded⟩
      · exact found.imp_right (exists_back (by rintro ⟨⟩))
      · exact found.imp_right (exists_back (by rintro ⟨⟩))
    · cases taken
  | setRcloneConfPath path =>
    cases taken
    exact ⟨⟨inv.cleared,inv.counted⟩,inv.shut,inv.empty,inv.loaded⟩

-- Nobody is about to end the session, and no install is about to open its gate.
structure Unlocked (s : State) : Prop where
  active : s.lifecycle = .active
  opened : ∀ stage ∈ s.tasks, opening stage = false
  unlocked : ∀ stage ∈ s.tasks, locking stage = false
  unexpired : ∀ timer ∈ s.timers, closing timer = false

def beginAlone (s : State) : Option State :=
  run step s (.call .beginOperation :: List.replicate 4 (.task s.tasks.length .proceeds))

def entering : Stage → Bool
  | .load | .exchange _ | .send | .recheck => true
  | _ => false

-- No call under way is turned away, and one that nothing comes between gets its
-- guard.
structure Serves (s : State) : Prop where
  admitted : Unlocked s → ∀ t stage, s.tasks[t]? = some stage → entering stage →
    ∃ next new, step s (.task t .proceeds) = some next ∧ next.tasks[t]? = some new ∧ (entering new ∨ new = .guarding)
  served : Unlocked s → ∃ next, beginAlone s = some next ∧ next.tasks = s.tasks ++ [.guarding] ∧
    next.operationCounter = min (s.operationCounter + 1) (2 ^ 32 - 1)

-- Fewer than 2^31 - 1 operations are counted over the life of the manager.
def ServeOrderly (s : State) (act : Action) : Prop :=
  GateOrderly s act ∧
    match act with
    | .task t _ =>
      match s.tasks[t]? with
      | some (.exchange loaded) => loaded.toNat + 1 < 2 ^ 31 - 1
      | _ => True
    | _ => True

structure ServeInvariant (s : State) : Prop extends GateInvariant s where
  room : s.gateAndCounter.toNat % 2 ^ 31 < 2 ^ 31 - 1

theorem unlocked_open (inv : GateInvariant s) (unlocked : Unlocked s) : gateClosed s.gateAndCounter = false := by
  rw [← Bool.not_eq_true]
  intro closed
  rcases inv.law closed with inactive | ⟨stage,member,opens | locks⟩ | ⟨timer,member,closes⟩
  · exact inactive unlocked.active
  · rw [unlocked.opened stage member] at opens
    cases opens
  · rw [unlocked.unlocked stage member] at locks
    cases locks
  · rw [unlocked.unexpired timer member] at closes
    cases closes

theorem set_last (tasks : List Stage) (old new : Stage) : (tasks ++ [old]).set tasks.length new = tasks ++ [new] := by
  rw [List.set_append_right _ _ (Nat.le_refl _),Nat.sub_self]
  rfl

theorem last_stage (tasks : List Stage) (stage : Stage) : (tasks ++ [stage])[tasks.length]? = some stage := by
  rw [List.getElem?_append_right (Nat.le_refl _),Nat.sub_self]
  rfl

-- The last task takes one step.
theorem last_step (core : State) {tasks : List Stage} (same : core.tasks = tasks ++ [stage])
    (taken : advance core tasks.length .proceeds stage = some next) (rest : List Action) :
    run step core (.task tasks.length .proceeds :: rest) = run step next rest := by
  have moved : step core (.task tasks.length .proceeds) = some next := by
    change core.tasks[tasks.length]?.bind _ = _
    rw [same,last_stage]
    exact taken
  rw [run_cons,moved]
  rfl

-- The gate word is closed, opened, counted or left alone.
inductive GateStep (s : State) (act : Action) (word : UInt32) : Prop where
  | kept (same : word = s.gateAndCounter)
  | closed (same : word = s.gateAndCounter ||| gateClosedFlag)
  | opened (same : word = s.gateAndCounter &&& ~~~gateClosedFlag)
  | counts (t : Nat) (outcome : Outcome) (which : act = .task t outcome)
      (here : s.tasks[t]? = some (.exchange s.gateAndCounter)) (same : word = counted s.gateAndCounter)

theorem install_word (taken : install s t outcome stage = some next) :
    GateStep s (.task t outcome) next.gateAndCounter := by
  unfold install at taken
  cases stage with
  | acquireGate kind vaultId =>
    dsimp only at taken
    split at taken <;> cases taken
    exact .kept rfl
  | checkInactive kind vaultId =>
    dsimp only at taken
    split at taken
    · cases taken
      exact .kept rfl
    · cases kind <;> cases taken <;> exact .kept rfl
  | reserved vaultId =>
    dsimp only at taken
    split at taken <;> cases taken <;> exact .kept rfl
  | openDatabase vaultId => cases outcome <;> cases taken <;> exact .kept rfl
  | openGate vaultId =>
    cases taken
    exact .opened rfl
  | writeSession keys =>
    cases taken
    exact .kept rfl
  | writeLifecycle vaultId =>
    cases taken
    exact .kept rfl
  | writeVaultId vaultId =>
    cases taken
    exact .kept rfl
  | writeDbPath vaultId =>
    cases taken
    exact .kept rfl
  | _ => cases taken

theorem swap_word (taken : swap s t outcome stage = some next) : next.gateAndCounter = s.gateAndCounter := by
  unfold swap at taken
  cases stage with
  | checkActive vaultId =>
    cases taken
    rfl
  | readDbPath vaultId =>
    cases taken
    rfl
  | reopenDatabase vaultId => cases outcome <;> cases taken <;> rfl
  | swapSession keys =>
    cases taken
    rfl
  | swapVaultId vaultId =>
    cases taken
    rfl
  | _ => cases taken

theorem restart_word (taken : restart s t stage = some next) : next.gateAndCounter = s.gateAndCounter := by
  unfold restart at taken
  cases stage with
  | resetCheck =>
    cases taken
    rfl
  | cancelTimer restarter =>
    cases taken
    exact (cancel_count s).gate
  | spawnTimer restarter =>
    cases taken
    rfl
  | storeTimer restarter timer => cases restarter <;> cases taken <;> exact (store_count s timer).gate
  | _ => cases taken

theorem lock_word (taken : lock s t stage = some next) : GateStep s (.task t outcome) next.gateAndCounter := by
  unfold lock at taken
  cases stage with
  | lockCheck =>
    cases taken
    exact .kept rfl
  | closeGate =>
    cases taken
    exact .closed rfl
  | lockCancelTimer =>
    cases taken
    exact .kept (cancel_count s).gate
  | waitIdle =>
    dsimp only at taken
    split at taken <;> cases taken
    exact .kept rfl
  | expire =>
    dsimp only at taken
    split at taken <;> cases taken <;> exact .kept rfl
  | takeSession =>
    cases taken
    exact .kept rfl
  | takeConf =>
    cases taken
    exact .kept rfl
  | clearSession =>
    cases taken
    exact .kept rfl
  | clearVaultId =>
    cases taken
    exact .kept rfl
  | clearDbPath =>
    cases taken
    exact .kept rfl
  | _ => cases taken

theorem operation_word (here : s.tasks[t]? = some stage) (taken : operation s t stage = some next) :
    GateStep s (.task t outcome) next.gateAndCounter := by
  unfold operation at taken
  cases stage with
  | exchange loaded =>
    dsimp only at taken
    split at taken
    · rename_i same
      subst same
      cases taken
      exact .counts t outcome rfl here rfl
    · cases taken
      exact .kept rfl
  | load =>
    cases taken
    exact .kept rfl
  | send =>
    cases taken
    exact .kept rfl
  | recheck =>
    cases taken
    exact .kept rfl
  | undo =>
    cases taken
    exact .kept rfl
  | guarding =>
    cases taken
    exact .kept rfl
  | _ => cases taken

theorem timer_word (taken : runTimer s e timer = some next) :
    next.gateAndCounter = s.gateAndCounter ∨ next.gateAndCounter = s.gateAndCounter ||| gateClosedFlag := by
  unfold runTimer at taken
  cases phase : timer.stage with
  | sleeping =>
    rw [phase] at taken
    cases taken
    exact .inr rfl
  | waiting =>
    rw [phase] at taken
    dsimp only at taken
    split at taken <;> cases taken
    exact .inl rfl
  | expire =>
    rw [phase] at taken
    cases taken
    split <;> exact .inl rfl
  | takeConf =>
    rw [phase] at taken
    cases taken
    exact .inl rfl
  | clearSession =>
    rw [phase] at taken
    cases taken
    exact .inl rfl
  | ended =>
    rw [phase] at taken
    cases taken

theorem gate_step (taken : step s act = some next) : GateStep s act next.gateAndCounter := by
  cases act with
  | call operation =>
    cases taken
    exact .kept rfl
  | task t outcome =>
    obtain ⟨stage,here,taken⟩ := Option.bind_eq_some_iff.mp taken
    unfold advance at taken
    split at taken
    all_goals first
      | exact install_word taken
      | exact .kept (swap_word taken)
      | exact .kept (restart_word taken)
      | exact lock_word taken
      | exact operation_word here taken
  | timer e =>
    obtain ⟨timer,_,taken⟩ := Option.bind_eq_some_iff.mp taken
    rcases timer_word taken with same | same
    · exact .kept same
    · exact .closed same
  | reap e =>
    obtain ⟨timer,_,taken⟩ := Option.bind_eq_some_iff.mp taken
    split at taken <;> cases taken
    exact .kept rfl
  | setRcloneConfPath path =>
    cases taken
    exact .kept rfl

theorem closed_count (word : UInt32) : (word ||| gateClosedFlag).toNat % 2 ^ 31 = word.toNat % 2 ^ 31 := by
  rw [UInt32.toNat_or,Nat.or_mod_two_pow]
  exact Nat.or_zero _

theorem serve_preserved (inv : ServeInvariant s) (orderly : ServeOrderly s act) (taken : step s act = some next) :
    ServeInvariant next := by
  refine ⟨gate_preserved inv.toGateInvariant orderly.1 taken,?_⟩
  have room := inv.room
  cases gate_step taken with
  | kept same => exact same ▸ room
  | closed same =>
    rw [same,closed_count]
    exact room
  | opened same =>
    rw [same,opened_word,Nat.mod_mod]
    exact room
  | counts t outcome which here same =>
    have bound := orderly.2
    subst which
    dsimp only at bound
    rw [here] at bound
    have opened := inv.loaded _ (List.mem_of_getElem? here)
    rw [same,counted_word opened]
    change s.gateAndCounter.toNat + 1 < 2 ^ 31 - 1 at bound
    omega

theorem open_admits (opened : gateClosed s.gateAndCounter = false) (here : s.tasks[t]? = some stage)
    (enters : entering stage) : ∃ next new, step s (.task t .proceeds) = some next ∧ next.tasks[t]? = some new ∧
      (entering new ∨ new = .guarding) := by
  have moved (core : State) (new : Stage) (tasks : core.tasks = s.tasks) : (core.move t new).tasks[t]? = some new := by
    change (core.tasks.set t new)[t]? = some new
    have bound := (List.getElem?_eq_some_iff.mp here).1
    rw [tasks,List.getElem?_set_self bound]
  have taken {core : State} (done : advance s t .proceeds stage = some core) :
      step s (.task t .proceeds) = some core := by
    change s.tasks[t]?.bind _ = _
    rw [here]
    exact done
  cases stage with
  | load =>
    refine ⟨s.move t (.exchange s.gateAndCounter),_,taken ?_,moved _ _ rfl,.inl rfl⟩
    change some _ = some _
    rw [opened]
    rfl
  | exchange loaded =>
    by_cases same : s.gateAndCounter = loaded
    · exact ⟨_,.send,taken (if_pos same),moved _ _ rfl,.inl rfl⟩
    · exact ⟨_,.load,taken (if_neg same),moved _ _ rfl,.inl rfl⟩
  | send => exact ⟨_,.recheck,taken rfl,moved _ _ rfl,.inl rfl⟩
  | recheck =>
    refine ⟨s.move t .guarding,_,taken ?_,moved _ _ rfl,.inr rfl⟩
    change some _ = some _
    rw [opened]
    rfl
  | _ => cases enters

def joined (s : State) (word : UInt32) (counter : Nat) (stage : Stage) : State :=
  {s with gateAndCounter := word,operationCounter := counter,tasks := s.tasks ++ [stage]}

theorem joined_move (s : State) (word : UInt32) (counter : Nat) (old new : Stage) :
    (joined s word counter old).move s.tasks.length new = joined s word counter new := by
  unfold joined State.move
  dsimp only
  rw [set_last]

theorem begin_alone (opened : gateClosed s.gateAndCounter = false) :
    beginAlone s = some (joined s (counted s.gateAndCounter) (min (s.operationCounter + 1) (2 ^ 32 - 1))
      (if gateClosed (counted s.gateAndCounter) then .undo else .guarding)) := by
  have called : step s (.call .beginOperation) = some (joined s s.gateAndCounter s.operationCounter .load) := rfl
  have loads : advance (joined s s.gateAndCounter s.operationCounter .load) s.tasks.length .proceeds .load =
      some (joined s s.gateAndCounter s.operationCounter (.exchange s.gateAndCounter)) := by
    change some (State.move _ _ (if gateClosed s.gateAndCounter then _ else _)) = _
    rw [opened]
    exact congrArg some (joined_move s _ _ _ _)
  have exchanges : advance (joined s s.gateAndCounter s.operationCounter (.exchange s.gateAndCounter))
      s.tasks.length .proceeds (.exchange s.gateAndCounter) =
      some (joined s (counted s.gateAndCounter) s.operationCounter .send) := by
    refine (if_pos rfl).trans ?_
    exact congrArg some (joined_move s (counted s.gateAndCounter) _ (.exchange s.gateAndCounter) _)
  have sends : advance (joined s (counted s.gateAndCounter) s.operationCounter .send) s.tasks.length .proceeds .send =
      some (joined s (counted s.gateAndCounter) (min (s.operationCounter + 1) (2 ^ 32 - 1)) .recheck) :=
    congrArg some (joined_move s _ (min (s.operationCounter + 1) (2 ^ 32 - 1)) .send _)
  have rechecks : advance (joined s (counted s.gateAndCounter) (min (s.operationCounter + 1) (2 ^ 32 - 1)) .recheck)
      s.tasks.length .proceeds .recheck =
      some (joined s (counted s.gateAndCounter) (min (s.operationCounter + 1) (2 ^ 32 - 1))
        (if gateClosed (counted s.gateAndCounter) then .undo else .guarding)) :=
    congrArg some (joined_move s _ (min (s.operationCounter + 1) (2 ^ 32 - 1)) .recheck _)
  rw [beginAlone,run_cons,called,Option.bind_some,List.replicate_succ,List.replicate_succ,List.replicate_succ,
    List.replicate_succ]
  rw [last_step _ rfl loads,last_step _ rfl exchanges,last_step _ rfl sends,last_step _ rfl rechecks]
  rfl

theorem serves (inv : ServeInvariant s) : Serves s := by
  refine ⟨fun unlocked t stage here enters => ?_,fun unlocked => ?_⟩
  · exact open_admits (unlocked_open inv.toGateInvariant unlocked) here enters
  · have opened := unlocked_open inv.toGateInvariant unlocked
    have still : gateClosed (counted s.gateAndCounter) = false := by
      have room := inv.room
      have count := counted_word opened
      rw [Bool.eq_false_iff,ne_eq,gate_closed_iff] at opened ⊢
      omega
    refine ⟨_,begin_alone opened,?_,rfl⟩
    rw [still]
    rfl

theorem start_guard : GuardInvariant start := by
  refine ⟨⟨by rintro alive ⟨⟩,rfl⟩,fun _ => by decide,fun _ => rfl,by rintro stage ⟨⟩⟩

theorem start_serve : ServeInvariant start := ⟨start_gate,by decide⟩

-- Keys are dropped only when no guard is alive, and no call is turned away while
-- nobody ends the session, each at every point of a run under its own condition.
theorem operation_guards (acts : List Action) :
    (Guarded step GuardOrderly start acts → Along step GuardLaw start acts) ∧
    (Guarded step ServeOrderly start acts → Along step Serves start acts) := by
  refine ⟨fun orderly => ?_,fun orderly => ?_⟩
  · apply along_mono (fun _ => GuardInvariant.toGuardLaw)
    exact along_guarded (fun _ _ _ => guard_preserved) start_guard orderly
  · apply along_mono (fun _ => serves)
    exact along_guarded (fun _ _ _ => serve_preserved) start_serve orderly

def unlockAndBegin : List Action := unlocking ++ .call .beginOperation :: List.replicate 4 (.task 1 .proceeds)

theorem unlock_begin_guarded : Along step GuardLaw start unlockAndBegin ∧ Along step Serves start unlockAndBegin := by
  obtain ⟨guarded,served⟩ := operation_guards unlockAndBegin
  refine ⟨guarded ?_,served ?_⟩
  · refine guarded_cons trivial rfl (guarded_cons trivial rfl (guarded_cons trivial rfl (guarded_cons trivial rfl
      (guarded_cons trivial rfl (guarded_cons trivial rfl (guarded_cons ?_ rfl (guarded_cons trivial rfl
      (guarded_cons trivial rfl (guarded_cons trivial rfl (guarded_cons trivial rfl (guarded_cons trivial rfl
      (guarded_cons trivial rfl (guarded_cons trivial rfl (guarded_cons trivial rfl (guarded_cons ?_ rfl
      (guarded_last trivial))))))))))))))))
    · rintro (⟨stage,member,holds⟩ | ⟨timer,⟨⟩,_⟩)
      rw [List.mem_singleton.mp member] at holds
      cases holds
    · exact (by decide : 0 + 1 < 2 ^ 32)
  · refine guarded_cons ⟨trivial,trivial⟩ rfl (guarded_cons ⟨trivial,trivial⟩ rfl (guarded_cons ⟨trivial,trivial⟩ rfl
      (guarded_cons ⟨trivial,trivial⟩ rfl (guarded_cons ⟨trivial,trivial⟩ rfl (guarded_cons ⟨trivial,trivial⟩ rfl
      (guarded_cons ⟨trivial,trivial⟩ rfl (guarded_cons ⟨trivial,trivial⟩ rfl (guarded_cons ⟨trivial,trivial⟩ rfl
      (guarded_cons ⟨?_,trivial⟩ rfl (guarded_cons ⟨trivial,trivial⟩ rfl (guarded_cons ⟨trivial,trivial⟩ rfl
      (guarded_cons ⟨trivial,trivial⟩ rfl (guarded_cons ⟨trivial,trivial⟩ rfl (guarded_cons ⟨?_,?_⟩ rfl
      (guarded_cons ⟨trivial,trivial⟩ rfl (guarded_last ⟨trivial,trivial⟩))))))))))))))))
    · rintro e ⟨⟩
    · exact (by decide : (0 : UInt32) ≠ counterMask)
    · exact (by decide : 0 + 1 < 2 ^ 31 - 1)

def cycle (place : Nat) : List Action := .call .beginOperation :: List.replicate 5 (.task place .proceeds)

def cycles : Nat → Nat → List Action
  | _, 0 => []
  | place, count + 1 => cycle place ++ cycles (place + 1) count

-- An active session with every operation ended and `count` of them counted.
structure Quiet (s : State) (count : Nat) : Prop where
  word : s.gateAndCounter.toNat = count
  idle : s.operationCounter = 0
  active : s.lifecycle = .active
  tasks : ∀ stage ∈ s.tasks, stage = .ended
  timers : ∀ timer ∈ s.timers, closing timer = false

theorem quiet_unlocked (quiet : Quiet s count) : Unlocked s := by
  refine ⟨quiet.active,fun stage member => ?_,fun stage member => ?_,quiet.timers⟩ <;>
    rw [quiet.tasks stage member] <;> rfl

theorem quiet_cycle (quiet : Quiet s count) (room : count + 1 < 2 ^ 31) :
    ∃ next, run step s (cycle s.tasks.length) = some next ∧ next.tasks.length = s.tasks.length + 1 ∧
      Quiet next (count + 1) := by
  have word := quiet.word
  have opened : gateClosed s.gateAndCounter = false := by
    rw [Bool.eq_false_iff,ne_eq,gate_closed_iff]
    omega
  have more := counted_word opened
  have still : gateClosed (counted s.gateAndCounter) = false := by
    rw [Bool.eq_false_iff,ne_eq,gate_closed_iff]
    omega
  have begun := begin_alone opened
  rw [still,quiet.idle] at begun
  have parts : cycle s.tasks.length =
      (.call .beginOperation :: List.replicate 4 (.task s.tasks.length .proceeds)) ++
        [.task s.tasks.length .proceeds] := rfl
  have drops : advance (joined s (counted s.gateAndCounter) 1 .guarding) s.tasks.length .proceeds .guarding =
      some (joined s (counted s.gateAndCounter) 0 .ended) :=
    congrArg some (joined_move s (counted s.gateAndCounter) 0 .guarding .ended)
  refine ⟨joined s (counted s.gateAndCounter) 0 .ended,?_,?_,?_⟩
  · rw [parts,run_append]
    change (beginAlone s).bind _ = _
    rw [begun]
    exact last_step _ rfl drops []
  · exact List.length_append
  · exact ⟨more.trans (congrArg (· + 1) word),rfl,quiet.active,forall_snoc quiet.tasks rfl,quiet.timers⟩

theorem quiet_cycles (more : Nat) (quiet : Quiet s count) (room : count + more < 2 ^ 31) :
    ∃ next, run step s (cycles s.tasks.length more) = some next ∧ Quiet next (count + more) := by
  induction more generalizing s count with
  | zero => exact ⟨s,rfl,quiet⟩
  | succ more ih =>
    obtain ⟨next,ran,length,quiet⟩ := quiet_cycle quiet (by omega)
    obtain ⟨last,later,quiet⟩ := ih quiet (by omega)
    refine ⟨last,?_,?_⟩
    · rw [cycles,run_append,ran,← length]
      exact later
    · rw [Nat.add_right_comm] at quiet
      exact quiet

-- The operation after 2^31 - 1 others sets the gate bit itself and is turned away.
theorem counting_closes_gate : ¬ Along step Serves start (unlocking ++ cycles 1 (2 ^ 31 - 1)) := by
  intro along
  obtain ⟨opened,ran,quiet⟩ : ∃ opened, run step start unlocking = some opened ∧
      (opened.tasks.length = 1 ∧ Quiet opened 0) := by
    refine ⟨_,rfl,rfl,by decide,rfl,rfl,?_,?_⟩
    · intro stage member
      exact List.mem_singleton.mp member
    · intro timer member
      rw [List.mem_singleton.mp member]
      rfl
  obtain ⟨length,quiet⟩ := quiet
  obtain ⟨last,later,full⟩ := quiet_cycles (2 ^ 31 - 1) quiet (by omega)
  rw [length] at later
  have whole : run step start (unlocking ++ cycles 1 (2 ^ 31 - 1)) = some last := by
    rw [run_append,ran]
    exact later
  obtain ⟨next,begun,guarding,_⟩ := (along_last along whole).served (quiet_unlocked full)
  have word := full.word
  have gate : gateClosed last.gateAndCounter = false := by
    rw [Bool.eq_false_iff,ne_eq,gate_closed_iff]
    omega
  have more := counted_word gate
  have shut : gateClosed (counted last.gateAndCounter) = true := by
    rw [gate_closed_iff]
    omega
  rw [begin_alone gate,shut] at begun
  cases begun
  have undone := List.append_cancel_left guarding
  cases undone

end ArxRuna.Session.Operations
