import ArxRuna.Library.Pool
import ArxRuna.Library.Run
import ArxRuna.Session.Backoff
import Mathlib.Data.Nat.Bitwise
namespace ArxRuna.Session.Tasks
open Library.Run Library.Pool
open Backoff (LifecycleState)

-- The highest bit of the word is the gate, the lower 31 bits count operations.
def gateClosedFlag : UInt32 := 0x80000000

def counterMask : UInt32 := 0x7FFFFFFF

def gateClosed (word : UInt32) : Bool := word &&& gateClosedFlag ≠ 0

def saturatingAdd (a b : UInt32) : UInt32 := if a.toNat + b.toNat < 2 ^ 32 then a + b else 0xFFFFFFFF

def counted (word : UInt32) : UInt32 := saturatingAdd (word &&& counterMask) 1

structure SessionKeys where
  vaultId : String
  metadataStore : Bool
  deriving DecidableEq, Repr

inductive TimerStage where
  | sleeping
  | waiting
  | takeConf
  | clearSession
  | expire
  | ended
  deriving DecidableEq, Repr

-- `cancelled` is a signalled or dropped handle, `aborted` a task that goes on at
-- most to its next suspension.
structure Timer where
  stage : TimerStage
  cancelled : Bool
  aborted : Bool
  deriving DecidableEq, Repr

inductive InstallKind where
  | authenticate
  | finalize
  deriving DecidableEq, Repr

-- Who restarts the timer, and so what comes after.
inductive Restarter where
  | install
  | swap (vaultId : String)
  | reset
  deriving DecidableEq, Repr

-- A task stands before the step it is named after.
inductive Stage where
  | acquireGate (kind : InstallKind) (vaultId : String)
  | checkInactive (kind : InstallKind) (vaultId : String)
  | reserved (vaultId : String)
  | openDatabase (vaultId : String)
  | writeSession (keys : SessionKeys)
  | writeLifecycle (vaultId : String)
  | openGate (vaultId : String)
  | writeVaultId (vaultId : String)
  | writeDbPath (vaultId : String)
  | checkActive (vaultId : String)
  | readDbPath (vaultId : String)
  | reopenDatabase (vaultId : String)
  | swapSession (keys : SessionKeys)
  | swapVaultId (vaultId : String)
  | resetCheck
  | cancelTimer (restarter : Restarter)
  | spawnTimer (restarter : Restarter)
  | storeTimer (restarter : Restarter) (timer : Nat)
  | lockCheck
  | closeGate
  | lockCancelTimer
  | waitIdle
  | takeSession
  | takeConf
  | clearSession
  | expire
  | clearVaultId
  | clearDbPath
  | load
  | exchange (loaded : UInt32)
  | send
  | recheck
  | undo
  | guarding
  | ended
  deriving DecidableEq, Repr

-- `cleared` is how many counted guards were alive each time keys were dropped.
structure State where
  session : Option SessionKeys
  lifecycle : LifecycleState
  gateAndCounter : UInt32
  operationCounter : Nat
  vaultId : Option String
  vaultDbPath : Option String
  rcloneConfPath : Option String
  timer : Option Nat
  permit : Bool
  tasks : List Stage
  timers : List Timer
  cleared : List Nat
  deriving DecidableEq, Repr

inductive Operation where
  | authenticate (vaultId : String)
  | reserve (vaultId : String)
  | swap (vaultId : String)
  | lock
  | resetTimer
  | beginOperation

def Operation.first : Operation → Stage
  | .authenticate vaultId => .acquireGate .authenticate vaultId
  | .reserve vaultId => .acquireGate .finalize vaultId
  | .swap vaultId => .checkActive vaultId
  | .lock => .lockCheck
  | .resetTimer => .resetCheck
  | .beginOperation => .load

-- What a step meets outside the manager: a ceremony goes on or gives up, a
-- database is opened, is missing, or does not open.
inductive Outcome where
  | proceeds
  | opens (store : Bool)
  | fails
  deriving DecidableEq, Repr

inductive Action where
  | call (operation : Operation)
  | task (t : Nat) (outcome : Outcome)
  | timer (e : Nat)
  | reap (e : Nat)
  | setRcloneConfPath (path : String)

def State.move (s : State) (t : Nat) (stage : Stage) : State := {s with tasks := s.tasks.set t stage}

def State.moveTimer (s : State) (e : Nat) (timer : Timer) : State := {s with timers := s.timers.set e timer}

def State.closeGate (s : State) : State := {s with gateAndCounter := s.gateAndCounter ||| gateClosedFlag}

def State.openGate (s : State) : State := {s with gateAndCounter := s.gateAndCounter &&& ~~~gateClosedFlag}

def guards (tasks : List Stage) : Nat := tasks.countP (· = .guarding)

def State.clearKeys (s : State) : State :=
  {s with session := none,cleared := if s.session.isSome then guards s.tasks :: s.cleared else s.cleared}

def State.expire (s : State) : State := {s with lifecycle := .expired}

def State.release (s : State) (t : Nat) : State := {s with permit := false}.move t .ended

def Timer.abort (timer : Timer) : Timer := {timer with cancelled := true,aborted := true}

-- `cancel_timer`: the handle is taken out of the slot, signalled and aborted.
def State.cancelTimer (s : State) : State :=
  match s.timer with
  | none => s
  | some e => {s with timer := none,timers := s.timers.modify e Timer.abort}

def State.spawnTimer (s : State) : State := {s with timers := s.timers ++ [⟨.sleeping,false,false⟩]}

-- A handle that is overwritten drops its cancel sender.
def State.storeTimer (s : State) (timer : Nat) : State :=
  match s.timer with
  | none => {s with timer := some timer}
  | some e => {s with timer := some timer,timers := s.timers.modify e fun old => {old with cancelled := true}}

def install (s : State) (t : Nat) (outcome : Outcome) : Stage → Option State
  | .acquireGate kind vaultId =>
    if s.permit then none else some ({s with permit := true}.move t (.checkInactive kind vaultId))
  | .checkInactive kind vaultId =>
    if s.lifecycle = .active then some (s.release t)
    else
      match kind with
      | .authenticate => some (s.move t (.openDatabase vaultId))
      | .finalize => some (s.move t (.reserved vaultId))
  -- the reservation is dropped, or the install is finalised
  | .reserved vaultId =>
    if outcome = .fails ∨ s.lifecycle = .active then some (s.release t) else some (s.move t (.openDatabase vaultId))
  | .openDatabase vaultId =>
    match outcome with
    | .proceeds => none
    | .opens store => some (s.move t (.writeSession ⟨vaultId,store⟩))
    | .fails => some (s.release t)
  | .writeSession keys => some ({s with session := some keys}.move t (.writeLifecycle keys.vaultId))
  | .writeLifecycle vaultId => some ({s with lifecycle := .active}.move t (.openGate vaultId))
  | .openGate vaultId => some (s.openGate.move t (.writeVaultId vaultId))
  | .writeVaultId vaultId => some ({s with vaultId := some vaultId}.move t (.writeDbPath vaultId))
  | .writeDbPath vaultId => some ({s with vaultDbPath := some vaultId}.move t (.cancelTimer .install))
  | _ => none

def swap (s : State) (t : Nat) (outcome : Outcome) : Stage → Option State
  | .checkActive vaultId => some (s.move t (if s.lifecycle = .active then .readDbPath vaultId else .ended))
  | .readDbPath vaultId => some (s.move t (if s.vaultDbPath.isSome then .reopenDatabase vaultId else .ended))
  | .reopenDatabase vaultId =>
    match outcome with
    | .proceeds => none
    | .opens store => some (s.move t (.swapSession ⟨vaultId,store⟩))
    | .fails => some (s.move t .ended)
  | .swapSession keys => some ({s with session := some keys}.move t (.cancelTimer (.swap keys.vaultId)))
  | .swapVaultId vaultId => some ({s with vaultId := some vaultId}.move t .ended)
  | _ => none

def restart (s : State) (t : Nat) : Stage → Option State
  | .resetCheck => some (s.move t (if s.lifecycle = .active then .cancelTimer .reset else .ended))
  | .cancelTimer restarter => some (s.cancelTimer.move t (.spawnTimer restarter))
  | .spawnTimer restarter =>
    some (s.spawnTimer.move t (.storeTimer restarter s.timers.length))
  | .storeTimer restarter timer =>
    match restarter with
    | .install => some ((s.storeTimer timer).release t)
    | .swap vaultId => some ((s.storeTimer timer).move t (.swapVaultId vaultId))
    | .reset => some ((s.storeTimer timer).move t .ended)
  | _ => none

def lock (s : State) (t : Nat) : Stage → Option State
  | .lockCheck => some (s.move t (if s.lifecycle = .active then .closeGate else .ended))
  | .closeGate => some (s.closeGate.move t .lockCancelTimer)
  | .lockCancelTimer => some (s.cancelTimer.move t .waitIdle)
  | .waitIdle => if s.operationCounter = 0 then some (s.move t .takeSession) else none
  | .takeSession => some (s.clearKeys.move t .takeConf)
  | .takeConf => some ({s with rcloneConfPath := none}.move t .clearSession)
  | .clearSession => some (s.clearKeys.move t .expire)
  | .expire => if s.lifecycle = .active then some (s.expire.move t .clearVaultId) else some (s.move t .ended)
  | .clearVaultId => some ({s with vaultId := none}.move t .clearDbPath)
  | .clearDbPath => some ({s with vaultDbPath := none}.move t .ended)
  | _ => none

def operation (s : State) (t : Nat) : Stage → Option State
  | .load => some (s.move t (if gateClosed s.gateAndCounter then .ended else .exchange s.gateAndCounter))
  | .exchange loaded =>
    if s.gateAndCounter = loaded then some ({s with gateAndCounter := counted loaded}.move t .send)
    else some (s.move t .load)
  | .send => some ({s with operationCounter := min (s.operationCounter + 1) (2 ^ 32 - 1)}.move t .recheck)
  | .recheck => some (s.move t (if gateClosed s.gateAndCounter then .undo else .guarding))
  | .undo => some ({s with operationCounter := s.operationCounter - 1}.move t .ended)
  -- the guard is dropped
  | .guarding => some ({s with operationCounter := s.operationCounter - 1}.move t .ended)
  | _ => none

def advance (s : State) (t : Nat) (outcome : Outcome) (stage : Stage) : Option State :=
  match stage with
  | .acquireGate _ _ | .checkInactive _ _ | .reserved _ | .openDatabase _ | .writeSession _ | .writeLifecycle _
  | .openGate _ | .writeVaultId _ | .writeDbPath _ => install s t outcome stage
  | .checkActive _ | .readDbPath _ | .reopenDatabase _ | .swapSession _ | .swapVaultId _ => swap s t outcome stage
  | .resetCheck | .cancelTimer _ | .spawnTimer _ | .storeTimer _ _ => restart s t stage
  | .lockCheck | .closeGate | .lockCancelTimer | .waitIdle | .takeSession | .takeConf | .clearSession | .expire
  | .clearVaultId | .clearDbPath => lock s t stage
  | .load | .exchange _ | .send | .recheck | .undo | .guarding => operation s t stage
  | .ended => none

-- `run_timer` after its sleep; an aborted task may come as far before it is dropped.
def runTimer (s : State) (e : Nat) (timer : Timer) : Option State :=
  match timer.stage with
  | .sleeping => some (s.closeGate.moveTimer e {timer with stage := .waiting})
  | .waiting => if s.operationCounter = 0 then some (s.moveTimer e {timer with stage := .takeConf}) else none
  | .takeConf => some ({s with rcloneConfPath := none}.moveTimer e {timer with stage := .clearSession})
  | .clearSession => some (s.clearKeys.moveTimer e {timer with stage := .expire})
  | .expire =>
    some ((if s.lifecycle = .active then s.expire else s).moveTimer e {timer with stage := .ended})
  | .ended => none

def step (s : State) : Action → Option State
  | .call operation => some {s with tasks := s.tasks ++ [operation.first]}
  | .task t outcome => s.tasks[t]?.bind (advance s t outcome)
  | .timer e => s.timers[e]?.bind (runTimer s e)
  | .reap e => s.timers[e]?.bind fun timer =>
    if timer.aborted ∨ timer.cancelled ∧ timer.stage = .sleeping then
      some (s.moveTimer e {timer with stage := .ended})
    else none
  | .setRcloneConfPath path => some {s with rcloneConfPath := some path}

def start : State := ⟨none,.noSession,gateClosedFlag,0,none,none,none,none,false,[],[],[]⟩

theorem gate_closed_iff {word : UInt32} : gateClosed word = true ↔ 2 ^ 31 ≤ word.toNat := by
  have bit : (word &&& gateClosedFlag).toNat = (word.toNat.testBit 31).toNat * 2 ^ 31 := by
    rw [UInt32.toNat_and]
    exact Nat.and_two_pow word.toNat 31
  have bound := word.toNat_lt
  have high : word.toNat.testBit 31 = decide (2 ^ 31 ≤ word.toNat) := by
    rw [Nat.testBit_eq_decide_div_mod_eq]
    apply decide_eq_decide.mpr
    omega
  rw [gateClosed,decide_eq_true_eq,ne_eq,← UInt32.toNat_inj,bit,high]
  by_cases large : 2 ^ 31 ≤ word.toNat
  · rw [decide_eq_true large]
    exact iff_of_true (by decide) large
  · rw [decide_eq_false large]
    exact iff_of_false (by decide) large

theorem gate_closed_or (word : UInt32) : gateClosed (word ||| gateClosedFlag) = true := by
  rw [gate_closed_iff,UInt32.toNat_or]
  exact Nat.right_le_or

theorem opened_word (word : UInt32) : (word &&& ~~~gateClosedFlag).toNat = word.toNat % 2 ^ 31 := by
  have mask : ~~~gateClosedFlag = counterMask := by decide
  rw [mask,UInt32.toNat_and]
  exact Nat.and_two_pow_sub_one_eq_mod _ 31

theorem gate_opened (word : UInt32) : gateClosed (word &&& ~~~gateClosedFlag) = false := by
  rw [Bool.eq_false_iff,ne_eq,gate_closed_iff,opened_word]
  omega

theorem counted_word {word : UInt32} (opened : gateClosed word = false) : (counted word).toNat = word.toNat + 1 := by
  rw [Bool.eq_false_iff,ne_eq,gate_closed_iff] at opened
  have low : (word &&& counterMask).toNat = word.toNat := by
    rw [UInt32.toNat_and]
    exact (Nat.and_two_pow_sub_one_eq_mod _ 31).trans (Nat.mod_eq_of_lt (by omega))
  have room : (word &&& counterMask).toNat + (1 : UInt32).toNat < 2 ^ 32 := by
    rw [low]
    change word.toNat + 1 < 2 ^ 32
    omega
  rw [counted,saturatingAdd,if_pos room,UInt32.toNat_add,low]
  change (word.toNat + 1) % 2 ^ 32 = word.toNat + 1
  omega

end ArxRuna.Session.Tasks
