import ArxRuna.Library.Run
import ArxRuna.Credentials.Keys
namespace ArxRuna.Session.Backoff
open Library.Aead Library.Run Crypto Credentials.Keys
variable {suite : Suite}

inductive LifecycleState where
  | noSession
  | active
  | expired
  deriving DecidableEq, Repr

inductive KeySourceError where
  | notFound
  | invalidSize (actual : Nat)
  | ioFailed
  deriving DecidableEq, Repr

structure Manager where
  lifecycle : LifecycleState
  failedAttempts : UInt32
  backoffDeadline : Option Nat
  deriving DecidableEq, Repr

-- The arguments of one call and what it meets: the key under which the vault's
-- database opens, if there is one, and the milliseconds each part takes.
structure Call where
  password : Bytes
  keySource : Option (Except KeySourceError KeyFile)
  salt : Salt
  parameters : Argon2Params
  joins : Bool
  memoryLock : Except String Unit
  database : Option SqlcipherKey
  readable : Bool
  idle : Nat
  readTime : Nat
  deriveTime : Nat
  openTime : Nat

inductive Outcome where
  | opened
  | unverified
  | refused (error : AuthenticationError)
  deriving DecidableEq, Repr

-- `began` is when the call went past the backoff gate.
structure Answer where
  arrived : Nat
  began : Option Nat
  ended : Nat
  outcome : Outcome
  deriving DecidableEq, Repr

inductive Opening where
  | absent
  | opened
  | failed
  deriving DecidableEq, Repr

def Call.opening (call : Call) (keys : VaultKeys) : Opening :=
  match call.database with
  | none => .absent
  | some key => if call.readable ∧ key = keys.sqlcipherKey then .opened else .failed

def backoffDelay (attempts : UInt32) : Nat := min 30000 (1000 <<< (min (attempts - 1) 5).toNat)

def recordFailedAttempt (m : Manager) (now : Nat) : Manager :=
  let attempts := m.failedAttempts + 1
  {m with failedAttempts := attempts,backoffDeadline := some (now + backoffDelay attempts)}

def deriveSession (suite : Suite) (call : Call) (keyFile : Option KeyFile) : Except AuthenticationError VaultKeys := do
  let masterKey ← deriveMasterKey suite call.password keyFile call.salt call.parameters
  match call.memoryLock with
  | .error text => .error (.memoryLockFailed text)
  | .ok () => .ok (deriveVaultKeys suite masterKey)

def readKey : Option (Except KeySourceError KeyFile) → Except KeySourceError (Option KeyFile)
  | none => .ok none
  | some (.ok keyFile) => .ok (some keyFile)
  | some (.error failure) => .error failure

def authenticate (suite : Suite) (m : Manager) (call : Call) (arrived : Nat) : Manager × Answer :=
  if m.lifecycle = .active then (m,⟨arrived,none,arrived,.refused .sessionAlreadyActive⟩)
  else
    let began := max arrived (m.backoffDeadline.getD 0)
    let keyRead := began + call.readTime
    let derived := keyRead + call.deriveTime
    let finished := derived + call.openTime
    match readKey call.keySource with
    | .error .ioFailed =>
      (recordFailedAttempt m keyRead,⟨arrived,some began,keyRead,.refused .invalidCredentials⟩)
    | .error _ => (m,⟨arrived,some began,keyRead,.refused .keyFileNotFound⟩)
    | .ok keyFile =>
      if call.joins = false then
        (recordFailedAttempt m derived,⟨arrived,some began,derived,.refused .invalidCredentials⟩)
      else
        match deriveSession suite call keyFile with
        | .error (.memoryLockFailed text) => (m,⟨arrived,some began,derived,.refused (.memoryLockFailed text)⟩)
        | .error error => (recordFailedAttempt m derived,⟨arrived,some began,derived,.refused error⟩)
        | .ok keys =>
          if ¬ keys.initialised then
            (recordFailedAttempt m derived,⟨arrived,some began,derived,.refused .invalidCredentials⟩)
          else
            -- the reset comes before the database has been opened
            let reset := {m with failedAttempts := 0,backoffDeadline := none}
            match call.opening keys with
            | .failed =>
              (recordFailedAttempt reset finished,⟨arrived,some began,finished,.refused .invalidCredentials⟩)
            | .opened => ({reset with lifecycle := .active},⟨arrived,some began,finished,.opened⟩)
            | .absent => ({reset with lifecycle := .active},⟨arrived,some began,finished,.unverified⟩)

-- How far the arguments alone carry a call.
def credentialKeys (suite : Suite) (call : Call) : Except AuthenticationError VaultKeys := do
  let keyFile ← match readKey call.keySource with
    | .error .ioFailed => .error .invalidCredentials
    | .error _ => .error .keyFileNotFound
    | .ok keyFile => .ok keyFile
  if call.joins = false then .error .invalidCredentials
  else
    let keys ← deriveSession suite call keyFile
    if ¬ keys.initialised then .error .invalidCredentials else .ok keys

-- The newest answer comes first.
structure State where
  manager : Manager
  clock : Nat
  history : List Answer

inductive Action where
  | authenticate (call : Call)
  | lock

def State.answered (s : State) (result : Manager × Answer) : State :=
  ⟨result.1,result.2.ended,result.2 :: s.history⟩

def step (suite : Suite) (s : State) : Action → Option State
  | .authenticate call => some (s.answered (authenticate suite s.manager call (s.clock + call.idle)))
  | .lock =>
    some {s with manager := if s.manager.lifecycle = .active then {s.manager with lifecycle := .expired} else s.manager}

def start : State := ⟨⟨.noSession,0,none⟩,0,[]⟩

def consecutiveFailures : List Answer → Nat
  | [] => 0
  | answer :: earlier =>
    match answer.outcome with
    | .opened => 0
    | .refused .invalidCredentials => consecutiveFailures earlier + 1
    | _ => consecutiveFailures earlier

def lastFailure : List Answer → Nat
  | [] => 0
  | answer :: earlier =>
    if answer.outcome = .refused .invalidCredentials then answer.ended else lastFailure earlier

-- When an attempt after the answered ones may go on.
def resumes (history : List Answer) : Nat :=
  lastFailure history + min 30000 (1000 * 2 ^ (consecutiveFailures history - 1))

def Escalates : List Answer → Prop
  | [] => True
  | answer :: earlier => Escalates earlier ∧ ∀ began, answer.began = some began →
      0 < consecutiveFailures earlier → began = max answer.arrived (resumes earlier)

structure BackoffLaw (s : State) : Prop where
  attempts : Escalates s.history
  next : 0 < consecutiveFailures s.history → s.manager.backoffDeadline = some (resumes s.history)
  counted : s.manager.failedAttempts.toNat = consecutiveFailures s.history

-- Keys that could be derived either open the database or come while no failure is
-- counted; a counter of 32 bits has room for one more failure.
def Orderly (suite : Suite) (s : State) : Action → Prop
  | .lock => True
  | .authenticate call => s.manager.lifecycle ≠ .active →
    match credentialKeys suite call with
    | .ok keys => s.manager.failedAttempts = 0 ∨ call.opening keys = .opened
    | .error .invalidCredentials => s.manager.failedAttempts + 1 ≠ 0
    | .error _ => True

theorem backoff_delay {attempts : UInt32} (filled : attempts ≠ 0) :
    backoffDelay attempts = min 30000 (1000 * 2 ^ (attempts.toNat - 1)) := by
  have positive : attempts.toNat ≠ 0 := fun zero => filled (UInt32.toNat_inj.mp zero)
  have below : (attempts - 1).toNat = attempts.toNat - 1 := by
    have bound := attempts.toNat_lt
    rw [UInt32.toNat_sub]
    change (2 ^ 32 - 1 + attempts.toNat) % 2 ^ 32 = attempts.toNat - 1
    omega
  have capped : (min (attempts - 1) 5).toNat = min (attempts.toNat - 1) 5 := by
    rw [← below]
    change (if attempts - 1 ≤ 5 then attempts - 1 else 5).toNat = _
    split
    · rename_i small
      exact (min_eq_left (UInt32.le_iff_toNat_le.mp small)).symm
    · rename_i large
      rw [UInt32.le_iff_toNat_le] at large
      exact (min_eq_right (Nat.le_of_not_le large)).symm
  rw [backoffDelay,capped,Nat.shiftLeft_eq]
  by_cases small : attempts.toNat - 1 ≤ 5
  · rw [min_eq_left small]
  · have large : 2 ^ 5 ≤ 2 ^ (attempts.toNat - 1) := Nat.pow_le_pow_right (by omega) (by omega)
    rw [min_eq_right (by omega : 5 ≤ attempts.toNat - 1)]
    omega

theorem derive_master_refused (refused : deriveMasterKey suite password keyFile salt parameters = .error error) :
    error = .invalidCredentials := by
  unfold deriveMasterKey at refused
  dsimp only at refused
  split at refused
  · cases refused
    rfl
  · cases refused

theorem derive_session_refused (refused : deriveSession suite call keyFile = .error error) :
    error = .invalidCredentials ∨ ∃ text, error = .memoryLockFailed text := by
  unfold deriveSession at refused
  cases derived : deriveMasterKey suite call.password keyFile call.salt call.parameters with
  | error failure =>
    rw [derived] at refused
    cases refused
    exact .inl (derive_master_refused derived)
  | ok masterKey =>
    rw [derived] at refused
    dsimp only [bind,Except.bind] at refused
    cases locked : call.memoryLock with
    | error text =>
      rw [locked] at refused
      cases refused
      exact .inr ⟨text,rfl⟩
    | ok _ =>
      rw [locked] at refused
      cases refused

theorem authenticate_refused (arrived : Nat) (inactive : m.lifecycle ≠ .active)
    (refused : credentialKeys suite call = .error error) :
    ∃ ended, authenticate suite m call arrived =
      (if error = .invalidCredentials then recordFailedAttempt m ended else m,
        ⟨arrived,some (max arrived (m.backoffDeadline.getD 0)),ended,.refused error⟩) := by
  unfold credentialKeys at refused
  unfold authenticate
  rw [if_neg inactive]
  dsimp only
  cases source : readKey call.keySource with
  | error failure =>
    rw [source] at refused
    cases failure <;> cases refused <;> exact ⟨_,rfl⟩
  | ok keyFile =>
    rw [source] at refused
    change (if call.joins = false then _ else _) = _ at refused
    dsimp only
    by_cases panicked : call.joins = false
    · rw [if_pos panicked] at refused ⊢
      cases refused
      exact ⟨_,rfl⟩
    · rw [if_neg panicked] at refused ⊢
      cases derived : deriveSession suite call keyFile with
      | error failure =>
        rw [derived] at refused
        cases refused
        rcases derive_session_refused derived with rfl | ⟨text,rfl⟩ <;> exact ⟨_,rfl⟩
      | ok keys =>
        rw [derived] at refused
        change (if ¬ keys.initialised then _ else _) = _ at refused
        dsimp only
        by_cases zero : ¬ keys.initialised
        · rw [if_pos zero] at refused ⊢
          cases refused
          exact ⟨_,rfl⟩
        · rw [if_neg zero] at refused
          cases refused

theorem authenticate_keys (arrived : Nat) (inactive : m.lifecycle ≠ .active) (accepted : credentialKeys suite call = .ok keys) :
    ∃ finished, authenticate suite m call arrived =
      match call.opening keys with
      | .failed => (recordFailedAttempt {m with failedAttempts := 0,backoffDeadline := none} finished,
          ⟨arrived,some (max arrived (m.backoffDeadline.getD 0)),finished,.refused .invalidCredentials⟩)
      | .opened => (⟨.active,0,none⟩,⟨arrived,some (max arrived (m.backoffDeadline.getD 0)),finished,.opened⟩)
      | .absent => (⟨.active,0,none⟩,⟨arrived,some (max arrived (m.backoffDeadline.getD 0)),finished,.unverified⟩) := by
  unfold credentialKeys at accepted
  unfold authenticate
  rw [if_neg inactive]
  dsimp only
  cases source : readKey call.keySource with
  | error failure =>
    rw [source] at accepted
    cases failure <;> cases accepted
  | ok keyFile =>
    rw [source] at accepted
    change (if call.joins = false then _ else _) = _ at accepted
    dsimp only
    by_cases panicked : call.joins = false
    · rw [if_pos panicked] at accepted
      cases accepted
    · rw [if_neg panicked] at accepted ⊢
      cases derived : deriveSession suite call keyFile with
      | error failure =>
        rw [derived] at accepted
        cases accepted
      | ok derivedKeys =>
        rw [derived] at accepted
        change (if ¬ derivedKeys.initialised then _ else _) = _ at accepted
        dsimp only
        by_cases zero : ¬ derivedKeys.initialised
        · rw [if_pos zero] at accepted
          cases accepted
        · rw [if_neg zero] at accepted ⊢
          cases accepted
          exact ⟨_,rfl⟩

theorem waited_escalates (law : BackoffLaw s)
    (waited : answer.began = some (max answer.arrived (s.manager.backoffDeadline.getD 0))) :
    Escalates (answer :: s.history) := by
  refine ⟨law.attempts,fun began here earlier => ?_⟩
  rw [waited,law.next earlier] at here
  cases here
  rfl

theorem failure_law {s : State} {m : Manager}
    (attempts : Escalates (⟨arrived,began,ended,.refused .invalidCredentials⟩ :: s.history))
    (counted : m.failedAttempts.toNat = consecutiveFailures s.history) (room : m.failedAttempts + 1 ≠ 0) :
    BackoffLaw (s.answered (recordFailedAttempt m ended,⟨arrived,began,ended,.refused .invalidCredentials⟩)) := by
  have count : (m.failedAttempts + 1).toNat = consecutiveFailures s.history + 1 := by
    rw [← counted]
    have bound := m.failedAttempts.toNat_lt
    have filled : (m.failedAttempts + 1).toNat ≠ 0 := fun zero => room (UInt32.toNat_inj.mp zero)
    rw [UInt32.toNat_add] at filled ⊢
    change (m.failedAttempts.toNat + 1) % 2 ^ 32 ≠ 0 at filled
    change (m.failedAttempts.toNat + 1) % 2 ^ 32 = _
    omega
  refine ⟨attempts,fun _ => ?_,count⟩
  change some (ended + backoffDelay (m.failedAttempts + 1)) =
    some (ended + min 30000 (1000 * 2 ^ (consecutiveFailures s.history + 1 - 1)))
  rw [backoff_delay room,count]

def uncounted : Outcome → Bool
  | .opened => false
  | .unverified => true
  | .refused error => error ≠ .invalidCredentials

theorem uncounted_same (other : uncounted answer.outcome = true) (history : List Answer) :
    consecutiveFailures (answer :: history) = consecutiveFailures history ∧
      resumes (answer :: history) = resumes history := by
  have count : consecutiveFailures (answer :: history) = consecutiveFailures history := by
    rw [consecutiveFailures]
    split
    · rename_i opened
      rw [opened] at other
      cases other
    · rename_i failed
      rw [failed] at other
      cases other
    · rfl
  refine ⟨count,?_⟩
  have same : lastFailure (answer :: history) = lastFailure history := by
    refine if_neg fun failed => ?_
    rw [failed] at other
    cases other
  rw [resumes,resumes,count,same]

theorem uncounted_law (law : BackoffLaw s) (other : uncounted answer.outcome = true)
    (attempts : Escalates (answer :: s.history)) : BackoffLaw ⟨s.manager,answer.ended,answer :: s.history⟩ := by
  obtain ⟨count,resume⟩ := uncounted_same other s.history
  refine ⟨attempts,?_,law.counted.trans count.symm⟩
  rw [count,resume]
  exact law.next

-- No failure is counted after a call that ended in a session.
theorem session_law (attempts : Escalates (answer :: history)) (fresh : consecutiveFailures (answer :: history) = 0)
    (clock : Nat) : BackoffLaw ⟨⟨.active,0,none⟩,clock,answer :: history⟩ := by
  refine ⟨attempts,fun some => ?_,fresh.symm⟩
  rw [fresh] at some
  cases some

theorem lock_law (law : BackoffLaw s) (taken : step suite s .lock = some next) : BackoffLaw next := by
  cases taken
  refine ⟨law.attempts,?_,?_⟩
  · dsimp only
    split <;> exact law.next
  · dsimp only
    split <;> exact law.counted

theorem authenticate_law (law : BackoffLaw s) (orderly : Orderly suite s (.authenticate call)) :
    BackoffLaw (s.answered (authenticate suite s.manager call (s.clock + call.idle))) := by
  by_cases active : s.manager.lifecycle = .active
  · rw [authenticate,if_pos active]
    exact uncounted_law law rfl ⟨law.attempts,by rintro began ⟨⟩⟩
  · have condition := orderly active
    cases derived : credentialKeys suite call with
    | error error =>
      obtain ⟨ended,same⟩ := authenticate_refused (s.clock + call.idle) active derived
      rw [derived] at condition
      rw [same]
      by_cases counted : error = .invalidCredentials
      · subst counted
        exact failure_law (waited_escalates law rfl) law.counted condition
      · rw [if_neg counted]
        exact uncounted_law law (by simpa [uncounted] using counted) (waited_escalates law rfl)
    | ok keys =>
      obtain ⟨finished,same⟩ := authenticate_keys (s.clock + call.idle) active derived
      rw [derived] at condition
      rw [same]
      cases found : call.opening keys with
      | opened => exact session_law (waited_escalates law rfl) rfl _
      | absent =>
        have none : s.manager.failedAttempts = 0 := condition.resolve_right (by rw [found]; rintro ⟨⟩)
        have fresh : consecutiveFailures s.history = 0 := law.counted.symm.trans (congrArg UInt32.toNat none)
        exact session_law (waited_escalates law rfl) ((uncounted_same rfl _).1.trans fresh) _
      | failed =>
        have none : s.manager.failedAttempts = 0 := condition.resolve_right (by rw [found]; rintro ⟨⟩)
        have fresh : 0 = consecutiveFailures s.history := (congrArg UInt32.toNat none).symm.trans law.counted
        have room : (0 : UInt32) + 1 ≠ 0 := by decide
        exact failure_law (waited_escalates law rfl) fresh room

theorem step_preserves (law : BackoffLaw s) (orderly : Orderly suite s act) (taken : step suite s act = some next) :
    BackoffLaw next := by
  cases act with
  | lock => exact lock_law law taken
  | authenticate call =>
    cases taken
    exact authenticate_law law orderly

-- A reset that no opened database stands behind, or a counter that ran over.
theorem step_breaks (law : BackoffLaw s) (disorderly : ¬ Orderly suite s act) (taken : step suite s act = some next) :
    ¬ BackoffLaw next := by
  cases act with
  | lock => exact absurd trivial disorderly
  | authenticate call =>
    cases taken
    intro after
    have count := after.counted
    rw [Orderly,Classical.not_imp] at disorderly
    obtain ⟨inactive,failing⟩ := disorderly
    cases derived : credentialKeys suite call with
    | error error =>
      obtain ⟨ended,same⟩ := authenticate_refused (s.clock + call.idle) inactive derived
      rw [derived] at failing
      rw [same] at count
      by_cases counted : error = .invalidCredentials
      · subst counted
        have wraps : s.manager.failedAttempts + 1 = 0 := not_not.mp failing
        change (s.manager.failedAttempts + 1).toNat = _ at count
        rw [wraps] at count
        cases count
      · refine absurd ?_ failing
        cases error <;> first | exact absurd rfl counted | trivial
    | ok keys =>
      obtain ⟨finished,same⟩ := authenticate_keys (s.clock + call.idle) inactive derived
      rw [derived] at failing
      obtain ⟨some,unopened⟩ := not_or.mp failing
      have positive : consecutiveFailures s.history ≠ 0 := by
        rw [← law.counted]
        exact fun zero => some (UInt32.toNat_inj.mp zero)
      rw [same] at count
      cases found : call.opening keys with
      | opened => exact unopened found
      | absent =>
        rw [found] at count
        exact positive count.symm
      | failed =>
        rw [found] at count
        change (1 : Nat) = consecutiveFailures s.history + 1 at count
        omega

theorem start_law : BackoffLaw start := by
  refine ⟨trivial,?_,rfl⟩
  rintro ⟨⟩

-- The delay escalates along a run exactly when no call derives keys that fail to
-- open the database while failures are counted.
theorem backoff_escalates_iff (ran : run (step suite) start acts = some last) :
    Along (step suite) BackoffLaw start acts ↔ Guarded (step suite) (Orderly suite) start acts :=
  along_iff_guarded (fun _ law => law) (fun _ _ _ => step_preserves) (fun _ _ _ => step_breaks) start_law ran

def wrongPassword : Call where
  password := [7]
  keySource := none
  salt := byteKey 1
  parameters := .default
  joins := true
  memoryLock := .ok ()
  database := some (byteKey 9)
  readable := true
  idle := 0
  readTime := 0
  deriveTime := 500
  openTime := 10

def unreadableKey : Call := {wrongPassword with keySource := some (.error .ioFailed)}

-- A wrong password and then key files that cannot be read are counted as the law asks.
theorem refusals_escalate : Along (step plainSuite) BackoffLaw start
    [.authenticate wrongPassword,.authenticate unreadableKey,.authenticate unreadableKey,
      .authenticate unreadableKey] := by
  refine (backoff_escalates_iff rfl).mpr (guarded_cons ?_ rfl (guarded_cons ?_ rfl (guarded_cons ?_ rfl
    (guarded_last ?_))))
  · exact fun _ => .inl rfl
  · rintro _
    exact (by decide : (1 : UInt32) + 1 ≠ 0)
  · rintro _
    exact (by decide : (2 : UInt32) + 1 ≠ 0)
  · rintro _
    exact (by decide : (3 : UInt32) + 1 ≠ 0)

-- After two the third call goes on after one second, not after two.
theorem second_failure_forgotten : ¬ Along (step plainSuite) BackoffLaw start
    [.authenticate wrongPassword,.authenticate wrongPassword,.authenticate wrongPassword] := by
  intro along
  have law := along_last along rfl
  have resumed : (3020 : Nat) = max 2020 4020 := law.attempts.2 3020 rfl Nat.two_pos
  cases resumed

end ArxRuna.Session.Backoff
