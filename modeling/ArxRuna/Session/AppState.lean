import ArxRuna.Credentials.Commands
import ArxRuna.Library.Run
import ArxRuna.Library.Triples
namespace ArxRuna.Session.AppState
open Library.Interrupt Library.Run Library.Triples
open Credentials.Commands (IpcError)

structure Destination where
  destinationId : String
  rcloneRemoteName : String
  rcloneConfigBlob : String
  bucket : String
  pathPrefix : String
  isPrimary : Bool
  backupMode : Option String
  deriving DecidableEq, Repr

def getPrimary (destinations : List Destination) : Option Destination := destinations.find? (·.isPrimary)

-- `swap_primary_destination`: the old primary becomes a mirror.
def swapPrimary (id : String) (destinations : List Destination) : List Destination :=
  destinations.map fun destination =>
    {destination with
      isPrimary := destination.destinationId = id
      backupMode := if destination.isPrimary = true ∧ destination.backupMode = none then some "mirror"
        else destination.backupMode}

-- `serial` counts the sessions, `db` is the directory whose database is open;
-- `store` says whether there was one to open.
structure OpenSession where
  vaultId : String
  db : String
  store : Bool
  serial : Nat
  deriving DecidableEq, Repr

-- A transport and the database its destination was read from.
structure Built where
  db : String
  destination : Destination
  deriving DecidableEq, Repr

-- What the session manager and `AppState` hold, and the databases on disk.
-- `rcloneConf` is the session the held path was created for, and `none` in
-- `cloudTransport` is the unconfigured transport.
structure World where
  session : Option OpenSession
  opened : Nat
  managerVaultId : Option String
  rcloneConf : Option Nat
  activeVaultId : Option String
  cloudTransport : Option Built
  vaults : String → Option (List Destination)

def World.setVault (w : World) (db : String) (destinations : Option (List Destination)) : World :=
  {w with vaults := fun other => if other = db then destinations else w.vaults other}

-- `run_timer` takes the path and the keys; it does not know `AppState`.
def World.expire (w : World) : World :=
  match w.session with
  | none => w
  | some _ => {w with session := none,rcloneConf := none}

-- `SessionManager::lock` acts on an active session only.
def World.lock (w : World) : World :=
  match w.session with
  | none => w
  | some _ => {w with session := none,rcloneConf := none,managerVaultId := none}

def World.install (w : World) (vaultId db : String) : World :=
  {w with
    session := some ⟨vaultId,db,(w.vaults db).isSome,w.opened + 1⟩
    opened := w.opened + 1
    managerVaultId := some vaultId}

inductive Step where
  | starts
  | validates
  | unlocks
  | creates
  | inserts
  | uploads
  | claims
  | recovers
  | installs
  | serialises
  | writesHeader
  | asksStore
  | createsDir
  | buildsConf
  | queriesPrimary
  | buildsTransport
  | prepares
  | names
  | ends
  | swapsPrimary
  | findsApp
  | transfers
  | locks
  | removes
  deriving DecidableEq, Repr

-- Which steps fail, and before which the inactivity timer runs out.
structure CommandEnv where
  fates : Step → Except IpcError Unit
  expires : Step → Bool
  headerStands : Bool

def CommandEnv.ok (env : CommandEnv) (p : Step) : Prop := env.fates p = .ok ()

abbrev AppCommand := Command World IpcError Unit

variable (env : CommandEnv)

def tick (p : Step) : AppCommand := change fun w => if env.expires p then w.expire else w

def point (p : Step) : AppCommand := do
  tick env p
  demand (env.fates p)

def requireActive : AppCommand := do
  require ((← inspect).session.isSome = true) (.vaultLocked "Vault is locked")

def requireInactive : AppCommand := do
  require ((← inspect).session.isNone = true) (.invalidInput "A session is already active; lock it first")

-- Early returns are failures here, and none of them reaches the caller.
def tryBuildAndSwapRcloneTransport (db : String) : AppCommand := ignoring do
  point env .createsDir
  change fun w => {w with rcloneConf := some w.opened}
  point env .buildsConf
  point env .queriesPrimary
  match ((← inspect).vaults db).bind getPrimary with
  | none => fail (.notFound "No primary destination configured")
  | some destination => do
    point env .buildsTransport
    change fun w => {w with cloudTransport := some ⟨db,destination⟩}

def withStore (next : String → AppCommand) : AppCommand := do
  match (← inspect).session with
  | none => pure ()
  | some session => whenever session.store (next session.db)

def activate (vaultId : String) : AppCommand := do
  tick env .names
  change fun w => {w with activeVaultId := some vaultId}
  tick env .ends

def afterInstall (vaultId : String) : AppCommand := do
  tick env .asksStore
  withStore fun db => do
    tryBuildAndSwapRcloneTransport env db
    tick env .prepares
  activate env vaultId

def authenticate (vaultId : String) : AppCommand := do
  tick env .starts
  point env .validates
  requireInactive
  point env .unlocks
  change (·.install vaultId vaultId)
  afterInstall env vaultId

-- The destination is committed before the session is installed.
def createVault (vaultId : String) (destination : Destination) : AppCommand := do
  tick env .starts
  point env .validates
  undoing (·.setVault vaultId none) do
    requireInactive
    point env .creates
    change (·.setVault vaultId (some []))
    point env .inserts
    change (·.setVault vaultId (some [destination]))
    point env .uploads
    point env .installs
    requireInactive
    change (·.install vaultId vaultId)
  afterInstall env vaultId

-- A directory without a complete vault is wiped; the database is imported there.
def recoverInto (dir vaultId : String) (imported : List Destination) : AppCommand := do
  tick env .starts
  point env .validates
  require (¬ (((← inspect).vaults dir).isSome = true ∧ env.headerStands = true))
    (.invalidInput "Vault already exists on this device")
  point env .claims
  change (·.setVault dir none)
  undoing (·.setVault dir none) do
    requireInactive
    point env .recovers
    change (·.setVault dir (some imported))
    point env .installs
    requireInactive
    change (·.install vaultId dir)

def insertDestination (db : String) (destination : Destination) : AppCommand := do
  match (← inspect).vaults db with
  | none => pure ()
  | some destinations =>
    whenever (getPrimary destinations).isNone <| ignoring do
      demand (env.fates .inserts)
      change (·.setVault db (some (destinations ++ [destination])))

def postRecoverySetup (destination : Destination) : AppCommand := do
  tick env .asksStore
  withStore fun db => do
    insertDestination env db destination
    tryBuildAndSwapRcloneTransport env db
    tick env .prepares

-- The directory is named by the header downloaded first, the session by the one the
-- ceremony downloads again.
def recoverVaultFromCloud (dir vaultId : String) (imported : List Destination) (destination : Destination) :
    AppCommand := do
  recoverInto env dir vaultId imported
  postRecoverySetup env destination
  activate env vaultId

-- Here the local header is written after the session is open.
def recoverVaultFromCloudWithPhrase (vaultId : String) (imported : List Destination) (destination : Destination) :
    AppCommand := do
  recoverInto env vaultId vaultId imported
  point env .serialises
  undoing (·.setVault vaultId none) (point env .writesHeader)
  postRecoverySetup env destination
  activate env vaultId

def lockSession : AppCommand := do
  tick env .starts
  tick env .locks
  change World.lock
  change fun w => {w with cloudTransport := none}
  change fun w => {w with activeVaultId := none}
  tick env .ends

def deleteVault : AppCommand := do
  tick env .starts
  requireActive
  point env .validates
  match (← inspect).managerVaultId with
  | none => fail (.vaultLocked "Vault is locked")
  | some vaultId => do
    tick env .locks
    change World.lock
    change fun w => {w with cloudTransport := none}
    ignoring do
      point env .removes
      change (·.setVault vaultId none)
    change fun w => {w with activeVaultId := none}
    tick env .ends

def metadataStore (next : String → AppCommand) : AppCommand := do
  match (← inspect).session with
  | none => fail (.vaultLocked "Vault is locked")
  | some session =>
    if session.store then next session.db else fail (.vaultLocked "Vault is locked")

def setPrimaryDestinationInDb (db id : String) : AppCommand := do
  point env .swapsPrimary
  match (← inspect).vaults db with
  | none => fail (.notFound "Destination not found")
  | some destinations => do
    require (destinations.any (·.destinationId = id) = true) (.notFound "Destination not found")
    change (·.setVault db (some (swapPrimary id destinations)))

-- A path that is held is kept, also one that no transport was built with.
def holdConf : AppCommand := do
  whenever (← inspect).rcloneConf.isNone do
    point env .createsDir
    change fun w => {w with rcloneConf := some w.opened}

def setPrimaryDestination (id : String) : AppCommand := do
  tick env .starts
  requireActive
  point env .validates
  metadataStore fun db => do
    setPrimaryDestinationInDb env db id
    point env .queriesPrimary
    match ((← inspect).vaults db).bind getPrimary with
    | none => fail (.internalError "Primary destination missing after swap")
    | some destination => do
      point env .findsApp
      holdConf env
      point env .buildsTransport
      change fun w => {w with cloudTransport := some ⟨db,destination⟩}
      tick env .ends

-- After the commit point every failure is passed over.
def rebuildTransport (db : String) : AppCommand := ignoring do
  require ((← inspect).rcloneConf.isSome = true) (.notFound "no session rclone conf path")
  point env .buildsConf
  point env .queriesPrimary
  match ((← inspect).vaults db).bind getPrimary with
  | none => fail (.notFound "No primary destination configured")
  | some destination => do
    point env .buildsTransport
    change fun w => {w with cloudTransport := some ⟨db,destination⟩}

def migrateVault (id : String) : AppCommand := do
  tick env .starts
  requireActive
  point env .validates
  metadataStore fun db => do
    point env .transfers
    setPrimaryDestinationInDb env db id
    rebuildTransport env db
    tick env .ends

inductive Request where
  | authenticate (vaultId : String)
  | createVault (vaultId : String) (destination : Destination)
  | recoverVaultFromCloud (dir vaultId : String) (imported : List Destination) (destination : Destination)
  | recoverVaultFromCloudWithPhrase (vaultId : String) (imported : List Destination) (destination : Destination)
  | lockSession
  | deleteVault
  | setPrimaryDestination (id : String)
  | migrateVault (id : String)

def command : Request → AppCommand
  | .authenticate vaultId => authenticate env vaultId
  | .createVault vaultId destination => createVault env vaultId destination
  | .recoverVaultFromCloud dir vaultId imported destination =>
    recoverVaultFromCloud env dir vaultId imported destination
  | .recoverVaultFromCloudWithPhrase vaultId imported destination =>
    recoverVaultFromCloudWithPhrase env vaultId imported destination
  | .lockSession => lockSession env
  | .deleteVault => deleteVault env
  | .setPrimaryDestination id => setPrimaryDestination env id
  | .migrateVault id => migrateVault env id

inductive Action where
  | request (env : CommandEnv) (request : Request)
  | expire

-- A version 4 identifier is not drawn twice.
def Request.drawn (w : World) : Request → Prop
  | .createVault vaultId _ => w.vaults vaultId = none ∧ ∀ session ∈ w.session, session.db ≠ vaultId
  | _ => True

instance (w : World) (request : Request) : Decidable (request.drawn w) := by
  cases request <;> unfold Request.drawn <;> infer_instance

def step (w : World) : Action → Option World
  | .request env request => if request.drawn w then some (command env request w).2 else none
  | .expire => some w.expire

def start (vaults : String → Option (List Destination)) : World := ⟨none,0,none,none,none,none,vaults⟩

-- An open session belongs to one vault: its name, its conf path and its transport.
structure Law (w : World) : Prop where
  name : ∀ session ∈ w.session, w.activeVaultId = some session.vaultId
  conf : ∀ session ∈ w.session, ∀ made ∈ w.rcloneConf, made = session.serial
  transport : ∀ session ∈ w.session, ∀ built ∈ w.cloudTransport,
    built.db = session.db ∧ (w.vaults session.db).bind getPrimary = some built.destination

structure Invariant (w : World) : Prop extends Law w where
  counted : ∀ session ∈ w.session, session.serial = w.opened

-- What it takes for the transport of a database to be built to the end.
structure Builds (env : CommandEnv) (destinations : Option (List Destination)) : Prop where
  createsDir : env.ok .createsDir
  buildsConf : env.ok .buildsConf
  queriesPrimary : env.ok .queriesPrimary
  buildsTransport : env.ok .buildsTransport
  primary : (destinations.bind getPrimary).isSome = true

-- An opened database either finds the path and the transport unset, or gets its own.
structure Ready (env : CommandEnv) (destinations : Option (List Destination)) (w : World) : Prop where
  conf : w.rcloneConf = none ∨ destinations.isSome = true ∧ env.ok .createsDir
  transport : w.cloudTransport = none ∨ Builds env destinations

-- A session is open, and does not end while the command runs.
def Refused (env : CommandEnv) (w : World) : Prop := w.session.isSome = true ∧ ∀ p, env.expires p = false

def inserted (env : CommandEnv) (destination : Destination) (destinations : List Destination) : List Destination :=
  match env.fates .inserts with
  | .ok _ => if (getPrimary destinations).isNone then destinations ++ [destination] else destinations
  | .error _ => destinations

-- A complete vault in the directory turns a recovery away; an incomplete one is
-- not that of the open session.
def Claims (env : CommandEnv) (dir : String) (w : World) (opens : Prop) : Prop :=
  ((w.vaults dir).isSome = true ∧ env.headerStands = true) ∨ (∀ session ∈ w.session, session.db ≠ dir) ∧ opens

def Orderly (w : World) : Action → Prop
  | .request env (.authenticate vaultId) => Refused env w ∨ Ready env (w.vaults vaultId) w
  | .request env (.createVault _ destination) => Refused env w ∨ Ready env (some [destination]) w
  | .request env (.recoverVaultFromCloud dir _ imported destination) =>
    Claims env dir w (Refused env w ∨ Ready env (some (inserted env destination imported)) w)
  | .request env (.recoverVaultFromCloudWithPhrase vaultId imported destination) =>
    Claims env vaultId w (Refused env w ∨ env.ok .serialises ∧ env.ok .writesHeader ∧
      Ready env (some (inserted env destination imported)) w)
  | .request env (.setPrimaryDestination _) => env.ok .swapsPrimary →
    env.ok .queriesPrimary ∧ env.ok .findsApp ∧ env.ok .buildsTransport ∧
      (w.rcloneConf.isSome = true ∨ env.ok .createsDir)
  | .request env (.migrateVault _) => env.ok .swapsPrimary →
    w.rcloneConf.isSome = true ∧ env.ok .buildsConf ∧ env.ok .queriesPrimary ∧ env.ok .buildsTransport
  | .request _ .lockSession => True
  | .request _ .deleteVault => True
  | .expire => True

section Rules
variable {env : CommandEnv} {w : World} {p : Step} {db vaultId : String} {destination : Destination}
  {destinations final : Option (List Destination)} {P : World → Prop} {Q : Unit → World → Prop} {E S : World → Prop} {sound : Prop}

theorem expire_gone (w : World) : w.expire.session = none := by
  unfold World.expire
  cases here : w.session with
  | none => exact here
  | some session => rfl

theorem lock_gone (w : World) : w.lock.session = none := by
  unfold World.lock
  cases here : w.session with
  | none => exact here
  | some session => rfl

theorem gone_invariant (gone : w.session = none) : Invariant w := by
  have none : ∀ session, session ∉ w.session := by
    rw [gone]
    rintro session ⟨⟩
  exact ⟨⟨fun s member => absurd member (none s),fun s member => absurd member (none s),
    fun s member => absurd member (none s)⟩,fun s member => absurd member (none s)⟩

theorem expire_vaults (w : World) : w.expire.vaults = w.vaults ∧ w.expire.cloudTransport = w.cloudTransport := by
  unfold World.expire
  cases w.session <;> exact ⟨rfl,rfl⟩

theorem expire_conf (w : World) : w.expire.rcloneConf = none ∨ w.expire.rcloneConf = w.rcloneConf := by
  unfold World.expire
  cases w.session with
  | none => exact .inr rfl
  | some session => exact .inl rfl

theorem leads_tick (keeps : env.expires p = true → ∀ w, P w → P w.expire) : Leads P (tick env p) (fun _ => P) E S := by
  refine leads_change fun w before => ?_
  split
  · rename_i expires
    exact keeps expires w before
  · exact before

theorem leads_point (keeps : env.expires p = true → ∀ w, P w → P w.expire) (goes : env.ok p → ∀ w, P w → Q () w)
    (fails : ¬ env.ok p → ∀ w, P w → E w) : Leads P (point env p) Q E S := by
  refine leads_bind (leads_tick keeps) fun _ => leads_demand (fun _ w ok before => goes ok w before) ?_
  intro e w error before
  refine fails (fun ok => ?_) w before
  rw [CommandEnv.ok,error] at ok
  cases ok

theorem leads_step (keeps : env.expires p = true → ∀ w, P w → P w.expire) (fails : ∀ w, P w → E w) :
    Leads P (point env p) (fun _ => P) E S :=
  leads_point keeps (fun _ _ before => before) fun _ => fails

theorem expire_keeps_invariant (_ : env.expires p = true) (w : World) (_ : Invariant w) : Invariant w.expire :=
  gone_invariant (expire_gone w)

-- The databases and the transport outlive an expiry, the path does not.
theorem ready_expire (ready : Ready env final w) : Ready env final w.expire := by
  refine ⟨?_,?_⟩
  · rcases expire_conf w with none | same
    · exact .inl none
    · rw [same]
      exact ready.conf
  · rw [(expire_vaults w).2]
    exact ready.transport

-- The session of this command, before its path and its transport are settled.
structure Fit (env : CommandEnv) (vaultId db : String) (destinations final : Option (List Destination)) (w : World) :
    Prop where
  opened : ∀ session ∈ w.session, session = ⟨vaultId,db,destinations.isSome,w.opened⟩
  vault : w.vaults db = destinations
  ready : Ready env final w

-- Everything but the name `AppState` mirrors.
structure Settled (vaultId : String) (w : World) : Prop where
  opened : ∀ session ∈ w.session, session.vaultId = vaultId ∧ session.serial = w.opened
  conf : ∀ session ∈ w.session, ∀ made ∈ w.rcloneConf, made = session.serial
  transport : ∀ session ∈ w.session, ∀ built ∈ w.cloudTransport,
    built.db = session.db ∧ (w.vaults session.db).bind getPrimary = some built.destination

theorem absent (gone : w.session = none) (session : OpenSession) : session ∉ w.session := by
  rw [gone]
  rintro ⟨⟩

theorem fit_expire (_ : env.expires p = true) (w : World) (fit : Fit env vaultId db destinations final w) :
    Fit env vaultId db destinations final w.expire := by
  refine ⟨fun session member => absurd member (absent (expire_gone w) session),?_,ready_expire fit.ready⟩
  rw [(expire_vaults w).1]
  exact fit.vault

theorem gone_settled (gone : w.session = none) : Settled vaultId w :=
  ⟨fun s member => absurd member (absent gone s),fun s member => absurd member (absent gone s),
    fun s member => absurd member (absent gone s)⟩

theorem settled_expire (_ : env.expires p = true) (w : World) (_ : Settled vaultId w) : Settled vaultId w.expire :=
  gone_settled (expire_gone w)

-- The path is the session's own, the transport unset or about to be built.
structure Held (env : CommandEnv) (vaultId db : String) (destinations : Option (List Destination)) (w : World) :
    Prop where
  opened : ∀ session ∈ w.session, session = ⟨vaultId,db,destinations.isSome,w.opened⟩
  vault : w.vaults db = destinations
  conf : ∀ session ∈ w.session, ∀ made ∈ w.rcloneConf, made = session.serial
  transport : w.cloudTransport = none ∨ Builds env destinations

theorem held_expire (_ : env.expires p = true) (w : World) (held : Held env vaultId db destinations w) :
    Held env vaultId db destinations w.expire := by
  have gone := absent (expire_gone w)
  refine ⟨fun s member => absurd member (gone s),?_,fun s member => absurd member (gone s),?_⟩
  · rw [(expire_vaults w).1]
    exact held.vault
  · rw [(expire_vaults w).2]
    exact held.transport

theorem unset_settled (opened : ∀ session ∈ w.session, session = ⟨vaultId,db,destinations.isSome,w.opened⟩)
    (conf : ∀ session ∈ w.session, ∀ made ∈ w.rcloneConf, made = session.serial) (unset : w.cloudTransport = none) :
    Settled vaultId w := by
  refine ⟨fun session member => ?_,conf,fun _ _ built set => ?_⟩
  · rw [opened session member]
    exact ⟨rfl,rfl⟩
  · rw [unset] at set
    cases set

theorem held_fails (broken : ¬ Builds env destinations) (w : World) (held : Held env vaultId db destinations w) :
    Settled vaultId w :=
  unset_settled held.opened held.conf (held.transport.resolve_right broken)

theorem build_settles : Leads (Fit env vaultId db destinations destinations)
    (tryBuildAndSwapRcloneTransport env db) (fun _ => Settled vaultId) E S := by
  refine leads_ignoring ?_
  apply leads_bind (R := fun _ w => Fit env vaultId db destinations destinations w ∧ env.ok .createsDir)
  · refine leads_point fit_expire (fun ok w fit => ⟨fit,ok⟩) fun broken w fit => ?_
    have unset := fit.ready.transport.resolve_right fun builds => broken builds.createsDir
    have empty := fit.ready.conf.resolve_right fun made => broken made.2
    refine unset_settled fit.opened (fun _ _ made set => ?_) unset
    rw [empty] at set
    cases set
  intro _
  apply leads_bind (R := fun _ => Held env vaultId db destinations)
  · refine leads_change fun w before => ?_
    obtain ⟨fit,ok⟩ := before
    refine ⟨fit.opened,fit.vault,fun session member made set => ?_,fit.ready.transport⟩
    rw [fit.opened session member]
    exact (Option.some.inj set).symm
  intro _
  apply leads_bind (R := fun _ => Held env vaultId db destinations)
  · refine leads_point held_expire (fun _ _ held => held) fun broken => held_fails fun builds => broken builds.buildsConf
  intro _
  apply leads_bind (R := fun _ => Held env vaultId db destinations)
  · refine leads_point held_expire (fun _ _ held => held) fun broken => ?_
    exact held_fails fun builds => broken builds.queriesPrimary
  intro _
  refine leads_inspect fun w held => ?_
  rw [held.vault]
  cases primary : destinations.bind getPrimary with
  | none =>
    refine leads_fail _ fun s same => ?_
    subst same
    refine held_fails (fun builds => ?_) s held
    have found := builds.primary
    rw [primary] at found
    cases found
  | some destination =>
    refine leads_from (P := Held env vaultId db destinations) ?_ fun s same => same ▸ held
    apply leads_bind (R := fun _ => Held env vaultId db destinations)
    · refine leads_point held_expire (fun _ _ held => held) fun broken => ?_
      exact held_fails fun builds => broken builds.buildsTransport
    intro _
    refine leads_change fun w held => ⟨fun session member => ?_,held.conf,fun session member built set => ?_⟩
    · rw [held.opened session member]
      exact ⟨rfl,rfl⟩
    · rw [held.opened session member,← Option.some.inj set]
      refine ⟨rfl,?_⟩
      rw [held.vault]
      exact primary

-- Without a database both the path and the transport were unset already.
theorem closed_settles (fit : Fit env vaultId db destinations final w) (none : final = none) : Settled vaultId w := by
  have unset := fit.ready.transport.resolve_right fun builds => by
    have found := builds.primary
    rw [none] at found
    cases found
  have empty := fit.ready.conf.resolve_right fun made => by
    rw [none] at made
    cases made.1
  refine unset_settled fit.opened (fun _ _ made set => ?_) unset
  rw [empty] at set
  cases set

theorem store_settles {next : String → AppCommand} (closed : destinations = none → final = none)
    (opens : Leads (Fit env vaultId db destinations final) (next db) (fun _ => Settled vaultId) E S) :
    Leads (Fit env vaultId db destinations final) (withStore next) (fun _ => Settled vaultId) E S := by
  refine leads_inspect fun w fit => ?_
  cases here : w.session with
  | none => exact leads_pure () fun s same => same ▸ gone_settled here
  | some session =>
    have known := fit.opened session here
    refine leads_whenever (fun _ => ?_) fun shut s same => ?_
    · rw [known]
      exact leads_from opens fun s same => same ▸ fit
    · subst same
      rw [known] at shut
      exact closed_settles fit (closed (Option.not_isSome_iff_eq_none.mp (ne_true_of_eq_false shut)))

theorem activate_law : Leads (Settled vaultId) (activate env vaultId) (fun _ => Invariant) E S := by
  refine leads_bind (leads_tick settled_expire) fun _ => ?_
  refine leads_bind (R := fun _ => Invariant) (leads_change fun w settled => ?_) fun _ => ?_
  · refine ⟨⟨fun session member => ?_,settled.conf,settled.transport⟩,fun session member => ?_⟩
    · rw [(settled.opened session member).1]
    · exact (settled.opened session member).2
  · exact leads_tick expire_keeps_invariant

theorem after_install_law : Leads (Fit env vaultId db destinations destinations) (afterInstall env vaultId)
    (fun _ => Invariant) E S := by
  refine leads_bind (leads_tick fit_expire) fun _ => ?_
  refine leads_bind (store_settles (fun none => none) ?_) fun _ => activate_law
  exact leads_bind build_settles fun _ => leads_tick settled_expire

-- No session is open, and all is ready for one on this database.
structure Vacant (env : CommandEnv) (db : String) (sound : Prop) (destinations final : Option (List Destination))
    (w : World) : Prop where
  gone : w.session = none
  vault : w.vaults db = destinations
  sound : sound
  ready : Ready env final w

-- Whoever is open keeps its law and stands elsewhere, and either the check turns
-- the command away or all is ready for it.
structure Outside (env : CommandEnv) (db : String) (sound : Prop) (final : Option (List Destination)) (w : World) :
    Prop where
  law : Invariant w
  apart : ∀ session ∈ w.session, session.db ≠ db
  ready : Refused env w ∨ sound ∧ Ready env final w

theorem vacant_expire (_ : env.expires p = true) (w : World) (vacant : Vacant env db sound destinations final w) :
    Vacant env db sound destinations final w.expire :=
  ⟨expire_gone w,(congrFun (expire_vaults w).1 db).trans vacant.vault,vacant.sound,ready_expire vacant.ready⟩

theorem refused_stays (refused : Refused env w) (expires : env.expires p = true) : False := by
  rw [refused.2 p] at expires
  cases expires

theorem outside_expire (expires : env.expires p = true) (w : World) (outside : Outside env db sound final w) :
    Outside env db sound final w.expire := by
  refine ⟨gone_invariant (expire_gone w),fun s member => absurd member (absent (expire_gone w) s),?_⟩
  rcases outside.ready with refused | ready
  · exact (refused_stays refused expires).elim
  · exact .inr (ready.imp_right ready_expire)

theorem vacant_outside (vacant : Vacant env db sound destinations final w) : Outside env db sound final w :=
  ⟨gone_invariant vacant.gone,fun s member => absurd member (absent vacant.gone s),.inr ⟨vacant.sound,vacant.ready⟩⟩

theorem outside_set (outside : Outside env db sound final w) (value : Option (List Destination)) :
    Outside env db sound final (w.setVault db value) := by
  refine ⟨⟨⟨outside.law.name,outside.law.conf,fun session member built set => ?_⟩,outside.law.counted⟩,
    outside.apart,?_⟩
  · have other : (w.setVault db value).vaults session.db = w.vaults session.db := if_neg (outside.apart session member)
    rw [other]
    exact outside.law.transport session member built set
  · exact outside.ready.imp (fun refused => refused) fun ready => ⟨ready.1,ready.2.conf,ready.2.transport⟩

theorem vacant_set (vacant : Vacant env db sound destinations final w) (value : Option (List Destination)) :
    Vacant env db sound value final (w.setVault db value) :=
  ⟨vacant.gone,if_pos rfl,vacant.sound,vacant.ready.conf,vacant.ready.transport⟩

theorem inactive_ready : Leads P requireInactive (fun _ w => P w ∧ w.session = none) P S := by
  refine leads_inspect fun w before => leads_require (fun closed s same => ?_) fun _ s same => same ▸ before
  subst same
  exact ⟨before,Option.isNone_iff_eq_none.mp closed⟩

theorem outside_ready (outside : Outside env db sound final w) (gone : w.session = none) :
    sound ∧ Ready env final w := by
  refine outside.ready.resolve_left fun refused => ?_
  have active := refused.1
  rw [gone] at active
  cases active

theorem outside_vacant (outside : Outside env db sound final w) (gone : w.session = none) :
    Vacant env db sound (w.vaults db) final w := by
  obtain ⟨holds,ready⟩ := outside_ready outside gone
  exact ⟨gone,rfl,holds,ready⟩

theorem install_fit (vacant : Vacant env db sound destinations final w) (vaultId : String) :
    Fit env vaultId db destinations final (w.install vaultId db) ∧ sound := by
  refine ⟨⟨fun session member => ?_,vacant.vault,vacant.ready.conf,vacant.ready.transport⟩,vacant.sound⟩
  rw [← Option.some.inj member,← vacant.vault]
  rfl

theorem authenticate_law : Leads (fun w => Invariant w ∧ w.vaults vaultId = destinations ∧
      (Refused env w ∨ Ready env destinations w)) (authenticate env vaultId) (fun _ => Invariant) Invariant S := by
  have expires {p : Step} (expires : env.expires p = true) (w : World) (before : Invariant w ∧
      w.vaults vaultId = destinations ∧ (Refused env w ∨ Ready env destinations w)) : Invariant w.expire ∧
      w.expire.vaults vaultId = destinations ∧ (Refused env w.expire ∨ Ready env destinations w.expire) := by
    refine ⟨gone_invariant (expire_gone w),?_,?_⟩
    · rw [(expire_vaults w).1]
      exact before.2.1
    · exact .inr (ready_expire (before.2.2.resolve_left fun refused => refused_stays refused expires))
  refine leads_bind (leads_tick expires) fun _ => leads_bind (leads_step expires fun w before => before.1) fun _ => ?_
  apply leads_bind (R := fun _ => Vacant env vaultId True destinations destinations)
  · refine leads_mono inactive_ready (fun _ before => before) ?_ (fun w before => before.1) fun _ s => s
    intro _ w before
    obtain ⟨⟨law,vault,ready⟩,gone⟩ := before
    refine ⟨gone,vault,trivial,ready.resolve_left fun refused => ?_⟩
    have active := refused.1
    rw [gone] at active
    cases active
  intro _
  refine leads_bind (leads_step vacant_expire fun w vacant => gone_invariant vacant.gone) fun _ => ?_
  refine leads_bind (leads_change fun w vacant => (install_fit vacant vaultId).1) fun _ => after_install_law

theorem leads_vacant : Leads (Vacant env db sound destinations final) (point env p)
    (fun _ => Vacant env db sound destinations final) (Outside env db sound final) S :=
  leads_step vacant_expire fun _ => vacant_outside

theorem leads_claimed : Leads (Outside env db sound final) requireInactive
    (fun _ w => Vacant env db sound (w.vaults db) final w) (Outside env db sound final) S :=
  leads_mono inactive_ready (fun _ before => before) (fun _ _ after => outside_vacant after.1 after.2)
    (fun _ failed => failed) fun _ s => s

theorem leads_again : Leads (Vacant env db sound destinations final) requireInactive
    (fun _ => Vacant env db sound destinations final) (Outside env db sound final) S :=
  leads_mono inactive_ready (fun _ before => before) (fun _ _ after => after.1) (fun _ => vacant_outside) fun _ s => s

theorem create_law : Leads (Outside env vaultId True (some [destination])) (createVault env vaultId destination)
    (fun _ => Invariant) Invariant S := by
  refine leads_bind (leads_tick outside_expire) fun _ => ?_
  refine leads_bind (leads_step outside_expire fun _ outside => outside.law) fun _ => ?_
  apply leads_bind (R := fun _ => Fit env vaultId vaultId (some [destination]) (some [destination]))
  · refine leads_undoing (D := Outside env vaultId True (some [destination])) ?_ fun w outside =>
      (outside_set outside none).law
    refine leads_bind leads_claimed fun _ => ?_
    refine leads_bind (R := fun _ w => Vacant env vaultId True (w.vaults vaultId) (some [destination]) w) ?_ fun _ => ?_
    · exact leads_step (fun expires w vacant => ⟨expire_gone w,rfl,trivial,ready_expire vacant.ready⟩) fun _ =>
        vacant_outside
    refine leads_bind (R := fun _ => Vacant env vaultId True (some []) (some [destination]))
      (leads_change fun w vacant => vacant_set vacant (some [])) fun _ => ?_
    refine leads_bind leads_vacant fun _ => ?_
    refine leads_bind (R := fun _ => Vacant env vaultId True (some [destination]) (some [destination]))
      (leads_change fun w vacant => vacant_set vacant (some [destination])) fun _ => ?_
    refine leads_bind leads_vacant fun _ => leads_bind leads_vacant fun _ => leads_bind leads_again fun _ => ?_
    exact leads_change fun w vacant => (install_fit vacant vaultId).1
  · exact fun _ => after_install_law

theorem stands_law {dir : String} {imported : List Destination} (stands : env.headerStands = true) :
    Leads (fun w => Invariant w ∧ (w.vaults dir).isSome = true) (recoverInto env dir vaultId imported) Q Invariant S := by
  have expires {p : Step} (_ : env.expires p = true) (w : World)
      (before : Invariant w ∧ (w.vaults dir).isSome = true) :
      Invariant w.expire ∧ (w.expire.vaults dir).isSome = true := by
    refine ⟨gone_invariant (expire_gone w),?_⟩
    rw [(expire_vaults w).1]
    exact before.2
  refine leads_bind (leads_tick expires) fun _ => leads_bind (leads_step expires fun w before => before.1) fun _ => ?_
  refine leads_inspect fun w before => leads_bind (R := fun _ _ => False) ?_ fun _ => fun s none => none.elim
  exact leads_require (fun free => absurd ⟨before.2,stands⟩ free) fun _ s same => same ▸ before.1

theorem recover_into_law {dir : String} {imported : List Destination} : Leads (Outside env dir sound final)
    (recoverInto env dir vaultId imported) (fun _ w => Fit env vaultId dir (some imported) final w ∧ sound)
    Invariant S := by
  have law (w : World) (outside : Outside env dir sound final w) := outside.law
  refine leads_bind (leads_tick outside_expire) fun _ => leads_bind (leads_step outside_expire law) fun _ => ?_
  refine leads_inspect fun w outside => ?_
  refine leads_bind (R := fun _ => Outside env dir sound final) ?_ fun _ => ?_
  · exact leads_require (fun _ s same => same ▸ outside) fun _ s same => same ▸ outside.law
  refine leads_bind (leads_step outside_expire law) fun _ => ?_
  refine leads_bind (R := fun _ => Outside env dir sound final)
    (leads_change fun w outside => outside_set outside none) fun _ => ?_
  refine leads_undoing (D := Outside env dir sound final) ?_ fun w outside => (outside_set outside none).law
  refine leads_bind leads_claimed fun _ => ?_
  refine leads_bind (R := fun _ w => Vacant env dir sound (w.vaults dir) final w) ?_ fun _ => ?_
  · exact leads_step (fun expires w vacant => ⟨expire_gone w,rfl,vacant.sound,ready_expire vacant.ready⟩) fun _ =>
      vacant_outside
  refine leads_bind (R := fun _ => Vacant env dir sound (some imported) final)
    (leads_change fun w vacant => vacant_set vacant (some imported)) fun _ => ?_
  refine leads_bind leads_vacant fun _ => leads_bind leads_again fun _ => ?_
  exact leads_change fun w vacant => install_fit vacant vaultId

theorem insert_fits {imported : List Destination} : Leads
    (Fit env vaultId db (some imported) (some (inserted env destination imported)))
    (insertDestination env db destination)
    (fun _ => Fit env vaultId db (some (inserted env destination imported)) (some (inserted env destination imported)))
    E S := by
  refine leads_inspect fun w fit => ?_
  rw [fit.vault]
  have kept (same : inserted env destination imported = imported) (s : World)
      (fit : Fit env vaultId db (some imported) (some (inserted env destination imported)) s) :
      Fit env vaultId db (some (inserted env destination imported)) (some (inserted env destination imported)) s := by
    rw [same] at fit ⊢
    exact fit
  refine leads_from (P := Fit env vaultId db (some imported) (some (inserted env destination imported))) ?_
    fun s same => same ▸ fit
  refine leads_whenever (fun vacant => ?_) fun taken s fit => ?_
  · refine leads_ignoring ?_
    refine leads_bind (R := fun _ s => Fit env vaultId db (some imported) (some (inserted env destination imported)) s ∧
      inserted env destination imported = imported ++ [destination]) ?_ fun _ => ?_
    · refine leads_demand (fun value s ok fit => ⟨fit,?_⟩) fun e s failed fit => kept ?_ s fit
      · rw [inserted,ok]
        exact if_pos vacant
      · rw [inserted,failed]
    · refine leads_change fun s before => ?_
      obtain ⟨fit,grown⟩ := before
      rw [grown] at fit ⊢
      exact ⟨fit.opened,if_pos rfl,fit.ready.conf,fit.ready.transport⟩
  · refine kept ?_ s fit
    unfold inserted
    split
    · exact if_neg (ne_true_of_eq_false taken)
    · rfl

theorem post_recovery_settles {imported : List Destination} : Leads
    (Fit env vaultId db (some imported) (some (inserted env destination imported)))
    (postRecoverySetup env destination) (fun _ => Settled vaultId) E S := by
  refine leads_bind (leads_tick fit_expire) fun _ => store_settles (by rintro ⟨⟩) ?_
  exact leads_bind insert_fits fun _ => leads_bind build_settles fun _ => leads_tick settled_expire

theorem recover_law {dir : String} {imported : List Destination} : Leads
    (Outside env dir True (some (inserted env destination imported)))
    (recoverVaultFromCloud env dir vaultId imported destination) (fun _ => Invariant) Invariant S := by
  refine leads_bind recover_into_law fun _ => ?_
  exact leads_bind (leads_from post_recovery_settles fun w before => before.1) fun _ => activate_law

theorem recover_phrase_law {imported : List Destination} : Leads
    (Outside env vaultId (env.ok .serialises ∧ env.ok .writesHeader) (some (inserted env destination imported)))
    (recoverVaultFromCloudWithPhrase env vaultId imported destination) (fun _ => Invariant) Invariant S := by
  refine leads_bind recover_into_law fun _ => ?_
  have expires {p : Step} (expires : env.expires p = true) (w : World)
      (before : Fit env vaultId vaultId (some imported) (some (inserted env destination imported)) w ∧
        (env.ok .serialises ∧ env.ok .writesHeader)) :
      Fit env vaultId vaultId (some imported) (some (inserted env destination imported)) w.expire ∧
        (env.ok .serialises ∧ env.ok .writesHeader) :=
    ⟨fit_expire expires w before.1,before.2⟩
  apply leads_bind (R := fun _ w => Fit env vaultId vaultId (some imported)
    (some (inserted env destination imported)) w ∧ (env.ok .serialises ∧ env.ok .writesHeader))
  · exact leads_point expires (fun _ w before => before) fun broken w before => absurd before.2.1 broken
  intro _
  apply leads_bind (R := fun _ => Fit env vaultId vaultId (some imported) (some (inserted env destination imported)))
  · refine leads_undoing (D := fun _ => False) ?_ fun _ impossible => False.elim impossible
    exact leads_point expires (fun _ w before => before.1) fun broken w before => broken before.2.2
  exact fun _ => leads_bind post_recovery_settles fun _ => activate_law

theorem gone_expire (_ : env.expires p = true) (w : World) (_ : w.session = none) : w.expire.session = none :=
  expire_gone w

theorem lock_law : Leads (fun _ => True) (lockSession env) (fun _ => Invariant) E S := by
  refine leads_bind (leads_tick fun _ _ _ => trivial) fun _ => leads_bind (leads_tick fun _ _ _ => trivial) fun _ => ?_
  refine leads_bind (R := fun _ w => w.session = none) (leads_change fun w _ => lock_gone w) fun _ => ?_
  refine leads_bind (R := fun _ w => w.session = none) (leads_change fun _ gone => gone) fun _ => ?_
  refine leads_bind (R := fun _ w => w.session = none) (leads_change fun _ gone => gone) fun _ => ?_
  exact leads_mono (leads_tick gone_expire) (fun _ gone => gone) (fun _ _ gone => gone_invariant gone)
    (fun _ e => e) fun _ s => s

theorem active_ready : Leads P requireActive (fun _ => P) P S := by
  refine leads_inspect fun w before => leads_require (fun _ s same => same ▸ before) fun _ s same => same ▸ before

theorem delete_law : Leads Invariant (deleteVault env) (fun _ => Invariant) Invariant S := by
  refine leads_bind (leads_tick expire_keeps_invariant) fun _ => leads_bind active_ready fun _ => ?_
  refine leads_bind (leads_step expire_keeps_invariant fun _ law => law) fun _ => leads_inspect fun w law => ?_
  cases w.managerVaultId with
  | none => exact leads_fail _ fun s same => same ▸ law
  | some vaultId =>
    refine leads_from (P := fun _ => True) ?_ fun _ _ => trivial
    refine leads_bind (leads_tick fun _ _ _ => trivial) fun _ => ?_
    refine leads_bind (R := fun _ w => w.session = none) (leads_change fun w _ => lock_gone w) fun _ => ?_
    refine leads_bind (R := fun _ w => w.session = none) (leads_change fun _ gone => gone) fun _ => ?_
    refine leads_bind (R := fun _ w => w.session = none) ?_ fun _ => ?_
    · refine leads_ignoring (leads_bind (leads_step gone_expire fun _ gone => gone) fun _ => ?_)
      exact leads_change fun _ gone => gone
    refine leads_bind (R := fun _ w => w.session = none) (leads_change fun _ gone => gone) fun _ => ?_
    exact leads_mono (leads_tick gone_expire) (fun _ gone => gone) (fun _ _ gone => gone_invariant gone)
      (fun _ e => e) fun _ s => s

-- Between the commit of a new primary and the swap of the transport.
structure Swapped (db : String) (destination : Destination) (held : Prop) (w : World) : Prop where
  name : ∀ session ∈ w.session, w.activeVaultId = some session.vaultId
  conf : ∀ session ∈ w.session, ∀ made ∈ w.rcloneConf, made = session.serial
  counted : ∀ session ∈ w.session, session.serial = w.opened
  place : ∀ session ∈ w.session, session.db = db
  primary : (w.vaults db).bind getPrimary = some destination
  held : w.session = none ∨ w.rcloneConf.isSome = true ∨ held

theorem swapped_expire {held : Prop} (_ : env.expires p = true) (w : World) (swapped : Swapped db destination held w) :
    Swapped db destination held w.expire := by
  have gone := absent (expire_gone w)
  refine ⟨fun s member => absurd member (gone s),fun s member => absurd member (gone s),
    fun s member => absurd member (gone s),fun s member => absurd member (gone s),?_,.inl (expire_gone w)⟩
  rw [(expire_vaults w).1]
  exact swapped.primary

theorem swap_primary_some {id : String} {list : List Destination} (found : list.any (·.destinationId = id) = true) :
    (getPrimary (swapPrimary id list)).isSome = true := by
  obtain ⟨destination,member,same⟩ := List.any_eq_true.mp found
  refine List.find?_isSome.mpr ⟨_,List.mem_map.mpr ⟨destination,member,rfl⟩,?_⟩
  exact same

-- An open database, before its primary is swapped.
structure Opened (db : String) (held : Prop) (w : World) : Prop where
  law : Invariant w
  place : ∀ session ∈ w.session, session.db = db
  held : w.session = none ∨ w.rcloneConf.isSome = true ∨ held

theorem opened_expire {held : Prop} (_ : env.expires p = true) (w : World) (_ : Opened db held w) :
    Opened db held w.expire :=
  ⟨gone_invariant (expire_gone w),fun s member => absurd member (absent (expire_gone w) s),.inl (expire_gone w)⟩

theorem swap_commits {held : Prop} {id : String} : Leads (Opened db held) (setPrimaryDestinationInDb env db id)
    (fun _ w => (∃ destination, Swapped db destination held w) ∧ env.ok .swapsPrimary) Invariant S := by
  refine leads_bind (R := fun _ w => Opened db held w ∧ env.ok .swapsPrimary) ?_ fun _ => ?_
  · exact leads_point opened_expire (fun ok w opened => ⟨opened,ok⟩) fun _ w opened => opened.law
  refine leads_inspect fun w before => ?_
  obtain ⟨opened,ok⟩ := before
  cases w.vaults db with
  | none => exact leads_fail _ fun s same => same ▸ opened.law
  | some list =>
    refine leads_bind (R := fun _ s => Opened db held s ∧ list.any (·.destinationId = id) = true) ?_ fun _ => ?_
    · exact leads_require (fun found s same => ⟨same ▸ opened,found⟩) fun _ s same => same ▸ opened.law
    refine leads_change fun s before => ⟨?_,ok⟩
    obtain ⟨opened,found⟩ := before
    obtain ⟨destination,primary⟩ := Option.isSome_iff_exists.mp (swap_primary_some found)
    refine ⟨destination,opened.law.name,opened.law.conf,opened.law.counted,opened.place,?_,opened.held⟩
    rw [show (s.setVault db (some (swapPrimary id list))).vaults db = some (swapPrimary id list) from if_pos rfl]
    exact primary

theorem swap_done {held : Prop} (swapped : Swapped db destination held w) :
    Invariant {w with cloudTransport := some ⟨db,destination⟩} := by
  refine ⟨⟨swapped.name,swapped.conf,fun session member built set => ?_⟩,swapped.counted⟩
  rw [← Option.some.inj set]
  have same := swapped.place session member
  exact ⟨same.symm,by rw [same]; exact swapped.primary⟩

theorem store_opens {held : Prop} {next : String → AppCommand}
    (opens : ∀ db, Leads (Opened db held) (next db) (fun _ => Invariant) Invariant S) :
    Leads (fun w => Invariant w ∧ (w.session = none ∨ w.rcloneConf.isSome = true ∨ held)) (metadataStore next)
      (fun _ => Invariant) Invariant S := by
  refine leads_inspect fun w before => ?_
  obtain ⟨law,held⟩ := before
  cases here : w.session with
  | none => exact leads_fail _ fun s same => same ▸ law
  | some session =>
    dsimp only
    split
    · refine leads_from (opens session.db) fun s same => same ▸ ⟨law,fun other member => ?_,held⟩
      rw [here] at member
      rw [Option.some.inj member]
    · exact leads_fail _ fun s same => same ▸ law

theorem held_expires {held : Prop} (_ : env.expires p = true) (w : World)
    (_ : Invariant w ∧ (w.session = none ∨ w.rcloneConf.isSome = true ∨ held)) :
    Invariant w.expire ∧ (w.expire.session = none ∨ w.expire.rcloneConf.isSome = true ∨ held) :=
  ⟨gone_invariant (expire_gone w),.inl (expire_gone w)⟩

theorem hold_conf {held : Prop} (creates : held → env.ok .createsDir) : Leads (Swapped db destination held) (holdConf env)
    (fun _ => Swapped db destination held) Invariant S := by
  refine leads_inspect fun w swapped => ?_
  refine leads_from (P := fun s => Swapped db destination held s ∧ (w.rcloneConf.isNone = true → s.session = none ∨ held)) ?_ ?_
  · refine leads_whenever (fun none => ?_) fun _ s before => before.1
    refine leads_bind (R := fun _ s => Swapped db destination held s) ?_ fun _ => ?_
    · refine leads_point (fun expires s before => ⟨swapped_expire expires s before.1,fun _ => .inl (expire_gone s)⟩)
        (fun _ s before => before.1) fun broken s before => ?_
      exact gone_invariant ((before.2 none).resolve_right fun held => broken (creates held))
    · refine leads_change fun s swapped => ?_
      refine ⟨swapped.name,fun session member made set => ?_,swapped.counted,swapped.place,swapped.primary,.inr (.inl rfl)⟩
      rw [swapped.counted session member]
      exact (Option.some.inj set).symm
  · rintro s rfl
    refine ⟨swapped,fun none => ?_⟩
    rcases swapped.held with gone | some | held
    · exact .inl gone
    · rw [Option.isNone_iff_eq_none.mp none] at some
      cases some
    · exact .inr held

theorem set_primary_law {id : String} {held : Prop} (creates : env.ok .swapsPrimary → held → env.ok .createsDir)
    (builds : env.ok .swapsPrimary → env.ok .queriesPrimary ∧ env.ok .findsApp ∧ env.ok .buildsTransport) :
    Leads (fun w => Invariant w ∧ (w.session = none ∨ w.rcloneConf.isSome = true ∨ held))
      (setPrimaryDestination env id) (fun _ => Invariant) Invariant S := by
  refine leads_bind (leads_tick held_expires) fun _ => ?_
  refine leads_bind (leads_mono active_ready (fun _ before => before) (fun _ _ after => after)
    (fun w before => before.1) fun _ s => s) fun _ => ?_
  refine leads_bind (leads_step held_expires fun w before => before.1) fun _ => store_opens fun db => ?_
  refine leads_bind swap_commits fun _ => ?_
  by_cases commits : env.ok .swapsPrimary
  · obtain ⟨queries,finds,transport⟩ := builds commits
    refine leads_from (leads_exists fun destination => ?_) fun w before => before.1
    have passes {p : Step} (ok : env.ok p) : Leads (Swapped db destination held) (point env p)
        (fun _ => Swapped db destination held) Invariant S :=
      leads_point swapped_expire (fun _ _ swapped => swapped) fun broken => absurd ok broken
    refine leads_bind (passes queries) fun _ => leads_inspect fun w swapped => ?_
    rw [swapped.primary]
    refine leads_from (P := Swapped db destination held) ?_ fun s same => same ▸ swapped
    refine leads_bind (passes finds) fun _ => leads_bind (hold_conf (creates commits)) fun _ => ?_
    refine leads_bind (passes transport) fun _ => ?_
    refine leads_bind (leads_change fun w swapped => swap_done swapped) fun _ => leads_tick expire_keeps_invariant
  · exact fun w before => absurd before.2 commits

theorem rebuild_law (ok : env.ok .buildsConf ∧ env.ok .queriesPrimary ∧ env.ok .buildsTransport) :
    Leads (Swapped db destination False) (rebuildTransport env db) (fun _ => Invariant) E S := by
  obtain ⟨conf,queries,transport⟩ := ok
  have passes {p : Step} (ok : env.ok p) : Leads (Swapped db destination False) (point env p)
      (fun _ => Swapped db destination False) Invariant S :=
    leads_point swapped_expire (fun _ _ swapped => swapped) fun broken => absurd ok broken
  refine leads_ignoring (leads_inspect fun w swapped => ?_)
  refine leads_bind (R := fun _ => Swapped db destination False) ?_ fun _ => ?_
  · refine leads_require (fun _ s same => same ▸ swapped) fun unheld s same => same ▸ gone_invariant ?_
    rcases swapped.held with gone | held | impossible
    · exact gone
    · exact absurd held unheld
    · exact impossible.elim
  refine leads_bind (passes conf) fun _ => leads_bind (passes queries) fun _ => leads_inspect fun s swapped => ?_
  rw [swapped.primary]
  refine leads_from (P := Swapped db destination False) ?_ fun t same => same ▸ swapped
  exact leads_bind (passes transport) fun _ => leads_change fun w swapped => swap_done swapped

theorem migrate_law {id : String}
    (builds : env.ok .swapsPrimary → env.ok .buildsConf ∧ env.ok .queriesPrimary ∧ env.ok .buildsTransport) :
    Leads (fun w => Invariant w ∧ (w.session = none ∨ w.rcloneConf.isSome = true ∨ ¬ env.ok .swapsPrimary))
      (migrateVault env id) (fun _ => Invariant) Invariant S := by
  refine leads_bind (leads_tick held_expires) fun _ => ?_
  refine leads_bind (leads_mono active_ready (fun _ before => before) (fun _ _ after => after)
    (fun w before => before.1) fun _ s => s) fun _ => ?_
  refine leads_bind (leads_step held_expires fun w before => before.1) fun _ => store_opens fun db => ?_
  refine leads_bind (leads_step opened_expire fun w opened => opened.law) fun _ => leads_bind swap_commits fun _ => ?_
  by_cases commits : env.ok .swapsPrimary
  · refine leads_bind (R := fun _ => Invariant) ?_ fun _ => leads_tick expire_keeps_invariant
    refine leads_from (P := fun s => ∃ destination, Swapped db destination False s) ?_ fun w before => ?_
    · exact leads_exists fun destination => rebuild_law (builds commits)
    obtain ⟨⟨destination,swapped⟩,_⟩ := before
    refine ⟨destination,swapped.name,swapped.conf,swapped.counted,swapped.place,swapped.primary,?_⟩
    exact swapped.held.imp_right fun held => held.imp_right fun never => never commits
  · exact fun w before => absurd before.2 commits

theorem request_law {request : Request} (law : Invariant w) (drawn : request.drawn w)
    (orderly : Orderly w (.request env request)) : Invariant (command env request w).2 := by
  cases request with
  | authenticate vaultId => exact leads_ends authenticate_law ⟨law,rfl,orderly⟩
  | createVault vaultId destination =>
    exact leads_ends create_law ⟨law,drawn.2,orderly.imp_right fun ready => ⟨trivial,ready⟩⟩
  | recoverVaultFromCloud dir vaultId imported destination =>
    rcases orderly with ⟨complete,stands⟩ | ⟨apart,ready⟩
    · exact leads_ends (leads_bind (stands_law stands) fun _ _ impossible => False.elim impossible) ⟨law,complete⟩
    · exact leads_ends recover_law ⟨law,apart,ready.imp_right fun ready => ⟨trivial,ready⟩⟩
  | recoverVaultFromCloudWithPhrase vaultId imported destination =>
    rcases orderly with ⟨complete,stands⟩ | ⟨apart,ready⟩
    · exact leads_ends (leads_bind (stands_law stands) fun _ _ impossible => False.elim impossible) ⟨law,complete⟩
    · refine leads_ends recover_phrase_law ⟨law,apart,ready.imp_right fun ready => ?_⟩
      exact ⟨⟨ready.1,ready.2.1⟩,ready.2.2⟩
  | lockSession => exact leads_ends lock_law trivial
  | deleteVault => exact leads_ends delete_law law
  | setPrimaryDestination id =>
    by_cases commits : env.ok .swapsPrimary
    · obtain ⟨queries,finds,transport,held⟩ := orderly commits
      exact leads_ends (set_primary_law (fun _ creates => creates) fun _ => ⟨queries,finds,transport⟩) ⟨law,.inr held⟩
    · have held : w.session = none ∨ w.rcloneConf.isSome = true ∨ ¬ env.ok .swapsPrimary := .inr (.inr commits)
      exact leads_ends (set_primary_law (fun ok _ => absurd ok commits) fun ok => absurd ok commits) ⟨law,held⟩
  | migrateVault id =>
    refine leads_ends (migrate_law fun commits => ?_) ⟨law,?_⟩
    · exact (orderly commits).2
    · by_cases commits : env.ok .swapsPrimary
      · exact .inr (.inl (orderly commits).1)
      · exact .inr (.inr commits)

theorem step_law {act : Action} {next : World} (law : Invariant w) (orderly : Orderly w act)
    (taken : step w act = some next) : Invariant next := by
  cases act with
  | request env request =>
    by_cases drawn : request.drawn w
    · rw [step,if_pos drawn] at taken
      cases taken
      exact request_law law drawn orderly
    · rw [step,if_neg drawn] at taken
      cases taken
  | expire =>
    cases taken
    exact gone_invariant (expire_gone w)

end Rules

-- In every run whose steps meet the condition, the open session, its name, its conf
-- path and its transport belong to one vault between any two commands.
theorem session_and_transport_agree (vaults : String → Option (List Destination)) (acts : List Action)
    (orderly : Guarded step Orderly (start vaults) acts) : Along step Law (start vaults) acts := by
  apply along_mono (fun _ => Invariant.toLaw)
  exact along_guarded (fun _ _ _ => step_law) (gone_invariant rfl) orderly

def quiet : CommandEnv := ⟨fun _ => .ok (),fun _ => false,true⟩

def bucketDestination : Destination := ⟨"d1","b2-a","[b2-a]","bucket","",true,none⟩

def twoVaults (db : String) : Option (List Destination) :=
  if db = "a" then some [bucketDestination] else if db = "b" then some [] else none

-- A vault that has a primary is opened again after its session has expired.
theorem reopened_vault_agrees : Along step Law (start twoVaults)
    [.request quiet (.authenticate "a"),.expire,.request quiet (.authenticate "a"),.request quiet .lockSession] := by
  apply session_and_transport_agree
  apply guarded_cons (.inr ⟨.inl rfl,.inl rfl⟩) rfl
  apply guarded_cons trivial rfl
  apply guarded_cons (.inr ⟨.inl rfl,.inr ⟨rfl,rfl,rfl,rfl,rfl⟩⟩) rfl
  exact guarded_last trivial

-- The transport of `a` outlives the expiry, and `b` builds none in its place.
theorem expired_transport_kept : ¬ Along step Law (start twoVaults)
    [.request quiet (.authenticate "a"),.expire,.request quiet (.authenticate "b")] := by
  intro along
  obtain ⟨same,_⟩ := (along_last along rfl).transport ⟨"b","b",true,2⟩ rfl ⟨"a",bucketDestination⟩ rfl
  revert same
  decide

end ArxRuna.Session.AppState
