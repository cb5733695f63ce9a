import ArxRuna.Library.Interrupt
import ArxRuna.Cloud.Transport
import ArxRuna.Credentials.Header
import ArxRuna.Credentials.Rekey
namespace ArxRuna.Credentials.Device
open Library.Aead Library.Interrupt Library.JsonText Crypto Cloud.Transport Keys Header Rekey

-- A vault directory: `vault.db` and `vault-header.json`.
structure VaultFiles where
  database : Option Database
  header : Option JsonFile

-- The manifest backup opens under its key and the vault id it is bound to.
structure ManifestBackup where
  key : ManifestKey
  vaultId : Uuid
  database : Database

structure CloudObjects where
  header : Option JsonFile
  manifest : Option ManifestBackup

-- `vaultDb` is the directory whose database the session has open.
structure Session where
  vaultId : String
  vaultDb : String
  keys : VaultKeys

-- One device, its vaults by directory name, and the cloud locations it can reach.
-- `transport` is the location of the live transport; `none` is the one that
-- refuses every transfer. `pending` is the staged header in the config directory.
structure World where
  vaults : String → VaultFiles
  keyFiles : String → Option Bytes
  session : Option Session
  transport : Option String
  clouds : String → CloudObjects
  pending : Option JsonFile

inductive Leaves where
  | written
  | untouched
  | garbled
  deriving DecidableEq, Repr

-- One file written by the process: what is on disk afterwards, what is reported,
-- and whether the process stops there.
structure FileWrite where
  leaves : Leaves
  reported : Bool
  stops : Bool
  honest : reported = true → leaves = .written

def FileWrite.succeeds : FileWrite := ⟨.written,true,false,fun _ => rfl⟩

def FileWrite.result (write : FileWrite) (value : Json) (before : Option JsonFile) : Option JsonFile :=
  match write.leaves with
  | .written => some (.json value)
  | .untouched => before
  | .garbled => some .garbled

-- An upload ends with a report, or the process stops while it runs.
inductive Transfer where
  | ended (attempt : Attempt)
  | cut (stored : Bool)

def Transfer.stored : Transfer → Bool
  | .ended attempt => attempt.stored
  | .cut stored => stored

inductive VaultHeaderSyncError where
  | stagingIo (text : String)
  | transport (source : CloudTransportError)
  deriving DecidableEq, Repr

inductive ManifestBackupSyncError where
  | vacuum (text : String)
  | cryptoFailed
  | transport (source : CloudTransportError)
  | integrityCheckFailed
  | dbPersistIo (text : String)
  deriving DecidableEq, Repr

structure HeaderUpload where
  write : FileWrite
  transfer : Transfer
  cleaned : Bool

structure ManifestUpload where
  exports : Fate ManifestBackupSyncError
  transfer : Transfer

structure ManifestDownload where
  transfers : Fate ManifestBackupSyncError
  persists : Fate ManifestBackupSyncError
  valid : Bool

-- The ceremonies stage a header in the config directory, a push does so in the
-- staging directory of its vault, where nothing looks for it.
inductive StagingDir where
  | config
  | vault
  deriving DecidableEq, Repr

def World.setVault (w : World) (dir : String) (files : VaultFiles) : World :=
  {w with vaults := fun other => if other = dir then files else w.vaults other}

def World.setDatabase (w : World) (dir : String) (database : Option Database) : World :=
  w.setVault dir {w.vaults dir with database := database}

def World.setHeader (w : World) (dir : String) (header : Option JsonFile) : World :=
  w.setVault dir {w.vaults dir with header := header}

def World.setCloud (w : World) (location : String) (objects : CloudObjects) : World :=
  {w with clouds := fun other => if other = location then objects else w.clouds other}

def World.setKeyFile (w : World) (path : String) (content : Option Bytes) : World :=
  {w with keyFiles := fun other => if other = path then content else w.keyFiles other}

def World.stageHeader (w : World) (staging : StagingDir) (file : Option JsonFile) : World :=
  match staging with
  | .config => {w with pending := file}
  | .vault => w

def notConfigured : CloudTransportError := .other "cloud transport not configured"

def uploadBlob (transfer : Transfer) (put : CloudObjects → CloudObjects) :
    Command World CloudTransportError Unit := do
  let w ← inspect
  match w.transport with
  | none => fail notConfigured
  | some location =>
    whenever transfer.stored (change (·.setCloud location (put (w.clouds location))))
    match transfer with
    | .ended attempt => demand attempt.report
    | .cut _ => stop

def VaultHeader.forCloud (header : VaultHeader) : VaultHeader := {header with keyFileBlake3 := none,name := none}

def putHeader (header : VaultHeader) (objects : CloudObjects) : CloudObjects :=
  {objects with header := some (.json (VaultHeader.forCloud header).toJson)}

def putManifest (backup : ManifestBackup) (objects : CloudObjects) : CloudObjects :=
  {objects with manifest := some backup}

-- The staged copy stays behind when the transport fails.
def uploadVaultHeader (upload : HeaderUpload) (staging : StagingDir) (header : VaultHeader) :
    Command World VaultHeaderSyncError Unit := do
  change fun w => w.stageHeader staging (upload.write.result (VaultHeader.forCloud header).toJson w.pending)
  whenever upload.write.stops stop
  if upload.write.reported then
    relabel .transport (uploadBlob upload.transfer (putHeader header))
    whenever upload.cleaned (change (·.stageHeader staging none))
  else do
    whenever upload.cleaned (change (·.stageHeader staging none))
    fail (.stagingIo "staging write failed")

def openDatabase (vaultDb : String) (sqlcipherKey : SqlcipherKey) (e : ε) : Command World ε Database := do
  match ((← inspect).vaults vaultDb).database with
  | none => fail e
  | some database =>
    require (database.key = sqlcipherKey) e
    return database

def uploadManifestBackup (upload : ManifestUpload) (vaultDb : String) (sqlcipherKey : SqlcipherKey)
    (manifestKey : ManifestKey) (vaultId : Uuid) : Command World ManifestBackupSyncError Unit := do
  meet upload.exports
  let database ← openDatabase vaultDb sqlcipherKey (.vacuum "file is not a database")
  relabel .transport (uploadBlob upload.transfer (putManifest ⟨manifestKey,vaultId,database⟩))

def downloadVaultHeader (fate : Fate AuthenticationError) : Command World AuthenticationError VaultHeader := do
  meet fate
  let w ← inspect
  match w.transport with
  | none => fail .vaultHeaderInvalid
  | some location =>
    match (w.clouds location).header >>= readHeader with
    | none => fail .vaultHeaderInvalid
    | some header =>
      match header.validateBootstrap with
      | .error _ => fail .vaultHeaderInvalid
      | .ok _ => pure header

-- Decrypts, puts the database in place in one step, and checks it there.
def downloadManifestBackup (download : ManifestDownload) (vaultDb : String) (manifestKey : ManifestKey)
    (vaultId : Uuid) (sqlcipherKey : SqlcipherKey) : Command World ManifestBackupSyncError Unit := do
  let w ← inspect
  require (w.vaults vaultDb).database.isNone (.dbPersistIo "destination exists")
  match w.transport with
  | none => fail (.transport notConfigured)
  | some location =>
    meet download.transfers
    match (w.clouds location).manifest with
    | none => fail (.transport .notFound)
    | some backup =>
      require (backup.key = manifestKey ∧ backup.vaultId = vaultId) .cryptoFailed
      meet download.persists
      change (·.setDatabase vaultDb (some backup.database))
      if backup.database.key = sqlcipherKey ∧ download.valid then pure ()
      else do
        change (·.setDatabase vaultDb none)
        fail .integrityCheckFailed

def mapManifestBackupSyncError : ManifestBackupSyncError → AuthenticationError
  | .cryptoFailed | .integrityCheckFailed => .invalidCredentials
  | .transport _ | .vacuum _ | .dbPersistIo _ => .vaultHeaderInvalid

def createFile (write : FileWrite) (path : String) (bytes : Bytes) (w : World) : World :=
  match write.leaves with
  | .written => w.setKeyFile path (some bytes)
  | .untouched => w
  | .garbled => w.setKeyFile path (some [])

-- A new file only: an existing one is an error and is left as it is.
def writeOwnerOnlyNew (write : FileWrite) (path : String) (bytes : Bytes) :
    Command World AuthenticationError Unit := do
  let w ← inspect
  require (w.keyFiles path).isNone .vaultHeaderInvalid
  change (createFile write path bytes)
  whenever write.stops stop
  require write.reported .vaultHeaderInvalid

def removeFileIfExists (removed : Bool) (path : String) : Command World AuthenticationError Unit :=
  whenever removed (change (·.setKeyFile path none))

-- Both ways of putting a session in place open the database under its keys; a
-- database that is not there is no error.
def openSession (vaultId vaultDb : String) (keys : VaultKeys) : Command World AuthenticationError Unit := do
  let w ← inspect
  require (∀ database ∈ (w.vaults vaultDb).database,database.key = keys.sqlcipherKey) .invalidCredentials
  change ({· with session := some ⟨vaultId,vaultDb,keys⟩})

def swapActiveSession (fate : Fate AuthenticationError) (keys : VaultKeys) (vaultId : String) :
    Command World AuthenticationError Unit := do
  require keys.initialised .invalidCredentials
  let w ← inspect
  match w.session with
  | none => fail .sessionNotActive
  | some session =>
    meet fate
    openSession vaultId session.vaultDb keys

def finalizeSessionInstall (fate : Fate AuthenticationError) (keys : VaultKeys) (vaultId vaultDb : String) :
    Command World AuthenticationError Unit := do
  require keys.initialised .invalidCredentials
  let w ← inspect
  require w.session.isNone .sessionAlreadyActive
  meet fate
  openSession vaultId vaultDb keys

def Transfer.reports (transfer : Transfer) : Prop := ∃ attempt, transfer = .ended attempt ∧ attempt.report = .ok ()

def Transfer.ends (transfer : Transfer) : Prop := ∃ attempt, transfer = .ended attempt

def Transfer.ending : Transfer → Ending CloudTransportError Unit
  | .ended attempt => match attempt.report with
    | .ok _ => .done ()
    | .error e => .failed e
  | .cut _ => .stopped

theorem Transfer.ending_done {transfer : Transfer} : transfer.ending = .done () ↔ transfer.reports := by
  cases transfer with
  | ended attempt => cases report : attempt.report <;> simp [Transfer.ending,Transfer.reports,report]
  | cut stored => simp [Transfer.ending,Transfer.reports]

theorem Transfer.ending_stopped (transfer : Transfer) : transfer.ending = .stopped ↔ ¬ transfer.ends := by
  cases transfer with
  | ended attempt => cases report : attempt.report <;> simp [Transfer.ending,Transfer.ends,report]
  | cut stored => simp [Transfer.ending,Transfer.ends]

-- What each step does, once for all the commands that are made of them.
section Steps
variable {w after : World} {location : String} {value : Unit}

theorem upload_blob_refused {transfer : Transfer} {put : CloudObjects → CloudObjects} (off : w.transport = none) :
    uploadBlob transfer put w = (.failed notConfigured,w) := by
  unfold uploadBlob
  rw [bind_inspect,off]
  rfl

theorem upload_blob_eq {transfer : Transfer} {put : CloudObjects → CloudObjects}
    (configured : w.transport = some location) : uploadBlob transfer put w =
      (transfer.ending,if transfer.stored then w.setCloud location (put (w.clouds location)) else w) := by
  unfold uploadBlob
  rw [bind_inspect,configured]
  dsimp only
  cases transfer with
  | cut stored => cases stored <;> rfl
  | ended attempt =>
    obtain ⟨stored,report,honest⟩ := attempt
    cases stored <;> cases report <;> rfl

theorem open_database_done {vaultDb : String} {sqlcipherKey : SqlcipherKey} {e : ε} {database : Database}
    (there : (w.vaults vaultDb).database = some database) (opens : database.key = sqlcipherKey) :
    openDatabase vaultDb sqlcipherKey e w = (.done database,w) := by
  rw [openDatabase,bind_inspect,there]
  exact bind_required opens _ w

theorem upload_manifest_eq {upload : ManifestUpload} {vaultDb : String} {sqlcipherKey : SqlcipherKey}
    {manifestKey : ManifestKey} {vaultId : Uuid} {database : Database}
    (there : (w.vaults vaultDb).database = some database) (opens : database.key = sqlcipherKey) :
    uploadManifestBackup upload vaultDb sqlcipherKey manifestKey vaultId w =
      (meet upload.exports >>= fun _ => relabel .transport
        (uploadBlob upload.transfer (putManifest ⟨manifestKey,vaultId,database⟩))) w := by
  cases fate : upload.exports with
  | goes =>
    rw [uploadManifestBackup,fate]
    exact bind_done (open_database_done there opens)
  | fails e =>
    rw [uploadManifestBackup,fate]
    rfl
  | stops =>
    rw [uploadManifestBackup,fate]
    rfl

-- What keeps the process from stopping in an upload, with or without a transport.
def ManifestUpload.ends (upload : ManifestUpload) (connected : Bool) : Prop :=
  upload.exports ≠ .stops ∧ (connected = true → upload.exports = .goes → upload.transfer.ends)

theorem manifest_stops {upload : ManifestUpload} {vaultDb : String} {sqlcipherKey : SqlcipherKey}
    {manifestKey : ManifestKey} {vaultId : Uuid} {database : Database}
    (there : (w.vaults vaultDb).database = some database) (opens : database.key = sqlcipherKey) :
    (uploadManifestBackup upload vaultDb sqlcipherKey manifestKey vaultId w).1 = .stopped ↔
      ¬ upload.ends w.transport.isSome := by
  rw [upload_manifest_eq there opens,ManifestUpload.ends]
  cases upload.exports with
  | goes =>
    change (relabel _ _ w).1 = .stopped ↔ _
    rw [stopped_relabel]
    cases configured : w.transport with
    | none => simp [upload_blob_refused configured]
    | some location => simp [upload_blob_eq configured,Transfer.ending_stopped]
  | fails e => simp [meet,bind_failed (c := fail e) rfl]
  | stops => simp [meet,bind_stopped (c := stop) rfl]

def HeaderUpload.succeeds (upload : HeaderUpload) : Prop :=
  upload.write.stops = false ∧ upload.write.reported = true ∧ upload.transfer.reports

def HeaderUpload.ends (upload : HeaderUpload) (connected : Bool) : Prop :=
  upload.write.stops = false ∧ (connected = true → upload.write.reported = true → upload.transfer.ends)

@[simp] theorem stage_transport (w : World) (staging : StagingDir) (file : Option JsonFile) :
    (w.stageHeader staging file).transport = w.transport := by
  cases staging <;> rfl

@[simp] theorem stage_clouds (w : World) (staging : StagingDir) (file : Option JsonFile) :
    (w.stageHeader staging file).clouds = w.clouds := by
  cases staging <;> rfl

-- The staged header, and the world once the transfer has ended.
def HeaderUpload.staged (upload : HeaderUpload) (staging : StagingDir) (header : VaultHeader) (w : World) : World :=
  w.stageHeader staging (upload.write.result (VaultHeader.forCloud header).toJson w.pending)

def HeaderUpload.sent (upload : HeaderUpload) (staging : StagingDir) (header : VaultHeader) (location : String)
    (w : World) : World :=
  let staged := upload.staged staging header w
  if upload.transfer.stored then staged.setCloud location (putHeader header (w.clouds location)) else staged

def HeaderUpload.unstaged (upload : HeaderUpload) (staging : StagingDir) (w : World) : World :=
  if upload.cleaned then w.stageHeader staging none else w

theorem upload_header_stopped {upload : HeaderUpload} {staging : StagingDir} {header : VaultHeader}
    (stops : upload.write.stops = true) :
    uploadVaultHeader upload staging header w = (.stopped,upload.staged staging header w) := by
  unfold uploadVaultHeader
  rw [bind_change,stops]
  rfl

theorem upload_header_unwritten {upload : HeaderUpload} {staging : StagingDir} {header : VaultHeader}
    (runs : upload.write.stops = false) (refused : upload.write.reported = false) :
    uploadVaultHeader upload staging header w =
      (.failed (.stagingIo "staging write failed"),upload.unstaged staging (upload.staged staging header w)) := by
  unfold uploadVaultHeader HeaderUpload.unstaged
  rw [bind_change,runs,refused]
  cases upload.cleaned <;> rfl

theorem upload_header_refused {upload : HeaderUpload} {staging : StagingDir} {header : VaultHeader}
    (off : w.transport = none) (runs : upload.write.stops = false) (written : upload.write.reported = true) :
    uploadVaultHeader upload staging header w =
      (.failed (.transport notConfigured),upload.staged staging header w) := by
  have off' : (upload.staged staging header w).transport = none := by rw [HeaderUpload.staged,stage_transport,off]
  unfold uploadVaultHeader
  rw [bind_change,runs]
  change (if upload.write.reported = true then _ else _ : Command World VaultHeaderSyncError Unit) _ = _
  rw [if_pos written]
  exact bind_failed (relabel_failed (upload_blob_refused off'))

theorem upload_header_sent {upload : HeaderUpload} {staging : StagingDir} {header : VaultHeader}
    (configured : w.transport = some location) (runs : upload.write.stops = false)
    (written : upload.write.reported = true) : uploadVaultHeader upload staging header w =
      match upload.transfer.ending with
      | .done _ => (.done (),upload.unstaged staging (upload.sent staging header location w))
      | .failed e => (.failed (.transport e),upload.sent staging header location w)
      | .stopped => (.stopped,upload.sent staging header location w) := by
  have sends : uploadBlob upload.transfer (putHeader header) (upload.staged staging header w) =
      (upload.transfer.ending,upload.sent staging header location w) := by
    have staged : (upload.staged staging header w).transport = some location := by
      rw [HeaderUpload.staged,stage_transport,configured]
    rw [upload_blob_eq staged]
    simp [HeaderUpload.sent,HeaderUpload.staged]
  unfold uploadVaultHeader
  rw [bind_change,runs]
  change (if upload.write.reported = true then _ else _ : Command World VaultHeaderSyncError Unit) _ = _
  rw [if_pos written]
  cases ended : upload.transfer.ending with
  | done =>
    rw [ended] at sends
    refine (bind_done (done_relabel.mpr sends)).trans ?_
    cases cleaned : upload.cleaned <;> simp [whenever,pure_at,change,HeaderUpload.unstaged,cleaned]
  | failed e =>
    rw [ended] at sends
    exact bind_failed (relabel_failed sends)
  | stopped =>
    rw [ended] at sends
    exact bind_stopped (relabel_stopped sends)

theorem upload_header_done {upload : HeaderUpload} {staging : StagingDir} {header : VaultHeader}
    (configured : w.transport = some location) :
    (∃ t, uploadVaultHeader upload staging header w = (.done (),t)) ↔ upload.succeeds := by
  unfold HeaderUpload.succeeds
  cases stops : upload.write.stops with
  | true => simp [upload_header_stopped stops]
  | false =>
    cases written : upload.write.reported with
    | false => simp [upload_header_unwritten stops written]
    | true =>
      rw [upload_header_sent configured stops written,← Transfer.ending_done]
      cases upload.transfer.ending <;> simp

theorem upload_header_stops {upload : HeaderUpload} {staging : StagingDir} {header : VaultHeader} :
    (uploadVaultHeader upload staging header w).1 = .stopped ↔ ¬ upload.ends w.transport.isSome := by
  unfold HeaderUpload.ends
  cases stops : upload.write.stops with
  | true => simp [upload_header_stopped stops]
  | false =>
    cases written : upload.write.reported with
    | false => simp [upload_header_unwritten stops written]
    | true =>
      cases configured : w.transport with
      | none => simp [upload_header_refused configured stops written]
      | some location =>
        rw [upload_header_sent configured stops written]
        have ends := upload.transfer.ending_stopped
        cases ended : upload.transfer.ending <;> simp_all

theorem write_new_taken {write : FileWrite} {path : String} {bytes : Bytes} (taken : w.keyFiles path ≠ none) :
    writeOwnerOnlyNew write path bytes w = (.failed .vaultHeaderInvalid,w) := by
  unfold writeOwnerOnlyNew
  rw [bind_inspect,bind_refused]
  rw [Option.isNone_iff_eq_none]
  exact taken

theorem write_new_free (write : FileWrite) {path : String} (bytes : Bytes) (free : w.keyFiles path = none) :
    writeOwnerOnlyNew write path bytes w =
      (if write.stops then .stopped else if write.reported then .done () else .failed .vaultHeaderInvalid,
        createFile write path bytes w) := by
  unfold writeOwnerOnlyNew
  rw [bind_inspect,bind_required (by rw [free]; rfl),bind_change]
  cases write.stops <;> cases write.reported <;> rfl

theorem write_new_done {write : FileWrite} {path : String} {bytes : Bytes} :
    writeOwnerOnlyNew write path bytes w = (.done value,after) ↔ w.keyFiles path = none ∧
      write.stops = false ∧ write.reported = true ∧ w.setKeyFile path (some bytes) = after := by
  cases there : w.keyFiles path with
  | some content => simp [write_new_taken (there ▸ (by rintro ⟨⟩) : w.keyFiles path ≠ none)]
  | none =>
    rw [write_new_free write bytes there]
    cases write.stops with
    | true => simp
    | false =>
      cases reported : write.reported with
      | false => simp
      | true => simp [createFile,write.honest reported]

theorem open_session_done {vaultId vaultDb : String} {keys : VaultKeys} :
    openSession vaultId vaultDb keys w = (.done value,after) ↔
      (∀ database ∈ (w.vaults vaultDb).database,database.key = keys.sqlcipherKey) ∧
        {w with session := some ⟨vaultId,vaultDb,keys⟩} = after := by
  unfold openSession
  rw [bind_inspect]
  simp [done_bind]

theorem swap_done {fate : Fate AuthenticationError} {keys : VaultKeys} {vaultId : String} :
    swapActiveSession fate keys vaultId w = (.done value,after) ↔ ∃ session, w.session = some session ∧
      keys.initialised ∧ fate = .goes ∧
      (∀ database ∈ (w.vaults session.vaultDb).database,database.key = keys.sqlcipherKey) ∧
        {w with session := some ⟨vaultId,session.vaultDb,keys⟩} = after := by
  unfold swapActiveSession
  cases active : w.session with
  | none => simp [done_bind,active]
  | some session => simp [done_bind,active,open_session_done,and_assoc]

theorem finalize_done {fate : Fate AuthenticationError} {keys : VaultKeys} {vaultId vaultDb : String} :
    finalizeSessionInstall fate keys vaultId vaultDb w = (.done value,after) ↔ w.session = none ∧
      keys.initialised ∧ fate = .goes ∧
      (∀ database ∈ (w.vaults vaultDb).database,database.key = keys.sqlcipherKey) ∧
        {w with session := some ⟨vaultId,vaultDb,keys⟩} = after := by
  unfold finalizeSessionInstall
  simp [done_bind,open_session_done,and_left_comm]

end Steps

-- How far each command reaches: it keeps every relation that its own effects keep.
section Frames
variable {R : World → World → Prop} (refl : ∀ w, R w w) (trans : ∀ a b c, R a b → R b c → R a c)
include refl trans

theorem keeps_upload_blob {transfer : Transfer} {put : CloudObjects → CloudObjects}
    (cloud : ∀ w location objects, R w (World.setCloud w location objects)) :
    Keeps R (uploadBlob transfer put) := by
  apply keeps_bind trans (keeps_inspect refl)
  intro w
  cases w.transport with
  | none => exact keeps_fail refl _
  | some location =>
    refine keeps_bind trans (keeps_whenever refl (keeps_change fun u => cloud u location _)) fun _ => ?_
    cases transfer with
    | ended attempt => exact keeps_demand refl _
    | cut stored => exact keeps_stop refl

theorem keeps_upload_header {upload : HeaderUpload} {staging : StagingDir} {header : VaultHeader}
    (cloud : ∀ w location objects, R w (World.setCloud w location objects))
    (staged : ∀ w, R w (w.stageHeader staging (upload.write.result (VaultHeader.forCloud header).toJson w.pending)))
    (unstaged : ∀ w, R w (w.stageHeader staging none)) : Keeps R (uploadVaultHeader upload staging header) := by
  have cleaning : Keeps R (whenever upload.cleaned (change (World.stageHeader · staging none)) :
      Command World VaultHeaderSyncError Unit) := keeps_whenever refl (keeps_change unstaged)
  refine keeps_bind trans (keeps_change staged) fun _ => ?_
  refine keeps_bind trans (keeps_whenever refl (keeps_stop refl)) fun _ => ?_
  split
  · exact keeps_bind trans (keeps_relabel (keeps_upload_blob refl trans cloud)) fun _ => cleaning
  · exact keeps_bind trans cleaning fun _ => keeps_fail refl _

theorem keeps_open_database {vaultDb : String} {key : SqlcipherKey} {e : ε} :
    Keeps R (openDatabase vaultDb key e) := by
  apply keeps_bind trans (keeps_inspect refl)
  intro w
  cases (w.vaults vaultDb).database with
  | none => exact keeps_fail refl _
  | some database => exact keeps_bind trans (keeps_require refl _ _) fun _ => keeps_pure refl _

theorem keeps_upload_manifest {upload : ManifestUpload} {vaultDb : String} {sqlcipherKey : SqlcipherKey}
    {manifestKey : ManifestKey} {vaultId : Uuid}
    (cloud : ∀ w location objects, R w (World.setCloud w location objects)) :
    Keeps R (uploadManifestBackup upload vaultDb sqlcipherKey manifestKey vaultId) := by
  refine keeps_bind trans (keeps_meet refl _) fun _ => ?_
  refine keeps_bind trans (keeps_open_database refl trans) fun _ => ?_
  exact keeps_relabel (keeps_upload_blob refl trans cloud)

theorem keeps_download_header {fate : Fate AuthenticationError} : Keeps R (downloadVaultHeader fate) := by
  refine keeps_bind trans (keeps_meet refl _) fun _ => ?_
  refine keeps_bind trans (keeps_inspect refl) fun w => ?_
  cases w.transport with
  | none => exact keeps_fail refl _
  | some location =>
    dsimp only
    split
    · exact keeps_fail refl _
    · split
      · exact keeps_fail refl _
      · exact keeps_pure refl _

theorem keeps_open_session {vaultId vaultDb : String} {keys : VaultKeys}
    (session : ∀ w session, R w {w with session := session}) : Keeps R (openSession vaultId vaultDb keys) := by
  refine keeps_bind trans (keeps_inspect refl) fun w => ?_
  refine keeps_bind trans (keeps_require refl _ _) fun _ => ?_
  exact keeps_change fun u => session u _

theorem keeps_swap {fate : Fate AuthenticationError} {keys : VaultKeys} {vaultId : String}
    (session : ∀ w session, R w {w with session := session}) : Keeps R (swapActiveSession fate keys vaultId) := by
  refine keeps_bind trans (keeps_require refl _ _) fun _ => ?_
  refine keeps_bind trans (keeps_inspect refl) fun w => ?_
  cases w.session with
  | none => exact keeps_fail refl _
  | some active => exact keeps_bind trans (keeps_meet refl _) fun _ => keeps_open_session refl trans session

theorem keeps_finalize {fate : Fate AuthenticationError} {keys : VaultKeys} {vaultId vaultDb : String}
    (session : ∀ w session, R w {w with session := session}) :
    Keeps R (finalizeSessionInstall fate keys vaultId vaultDb) := by
  refine keeps_bind trans (keeps_require refl _ _) fun _ => ?_
  refine keeps_bind trans (keeps_inspect refl) fun w => ?_
  refine keeps_bind trans (keeps_require refl _ _) fun _ => ?_
  exact keeps_bind trans (keeps_meet refl _) fun _ => keeps_open_session refl trans session

omit trans in
theorem keeps_write_new {write : FileWrite} {path : String} {bytes : Bytes}
    (keyFile : ∀ w path content, World.keyFiles w path = none → R w (w.setKeyFile path (some content))) :
    Keeps R (writeOwnerOnlyNew write path bytes) := by
  intro w
  cases there : w.keyFiles path with
  | some content =>
    rw [write_new_taken (there ▸ (by rintro ⟨⟩))]
    exact refl w
  | none =>
    rw [write_new_free write bytes there]
    unfold createFile
    cases write.leaves with
    | written => exact keyFile w path bytes there
    | untouched => exact refl w
    | garbled => exact keyFile w path [] there

end Frames

-- The uploads leave everything on the device as it is, the staged header apart.
structure SameDevice (w after : World) : Prop where
  vaults : after.vaults = w.vaults
  keyFiles : after.keyFiles = w.keyFiles
  session : after.session = w.session
  transport : after.transport = w.transport

theorem device_refl (w : World) : SameDevice w w := ⟨rfl,rfl,rfl,rfl⟩

theorem device_trans (a b c : World) (first : SameDevice a b) (second : SameDevice b c) : SameDevice a c :=
  ⟨second.vaults.trans first.vaults,second.keyFiles.trans first.keyFiles,second.session.trans first.session,
    second.transport.trans first.transport⟩

theorem device_cloud (w : World) (location : String) (objects : CloudObjects) :
    SameDevice w (w.setCloud location objects) := ⟨rfl,rfl,rfl,rfl⟩

theorem device_staged (w : World) (staging : StagingDir) (file : Option JsonFile) :
    SameDevice w (w.stageHeader staging file) := by
  cases staging <;> exact ⟨rfl,rfl,rfl,rfl⟩

theorem upload_header_device (upload : HeaderUpload) (staging : StagingDir) (header : VaultHeader) :
    Keeps SameDevice (uploadVaultHeader upload staging header) :=
  keeps_upload_header device_refl device_trans device_cloud (fun w => device_staged w _ _)
    (fun w => device_staged w _ _)

theorem upload_manifest_device (upload : ManifestUpload) (vaultDb : String) (sqlcipherKey : SqlcipherKey)
    (manifestKey : ManifestKey) (vaultId : Uuid) :
    Keeps SameDevice (uploadManifestBackup upload vaultDb sqlcipherKey manifestKey vaultId) :=
  keeps_upload_manifest device_refl device_trans device_cloud

end ArxRuna.Credentials.Device
