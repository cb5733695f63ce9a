import ArxRuna.Credentials.Device
namespace ArxRuna.Credentials.Ceremonies
open Library.Aead Library.Base64 Library.Fallible Library.Interrupt Library.JsonText Crypto
open Keys Header Rekey Device

inductive Argon2MigrationIntent where
  | preserveTrusted
  | migrateToRequested
  deriving DecidableEq, Repr

def resolveExistingVaultArgon2 (trusted requested : Argon2Params) : Argon2MigrationIntent → Argon2Params
  | .preserveTrusted => trusted
  | .migrateToRequested => requested

inductive RecoverySlotAction where
  | keepAndRewrap (recoveryKey : RecoveryKey)
  | remove
  | noSlots

-- Everything a ceremony meets: fresh random values, and what becomes of each of
-- its steps. `rekeyBegins` and `rekeyEnds` stand before and after the database
-- task, so that a process stop can fall on either side of it.
structure CeremonyEnv where
  salt : Salt
  nonce : Nonce
  keyFile : KeyFile
  rekey : RekeyEnv
  readsKey : Fate AuthenticationError
  locksCurrent : Fate AuthenticationError
  writesKeyFile : FileWrite
  removesKeyFile : Bool
  locksNew : Fate AuthenticationError
  rekeyBegins : Fate AuthenticationError
  rekeyEnds : Fate AuthenticationError
  installs : Fate AuthenticationError
  stages : Fate AuthenticationError
  header : HeaderUpload
  manifest : ManifestUpload
  removesPending : Bool

variable (suite : Suite) (env : CeremonyEnv)

def readKeySource (tier : UInt8) (path : Option String) : Command World AuthenticationError (Option KeyFile) :=
  if tier = 1 then pure none
  else if tier = 2 then
    match path with
    | none => fail .invalidCredentials
    | some path => do
      meet env.readsKey
      let w ← inspect
      match w.keyFiles path >>= block 32 with
      | none => fail .invalidCredentials
      | some bytes => pure (some bytes)
  else fail .invalidCredentials

-- `position` and `find` both stop at the first slot of the method.
def firstSlot (slots : List RecoverySlot) : Option RecoverySlot := slots.find? (·.method = "bip39")

def replaceFirstSlot (wrapped : WrappedMasterKey) : List RecoverySlot → List RecoverySlot
  | [] => []
  | slot :: rest =>
    if slot.method = "bip39" then {slot with wrappedMasterKey := encodeBase64 wrapped.1} :: rest
    else slot :: replaceFirstSlot wrapped rest

-- What a slot wraps, and the key a phrase derives for it.
def openSlot (phrase : Bytes) (slot : RecoverySlot) :
    Except AuthenticationError (WrappedMasterKey × RecoveryKey) := do
  let salt ← decodeBase64_32 slot.argon2Salt
  let wrapped ← decodeBase64_72 slot.wrappedMasterKey
  let recoveryKey ← deriveMasterKey suite phrase none salt (argon2ParametersFromJson slot.argon2Params)
  return (wrapped,recoveryKey)

def resolveRecoverySlotAction (header : VaultHeader) (phrase : Option Bytes) (vaultId : Uuid) :
    Except AuthenticationError RecoverySlotAction :=
  if header.recoverySlots = [] then .ok .noSlots
  else match phrase with
    | none => .ok .remove
    | some phrase =>
      match suite.mnemonic phrase with
      | none => .error .invalidRecoveryPhrase
      | some words =>
        match firstSlot header.recoverySlots with
        | none => .error .noRecoverySlot
        | some slot => do
          let (wrapped,recoveryKey) ← openSlot suite (canonicalizePhrase words) slot
          match unwrapMasterKeyFromRecovery suite wrapped recoveryKey vaultId with
          | .error _ => .error .invalidCredentials
          | .ok _ => .ok (.keepAndRewrap recoveryKey)

-- The header after the rekey, with the recovery slots dropped or moved along.
def updateHeader (header : VaultHeader) (parameters : Argon2Params) (newMasterKey : MasterKey)
    (slots : RecoverySlotAction) (vaultId : Uuid) : VaultHeader :=
  {header with
    argon2Salt := encodeBase64 env.salt.1
    argon2Params := argon2ParametersToJson parameters
    recoverySlots := match slots with
      | .remove => []
      | .noSlots => header.recoverySlots
      | .keepAndRewrap recoveryKey => replaceFirstSlot
          (wrapMasterKeyForRecovery suite newMasterKey recoveryKey vaultId env.nonce) header.recoverySlots}

-- The blocking task of every ceremony. Its result is a value: what a failure
-- undoes beside the database is up to the ceremony.
def rekeyTask (vaultDb : String) (currentKeys newKeys : VaultKeys) (vaultId : Uuid) :
    Command World AuthenticationError (Except AuthenticationError Unit) := do
  meet env.rekeyBegins
  let w ← inspect
  match (w.vaults vaultDb).database with
  | none => pure (.error .invalidCredentials)
  | some database =>
    let outcome := rekeyVaultDb suite env.rekey currentKeys.keyEncryptionKey newKeys.keyEncryptionKey
      ⟨database,currentKeys.sqlcipherKey⟩ newKeys.sqlcipherKey vaultId
    change (·.setDatabase vaultDb (some outcome.2))
    meet env.rekeyEnds
    return outcome.1

-- What a ceremony knows once it is ready to rekey.
structure Prepared where
  currentKeys : VaultKeys
  newMasterKey : MasterKey
  newKeys : VaultKeys
  parameters : Argon2Params
  slots : RecoverySlotAction
  header : VaultHeader

-- A failed header upload ends the ceremony, a failed manifest upload is only warned
-- about.
def uploadCredentials (keys : VaultKeys) (header : VaultHeader) (vaultDb : String) (vaultId : Uuid) :
    Command World AuthenticationError Unit := do
  meet env.stages
  relabel (fun _ => .vaultHeaderInvalid) (uploadVaultHeader env.header .config header)
  ignoring (uploadManifestBackup env.manifest vaultDb keys.sqlcipherKey keys.manifestKey vaultId)

-- The end of `change_password` and `rotate_key_file`: session, uploads, cleanup.
def installCredentials (keys : VaultKeys) (header : VaultHeader) (vaultDb : String) (vaultId : Uuid) :
    Command World AuthenticationError VaultHeader := do
  let configured := (← inspect).transport.isSome
  swapActiveSession env.installs keys (suite.uuidText vaultId)
  whenever configured (uploadCredentials env keys header vaultDb vaultId)
  whenever env.removesPending (change ({· with pending := none}))
  return header

structure ChangePasswordRequest where
  currentPassword : Bytes
  newPassword : Bytes
  currentKeySource : Option String
  recoveryPhrase : Option Bytes
  argon2Params : Argon2Params
  argon2MigrationIntent : Argon2MigrationIntent
  vaultDb : String

def prepareChange (request : ChangePasswordRequest) (header : VaultHeader) (vaultId : Uuid) :
    Command World AuthenticationError Prepared := do
  require (← inspect).session.isSome .sessionNotActive
  let currentSalt ← demand (decodeBase64_32 header.argon2Salt)
  let currentParams := argon2ParametersFromJson header.argon2Params
  let parameters := resolveExistingVaultArgon2 currentParams request.argon2Params request.argon2MigrationIntent
  let keyFile ← readKeySource env header.tier request.currentKeySource
  let currentMasterKey ← demand (deriveMasterKey suite request.currentPassword keyFile currentSalt currentParams)
  meet env.locksCurrent
  let slots ← demand (resolveRecoverySlotAction suite header request.recoveryPhrase vaultId)
  let newMasterKey ← demand (deriveMasterKey suite request.newPassword keyFile env.salt parameters)
  meet env.locksNew
  return ⟨deriveVaultKeys suite currentMasterKey,newMasterKey,deriveVaultKeys suite newMasterKey,parameters,slots,
    header⟩

def changePassword (request : ChangePasswordRequest) (header : VaultHeader) (vaultId : Uuid) :
    Command World AuthenticationError VaultHeader := do
  let prepared ← prepareChange suite env request header vaultId
  demand (← rekeyTask suite env request.vaultDb prepared.currentKeys prepared.newKeys vaultId)
  installCredentials suite env prepared.newKeys
    (updateHeader suite env prepared.header prepared.parameters prepared.newMasterKey prepared.slots vaultId)
    request.vaultDb vaultId

structure RotateKeyFileRequest where
  password : Bytes
  currentKeySource : String
  targetNewKeyFile : String
  parentExists : Bool
  recoveryPhrase : Option Bytes
  argon2Params : Argon2Params
  argon2MigrationIntent : Argon2MigrationIntent
  vaultDb : String

-- The new key file is on disk before the new master key is derived.
def prepareRotation (request : RotateKeyFileRequest) (header : VaultHeader) (vaultId : Uuid) :
    Command World AuthenticationError Prepared := do
  require (header.tier = 2) .vaultHeaderInvalid
  require (← inspect).session.isSome .sessionNotActive
  let currentSalt ← demand (decodeBase64_32 header.argon2Salt)
  let currentParams := argon2ParametersFromJson header.argon2Params
  let parameters := resolveExistingVaultArgon2 currentParams request.argon2Params request.argon2MigrationIntent
  let keyFile ← readKeySource env header.tier (some request.currentKeySource)
  let currentMasterKey ← demand (deriveMasterKey suite request.password keyFile currentSalt currentParams)
  meet env.locksCurrent
  require request.parentExists .vaultHeaderInvalid
  let slots ← demand (resolveRecoverySlotAction suite header request.recoveryPhrase vaultId)
  writeOwnerOnlyNew env.writesKeyFile request.targetNewKeyFile env.keyFile.1
  let newMasterKey ← demand (deriveMasterKey suite request.password (some env.keyFile) env.salt parameters)
  meet env.locksNew
  return ⟨deriveVaultKeys suite currentMasterKey,newMasterKey,deriveVaultKeys suite newMasterKey,parameters,slots,
    {header with keyFileBlake3 := some (suite.hex (suite.blake3 env.keyFile.1))}⟩

def rotateKeyFile (request : RotateKeyFileRequest) (header : VaultHeader) (vaultId : Uuid) :
    Command World AuthenticationError VaultHeader := do
  let prepared ← prepareRotation suite env request header vaultId
  match ← rekeyTask suite env request.vaultDb prepared.currentKeys prepared.newKeys vaultId with
  | .error e =>
    removeFileIfExists env.removesKeyFile request.targetNewKeyFile
    fail e
  | .ok _ =>
    installCredentials suite env prepared.newKeys
      (updateHeader suite env prepared.header prepared.parameters prepared.newMasterKey prepared.slots vaultId)
      request.vaultDb vaultId

section Frames
variable {suite : Suite} {env : CeremonyEnv} {R : World → World → Prop} (refl : ∀ w, R w w)
  (trans : ∀ a b c, R a b → R b c → R a c)
include refl trans

theorem keeps_read_key {tier : UInt8} {path : Option String} : Keeps R (readKeySource env tier path) := by
  unfold readKeySource
  split
  · exact keeps_pure refl _
  · split
    · cases path with
      | none => exact keeps_fail refl _
      | some path =>
        refine keeps_bind trans (keeps_meet refl _) fun _ => ?_
        refine keeps_bind trans (keeps_inspect refl) fun w => ?_
        split
        · exact keeps_fail refl _
        · exact keeps_pure refl _
    · exact keeps_fail refl _

theorem keeps_rekey_task {vaultDb : String} {currentKeys newKeys : VaultKeys} {vaultId : Uuid}
    (database : ∀ w dir database, R w (World.setDatabase w dir database)) :
    Keeps R (rekeyTask suite env vaultDb currentKeys newKeys vaultId) := by
  refine keeps_bind trans (keeps_meet refl _) fun _ => ?_
  refine keeps_bind trans (keeps_inspect refl) fun w => ?_
  cases (w.vaults vaultDb).database with
  | none => exact keeps_pure refl _
  | some found =>
    refine keeps_bind trans (keeps_change fun u => database u _ _) fun _ => ?_
    exact keeps_bind trans (keeps_meet refl _) fun _ => keeps_pure refl _

theorem keeps_prepare_change {request : ChangePasswordRequest} {header : VaultHeader} {vaultId : Uuid} :
    Keeps R (prepareChange suite env request header vaultId) := by
  refine keeps_bind trans (keeps_inspect refl) fun w => ?_
  refine keeps_bind trans (keeps_require refl _ _) fun _ => ?_
  refine keeps_bind trans (keeps_demand refl _) fun _ => ?_
  refine keeps_bind trans (keeps_read_key refl trans) fun _ => ?_
  refine keeps_bind trans (keeps_demand refl _) fun _ => ?_
  refine keeps_bind trans (keeps_meet refl _) fun _ => ?_
  refine keeps_bind trans (keeps_demand refl _) fun _ => ?_
  refine keeps_bind trans (keeps_demand refl _) fun _ => ?_
  exact keeps_bind trans (keeps_meet refl _) fun _ => keeps_pure refl _

theorem keeps_prepare_rotation {request : RotateKeyFileRequest} {header : VaultHeader} {vaultId : Uuid}
    (keyFile : ∀ w path content, World.keyFiles w path = none → R w (w.setKeyFile path (some content))) :
    Keeps R (prepareRotation suite env request header vaultId) := by
  refine keeps_bind trans (keeps_require refl _ _) fun _ => ?_
  refine keeps_bind trans (keeps_inspect refl) fun w => ?_
  refine keeps_bind trans (keeps_require refl _ _) fun _ => ?_
  refine keeps_bind trans (keeps_demand refl _) fun _ => ?_
  refine keeps_bind trans (keeps_read_key refl trans) fun _ => ?_
  refine keeps_bind trans (keeps_demand refl _) fun _ => ?_
  refine keeps_bind trans (keeps_meet refl _) fun _ => ?_
  refine keeps_bind trans (keeps_require refl _ _) fun _ => ?_
  refine keeps_bind trans (keeps_demand refl _) fun _ => ?_
  refine keeps_bind trans (keeps_write_new refl keyFile) fun _ => ?_
  refine keeps_bind trans (keeps_demand refl _) fun _ => ?_
  exact keeps_bind trans (keeps_meet refl _) fun _ => keeps_pure refl _

theorem keeps_upload_credentials {keys : VaultKeys} {header : VaultHeader} {vaultDb : String} {vaultId : Uuid}
    (cloud : ∀ w location objects, R w (World.setCloud w location objects))
    (staged : ∀ w, R w (World.stageHeader w .config
      (env.header.write.result (VaultHeader.forCloud header).toJson w.pending)))
    (unstaged : ∀ w, R w (World.stageHeader w .config none)) :
    Keeps R (uploadCredentials env keys header vaultDb vaultId) := by
  refine keeps_bind trans (keeps_meet refl _) fun _ => ?_
  refine keeps_bind trans (keeps_relabel (keeps_upload_header refl trans cloud staged unstaged)) fun _ => ?_
  exact keeps_ignoring (keeps_upload_manifest refl trans cloud)

theorem keeps_install {keys : VaultKeys} {header : VaultHeader} {vaultDb : String} {vaultId : Uuid}
    (session : ∀ w session, R w {w with session := session})
    (cloud : ∀ w location objects, R w (World.setCloud w location objects))
    (staged : ∀ w, R w (World.stageHeader w .config
      (env.header.write.result (VaultHeader.forCloud header).toJson w.pending)))
    (unstaged : ∀ w, R w (World.stageHeader w .config none)) :
    Keeps R (installCredentials suite env keys header vaultDb vaultId) := by
  refine keeps_bind trans (keeps_inspect refl) fun w => ?_
  refine keeps_bind trans (keeps_swap refl trans session) fun _ => ?_
  refine keeps_bind trans (keeps_whenever refl
    (keeps_upload_credentials refl trans cloud staged unstaged)) fun _ => ?_
  exact keeps_bind trans (keeps_whenever refl (keeps_change unstaged)) fun _ => keeps_pure refl _

end Frames

section Outcomes
variable {suite : Suite} {w : World} {dir : String}

-- The rekey of this ceremony takes effect, whatever is reported.
structure Lands (suite : Suite) (env : CeremonyEnv) (dir : String) (currentKeys : VaultKeys) (vaultId : Uuid)
    (w : World) : Prop where
  begins : env.rekeyBegins = .goes
  commits : ∃ database, (w.vaults dir).database = some database ∧
    Commits suite env.rekey currentKeys.keyEncryptionKey ⟨database,currentKeys.sqlcipherKey⟩ vaultId
  rekeys : env.rekey.faults.rekeys = .rewrites

theorem rekey_task_eq {env : CeremonyEnv} {currentKeys newKeys : VaultKeys} {vaultId : Uuid} {database : Database}
    (begins : env.rekeyBegins = .goes) (there : (w.vaults dir).database = some database)
    (ended : rekeyVaultDb suite env.rekey currentKeys.keyEncryptionKey newKeys.keyEncryptionKey
      ⟨database,currentKeys.sqlcipherKey⟩ newKeys.sqlcipherKey vaultId = (result,rekeyed)) :
    rekeyTask suite env dir currentKeys newKeys vaultId w =
      (meet env.rekeyEnds >>= fun _ => pure result) (w.setDatabase dir (some rekeyed)) := by
  unfold rekeyTask
  rw [begins,bind_goes,bind_inspect,there]
  dsimp only
  rw [ended]
  rfl

theorem rekey_task_lands {env : CeremonyEnv} {currentKeys : VaultKeys} (newKeys : VaultKeys) {vaultId : Uuid}
    (lands : Lands suite env dir currentKeys vaultId w) : ∃ tables,
      rekeyTask suite env dir currentKeys newKeys vaultId w =
        (meet env.rekeyEnds >>= fun _ => pure (.ok ())) (w.setDatabase dir (some ⟨newKeys.sqlcipherKey,tables⟩)) := by
  obtain ⟨begins,⟨database,there,commits⟩,rekeys⟩ := lands
  rcases rekey_cases newKeys.keyEncryptionKey ⟨database,currentKeys.sqlcipherKey⟩ newKeys.sqlcipherKey vaultId with
    ⟨refused,_⟩ | ⟨_,tables,_,ended⟩
  · exact absurd commits refused
  · rw [rekeys] at ended
    exact ⟨tables,rekey_task_eq begins there ended⟩

-- Otherwise the database keeps its key, and the task reports success only where
-- `sqlite3_rekey` has.
theorem rekey_task_spares {env : CeremonyEnv} {currentKeys : VaultKeys} (newKeys : VaultKeys) {vaultId : Uuid}
    (spared : ¬ Lands suite env dir currentKeys vaultId w) :
    ((rekeyTask suite env dir currentKeys newKeys vaultId w).2 = w ∨
      ∃ database tables, (w.vaults dir).database = some database ∧
        (rekeyTask suite env dir currentKeys newKeys vaultId w).2 = w.setDatabase dir (some ⟨database.key,tables⟩)) ∧
    ∀ t, rekeyTask suite env dir currentKeys newKeys vaultId w = (.done (.ok ()),t) →
      env.rekey.faults.rekeys = .undone ∧ ((w.vaults dir).database).isSome := by
  have reported {e : AuthenticationError} {u t : World} :
      (meet env.rekeyEnds >>= fun _ => pure (.error e) : Command World AuthenticationError (Except _ Unit)) u ≠
        (.done (.ok ()),t) := by
    intro ended
    obtain ⟨_,_,_,returned⟩ := done_bind.mp ended
    cases returned
  have left {r : Except AuthenticationError Unit} {u : World} :
      ((meet env.rekeyEnds >>= fun _ => pure r : Command World AuthenticationError _) u).2 = u := by
    cases env.rekeyEnds <;> rfl
  cases begins : env.rekeyBegins with
  | fails e =>
    unfold rekeyTask
    rw [begins]
    exact ⟨.inl rfl,by rintro t ⟨⟩⟩
  | stops =>
    unfold rekeyTask
    rw [begins]
    exact ⟨.inl rfl,by rintro t ⟨⟩⟩
  | goes =>
    cases there : (w.vaults dir).database with
    | none =>
      unfold rekeyTask
      rw [begins,bind_goes,bind_inspect,there]
      exact ⟨.inl rfl,by rintro t ⟨⟩⟩
    | some database =>
      rcases rekey_cases newKeys.keyEncryptionKey ⟨database,currentKeys.sqlcipherKey⟩ newKeys.sqlcipherKey
        vaultId with ⟨_,e,ended⟩ | ⟨commits,tables,_,ended⟩
      · rw [rekey_task_eq begins there ended,left]
        exact ⟨.inr ⟨database,database.tables,rfl,rfl⟩,fun t ok => absurd ok reported⟩
      · cases fate : env.rekey.faults.rekeys with
        | rewrites => exact absurd ⟨begins,⟨database,there,commits⟩,fate⟩ spared
        | refuses =>
          rw [fate] at ended
          rw [rekey_task_eq begins there ended,left]
          exact ⟨.inr ⟨database,tables,rfl,rfl⟩,fun t ok => absurd ok reported⟩
        | undone =>
          rw [fate] at ended
          rw [rekey_task_eq begins there ended,left]
          exact ⟨.inr ⟨database,tables,rfl,rfl⟩,fun _ _ => ⟨rfl,rfl⟩⟩

-- What the end of a ceremony needs to get through.
structure Installs (env : CeremonyEnv) (keys : VaultKeys) (w : World) : Prop where
  initialised : keys.initialised
  swaps : env.installs = .goes
  session : ∃ session, w.session = some session ∧
    ∀ database ∈ (w.vaults session.vaultDb).database,database.key = keys.sqlcipherKey
  uploads : w.transport.isSome → env.stages = .goes ∧ env.header.succeeds ∧ env.manifest.ends true

theorem upload_credentials_done {env : CeremonyEnv} {keys : VaultKeys} {header : VaultHeader} {vaultId : Uuid}
    {database : Database} {location : String} (configured : w.transport = some location)
    (there : (w.vaults dir).database = some database) (opens : database.key = keys.sqlcipherKey) :
    (∃ t, uploadCredentials env keys header dir vaultId w = (.done (),t)) ↔
      env.stages = .goes ∧ env.header.succeeds ∧ env.manifest.ends true := by
  have manifest {t : World} (sent : uploadVaultHeader env.header .config header w = (.done (),t)) :
      (uploadManifestBackup env.manifest dir keys.sqlcipherKey keys.manifestKey vaultId t).1 ≠ .stopped ↔
        env.manifest.ends true := by
    have device := upload_header_device env.header .config header w
    rw [sent] at device
    rw [ne_eq,manifest_stops ((congrArg (fun v => (v dir).database) device.vaults).trans there) opens,not_not,
      device.transport,configured]
    rfl
  unfold uploadCredentials
  simp only [done_bind,done_meet,done_relabel,done_ignoring]
  constructor
  · rintro ⟨t,_,_,⟨stages,same⟩,_,sent,uploaded,running,_⟩
    subst same
    exact ⟨stages,(upload_header_done configured).mp ⟨sent,uploaded⟩,(manifest uploaded).mp running⟩
  · rintro ⟨stages,succeeds,ends⟩
    obtain ⟨sent,uploaded⟩ := (upload_header_done configured).mpr succeeds
    exact ⟨_,(),w,⟨stages,rfl⟩,(),sent,uploaded,(manifest uploaded).mpr ends,rfl⟩

theorem install_done {env : CeremonyEnv} {keys : VaultKeys} {header : VaultHeader} {vaultId : Uuid}
    {database : Database} (there : (w.vaults dir).database = some database)
    (opens : database.key = keys.sqlcipherKey) :
    (∃ returned t, installCredentials suite env keys header dir vaultId w = (.done returned,t)) ↔
      Installs env keys w := by
  unfold installCredentials
  rw [bind_inspect]
  simp only [done_bind,swap_done,done_pure]
  constructor
  · rintro ⟨_,_,_,_,⟨session,active,initialised,swaps,opens',same⟩,_,_,uploads,_⟩
    subst same
    refine ⟨initialised,swaps,⟨session,active,opens'⟩,fun configured => ?_⟩
    have uploads := (done_whenever.mp uploads).1 configured
    obtain ⟨location,configured⟩ := Option.isSome_iff_exists.mp configured
    let swapped : World := {w with session := some ⟨suite.uuidText vaultId,session.vaultDb,keys⟩}
    have configured' : swapped.transport = some location := configured
    exact (upload_credentials_done configured' there opens).mp ⟨_,uploads⟩
  · rintro ⟨initialised,swaps,⟨session,active,opens'⟩,uploads⟩
    let swapped : World := {w with session := some ⟨suite.uuidText vaultId,session.vaultDb,keys⟩}
    have upload : ∃ t, whenever w.transport.isSome (uploadCredentials env keys header dir vaultId) swapped =
        (.done (),t) := by
      cases configured : w.transport with
      | none => exact ⟨swapped,rfl⟩
      | some location =>
        have configured' : swapped.transport = some location := configured
        exact (upload_credentials_done configured' there opens).mpr (uploads (by rw [configured]; rfl))
    obtain ⟨sent,uploaded⟩ := upload
    refine ⟨header,_,(),_,⟨session,active,initialised,swaps,opens',rfl⟩,(),sent,uploaded,(),
      if env.removesPending then {sent with pending := none} else sent,?_,rfl,rfl⟩
    cases env.removesPending <;> rfl

theorem install_opens {env : CeremonyEnv} {keys : VaultKeys} {header returned : VaultHeader} {vaultId : Uuid}
    (done : installCredentials suite env keys header dir vaultId w = (.done returned,after)) :
    ∃ session, w.session = some session ∧
      ∀ database ∈ (w.vaults session.vaultDb).database,database.key = keys.sqlcipherKey := by
  unfold installCredentials at done
  rw [bind_inspect] at done
  simp only [done_bind,swap_done] at done
  obtain ⟨_,_,⟨session,active,_,_,opens,_⟩,_⟩ := done
  exact ⟨session,active,opens⟩

end Outcomes

end ArxRuna.Credentials.Ceremonies
