import ArxRuna.Credentials.Ceremonies
namespace ArxRuna.Credentials.Recovery
open Library.Aead Library.Base64 Library.Fallible Library.Interrupt Library.JsonText Crypto
open Keys Header Rekey Device Ceremonies

structure RecoverWithPhraseRequest where
  phrase : Bytes
  vaultDb : String
  newPassword : Bytes
  newKeyFile : Option String
  argon2Params : Argon2Params
  argon2MigrationIntent : Argon2MigrationIntent
  header : Option VaultHeader

structure RecoverEnv extends CeremonyEnv where
  downloadsHeader : Fate AuthenticationError
  preparesStorage : Fate AuthenticationError
  download : ManifestDownload
  removesDatabase : Bool

variable (suite : Suite) (env : RecoverEnv)

-- Tries every slot of the method, where the other ceremonies read the first one.
def findRecoverySlot (phrase : Bytes) (vaultId : Uuid) :
    List RecoverySlot → Except AuthenticationError (Option (MasterKey × RecoveryKey))
  | [] => .ok none
  | slot :: rest =>
    if slot.method = "bip39" then do
      let (wrapped,recoveryKey) ← openSlot suite phrase slot
      match unwrapMasterKeyFromRecovery suite wrapped recoveryKey vaultId with
      | .ok masterKey => .ok (some (masterKey,recoveryKey))
      | .error _ => findRecoverySlot phrase vaultId rest
    else findRecoverySlot phrase vaultId rest

def recoverMasterKey (header : VaultHeader) (phrase : Bytes) (vaultId : Uuid) :
    Except AuthenticationError (MasterKey × RecoveryKey) := do
  ensure (header.recoverySlots ≠ []) .noRecoverySlot
  let found ← findRecoverySlot suite phrase vaultId header.recoverySlots
  ensure (header.recoverySlots.any (·.method = "bip39")) .noRecoverySlot
  match found with
  | none => .error .invalidCredentials
  | some keys => .ok keys

def recoveryHeader (request : RecoverWithPhraseRequest) : Command World AuthenticationError VaultHeader :=
  match request.header with
  | some header => pure header
  | none => do
    require ((← inspect).vaults request.vaultDb).database.isNone .vaultHeaderInvalid
    downloadVaultHeader env.downloadsHeader

-- A key file that cannot be created takes the database with it, also one that was
-- there before.
def createKeyFile (request : RecoverWithPhraseRequest) (target : String) :
    Command World AuthenticationError (Option KeyFile) := do
  match ← settle (writeOwnerOnlyNew env.writesKeyFile target env.keyFile.1) with
  | .ok _ => pure (some env.keyFile)
  | .error e =>
    whenever env.removesDatabase (change (·.setDatabase request.vaultDb none))
    fail e

def newKeyFile (request : RecoverWithPhraseRequest) (tier : UInt8) :
    Command World AuthenticationError (Option KeyFile) :=
  if tier = 1 then pure none
  else if tier = 2 then
    match request.newKeyFile with
    | none => fail .vaultHeaderInvalid
    | some target => createKeyFile env request target
  else fail .vaultHeaderInvalid

def asVaultId (header : VaultHeader) : Except AuthenticationError Uuid :=
  match suite.parseUuid header.vaultId with
  | none => .error .vaultHeaderInvalid
  | some vaultId => .ok vaultId

def asWords (phrase : Bytes) : Except AuthenticationError (List String) :=
  match suite.mnemonic phrase with
  | none => .error .invalidRecoveryPhrase
  | some words => .ok words

-- An existing database is rekeyed in place; only a missing one is downloaded.
def fetchDatabase (dbExists : Bool) (vaultDb : String) (keys : VaultKeys) (vaultId : Uuid) :
    Command World AuthenticationError Unit :=
  whenever (!dbExists) <| relabel mapManifestBackupSyncError
    (downloadManifestBackup env.download vaultDb keys.manifestKey vaultId keys.sqlcipherKey)

-- What a phrase leads to, before anything is changed.
structure Located where
  dbExists : Bool
  header : VaultHeader
  vaultId : Uuid
  masterKey : MasterKey
  recoveryKey : RecoveryKey

def locateRecovery (request : RecoverWithPhraseRequest) : Command World AuthenticationError Located := do
  require (← inspect).session.isNone .sessionAlreadyActive
  let words ← demand (asWords suite request.phrase)
  let dbExists := ((← inspect).vaults request.vaultDb).database.isSome
  meet env.stages
  let header ← recoveryHeader env request
  let vaultId ← demand (asVaultId suite header)
  let found ← demand (recoverMasterKey suite header (canonicalizePhrase words) vaultId)
  meet env.locksCurrent
  meet env.preparesStorage
  return ⟨dbExists,header,vaultId,found.1,found.2⟩

structure Recovered where
  prepared : Prepared
  vaultId : Uuid

def completeRecovery (request : RecoverWithPhraseRequest) (located : Located) (keyFile : Option KeyFile) :
    Command World AuthenticationError Recovered := do
  let header := located.header
  let parameters := resolveExistingVaultArgon2 (argon2ParametersFromJson header.argon2Params) request.argon2Params
    request.argon2MigrationIntent
  let newMasterKey ← demand (deriveMasterKey suite request.newPassword keyFile env.salt parameters)
  meet env.locksNew
  let keyFileBlake3 := (keyFile.map fun bytes => suite.hex (suite.blake3 bytes.1)).or header.keyFileBlake3
  return ⟨⟨deriveVaultKeys suite located.masterKey,newMasterKey,deriveVaultKeys suite newMasterKey,parameters,
    .keepAndRewrap located.recoveryKey,{header with keyFileBlake3 := keyFileBlake3}⟩,located.vaultId⟩

def prepareRecovery (request : RecoverWithPhraseRequest) (located : Located) :
    Command World AuthenticationError Recovered := do
  fetchDatabase env located.dbExists request.vaultDb (deriveVaultKeys suite located.masterKey) located.vaultId
  let keyFile ← newKeyFile env request located.header.tier
  completeRecovery suite env request located keyFile

-- Here both uploads are best effort, and each is tried whatever became of the other.
def finishRecovery (keys : VaultKeys) (header : VaultHeader) (vaultDb : String) (vaultId : Uuid) :
    Command World AuthenticationError (Uuid × VaultHeader) := do
  ignoring (uploadVaultHeader env.header .config header)
  ignoring (uploadManifestBackup env.manifest vaultDb keys.sqlcipherKey keys.manifestKey vaultId)
  finalizeSessionInstall env.installs keys (suite.uuidText vaultId) vaultDb
  return (vaultId,header)

def recoverWithPhrase (request : RecoverWithPhraseRequest) :
    Command World AuthenticationError (Uuid × VaultHeader) := do
  let located ← locateRecovery suite env request
  let recovered ← prepareRecovery suite env request located
  let prepared := recovered.prepared
  demand (← rekeyTask suite env.toCeremonyEnv request.vaultDb prepared.currentKeys prepared.newKeys recovered.vaultId)
  finishRecovery suite env prepared.newKeys (updateHeader suite env.toCeremonyEnv prepared.header prepared.parameters
    prepared.newMasterKey prepared.slots recovered.vaultId) request.vaultDb recovered.vaultId

section Frames
variable {suite : Suite} {env : RecoverEnv} {request : RecoverWithPhraseRequest} {R : World → World → Prop}
  (refl : ∀ w, R w w) (trans : ∀ a b c, R a b → R b c → R a c)
include refl trans

theorem keeps_recovery_header : Keeps R (recoveryHeader env request) := by
  unfold recoveryHeader
  split
  · exact keeps_pure refl _
  · refine keeps_bind trans (keeps_inspect refl) fun w => ?_
    exact keeps_bind trans (keeps_require refl _ _) fun _ => keeps_download_header refl trans

theorem keeps_locate_recovery : Keeps R (locateRecovery suite env request) := by
  refine keeps_bind trans (keeps_inspect refl) fun w => ?_
  refine keeps_bind trans (keeps_require refl _ _) fun _ => ?_
  refine keeps_bind trans (keeps_demand refl _) fun _ => ?_
  refine keeps_bind trans (keeps_inspect refl) fun w => ?_
  refine keeps_bind trans (keeps_meet refl _) fun _ => ?_
  refine keeps_bind trans (keeps_recovery_header refl trans) fun _ => ?_
  refine keeps_bind trans (keeps_demand refl _) fun _ => ?_
  refine keeps_bind trans (keeps_demand refl _) fun _ => ?_
  refine keeps_bind trans (keeps_meet refl _) fun _ => ?_
  exact keeps_bind trans (keeps_meet refl _) fun _ => keeps_pure refl _

theorem keeps_complete {located : Located} {keyFile : Option KeyFile} :
    Keeps R (completeRecovery suite env request located keyFile) := by
  refine keeps_bind trans (keeps_demand refl _) fun _ => ?_
  exact keeps_bind trans (keeps_meet refl _) fun _ => keeps_pure refl _

theorem keeps_finish_recovery {keys : VaultKeys} {header : VaultHeader} {vaultDb : String} {vaultId : Uuid}
    (session : ∀ w session, R w {w with session := session})
    (cloud : ∀ w location objects, R w (World.setCloud w location objects))
    (staged : ∀ w, R w (World.stageHeader w .config
      (env.header.write.result (VaultHeader.forCloud header).toJson w.pending)))
    (unstaged : ∀ w, R w (World.stageHeader w .config none)) :
    Keeps R (finishRecovery suite env keys header vaultDb vaultId) := by
  refine keeps_bind trans (keeps_ignoring (keeps_upload_header refl trans cloud staged unstaged)) fun _ => ?_
  refine keeps_bind trans (keeps_ignoring (keeps_upload_manifest refl trans cloud)) fun _ => ?_
  exact keeps_bind trans (keeps_finalize refl trans session) fun _ => keeps_pure refl _

end Frames

section Outcomes
variable {suite : Suite} {w : World} {dir : String}

theorem prepare_existing {env : RecoverEnv} {request : RecoverWithPhraseRequest} {located : Located}
    (dbExists : located.dbExists = true) : prepareRecovery suite env request located =
      newKeyFile env request located.header.tier >>= completeRecovery suite env request located := by
  unfold prepareRecovery fetchDatabase
  rw [dbExists]
  rfl

-- The uploads may fail here, but not the session.
structure Finishes (env : RecoverEnv) (keys : VaultKeys) (w : World) : Prop where
  header : env.header.ends w.transport.isSome
  manifest : env.manifest.ends w.transport.isSome
  free : w.session = none
  initialised : keys.initialised
  installs : env.installs = .goes

theorem finish_done {env : RecoverEnv} {keys : VaultKeys} {header : VaultHeader} {vaultId : Uuid}
    {database : Database} (there : (w.vaults dir).database = some database)
    (opens : database.key = keys.sqlcipherKey) :
    (∃ returned t, finishRecovery suite env keys header dir vaultId w = (.done returned,t)) ↔
      Finishes env keys w := by
  have device := upload_header_device env.header .config header w
  have there' : ((uploadVaultHeader env.header .config header w).2.vaults dir).database = some database :=
    (congrArg (fun v => (v dir).database) device.vaults).trans there
  have stops : (uploadManifestBackup env.manifest dir keys.sqlcipherKey keys.manifestKey vaultId _).1 = .stopped ↔ _ :=
    manifest_stops there' opens
  rw [device.transport] at stops
  have device' := device_trans _ _ _ device
    (upload_manifest_device env.manifest dir keys.sqlcipherKey keys.manifestKey vaultId _)
  unfold finishRecovery
  simp only [done_bind,done_ignoring,finalize_done,done_pure]
  constructor
  · rintro ⟨_,_,_,_,⟨ended,same⟩,_,_,⟨ended',same'⟩,_,_,⟨free,initialised,installs,_⟩,_⟩
    subst same same'
    rw [device'.session] at free
    refine ⟨?_,?_,free,initialised,installs⟩
    · by_contra cut
      exact ended (upload_header_stops.mpr cut)
    · by_contra cut
      exact ended' (stops.mpr cut)
  · rintro ⟨header,manifest,free,initialised,installs⟩
    refine ⟨_,_,(),_,⟨fun cut => upload_header_stops.mp cut header,rfl⟩,(),_,⟨fun cut => stops.mp cut manifest,rfl⟩,
      (),_,⟨device'.session.trans free,initialised,installs,?_,rfl⟩,rfl,rfl⟩
    rw [device'.vaults]
    intro other member
    cases member.symm.trans there
    exact opens

theorem finish_opens {env : RecoverEnv} {keys : VaultKeys} {header : VaultHeader} {vaultId : Uuid}
    {returned : Uuid × VaultHeader} (done : finishRecovery suite env keys header dir vaultId w = (.done returned,after)) :
    ∀ database ∈ (w.vaults dir).database,database.key = keys.sqlcipherKey := by
  have device := upload_header_device env.header .config header w
  have device' := device_trans _ _ _ device
    (upload_manifest_device env.manifest dir keys.sqlcipherKey keys.manifestKey vaultId _)
  unfold finishRecovery at done
  simp only [done_bind,done_ignoring,finalize_done,done_pure] at done
  obtain ⟨_,_,⟨_,rfl⟩,_,_,⟨_,rfl⟩,_,_,⟨_,_,_,opens,_⟩,_⟩ := done
  rw [device'.vaults] at opens
  exact opens

end Outcomes

end ArxRuna.Credentials.Recovery
