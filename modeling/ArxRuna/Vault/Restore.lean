import ArxRuna.Credentials.Commands
import ArxRuna.Library.Paths
import ArxRuna.Sharing.Endpoint
namespace ArxRuna.Vault.Restore
open Library.Interrupt Library.JsonText Library.Paths Library.Texts Crypto
open Credentials.Keys Credentials.Header Credentials.Commands
open Sharing.RemotePath (Text hexText hexText_length hyphenated)
open Sharing.Endpoint (versionNumber)

inductive RestoreError where
  | ipc (error : IpcError)
  | alreadyExists (text : String)
  | cloudError (text : String)
  deriving DecidableEq, Repr

inductive Touch where
  | createDirAll (path : Path)
  | write (path : Path)
  | removeFile (path : Path)
  | removeDirAll (path : Path)
  deriving DecidableEq, Repr

def Touch.path : Touch → Path
  | .createDirAll path | .write path | .removeFile path | .removeDirAll path => path

-- What a command touches: paths made from `default_vault_root`, and its own scratch
-- files, whose places no header takes part in.
structure Trace where
  vault : List Touch
  scratch : List Touch

-- The steps that may fail or be the last one of the process.
inductive Step where
  | prepares
  | downloadsHeader
  | clears
  | creates
  | serialises
  | writesHeader
  | reserves
  | prechecks
  | stages
  | downloadsAgain
  | unlocks
  | preparesStaging
  | downloadsManifest
  | decrypts
  | createsParent
  | persists
  | verifies
  | writesKeyFile
  | rekeys
  | installs
  | readsFile
  | readsKeys
  | opens
  | pulls
  | replaces

-- `present` is the disk a command finds, `temporary` the name drawn for the file a
-- database is put in place with.
structure RestoreEnv where
  root : Path
  temp : Path
  config : Path
  storage : Path
  rcloneDir : Path
  parseStr : Text → Option Uuid
  present : Path → Bool
  temporary : Name
  fates : Step → Fate RestoreError
  active : Bool
  storeOpen : Bool
  dbExists : Bool
  flatBlobs : List Name
  orphans : List (Text × Name)
  blobNames : List Text
  stale : Text → Bool

def vaultDb : Text := ['v','a','u','l','t','.','d','b']

def vaultHeader : Text := ['v','a','u','l','t','-','h','e','a','d','e','r','.','j','s','o','n']

def staging : Text := ['s','t','a','g','i','n','g']

def pending : Text := ['p','e','n','d','i','n','g']

def cache : Text := ['c','a','c','h','e']

def mirrorTemp : Text := ['m','i','r','r','o','r','-','t','e','m','p']

def manifestDownload : Text := "manifest-backup-download.blob".toList

def probeFile : Text := "arx-runa-recover-header-probe.json".toList

def recoverHeader : Text := "recover-vault-header.json".toList

def uploadFiles : List Text :=
  ["pending-vault-header.json".toList,"manifest-export.db".toList,"manifest-backup-staging.blob".toList]

def blobSuffix : Text := ['.','b','l','o','b']

def touchVault (touches : List Touch) : Command Trace RestoreError Unit :=
  change fun s => {s with vault := s.vault ++ touches}

def touchScratch (touches : List Touch) : Command Trace RestoreError Unit :=
  change fun s => {s with scratch := s.scratch ++ touches}

def Trace.undo (touches : List Touch) (s : Trace) : Trace := {s with vault := s.vault ++ touches}

def ceremonyError (e : AuthenticationError) : RestoreError := .ipc (.fromAuthentication e)

variable (env : RestoreEnv)

def vaultDbPath (id : Text) : Path := (env.root.join id).join vaultDb

def vaultStagingDir (id : Text) : Path := (env.root.join id).join staging

def parseVaultId (id : Text) (e : RestoreError) : Command Trace RestoreError Uuid :=
  match env.parseStr id with
  | none => fail e
  | some uuid => pure uuid

def ensureStagingDirectory (touch : List Touch → Command Trace RestoreError Unit) (staging : Path) :
    Command Trace RestoreError Unit := do
  touch [.createDirAll staging,.createDirAll (staging.join pending),.createDirAll (staging.join cache)]
  meet (env.fates .preparesStaging)

-- The manifest lands under a temporary name beside the database and is renamed.
def downloadManifestBackup (touch : List Touch → Command Trace RestoreError Unit) (staging db : Path) :
    Command Trace RestoreError Unit := do
  ensureStagingDirectory env touch staging
  meet (env.fates .prechecks)
  touch [.removeFile (staging.join manifestDownload),.write (staging.join manifestDownload)]
  meet (env.fates .downloadsManifest)
  touch [.removeFile (staging.join manifestDownload)]
  meet (env.fates .decrypts)
  touchVault [.createDirAll db.parent]
  meet (env.fates .createsParent)
  touchVault [.write (db.parent.join env.temporary.text),.write db]
  meet (env.fates .persists)
  undoing (Trace.undo [.removeFile db]) (meet (env.fates .verifies))

def probeAndReadVaultHeader (file : JsonFile) : Command Trace RestoreError VaultHeader := do
  touchScratch [.write (env.temp.join probeFile)]
  meet (env.fates .downloadsHeader)
  touchScratch [.removeFile (env.temp.join probeFile)]
  match readHeader file with
  | none => fail (.cloudError "Vault header at the cloud destination is malformed")
  | some header => pure header

-- The vault directory as the two cloud recoveries make it.
def claimDirectory (dir : Path) (id : String) : Command Trace RestoreError Unit := do
  require (¬ (env.present (dir.join vaultDb) = true ∧ env.present (dir.join vaultHeader) = true))
    (.alreadyExists ("Vault '" ++ id ++ "' already exists on this device"))
  whenever (env.present dir) do
    touchVault [.removeDirAll dir]
    meet (env.fates .clears)
  touchVault [.createDirAll dir]
  meet (env.fates .creates)

-- `recover_vault` downloads and checks a header of its own.
def recoverVault (db : Path) (second : JsonFile) : Command Trace RestoreError Uuid := do
  meet (env.fates .reserves)
  meet (env.fates .prechecks)
  touchScratch [.createDirAll env.config]
  meet (env.fates .stages)
  touchScratch [.removeFile (env.config.join recoverHeader),.write (env.config.join recoverHeader)]
  meet (env.fates .downloadsAgain)
  touchScratch [.removeFile (env.config.join recoverHeader)]
  match readHeader second with
  | none => fail (ceremonyError .vaultHeaderInvalid)
  | some header =>
    match header.validateBootstrap with
    | .error _ => fail (ceremonyError .vaultHeaderInvalid)
    | .ok _ => do
      let vaultId ← parseVaultId env header.vaultId.toList (ceremonyError .vaultHeaderInvalid)
      meet (env.fates .unlocks)
      ensureStagingDirectory env touchScratch env.storage
      downloadManifestBackup env touchScratch env.storage db
      meet (env.fates .installs)
      return vaultId

-- A key file is written where the user says; one that cannot be takes the database
-- with it.
def createKeyFile (db : Path) : Option Path → Command Trace RestoreError Unit
  | none => pure ()
  | some target => do
    touchScratch [.write target]
    undoing (Trace.undo [.removeFile db]) (meet (env.fates .writesKeyFile))

def recoverWithPhrase (db : Path) (header : VaultHeader) (newKeyFile : Option Path) :
    Command Trace RestoreError Uuid := do
  meet (env.fates .reserves)
  touchScratch [.createDirAll env.config]
  meet (env.fates .stages)
  let vaultId ← parseVaultId env header.vaultId.toList (ceremonyError .vaultHeaderInvalid)
  meet (env.fates .unlocks)
  ensureStagingDirectory env touchScratch env.storage
  whenever (!env.dbExists) (downloadManifestBackup env touchScratch env.storage db)
  createKeyFile env db newKeyFile
  touchVault [.write db]
  meet (env.fates .rekeys)
  touchScratch (uploadFiles.map fun file => .write (env.config.join file))
  touchVault [.write db]
  meet (env.fates .installs)
  return vaultId

def prepareVaultStorage (staging : Path) : Command Trace RestoreError Unit := do
  ensureStagingDirectory env touchVault staging
  touchVault (env.flatBlobs.map fun name => .write ((staging.join pending).join name.text))
  whenever (env.present (staging.join mirrorTemp)) (touchVault [.removeDirAll (staging.join mirrorTemp)])
  touchVault (env.orphans.filterMap fun orphan =>
    if orphan.1 = pending ∨ orphan.1 = cache then
      some (.removeFile ((staging.join orphan.1).join orphan.2.text))
    else none)

-- Best effort: the session is open whatever becomes of its storage.
def postRecoverySetup (id : Text) : Command Trace RestoreError Unit :=
  whenever env.storeOpen do
    touchScratch [.createDirAll env.rcloneDir]
    ignoring (prepareVaultStorage env (vaultStagingDir env id))

structure RestoreInput where
  header : JsonFile
  second : JsonFile
  newKeyFile : Option Path

def prepareCommand : Command Trace RestoreError Unit := do
  touchScratch [.createDirAll env.rcloneDir,.write (env.rcloneDir.join "rclone.conf".toList)]
  meet (env.fates .prepares)

-- `recover_vault_from_cloud` from the header on.
def restoreWithPassword (second : JsonFile) (header : VaultHeader) : Command Trace RestoreError Unit := do
  let dir := env.root.join header.vaultId.toList
  claimDirectory env dir header.vaultId
  undoing (Trace.undo [.removeDirAll dir]) (meet (env.fates .serialises))
  touchVault [.write (dir.join vaultHeader)]
  undoing (Trace.undo [.removeDirAll dir]) (meet (env.fates .writesHeader))
  let vaultId ← undoing (Trace.undo [.removeDirAll dir]) (recoverVault env (dir.join vaultDb) second)
  postRecoverySetup env (hyphenated vaultId)

-- `recover_vault_from_cloud_with_phrase` from the header on.
def restoreWithPhrase (newKeyFile : Option Path) (header : VaultHeader) : Command Trace RestoreError Unit := do
  let dir := env.root.join header.vaultId.toList
  claimDirectory env dir header.vaultId
  let vaultId ← undoing (Trace.undo [.removeDirAll dir]) (recoverWithPhrase env (dir.join vaultDb) header newKeyFile)
  meet (env.fates .serialises)
  touchVault [.write (dir.join vaultHeader)]
  undoing (Trace.undo [.removeDirAll dir]) (meet (env.fates .writesHeader))
  postRecoverySetup env (hyphenated vaultId)

def cacheBlobPath (staging : Path) (blobName : Text) : Path := (staging.join cache).join (blobName ++ blobSuffix)

def validateBlobName (blobName : Text) : Bool := (env.parseStr blobName).any fun uuid => versionNumber uuid = 4

-- A cached blob that does not check out is removed before it is fetched again.
def checkBlobs (staging : Path) : List Text → Command Trace RestoreError Unit
  | [] => pure ()
  | blobName :: rest => do
    require (validateBlobName env blobName = true) (.cloudError "Cloud operation failed")
    whenever (env.stale blobName) (touchVault [.removeFile (cacheBlobPath staging blobName)])
    checkBlobs staging rest

def pullVault (staging : Path) : Command Trace RestoreError Unit := do
  checkBlobs env staging env.blobNames
  touchVault ((env.blobNames.filter (validateBlobName env)).map fun blobName =>
    .write (cacheBlobPath staging blobName))
  meet (env.fates .pulls)

-- `recover_from_cloud` from the header on: the id is parsed only after its
-- directory has been created.
def restoreFromFile (header : VaultHeader) : Command Trace RestoreError Unit := do
  let id := header.vaultId.toList
  let db := vaultDbPath env id
  let stagingDir := vaultStagingDir env id
  touchVault [.createDirAll db.parent]
  meet (env.fates .creates)
  meet (env.fates .readsKeys)
  let _ ← parseVaultId env id (.ipc (.internalError "An error occurred"))
  downloadManifestBackup env touchVault stagingDir db
  touchVault [.write db]
  meet (env.fates .opens)
  pullVault env stagingDir
  meet (env.fates .replaces)

inductive Entry where
  | recoverVaultFromCloud
  | recoverVaultFromCloudWithPhrase
  | recoverFromCloud

-- What comes before the header is used, and what is then done with it.
def Entry.readsHeader (file : JsonFile) : Entry → Command Trace RestoreError VaultHeader
  | .recoverVaultFromCloud | .recoverVaultFromCloudWithPhrase => do
    prepareCommand env
    probeAndReadVaultHeader env file
  | .recoverFromCloud => do
    require (env.active = true) (.ipc (.vaultLocked "Vault is locked"))
    meet (env.fates .readsFile)
    match readHeader file with
    | none => fail (.ipc (.internalError "An error occurred"))
    | some header => pure header

def Entry.restores (input : RestoreInput) : Entry → VaultHeader → Command Trace RestoreError Unit
  | .recoverVaultFromCloud => restoreWithPassword env input.second
  | .recoverVaultFromCloudWithPhrase => restoreWithPhrase env input.newKeyFile
  | .recoverFromCloud => restoreFromFile env

def Entry.run (input : RestoreInput) (entry : Entry) : Command Trace RestoreError Unit := do
  let header ← entry.readsHeader env input.header
  entry.restores env input header

def Grows (P : Path → Prop) (s t : Trace) : Prop :=
  ∃ more, t.vault = s.vault ++ more ∧ ∀ touch ∈ more, P touch.path

section Frames
variable {env : RestoreEnv} {P : Path → Prop} {dir db stagingDir : Path} {touches : List Touch}

theorem grows_refl (s : Trace) : Grows P s s := ⟨[],(List.append_nil _).symm,by rintro touch ⟨⟩⟩

theorem grows_trans (a b c : Trace) (first : Grows P a b) (second : Grows P b c) : Grows P a c := by
  obtain ⟨more,grown,kind⟩ := first
  obtain ⟨later,further,rest⟩ := second
  refine ⟨more ++ later,?_,fun touch member => ?_⟩
  · rw [further,grown,List.append_assoc]
  · rcases List.mem_append.mp member with early | late
    · exact kind touch early
    · exact rest touch late

theorem keeps_vault (kind : ∀ touch ∈ touches, P touch.path) : Keeps (Grows P) (touchVault touches) :=
  keeps_change fun _ => ⟨touches,rfl,kind⟩

theorem keeps_scratch (touches : List Touch) : Keeps (Grows P) (touchScratch touches) :=
  keeps_change fun s => grows_refl s

theorem keeps_undoing {c : Command Trace RestoreError α} (kind : ∀ touch ∈ touches, P touch.path)
    (inner : Keeps (Grows P) c) : Keeps (Grows P) (undoing (Trace.undo touches) c) := by
  intro s
  have grown := inner s
  unfold undoing
  rcases here : c s with ⟨_ | _ | _,t⟩ <;> rw [here] at grown
  · exact grown
  · exact grows_trans _ _ _ grown ⟨touches,rfl,kind⟩
  · exact grown

theorem meets (step : Step) : Keeps (Grows P) (meet (env.fates step)) := keeps_meet grows_refl _

theorem keeps_then {c : Command Trace RestoreError α} {k : α → Command Trace RestoreError β}
    (first : Keeps (Grows P) c) (later : ∀ a, Keeps (Grows P) (k a)) : Keeps (Grows P) (c >>= k) :=
  keeps_bind grows_trans first later

theorem keeps_vault_id {id : Text} {e : RestoreError} : Keeps (Grows P) (parseVaultId env id e) := by
  unfold parseVaultId
  split
  · exact keeps_fail grows_refl _
  · exact keeps_pure grows_refl _

theorem keeps_ensure {touch : List Touch → Command Trace RestoreError Unit}
    (touching : ∀ touches, (∀ touch ∈ touches, Within stagingDir touch.path) → Keeps (Grows P) (touch touches)) :
    Keeps (Grows P) (ensureStagingDirectory env touch stagingDir) := by
  refine keeps_then (touching _ fun touch member => ?_) fun _ => meets _
  have root := within_refl stagingDir
  simp only [List.mem_cons,List.not_mem_nil,or_false] at member
  rcases member with rfl | rfl | rfl
  · exact root
  · exact within_join root (by decide)
  · exact within_join root (by decide)

theorem one {touch : Touch} (kind : P touch.path) : ∀ other ∈ [touch], P other.path := by
  intro other member
  rw [List.mem_singleton.mp member]
  exact kind

theorem two {first second : Touch} (kind : P first.path) (other : P second.path) :
    ∀ touch ∈ [first,second], P touch.path := by
  intro touch member
  rcases List.mem_cons.mp member with rfl | member
  · exact kind
  · exact one other touch member

theorem vault_db_within (dir : Path) : Within dir (dir.join vaultDb) := within_join (within_refl dir) (by decide)

theorem keeps_download (holds : ∀ path, Within dir path → P path)
    {touch : List Touch → Command Trace RestoreError Unit}
    (touching : ∀ touches, (∀ touch ∈ touches, Within stagingDir touch.path) → Keeps (Grows P) (touch touches)) :
    Keeps (Grows P) (downloadManifestBackup env touch stagingDir (dir.join vaultDb)) := by
  have file : Within stagingDir (stagingDir.join manifestDownload) :=
    within_join (within_refl _) (by decide)
  have parent : (dir.join vaultDb).parent = dir := join_parent dir (by decide)
  have db : P (dir.join vaultDb) := holds _ (vault_db_within dir)
  have temporary : P (dir.join env.temporary.text) := holds _ (within_join (within_refl _) env.temporary.plain)
  unfold downloadManifestBackup
  rw [parent]
  refine keeps_then (keeps_ensure touching) fun _ => keeps_then (meets _) fun _ => ?_
  refine keeps_then (touching _ (two file file)) fun _ => keeps_then (meets _) fun _ => ?_
  refine keeps_then (touching _ (one file)) fun _ => keeps_then (meets _) fun _ => ?_
  refine keeps_then (keeps_vault (one (holds _ (within_refl _)))) fun _ => keeps_then (meets _) fun _ => ?_
  refine keeps_then (keeps_vault (two temporary db)) fun _ => keeps_then (meets _) fun _ => ?_
  exact keeps_undoing (one db) (meets _)

theorem scratch_touching (stagingDir : Path) (touches : List Touch)
    (_ : ∀ touch ∈ touches, Within stagingDir touch.path) : Keeps (Grows P) (touchScratch touches) :=
  keeps_scratch touches

theorem vault_touching (holds : ∀ path, Within dir path → P path) (below : Within dir stagingDir)
    (touches : List Touch) (kind : ∀ touch ∈ touches, Within stagingDir touch.path) :
    Keeps (Grows P) (touchVault touches) :=
  keeps_vault fun touch member => holds _ (within_trans below (kind touch member))

theorem keeps_recover_vault (holds : ∀ path, Within dir path → P path) {second : JsonFile} :
    Keeps (Grows P) (recoverVault env (dir.join vaultDb) second) := by
  unfold recoverVault
  refine keeps_then (meets _) fun _ => keeps_then (meets _) fun _ => ?_
  refine keeps_then (keeps_scratch _) fun _ => keeps_then (meets _) fun _ => ?_
  refine keeps_then (keeps_scratch _) fun _ => keeps_then (meets _) fun _ => keeps_then (keeps_scratch _) fun _ => ?_
  split
  · exact keeps_fail grows_refl _
  · split
    · exact keeps_fail grows_refl _
    · refine keeps_then keeps_vault_id fun _ => keeps_then (meets _) fun _ => ?_
      refine keeps_then (keeps_ensure (scratch_touching _)) fun _ => ?_
      refine keeps_then (keeps_download holds (scratch_touching _)) fun _ => ?_
      exact keeps_then (meets _) fun _ => keeps_pure grows_refl _

theorem keeps_key_file (kind : P db) {target : Option Path} : Keeps (Grows P) (createKeyFile env db target) := by
  cases target with
  | none => exact keeps_pure grows_refl _
  | some target => exact keeps_then (keeps_scratch _) fun _ => keeps_undoing (one kind) (meets _)

theorem keeps_recover_with_phrase (holds : ∀ path, Within dir path → P path) {header : VaultHeader}
    {newKeyFile : Option Path} :
    Keeps (Grows P) (recoverWithPhrase env (dir.join vaultDb) header newKeyFile) := by
  have db : P (dir.join vaultDb) := holds _ (vault_db_within dir)
  unfold recoverWithPhrase
  refine keeps_then (meets _) fun _ => keeps_then (keeps_scratch _) fun _ => keeps_then (meets _) fun _ => ?_
  refine keeps_then keeps_vault_id fun vaultId => keeps_then (meets _) fun _ => ?_
  refine keeps_then (keeps_ensure (scratch_touching _)) fun _ => ?_
  refine keeps_then (keeps_whenever grows_refl (keeps_download holds (scratch_touching _))) fun _ => ?_
  refine keeps_then (keeps_key_file db) fun _ => ?_
  refine keeps_then (keeps_vault (one db)) fun _ => keeps_then (meets _) fun _ => ?_
  refine keeps_then (keeps_scratch _) fun _ => keeps_then (keeps_vault (one db)) fun _ => ?_
  exact keeps_then (meets _) fun _ => keeps_pure grows_refl _

theorem keeps_prepare (holds : ∀ path, Within dir path → P path) :
    Keeps (Grows P) (prepareVaultStorage env (dir.join staging)) := by
  have below : Within dir (dir.join staging) := within_join (within_refl dir) (by decide)
  have pendingDir : Within dir ((dir.join staging).join pending) := within_join below (by decide)
  have cacheDir : Within dir ((dir.join staging).join cache) := within_join below (by decide)
  have mirror : Within dir ((dir.join staging).join mirrorTemp) := within_join below (by decide)
  unfold prepareVaultStorage
  refine keeps_then (keeps_ensure (vault_touching holds below)) fun _ => ?_
  refine keeps_then (keeps_vault fun touch member => ?_) fun _ => ?_
  · obtain ⟨name,_,rfl⟩ := List.mem_map.mp member
    exact holds _ (within_join pendingDir name.plain)
  · refine keeps_then (keeps_whenever grows_refl (keeps_vault (one (holds _ mirror)))) fun _ => ?_
    refine keeps_vault fun touch member => ?_
    obtain ⟨⟨folder,name⟩,_,made⟩ := List.mem_filterMap.mp member
    dsimp only at made
    split at made
    · rename_i known
      cases made
      rcases known with rfl | rfl
      · exact holds _ (within_join pendingDir name.plain)
      · exact holds _ (within_join cacheDir name.plain)
    · cases made

theorem keeps_post_recovery {id : Text} (holds : ∀ path, Within (env.root.join id) path → P path) :
    Keeps (Grows P) (postRecoverySetup env id) := by
  refine keeps_whenever grows_refl ?_
  exact keeps_then (keeps_scratch _) fun _ => keeps_ignoring (keeps_prepare holds)

theorem keeps_claim {id : String} (kind : P dir) : Keeps (Grows P) (claimDirectory env dir id) := by
  unfold claimDirectory
  refine keeps_then (keeps_require grows_refl _ _) fun _ => ?_
  refine keeps_then (keeps_whenever grows_refl (keeps_then (keeps_vault (one kind)) fun _ => meets _)) fun _ => ?_
  exact keeps_then (keeps_vault (one kind)) fun _ => meets _

theorem valid_parsed {text : Text} (valid : validateBlobName env text = true) : (env.parseStr text).isSome = true := by
  unfold validateBlobName at valid
  cases parsed : env.parseStr text with
  | none =>
    rw [parsed] at valid
    cases valid
  | some id => rfl

end Frames

-- What the documentation of `Uuid::parse_str` says: hexadecimal digits, hyphens and
-- the braces or the prefix of two more forms; the text of an identifier is one.
structure Documented (parseStr : Text → Option Uuid) : Prop where
  digits : ∀ text id, parseStr text = some id → ∀ c ∈ text, c.isAlphanum = true ∨ c ∈ ['-','{','}',':']
  filled : parseStr [] = none
  printed : ∀ id, (parseStr (hyphenated id)).isSome = true

section Names
variable {env : RestoreEnv} {text : Text} {uuid : Uuid} {dir stagingDir : Path} {P : Path → Prop}
  (documented : Documented env.parseStr)
include documented

theorem parsed_without {c : Char} (parsed : (env.parseStr text).isSome = true)
    (other : ¬ (c.isAlphanum = true ∨ c ∈ ['-','{','}',':'])) : c ∉ text := by
  obtain ⟨id,parsed⟩ := Option.isSome_iff_exists.mp parsed
  exact fun member => other (documented.digits text id parsed c member)

theorem parsed_filled (parsed : (env.parseStr text).isSome = true) : text ≠ [] := by
  rintro rfl
  rw [documented.filled] at parsed
  cases parsed

theorem parsed_plain (parsed : (env.parseStr text).isSome = true) : Plain text := by
  have dot := parsed_without documented parsed (by decide : ¬ ('.'.isAlphanum = true ∨ '.' ∈ ['-','{','}',':']))
  refine ⟨?_,parsed_filled documented parsed,?_,?_⟩
  · exact parsed_without documented parsed (by decide)
  · rintro rfl
    exact dot List.mem_cons_self
  · rintro rfl
    exact dot List.mem_cons_self

theorem blob_plain (parsed : (env.parseStr text).isSome = true) : Plain (text ++ blobSuffix) := by
  have plain := parsed_plain documented parsed
  have long : 5 ≤ (text ++ blobSuffix).length := by
    rw [List.length_append]
    exact Nat.le_add_left ..
  refine ⟨?_,?_,?_,?_⟩
  · rw [List.mem_append]
    rintro (member | member)
    · exact plain.whole member
    · revert member
      decide
  all_goals
    intro same
    rw [same] at long
    revert long
    decide

theorem keeps_check (holds : ∀ path, Within stagingDir path → P path) (names : List Text) :
    Keeps (Grows P) (checkBlobs env stagingDir names) := by
  induction names with
  | nil => exact keeps_pure grows_refl _
  | cons name rest ih =>
    by_cases valid : validateBlobName env name = true
    · have cached : Within stagingDir (cacheBlobPath stagingDir name) :=
        within_join (within_join (within_refl _) (by decide)) (blob_plain documented (valid_parsed valid))
      refine keeps_then (keeps_require grows_refl _ _) fun _ => ?_
      exact keeps_then (keeps_whenever grows_refl (keeps_vault (one (holds _ cached)))) fun _ => ih
    · intro s
      rw [checkBlobs,bind_refused valid]
      exact grows_refl s

theorem keeps_pull (holds : ∀ path, Within stagingDir path → P path) :
    Keeps (Grows P) (pullVault env stagingDir) := by
  refine keeps_then (keeps_check documented holds _) fun _ => ?_
  refine keeps_then (keeps_vault fun touch member => ?_) fun _ => meets _
  obtain ⟨name,valid,rfl⟩ := List.mem_map.mp member
  have parsed := valid_parsed (List.mem_filter.mp valid).2
  exact holds _ (within_join (within_join (within_refl _) (by decide)) (blob_plain documented parsed))

-- Whatever the header says, a command touches the vaults below the name it gives or
-- below a parsed identifier.
theorem restores_steered (input : RestoreInput) (entry : Entry) (header : VaultHeader)
    (named : ∀ path, Within (env.root.join header.vaultId.toList) path → P path)
    (parsed : ∀ id path, Within (env.root.join (hyphenated id)) path → P path) :
    Keeps (Grows P) (entry.restores env input header) := by
  have dir := named _ (within_refl _)
  have file : P ((env.root.join header.vaultId.toList).join vaultHeader) :=
    named _ (within_join (within_refl _) (by decide))
  cases entry with
  | recoverVaultFromCloud =>
    refine keeps_then (keeps_claim dir) fun _ => keeps_then (keeps_undoing (one dir) (meets _)) fun _ => ?_
    refine keeps_then (keeps_vault (one file)) fun _ => keeps_then (keeps_undoing (one dir) (meets _)) fun _ => ?_
    refine keeps_then (keeps_undoing (one dir) (keeps_recover_vault named)) fun id => ?_
    exact keeps_post_recovery (parsed id)
  | recoverVaultFromCloudWithPhrase =>
    refine keeps_then (keeps_claim dir) fun _ => ?_
    refine keeps_then (keeps_undoing (one dir) (keeps_recover_with_phrase named)) fun id => ?_
    refine keeps_then (meets _) fun _ => keeps_then (keeps_vault (one file)) fun _ => ?_
    exact keeps_then (keeps_undoing (one dir) (meets _)) fun _ => keeps_post_recovery (parsed id)
  | recoverFromCloud =>
    have parent : (vaultDbPath env header.vaultId.toList).parent = env.root.join header.vaultId.toList :=
      join_parent _ (by decide)
    have stagingDir : Within (env.root.join header.vaultId.toList) (vaultStagingDir env header.vaultId.toList) :=
      within_join (within_refl _) (by decide)
    change Keeps _ (restoreFromFile env header)
    unfold restoreFromFile
    refine keeps_then (keeps_vault (one (parent.symm ▸ dir))) fun _ => keeps_then (meets _) fun _ => keeps_then (meets _) fun _ => ?_
    refine keeps_then keeps_vault_id fun _ => ?_
    refine keeps_then (keeps_download named (vault_touching named stagingDir)) fun _ => ?_
    refine keeps_then (keeps_vault (one (named _ (vault_db_within _)))) fun _ => keeps_then (meets _) fun _ => ?_
    refine keeps_then (keeps_pull documented fun path within => named _ (within_trans stagingDir within)) fun _ => ?_
    exact meets _

end Names

def Opens (path : Path) (c : Command Trace RestoreError α) (s : Trace) : Prop :=
  ∃ touch more, (c s).2.vault = s.vault ++ touch :: more ∧ touch.path = path

section Opening
variable {env : RestoreEnv} {path dir : Path} {touch : Touch} {s : Trace}

theorem opens_touch (at_path : touch.path = path) : Opens path (touchVault [touch]) s := ⟨touch,[],rfl,at_path⟩

theorem opens_then {c : Command Trace RestoreError α} {k : α → Command Trace RestoreError β}
    (first : Opens path c s) (later : ∀ a, Keeps (Grows fun _ => True) (k a)) : Opens path (c >>= k) s := by
  obtain ⟨touch,more,grown,at_path⟩ := first
  rcases here : c s with ⟨a | e | _,t⟩ <;> rw [here] at grown
  · obtain ⟨rest,further,_⟩ := later a t
    refine ⟨touch,more ++ rest,?_,at_path⟩
    rw [bind_done here,further,grown]
    exact List.append_assoc ..
  · exact ⟨touch,more,by rw [bind_failed here]; exact grown,at_path⟩
  · exact ⟨touch,more,by rw [bind_stopped here]; exact grown,at_path⟩

theorem claim_opens {id : String} (vacant : ¬ (env.present (dir.join vaultDb) = true ∧
    env.present (dir.join vaultHeader) = true)) : Opens dir (claimDirectory env dir id) s := by
  have ready : Keeps (Grows fun _ => True) (do
      touchVault [.createDirAll dir]
      meet (env.fates .creates)) :=
    keeps_then (keeps_vault fun _ _ => trivial) fun _ => meets _
  unfold Opens claimDirectory
  rw [bind_required vacant]
  cases stands : env.present dir with
  | true => exact opens_then (opens_then (opens_touch rfl) fun _ => meets _) fun _ => ready
  | false => exact opens_then (c := touchVault [.createDirAll dir]) (opens_touch rfl) fun _ => meets _

end Opening

-- A name that a join does not keep in place: absolute, empty, with separators or
-- with parent components.
def Hostile (id : Text) : Prop := rooted id = true ∨ id = [] ∨ '/' ∈ id ∨ ['.','.'] ∈ components id

def Entry.Passes (env : RestoreEnv) : Entry → Prop
  | .recoverVaultFromCloud | .recoverVaultFromCloudWithPhrase =>
    env.fates .prepares = .goes ∧ env.fates .downloadsHeader = .goes
  | .recoverFromCloud => env.active = true ∧ env.fates .readsFile = .goes

-- The two cloud recoveries turn away where a complete vault stands.
def Entry.Vacant (env : RestoreEnv) (id : Text) : Entry → Prop
  | .recoverVaultFromCloud | .recoverVaultFromCloudWithPhrase =>
    ¬ (env.present ((env.root.join id).join vaultDb) = true ∧ env.present ((env.root.join id).join vaultHeader) = true)
  | .recoverFromCloud => True

-- The command goes on with the header to the directory it names.
structure Entry.Reaches (env : RestoreEnv) (file : JsonFile) (entry : Entry) (header : VaultHeader) : Prop where
  passes : entry.Passes env
  reads : readHeader file = some header
  vacant : entry.Vacant env header.vaultId.toList

-- Everything lies below the root in a directory named by an identifier, and a
-- hostile name is turned away before anything is touched.
structure Confined (env : RestoreEnv) (file : JsonFile) (outcome : Ending RestoreError Unit × Trace) : Prop where
  inside : ∀ touch ∈ outcome.2.vault, Below env.root (fun name => (env.parseStr name).isSome = true) touch.path
  refused : ∀ header, readHeader file = some header → Hostile header.vaultId.toList →
    outcome.2.vault = [] ∧ ∀ value, outcome.1 ≠ .done value

def quiet : Trace := ⟨[],[]⟩

section Runs
variable {env : RestoreEnv} {file : JsonFile} {input : RestoreInput} {entry : Entry} {header : VaultHeader} {t : Trace}

theorem hostile_not_plain {id : Text} (hostile : Hostile id) : ¬ Plain id := by
  intro plain
  rcases hostile with absolute | empty | separated | parents
  · rw [plain_unrooted plain.whole] at absolute
    cases absolute
  · exact plain.filled empty
  · exact plain.whole separated
  · rw [plain_components plain,List.mem_singleton] at parents
    exact plain.up parents.symm

theorem reads_untouched (file : JsonFile) (entry : Entry) :
    Keeps (fun s t : Trace => t.vault = s.vault) (entry.readsHeader env file) := by
  have refl (s : Trace) : s.vault = s.vault := rfl
  have trans (a b c : Trace) (first : b.vault = a.vault) (second : c.vault = b.vault) : c.vault = a.vault :=
    second.trans first
  have cloud : Keeps (fun s t : Trace => t.vault = s.vault) (prepareCommand env >>= fun _ =>
      probeAndReadVaultHeader env file) := by
    refine keeps_bind trans ?_ fun _ => ?_
    · exact keeps_bind trans (keeps_change fun _ => rfl) fun _ => keeps_meet refl _
    · refine keeps_bind trans (keeps_change fun _ => rfl) fun _ => keeps_bind trans (keeps_meet refl _) fun _ => ?_
      refine keeps_bind trans (keeps_change fun _ => rfl) fun _ => ?_
      split
      · exact keeps_fail refl _
      · exact keeps_pure refl _
  cases entry with
  | recoverVaultFromCloud => exact cloud
  | recoverVaultFromCloudWithPhrase => exact cloud
  | recoverFromCloud =>
    refine keeps_bind trans (keeps_require refl _ _) fun _ => keeps_bind trans (keeps_meet refl _) fun _ => ?_
    split
    · exact keeps_fail refl _
    · exact keeps_pure refl _

theorem probe_done {s : Trace} : (∃ t, probeAndReadVaultHeader env file s = (.done header,t)) ↔
    env.fates .downloadsHeader = .goes ∧ readHeader file = some header := by
  simp only [probeAndReadVaultHeader,touchScratch,bind_change,done_bind,done_meet]
  cases readHeader file with
  | none => simp
  | some found =>
    simp only [done_pure]
    grind

theorem reads_done : (∃ t, entry.readsHeader env file quiet = (.done header,t)) ↔
    entry.Passes env ∧ readHeader file = some header := by
  have cloud : (∃ t, (prepareCommand env >>= fun _ => probeAndReadVaultHeader env file) quiet = (.done header,t)) ↔
      (env.fates .prepares = .goes ∧ env.fates .downloadsHeader = .goes) ∧ readHeader file = some header := by
    rw [and_assoc,← probe_done (s := {quiet with scratch := quiet.scratch ++
      [.createDirAll env.rcloneDir,.write (env.rcloneDir.join "rclone.conf".toList)]})]
    simp only [prepareCommand,touchScratch,done_bind,done_meet,done_change]
    grind
  cases entry with
  | recoverVaultFromCloud => exact cloud
  | recoverVaultFromCloudWithPhrase => exact cloud
  | recoverFromCloud =>
    simp only [Entry.readsHeader,Entry.Passes,done_bind,done_require,done_meet]
    cases readHeader file with
    | none => simp
    | some found =>
      simp only [done_pure]
      grind

-- A complete vault in place ends the command before anything is touched.
theorem claim_refused {dir : Path} {id : String} (stands : env.present (dir.join vaultDb) = true ∧
    env.present (dir.join vaultHeader) = true) (s : Trace) (k : Unit → Command Trace RestoreError Unit) :
    ∃ e, (claimDirectory env dir id >>= k) s = (.failed e,s) := by
  refine ⟨_,bind_failed (bind_refused (not_not.mpr stands) _ s)⟩

-- Either the command reaches the directory the header names, or it touches nothing
-- and does not succeed.
theorem run_cases (env : RestoreEnv) (input : RestoreInput) (entry : Entry) :
    (∃ header t, entry.Reaches env input.header header ∧ t.vault = [] ∧
      entry.run env input quiet = entry.restores env input header t) ∨
    (∀ header, ¬ entry.Reaches env input.header header) ∧ (entry.run env input quiet).2.vault = [] ∧
      ∀ value, (entry.run env input quiet).1 ≠ .done value := by
  have untouched : (entry.readsHeader env input.header quiet).2.vault = [] := reads_untouched input.header entry quiet
  rcases here : entry.readsHeader env input.header quiet with ⟨header | e | _,t⟩ <;> rw [here] at untouched
  · obtain ⟨passes,reads⟩ := reads_done.mp ⟨t,here⟩
    have later : entry.run env input quiet = entry.restores env input header t := bind_done here
    by_cases vacant : entry.Vacant env header.vaultId.toList
    · exact .inl ⟨header,t,⟨passes,reads,vacant⟩,untouched,later⟩
    · refine .inr ⟨fun other reaches => ?_,?_⟩
      · have same := Option.some.inj (reads.symm.trans reaches.reads)
        exact vacant (same ▸ reaches.vacant)
      · obtain ⟨e,refused⟩ : ∃ e, entry.restores env input header t = (.failed e,t) := by
          cases entry with
          | recoverVaultFromCloud => exact claim_refused (not_not.mp vacant) t _
          | recoverVaultFromCloudWithPhrase => exact claim_refused (not_not.mp vacant) t _
          | recoverFromCloud => exact absurd trivial vacant
        rw [later,refused]
        exact ⟨untouched,by rintro value ⟨⟩⟩
  · have later : entry.run env input quiet = (.failed e,t) := bind_failed here
    refine .inr ⟨fun header reaches => ?_,?_⟩
    · obtain ⟨_,done⟩ := reads_done.mpr ⟨reaches.passes,reaches.reads⟩
      rw [here] at done
      cases done
    · rw [later]
      exact ⟨untouched,by rintro value ⟨⟩⟩
  · have later : entry.run env input quiet = (.stopped,t) := bind_stopped here
    refine .inr ⟨fun header reaches => ?_,?_⟩
    · obtain ⟨_,done⟩ := reads_done.mpr ⟨reaches.passes,reaches.reads⟩
      rw [here] at done
      cases done
    · rw [later]
      exact ⟨untouched,by rintro value ⟨⟩⟩

theorem restores_open {t : Trace} (documented : Documented env.parseStr)
    (vacant : entry.Vacant env header.vaultId.toList) :
    Opens (env.root.join header.vaultId.toList) (entry.restores env input header) t := by
  have all (dir : Path) : ∀ path, Within dir path → True := fun _ _ => trivial
  have any (touches : List Touch) : ∀ touch ∈ touches, True := fun _ _ => trivial
  cases entry with
  | recoverVaultFromCloud =>
    refine opens_then (claim_opens vacant) fun _ => keeps_then (keeps_undoing (any _) (meets _)) fun _ => ?_
    refine keeps_then (keeps_vault (any _)) fun _ => keeps_then (keeps_undoing (any _) (meets _)) fun _ => ?_
    refine keeps_then (keeps_undoing (any _) (keeps_recover_vault (all _))) fun id => ?_
    exact keeps_post_recovery (all _)
  | recoverVaultFromCloudWithPhrase =>
    refine opens_then (claim_opens vacant) fun _ => ?_
    refine keeps_then (keeps_undoing (any _) (keeps_recover_with_phrase (all _))) fun id => ?_
    refine keeps_then (meets _) fun _ => keeps_then (keeps_vault (any _)) fun _ => ?_
    exact keeps_then (keeps_undoing (any _) (meets _)) fun _ => keeps_post_recovery (all _)
  | recoverFromCloud =>
    refine opens_then (opens_touch (join_parent _ (by decide))) fun _ => ?_
    refine keeps_then (meets _) fun _ => keeps_then (meets _) fun _ => keeps_then keeps_vault_id fun _ => ?_
    refine keeps_then (keeps_download (all _) (vault_touching (all _) (within_refl _))) fun _ => ?_
    refine keeps_then (keeps_vault (any _)) fun _ => keeps_then (meets _) fun _ => ?_
    exact keeps_then (keeps_pull documented (all _)) fun _ => meets _

theorem confined_parses (documented : Documented env.parseStr)
    (confined : Confined env input.header (entry.run env input quiet))
    (reaches : entry.Reaches env input.header header) : (env.parseStr header.vaultId.toList).isSome = true := by
  obtain ⟨other,t,steered,fresh,ran⟩ | ⟨none,_⟩ := run_cases env input entry
  · cases Option.some.inj (steered.reads.symm.trans reaches.reads)
    have opens : Opens (env.root.join header.vaultId.toList) (entry.restores env input header) t :=
      restores_open documented reaches.vacant
    obtain ⟨touch,more,grown,at_root⟩ := opens
    rw [← ran,fresh] at grown
    have tame : ¬ Hostile header.vaultId.toList := by
      intro hostile
      rw [(confined.refused header reaches.reads hostile).1] at grown
      cases grown
    have below := confined.inside touch (by rw [grown]; exact List.mem_cons_self)
    rw [at_root] at below
    exact below_whole (fun member => tame (.inr (.inr (.inl member)))) below
  · exact absurd reaches (none header)

theorem parses_confined (documented : Documented env.parseStr)
    (parses : ∀ header, entry.Reaches env input.header header → (env.parseStr header.vaultId.toList).isSome = true) :
    Confined env input.header (entry.run env input quiet) := by
  obtain ⟨header,t,reaches,fresh,ran⟩ | ⟨none,untouched,unfinished⟩ := run_cases env input entry
  · have plain := parsed_plain documented (parses header reaches)
    refine ⟨fun touch member => ?_,fun other reads hostile => ?_⟩
    · have named : Below env.root (fun name => (env.parseStr name).isSome = true)
        (env.root.join header.vaultId.toList) := below_named plain (parses header reaches)
      have parsed (id : Uuid) : Below env.root (fun name => (env.parseStr name).isSome = true)
        (env.root.join (hyphenated id)) :=
        below_named (parsed_plain documented (documented.printed id)) (documented.printed id)
      obtain ⟨more,grown,kind⟩ := restores_steered documented input entry header
        (fun _ within => below_within named within) (fun id _ within => below_within (parsed id) within) t
      rw [ran,grown,fresh] at member
      exact kind touch member
    · cases Option.some.inj (reads.symm.trans reaches.reads)
      exact absurd plain (hostile_not_plain hostile)
  · refine ⟨fun touch member => ?_,fun _ _ _ => ⟨untouched,unfinished⟩⟩
    rw [untouched] at member
    cases member

end Runs

-- A remote header is confined exactly when the name it gives parses, wherever the
-- command gets as far as using it.
theorem remote_header_confined_iff (env : RestoreEnv) (documented : Documented env.parseStr) (entry : Entry)
    (input : RestoreInput) : Confined env input.header (entry.run env input quiet) ↔
      ∀ header, entry.Reaches env input.header header → (env.parseStr header.vaultId.toList).isSome = true :=
  ⟨fun confined _ reaches => confined_parses documented confined reaches,parses_confined documented⟩

-- The hyphenated form, as the parser reads it.
def hexValue (c : Char) : Nat :=
  if c.toNat ≤ 57 then c.toNat - 48 else if c.toNat ≤ 70 then c.toNat - 55 else c.toNat - 87

def hyphenatedUuid (text : Text) : Option Uuid :=
  if text.all (fun c => hexDigit c || c = '-') = true ∧ (text.splitOn '-').map List.length = [8,4,4,4,12] then
    some ((text.filter (· ≠ '-')).foldl (fun value c => 16 * value + hexValue c) 0)
  else none

theorem hexText_hex (width value : Nat) : ∀ c ∈ hexText width value, hexDigit c = true ∧ c ≠ '-' := by
  induction width generalizing value with
  | zero => rintro c ⟨⟩
  | succ width ih =>
    intro c member
    rcases List.mem_append.mp member with front | last
    · exact ih _ c front
    · rw [List.mem_singleton.mp last]
      have small : value % 16 < 16 := Nat.mod_lt _ (by decide)
      have all : ∀ n < 16, hexDigit (Nat.digitChar n) = true ∧ Nat.digitChar n ≠ '-' := by decide
      exact all _ small

theorem hyphenated_groups (id : Uuid) : (hyphenated id).splitOn '-' =
    [hexText 8 (id / 16 ^ 24),hexText 4 (id / 16 ^ 20),hexText 4 (id / 16 ^ 16),hexText 4 (id / 16 ^ 12),
      hexText 12 id] := by
  have whole (width value : Nat) : (hexText width value).splitOn '-' = [hexText width value] :=
    List.splitOn_eq_singleton fun member => (hexText_hex width value _ member).2 rfl
  delta hyphenated
  rw [List.splitOn_append_cons_self,List.splitOn_append_cons_self,List.splitOn_append_cons_self,
    List.splitOn_append_cons_self,whole,whole,whole,whole,whole]
  rfl

theorem hyphenated_hex (id : Uuid) : ∀ c ∈ hyphenated id, hexDigit c = true ∨ c = '-' := by
  intro c member
  delta hyphenated at member
  simp only [List.mem_append,List.mem_cons] at member
  have digits := fun width value => hexText_hex width value c
  grind

theorem hexDigit_alphanum {c : Char} (digit : hexDigit c = true) : c.isAlphanum = true := by
  delta hexDigit at digit
  delta Char.isAlphanum Char.isAlpha Char.isUpper Char.isLower Char.isDigit
  simp only [Bool.or_eq_true,Bool.and_eq_true,decide_eq_true_eq,UInt32.le_iff_toNat_le,ge_iff_le] at digit ⊢
  change ((65 ≤ c.toNat ∧ c.toNat ≤ 90) ∨ (97 ≤ c.toNat ∧ c.toNat ≤ 122)) ∨ (48 ≤ c.toNat ∧ c.toNat ≤ 57)
  omega

theorem hyphenated_documented : Documented hyphenatedUuid := by
  refine ⟨fun text id parsed c member => ?_,rfl,fun id => ?_⟩
  · unfold hyphenatedUuid at parsed
    split at parsed
    · rename_i form
      have digit := List.all_eq_true.mp form.1 c member
      rcases Bool.or_eq_true_iff.mp digit with hex | hyphen
      · exact .inl (hexDigit_alphanum hex)
      · rw [of_decide_eq_true hyphen]
        exact .inr List.mem_cons_self
    · cases parsed
  · unfold hyphenatedUuid
    rw [if_pos]
    · rfl
    · refine ⟨List.all_eq_true.mpr fun c member => ?_,?_⟩
      · rcases hyphenated_hex id c member with hex | rfl
        · rw [hex,Bool.true_or]
        · rfl
      · rw [hyphenated_groups]
        simp only [List.map_cons,List.map_nil,hexText_length]

def steadyEnv : RestoreEnv where
  root := ⟨true,["data".toList,"arx-runa".toList,"vaults".toList]⟩
  temp := ⟨true,["tmp".toList]⟩
  config := ⟨true,["config".toList,"arx-runa".toList]⟩
  storage := ⟨true,["data".toList,"arx-runa".toList,"staging".toList]⟩
  rcloneDir := ⟨true,["tmp".toList,"rclone".toList]⟩
  parseStr := hyphenatedUuid
  present := fun _ => false
  temporary := ⟨['.','t','m','p'],by decide⟩
  fates := fun _ => .goes
  active := true
  storeOpen := true
  dbExists := false
  flatBlobs := []
  orphans := []
  blobNames := []
  stale := fun _ => false

def headerNaming (vaultId : String) : VaultHeader :=
  ⟨vaultId,1,1,Library.Base64.encodeBase64 (List.replicate 32 5),⟨65536,3,4⟩,none,[],none⟩

def inputNaming (vaultId : String) : RestoreInput :=
  ⟨.json (headerNaming vaultId).toJson,.json (headerNaming vaultId).toJson,none⟩

theorem uuid_header_confined : Confined steadyEnv (inputNaming "6f1d7e6e-8f6d-4c1a-9c59-0123456789ab").header
    (Entry.run steadyEnv (inputNaming "6f1d7e6e-8f6d-4c1a-9c59-0123456789ab") .recoverVaultFromCloud quiet) := by
  refine (remote_header_confined_iff steadyEnv hyphenated_documented .recoverVaultFromCloud _).mpr ?_
  intro header reaches
  rw [← Option.some.inj ((read_header_json _).symm.trans reaches.reads)]
  decide

-- A header that names an absolute path has the directory there made (and, where one
-- stands, removed first).
theorem absolute_header_escapes : ¬ Confined steadyEnv (inputNaming "/home/user").header
    (Entry.run steadyEnv (inputNaming "/home/user") .recoverVaultFromCloud quiet) := by
  intro confined
  have parses := confined_parses hyphenated_documented confined ⟨⟨rfl,rfl⟩,read_header_json _,fun both => by cases both.1⟩
  revert parses
  decide

end ArxRuna.Vault.Restore
