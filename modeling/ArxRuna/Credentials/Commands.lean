import ArxRuna.Credentials.Recovery
namespace ArxRuna.Credentials.Commands
open Library.Aead Library.Interrupt Library.JsonText Crypto Keys Header Rekey Device Ceremonies Recovery

inductive IpcError where
  | vaultLocked (text : String)
  | authenticationFailed (text : String)
  | notFound (text : String)
  | invalidInput (text : String)
  | internalError (text : String)
  deriving DecidableEq, Repr

def IpcError.fromAuthentication : AuthenticationError → IpcError
  | .invalidCredentials | .keyFileNotFound => .authenticationFailed "Invalid credentials"
  | .memoryLockFailed _ => .internalError "Cannot lock memory for session keys"
  | .vaultHeaderInvalid => .internalError "Vault configuration error"
  | .sessionAlreadyActive => .invalidInput "A session is already active; lock it first"
  | .sessionNotActive => .vaultLocked "No active session"
  | .invalidRecoveryPhrase => .invalidInput "Recovery phrase is invalid"
  | .noRecoverySlot => .invalidInput "No recovery slot configured for this vault"

-- `writesHeader` is the write of `vault-header.json` after the ceremony.
structure CommandEnv extends RecoverEnv where
  writesHeader : FileWrite

variable (suite : Suite) (env : CommandEnv)

def requireActiveSession : Command World IpcError Session := do
  match (← inspect).session with
  | none => fail (.vaultLocked "Vault is locked")
  | some session => pure session

def validatePassword (password : Bytes) : Command World IpcError Unit :=
  require (password ≠ []) (.invalidInput "Password must not be empty")

def resolveVaultById (dir : String) : Command World IpcError Unit := do
  let files := (← inspect).vaults dir
  require (files.database.isSome ∧ files.header.isSome) (.notFound "Vault not found")

def readLocalHeader (dir : String) : Command World IpcError VaultHeader := do
  match ((← inspect).vaults dir).header with
  | none => fail (.internalError "Failed to read vault header")
  | some file =>
    match readHeader file with
    | none => fail (.internalError "Vault header corrupted")
    | some header => pure header

def parseVaultId (header : VaultHeader) : Command World IpcError Uuid :=
  match suite.parseUuid header.vaultId with
  | none => fail (.internalError "Vault header corrupted")
  | some vaultId => pure vaultId

-- The command returns Ok whatever becomes of this write.
def persistHeader (dir : String) (header : VaultHeader) : Command World IpcError Unit := do
  change fun w => w.setHeader dir (env.writesHeader.result header.toJson (w.vaults dir).header)
  whenever env.writesHeader.stops stop

structure ChangePasswordInput where
  currentPassword : Bytes
  newPassword : Bytes
  recoveryPhrase : Option Bytes
  currentKeyFile : Option String

def ChangePasswordInput.request (input : ChangePasswordInput) (dir : String) : ChangePasswordRequest :=
  ⟨input.currentPassword,input.newPassword,input.currentKeyFile,input.recoveryPhrase,.default,.preserveTrusted,dir⟩

def changePasswordCommand (input : ChangePasswordInput) : Command World IpcError Unit := do
  let session ← requireActiveSession
  validatePassword input.currentPassword
  validatePassword input.newPassword
  resolveVaultById session.vaultId
  let header ← readLocalHeader session.vaultId
  let vaultId ← parseVaultId suite header
  let header ← relabel .fromAuthentication
    (changePassword suite env.toCeremonyEnv (input.request session.vaultId) header vaultId)
  persistHeader env session.vaultId header

-- `destination` is the path after the directory case is resolved.
structure RotateKeyFileInput where
  currentPassword : Bytes
  currentKeyFile : String
  destination : String
  parentExists : Bool
  recoveryPhrase : Option Bytes

def RotateKeyFileInput.request (input : RotateKeyFileInput) (dir : String) : RotateKeyFileRequest :=
  ⟨input.currentPassword,input.currentKeyFile,input.destination,input.parentExists,input.recoveryPhrase,.default,
    .preserveTrusted,dir⟩

def rotateKeyFileCommand (input : RotateKeyFileInput) : Command World IpcError Unit := do
  let session ← requireActiveSession
  resolveVaultById session.vaultId
  let header ← readLocalHeader session.vaultId
  require (header.tier = 2) (.invalidInput "Key file rotation is only supported for Tier 2 vaults")
  let vaultId ← parseVaultId suite header
  let header ← relabel .fromAuthentication
    (rotateKeyFile suite env.toCeremonyEnv (input.request session.vaultId) header vaultId)
  persistHeader env session.vaultId header

structure RecoverInput where
  vaultId : String
  phrase : Bytes
  newPassword : Bytes
  newKeyFile : Option String

def RecoverInput.request (input : RecoverInput) (header : VaultHeader) : RecoverWithPhraseRequest :=
  ⟨input.phrase,input.vaultId,input.newPassword,input.newKeyFile,.default,.preserveTrusted,some header⟩

-- What follows the header write (transport, storage preparation, the deferred
-- push) touches neither the header nor the key of the database.
def recoverVaultWithPhraseCommand (input : RecoverInput) : Command World IpcError Unit := do
  validatePassword input.newPassword
  resolveVaultById input.vaultId
  let header ← readLocalHeader input.vaultId
  let recovered ← relabel .fromAuthentication (recoverWithPhrase suite env.toRecoverEnv (input.request header))
  persistHeader env input.vaultId recovered.2

section Frames
variable {suite : Suite} {env : CommandEnv} {R : World → World → Prop} (refl : ∀ w, R w w)
  (trans : ∀ a b c, R a b → R b c → R a c)
include refl

theorem keeps_validate {password : Bytes} : Keeps R (validatePassword password) := keeps_require refl _ _

theorem keeps_parse_id {header : VaultHeader} : Keeps R (parseVaultId suite header) := by
  unfold parseVaultId
  cases suite.parseUuid header.vaultId with
  | none => exact keeps_fail refl _
  | some vaultId => exact keeps_pure refl _

include trans

theorem keeps_resolve {dir : String} : Keeps R (resolveVaultById dir) :=
  keeps_bind trans (keeps_inspect refl) fun _ => keeps_require refl _ _

theorem keeps_read_local {dir : String} : Keeps R (readLocalHeader dir) := by
  refine keeps_bind trans (keeps_inspect refl) fun w => ?_
  cases (w.vaults dir).header with
  | none => exact keeps_fail refl _
  | some file =>
    dsimp only
    cases readHeader file with
    | none => exact keeps_fail refl _
    | some header => exact keeps_pure refl _

end Frames

end ArxRuna.Credentials.Commands
