import ArxRuna.Sharing.Endpoint
import ArxRuna.Vault.Disk
namespace ArxRuna.Sharing.Revocation
open Library.Aead Library.Fallible Library.Interrupt Crypto Cloud.Transport RemotePath SessionConf Provider Rows Endpoint

abbrev Account := Nat

-- What a provider knows of the credentials it has issued and not withdrawn.
structure B2Key where
  account : Account
  scope : Scope
  deriving DecidableEq

structure World where
  vault : Vault.Disk.Workspace
  tables : SharingTables
  cloud : List (Object × Bytes)
  keys : String → Option B2Key
  permissions : String → Text → Option Account

def World.objects (w : World) : Provider.Objects := w.cloud.map (·.1)

def World.erase (w : World) (object : Object) : World := {w with cloud := w.cloud.filter (·.1 ≠ object)}

-- The owner's side: the transport of the primary destination, the session's rclone
-- configuration (none if there is no path or no readable file), and the accounts
-- that a master key pair and an access token belong to.
structure Owner where
  readJson : ReadJson
  drive : Provider.Drive
  transport : RcloneTransport
  sessionConf : Option Conf
  b2Account : Text → Text → Option Account
  refreshToken : GdriveOauth → Option String
  tokenAccount : String → Option Account

-- How the calls of one revocation go. A deletion finds an object or does not; one
-- that is found is deleted, or the call fails and the object stays or is gone all
-- the same. `answered` is the provider's answer to the last call, which withdraws
-- the credential.
inductive DeleteFate where
  | goes
  | fails (text : String)
  | loses (text : String)
  deriving DecidableEq, Repr

def DeleteFate.removes : DeleteFate → Bool
  | .goes | .loses _ => true
  | .fails _ => false

structure RevokeFates where
  list : Fate SharingError
  delete : Nat → DeleteFate
  mark : Fate SharingError
  drop : Fate SharingError
  answered : Bool

variable (owner : Owner)

def deleteBlob (path : Text) (fate : DeleteFate) : Command World CloudTransportError Unit :=
  match owner.transport.objectAt owner.drive path with
  | none => fail (.other "remote path rejected")
  | some object => do
    let w ← inspect
    require (object ∈ w.objects) .notFound
    match fate with
    | .goes => change (·.erase object)
    | .fails text => fail (.other text)
    | .loses text => do
      change (·.erase object)
      fail (.other text)

def deleteBlobs (fates : Nat → DeleteFate) : Nat → List Text → Command World SharingError Unit
  | _,[] => pure ()
  | index,path :: rest => do
    let report ← settle (deleteBlob owner path (fates index))
    match report with
    | .ok _ | .error .notFound => deleteBlobs fates (index + 1) rest
    | .error _ => fail (.revocationPartial index)

def listShared (w : World) (fileShareId : Uuid) : List Text :=
  owner.transport.listBlobs owner.drive w.objects (sharePrefix fileShareId)

def isLast (tables : SharingTables) (share : ShareRecord) : Bool :=
  (tables.listActiveSharesByFileShareId share.fileShareId).map (·.shareId) = [share.shareId]

def onTables (update : SharingTables → Except SharingError SharingTables) : Command World SharingError Unit := do
  let w ← inspect
  let tables ← demand (update w.tables)
  change fun w => {w with tables := tables}

-- `sharing::revoke_share`
def revokeShare (fates : RevokeFates) (shareId : Uuid) (nowUnixSeconds : Int) : Command World SharingError Unit := do
  let w ← inspect
  let share ← demand (w.tables.getShare shareId)
  require (share.revokedAt = none) .shareAlreadyRevoked
  whenever (isLast w.tables share) do
    meet fates.list
    deleteBlobs owner fates.delete 0 (listShared owner w share.fileShareId)
  meet fates.mark
  onTables (·.setShareRevokedAt shareId nowUnixSeconds)
  whenever (isLast w.tables share) do
    meet fates.drop
    change fun w => {w with tables := w.tables.deleteFileShare share.fileShareId}

def sectionNames (conf : Conf) : List Text := conf.filterMap fun line => header? (trim line)

def gdriveToken (conf : Conf) (name : Text) (oauth : GdriveOauth) : Option String :=
  if oauth.clientId = [] then parseGdriveAccessTokenFromConf owner.readJson conf name else owner.refreshToken oauth

-- The accounts that the two cleanups act for: both scan the configuration for the
-- first section that serves.
def gdriveCleanupAccount : Option Account := do
  let conf ← owner.sessionConf
  let name ← (sectionNames conf).find? fun name => (parseGdriveOauthFromConf owner.readJson conf name).isSome
  let oauth ← parseGdriveOauthFromConf owner.readJson conf name
  let token ← gdriveToken owner conf name oauth
  owner.tokenAccount token

def b2CleanupAccount : Option Account := do
  let conf ← owner.sessionConf
  let credentials ← parseB2CredentialsFromConf conf
  owner.b2Account credentials.1 credentials.2.1

def World.dropPermission (w : World) (permissionId : String) (folderId : Text) : World :=
  {w with permissions := fun other place =>
    if other = permissionId ∧ place = folderId then none else w.permissions other place}

def World.dropKey (w : World) (keyId : String) : World :=
  {w with keys := fun other => if other = keyId then none else w.keys other}

-- A provider deletes what the account has issued and refuses the rest.
def gdriveDeletePermission (account : Account) (folderId : Text) (permissionId : String) (w : World) : World :=
  if w.permissions permissionId folderId = some account then w.dropPermission permissionId folderId else w

def b2DeleteKey (account : Account) (keyId : String) (w : World) : World :=
  if (w.keys keyId).map (·.account) = some account then w.dropKey keyId else w

def cleanupGdriveSharePermission (answered : Bool) (permissionId : String) (folderId : Text) (w : World) : World :=
  match gdriveCleanupAccount owner with
  | some account => if answered then gdriveDeletePermission account folderId permissionId w else w
  | none => w

def cleanupB2ShareKey (answered : Bool) (keyId : String) (w : World) : World :=
  match b2CleanupAccount owner with
  | some account => if answered then b2DeleteKey account keyId w else w
  | none => w

-- What a share row records of its credential.
inductive Credential where
  | permission (permissionId : String) (folderId : Text)
  | key (keyId : String)
  deriving DecidableEq

def credential (share : ShareRecord) : Option Credential :=
  match share.downloadKeyId,share.downloadFolderId with
  | some permissionId,some folderId => some (.permission permissionId folderId.toList)
  | some keyId,none => some (.key keyId)
  | none,_ => none

def cleanup (answered : Bool) : Option Credential → World → World
  | some (.permission permissionId folderId),w => cleanupGdriveSharePermission owner answered permissionId folderId w
  | some (.key keyId),w => cleanupB2ShareKey owner answered keyId w
  | none,w => w

-- The command: it reads the credential first, and its cleanup cannot fail.
def revokeShareCommand (fates : RevokeFates) (shareId : Uuid) (nowUnixSeconds : Int) : Command World SharingError Unit := do
  let w ← inspect
  let recorded : Option Credential := match w.tables.getShare shareId with
    | .ok share => credential share
    | .error _ => none
  revokeShare owner fates shareId nowUnixSeconds
  change (cleanup owner fates.answered recorded)

end ArxRuna.Sharing.Revocation
