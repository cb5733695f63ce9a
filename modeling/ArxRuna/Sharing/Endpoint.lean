import ArxRuna.Sharing.Provider
import ArxRuna.Sharing.Rows
namespace ArxRuna.Sharing.Endpoint
open Library.Texts Library.JsonText Library.Fallible Crypto RemotePath SessionConf Provider Rows

inductive CredentialsError where
  | sharingNotSupported (text : String)
  | ioError
  | other (text : String)
  deriving DecidableEq, Repr

-- serde_json and the two provider APIs, as one issue of a credential meets them.
structure Services where
  readJson : ReadJson
  writeJson : Json → Text
  b2AuthorizeAccount : Text → Text → Except Unit String
  b2GetBucketId : Text → Except String Text
  b2CreateApplicationKey : Text → Text → List String → Nat → Except String (String × String)
  gdriveRefreshToken : GdriveOauth → Except String String
  gdriveCreatePermission : String → Text → String → Except String String

-- The owner's transport with what generating credentials needs besides: the file of
-- the session configuration, if it can be read, and the stored service account.
structure Sender where
  remoteRoot : Text
  sessionConfig : Option Conf
  sharingConfig : Option Json

def Sender.remoteName (sender : Sender) : Text := ((splitOnce ':' sender.remoteRoot).map (·.1)).getD []

def Sender.rootPath (sender : Sender) : Text := ((splitOnce ':' sender.remoteRoot).map (·.2)).getD []

-- What the sender's remote is, by the same two readings of its stanza that
-- generating credentials relies on.
def Sender.remote (sender : Sender) (readJson : ReadJson) : Option Remote := do
  let conf ← sender.sessionConfig
  match parseB2ApiKeysForRemote conf sender.remoteName with
  | some (account,key) => some (.b2 account key)
  | none => (parseGdriveOauthFromConf readJson conf sender.remoteName).map fun oauth => .drive oauth.rootFolderId

def Sender.transport (sender : Sender) (readJson : ReadJson) : Option RcloneTransport :=
  (sender.remote readJson).map fun remote => ⟨sender.remoteRoot,remote⟩

-- `creds[name] = value`; values that are neither objects nor null panic.
def setField (name : String) (value : Json) : Json → Option Json
  | .object fields => some (.object (fields.filter (·.1 ≠ name) ++ [(name,value)]))
  | .null => some (.object [(name,value)])
  | _ => none

def stringField (name : String) (value : Json) : Option String := (jsonGet name value).bind Json.text?

def textField (name : String) (value : Json) : Option Text := (stringField name value).map String.toList

def json (text : Text) : Json := .text (String.ofList text)

def trimSlashes (text : Text) : Text := trimEnd '/' (trimStart '/' text)

variable (services : Services) (drive : Drive)

def b2BucketName (sender : Sender) : Option Text :=
  ((sender.rootPath.splitOn '/').head?).filter (· ≠ [])

def generateB2ShareCredentials (sender : Sender) (pathPrefix : Text) (ttlSeconds : Nat) (masterKeyId masterAppKey : Text) :
    Except CredentialsError (Option Json) := do
  let bucketName ← given (b2BucketName sender) (.other "cannot extract bucket name from remote root")
  let downloadUrl ← (services.b2AuthorizeAccount masterKeyId masterAppKey).mapError
    fun _ => .other "B2 authorization failed"
  let bucketId ← (services.b2GetBucketId bucketName).mapError
    fun e => .other ("B2 bucket lookup failed for '" ++ String.ofList bucketName ++ "': " ++ e)
  let appKey ← (services.b2CreateApplicationKey bucketId pathPrefix ["readFiles","listBuckets","writeFiles"] ttlSeconds).mapError
    fun e => .other ("B2 key creation failed (check that your key has writeKeys capability): " ++ e)
  pure (some (.object [("provider",.text "b2"),("bucket",json bucketName),("download_url",.text downloadUrl),
    ("key_id",.text appKey.1),("application_key",.text appKey.2),("path_prefix",json pathPrefix),
    ("receipt_requested",.bool true)]))

def fullDrivePath (sender : Sender) (pathPrefix : Text) : Text :=
  if trimSlashes sender.rootPath = [] then pathPrefix
  else trimSlashes sender.rootPath ++ '/' :: trimStart '/' pathPrefix

def driveAccessToken (sender : Sender) (conf : Conf) (oauth : GdriveOauth) : Except CredentialsError String :=
  if oauth.clientId = [] then
    given (parseGdriveAccessTokenFromConf services.readJson conf sender.remoteName)
      (.other "Drive access token not found in session config; sync the vault to refresh it.")
  else (services.gdriveRefreshToken oauth).mapError fun e => .other ("Drive token refresh failed: " ++ e)

-- The placeholders uploaded at the end are best effort and change nothing here.
def generateGdriveShareCredentials (sender : Sender) (conf : Conf) (pathPrefix : Text) (oauth : GdriveOauth) :
    Except CredentialsError (Option Json) := do
  let account ← given sender.sharingConfig (.sharingNotSupported
    ("Google Drive sharing requires a Service Account to be configured " ++
      "in vault settings (Destinations → Sharing Setup)."))
  let email ← given (stringField "client_email" account) (.other "Service Account JSON missing 'client_email' field")
  let token ← driveAccessToken services sender conf oauth
  let folderId ← (gdriveResolveFolderId drive oauth.rootFolderId (fullDrivePath sender pathPrefix)).mapError
    fun e => .other ("Drive folder lookup failed for '" ++ String.ofList (fullDrivePath sender pathPrefix) ++
      "': folder not found for path prefix: " ++ e)
  let permissionId ← (services.gdriveCreatePermission token folderId email).mapError
    fun e => .other ("Drive permission grant failed: " ++ e)
  pure (some (.object [("provider",.text "drive"),("folder_id",json folderId),
    ("sa_credentials_json",json (services.writeJson account)),("path_prefix",json pathPrefix),
    ("permission_id",.text permissionId),("receipt_requested",.bool true)]))

def generateShareCredentials (sender : Sender) (pathPrefix : Text) (ttlSeconds : Nat) :
    Except CredentialsError (Option Json) :=
  match sender.sessionConfig with
  | none => .error .ioError
  | some conf =>
    match parseB2ApiKeysForRemote conf sender.remoteName with
    | some (masterKeyId,masterAppKey) =>
      generateB2ShareCredentials services sender pathPrefix ttlSeconds masterKeyId masterAppKey
    | none =>
      match parseGdriveOauthFromConf services.readJson conf sender.remoteName with
      | some oauth => generateGdriveShareCredentials services drive sender conf pathPrefix oauth
      | none => .error (.sharingNotSupported ("Remote '" ++ String.ofList sender.remoteName ++
          "' is not a supported sharing backend (Backblaze B2 or Google Drive)."))

-- Objects that a credential lets its holder reach.
inductive Scope where
  | b2 (bucket namePrefix : Text)
  | drive (folderId : Text)
  deriving DecidableEq

def Scope.covers : Scope → Object → Bool
  | .b2 bucket namePrefix,.b2 place =>
    match place.pieces with
    | [] => false
    | first :: name => first = bucket ∧ namePrefix.isPrefixOf (join '/' name)
  | .drive folderId,.drive place =>
    match drive.pathOf folderId with
    | none => false
    | some folder => folder.pieces.isPrefixOf place.pieces
  | _,_ => false

-- The key is made for this bucket and prefix, the permission for this folder.
def credentialScope (creds : Json) : Option Scope := do
  let provider ← stringField "provider" creds
  if provider = "b2" then
    let bucket ← textField "bucket" creds
    let namePrefix ← textField "path_prefix" creds
    pure (.b2 bucket namePrefix)
  else
    let folderId ← textField "folder_id" creds
    pure (.drive folderId)

-- The endpoint in the recipient's row: `create_share` marks it, the import adds the size.
def receivedEndpoint (creds : Json) (fileSize : Nat) : Option Json := do
  let endpoint ← setField "receipt_requested" (.bool true) creds
  if fileSize = 0 then pure endpoint else setField "_file_size" (.number fileSize) endpoint

-- The remotes of the recipient's temporary configurations.
def shareDownload : Text := ['a','r','x','s','h','a','r','e','-','d','l']

def shareDriveDownload : Text := ['a','r','x','s','h','a','r','e','-','g','d','l']

def shareReceipt : Text := ['a','r','x','s','h','a','r','e','-','r','c','p','t']

def buildB2ShareTransport (endpoint : Json) : Option RcloneTransport := do
  let keyId ← textField "key_id" endpoint
  let appKey ← textField "application_key" endpoint
  let bucket ← textField "bucket" endpoint
  let pathPrefix ← textField "path_prefix" endpoint
  pure ⟨shareDownload ++ ':' :: bucket ++ '/' :: trimEnd '/' pathPrefix,.b2 keyId appKey⟩

def buildGdriveShareTransport (readJson : ReadJson) (endpoint : Json) : Option RcloneTransport := do
  let folderId ← textField "folder_id" endpoint
  let account ← textField "sa_credentials_json" endpoint
  let _ ← readJson account
  pure ⟨shareDriveDownload ++ [':'],.drive (some folderId)⟩

def shareTransport (readJson : ReadJson) (endpoint : Json) : Option RcloneTransport := do
  let provider ← stringField "provider" endpoint
  if provider = "b2" then buildB2ShareTransport endpoint
  else if provider = "drive" then buildGdriveShareTransport readJson endpoint
  else none

def blobFile (name : Uuid) : Text := hyphenated name ++ ['.','b','l','o','b']

def versionNumber (id : Uuid) : Nat := (id / 16 ^ 19) % 16

-- The object that `fetch_received_share_to_local` reads for a chunk.
def fetchedObject (readJson : ReadJson) (endpoint : Json) (chunkUuid : Uuid) : Option Object :=
  if versionNumber chunkUuid = 4 then
    (shareTransport readJson endpoint).bind fun t => t.objectAt drive (blobFile chunkUuid)
  else none

-- The object that `build_new_file_share` uploads a chunk to.
def uploadedObject (readJson : ReadJson) (sender : Sender) (fileShareId blobName : Uuid) : Option Object :=
  (sender.transport readJson).bind fun t => t.objectAt drive (sharePrefix fileShareId ++ blobFile blobName)

inductive ReceiptKind where
  | download
  | imported
  deriving DecidableEq

def ReceiptKind.folder : ReceiptKind → Text
  | .download => ['r','e','c','e','i','p','t','s']
  | .imported => ['i','m','p','o','r','t','-','r','e','c','e','i','p','t','s']

def receiptConfB2 (endpoint : Json) (receiptPrefix : Text) (receiptUuid : Uuid) : Option (RcloneTransport × Text) := do
  let keyId ← textField "key_id" endpoint
  let appKey ← textField "application_key" endpoint
  let bucket ← textField "bucket" endpoint
  let pathPrefix ← textField "path_prefix" endpoint
  pure (⟨shareReceipt ++ ':' :: bucket ++ '/' :: (pathPrefix ++ receiptPrefix),.b2 keyId appKey⟩,blobFile receiptUuid)

-- RECEIPT_BLOB_NAME
def receiptBlobName : Text := ['r','e','c','e','i','p','t','.','b','l','o','b']

def receiptConfGdrive (readJson : ReadJson) (endpoint : Json) (receiptPrefix : Text) : Option (RcloneTransport × Text) := do
  let folderId ← textField "folder_id" endpoint
  let account ← textField "sa_credentials_json" endpoint
  let _ ← readJson account
  pure (⟨shareReceipt ++ [':'],.drive (some folderId)⟩,receiptPrefix ++ '/' :: receiptBlobName)

-- The object that `write_receipt_blob` writes.
def receiptObject (readJson : ReadJson) (endpoint : Json) (kind : ReceiptKind) (receiptUuid : Uuid) : Option Object := do
  let provider ← stringField "provider" endpoint
  let target ← if provider = "b2" then receiptConfB2 endpoint kind.folder receiptUuid
    else if provider = "drive" then receiptConfGdrive readJson endpoint kind.folder
    else none
  target.1.objectAt drive target.2

-- The rows whose receipt is looked for.
def ShareRecord.awaits (share : ShareRecord) : ReceiptKind → Bool
  | .download => share.receiptRequested ∧ share.receiptReceivedAt = none ∧ share.revokedAt = none
  | .imported => share.receiptRequested ∧ share.importReceiptReceivedAt = none ∧ share.revokedAt = none

def receiptNames (t : RcloneTransport) (objects : Objects) (share : ShareRecord) (kind : ReceiptKind) : List Text :=
  t.listBlobs drive objects (share.cloudPath ++ kind.folder ++ ['/'])

-- The objects that `check_share_receipts` downloads for one row.
def checkedObjects (t : RcloneTransport) (objects : Objects) (share : ShareRecord) (kind : ReceiptKind) : List Object :=
  if ShareRecord.awaits share kind = false ∨ share.cloudPath = [] then []
  else ((receiptNames drive t objects share kind).take 50).filterMap (t.objectAt drive)

end ArxRuna.Sharing.Endpoint
