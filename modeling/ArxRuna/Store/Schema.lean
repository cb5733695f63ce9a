import ArxRuna.Library.SqlSafe
import ArxRuna.Library.Template
import ArxRuna.Store.Operations
namespace ArxRuna.Store.Schema
open Library.Sql Library.Fallible Store.Tables
open Library.Template (parseUsize)

abbrev Text := List Char

-- The tables and the one index of the manifest.
inductive TableName where
  | nodes
  | chunks
  | manifestMeta
  | pendingDeletions
  | destinationSessions
  | contacts
  | shares
  | receivedShares
  | vaultIdentity
  | epochBlobs
  | chunksNew
  | idxChunksBlobName
  | epochBuffer
  | backupUploadFailures
  | pendingBackup
  | sharingConfig
  | sharesNew
  | fileShares
  deriving DecidableEq, Repr

inductive ColumnName where
  | nodeId
  | parentId
  | nodeType
  | name
  | createdAt
  | modifiedAt
  | sizeBytes
  | fileKeyWrapped
  | chunkId
  | chunkIndex
  | blobName
  | sizePadded
  | blake3Checksum
  | key
  | value
  | queuedAt
  | destinationId
  | label
  | destinationType
  | rcloneRemoteName
  | rcloneConfigBlob
  | bucket
  | pathPrefix
  | isPrimary
  | backupMode
  | contactId
  | displayName
  | email
  | publicKey
  | shareId
  | fileId
  | fileShareId
  | cloudPath
  | expiresAt
  | revokedAt
  | senderContactId
  | senderPublicKey
  | fileName
  | chunkCount
  | chunkSize
  | chunkUuids
  | cloudEndpoint
  | importedAt
  | id
  | wrappedPrivateKey
  | epochBlobId
  | byteOffset
  | byteLength
  | entryId
  | plaintext
  | downloadKeyId
  | receiptRequested
  | receiptReceivedAt
  | importReceiptReceivedAt
  | failedAt
  | retryCount
  | deviceId
  | configId
  | provider
  | configJson
  | updatedAt
  | downloadFolderId
  | shareFileId
  | shareFileKeyWrapped
  | fileSize
  deriving DecidableEq, Repr

abbrev ManifestShape := Shape TableName ColumnName
abbrev ManifestRow := Row ColumnName
abbrev Manifest := Database TableName ColumnName
abbrev ManifestStatement := Statement TableName ColumnName

def word (text : String) : Value := .text text.toList

def text (column : ColumnName) : Column ColumnName := ⟨column,.text,false,.null⟩
def integer (column : ColumnName) : Column ColumnName := ⟨column,.integer,false,.null⟩
def blob (column : ColumnName) : Column ColumnName := ⟨column,.blob,false,.null⟩
def required (column : Column ColumnName) : Column ColumnName := {column with notNull := true}
def preset (value : Value) (column : Column ColumnName) : Column ColumnName := {column with default := value}

def primaryKey (columns : List ColumnName) : Unique TableName ColumnName := ⟨true,none,columns,none⟩
def unique (columns : List ColumnName) : Unique TableName ColumnName := ⟨false,none,columns,none⟩
def reference (column : ColumnName) (parent : TableName) (cascade : Bool) : Reference TableName ColumnName :=
  ⟨column,parent,column,cascade⟩

def nodes : ManifestShape where
  columns := [text .nodeId,text .parentId,required (text .nodeType),required (text .name),required (integer .createdAt),
    required (integer .modifiedAt),required (integer .sizeBytes),blob .fileKeyWrapped]
  uniques := [primaryKey [.nodeId]]
  checks := [.isIn .nodeType [word "file",word "directory"],
    .either (.both (.isIn .nodeType [word "file"]) (.notNull .fileKeyWrapped))
      (.both (.isIn .nodeType [word "directory"]) (.isNull .fileKeyWrapped))]
  references := [⟨.parentId,.nodes,.nodeId,true⟩]

def chunks : ManifestShape where
  columns := [text .chunkId,required (text .nodeId),required (integer .chunkIndex),required (text .blobName),
    required (integer .sizePadded),required (blob .blake3Checksum)]
  uniques := [primaryKey [.chunkId],unique [.nodeId,.chunkIndex],unique [.blobName]]
  references := [reference .nodeId .nodes true]

def manifestMeta : ManifestShape where
  columns := [text .key,required (text .value)]
  uniques := [primaryKey [.key]]

-- A primary key of text can be null.
def pendingDeletions : ManifestShape where
  columns := [text .blobName,required (integer .queuedAt)]
  uniques := [primaryKey [.blobName]]

def destinationSessions : ManifestShape where
  columns := [text .destinationId,required (text .label),required (text .destinationType),
    required (text .rcloneRemoteName),required (text .rcloneConfigBlob),preset (word "") (required (text .bucket)),
    preset (word "") (required (text .pathPrefix)),preset (.integer 0) (required (integer .isPrimary)),
    text .backupMode,required (integer .createdAt)]
  uniques := [primaryKey [.destinationId]]
  checks := [.isIn .destinationType [word "cloud",word "external_drive",word "local_path"],
    .isIn .isPrimary [.integer 0,.integer 1],
    .either (.isNull .backupMode) (.isIn .backupMode [word "mirror",word "accumulating"])]

def contacts : ManifestShape where
  columns := [text .contactId,required (text .displayName),text .email,required (blob .publicKey),
    required (integer .createdAt)]
  uniques := [primaryKey [.contactId]]

-- Vaults from before version 9 have no cascade here.
def shares (cascade : Bool) : ManifestShape where
  columns := [text .shareId,required (text .fileId),required (text .contactId),required (text .fileShareId),
    required (text .cloudPath),required (integer .createdAt),integer .expiresAt,integer .revokedAt]
  uniques := [primaryKey [.shareId]]
  references := [⟨.fileId,.nodes,.nodeId,cascade⟩,reference .contactId .contacts false]

def receivedShares : ManifestShape where
  columns := [text .shareId,text .senderContactId,required (blob .senderPublicKey),required (text .fileId),
    required (text .fileName),required (blob .fileKeyWrapped),required (integer .chunkCount),
    required (integer .chunkSize),required (text .chunkUuids),required (text .cloudEndpoint),integer .expiresAt,
    required (integer .importedAt)]
  uniques := [primaryKey [.shareId]]
  checks := [.valid .chunkUuids,.valid .cloudEndpoint]
  references := [⟨.senderContactId,.contacts,.contactId,false⟩]

-- An integer primary key is the row's number and never null.
def vaultIdentity : ManifestShape where
  columns := [required (integer .id),required (blob .publicKey),required (blob .wrappedPrivateKey)]
  uniques := [primaryKey [.id],unique [.publicKey]]
  checks := [.isIn .id [.integer 1]]

def canonicalSchema (cascade : Bool) : Schema TableName ColumnName :=
  [(.nodes,nodes),(.chunks,chunks),(.manifestMeta,manifestMeta),(.pendingDeletions,pendingDeletions),
    (.destinationSessions,destinationSessions),(.contacts,contacts),(.shares,shares cascade),
    (.receivedShares,receivedShares),(.vaultIdentity,vaultIdentity)]

def epochBlobs : ManifestShape where
  columns := [text .epochBlobId,required (text .blobName),required (blob .fileKeyWrapped),required (integer .sizePadded),
    required (blob .blake3Checksum)]
  uniques := [primaryKey [.epochBlobId],unique [.blobName]]

def chunksNew : ManifestShape where
  columns := [text .chunkId,required (text .nodeId),required (integer .chunkIndex),text .blobName,
    required (integer .sizePadded),required (blob .blake3Checksum),text .epochBlobId,integer .byteOffset,
    integer .byteLength]
  uniques := [primaryKey [.chunkId],unique [.nodeId,.chunkIndex]]
  checks := [.either
    (.both (.notNull .blobName) (.both (.isNull .epochBlobId) (.both (.isNull .byteOffset) (.isNull .byteLength))))
    (.both (.isNull .blobName) (.both (.notNull .epochBlobId) (.both (.notNull .byteOffset) (.notNull .byteLength))))]
  references := [reference .nodeId .nodes true,reference .epochBlobId .epochBlobs false]

def epochBuffer : ManifestShape where
  columns := [text .entryId,required (text .nodeId),required (blob .plaintext),required (integer .sizeBytes),
    required (integer .queuedAt)]
  uniques := [primaryKey [.entryId]]
  references := [reference .nodeId .nodes true]

def backupUploadFailures : ManifestShape where
  columns := [required (text .blobName),required (text .destinationId),required (integer .failedAt),
    preset (.integer 0) (required (integer .retryCount))]
  uniques := [primaryKey [.blobName,.destinationId]]

def pendingBackup : ManifestShape where
  columns := [required (text .blobName),required (text .destinationId)]
  uniques := [primaryKey [.blobName,.destinationId]]

def sharingConfig : ManifestShape where
  columns := [text .configId,text .destinationId,required (text .provider),required (text .configJson),
    required (integer .createdAt),required (integer .updatedAt)]
  uniques := [primaryKey [.configId]]
  checks := [.isIn .provider [word "gdrive"],.valid .configJson]

def sharesNew : ManifestShape where
  columns := [text .shareId,required (text .fileId),required (text .contactId),required (text .fileShareId),
    required (text .cloudPath),required (integer .createdAt),integer .expiresAt,integer .revokedAt,text .downloadKeyId,
    preset (.integer 0) (required (integer .receiptRequested)),integer .receiptReceivedAt,
    integer .importReceiptReceivedAt,text .downloadFolderId]
  uniques := [primaryKey [.shareId]]
  references := [⟨.fileId,.nodes,.nodeId,true⟩,reference .contactId .contacts false]

def fileShares : ManifestShape where
  columns := [text .fileShareId,required (text .shareFileId),required (blob .shareFileKeyWrapped),
    required (text .chunkUuids),required (integer .chunkSize),required (integer .fileSize),required (text .fileName),
    required (integer .createdAt)]
  uniques := [primaryKey [.fileShareId]]
  checks := [.valid .chunkUuids]

def setVersion (version : String) : ManifestStatement :=
  .updateWhere .manifestMeta .value (word version) (.isIn .key [word "schema_version"])

-- A migration does nothing at the versions it lists.
structure Migration where
  done : List String
  statements : List ManifestStatement

def applyEpochV2Migration : Migration where
  done := ["2","3","4","5","6","7","8","9","10"]
  statements := [.createTable .epochBlobs epochBlobs false,.createTable .chunksNew chunksNew false,
    .createUniqueIndex .idxChunksBlobName .chunksNew [.blobName] (some (.notNull .blobName)),
    .insertSelect .chunksNew (some [.chunkId,.nodeId,.chunkIndex,.blobName,.sizePadded,.blake3Checksum])
      [.chunkId,.nodeId,.chunkIndex,.blobName,.sizePadded,.blake3Checksum] .chunks,
    .dropTable .chunks,.renameTable .chunksNew .chunks,.createTable .epochBuffer epochBuffer true,setVersion "2"]

def applySharingV3Migration : Migration where
  done := ["3","4","5","6","7","8","9","10"]
  statements := [.addColumn .shares (text .downloadKeyId),
    .addColumn .shares (preset (.integer 0) (required (integer .receiptRequested))),
    .addColumn .shares (integer .receiptReceivedAt),setVersion "3"]

def applySharingV4Migration : Migration where
  done := ["4","5","6","7","8","9","10"]
  statements := [.addColumn .shares (integer .importReceiptReceivedAt),setVersion "4"]

def applyBackupV5Migration : Migration where
  done := ["5","6","7","8","9","10"]
  statements := [.createTable .backupUploadFailures backupUploadFailures true,setVersion "5"]

def applyPendingBackupV6Migration : Migration where
  done := ["6","7","8","9","10"]
  statements := [.createTable .pendingBackup pendingBackup true,setVersion "6"]

def applyDeviceIdV7Migration : Migration where
  done := ["7","8","9","10"]
  statements := [.addColumn .destinationSessions (text .deviceId),setVersion "7"]

def applyGdriveSharingV8Migration : Migration where
  done := ["8","9","10"]
  statements := [.createTable .sharingConfig sharingConfig true,.addColumn .shares (text .downloadFolderId),setVersion "8"]

def applySharesCascadeV9Migration : Migration where
  done := ["9","10"]
  statements := [.deleteWhere .pendingDeletions (.isNull .blobName),.createTable .sharesNew sharesNew false,
    .insertSelect .sharesNew none [.shareId,.fileId,.contactId,.fileShareId,.cloudPath,.createdAt,.expiresAt,.revokedAt,
      .downloadKeyId,.receiptRequested,.receiptReceivedAt,.importReceiptReceivedAt,.downloadFolderId] .shares,
    .dropTable .shares,.renameTable .sharesNew .shares,setVersion "9"]

def applyFileSharesV10Migration : Migration where
  done := ["10"]
  statements := [.createTable .fileShares fileShares false,setVersion "10"]

def migrations : List Migration :=
  [applyEpochV2Migration,applySharingV3Migration,applySharingV4Migration,applyBackupV5Migration,
    applyPendingBackupV6Migration,applyDeviceIdV7Migration,applyGdriveSharingV8Migration,applySharesCascadeV9Migration,
    applyFileSharesV10Migration]

-- SQLite as the code meets it: its reader of JSON, the errors it answers with, and
-- what the integrity checks report.
structure Engine where
  valid : Value → Bool
  refusal : ManifestStatement → StorageError
  unreadable : StorageError
  parsesUuid : Text → Bool
  report : Manifest → String

-- Which step fails, and how.
abbrev Faults := Nat → Option StorageError

def attempt (faults : Faults) (step : Nat) : Except StorageError Unit :=
  match faults step with
  | some error => .error error
  | none => .ok ()

variable (engine : Engine)

def manifestMetaValue (db : Manifest) (key : String) : Except StorageError Text :=
  if (names db.schema).contains .manifestMeta then
    match (db.rows .manifestMeta).find? (fun row => row .key = word key) with
    | none => .error (.database ("missing manifest_meta key: " ++ key))
    | some row => match row .value with
      | .text content => .ok content
      | _ => .error engine.unreadable
  else .error engine.unreadable

def executeBatch (faults : Faults) : Nat → List ManifestStatement → Manifest → Except StorageError Manifest
  | _,[],db => .ok db
  | step,statement :: rest,db => do
    attempt faults step
    let next ← given (statement.exec engine.valid db) (engine.refusal statement)
    executeBatch faults (step + 1) rest next

-- `BEGIN IMMEDIATE`, the version, the statements, `COMMIT`.
def Migration.body (migration : Migration) (faults : Faults) (db : Manifest) : Except StorageError Manifest := do
  attempt faults 0
  attempt faults 1
  let version ← manifestMetaValue engine db "schema_version"
  if migration.done.any (·.toList = version) then
    attempt faults 2
    pure db
  else
    let next ← executeBatch engine faults 2 migration.statements db
    attempt faults (2 + migration.statements.length)
    pure next

-- What is not committed is gone when the connection closes.
def Migration.apply (migration : Migration) (faults : Faults) (db : Manifest) : Manifest × Except StorageError Unit :=
  match migration.body engine faults db with
  | .ok next => (next,.ok ())
  | .error error => (db,.error error)

def migrate (faults : Nat → Faults) : Nat → List Migration → Manifest → Manifest × Except StorageError Unit
  | _,[],db => (db,.ok ())
  | number,migration :: rest,db =>
    match migration.apply engine (faults number) db with
    | (next,.ok ()) => migrate faults (number + 1) rest next
    | (next,.error error) => (next,.error error)

def validateSchemaIntegrity (db : Manifest) : Except StorageError Unit := do
  ensure (∀ entry ∈ db.schema, (∀ row ∈ db.rows entry.1, entry.2.rowFits engine.valid row = true) ∧
      ∀ unique ∈ entry.2.uniques, unique.Holds engine.valid (db.rows entry.1))
    (.database ("schema integrity check failed: " ++ engine.report db))
  ensure (∀ entry ∈ db.schema, ∀ row ∈ db.rows entry.1, ∀ reference ∈ entry.2.references,
      reference.holds db.rows row = true)
    (.database ("schema foreign key check failed: " ++ engine.report db))

-- `u64` is read like `usize`.
def parseChunkSizeBytes (value : Text) : Except StorageError Nat := do
  let chunkSize ← given (parseUsize value) (.database "invalid chunk_size_bytes: not an integer")
  Store.Operations.parseChunkSizeBytes chunkSize
  pure chunkSize

def validateManifestMeta (db : Manifest) : Except StorageError Unit := do
  let schemaVersion ← manifestMetaValue engine db "schema_version"
  ensure (["1","2","3","4","5","6","7","8","9","10"].any (·.toList = schemaVersion) = true)
    (.database "invalid schema_version: expected 1, 2, 3, 4, 5, 6, 7, 8, 9, or 10")
  let vaultId ← manifestMetaValue engine db "vault_id"
  ensure (engine.parsesUuid vaultId = true) (.database "invalid vault_id: not a UUID")
  let snapshotCounter ← manifestMetaValue engine db "snapshot_counter"
  ensure ((parseUsize snapshotCounter).isSome = true) (.database "invalid snapshot_counter: not an unsigned integer")
  let chunkSize ← manifestMetaValue engine db "chunk_size_bytes"
  let _ ← parseChunkSizeBytes chunkSize
  let epochBufferEnabled ← manifestMetaValue engine db "epoch_buffer_enabled"
  ensure ("true".toList = epochBufferEnabled ∨ "false".toList = epochBufferEnabled)
    (.database "invalid epoch_buffer_enabled: expected true|false")

def andThen (first : Manifest × Except StorageError Unit) (next : Manifest → Manifest × Except StorageError Unit) :
    Manifest × Except StorageError Unit :=
  match first with
  | (db,.ok ()) => next db
  | (db,.error error) => (db,.error error)

-- What is left of the manifest, and the answer.
def openStore (faults : Nat → Faults) (db : Manifest) : Manifest × Except StorageError Unit :=
  andThen (db,attempt (faults 0) 0) fun db =>
  andThen (migrate engine faults 1 migrations db) fun db =>
  (db,do validateSchemaIntegrity engine db; validateManifestMeta engine db)

-- Outside a transaction every statement stands for itself.
def autocommit (faults : Faults) : Nat → List ManifestStatement → Manifest → Manifest × Except StorageError Unit
  | _,[],db => (db,.ok ())
  | step,statement :: rest,db =>
    match do attempt faults step; given (statement.exec engine.valid db) (engine.refusal statement) with
    | .ok next => autocommit faults (step + 1) rest next
    | .error error => (db,.error error)

def canonicalStatements : List ManifestStatement :=
  (canonicalSchema true).map fun entry => .createTable entry.1 entry.2 false

def metaRow (key : String) (content : Text) : ManifestRow
  | .key => word key
  | .value => .text content
  | _ => .null

-- `INSERT OR IGNORE`
def insertOrIgnore (key : String) (content : Text) (db : Manifest) : Manifest :=
  if (db.rows .manifestMeta).any (fun row => row .key = word key) then db
  else {db with rows := Function.update db.rows .manifestMeta (db.rows .manifestMeta ++ [metaRow key content])}

structure Vault where
  vaultId : Text
  chunkSizeBytes : Text
  epochBufferEnabled : Bool

def Vault.flag (vault : Vault) : Text := if vault.epochBufferEnabled then "true".toList else "false".toList

def Vault.seeds (vault : Vault) : List (String × Text) :=
  [("schema_version","1".toList),("snapshot_counter","0".toList),("vault_id",vault.vaultId),
    ("chunk_size_bytes",vault.chunkSizeBytes),("epoch_buffer_enabled",vault.flag)]

def seedManifestMeta (faults : Faults) : Nat → List (String × Text) → Manifest → Manifest × Except StorageError Unit
  | _,[],db => (db,.ok ())
  | step,(key,content) :: rest,db =>
    match attempt faults step with
    | .ok () => seedManifestMeta faults (step + 1) rest (insertOrIgnore key content db)
    | .error error => (db,.error error)

def validateImmutableMeta (db : Manifest) (key : String) (expected : Text) : Except StorageError Unit := do
  let actual ← manifestMetaValue engine db key
  ensure (expected = actual) (.constraintViolation ("immutable manifest_meta mismatch for `" ++ key ++ "`"))

def validateCreateImmutableMetaMatches (vault : Vault) (db : Manifest) : Except StorageError Unit := do
  validateImmutableMeta engine db "vault_id" vault.vaultId
  validateImmutableMeta engine db "chunk_size_bytes" vault.chunkSizeBytes
  validateImmutableMeta engine db "epoch_buffer_enabled" vault.flag

def createStore (faults : Nat → Faults) (vault : Vault) (db : Manifest) : Manifest × Except StorageError Unit :=
  andThen (db,attempt (faults 0) 0) fun db =>
  andThen (autocommit engine (faults 11) 0 canonicalStatements db) fun db =>
  andThen (seedManifestMeta (faults 12) 0 vault.seeds db) fun db =>
  andThen (migrate engine faults 1 migrations db) fun db =>
  (db,do validateSchemaIntegrity engine db; validateManifestMeta engine db; validateCreateImmutableMetaMatches engine vault db)

end ArxRuna.Store.Schema
