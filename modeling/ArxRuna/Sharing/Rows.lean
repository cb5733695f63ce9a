import ArxRuna.Sharing.RemotePath
namespace ArxRuna.Sharing.Rows
open Library.Fallible Crypto RemotePath

-- The texts of errors that come from other layers are not told apart.
inductive SharingError where
  | contactNotFound
  | backend (text : String)
  | authenticationFailed
  | invalidJsonPayload (text : String)
  | invalidFileKeyLength
  | invalidSenderPublicKeyLength
  | receivedShareNotFound
  | cloudOperation
  | notSupported (text : String)
  | revocationPartial (failedIndex : Nat)
  | shareNotFound
  | shareAlreadyRevoked
  | invalidSharePackage
  | malformedSharePackage (text : String)
  deriving DecidableEq, Repr

-- One row of `shares`. The last field is a column that only the receipt check reads.
structure ShareRecord where
  shareId : Uuid
  fileId : Uuid
  contactId : Uuid
  fileShareId : Uuid
  cloudPath : Text
  createdAt : Int
  expiresAt : Option Int
  revokedAt : Option Int
  downloadKeyId : Option String
  downloadFolderId : Option String
  receiptRequested : Bool
  receiptReceivedAt : Option Int
  importReceiptReceivedAt : Option Int
  deriving DecidableEq

-- One row of `file_shares`.
structure FileShareSnapshot where
  fileShareId : Uuid
  shareFileId : Uuid
  shareFileKeyWrapped : WrappedFileKey
  chunkUuids : List Uuid
  chunkSize : Nat
  fileSize : Nat
  fileName : String
  createdAt : Int

structure SharingTables where
  shares : List ShareRecord
  fileShares : List FileShareSnapshot

def ShareRecord.active (share : ShareRecord) : Bool := share.revokedAt.isNone

-- `ORDER BY created_at ASC, share_id ASC`
def earlier (a b : ShareRecord) : Prop := a.createdAt < b.createdAt ∨ (a.createdAt = b.createdAt ∧ a.shareId ≤ b.shareId)

instance : DecidableRel earlier := fun _ _ => inferInstanceAs (Decidable (_ ∨ _))

def SharingTables.listActiveSharesByFile (tables : SharingTables) (fileId : Uuid) : List ShareRecord :=
  (tables.shares.filter fun share => share.fileId = fileId ∧ share.active).insertionSort earlier

def SharingTables.listActiveSharesByFileShareId (tables : SharingTables) (fileShareId : Uuid) : List ShareRecord :=
  (tables.shares.filter fun share => share.fileShareId = fileShareId ∧ share.active).insertionSort earlier

def SharingTables.getShare (tables : SharingTables) (shareId : Uuid) : Except SharingError ShareRecord :=
  match tables.shares.find? (·.shareId = shareId) with
  | none => .error .shareNotFound
  | some share => .ok share

def SharingTables.getFileShare (tables : SharingTables) (fileShareId : Uuid) : Option FileShareSnapshot :=
  tables.fileShares.find? (·.fileShareId = fileShareId)

-- The primary keys refuse a second row.
def SharingTables.insertShare (tables : SharingTables) (share : ShareRecord) : Except SharingError SharingTables :=
  if share.shareId ∈ tables.shares.map (·.shareId) then .error (.backend "storage backend failure")
  else .ok {tables with shares := tables.shares ++ [share]}

def SharingTables.insertFileShare (tables : SharingTables) (snapshot : FileShareSnapshot) :
    Except SharingError SharingTables :=
  if snapshot.fileShareId ∈ tables.fileShares.map (·.fileShareId) then .error (.backend "storage backend failure")
  else .ok {tables with fileShares := tables.fileShares ++ [snapshot]}

def SharingTables.setShareRevokedAt (tables : SharingTables) (shareId : Uuid) (revokedAt : Int) :
    Except SharingError SharingTables := do
  let share ← tables.getShare shareId
  ensure (share.revokedAt = none) .shareAlreadyRevoked
  pure {tables with shares := tables.shares.map fun row =>
    if row.shareId = shareId then {row with revokedAt := some revokedAt} else row}

def SharingTables.deleteFileShare (tables : SharingTables) (fileShareId : Uuid) : SharingTables :=
  {tables with fileShares := tables.fileShares.filter (·.fileShareId ≠ fileShareId)}

-- `shared/{file_share_id}/`
def sharedFolder : Text := ['s','h','a','r','e','d']

def sharePrefix (fileShareId : Uuid) : Text := sharedFolder ++ '/' :: (hyphenated fileShareId ++ ['/'])

structure CreateShareRequest where
  fileId : Uuid
  contactId : Uuid
  expiresAt : Option Int
  nowUnixSeconds : Int

-- The row that `create_share` ends with.
def shareRecord (request : CreateShareRequest) (shareId fileShareId : Uuid) (downloadKeyId downloadFolderId : Option String) :
    ShareRecord :=
  {shareId := shareId,fileId := request.fileId,contactId := request.contactId,fileShareId := fileShareId,
   cloudPath := sharePrefix fileShareId,createdAt := request.nowUnixSeconds,expiresAt := request.expiresAt,
   revokedAt := none,downloadKeyId := downloadKeyId,downloadFolderId := downloadFolderId,receiptRequested := true,
   receiptReceivedAt := none,importReceiptReceivedAt := none}

theorem mem_active_by_file {tables : SharingTables} : share ∈ tables.listActiveSharesByFile fileId ↔
    share ∈ tables.shares ∧ share.fileId = fileId ∧ share.active := by
  rw [SharingTables.listActiveSharesByFile,List.mem_insertionSort,List.mem_filter]
  simp

theorem found_share {tables : SharingTables} (found : tables.getShare shareId = .ok share) :
    share ∈ tables.shares ∧ share.shareId = shareId := by
  unfold SharingTables.getShare at found
  split at found
  · cases found
  · rename_i row here
    cases found
    exact ⟨List.mem_of_find?_eq_some here,by simpa using List.find?_some here⟩

end ArxRuna.Sharing.Rows
