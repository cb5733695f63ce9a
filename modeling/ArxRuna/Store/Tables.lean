import ArxRuna.Library.Closure
import ArxRuna.Crypto
namespace ArxRuna.Store.Tables
open Library.Aead Library.Closure Library.Fallible Crypto

-- Blob names are hyphenated version 4 identifiers wherever they enter the store.
abbrev BlobName := Uuid

inductive NodeType where
  | file
  | directory
  deriving DecidableEq, Repr

structure Node where
  nodeId : Uuid
  parentId : Option Uuid
  nodeType : NodeType
  name : String
  createdAt : Int
  modifiedAt : Int
  sizeBytes : Nat
  fileKeyWrapped : Option WrappedFileKey
  deriving DecidableEq

-- The CHECK of the chunks table: a row is flat, or it is an extent of an epoch blob.
inductive ChunkSource where
  | flat (blobName : BlobName)
  | epoch (epochBlobId : Uuid) (byteOffset byteLength : Nat)
  deriving DecidableEq, Repr

structure ChunkRow where
  chunkId : Uuid
  nodeId : Uuid
  chunkIndex : Nat
  source : ChunkSource
  sizePadded : Nat
  blake3Checksum : Bytes
  deriving DecidableEq, Repr

-- What `get_chunks` returns: the blob name is resolved through the epoch blob.
structure ChunkRecord where
  chunkId : Uuid
  nodeId : Uuid
  chunkIndex : Nat
  blobName : BlobName
  sizePadded : Nat
  blake3Checksum : Bytes
  epochBlobId : Option Uuid
  byteOffset : Option Nat
  byteLength : Option Nat
  deriving DecidableEq, Repr

structure EpochBlobRecord where
  epochBlobId : Uuid
  blobName : BlobName
  fileKeyWrapped : Bytes
  sizePadded : Nat
  blake3Checksum : Bytes
  deriving DecidableEq, Repr

structure EpochBufferEntry where
  entryId : Uuid
  nodeId : Uuid
  plaintext : Bytes
  sizeBytes : Nat
  queuedAt : Int
  deriving DecidableEq, Repr

structure PendingDeletion where
  blobName : BlobName
  queuedAt : Int
  deriving DecidableEq, Repr

structure ManifestMeta where
  vaultId : Uuid
  snapshotCounter : Nat
  lastSyncedAt : Option Int
  chunkSizeBytes : Nat
  epochBufferEnabled : Bool
  rootId : Option Uuid
  deriving DecidableEq, Repr

structure Manifest where
  nodes : List Node
  chunks : List ChunkRow
  epochBlobs : List EpochBlobRecord
  epochBuffer : List EpochBufferEntry
  pendingDeletions : List PendingDeletion
  manifestMeta : ManifestMeta
  deriving DecidableEq

inductive StorageError where
  | database (text : String)
  | notFound
  | checksumMismatch
  | decryptionFailed
  | io (text : String)
  | constraintViolation (text : String)
  deriving DecidableEq, Repr

def StorageError.fromCrypto : CryptoError → StorageError
  | .checksumMismatch => .checksumMismatch
  | .decryptionFailed => .decryptionFailed
  | .invalidBlobFormat _ _ => .database "invalid blob format"

def Manifest.node? (m : Manifest) (id : Uuid) : Option Node := m.nodes.find? (·.nodeId = id)

def Manifest.epochBlob? (m : Manifest) (id : Uuid) : Option EpochBlobRecord :=
  m.epochBlobs.find? (·.epochBlobId = id)

def getNode (m : Manifest) (id : Uuid) : Except StorageError Node :=
  match m.node? id with
  | none => .error .notFound
  | some node => .ok node

def getEpochBlob (m : Manifest) (id : Uuid) : Except StorageError EpochBlobRecord :=
  match m.epochBlob? id with
  | none => .error .notFound
  | some record => .ok record

def listChildren (m : Manifest) (parent : Uuid) : List Node :=
  (m.nodes.filter (·.parentId = some parent)).insertionSort fun a b => a.name ≤ b.name

-- COALESCE over the left join; a dangling epoch row would read as a NULL name.
def ChunkRow.resolve (m : Manifest) (row : ChunkRow) : Except StorageError ChunkRecord :=
  match row.source with
  | .flat name =>
    .ok ⟨row.chunkId,row.nodeId,row.chunkIndex,name,row.sizePadded,row.blake3Checksum,none,none,none⟩
  | .epoch id offset length =>
    match m.epochBlob? id with
    | none => .error (.database "Invalid column type Null at index: 3, name: blob_name")
    | some record =>
      .ok ⟨row.chunkId,row.nodeId,row.chunkIndex,record.blobName,row.sizePadded,row.blake3Checksum,
        some id,some offset,some length⟩

def chunkRowsOf (m : Manifest) (id : Uuid) : List ChunkRow :=
  (m.chunks.filter (·.nodeId = id)).insertionSort fun a b => a.chunkIndex ≤ b.chunkIndex

def getChunks (m : Manifest) (id : Uuid) : Except StorageError (List ChunkRecord) :=
  (chunkRowsOf m id).mapM (ChunkRow.resolve m)

def getEpochBufferEntries (m : Manifest) : List EpochBufferEntry :=
  m.epochBuffer.insertionSort fun a b => a.queuedAt ≤ b.queuedAt

def flatName (row : ChunkRow) : Option BlobName :=
  match row.source with
  | .flat name => some name
  | .epoch _ _ _ => none

def epochIdOf (row : ChunkRow) : Option Uuid :=
  match row.source with
  | .flat _ => none
  | .epoch id _ _ => some id

-- `list_sync_chunks` and `list_all_blob_names` read the same names.
def listAllBlobNames (m : Manifest) : List BlobName :=
  m.chunks.filterMap flatName ++ m.epochBlobs.map (·.blobName)

def parentEdges (m : Manifest) : Edges Uuid :=
  m.nodes.filterMap fun node => node.parentId.map fun parent => (parent,node.nodeId)

-- The recursive query over `parent_id`, the node itself included.
def subtree (m : Manifest) (id : Uuid) : List Uuid :=
  if (m.node? id).isSome then closure (parentEdges m) [id] else []

variable {m : Manifest} {id : Uuid}

theorem node?_mem (found : m.node? id = some node) : node ∈ m.nodes ∧ node.nodeId = id := by
  have := List.find?_some found
  exact ⟨List.mem_of_find?_eq_some found,by simpa using this⟩

theorem node?_isSome : (m.node? id).isSome ↔ ∃ node ∈ m.nodes, node.nodeId = id := by
  simp [Manifest.node?,List.find?_isSome]

theorem node?_none : m.node? id = none ↔ ∀ node ∈ m.nodes, node.nodeId ≠ id := by
  simp [Manifest.node?,List.find?_eq_none]

theorem epochBlob?_mem (found : m.epochBlob? id = some record) :
    record ∈ m.epochBlobs ∧ record.epochBlobId = id := by
  have := List.find?_some found
  exact ⟨List.mem_of_find?_eq_some found,by simpa using this⟩

theorem epochBlob?_none :
    m.epochBlob? id = none ↔ ∀ record ∈ m.epochBlobs, record.epochBlobId ≠ id := by
  simp [Manifest.epochBlob?,List.find?_eq_none]

theorem mem_getEpochBufferEntries : entry ∈ getEpochBufferEntries m ↔ entry ∈ m.epochBuffer :=
  (List.perm_insertionSort _ _).mem_iff

theorem mem_chunkRowsOf : row ∈ chunkRowsOf m id ↔ row ∈ m.chunks ∧ row.nodeId = id := by
  rw [chunkRowsOf,(List.perm_insertionSort _ _).mem_iff]
  simp

theorem mem_listAllBlobNames : name ∈ listAllBlobNames m ↔
    (∃ row ∈ m.chunks, row.source = .flat name) ∨ ∃ record ∈ m.epochBlobs, record.blobName = name := by
  simp only [listAllBlobNames,List.mem_append,List.mem_filterMap,List.mem_map]
  have flat (row : ChunkRow) : flatName row = some name ↔ row.source = .flat name := by
    unfold flatName
    split <;> simp_all
  simp only [flat]

end ArxRuna.Store.Tables
