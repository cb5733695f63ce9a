import ArxRuna.Store.Tables
namespace ArxRuna.Store.Operations
open Library.Aead Library.Closure Library.Fallible Crypto Store.Tables

-- Every operation here is one transaction: an error leaves the manifest of the
-- caller in place, so the error side carries no manifest.
def toI64 (value : Nat) : Except StorageError Unit :=
  ensure (value < 2 ^ 63) (.database "out of range integral type conversion attempted")

def validateParentType : Option NodeType → Except StorageError Unit
  | some .directory => .ok ()
  | some .file => .error (.constraintViolation "parent must be a directory")
  | none => .error (.constraintViolation "missing parent node_id")

def ensureParentIsDirectoryForInsert (m : Manifest) (node : Node) : Except StorageError Unit :=
  match node.parentId with
  | none => .ok ()
  | some parent =>
    if parent = node.nodeId then .error (.constraintViolation "node cannot be its own parent")
    else validateParentType ((m.node? parent).map (·.nodeType))

def checkOfNodes : String :=
  "(node_type = 'file'      AND file_key_wrapped IS NOT NULL)\n" ++
  "                             OR (node_type = 'directory' AND file_key_wrapped IS NULL)"

def insertNodeTx (m : Manifest) (node : Node) : Except StorageError Manifest := do
  ensureParentIsDirectoryForInsert m node
  toI64 node.sizeBytes
  ensure ((node.nodeType = .file) ↔ node.fileKeyWrapped.isSome)
    (.constraintViolation ("CHECK constraint failed: " ++ checkOfNodes))
  ensure (m.node? node.nodeId = none) (.constraintViolation "UNIQUE constraint failed: nodes.node_id")
  pure {m with nodes := m.nodes ++ [node]}

def insertChunkRow (m : Manifest) (row : ChunkRow) : Except StorageError Manifest := do
  toI64 row.sizePadded
  match row.source with
  | .flat name =>
    ensure (∀ other ∈ m.chunks, other.source ≠ .flat name)
      (.constraintViolation "UNIQUE constraint failed: chunks.blob_name")
  | .epoch blobId offset length =>
    toI64 offset
    toI64 length
    ensure ((m.epochBlob? blobId).isSome) (.constraintViolation "FOREIGN KEY constraint failed")
  ensure (∀ other ∈ m.chunks, other.chunkId ≠ row.chunkId)
    (.constraintViolation "UNIQUE constraint failed: chunks.chunk_id")
  ensure (∀ other ∈ m.chunks, ¬ (other.nodeId = row.nodeId ∧ other.chunkIndex = row.chunkIndex))
    (.constraintViolation "UNIQUE constraint failed: chunks.node_id, chunks.chunk_index")
  ensure ((m.node? row.nodeId).isSome) (.constraintViolation "FOREIGN KEY constraint failed")
  pure {m with chunks := m.chunks ++ [row]}

def parseChunkSizeBytes (chunkSize : Nat) : Except StorageError Unit :=
  ensure (131072 ≤ chunkSize ∧ chunkSize ≤ 67108864) (.database "invalid chunk_size_bytes: out of range")

def validateSizePaddedMatchesChunkSize (sizePadded chunkSize : Nat) : Except StorageError Unit :=
  ensure (sizePadded = chunkSize) (.constraintViolation
    ("invalid size_padded: expected chunk_size_bytes " ++ toString chunkSize ++ ", got " ++ toString sizePadded))

def validateChunkTargetNode : Option NodeType → Except StorageError Unit
  | some .file => .ok ()
  | some .directory =>
    .error (.constraintViolation "chunks can only target file nodes; directory node_id provided")
  | none => .error (.constraintViolation "missing node_id for chunk insert")

def insertFileChunk (node : Node) (m : Manifest) (chunk : ChunkRecord) : Except StorageError Manifest := do
  ensure (chunk.nodeId = node.nodeId)
    (.constraintViolation "chunk node_id does not match inserted file node")
  validateSizePaddedMatchesChunkSize chunk.sizePadded m.manifestMeta.chunkSizeBytes
  validateChunkTargetNode (some node.nodeType)
  insertChunkRow m ⟨chunk.chunkId,chunk.nodeId,chunk.chunkIndex,.flat chunk.blobName,chunk.sizePadded,
    chunk.blake3Checksum⟩

def insertFileWithChunks (m : Manifest) (node : Node) (chunks : List ChunkRecord) :
    Except StorageError Manifest := do
  let inserted ← insertNodeTx m node
  parseChunkSizeBytes m.manifestMeta.chunkSizeBytes
  chunks.foldlM (insertFileChunk node) inserted

def insertFileNodeAndStageEpochEntry (m : Manifest) (node : Node) (plaintext : Bytes)
    (entryId : Uuid) (queuedAt : Int) : Except StorageError Manifest := do
  let inserted ← insertNodeTx m node
  toI64 plaintext.length
  ensure (∀ entry ∈ m.epochBuffer, entry.entryId ≠ entryId)
    (.constraintViolation "UNIQUE constraint failed: epoch_buffer.entry_id")
  pure {inserted with
    epochBuffer := m.epochBuffer ++ [⟨entryId,node.nodeId,plaintext,plaintext.length,queuedAt⟩]}

structure Extent where
  nodeId : Uuid
  chunkIndex : Nat
  byteOffset : Nat
  byteLength : Nat
  deriving DecidableEq, Repr

def insertEpochBlobRow (m : Manifest) (record : EpochBlobRecord) : Except StorageError Manifest := do
  toI64 record.sizePadded
  ensure (m.epochBlob? record.epochBlobId = none)
    (.constraintViolation "UNIQUE constraint failed: epoch_blobs.epoch_blob_id")
  ensure (∀ other ∈ m.epochBlobs, other.blobName ≠ record.blobName)
    (.constraintViolation "UNIQUE constraint failed: epoch_blobs.blob_name")
  pure {m with epochBlobs := m.epochBlobs ++ [record]}

def epochRows (record : EpochBlobRecord) (newV4 : Nat → Uuid) (extents : List Extent) : List ChunkRow :=
  extents.zipIdx.map fun (extent,i) => ⟨newV4 i,extent.nodeId,extent.chunkIndex,
    .epoch record.epochBlobId extent.byteOffset extent.byteLength,record.sizePadded,record.blake3Checksum⟩

def reinsertEpochBlob (m : Manifest) (record : EpochBlobRecord) (extents : List Extent)
    (newV4 : Nat → Uuid) : Except StorageError Manifest := do
  let inserted ← insertEpochBlobRow m record
  (epochRows record newV4 extents).foldlM insertChunkRow inserted

def commitEpochFlush (m : Manifest) (record : EpochBlobRecord) (extents : List Extent)
    (newV4 : Nat → Uuid) : Except StorageError Manifest := do
  let inserted ← insertEpochBlobRow m record
  let packed ← (epochRows record newV4 extents).foldlM insertChunkRow inserted
  pure {packed with epochBuffer := []}

def renameNode (m : Manifest) (id : Uuid) (name : String) (modifiedAt : Int) : Except StorageError Manifest :=
  if (m.node? id).isSome then
    .ok {m with nodes := m.nodes.map fun node =>
      if node.nodeId = id then {node with name := name,modifiedAt := modifiedAt} else node}
  else .error .notFound

def ensureMoveRespectsHierarchy (m : Manifest) (id : Uuid) (newParent : Option Uuid) :
    Except StorageError Unit := do
  ensure ((m.node? id).isSome) .notFound
  match newParent with
  | none => pure ()
  | some parent =>
    ensure (parent ≠ id) (.constraintViolation "node cannot be its own parent")
    validateParentType ((m.node? parent).map (·.nodeType))
    ensure (parent ∉ subtree m id) (.constraintViolation "move would create a cycle")

def moveNode (m : Manifest) (id : Uuid) (newParent : Option Uuid) (modifiedAt : Int) :
    Except StorageError Manifest := do
  ensureMoveRespectsHierarchy m id newParent
  pure {m with nodes := m.nodes.map fun node =>
    if node.nodeId = id then {node with parentId := newParent,modifiedAt := modifiedAt} else node}

def enqueue (queuedAt : Int) (queue : List PendingDeletion) (name : BlobName) : List PendingDeletion :=
  if name ∈ queue.map (·.blobName) then queue else queue ++ [⟨name,queuedAt⟩]

-- The names the first statement of `delete_node` selects.
def orphanedNames (m : Manifest) (gone : List Uuid) : List BlobName :=
  let rows := m.chunks.filter fun row => row.nodeId ∈ gone
  rows.filterMap flatName ++ (m.epochBlobs.filter fun record =>
    (∃ row ∈ rows, epochIdOf row = some record.epochBlobId) ∧
      ∀ row ∈ m.chunks, epochIdOf row = some record.epochBlobId → row.nodeId ∈ gone).map (·.blobName)

-- Deleting the node row cascades over its subtree and over the rows that point
-- into it; the last statement drops every epoch blob no chunk refers to.
def deleteNode (m : Manifest) (id : Uuid) (now : Int) : Except StorageError Manifest :=
  if (m.node? id).isSome then
    let gone := subtree m id
    let chunks := m.chunks.filter fun row => row.nodeId ∉ gone
    .ok {m with
      nodes := m.nodes.filter fun node => node.nodeId ∉ gone
      chunks := chunks
      epochBlobs := m.epochBlobs.filter fun record => ∃ row ∈ chunks, epochIdOf row = some record.epochBlobId
      epochBuffer := m.epochBuffer.filter fun entry => entry.nodeId ∉ gone
      pendingDeletions := (orphanedNames m gone).foldl (enqueue now) m.pendingDeletions}
  else .error .notFound

def markDeletionComplete (m : Manifest) (name : BlobName) : Manifest :=
  {m with pendingDeletions := m.pendingDeletions.filter (·.blobName ≠ name)}

def incrementSnapshotCounter (m : Manifest) : Except StorageError Manifest :=
  if m.manifestMeta.snapshotCounter + 1 < 2 ^ 64 then
    .ok {m with manifestMeta := {m.manifestMeta with snapshotCounter := m.manifestMeta.snapshotCounter + 1}}
  else .error (.database "invalid snapshot_counter: overflow")

def rollbackSnapshotCounter (m : Manifest) (previous : Nat) : Except StorageError Manifest :=
  if previous + 1 < 2 ^ 64 then
    if m.manifestMeta.snapshotCounter = previous + 1 then
      .ok {m with manifestMeta := {m.manifestMeta with snapshotCounter := previous}}
    else .error (.database "snapshot_counter rollback precondition violated")
  else .error (.database "invalid snapshot_counter: overflow")

end ArxRuna.Store.Operations
