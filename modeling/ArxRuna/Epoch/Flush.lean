import ArxRuna.Library.Packing
import ArxRuna.Store.Integrity
import ArxRuna.Store.Staging
namespace ArxRuna.Epoch.Flush
open Library.Aead Library.Packing Library.Fallible Crypto Store.Tables Store.Operations Store.Effects
open Store.Integrity Store.Staging

-- The files of one blob, in the order they are packed.
abbrev Batch := List (Uuid × Bytes)

structure SealedBlob where
  record : EpochBlobRecord
  extents : List Extent
  bytes : Bytes

def splitEntries (chunkSize : Nat) (entries : List EpochBufferEntry) : List (List EpochBufferEntry) :=
  greedy (·.sizeBytes) chunkSize entries [] 0

def flushBatches (chunkSize : Nat) (entries : List EpochBufferEntry) : List Batch :=
  (splitEntries chunkSize entries).map fun bin => bin.map fun entry => (entry.nodeId,entry.plaintext)

def padTo (chunkSize : Nat) (packed : Bytes) : Bytes :=
  packed ++ List.replicate (chunkSize - packed.length) 0

variable (prims : Primitives) (kek : KeyEncryptionKey)

-- `flush_one_blob` up to the write of the blob file.
def sealBatch (chunkSize : Nat) (batch : Batch) (epochBlobId : Uuid) (fileKey : FileKey)
    (wrapNonce chunkNonce : Nonce) : SealedBlob :=
  let packed := layout batch
  let encrypted := encryptChunk prims (padTo chunkSize packed.1) fileKey epochBlobId 0 chunkNonce
  {record := {
      epochBlobId := epochBlobId
      blobName := epochBlobId
      fileKeyWrapped := (wrapFileKey prims fileKey epochBlobId kek wrapNonce).1
      sizePadded := encrypted.length
      blake3Checksum := computeChecksum prims encrypted}
   extents := packed.2.map fun (node,offset,length) => ⟨node,0,offset,length⟩
   bytes := encrypted}

-- The part of `decrypt_epoch_blob_to_slice` after the blob file has been read.
def openEpochBlob (record : EpochBlobRecord) (encrypted : Bytes) (offset length : Nat) :
    Except StorageError Bytes := do
  let verified ← (verifyChecksum prims encrypted record.blake3Checksum).mapError StorageError.fromCrypto
  match block 72 record.fileKeyWrapped with
  | none => .error (.database "epoch blob key_wrapped has wrong length")
  | some wrapped =>
    let fileKey ← (unwrapFileKey prims wrapped record.epochBlobId kek).mapError StorageError.fromCrypto
    let decrypted ← (decryptChunk prims verified fileKey record.epochBlobId 0).mapError StorageError.fromCrypto
    ensure (offset + length < 2 ^ 64) (.constraintViolation "byte_offset + byte_length overflow")
    ensure (offset + length ≤ decrypted.length)
      (.constraintViolation "epoch byte range exceeds decrypted blob length")
    pure (slice offset length decrypted)

def decryptEpochFileToMemory (files : Files) (m : Manifest) (chunk : ChunkRecord) :
    Except StorageError Bytes :=
  match chunk.byteLength,chunk.epochBlobId,chunk.byteOffset with
  | none,_,_ => .error (.constraintViolation "epoch chunk missing byte_length")
  | some _,none,_ => .error (.constraintViolation "chunk is not an epoch chunk")
  | some _,some _,none => .error (.constraintViolation "epoch chunk missing byte_offset")
  | some length,some id,some offset => do
    let record ← getEpochBlob m id
    let encrypted ← readBlob files record.blobName
    openEpochBlob prims kek record encrypted offset length

variable {prims : Primitives} {kek : KeyEncryptionKey} {m : Manifest}

theorem flush_batches_entries (chunkSize : Nat) (entries : List EpochBufferEntry) :
    (flushBatches chunkSize entries).flatten = entries.map fun entry => (entry.nodeId,entry.plaintext) := by
  unfold flushBatches splitEntries
  rw [← List.map_flatten,greedy_flatten]
  rfl

theorem open_sealed (small : offset + length < 2 ^ 64)
    (within : offset + length ≤ (layout batch).1.length) :
    openEpochBlob prims kek (sealBatch prims kek chunkSize batch blobId fileKey wrapNonce chunkNonce).record
      (sealBatch prims kek chunkSize batch blobId fileKey wrapNonce chunkNonce).bytes offset length =
      .ok (slice offset length (padTo chunkSize (layout batch).1)) := by
  have long : offset + length ≤ (padTo chunkSize (layout batch).1).length := by
    rw [padTo,List.length_append]
    omega
  simp only [openEpochBlob,sealBatch,verify_computed,block_val,unwrap_wrap,Except.mapError,bind_ok,
    ensure_ok,pure_ok]
  exact ⟨_,rfl,_,rfl,_,decrypt_encrypt .. ▸ rfl,(),small,(),long,rfl⟩

theorem sealed_size : (sealBatch prims kek chunkSize batch blobId fileKey wrapNonce chunkNonce).record.sizePadded =
    24 + max (layout batch).1.length chunkSize + 16 := by
  simp only [sealBatch,encryptChunk,sealWire_length,padTo,List.length_append,List.length_replicate]
  omega

theorem sealed_extent :
    extent ∈ (sealBatch prims kek chunkSize batch blobId fileKey wrapNonce chunkNonce).extents ↔
    extent.chunkIndex = 0 ∧ (extent.nodeId,extent.byteOffset,extent.byteLength) ∈ (layout batch).2 := by
  simp only [sealBatch,List.mem_map,Prod.exists]
  constructor
  · rintro ⟨node,offset,length,member,rfl⟩
    exact ⟨rfl,member⟩
  · rintro ⟨first,member⟩
    exact ⟨_,_,_,member,by cases extent; simp_all⟩

theorem extent_opens
    (member : extent ∈ (sealBatch prims kek chunkSize batch blobId fileKey wrapNonce chunkNonce).extents)
    (small : extent.byteOffset + extent.byteLength < 2 ^ 64) :
    ∃ plaintext, (extent.nodeId,plaintext) ∈ batch ∧
      openEpochBlob prims kek (sealBatch prims kek chunkSize batch blobId fileKey wrapNonce chunkNonce).record
        (sealBatch prims kek chunkSize batch blobId fileKey wrapNonce chunkNonce).bytes
        extent.byteOffset extent.byteLength = .ok plaintext := by
  obtain ⟨within,plaintext,found,_,cut⟩ := layout_extent (sealed_extent.mp member).2
  exact ⟨plaintext,found,(open_sealed small within).trans (congrArg _ (cut _))⟩

theorem batch_opens (member : (node,plaintext) ∈ batch) :
    ∃ extent ∈ (sealBatch prims kek chunkSize batch blobId fileKey wrapNonce chunkNonce).extents,
      extent.nodeId = node ∧ (extent.byteOffset + extent.byteLength < 2 ^ 64 →
        openEpochBlob prims kek (sealBatch prims kek chunkSize batch blobId fileKey wrapNonce chunkNonce).record
          (sealBatch prims kek chunkSize batch blobId fileKey wrapNonce chunkNonce).bytes
          extent.byteOffset extent.byteLength = .ok plaintext) := by
  obtain ⟨offset,inside,cut⟩ := layout_part member
  refine ⟨⟨node,0,offset,plaintext.length⟩,sealed_extent.mpr ⟨rfl,inside⟩,rfl,fun small => ?_⟩
  exact (open_sealed small (layout_extent inside).1).trans (congrArg _ (cut _))

end ArxRuna.Epoch.Flush
