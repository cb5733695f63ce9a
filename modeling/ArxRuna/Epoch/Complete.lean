import ArxRuna.Epoch.History
import ArxRuna.Vault.Disk
namespace ArxRuna.Epoch.Complete
open Library.Aead Library.Packing Library.Fallible Library.Interrupt Crypto Store.Tables Store.Operations
open Store.Effects Store.Integrity Store.Staging Epoch.Flush Vault.Disk
open Epoch.History (Opens Committed commit_effect decrypt_row)

-- What one blob of a flush draws, and what its write does.
structure BlobDraw where
  epochBlobId : Uuid
  fileKey : FileKey
  wrapNonce : Nonce
  chunkNonce : Nonce
  newV4 : Nat → Uuid
  write : StageWrite

variable (prims : Primitives) (kek : KeyEncryptionKey)

def flushOneBlob (chunkSize : Nat) (stagingDir : Place) (draw : BlobDraw) (entries : Batch) :
    Command Workspace StorageError Unit := do
  let blob := sealBatch prims kek chunkSize entries draw.epochBlobId draw.fileKey draw.wrapNonce draw.chunkNonce
  writeBlobFile stagingDir blob.record.blobName blob.bytes draw.write
  let v ← inspect
  let m ← demand (commitEpochFlush v.manifest blob.record blob.extents draw.newV4)
  change fun v => {v with manifest := m}

def flushBlobs (chunkSize : Nat) (stagingDir : Place) (draw : Nat → BlobDraw) :
    List Batch → Nat → Command Workspace StorageError Unit
  | [], _ => pure ()
  | batch :: later, i => do
    flushOneBlob prims kek chunkSize stagingDir (draw i) batch
    flushBlobs chunkSize stagingDir draw later (i + 1)

def flushEpochBuffer (chunkSize : Nat) (stagingDir : Place) (draw : Nat → BlobDraw) :
    Command Workspace StorageError Unit := do
  let v ← inspect
  flushBlobs prims kek chunkSize stagingDir draw (flushBatches chunkSize (getEpochBufferEntries v.manifest)) 0

-- Every row of the node opens to the content.
structure Filed (v : Workspace) (node : Uuid) (content : Bytes) : Prop where
  valid : Valid v.manifest
  rows : ∀ row ∈ v.manifest.chunks, row.nodeId = node → Opens prims kek v.files v.manifest row content

-- What a flush leaves alone.
structure Same (v w : Workspace) : Prop where
  nodes : w.manifest.nodes = v.manifest.nodes
  settings : w.manifest.manifestMeta = v.manifest.manifestMeta
  disk : w.disk = v.disk

-- A name no registered blob has is not in staging.
def Unused (v : Workspace) (name : BlobName) : Prop :=
  (∀ record ∈ v.manifest.epochBlobs, record.blobName ≠ name) → ∀ place, v.files place name = none

variable {prims : Primitives} {kek : KeyEncryptionKey} {chunkSize : Nat} {draw : BlobDraw} {v w : Workspace}
  {batch : Batch} {content : Bytes} {node : Uuid}

structure Flushed (draw : BlobDraw) (blob : SealedBlob) (place : Place) (v w : Workspace) : Prop where
  commit : Committed v.manifest blob (epochRows blob.record draw.newV4 blob.extents) w.manifest
  files : w.files = v.files.write place draw.epochBlobId (some blob.bytes)
  disk : w.disk = v.disk

theorem flush_one_blob (valid : Valid v.manifest)
    (ended : flushOneBlob prims kek chunkSize place draw batch v = (.done value,w)) :
    Flushed draw (sealBatch prims kek chunkSize batch draw.epochBlobId draw.fileKey draw.wrapNonce draw.chunkNonce)
      place v w := by
  simp only [flushOneBlob,done_bind,done_inspect,done_demand,done_change,write_blob_done] at ended
  obtain ⟨_,_,⟨_,rfl⟩,_,_,⟨rfl,rfl⟩,_,_,⟨accepted,rfl⟩,rfl⟩ := ended
  exact ⟨commit_effect valid accepted,rfl,rfl⟩

theorem flush_one_goes {blob : SealedBlob} (goes : draw.write = .goes)
    (sealing : sealBatch prims kek chunkSize batch draw.epochBlobId draw.fileKey draw.wrapNonce draw.chunkNonce = blob)
    (accepted : commitEpochFlush v.manifest blob.record blob.extents draw.newV4 = .ok m) :
    ∃ w, flushOneBlob prims kek chunkSize place draw batch v = (.done (),w) := by
  have wrote : writeBlobFile place blob.record.blobName blob.bytes draw.write v =
      (.done (),v.setBlob place blob.record.blobName (some blob.bytes)) := write_blob_done.mpr ⟨goes,rfl⟩
  refine ⟨{v.setBlob place blob.record.blobName (some blob.bytes) with manifest := m},?_⟩
  simp only [flushOneBlob,sealing]
  rw [bind_done wrote,bind_inspect,setBlob_manifest,accepted]
  rfl

theorem flushed_same (flushed : Flushed draw blob place v w) : Same v w := by
  have result := flushed.commit.registered.result
  injection result with nodes _ _ _ _ settings
  exact ⟨nodes,settings,flushed.disk⟩

-- One blob: the rows of the node that were there still open, and the new ones
-- open to what the batch holds for it.
theorem flushed_filed (filed : Filed prims kek v node content)
    (flushed : Flushed draw (sealBatch prims kek chunkSize batch draw.epochBlobId draw.fileKey draw.wrapNonce
      draw.chunkNonce) place v w)
    (unused : Unused v draw.epochBlobId) (only : ∀ plaintext, (node,plaintext) ∈ batch → plaintext = content) :
    Filed prims kek w node content := by
  obtain ⟨commit,files,_⟩ := flushed
  have freshName : ∀ record ∈ v.manifest.epochBlobs, record.blobName ≠ draw.epochBlobId :=
    commit.registered.blob.freshName
  refine ⟨commit.valid,fun row member named => ?_⟩
  rcases List.mem_append.mp (commit.chunks ▸ member) with old | new
  · obtain ⟨id,offset,length,record,bytes,kind,found,intact,opened⟩ := filed.rows row old named
    obtain ⟨there,same⟩ := filed.valid.epochBlob?.mp found
    refine ⟨id,offset,length,record,bytes,kind,?_,?_,opened⟩
    · exact commit.valid.epochBlob?.mpr ⟨commit.blobs ▸ List.mem_append_left _ there,same⟩
    · rw [files]
      exact intact.write_other (freshName record there)
  · obtain ⟨extent,inBlob,owner,_,kind⟩ := epoch_row_extent new
    have small := (commit.registered.rows.epoch row new _ _ _ kind).2
    obtain ⟨plaintext,inBatch,opens⟩ := extent_opens inBlob (by omega)
    rw [← owner,named] at inBatch
    cases only plaintext inBatch
    refine ⟨_,_,_,_,_,kind,commit.valid.epochBlob?.mpr ⟨commit.blobs ▸ List.mem_append_right _ List.mem_cons_self,rfl⟩,
      ?_,opens⟩
    rw [files]
    exact write_fresh_intact (unused freshName)

theorem flushed_row (flushed : Flushed draw (sealBatch prims kek chunkSize batch draw.epochBlobId draw.fileKey
      draw.wrapNonce draw.chunkNonce) place v w) (member : (node,plaintext) ∈ batch) :
    ∃ row ∈ w.manifest.chunks, row.nodeId = node := by
  obtain ⟨extent,inBlob,owner,_⟩ := batch_opens member
  obtain ⟨row,new,named,_⟩ := extent_epoch_row inBlob
  exact ⟨row,flushed.commit.chunks ▸ List.mem_append_right _ new,named.trans owner⟩

theorem flushed_unused (flushed : Flushed draw (sealBatch prims kek chunkSize batch draw.epochBlobId draw.fileKey
      draw.wrapNonce draw.chunkNonce) place v w) (unused : Unused v name) : Unused w name := by
  intro absent there
  rw [flushed.commit.blobs] at absent
  have other : name ≠ draw.epochBlobId := by
    intro same
    exact absent _ (List.mem_append_right _ List.mem_cons_self) same.symm
  rw [flushed.files,write_other other]
  exact unused (fun record member => absent record (List.mem_append_left _ member)) there

theorem flush_blobs (filed : Filed prims kek v node content) {draw : Nat → BlobDraw}
    (ended : flushBlobs prims kek chunkSize place draw batches i v = (.done value,w))
    (unused : ∀ j, Unused v (draw j).epochBlobId)
    (only : ∀ batch ∈ batches, ∀ plaintext, (node,plaintext) ∈ batch → plaintext = content) :
    Filed prims kek w node content ∧ Same v w ∧
      (((∃ row ∈ v.manifest.chunks, row.nodeId = node) ∨ ∃ batch ∈ batches, ∃ plaintext, (node,plaintext) ∈ batch) →
        ∃ row ∈ w.manifest.chunks, row.nodeId = node) := by
  induction batches generalizing i v with
  | nil =>
    obtain ⟨_,rfl⟩ := done_pure.mp ended
    refine ⟨filed,⟨rfl,rfl,rfl⟩,?_⟩
    intro known
    rcases known with known | ⟨_,none,_⟩
    · exact known
    · cases none
  | cons batch later ih =>
    obtain ⟨_,middle,first,rest⟩ := done_bind.mp ended
    have flushed := flush_one_blob filed.valid first
    have same := flushed_same flushed
    obtain ⟨last,others,found⟩ := ih (flushed_filed filed flushed (unused i) (only batch List.mem_cons_self)) rest
      (fun j => flushed_unused flushed (unused j)) fun other member => only other (List.mem_cons_of_mem _ member)
    refine ⟨last,⟨others.nodes.trans same.nodes,others.settings.trans same.settings,others.disk.trans same.disk⟩,?_⟩
    intro known
    apply found
    rcases known with ⟨row,there,named⟩ | ⟨other,member,plaintext,inside⟩
    · exact .inl ⟨row,flushed.commit.chunks ▸ List.mem_append_left _ there,named⟩
    · rcases List.mem_cons.mp member with rfl | after
      · exact .inl (flushed_row flushed inside)
      · exact .inr ⟨other,after,plaintext,inside⟩

-- A node whose file waits in the buffer: it has no rows, and every entry of it
-- holds the content.
structure Waiting (m : Manifest) (node : Uuid) (content : Bytes) : Prop where
  valid : Valid m
  unpacked : ∀ row ∈ m.chunks, row.nodeId ≠ node
  entry : ∃ entry ∈ m.epochBuffer, entry.nodeId = node
  only : ∀ entry ∈ m.epochBuffer, entry.nodeId = node → entry.plaintext = content

theorem mem_batches : (∃ batch ∈ flushBatches chunkSize entries, (node,plaintext) ∈ batch) ↔
    ∃ entry ∈ entries, entry.nodeId = node ∧ entry.plaintext = plaintext := by
  rw [← List.mem_flatten,flush_batches_entries]
  simp

-- After a complete flush the rows of a waiting file open to it, in whatever
-- batches it and the others were packed.
theorem flush_epoch_buffer {draw : Nat → BlobDraw} (waiting : Waiting v.manifest node content)
    (ended : flushEpochBuffer prims kek chunkSize place draw v = (.done value,w))
    (fresh : ∀ j place, v.files place (draw j).epochBlobId = none) :
    Filed prims kek w node content ∧ Same v w ∧ ∃ row ∈ w.manifest.chunks, row.nodeId = node := by
  simp only [flushEpochBuffer,done_bind,done_inspect] at ended
  obtain ⟨_,_,⟨rfl,rfl⟩,ended⟩ := ended
  have filed : Filed prims kek v node content :=
    ⟨waiting.valid,fun row member named => absurd named (waiting.unpacked row member)⟩
  have only : ∀ batch ∈ flushBatches chunkSize (getEpochBufferEntries v.manifest), ∀ plaintext,
      (node,plaintext) ∈ batch → plaintext = content := by
    intro batch member plaintext inside
    obtain ⟨entry,there,named,rfl⟩ := mem_batches.mp ⟨batch,member,inside⟩
    exact waiting.only entry (mem_getEpochBufferEntries.mp there) named
  obtain ⟨last,same,found⟩ := flush_blobs filed ended (fun j _ => fresh j) only
  obtain ⟨entry,there,named⟩ := waiting.entry
  obtain ⟨batch,member,inside⟩ := mem_batches.mpr ⟨entry,mem_getEpochBufferEntries.mpr there,named,rfl⟩
  exact ⟨last,same,found (.inr ⟨batch,member,_,inside⟩)⟩

end ArxRuna.Epoch.Complete
