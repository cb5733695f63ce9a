import ArxRuna.Store.Integrity
namespace ArxRuna.Store.Reached
open Library.Aead Library.Fallible Crypto Store.Tables Store.Operations Store.Effects Store.Integrity

-- Every manifest the store's operations can build. The values of `manifest_meta`
-- and the deletion queue are free here.
inductive Reachable : Manifest → Prop where
  | created (root : Uuid) (values : ManifestMeta) : Reachable (createdManifest root values)
  | insertNode (prior : Reachable m) (accepted : insertNodeTx m node = .ok n) : Reachable n
  | insertFileWithChunks (prior : Reachable m) (accepted : insertFileWithChunks m node chunks = .ok n) : Reachable n
  | stage (prior : Reachable m)
      (accepted : insertFileNodeAndStageEpochEntry m node plaintext entryId queuedAt = .ok n) : Reachable n
  | commitEpochFlush (prior : Reachable m) (accepted : commitEpochFlush m record extents newV4 = .ok n) : Reachable n
  | reinsertEpochBlob (prior : Reachable m) (accepted : reinsertEpochBlob m record extents newV4 = .ok n) : Reachable n
  | renameNode {id : Uuid} (prior : Reachable m) (accepted : renameNode m id name modifiedAt = .ok n) : Reachable n
  | moveNode {id : Uuid} (prior : Reachable m) (accepted : moveNode m id parent modifiedAt = .ok n) : Reachable n
  | deleteNode {id : Uuid} (prior : Reachable m) (accepted : deleteNode m id now = .ok n) : Reachable n
  | queueAndMeta (prior : Reachable m) (queue : List PendingDeletion) (values : ManifestMeta) :
      Reachable {m with pendingDeletions := queue,manifestMeta := values}

theorem reachable_valid (reachable : Reachable m) : Valid m := by
  induction reachable with
  | created root values => exact created_valid root values
  | insertNode _ accepted ih => exact insert_node_valid ih (insert_node_tx accepted)
  | insertFileWithChunks _ accepted ih => exact insert_file_valid ih (insert_file_with_chunks accepted)
  | stage _ accepted ih => exact stage_valid ih (insert_file_node_and_stage accepted) rfl
  | commitEpochFlush _ accepted ih => exact commit_valid ih accepted
  | reinsertEpochBlob _ accepted ih => exact register_valid ih (reinsert_epoch_blob accepted)
  | renameNode _ accepted ih => exact rename_valid ih accepted
  | moveNode _ accepted ih => exact move_valid ih (move_node accepted)
  | deleteNode _ accepted ih => exact delete_valid ih (delete_node accepted)
  | queueAndMeta _ queue values ih =>
    exact ⟨ih.nodeIds,ih.parents,ih.forest,ih.chunkNodes,ih.chunkIds,ih.chunkPlaces,ih.flatNames,
      ih.chunkBlobs,ih.blobIds,ih.blobNames,ih.bufferNodes⟩

end ArxRuna.Store.Reached
