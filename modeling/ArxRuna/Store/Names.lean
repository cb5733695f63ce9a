import ArxRuna.Store.Removal
import Mathlib.Data.List.Pairwise
namespace ArxRuna.Store.Names
open Library.Aead Library.Closure Library.Fallible Crypto Store.Tables Store.Operations Store.Effects
open Store.Integrity Store.Removal
variable {m n : Manifest} {node : Node} {row : ChunkRow} {id : Uuid} {now : Int}

def Unqueued (m : Manifest) (name : BlobName) : Prop := ∀ entry ∈ m.pendingDeletions, entry.blobName ≠ name

-- A chunk blob and an epoch blob never share a name, and a name waiting to be
-- deleted from the cloud is not referenced.
structure Named (m : Manifest) : Prop where
  valid : Valid m
  apart : ∀ row ∈ m.chunks, ∀ name, row.source = .flat name → ∀ record ∈ m.epochBlobs, record.blobName ≠ name
  free : ∀ name ∈ listAllBlobNames m, Unqueued m name

-- A version 4 identifier just drawn is not in the manifest.
def Unnamed (m : Manifest) (name : BlobName) : Prop := name ∉ listAllBlobNames m ∧ Unqueued m name

theorem mem_enqueued {names : List BlobName} {entry : PendingDeletion} (member : entry ∈ names.foldl (enqueue now) queue) :
    entry ∈ queue ∨ entry.blobName ∈ names := by
  induction names generalizing queue with
  | nil => exact .inl member
  | cons name rest ih =>
    rcases ih member with earlier | later
    · unfold enqueue at earlier
      split at earlier
      · exact .inl earlier
      · rcases List.mem_append.mp earlier with old | new
        · exact .inl old
        · rw [List.mem_singleton.mp new]
          exact .inr List.mem_cons_self
    · exact .inr (List.mem_cons_of_mem _ later)

theorem mem_orphaned {gone : List Uuid} (member : name ∈ orphanedNames m gone) :
    (∃ row ∈ m.chunks, row.nodeId ∈ gone ∧ row.source = .flat name) ∨
    ∃ record ∈ m.epochBlobs, record.blobName = name ∧
      ∀ row ∈ m.chunks, epochIdOf row = some record.epochBlobId → row.nodeId ∈ gone := by
  simp only [orphanedNames,List.mem_append,List.mem_filterMap,List.mem_filter,List.mem_map,
    decide_eq_true_eq] at member
  rcases member with ⟨row,⟨there,inside⟩,flat⟩ | ⟨record,⟨there,_,only⟩,named⟩
  · refine .inl ⟨row,there,inside,?_⟩
    unfold flatName at flat
    split at flat
    · rename_i kind
      rw [kind,Option.some.inj flat]
    · cases flat
  · exact .inr ⟨record,there,named,only⟩

theorem flat_unique {other : ChunkRow} (valid : Valid m) (first : row ∈ m.chunks) (second : other ∈ m.chunks)
    (named : row.source = .flat name) (named' : other.source = .flat name) : row = other := by
  let Same (a b : ChunkRow) : Prop := a.source = .flat name → b.source = .flat name → a = b
  have symmetric : Std.Symm Same := ⟨fun _ _ same here there => (same there here).symm⟩
  have distinct : m.chunks.Pairwise Same :=
    valid.flatNames.imp fun rule here there => absurd here (rule name there)
  exact distinct.forall_of_forall (fun _ _ _ _ => rfl) first second named named'

theorem without_names (without : Without m gone n) (listed : name ∈ listAllBlobNames n) :
    name ∈ listAllBlobNames m := by
  rcases mem_listAllBlobNames.mp listed with ⟨row,there,kind⟩ | ⟨record,there,named⟩
  · exact mem_listAllBlobNames.mpr (.inl ⟨row,(without.mem_chunks.mp there).1,kind⟩)
  · exact mem_listAllBlobNames.mpr (.inr ⟨record,without.blobs record there,named⟩)

theorem delete_named (named : Named m) (effect : NodeDeleted m id now n) : Named n := by
  have without := delete_without effect
  have after := delete_valid named.valid effect
  refine ⟨after,fun row member name kind record there => ?_,fun name listed entry queued same => ?_⟩
  · exact named.apart row (without.mem_chunks.mp member).1 name kind record (without.blobs record there)
  · rw [effect.pendingDeletions] at queued
    rcases mem_enqueued queued with old | orphan
    · exact named.free name (without_names without listed) entry old same
    rw [same] at orphan
    rcases mem_orphaned orphan with ⟨gone,there,inside,kind⟩ | ⟨record,there,called,only⟩
    · rcases mem_listAllBlobNames.mp listed with ⟨row,kept,kind'⟩ | ⟨record,kept,called⟩
      · obtain ⟨earlier,outside⟩ := without.mem_chunks.mp kept
        exact outside (flat_unique named.valid there earlier kind kind' ▸ inside)
      · exact named.apart gone there name kind record (without.blobs record kept) called
    · rcases mem_listAllBlobNames.mp listed with ⟨row,kept,kind⟩ | ⟨other,kept,called'⟩
      · exact named.apart row (without.mem_chunks.mp kept).1 name kind record there called
      · have equal := List.inj_on_of_nodup_map named.valid.blobNames (without.blobs other kept) there
          (called'.trans called.symm)
        rw [effect.epochBlobs,List.mem_filter,decide_eq_true_eq] at kept
        obtain ⟨_,row,remaining,points⟩ := kept
        obtain ⟨earlier,outside⟩ := without.mem_chunks.mp remaining
        exact outside (only row earlier (equal ▸ points))

-- Rows and records may be added under names the manifest does not hold yet.
structure Grown (m n : Manifest) : Prop where
  after : Valid n
  rows : ∀ row ∈ n.chunks, row ∈ m.chunks ∨ ∀ name, row.source = .flat name →
    Unnamed m name ∧ ∀ record ∈ n.epochBlobs, record.blobName ≠ name
  records : ∀ record ∈ n.epochBlobs, record ∈ m.epochBlobs ∨ Unnamed m record.blobName
  queue : ∀ entry ∈ n.pendingDeletions, entry ∈ m.pendingDeletions

theorem grown_named (named : Named m) (grown : Grown m n) : Named n := by
  refine ⟨grown.after,fun row member name kind record there => ?_,fun name listed entry queued => ?_⟩
  · rcases grown.rows row member with old | new
    · rcases grown.records record there with known | fresh
      · exact named.apart row old name kind record known
      · rintro rfl
        exact fresh.1 (mem_listAllBlobNames.mpr (.inl ⟨row,old,kind⟩))
    · exact (new name kind).2 record there
  · have earlier := grown.queue entry queued
    rcases mem_listAllBlobNames.mp listed with ⟨row,there,kind⟩ | ⟨record,there,called⟩
    · rcases grown.rows row there with old | new
      · exact named.free name (mem_listAllBlobNames.mpr (.inl ⟨row,old,kind⟩)) entry earlier
      · exact (new name kind).1.2 entry earlier
    · rcases grown.records record there with old | new
      · exact named.free name (mem_listAllBlobNames.mpr (.inr ⟨record,old,called⟩)) entry earlier
      · exact called ▸ new.2 entry earlier

theorem same_rows_grown (after : Valid n) (chunks : n.chunks = m.chunks) (blobs : n.epochBlobs = m.epochBlobs)
    (queue : ∀ entry ∈ n.pendingDeletions, entry ∈ m.pendingDeletions) : Grown m n :=
  ⟨after,fun _ member => .inl (chunks ▸ member),fun _ member => .inl (blobs ▸ member),queue⟩

theorem same_rows_names (chunks : n.chunks = m.chunks) (blobs : n.epochBlobs = m.epochBlobs) :
    listAllBlobNames n = listAllBlobNames m := by
  rw [listAllBlobNames,listAllBlobNames,chunks,blobs]

theorem insert_file_grown (named : Named m) {chunks : List ChunkRecord} (effect : FileInserted m node chunks n)
    (fresh : ∀ chunk ∈ chunks, Unnamed m chunk.blobName) : Grown m n ∧
      ∀ name ∈ listAllBlobNames n, name ∈ listAllBlobNames m ∨ ∃ chunk ∈ chunks, chunk.blobName = name := by
  have new : ∀ row ∈ n.chunks, row ∈ m.chunks ∨ ∃ chunk ∈ chunks, row.source = .flat chunk.blobName := by
    intro row member
    rw [effect.result] at member
    rcases List.mem_append.mp member with old | added
    · exact .inl old
    · obtain ⟨chunk,there,rfl⟩ := List.mem_map.mp added
      exact .inr ⟨chunk,there,rfl⟩
  have blobs : n.epochBlobs = m.epochBlobs := by rw [effect.result]
  refine ⟨⟨insert_file_valid named.valid effect,fun row member => ?_,fun _ there => .inl (blobs ▸ there),
    fun _ queued => by rwa [effect.result] at queued⟩,fun name listed => ?_⟩
  · rcases new row member with old | ⟨chunk,there,kind⟩
    · exact .inl old
    · refine .inr fun name kind' => ?_
      cases kind.symm.trans kind'
      refine ⟨fresh chunk there,fun record known called => ?_⟩
      exact (fresh chunk there).1 (mem_listAllBlobNames.mpr (.inr ⟨record,blobs ▸ known,called⟩))
  · rcases mem_listAllBlobNames.mp listed with ⟨row,member,kind⟩ | ⟨record,there,called⟩
    · rcases new row member with old | ⟨chunk,there,kind'⟩
      · exact .inl (mem_listAllBlobNames.mpr (.inl ⟨row,old,kind⟩))
      · cases kind'.symm.trans kind
        exact .inr ⟨chunk,there,rfl⟩
    · exact .inl (mem_listAllBlobNames.mpr (.inr ⟨record,blobs ▸ there,called⟩))

theorem commit_grown (named : Named m) (accepted : commitEpochFlush m record extents newV4 = .ok n)
    (fresh : Unnamed m record.blobName) : Grown m n ∧
      ∀ name ∈ listAllBlobNames n, name ∈ listAllBlobNames m ∨ name = record.blobName := by
  have after := commit_valid named.valid accepted
  obtain ⟨packed,registered,rfl⟩ := commit_epoch_flush.mp accepted
  have effect := reinsert_epoch_blob registered
  have rows : ∀ row ∈ packed.chunks, row ∈ m.chunks ∨ ∀ name, row.source ≠ .flat name := by
    intro row member
    rw [effect.result] at member
    rcases List.mem_append.mp member with old | added
    · exact .inl old
    · obtain ⟨extent,_,_,_,kind⟩ := epoch_row_extent added
      exact .inr fun name flat => nomatch kind.symm.trans flat
  have records : ∀ other ∈ packed.epochBlobs, other ∈ m.epochBlobs ∨ other = record := by
    intro other member
    rw [effect.result] at member
    rcases List.mem_append.mp member with old | added
    · exact .inl old
    · exact .inr (List.mem_singleton.mp added)
  refine ⟨⟨after,fun row member => ?_,fun other member => ?_,fun _ queued => ?_⟩,fun name listed => ?_⟩
  · exact (rows row member).imp_right fun epoch name flat => absurd flat (epoch name)
  · rcases records other member with old | rfl
    · exact .inl old
    · exact .inr fresh
  · dsimp only at queued
    rwa [effect.result] at queued
  · rcases mem_listAllBlobNames.mp listed with ⟨row,member,kind⟩ | ⟨other,member,called⟩
    · rcases rows row member with old | epoch
      · exact .inl (mem_listAllBlobNames.mpr (.inl ⟨row,old,kind⟩))
      · exact absurd kind (epoch name)
    · rcases records other member with old | rfl
      · exact .inl (mem_listAllBlobNames.mpr (.inr ⟨other,old,called⟩))
      · exact .inr called.symm

-- After `delete_node` every epoch blob has a chunk, so every name left has a node
-- that uses it.
theorem listed_used (valid : Valid n)
    (recorded : ∀ record ∈ n.epochBlobs, ∃ row ∈ n.chunks, epochIdOf row = some record.epochBlobId)
    (listed : name ∈ listAllBlobNames n) : ∃ node ∈ n.nodes, Uses n node.nodeId name := by
  have used {row : ChunkRow} (member : row ∈ n.chunks) (resolved : ∃ chunk, row.resolve n = .ok chunk ∧
      chunk.blobName = name) : ∃ node ∈ n.nodes, Uses n node.nodeId name := by
    obtain ⟨node,there,same⟩ := valid.chunkNodes row member
    obtain ⟨chunks,got⟩ := valid.getChunks node.nodeId
    obtain ⟨chunk,resolved,called⟩ := resolved
    exact ⟨node,there,chunks,got,chunk,(mem_getChunks got).mpr ⟨row,member,same.symm,resolved⟩,called⟩
  rcases mem_listAllBlobNames.mp listed with ⟨row,member,kind⟩ | ⟨record,there,called⟩
  · exact used member ⟨_,by rw [ChunkRow.resolve,kind],rfl⟩
  · obtain ⟨row,member,points⟩ := recorded record there
    refine used member ?_
    unfold epochIdOf at points
    split at points
    · cases points
    · rename_i blob offset length kind
      cases points
      have found := valid.epochBlob?.mpr ⟨there,rfl⟩
      have resolved : ∃ chunk, row.resolve n = .ok chunk ∧ chunk.blobName = record.blobName := by
        simp only [ChunkRow.resolve,kind,found]
        exact ⟨_,rfl,rfl⟩
      rwa [called] at resolved

end ArxRuna.Store.Names
