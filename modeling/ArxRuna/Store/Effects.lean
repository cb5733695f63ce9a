import ArxRuna.Store.Operations
namespace ArxRuna.Store.Effects
open Library.Aead Library.Closure Library.Fallible Crypto Store.Tables Store.Operations
variable {m n : Manifest} {node : Node} {id : Uuid}

-- One statement per operation: what it changed and what it had checked. Nothing
-- after this file unfolds an operation.
structure NodeInserted (m : Manifest) (node : Node) (n : Manifest) : Prop where
  result : n = {m with nodes := m.nodes ++ [node]}
  fresh : ∀ old ∈ m.nodes, old.nodeId ≠ node.nodeId
  parent : ∀ p, node.parentId = some p →
    p ≠ node.nodeId ∧ ∃ dir ∈ m.nodes, dir.nodeId = p ∧ dir.nodeType = .directory
  key : node.nodeType = .file ↔ node.fileKeyWrapped.isSome

theorem validate_parent_type (checked : validateParentType kind = .ok value) : kind = some .directory := by
  cases kind with
  | none => cases checked
  | some kind => cases kind <;> simp_all [validateParentType]

theorem parent_directory (checked : validateParentType ((m.node? id).map (·.nodeType)) = .ok value) :
    ∃ dir ∈ m.nodes, dir.nodeId = id ∧ dir.nodeType = .directory := by
  obtain ⟨dir,found,kind⟩ := Option.map_eq_some_iff.mp (validate_parent_type checked)
  exact ⟨dir,(node?_mem found).1,(node?_mem found).2,kind⟩

theorem insert_node_tx (accepted : insertNodeTx m node = .ok n) : NodeInserted m node n := by
  simp only [insertNodeTx,toI64,bind_ok,ensure_ok,pure_ok] at accepted
  obtain ⟨_,parent,_,_,_,key,_,fresh,result⟩ := accepted
  refine ⟨result.symm,node?_none.mp fresh,?_,key⟩
  intro p named
  simp only [ensureParentIsDirectoryForInsert,named] at parent
  split at parent
  · cases parent
  · rename_i other
    exact ⟨other,parent_directory parent⟩

structure ChunkInserted (m : Manifest) (row : ChunkRow) (n : Manifest) : Prop where
  result : n = {m with chunks := m.chunks ++ [row]}
  target : (m.node? row.nodeId).isSome
  rowId : ∀ other ∈ m.chunks, other.chunkId ≠ row.chunkId
  place : ∀ other ∈ m.chunks, ¬ (other.nodeId = row.nodeId ∧ other.chunkIndex = row.chunkIndex)
  flat : ∀ name, row.source = .flat name → ∀ other ∈ m.chunks, other.source ≠ .flat name
  epoch : ∀ blob offset length, row.source = .epoch blob offset length →
    (m.epochBlob? blob).isSome ∧ offset < 2 ^ 63 ∧ length < 2 ^ 63

theorem insert_chunk_row (accepted : insertChunkRow m row = .ok n) : ChunkInserted m row n := by
  unfold insertChunkRow at accepted
  cases kind : row.source with
  | flat name =>
    simp only [kind,toI64,bind_ok,ensure_ok,pure_ok] at accepted
    obtain ⟨_,_,_,names,_,rowId,_,place,_,target,result⟩ := accepted
    refine ⟨result.symm,target,rowId,place,?_,?_⟩
    · intro other same
      cases kind.symm.trans same
      exact names
    · intro blob offset length same
      cases kind.symm.trans same
  | epoch blob offset length =>
    simp only [kind,toI64,bind_ok,ensure_ok,pure_ok] at accepted
    obtain ⟨_,_,_,offsetSmall,_,lengthSmall,_,known,_,rowId,_,place,_,target,result⟩ := accepted
    refine ⟨result.symm,target,rowId,place,?_,?_⟩
    · intro other same
      cases kind.symm.trans same
    · intro blob' offset' length' same
      cases kind.symm.trans same
      exact ⟨known,offsetSmall,lengthSmall⟩

-- Inserting a list of rows appends them all, and each was checked against the
-- table it met.
structure ChunksInserted (m : Manifest) (rows : List ChunkRow) (n : Manifest) : Prop where
  result : n = {m with chunks := m.chunks ++ rows}
  target : ∀ row ∈ rows, (m.node? row.nodeId).isSome
  place : ∀ row ∈ rows, ∀ other ∈ m.chunks,
    ¬ (other.nodeId = row.nodeId ∧ other.chunkIndex = row.chunkIndex)
  distinct : rows.Pairwise fun a b => ¬ (a.nodeId = b.nodeId ∧ a.chunkIndex = b.chunkIndex)
  rowId : ∀ row ∈ rows, ∀ other ∈ m.chunks, other.chunkId ≠ row.chunkId
  rowIds : rows.Pairwise fun a b => a.chunkId ≠ b.chunkId
  flat : ∀ row ∈ rows, ∀ name, row.source = .flat name → ∀ other ∈ m.chunks, other.source ≠ .flat name
  flats : rows.Pairwise fun a b => ∀ name, b.source = .flat name → a.source ≠ .flat name
  epoch : ∀ row ∈ rows, ∀ blob offset length, row.source = .epoch blob offset length →
    (m.epochBlob? blob).isSome ∧ offset < 2 ^ 63 ∧ length < 2 ^ 63

theorem insert_chunk_rows (accepted : rows.foldlM insertChunkRow m = .ok n) : ChunksInserted m rows n := by
  induction rows generalizing m with
  | nil =>
    cases accepted
    exact ⟨by simp,by simp,by simp,.nil,by simp,.nil,by simp,.nil,by simp⟩
  | cons row rest ih =>
    rw [List.foldlM_cons,bind_ok] at accepted
    obtain ⟨middle,first,later⟩ := accepted
    have head := insert_chunk_row first
    have tail := ih later
    have chunks : middle.chunks = m.chunks ++ [row] := by rw [head.result]
    have nodes : ∀ id, middle.node? id = m.node? id := fun id => by rw [head.result]; rfl
    have blobs : ∀ id, middle.epochBlob? id = m.epochBlob? id := fun id => by rw [head.result]; rfl
    have old : ∀ other ∈ m.chunks, other ∈ middle.chunks := fun other member => by simp [chunks,member]
    have new : row ∈ middle.chunks := by simp [chunks]
    refine ⟨?_,?_,?_,?_,?_,?_,?_,?_,?_⟩
    · rw [tail.result,head.result]
      simp
    · simp only [List.forall_mem_cons]
      exact ⟨head.target,fun row member => by simpa only [nodes] using tail.target row member⟩
    · simp only [List.forall_mem_cons]
      exact ⟨head.place,fun row member other there => tail.place row member other (old other there)⟩
    · exact .cons (fun later member => tail.place later member row new) tail.distinct
    · simp only [List.forall_mem_cons]
      exact ⟨head.rowId,fun row member other there => tail.rowId row member other (old other there)⟩
    · exact .cons (fun later member => tail.rowId later member row new) tail.rowIds
    · simp only [List.forall_mem_cons]
      exact ⟨head.flat,fun row member name kind other there =>
        tail.flat row member name kind other (old other there)⟩
    · exact .cons (fun later member name kind => tail.flat later member name kind row new) tail.flats
    · simp only [List.forall_mem_cons]
      exact ⟨head.epoch,fun row member blob offset length kind => by
        simpa only [blobs] using tail.epoch row member blob offset length kind⟩

def flatRow (chunk : ChunkRecord) : ChunkRow :=
  ⟨chunk.chunkId,chunk.nodeId,chunk.chunkIndex,.flat chunk.blobName,chunk.sizePadded,chunk.blake3Checksum⟩

theorem insert_file_chunks {chunks : List ChunkRecord} (accepted : chunks.foldlM (insertFileChunk node) m = .ok n) :
    (∀ chunk ∈ chunks, chunk.nodeId = node.nodeId ∧ chunk.sizePadded = m.manifestMeta.chunkSizeBytes ∧
      node.nodeType = .file) ∧ (chunks.map flatRow).foldlM insertChunkRow m = .ok n := by
  induction chunks generalizing m with
  | nil => exact ⟨by simp,accepted⟩
  | cons chunk rest ih =>
    rw [List.foldlM_cons,bind_ok] at accepted
    obtain ⟨middle,first,later⟩ := accepted
    simp only [insertFileChunk,validateSizePaddedMatchesChunkSize,bind_ok,ensure_ok] at first
    obtain ⟨_,own,_,size,_,target,inserted⟩ := first
    have file : node.nodeType = .file := by
      cases kind : node.nodeType <;> simp_all [validateChunkTargetNode]
    obtain ⟨others,folded⟩ := ih later
    have same : middle.manifestMeta = m.manifestMeta := by rw [(insert_chunk_row inserted).result]
    refine ⟨?_,?_⟩
    · simp only [List.forall_mem_cons]
      exact ⟨⟨own,size,file⟩,fun chunk member => same ▸ others chunk member⟩
    · rw [List.map_cons,List.foldlM_cons,bind_ok]
      exact ⟨middle,inserted,folded⟩

structure FileInserted (m : Manifest) (node : Node) (chunks : List ChunkRecord) (n : Manifest) : Prop where
  result : n = {m with nodes := m.nodes ++ [node],chunks := m.chunks ++ chunks.map flatRow}
  inserted : NodeInserted m node {m with nodes := m.nodes ++ [node]}
  rows : ChunksInserted {m with nodes := m.nodes ++ [node]} (chunks.map flatRow)
    {m with nodes := m.nodes ++ [node],chunks := m.chunks ++ chunks.map flatRow}
  own : ∀ chunk ∈ chunks, chunk.nodeId = node.nodeId ∧
    chunk.sizePadded = m.manifestMeta.chunkSizeBytes ∧ node.nodeType = .file

theorem insert_file_with_chunks (accepted : insertFileWithChunks m node chunks = .ok n) :
    FileInserted m node chunks n := by
  simp only [insertFileWithChunks,bind_ok] at accepted
  obtain ⟨inserted,first,_,_,folded⟩ := accepted
  have effect := insert_node_tx first
  obtain ⟨own,rowsAccepted⟩ := insert_file_chunks folded
  have rows := insert_chunk_rows rowsAccepted
  cases effect.result
  exact ⟨rows.result,effect,rows.result ▸ rows,own⟩

structure EpochBlobInserted (m : Manifest) (record : EpochBlobRecord) (n : Manifest) : Prop where
  result : n = {m with epochBlobs := m.epochBlobs ++ [record]}
  fresh : ∀ old ∈ m.epochBlobs, old.epochBlobId ≠ record.epochBlobId
  freshName : ∀ old ∈ m.epochBlobs, old.blobName ≠ record.blobName

theorem insert_epoch_blob_row (accepted : insertEpochBlobRow m record = .ok n) :
    EpochBlobInserted m record n := by
  simp only [insertEpochBlobRow,toI64,bind_ok,ensure_ok,pure_ok] at accepted
  obtain ⟨_,_,_,fresh,_,freshName,result⟩ := accepted
  exact ⟨result.symm,epochBlob?_none.mp fresh,freshName⟩

structure FileStaged (m : Manifest) (node : Node) (entry : EpochBufferEntry) (n : Manifest) : Prop where
  result : n = {m with nodes := m.nodes ++ [node],epochBuffer := m.epochBuffer ++ [entry]}
  inserted : NodeInserted m node {m with nodes := m.nodes ++ [node]}

theorem insert_file_node_and_stage (accepted :
    insertFileNodeAndStageEpochEntry m node plaintext entryId queuedAt = .ok n) :
    FileStaged m node ⟨entryId,node.nodeId,plaintext,plaintext.length,queuedAt⟩ n := by
  simp only [insertFileNodeAndStageEpochEntry,toI64,bind_ok,ensure_ok,pure_ok] at accepted
  obtain ⟨inserted,first,_,_,_,_,result⟩ := accepted
  have effect := insert_node_tx first
  rw [effect.result] at result
  exact ⟨result.symm,effect.result ▸ effect⟩

structure EpochBlobRegistered (m : Manifest) (record : EpochBlobRecord) (rows : List ChunkRow)
    (n : Manifest) : Prop where
  result : n = {m with epochBlobs := m.epochBlobs ++ [record],chunks := m.chunks ++ rows}
  blob : EpochBlobInserted m record {m with epochBlobs := m.epochBlobs ++ [record]}
  rows : ChunksInserted {m with epochBlobs := m.epochBlobs ++ [record]} rows
    {m with epochBlobs := m.epochBlobs ++ [record],chunks := m.chunks ++ rows}

theorem reinsert_epoch_blob (accepted : reinsertEpochBlob m record extents newV4 = .ok n) :
    EpochBlobRegistered m record (epochRows record newV4 extents) n := by
  simp only [reinsertEpochBlob,bind_ok] at accepted
  obtain ⟨inserted,first,later⟩ := accepted
  have blob := insert_epoch_blob_row first
  have rows := insert_chunk_rows later
  rw [blob.result] at rows
  exact ⟨rows.result,blob.result ▸ blob,rows.result ▸ rows⟩

theorem epoch_row_extent (member : row ∈ epochRows record newV4 extents) :
    ∃ extent ∈ extents, row.nodeId = extent.nodeId ∧ row.chunkIndex = extent.chunkIndex ∧
      row.source = .epoch record.epochBlobId extent.byteOffset extent.byteLength := by
  obtain ⟨⟨extent,i⟩,there,rfl⟩ := List.mem_map.mp member
  exact ⟨extent,List.fst_mem_of_mem_zipIdx there,rfl,rfl,rfl⟩

theorem extent_epoch_row (member : extent ∈ extents) : ∃ row ∈ epochRows record newV4 extents,
    row.nodeId = extent.nodeId ∧ row.source = .epoch record.epochBlobId extent.byteOffset extent.byteLength := by
  obtain ⟨i,bound,rfl⟩ := List.mem_iff_getElem.mp member
  refine ⟨_,List.mem_map_of_mem (List.mk_mem_zipIdx_iff_getElem?.mpr (List.getElem?_eq_getElem bound)),rfl,rfl⟩

-- `commit_epoch_flush` is the same registration followed by `DELETE FROM
-- epoch_buffer`, without a condition on the rows.
theorem commit_epoch_flush : commitEpochFlush m record extents newV4 = .ok n ↔
    ∃ packed, reinsertEpochBlob m record extents newV4 = .ok packed ∧ n = {packed with epochBuffer := []} := by
  simp only [commitEpochFlush,reinsertEpochBlob,bind_ok,pure_ok]
  constructor
  · rintro ⟨inserted,first,packed,later,rfl⟩
    exact ⟨packed,⟨inserted,first,later⟩,rfl⟩
  · rintro ⟨packed,⟨inserted,first,later⟩,rfl⟩
    exact ⟨inserted,first,packed,later,rfl⟩

theorem rename_node (accepted : renameNode m id name modifiedAt = .ok n) :
    n = {m with nodes := m.nodes.map fun node =>
      if node.nodeId = id then {node with name := name,modifiedAt := modifiedAt} else node} := by
  unfold renameNode at accepted
  split at accepted
  · cases accepted; rfl
  · cases accepted

structure NodeMoved (m : Manifest) (id : Uuid) (parent : Option Uuid) (modifiedAt : Int) (n : Manifest) :
    Prop where
  result : n = {m with nodes := m.nodes.map fun node =>
    if node.nodeId = id then {node with parentId := parent,modifiedAt := modifiedAt} else node}
  found : (m.node? id).isSome
  target : ∀ p, parent = some p →
    (∃ dir ∈ m.nodes, dir.nodeId = p ∧ dir.nodeType = .directory) ∧ p ∉ subtree m id

theorem move_node (accepted : moveNode m id parent modifiedAt = .ok n) : NodeMoved m id parent modifiedAt n := by
  simp only [moveNode,ensureMoveRespectsHierarchy,bind_ok,ensure_ok,pure_ok] at accepted
  obtain ⟨_,⟨_,found,checked⟩,result⟩ := accepted
  refine ⟨result.symm,found,?_⟩
  rintro p rfl
  simp only [bind_ok,ensure_ok] at checked
  obtain ⟨_,_,_,directory,outside⟩ := checked
  exact ⟨parent_directory directory,outside⟩

structure NodeDeleted (m : Manifest) (id : Uuid) (now : Int) (n : Manifest) : Prop where
  found : (m.node? id).isSome
  nodes : n.nodes = m.nodes.filter fun node => node.nodeId ∉ subtree m id
  chunks : n.chunks = m.chunks.filter fun row => row.nodeId ∉ subtree m id
  epochBlobs : n.epochBlobs = m.epochBlobs.filter fun record =>
    ∃ row ∈ n.chunks, epochIdOf row = some record.epochBlobId
  epochBuffer : n.epochBuffer = m.epochBuffer.filter fun entry => entry.nodeId ∉ subtree m id
  pendingDeletions : n.pendingDeletions =
    (orphanedNames m (subtree m id)).foldl (enqueue now) m.pendingDeletions
  manifestMeta : n.manifestMeta = m.manifestMeta

theorem delete_node (accepted : deleteNode m id now = .ok n) : NodeDeleted m id now n := by
  unfold deleteNode at accepted
  split at accepted
  · rename_i found
    cases accepted
    exact ⟨found,rfl,rfl,rfl,rfl,rfl,rfl⟩
  · cases accepted

end ArxRuna.Store.Effects
