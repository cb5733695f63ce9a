import ArxRuna.Library.Run
import ArxRuna.Store.Names
namespace ArxRuna.Store.Queue
open Library.Aead Library.Closure Library.Fallible Library.Run Crypto
open Store.Tables Store.Operations Store.Effects Store.Integrity Store.Removal Store.Names

-- The operations that decide what is referenced and what is queued, in any order
-- and with any arguments.
inductive Operation where
  | insertNode (node : Node)
  | insertFileWithChunks (node : Node) (chunks : List ChunkRecord)
  | commitEpochFlush (record : EpochBlobRecord) (extents : List Extent) (newV4 : Nat → Uuid)
  | insertFileNodeAndStageEpochEntry (node : Node) (plaintext : Bytes) (entryId : Uuid) (queuedAt : Int)
  | moveNode (id : Uuid) (newParent : Option Uuid) (modifiedAt : Int)
  | renameNode (id : Uuid) (name : String) (modifiedAt : Int)
  | deleteNode (id : Uuid) (now : Int)
  | markDeletionComplete (name : BlobName)

def perform (m : Manifest) : Operation → Except StorageError Manifest
  | .insertNode node => insertNodeTx m node
  | .insertFileWithChunks node chunks => insertFileWithChunks m node chunks
  | .commitEpochFlush record extents newV4 => commitEpochFlush m record extents newV4
  | .insertFileNodeAndStageEpochEntry node plaintext entryId queuedAt =>
    insertFileNodeAndStageEpochEntry m node plaintext entryId queuedAt
  | .moveNode id newParent modifiedAt => moveNode m id newParent modifiedAt
  | .renameNode id name modifiedAt => renameNode m id name modifiedAt
  | .deleteNode id now => deleteNode m id now
  | .markDeletionComplete name => .ok (markDeletionComplete m name)

-- The manifest, every blob name it has ever referenced, and the names that
-- `mark_deletion_complete` has taken out of the queue.
structure Ledger where
  manifest : Manifest
  everNamed : List BlobName
  completed : List BlobName

def queuedNames (m : Manifest) : List BlobName := m.pendingDeletions.map (·.blobName)

def completes (m : Manifest) : Operation → List BlobName
  | .markDeletionComplete name => (queuedNames m).filter (· = name)
  | _ => []

-- A refused operation leaves everything as it was.
def step (s : Ledger) (operation : Operation) : Option Ledger :=
  match perform s.manifest operation with
  | .error _ => some s
  | .ok n => some ⟨n,s.everNamed ++ listAllBlobNames n,s.completed ++ completes s.manifest operation⟩

def created (root : Uuid) (values : ManifestMeta) : Ledger := ⟨createdManifest root values,[],[]⟩

structure QueueExact (s : Ledger) : Prop where
  unreferenced : ∀ name ∈ listAllBlobNames s.manifest, name ∉ queuedNames s.manifest
  complete : ∀ name ∈ s.everNamed, name ∉ listAllBlobNames s.manifest → name ∉ s.completed →
    name ∈ queuedNames s.manifest

-- A blob name is a version 4 identifier drawn for the operation.
def FreshNames (s : Ledger) : Operation → Prop
  | .insertFileWithChunks _ chunks => ∀ chunk ∈ chunks, chunk.blobName ∉ s.everNamed
  | .commitEpochFlush record _ _ => record.blobName ∉ s.everNamed
  | _ => True

-- An epoch blob is committed with the files it was packed from.
def Filled : Operation → Prop
  | .commitEpochFlush _ extents _ => extents ≠ []
  | _ => True

-- Every epoch blob is in use.
def Recorded (m : Manifest) : Prop :=
  ∀ record ∈ m.epochBlobs, ∃ row ∈ m.chunks, epochIdOf row = some record.epochBlobId

structure Tracked (s : Ledger) : Prop where
  named : Named s.manifest
  recorded : Recorded s.manifest
  listed : ∀ name ∈ listAllBlobNames s.manifest, name ∈ s.everNamed
  waiting : ∀ name ∈ queuedNames s.manifest, name ∈ s.everNamed
  complete : ∀ name ∈ s.everNamed, name ∉ listAllBlobNames s.manifest → name ∉ s.completed →
    name ∈ queuedNames s.manifest

variable {s next : Ledger} {m n : Manifest} {name : BlobName} {now : Int} {id : Uuid}

theorem unqueued_iff : Unqueued m name ↔ name ∉ queuedNames m := by
  simp [Unqueued,queuedNames]

theorem tracked_exact (tracked : Tracked s) : QueueExact s :=
  ⟨fun name listed => unqueued_iff.mp (tracked.named.free name listed),tracked.complete⟩

theorem fresh_unnamed (tracked : Tracked s) (fresh : name ∉ s.everNamed) : Unnamed s.manifest name :=
  ⟨fun listed => fresh (tracked.listed name listed),
    unqueued_iff.mpr fun queued => fresh (tracked.waiting name queued)⟩

theorem created_tracked (root : Uuid) (values : ManifestMeta) : Tracked (created root values) := by
  refine ⟨⟨created_valid root values,?_,?_⟩,?_,?_,?_,?_⟩
  · intro row member
    cases member
  · intro name listed
    cases listed
  · intro record member
    cases member
  · intro name listed
    cases listed
  · intro name queued
    cases queued
  · intro name ever
    cases ever

-- An operation that adds rows only, each epoch blob with its chunks.
theorem grown_tracked (tracked : Tracked s) (grown : Grown s.manifest n) (recorded : Recorded n)
    (kept : ∀ name ∈ listAllBlobNames s.manifest, name ∈ listAllBlobNames n)
    (queue : n.pendingDeletions = s.manifest.pendingDeletions) (completed : List BlobName) :
    Tracked ⟨n,s.everNamed ++ listAllBlobNames n,s.completed ++ completed⟩ := by
  have same : queuedNames n = queuedNames s.manifest := by rw [queuedNames,queue,queuedNames]
  refine ⟨grown_named tracked.named grown,recorded,?_,?_,?_⟩
  · intro name listed
    exact List.mem_append_right _ listed
  · intro name queued
    exact List.mem_append_left _ (tracked.waiting name (same ▸ queued))
  · intro name ever unlisted uncompleted
    rcases List.mem_append.mp ever with earlier | listed
    · refine same ▸ tracked.complete name earlier (fun listed => unlisted (kept name listed)) ?_
      exact fun done => uncompleted (List.mem_append_left _ done)
    · exact absurd listed unlisted

theorem tree_tracked (tracked : Tracked s) (after : Valid n) (chunks : n.chunks = s.manifest.chunks)
    (blobs : n.epochBlobs = s.manifest.epochBlobs) (queue : n.pendingDeletions = s.manifest.pendingDeletions)
    (completed : List BlobName) : Tracked ⟨n,s.everNamed ++ listAllBlobNames n,s.completed ++ completed⟩ := by
  refine grown_tracked tracked (same_rows_grown after chunks blobs fun _ member => queue ▸ member) ?_ ?_ queue
    completed
  · rw [Recorded,chunks,blobs]
    exact tracked.recorded
  · intro name listed
    rw [same_rows_names chunks blobs]
    exact listed

theorem insert_file_tracked {node : Node} {chunks : List ChunkRecord} (tracked : Tracked s)
    (fresh : ∀ chunk ∈ chunks, chunk.blobName ∉ s.everNamed) (effect : FileInserted s.manifest node chunks n)
    (completed : List BlobName) : Tracked ⟨n,s.everNamed ++ listAllBlobNames n,s.completed ++ completed⟩ := by
  have unnamed : ∀ chunk ∈ chunks, Unnamed s.manifest chunk.blobName := fun chunk member =>
    fresh_unnamed tracked (fresh chunk member)
  obtain ⟨grown,_⟩ := insert_file_grown tracked.named effect unnamed
  have rows : n.chunks = s.manifest.chunks ++ chunks.map flatRow := by rw [effect.result]
  have blobs : n.epochBlobs = s.manifest.epochBlobs := by rw [effect.result]
  refine grown_tracked tracked grown ?_ ?_ (by rw [effect.result]) completed
  · intro record member
    rw [blobs] at member
    obtain ⟨row,there,points⟩ := tracked.recorded record member
    exact ⟨row,rows ▸ List.mem_append_left _ there,points⟩
  · intro name listed
    rcases mem_listAllBlobNames.mp listed with ⟨row,there,kind⟩ | ⟨record,there,called⟩
    · exact mem_listAllBlobNames.mpr (.inl ⟨row,rows ▸ List.mem_append_left _ there,kind⟩)
    · exact mem_listAllBlobNames.mpr (.inr ⟨record,blobs ▸ there,called⟩)

theorem commit_tracked {record : EpochBlobRecord} {extents : List Extent} {newV4 : Nat → Uuid} (tracked : Tracked s)
    (fresh : record.blobName ∉ s.everNamed) (filled : extents ≠ [])
    (accepted : commitEpochFlush s.manifest record extents newV4 = .ok n) (completed : List BlobName) :
    Tracked ⟨n,s.everNamed ++ listAllBlobNames n,s.completed ++ completed⟩ := by
  obtain ⟨grown,_⟩ := commit_grown tracked.named accepted (fresh_unnamed tracked fresh)
  obtain ⟨packed,registered,rfl⟩ := commit_epoch_flush.mp accepted
  have effect := reinsert_epoch_blob registered
  have rows : packed.chunks = s.manifest.chunks ++ epochRows record newV4 extents := by rw [effect.result]
  have blobs : packed.epochBlobs = s.manifest.epochBlobs ++ [record] := by rw [effect.result]
  refine grown_tracked tracked grown ?_ ?_ (by rw [effect.result]) completed
  · intro other member
    dsimp only at member ⊢
    rw [blobs] at member
    rw [rows]
    rcases List.mem_append.mp member with old | new
    · obtain ⟨row,there,points⟩ := tracked.recorded other old
      exact ⟨row,List.mem_append_left _ there,points⟩
    · rw [List.mem_singleton.mp new]
      obtain ⟨extent,some⟩ := List.exists_mem_of_ne_nil extents filled
      obtain ⟨row,there,_,kind⟩ : ∃ row ∈ epochRows record newV4 extents, _ ∧ _ := extent_epoch_row some
      exact ⟨row,List.mem_append_right _ there,by rw [epochIdOf,kind]⟩
  · intro name listed
    rcases mem_listAllBlobNames.mp listed with ⟨row,there,kind⟩ | ⟨other,there,called⟩
    · exact mem_listAllBlobNames.mpr (.inl ⟨row,rows ▸ List.mem_append_left _ there,kind⟩)
    · exact mem_listAllBlobNames.mpr (.inr ⟨other,blobs ▸ List.mem_append_left _ there,called⟩)

theorem enqueue_keeps {queue : List PendingDeletion} (queued : name ∈ queue.map (·.blobName)) :
    name ∈ (enqueue now queue other).map (·.blobName) := by
  unfold enqueue
  split
  · exact queued
  · rw [List.map_append]
    exact List.mem_append_left _ queued

theorem enqueue_adds {queue : List PendingDeletion} : name ∈ (enqueue now queue name).map (·.blobName) := by
  unfold enqueue
  split
  · assumption
  · simp

theorem enqueued {names : List BlobName} {queue : List PendingDeletion}
    (there : name ∈ queue.map (·.blobName) ∨ name ∈ names) :
    name ∈ (names.foldl (enqueue now) queue).map (·.blobName) := by
  induction names generalizing queue with
  | nil => simpa using there
  | cons first rest ih =>
    rw [List.foldl_cons]
    apply ih
    rcases there with queued | member
    · exact .inl (enqueue_keeps queued)
    · rcases List.mem_cons.mp member with same | later
      · rw [same]
        exact .inl enqueue_adds
      · exact .inr later

theorem dropped_orphaned (recorded : Recorded m) (effect : NodeDeleted m id now n)
    (listed : name ∈ listAllBlobNames m) (unlisted : name ∉ listAllBlobNames n) :
    name ∈ orphanedNames m (subtree m id) := by
  have without := delete_without effect
  simp only [orphanedNames,List.mem_append,List.mem_filterMap,List.mem_filter,List.mem_map,decide_eq_true_eq]
  rcases mem_listAllBlobNames.mp listed with ⟨row,there,kind⟩ | ⟨record,there,called⟩
  · refine .inl ⟨row,⟨there,?_⟩,by rw [flatName,kind]⟩
    by_contra outside
    exact unlisted (mem_listAllBlobNames.mpr (.inl ⟨row,without.mem_chunks.mpr ⟨there,outside⟩,kind⟩))
  · have gone : ∀ row ∈ m.chunks, epochIdOf row = some record.epochBlobId → row.nodeId ∈ subtree m id := by
      intro row member points
      by_contra outside
      apply unlisted
      refine mem_listAllBlobNames.mpr (.inr ⟨record,without.needed record there ⟨row,?_,points⟩,called⟩)
      exact without.mem_chunks.mpr ⟨member,outside⟩
    obtain ⟨row,member,points⟩ := recorded record there
    exact .inr ⟨record,⟨there,⟨row,⟨member,gone row member points⟩,points⟩,gone⟩,called⟩

theorem delete_tracked (tracked : Tracked s) (effect : NodeDeleted s.manifest id now n) (completed : List BlobName) :
    Tracked ⟨n,s.everNamed ++ listAllBlobNames n,s.completed ++ completed⟩ := by
  have without := delete_without effect
  have queue : queuedNames n =
      ((orphanedNames s.manifest (subtree s.manifest id)).foldl (enqueue now) s.manifest.pendingDeletions).map
        (·.blobName) := by
    rw [queuedNames,effect.pendingDeletions]
  refine ⟨delete_named tracked.named effect,?_,?_,?_,?_⟩
  · intro record member
    rw [effect.epochBlobs,List.mem_filter,decide_eq_true_eq] at member
    exact member.2
  · intro name listed
    exact List.mem_append_right _ listed
  · intro name queued
    rw [queue] at queued
    obtain ⟨entry,there,called⟩ := List.mem_map.mp queued
    apply List.mem_append_left
    rcases mem_enqueued there with old | orphan
    · exact tracked.waiting name (List.mem_map.mpr ⟨entry,old,called⟩)
    · rw [called] at orphan
      apply tracked.listed
      rcases mem_orphaned orphan with ⟨row,member,_,kind⟩ | ⟨record,member,called,_⟩
      · exact mem_listAllBlobNames.mpr (.inl ⟨row,member,kind⟩)
      · exact mem_listAllBlobNames.mpr (.inr ⟨record,member,called⟩)
  · intro name ever unlisted uncompleted
    rcases List.mem_append.mp ever with earlier | listed
    · rw [queue]
      apply enqueued
      by_cases listed : name ∈ listAllBlobNames s.manifest
      · exact .inr (dropped_orphaned tracked.recorded effect listed unlisted)
      · exact .inl (tracked.complete name earlier listed fun done => uncompleted (List.mem_append_left _ done))
    · exact absurd listed unlisted

theorem mark_tracked (tracked : Tracked s) (name : BlobName) :
    Tracked ⟨markDeletionComplete s.manifest name,
      s.everNamed ++ listAllBlobNames (markDeletionComplete s.manifest name),
      s.completed ++ completes s.manifest (.markDeletionComplete name)⟩ := by
  have queue {other : BlobName} : other ∈ queuedNames (markDeletionComplete s.manifest name) ↔
      other ∈ queuedNames s.manifest ∧ other ≠ name := by
    simp only [queuedNames,markDeletionComplete,List.mem_map,List.mem_filter,decide_eq_true_eq]
    constructor
    · rintro ⟨entry,⟨there,kept⟩,called⟩
      exact ⟨⟨entry,there,called⟩,called ▸ kept⟩
    · rintro ⟨⟨entry,there,called⟩,kept⟩
      exact ⟨entry,⟨there,called ▸ kept⟩,called⟩
  have valid : Valid (markDeletionComplete s.manifest name) := by
    obtain ⟨a,b,c,d,e,f,g,h,i,j,k⟩ := tracked.named.valid
    exact ⟨a,b,c,d,e,f,g,h,i,j,k⟩
  refine ⟨grown_named tracked.named (same_rows_grown valid rfl rfl fun entry queued => ?_),tracked.recorded,?_,?_,?_⟩
  · exact List.mem_of_mem_filter queued
  · intro other listed
    exact List.mem_append_left _ (tracked.listed other listed)
  · intro other queued
    exact List.mem_append_left _ (tracked.waiting other (queue.mp queued).1)
  · intro other ever unlisted uncompleted
    rcases List.mem_append.mp ever with earlier | listed
    · have queued := tracked.complete other earlier unlisted fun done => uncompleted (List.mem_append_left _ done)
      refine queue.mpr ⟨queued,fun same => uncompleted (List.mem_append_right _ ?_)⟩
      exact List.mem_filter.mpr ⟨queued,decide_eq_true same⟩
    · exact absurd listed unlisted

theorem step_tracked (tracked : Tracked s) (operation : Operation) (fresh : FreshNames s operation)
    (filled : Filled operation) (taken : step s operation = some next) : Tracked next := by
  unfold step at taken
  cases performed : perform s.manifest operation with
  | error refusal =>
    rw [performed] at taken
    cases taken
    exact tracked
  | ok n =>
    rw [performed] at taken
    cases taken
    cases operation with
    | insertNode node =>
      have effect := insert_node_tx performed
      refine tree_tracked tracked (insert_node_valid tracked.named.valid effect) ?_ ?_ ?_ _
      all_goals rw [effect.result]
    | insertFileWithChunks node chunks =>
      exact insert_file_tracked tracked fresh (insert_file_with_chunks performed) _
    | commitEpochFlush record extents newV4 => exact commit_tracked tracked fresh filled performed _
    | insertFileNodeAndStageEpochEntry node plaintext entryId queuedAt =>
      have effect := insert_file_node_and_stage performed
      refine tree_tracked tracked (stage_valid tracked.named.valid effect rfl) ?_ ?_ ?_ _
      all_goals rw [effect.result]
    | moveNode id newParent modifiedAt =>
      have effect := move_node performed
      refine tree_tracked tracked (move_valid tracked.named.valid effect) ?_ ?_ ?_ _
      all_goals rw [effect.result]
    | renameNode id name modifiedAt =>
      have effect := rename_node performed
      refine tree_tracked tracked (rename_valid tracked.named.valid performed) ?_ ?_ ?_ _
      all_goals rw [effect]
    | deleteNode id now => exact delete_tracked tracked (delete_node performed) _
    | markDeletionComplete name =>
      cases performed
      exact mark_tracked tracked name

-- At every point of every run the queue holds exactly what it should.
theorem deletion_queue_exact (root : Uuid) (values : ManifestMeta) (operations : List Operation)
    (guarded : Guarded step (fun s operation => FreshNames s operation ∧ Filled operation)
      (created root values) operations) :
    Along step QueueExact (created root values) operations := by
  refine along_mono (fun _ => tracked_exact) (along_guarded ?_ (created_tracked root values) guarded)
  intro s operation next tracked allowed taken
  exact step_tracked tracked operation allowed.1 allowed.2 taken

def someValues : ManifestMeta := ⟨9,0,none,131072,false,some 1⟩

def flatFile : Node := ⟨2,some 1,.file,"a",0,0,5,some (byteKey 0)⟩

def flatChunk : ChunkRecord := ⟨20,2,0,21,131072,[],none,none,none⟩

theorem flat_file_exact : Along step QueueExact (created 1 someValues)
    [.insertFileWithChunks flatFile [flatChunk],.deleteNode 2 7] := by
  refine deletion_queue_exact 1 someValues _ (guarded_cons ⟨?_,trivial⟩ rfl (guarded_last ⟨trivial,trivial⟩))
  intro chunk member
  exact List.not_mem_nil

def emptyBlob : EpochBlobRecord := ⟨30,31,[],131072,[]⟩

-- An epoch blob without extents is accepted; the next deletion of any node drops
-- its row, and the name is not queued.
theorem empty_epoch_blob_unqueued : ∃ operations last, run step (created 1 someValues) operations = some last ∧
    Guarded step FreshNames (created 1 someValues) operations ∧ ¬ Along step QueueExact (created 1 someValues) operations := by
  have ran : run step (created 1 someValues) [.commitEpochFlush emptyBlob [] (fun i => i),
    .insertFileWithChunks flatFile [flatChunk],.deleteNode 2 7] = some ⟨_,_,_⟩ := rfl
  refine ⟨_,_,ran,guarded_cons ?_ rfl (guarded_cons ?_ rfl (guarded_last trivial)),fun along => ?_⟩
  · exact List.not_mem_nil
  · intro chunk member
    rw [List.mem_singleton.mp member]
    decide
  · have exact' := (along_last along ran).complete 31
    revert exact'
    decide +kernel

end ArxRuna.Store.Queue
