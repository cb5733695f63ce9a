import ArxRuna.Library.Run
import ArxRuna.Epoch.Flush
namespace ArxRuna.Epoch.History
open Library.Aead Library.Packing Library.Run Library.Fallible Crypto Store.Tables Store.Operations
open Store.Effects Store.Integrity Store.Staging Epoch.Flush

-- One flush in progress. The entries were read once, when it began; nothing here
-- looks at the buffer again.
structure FlushTask where
  stagingDir : Place
  chunkSize : Nat
  batch : Batch
  written : Option SealedBlob
  later : List Batch

-- `staged` is a history of what the caller was told had been staged, less what
-- has been deleted since. No step reads it.
structure State where
  manifest : Manifest
  files : Files
  flush : Option FlushTask
  staged : List (Uuid × Bytes)

inductive Action where
  | insertNode (node : Node)
  | insertFileNodeAndStageEpochEntry (node : Node) (plaintext : Bytes) (entryId : Uuid) (queuedAt : Int)
  | deleteNode (id : Uuid) (now : Int)
  | getEpochBufferEntries (stagingDir : Place) (chunkSize : Nat)
  | writeBlob (epochBlobId : Uuid) (fileKey : FileKey) (wrapNonce chunkNonce : Nonce)
  | writeFails (epochBlobId : Uuid) (leftover : Option Bytes)
  | commitEpochFlush (newV4 : Nat → Uuid)
  | commitFails
  | stop
  | restart (moved : BlobName → Bool) (swept : Place → BlobName → Bool)

def nextTask (stagingDir : Place) (chunkSize : Nat) : List Batch → Option FlushTask
  | [] => none
  | batch :: later => some ⟨stagingDir,chunkSize,batch,none,later⟩

-- A version 4 identifier just drawn names nothing yet.
def FreshBlob (s : State) (id : Uuid) : Prop :=
  (s.files .pending id = none ∧ s.files .cache id = none ∧ s.files .flat id = none) ∧
    ∀ record ∈ s.manifest.epochBlobs, record.blobName ≠ id

instance (s : State) (id : Uuid) : Decidable (FreshBlob s id) := by unfold FreshBlob; infer_instance

def committed (s : State) (result : Except StorageError Manifest) : State :=
  match result with
  | .error _ => s
  | .ok m => {s with manifest := m}

def step (prims : Primitives) (kek : KeyEncryptionKey) (s : State) : Action → Option State
  | .insertNode node => some (committed s (insertNodeTx s.manifest node))
  | .insertFileNodeAndStageEpochEntry node plaintext entryId queuedAt =>
    match Store.Operations.insertFileNodeAndStageEpochEntry s.manifest node plaintext entryId queuedAt with
    | .error _ => some s
    | .ok m => some {s with manifest := m,staged := (node.nodeId,plaintext) :: s.staged}
  | .deleteNode id now =>
    match Store.Operations.deleteNode s.manifest id now with
    | .error _ => some s
    | .ok m => some {s with manifest := m,staged := s.staged.filter fun file => (m.node? file.1).isSome}
  | .getEpochBufferEntries stagingDir chunkSize =>
    match s.flush with
    | some _ => none
    | none =>
      let entries := Store.Tables.getEpochBufferEntries s.manifest
      some {s with flush := nextTask stagingDir chunkSize (flushBatches chunkSize entries)}
  | .writeBlob id fileKey wrapNonce chunkNonce =>
    match s.flush with
    | none => none
    | some task =>
      if task.written.isSome ∨ ¬ FreshBlob s id then none else
        let blob := sealBatch prims kek task.chunkSize task.batch id fileKey wrapNonce chunkNonce
        some {s with
          files := s.files.write task.stagingDir blob.record.blobName (some blob.bytes)
          flush := some {task with written := some blob}}
  | .writeFails id leftover =>
    match s.flush with
    | none => none
    | some task =>
      if task.written.isSome ∨ ¬ FreshBlob s id then none else
        some {s with files := s.files.write task.stagingDir id leftover,flush := none}
  | .commitEpochFlush newV4 =>
    match s.flush with
    | none => none
    | some task =>
      match task.written with
      | none => none
      | some blob =>
        match Store.Operations.commitEpochFlush s.manifest blob.record blob.extents newV4 with
        | .error _ => some {s with flush := none}
        | .ok m => some {s with manifest := m,flush := nextTask task.stagingDir task.chunkSize task.later}
  | .commitFails =>
    match s.flush with
    | none => none
    | some _ => some {s with flush := none}
  | .stop => some {s with flush := none}
  | .restart moved swept =>
    some {s with files := prepareVaultStorage s.manifest moved swept s.files,flush := none}

variable (prims : Primitives) (kek : KeyEncryptionKey)

def Recovered (files : Files) (m : Manifest) (node : Uuid) (plaintext : Bytes) : Prop :=
  ∃ chunks, getChunks m node = .ok chunks ∧
    ∃ chunk ∈ chunks, decryptEpochFileToMemory prims kek files m chunk = .ok plaintext

def Buffered (m : Manifest) (node : Uuid) (plaintext : Bytes) : Prop :=
  ∃ entry ∈ m.epochBuffer, entry.nodeId = node ∧ entry.plaintext = plaintext

def Kept (s : State) : Prop :=
  ∀ file ∈ s.staged, Buffered s.manifest file.1 file.2 ∨ Recovered prims kek s.files s.manifest file.1 file.2

-- The condition on a commit: every row it would clear is one of the files of the
-- blob it registers. Nothing is asked of the other steps.
def Covers (s : State) : Action → Prop
  | .commitEpochFlush newV4 => ∀ task ∈ s.flush, ∀ blob ∈ task.written,
      (∃ m, Store.Operations.commitEpochFlush s.manifest blob.record blob.extents newV4 = .ok m) →
      ∀ entry ∈ s.manifest.epochBuffer, (entry.nodeId,entry.plaintext) ∈ task.batch
  | _ => True

-- A chunk row whose extent opens, whatever copy of the blob file is read.
structure Opens (files : Files) (m : Manifest) (row : ChunkRow) (plaintext : Bytes) : Prop where
  blob : ∃ id offset length record bytes, row.source = .epoch id offset length ∧
    m.epochBlob? id = some record ∧ Intact files record.blobName bytes ∧
    openEpochBlob prims kek record bytes offset length = .ok plaintext

def Packed (s : State) (node : Uuid) (plaintext : Bytes) : Prop :=
  ∃ row ∈ s.manifest.chunks, row.nodeId = node ∧ Opens prims kek s.files s.manifest row plaintext

structure WrittenBlob (s : State) (task : FlushTask) (blob : SealedBlob) : Prop where
  sealing : ∃ id fileKey wrapNonce chunkNonce,
    blob = sealBatch prims kek task.chunkSize task.batch id fileKey wrapNonce chunkNonce
  file : Intact s.files blob.record.blobName blob.bytes
  fresh : ∀ record ∈ s.manifest.epochBlobs, record.blobName ≠ blob.record.blobName

structure Invariant (s : State) : Prop where
  valid : Valid s.manifest
  unpacked : ∀ entry ∈ s.manifest.epochBuffer, ∀ row ∈ s.manifest.chunks, row.nodeId ≠ entry.nodeId
  tracked : ∀ entry ∈ s.manifest.epochBuffer, (entry.nodeId,entry.plaintext) ∈ s.staged
  kept : ∀ file ∈ s.staged, Buffered s.manifest file.1 file.2 ∨ Packed prims kek s file.1 file.2
  written : ∀ task ∈ s.flush, ∀ blob ∈ task.written, WrittenBlob prims kek s task blob

variable {prims : Primitives} {kek : KeyEncryptionKey} {s next : State} {m : Manifest} {files : Files}
  {row : ChunkRow} {id : Uuid}

theorem decrypt_row (kind : row.source = .epoch id offset length) (resolved : row.resolve m = .ok chunk) :
    decryptEpochFileToMemory prims kek files m chunk = .ok plaintext ↔
    ∃ record bytes, m.epochBlob? id = some record ∧ readBlob files record.blobName = .ok bytes ∧
      openEpochBlob prims kek record bytes offset length = .ok plaintext := by
  simp only [ChunkRow.resolve,kind] at resolved
  cases found : m.epochBlob? id with
  | none => simp [found] at resolved
  | some record =>
    simp only [found,Except.ok.injEq] at resolved
    cases resolved
    simp only [decryptEpochFileToMemory,getEpochBlob,found,bind_ok]
    constructor
    · rintro ⟨_,same,bytes,read,opened⟩
      cases same
      exact ⟨record,bytes,rfl,read,opened⟩
    · rintro ⟨_,bytes,same,read,opened⟩
      cases same
      exact ⟨record,rfl,bytes,read,opened⟩

theorem packed_recovered (valid : Valid s.manifest) (packed : Packed prims kek s node plaintext) :
    Recovered prims kek s.files s.manifest node plaintext := by
  obtain ⟨row,member,named,⟨id,offset,length,record,bytes,kind,found,intact,opened⟩⟩ := packed
  obtain ⟨chunks,listed⟩ := valid.getChunks node
  obtain ⟨chunk,resolved⟩ := valid.resolve member
  refine ⟨chunks,listed,chunk,(mem_getChunks listed).mpr ⟨row,member,named,resolved⟩,?_⟩
  exact (decrypt_row kind resolved).mpr ⟨record,bytes,found,intact.read,opened⟩

theorem invariant_kept (inv : Invariant prims kek s) : Kept prims kek s := fun file member =>
  (inv.kept file member).imp (fun buffered => buffered) (packed_recovered inv.valid)

-- What a packed file needs of a step: its row stays, the record of that row
-- stays, and no copy of the blob file changes.
theorem packed_next (packed : Packed prims kek s node plaintext) (before : Valid s.manifest)
    (after : Valid next.manifest)
    (rows : ∀ row ∈ s.manifest.chunks, row.nodeId = node → row ∈ next.manifest.chunks)
    (records : ∀ row ∈ next.manifest.chunks, ∀ record ∈ s.manifest.epochBlobs,
      epochIdOf row = some record.epochBlobId → record ∈ next.manifest.epochBlobs)
    (files : ∀ record ∈ s.manifest.epochBlobs, ∀ bytes, Intact s.files record.blobName bytes →
      Intact next.files record.blobName bytes) : Packed prims kek next node plaintext := by
  obtain ⟨row,member,named,⟨id,offset,length,record,bytes,kind,found,intact,opened⟩⟩ := packed
  obtain ⟨there,same⟩ := before.epochBlob?.mp found
  have kept := rows row member named
  refine ⟨row,kept,named,⟨id,offset,length,record,bytes,kind,?_,files record there bytes intact,opened⟩⟩
  refine after.epochBlob?.mpr ⟨records row kept record there ?_,same⟩
  simp only [epochIdOf,kind,same]

-- A step that leaves chunks, blobs and files alone keeps every packed file.
theorem packed_same (packed : Packed prims kek s node plaintext)
    (chunks : next.manifest.chunks = s.manifest.chunks) (blobs : next.manifest.epochBlobs = s.manifest.epochBlobs)
    (files : next.files = s.files) : Packed prims kek next node plaintext := by
  obtain ⟨row,member,named,⟨id,offset,length,record,bytes,kind,found,intact,opened⟩⟩ := packed
  refine ⟨row,chunks ▸ member,named,⟨id,offset,length,record,bytes,kind,?_,files ▸ intact,opened⟩⟩
  rwa [Manifest.epochBlob?,blobs]

theorem insert_node_preserves (inv : Invariant prims kek s) :
    Invariant prims kek (committed s (insertNodeTx s.manifest node)) := by
  cases inserted : insertNodeTx s.manifest node with
  | error failure => exact inv
  | ok m =>
    have effect := insert_node_tx inserted
    have valid := insert_node_valid inv.valid effect
    cases effect.result
    refine ⟨valid,inv.unpacked,inv.tracked,fun file member => ?_,fun task active blob written => ?_⟩
    · rcases inv.kept file member with buffered | packed
      · exact .inl buffered
      · exact .inr (packed_same packed rfl rfl rfl)
    · obtain ⟨sealing,file,fresh⟩ := inv.written task active blob written
      exact ⟨sealing,file,fresh⟩

theorem stage_preserves (inv : Invariant prims kek s)
    (accepted : Store.Operations.insertFileNodeAndStageEpochEntry s.manifest node plaintext entryId queuedAt = .ok m) :
    Invariant prims kek {s with manifest := m,staged := (node.nodeId,plaintext) :: s.staged} := by
  have effect := insert_file_node_and_stage accepted
  have valid := stage_valid inv.valid effect rfl
  have fresh := effect.inserted.fresh
  cases effect.result
  refine ⟨valid,?_,?_,?_,fun task active blob written => ?_⟩
  · intro entry member row there
    rcases List.mem_append.mp member with old | new
    · exact inv.unpacked entry old row there
    · -- no chunk row can name a node that did not exist
      obtain ⟨other,present,named⟩ := inv.valid.chunkNodes row there
      rw [List.mem_singleton.mp new,← named]
      exact fresh other present
  · intro entry member
    rcases List.mem_append.mp member with old | new
    · exact List.mem_cons_of_mem _ (inv.tracked entry old)
    · rw [List.mem_singleton.mp new]
      exact List.mem_cons_self
  · intro file member
    rcases List.mem_cons.mp member with rfl | old
    · exact .inl ⟨_,List.mem_append_right _ List.mem_cons_self,rfl,rfl⟩
    · rcases inv.kept file old with ⟨entry,there,same⟩ | packed
      · exact .inl ⟨entry,List.mem_append_left _ there,same⟩
      · exact .inr (packed_same packed rfl rfl rfl)
  · obtain ⟨sealing,file,fresh⟩ := inv.written task active blob written
    exact ⟨sealing,file,fresh⟩

theorem delete_preserves (inv : Invariant prims kek s)
    (accepted : Store.Operations.deleteNode s.manifest id now = .ok m) :
    Invariant prims kek
      {s with manifest := m,staged := s.staged.filter fun file => (m.node? file.1).isSome} := by
  have effect := delete_node accepted
  have valid := delete_valid inv.valid effect
  have bufferOld {entry : EpochBufferEntry} (member : entry ∈ m.epochBuffer) : entry ∈ s.manifest.epochBuffer :=
    List.mem_of_mem_filter (effect.epochBuffer ▸ member)
  have rowOld {row : ChunkRow} (member : row ∈ m.chunks) : row ∈ s.manifest.chunks :=
    List.mem_of_mem_filter (effect.chunks ▸ member)
  have survives {node : Uuid} (present : (m.node? node).isSome) : node ∉ subtree s.manifest id := by
    obtain ⟨other,there,named⟩ := node?_isSome.mp present
    have kept := List.of_mem_filter (effect.nodes ▸ there)
    simpa [named] using kept
  refine ⟨valid,fun entry member row there => inv.unpacked entry (bufferOld member) row (rowOld there),?_,?_,?_⟩
  · intro entry member
    refine List.mem_filter.mpr ⟨inv.tracked entry (bufferOld member),?_⟩
    exact node?_isSome.mpr (valid.bufferNodes entry member)
  · intro file member
    obtain ⟨old,present⟩ := List.mem_filter.mp member
    have outside := survives present
    rcases inv.kept file old with ⟨entry,there,named,same⟩ | packed
    · refine .inl ⟨entry,?_,named,same⟩
      rw [effect.epochBuffer]
      exact List.mem_filter.mpr ⟨there,by simpa [named] using outside⟩
    · refine .inr (packed_next packed inv.valid valid ?_ ?_ fun _ _ _ intact => intact)
      · intro row there named
        rw [effect.chunks]
        exact List.mem_filter.mpr ⟨there,by simpa [named] using outside⟩
      · intro row there record known points
        rw [effect.epochBlobs]
        exact List.mem_filter.mpr ⟨known,by simpa using ⟨row,there,points⟩⟩
  · intro task active blob written
    obtain ⟨sealing,file,fresh⟩ := inv.written task active blob written
    refine ⟨sealing,file,fun record known => fresh record ?_⟩
    exact List.mem_of_mem_filter (effect.epochBlobs ▸ known)

-- Without a flush in progress the last clause is vacuous.
theorem idle_preserves (inv : Invariant prims kek s) : Invariant prims kek {s with flush := none} :=
  ⟨inv.valid,inv.unpacked,inv.tracked,inv.kept,by rintro _ ⟨⟩⟩

theorem begin_preserves (inv : Invariant prims kek s) (batches : List Batch) :
    Invariant prims kek {s with flush := nextTask stagingDir chunkSize batches} := by
  refine ⟨inv.valid,inv.unpacked,inv.tracked,inv.kept,fun task active blob written => ?_⟩
  cases batches with
  | nil => cases active
  | cons batch later => cases active; cases written

theorem FreshBlob.absent (fresh : FreshBlob s id) (place : Place) : s.files place id = none := by
  obtain ⟨⟨pending,cache,flat⟩,_⟩ := fresh
  cases place <;> assumption

theorem write_fresh_kept (inv : Invariant prims kek s) (fresh : FreshBlob s id)
    (member : file ∈ s.staged) :
    Buffered s.manifest file.1 file.2 ∨
      Packed prims kek {s with files := s.files.write place id value,flush := task} file.1 file.2 := by
  rcases inv.kept file member with buffered | packed
  · exact .inl buffered
  · refine .inr (packed_next packed inv.valid inv.valid (fun _ there _ => there) (fun _ _ _ known _ => known) ?_)
    intro record known bytes intact
    exact intact.write_other (fresh.2 record known)

theorem write_blob_preserves {task : FlushTask} {blob : SealedBlob} (inv : Invariant prims kek s) (fresh : FreshBlob s id)
    (sealing : blob = sealBatch prims kek task.chunkSize task.batch id fileKey wrapNonce chunkNonce) :
    Invariant prims kek {s with
      files := s.files.write task.stagingDir blob.record.blobName (some blob.bytes)
      flush := some {task with written := some blob}} := by
  have name : blob.record.blobName = id := by rw [sealing]; rfl
  refine ⟨inv.valid,inv.unpacked,inv.tracked,fun file member => ?_,fun other active written here => ?_⟩
  · rw [name]
    exact write_fresh_kept inv fresh member
  · cases active
    cases here
    refine ⟨⟨id,fileKey,wrapNonce,chunkNonce,sealing⟩,?_,?_⟩
    · rw [name]
      exact write_fresh_intact fresh.absent
    · rw [name]
      exact fresh.2

theorem write_fails_preserves (inv : Invariant prims kek s) (fresh : FreshBlob s id) :
    Invariant prims kek {s with files := s.files.write place id leftover,flush := none} :=
  ⟨inv.valid,inv.unpacked,inv.tracked,fun _ member => write_fresh_kept inv fresh member,by rintro _ ⟨⟩⟩

theorem restart_preserves (inv : Invariant prims kek s) : Invariant prims kek
    {s with files := prepareVaultStorage s.manifest moved swept s.files,flush := none} := by
  refine ⟨inv.valid,inv.unpacked,inv.tracked,fun file member => ?_,by rintro _ ⟨⟩⟩
  rcases inv.kept file member with buffered | packed
  · exact .inl buffered
  · refine .inr (packed_next packed inv.valid inv.valid (fun _ there _ => there) (fun _ _ _ known _ => known) ?_)
    intro record known bytes intact
    exact intact.prepare (mem_listAllBlobNames.mpr (.inr ⟨record,known,rfl⟩))

-- What a commit leaves: the registered blob with its rows, and an empty buffer.
structure Committed (m : Manifest) (blob : SealedBlob) (rows : List ChunkRow) (n : Manifest) : Prop where
  registered : EpochBlobRegistered m blob.record rows {n with epochBuffer := m.epochBuffer}
  buffer : n.epochBuffer = []
  valid : Valid n

theorem commit_effect (valid : Valid m)
    (accepted : Store.Operations.commitEpochFlush m blob.record blob.extents newV4 = .ok n) :
    Committed m blob (epochRows blob.record newV4 blob.extents) n := by
  have result := commit_valid valid accepted
  obtain ⟨packed,registered,rfl⟩ := commit_epoch_flush.mp accepted
  have effect := reinsert_epoch_blob registered
  have same : {packed with epochBuffer := m.epochBuffer} = packed := by rw [effect.result]
  exact ⟨by rw [same]; exact effect,rfl,result⟩

theorem Committed.chunks {n : Manifest} (effect : Committed m blob rows n) : n.chunks = m.chunks ++ rows :=
  congrArg Manifest.chunks effect.registered.result

theorem Committed.blobs {n : Manifest} (effect : Committed m blob rows n) : n.epochBlobs = m.epochBlobs ++ [blob.record] :=
  congrArg Manifest.epochBlobs effect.registered.result

theorem commit_step (active : s.flush = some task) (written : task.written = some blob)
    (accepted : Store.Operations.commitEpochFlush s.manifest blob.record blob.extents newV4 = .ok m) :
    step prims kek s (.commitEpochFlush newV4) =
      some {s with manifest := m,flush := nextTask task.stagingDir task.chunkSize task.later} := by
  simp only [step,active,written,accepted]

theorem commit_preserves (inv : Invariant prims kek s) (active : s.flush = some task)
    (written : task.written = some blob)
    (accepted : Store.Operations.commitEpochFlush s.manifest blob.record blob.extents newV4 = .ok m)
    (covers : ∀ entry ∈ s.manifest.epochBuffer, (entry.nodeId,entry.plaintext) ∈ task.batch) :
    Invariant prims kek {s with manifest := m,flush := nextTask task.stagingDir task.chunkSize task.later} := by
  have effect := commit_effect inv.valid accepted
  obtain ⟨⟨blobId,fileKey,wrapNonce,chunkNonce,sealing⟩,file,_⟩ := inv.written task active blob written
  suffices settled : Invariant prims kek {s with manifest := m,flush := none} from
    begin_preserves settled task.later
  refine ⟨effect.valid,?_,?_,fun staged member => .inr ?_,by rintro _ ⟨⟩⟩
  · simp [effect.buffer]
  · simp [effect.buffer]
  rcases inv.kept staged member with ⟨entry,there,named,same⟩ | packed
  · -- the entry is one of the batch, so its extent is among the new rows
    have inBatch : (staged.1,staged.2) ∈ task.batch := by
      rw [← named,← same]
      exact covers entry there
    obtain ⟨extent,listed,owner,opens⟩ : ∃ extent ∈ (sealBatch prims kek task.chunkSize task.batch blobId
        fileKey wrapNonce chunkNonce).extents, extent.nodeId = staged.1 ∧ _ := batch_opens inBatch
    rw [← sealing] at listed opens
    obtain ⟨row,new,rowOwner,kind⟩ : ∃ row ∈ epochRows blob.record newV4 blob.extents,
        row.nodeId = extent.nodeId ∧ row.source = _ := extent_epoch_row listed
    have small := (effect.registered.rows.epoch row new _ _ _ kind).2
    refine ⟨row,effect.chunks ▸ List.mem_append_right _ new,rowOwner.trans owner,
      ⟨_,_,_,blob.record,blob.bytes,kind,?_,file,opens (by omega)⟩⟩
    exact effect.valid.epochBlob?.mpr ⟨effect.blobs ▸ List.mem_append_right _ List.mem_cons_self,rfl⟩
  · refine packed_next packed inv.valid effect.valid ?_ ?_ fun _ _ _ intact => intact
    · intro row there _
      exact effect.chunks ▸ List.mem_append_left _ there
    · intro _ _ record known _
      exact effect.blobs ▸ List.mem_append_left _ known

-- A commit that clears a row outside its blob loses that file: the node has no
-- other rows, and the rows of the blob open to other plaintexts.
theorem commit_breaks (inv : Invariant prims kek s) (active : s.flush = some task)
    (written : task.written = some blob)
    (accepted : Store.Operations.commitEpochFlush s.manifest blob.record blob.extents newV4 = .ok m)
    (entryThere : entry ∈ s.manifest.epochBuffer) (outside : (entry.nodeId,entry.plaintext) ∉ task.batch) :
    ¬ Kept prims kek {s with manifest := m,flush := nextTask task.stagingDir task.chunkSize task.later} := by
  intro kept
  have effect := commit_effect inv.valid accepted
  obtain ⟨⟨blobId,fileKey,wrapNonce,chunkNonce,sealing⟩,file,_⟩ := inv.written task active blob written
  rcases kept _ (inv.tracked entry entryThere) with ⟨other,there,_⟩ | ⟨chunks,listed,chunk,found,decrypted⟩
  · simp [effect.buffer] at there
  obtain ⟨row,member,named,resolved⟩ := (mem_getChunks listed).mp found
  have new : row ∈ epochRows blob.record newV4 blob.extents := by
    rcases List.mem_append.mp (effect.chunks ▸ member) with old | new
    · exact absurd named (inv.unpacked entry entryThere row old)
    · exact new
  obtain ⟨extent,inBlob,owner,_,kind⟩ := epoch_row_extent new
  have small := (effect.registered.rows.epoch row new _ _ _ kind).2
  obtain ⟨record,bytes,known,read,opened⟩ := (decrypt_row kind resolved).mp decrypted
  have self : record = blob.record := by
    have here := effect.valid.epochBlob?.mpr ⟨effect.blobs ▸ List.mem_append_right _ List.mem_cons_self,rfl⟩
    exact Option.some.inj (known.symm.trans here)
  cases self
  cases Except.ok.inj (read.symm.trans file.read)
  rw [sealing] at inBlob opened
  obtain ⟨plaintext,inBatch,opens⟩ := extent_opens inBlob (by omega)
  have same := Except.ok.inj (opened.symm.trans opens)
  rw [← owner,named,← same] at inBatch
  exact outside inBatch

theorem step_preserves (inv : Invariant prims kek s) (covers : Covers s act)
    (taken : step prims kek s act = some next) : Invariant prims kek next := by
  cases act with
  | insertNode node =>
    cases taken
    exact insert_node_preserves inv
  | insertFileNodeAndStageEpochEntry node plaintext entryId queuedAt =>
    simp only [step] at taken
    split at taken
    · cases taken; exact inv
    · rename_i m accepted
      cases taken
      exact stage_preserves inv accepted
  | deleteNode id now =>
    simp only [step] at taken
    split at taken
    · cases taken; exact inv
    · rename_i m accepted
      cases taken
      exact delete_preserves inv accepted
  | getEpochBufferEntries stagingDir chunkSize =>
    simp only [step] at taken
    split at taken
    · cases taken
    · cases taken; exact begin_preserves inv _
  | writeBlob id fileKey wrapNonce chunkNonce =>
    simp only [step] at taken
    split at taken
    · cases taken
    · split at taken
      · cases taken
      · rename_i ready
        obtain ⟨_,fresh⟩ := not_or.mp ready
        cases taken
        exact write_blob_preserves inv (not_not.mp fresh) rfl
  | writeFails id leftover =>
    simp only [step] at taken
    split at taken
    · cases taken
    · split at taken
      · cases taken
      · rename_i ready
        obtain ⟨_,fresh⟩ := not_or.mp ready
        cases taken
        exact write_fails_preserves inv (not_not.mp fresh)
  | commitEpochFlush newV4 =>
    simp only [step] at taken
    split at taken
    · cases taken
    · rename_i task active
      split at taken
      · cases taken
      · rename_i blob written
        split at taken
        · cases taken; exact idle_preserves inv
        · rename_i m accepted
          cases taken
          exact commit_preserves inv active written accepted (covers task active blob written ⟨m,accepted⟩)
  | commitFails =>
    simp only [step] at taken
    split at taken
    · cases taken
    · cases taken; exact idle_preserves inv
  | stop => cases taken; exact idle_preserves inv
  | restart moved swept => cases taken; exact restart_preserves inv

theorem step_breaks (inv : Invariant prims kek s) (uncovered : ¬ Covers s act)
    (taken : step prims kek s act = some next) : ¬ Kept prims kek next := by
  cases act with
  | commitEpochFlush newV4 =>
    simp only [Covers,not_forall] at uncovered
    obtain ⟨task,active,blob,written,⟨m,accepted⟩,entry,there,outside⟩ := uncovered
    cases Option.some.inj ((commit_step active written accepted).symm.trans taken)
    exact commit_breaks inv active written accepted there outside
  | _ => exact absurd trivial uncovered

-- A vault as it is opened: no flush is running, what is buffered has not been
-- packed yet, and the history starts with what is buffered.
structure Opened (s : State) : Prop where
  valid : Valid s.manifest
  unpacked : ∀ entry ∈ s.manifest.epochBuffer, ∀ row ∈ s.manifest.chunks, row.nodeId ≠ entry.nodeId
  idle : s.flush = none
  history : s.staged = s.manifest.epochBuffer.map fun entry => (entry.nodeId,entry.plaintext)

theorem opened_invariant (opened : Opened s) : Invariant prims kek s := by
  obtain ⟨valid,unpacked,idle,history⟩ := opened
  refine ⟨valid,unpacked,?_,?_,by simp [idle]⟩
  · intro entry member
    rw [history]
    exact List.mem_map_of_mem member
  · intro file member
    rw [history] at member
    obtain ⟨entry,there,rfl⟩ := List.mem_map.mp member
    exact .inl ⟨entry,there,rfl,rfl⟩

def created (root : Uuid) (values : ManifestMeta) : State :=
  ⟨createdManifest root values,noFiles,none,[]⟩

theorem created_opened (root : Uuid) (values : ManifestMeta) : Opened (created root values) := by
  exact ⟨created_valid root values,by simp [created,createdManifest],rfl,rfl⟩

-- Every staged file is kept at every point of a run iff every commit of the run
-- clears only files of its own blob.
theorem epoch_staging_kept_iff (opened : Opened s) (ran : run (step prims kek) s acts = some last) :
    Along (step prims kek) (Kept prims kek) s acts ↔ Guarded (step prims kek) Covers s acts :=
  along_iff_guarded (fun _ => invariant_kept) (fun _ _ _ => step_preserves) (fun _ _ _ => step_breaks)
    (opened_invariant opened) ran

-- A file is staged while the flush of an earlier one writes its blob.
def overlappingFile (id : Uuid) (name : String) : Node :=
  ⟨id,some 1,.file,name,0,0,2,some (byteKey 7)⟩

def overlappingVault : State := created 1 ⟨9,0,none,131072,true,some 1⟩

def overlappingStart : List Action :=
  [.insertFileNodeAndStageEpochEntry (overlappingFile 2 "a.txt") [10,11] 20 100,
   .getEpochBufferEntries .pending 131072,
   .writeBlob 30 (byteKey 1) (byteKey 2) (byteKey 3),
   .insertFileNodeAndStageEpochEntry (overlappingFile 3 "b.txt") [12,13] 21 101]

def overlappingIds (i : Nat) : Uuid := 40 + i

def overlappingBlob : SealedBlob :=
  sealBatch plainPrimitives (byteKey 5) 131072 [(2,[10,11])] 30 (byteKey 1) (byteKey 2) (byteKey 3)

def overlappingManifest : Manifest :=
  ⟨[⟨1,none,.directory,"",0,0,0,none⟩,overlappingFile 2 "a.txt",overlappingFile 3 "b.txt"],[],[],
    [⟨20,2,[10,11],2,100⟩,⟨21,3,[12,13],2,101⟩],[],⟨9,0,none,131072,true,some 1⟩⟩

theorem overlapping_state : ∃ s, run (step plainPrimitives (byteKey 5)) overlappingVault overlappingStart = some s ∧
    s.manifest = overlappingManifest ∧ s.flush = some ⟨.pending,131072,[(2,[10,11])],some overlappingBlob,[]⟩ :=
  ⟨_,rfl,rfl,rfl⟩

theorem overlapping_commit : ∃ m, Store.Operations.commitEpochFlush overlappingManifest
    overlappingBlob.record overlappingBlob.extents overlappingIds = .ok m := by
  have size : overlappingBlob.record.sizePadded = 131112 := sealed_size
  have record : overlappingBlob.record = ⟨30,30,overlappingBlob.record.fileKeyWrapped,131112,
      overlappingBlob.record.blake3Checksum⟩ := by
    rw [← size]
    rfl
  rw [record]
  exact ⟨_,rfl⟩

theorem overlapping_last : ∃ s m, s.manifest = overlappingManifest ∧
    s.flush = some ⟨.pending,131072,[(2,[10,11])],some overlappingBlob,[]⟩ ∧
    Invariant plainPrimitives (byteKey 5) s ∧
    Store.Operations.commitEpochFlush s.manifest overlappingBlob.record overlappingBlob.extents overlappingIds = .ok m ∧
    run (step plainPrimitives (byteKey 5)) overlappingVault
      (overlappingStart ++ [.commitEpochFlush overlappingIds]) = some {s with manifest := m,flush := none} := by
  obtain ⟨s,ran,manifest,flush⟩ := overlapping_state
  obtain ⟨m,accepted⟩ := overlapping_commit
  rw [← manifest] at accepted
  have inv : Invariant plainPrimitives (byteKey 5) s :=
    along_last (along_guarded (fun _ _ _ => step_preserves) (opened_invariant (created_opened 1 _))
      (guarded_of_actions (by simp [overlappingStart,Covers]))) ran
  have taken : step plainPrimitives (byteKey 5) s (.commitEpochFlush overlappingIds) = _ :=
    commit_step flush rfl accepted
  exact ⟨s,m,manifest,flush,inv,accepted,by rw [run_append,ran,Option.bind_some,run_cons,taken]; rfl⟩

-- The second file is gone from the buffer and has no chunk row.
theorem overlapping_flush_loses_file : ¬ Along (step plainPrimitives (byteKey 5))
    (Kept plainPrimitives (byteKey 5)) overlappingVault
    (overlappingStart ++ [.commitEpochFlush overlappingIds]) := by
  intro along
  obtain ⟨s,m,manifest,flush,inv,accepted,ran⟩ := overlapping_last
  have second : ⟨21,3,[12,13],2,101⟩ ∈ s.manifest.epochBuffer := by
    rw [manifest]
    decide
  have lost := commit_breaks inv flush rfl accepted second (by decide)
  exact lost (along_last along ran)

theorem overlapping_kept_iff : Along (step plainPrimitives (byteKey 5))
    (Kept plainPrimitives (byteKey 5)) overlappingVault
    (overlappingStart ++ [.commitEpochFlush overlappingIds]) ↔
    Guarded (step plainPrimitives (byteKey 5)) Covers overlappingVault
    (overlappingStart ++ [.commitEpochFlush overlappingIds]) := by
  obtain ⟨_,_,_,_,_,_,ran⟩ := overlapping_last
  exact epoch_staging_kept_iff (created_opened 1 _) ran

end ArxRuna.Epoch.History
