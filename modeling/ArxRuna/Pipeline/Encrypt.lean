import ArxRuna.Library.Chunking
import ArxRuna.Epoch.Flush
import ArxRuna.Pipeline.Exif
import ArxRuna.Vault.Disk
namespace ArxRuna.Pipeline.Encrypt
open Library.Aead Library.Chunking Library.Fallible Library.Interrupt Crypto Store.Tables Store.Operations
open Store.Staging Epoch.Flush Pipeline.Exif Vault.Disk

-- What is drawn for one chunk, and what its write does.
structure ChunkDraw where
  blobName : BlobName
  chunkId : Uuid
  nonce : Nonce
  write : StageWrite

-- The two loops differ in two places: the one that reads a file leaves after a
-- short read and removes its blobs on every error; the one over bytes in memory
-- counts up after every chunk and removes its blobs when a write fails.
inductive Source where
  | file
  | bytes
  deriving DecidableEq, Repr

structure StagingDirectory where
  place : Place
  draw : Nat → ChunkDraw
  removed : BlobName → Bool

def readChunkSizeBytes (m : Manifest) : Except StorageError Nat := do
  parseChunkSizeBytes m.manifestMeta.chunkSizeBytes
  pure m.manifestMeta.chunkSizeBytes

variable (prims : Primitives)

def sealChunk (chunkSize : Nat) (fileId : Uuid) (fileKey : FileKey) (chunkIndex : Nat) (part : Bytes)
    (nonce : Nonce) : Bytes :=
  encryptChunk prims (padTo chunkSize part) fileKey fileId chunkIndex nonce

-- `Uuid::nil` stands in `node_id` until `assign_node_id`.
def chunkRecord (chunkSize chunkIndex : Nat) (draw : ChunkDraw) (blob : Bytes) : ChunkRecord :=
  ⟨draw.chunkId,0,chunkIndex,draw.blobName,chunkSize,computeChecksum prims blob,none,none,none⟩

def encryptParts (source : Source) (chunkSize : Nat) (fileId : Uuid) (fileKey : FileKey) (staging : StagingDirectory) :
    List Bytes → Nat → List BlobName → Command Workspace StorageError (List ChunkRecord)
  | [], _, _ => pure []
  | part :: rest, chunkIndex, staged => do
    let draw := staging.draw chunkIndex
    let blob := sealChunk prims chunkSize fileId fileKey chunkIndex part draw.nonce
    let names := staged ++ [draw.blobName]
    let record := chunkRecord prims chunkSize chunkIndex draw blob
    undoing (cleanupStagedBlobs staging.place names staging.removed) (writeBlobFile staging.place draw.blobName blob draw.write)
    if source = .file ∧ part.length < chunkSize then pure [record]
    else do
      undoing (if source = .file then cleanupStagedBlobs staging.place names staging.removed else id)
        (require (chunkIndex + 1 < 2 ^ 32) (.constraintViolation "chunk_index overflow"))
      let later ← encryptParts source chunkSize fileId fileKey staging rest (chunkIndex + 1) names
      pure (record :: later)

def encryptBytes (sourceBytes : Bytes) (fileId : Uuid) (fileKey : FileKey) (staging : StagingDirectory) :
    Command Workspace StorageError (List ChunkRecord) :=
  if sourceBytes = [] then pure []
  else do
    let v ← inspect
    let chunkSize ← demand (readChunkSizeBytes v.manifest)
    encryptParts prims .bytes chunkSize fileId fileKey staging (chunks chunkSize sourceBytes) 0 []

-- The reads of a file that does not change return its chunks, then nothing.
def encryptFileInner (content : Bytes) (fileId : Uuid) (fileKey : FileKey) (staging : StagingDirectory) :
    Command Workspace StorageError (List ChunkRecord) := do
  let v ← inspect
  let chunkSize ← demand (readChunkSizeBytes v.manifest)
  encryptParts prims .file chunkSize fileId fileKey staging (chunks chunkSize content) 0 []

def readMagicBytes (content : Bytes) : Bytes := (content ++ List.replicate 8 0).take 8

def encryptFile (source : String) (fileId : Uuid) (fileKey : FileKey) (staging : StagingDirectory) :
    Command Workspace StorageError (List ChunkRecord) := do
  let v ← inspect
  let content ← demand (readFile v source)
  if isImageMagic (readMagicBytes content) then encryptBytes prims (stripExif content) fileId fileKey staging
  else encryptFileInner prims content fileId fileKey staging

def assignNodeId (nodeId : Uuid) (records : List ChunkRecord) : List ChunkRecord :=
  records.map fun record => {record with nodeId := nodeId}

-- A chunk record whose blob is in staging, whatever copy of it is read.
structure StagedChunk (files : Files) (chunkSize : Nat) (fileId : Uuid) (fileKey : FileKey) (chunkIndex : Nat)
    (part : Bytes) (record : ChunkRecord) : Prop where
  index : record.chunkIndex = chunkIndex
  size : record.sizePadded = chunkSize
  flat : record.epochBlobId = none ∧ record.byteOffset = none ∧ record.byteLength = none
  blob : ∃ nonce, Intact files record.blobName (sealChunk prims chunkSize fileId fileKey chunkIndex part nonce) ∧
    record.blake3Checksum = computeChecksum prims (sealChunk prims chunkSize fileId fileKey chunkIndex part nonce)

def StagedChunks (files : Files) (chunkSize : Nat) (fileId : Uuid) (fileKey : FileKey) :
    Nat → List Bytes → List ChunkRecord → Prop
  | _, [], [] => True
  | i, part :: parts, record :: records =>
    StagedChunk prims files chunkSize fileId fileKey i part record ∧
      StagedChunks files chunkSize fileId fileKey (i + 1) parts records
  | _, _, _ => False

variable {prims : Primitives} {chunkSize : Nat} {fileId : Uuid} {fileKey : FileKey} {staging : StagingDirectory}
  {parts : List Bytes} {records : List ChunkRecord} {v w : Workspace}

theorem chunk_size_read : readChunkSizeBytes m = .ok chunkSize ↔
    (131072 ≤ chunkSize ∧ chunkSize ≤ 67108864) ∧ m.manifestMeta.chunkSizeBytes = chunkSize := by
  simp only [readChunkSizeBytes,parseChunkSizeBytes,bind_ok,ensure_ok,pure_ok]
  constructor
  · intro read
    obtain ⟨_,bounds,rfl⟩ := read
    exact ⟨bounds,rfl⟩
  · intro read
    obtain ⟨bounds,rfl⟩ := read
    exact ⟨(),bounds,rfl⟩

theorem parts_cons {source : Source} {part : Bytes} :
    encryptParts prims source chunkSize fileId fileKey staging (part :: parts) i staged v = (.done records,w) →
    ∃ later, records = chunkRecord prims chunkSize i (staging.draw i)
        (sealChunk prims chunkSize fileId fileKey i part (staging.draw i).nonce) :: later ∧
      ((later = [] ∧ part.length < chunkSize ∧ w = v.setBlob staging.place (staging.draw i).blobName
          (some (sealChunk prims chunkSize fileId fileKey i part (staging.draw i).nonce))) ∨
        i + 1 < 2 ^ 32 ∧ ∃ names, encryptParts prims source chunkSize fileId fileKey staging parts (i + 1) names
          (v.setBlob staging.place (staging.draw i).blobName
            (some (sealChunk prims chunkSize fileId fileKey i part (staging.draw i).nonce))) = (.done later,w)) := by
  intro ended
  simp only [encryptParts,done_bind,done_undoing,write_blob_done] at ended
  obtain ⟨_,_,⟨_,rfl⟩,ended⟩ := ended
  split at ended
  · rename_i short
    obtain ⟨rfl,rfl⟩ := done_pure.mp ended
    exact ⟨[],rfl,.inl ⟨rfl,short.2,rfl⟩⟩
  · simp only [done_bind,done_undoing,done_require,done_pure] at ended
    obtain ⟨_,_,⟨small,rfl⟩,later,_,ended,rfl,rfl⟩ := ended
    exact ⟨later,rfl,.inr ⟨small,_,ended⟩⟩

-- The frame of the loop: nothing changes but the blobs it names.
structure OnlyStaged (v w : Workspace) (names : List BlobName) : Prop where
  manifest : w.manifest = v.manifest
  disk : w.disk = v.disk
  files : ∀ name, name ∉ names → ∀ place, w.files place name = v.files place name

theorem only_staged_refl (v : Workspace) (names : List BlobName) : OnlyStaged v v names :=
  ⟨rfl,rfl,fun _ _ _ => rfl⟩

theorem set_blob_only (member : name ∈ names) : OnlyStaged v (v.setBlob place name content) names := by
  refine ⟨rfl,rfl,fun other outside place' => ?_⟩
  rw [setBlob_files]
  exact write_other fun same => outside (same ▸ member)

theorem only_staged_trans (first : OnlyStaged u v names) (second : OnlyStaged v w names) : OnlyStaged u w names := by
  refine ⟨second.manifest.trans first.manifest,second.disk.trans first.disk,fun name outside place => ?_⟩
  rw [second.files name outside place,first.files name outside place]

theorem only_staged_mono (only : OnlyStaged v w names) (inside : ∀ name ∈ names, name ∈ more) : OnlyStaged v w more :=
  ⟨only.manifest,only.disk,fun name outside => only.files name fun member => outside (inside name member)⟩

theorem parts_only {source : Source}
    (ended : encryptParts prims source chunkSize fileId fileKey staging parts i names v = (.done records,w)) :
    OnlyStaged v w (records.map (·.blobName)) := by
  induction parts generalizing i names v records with
  | nil =>
    obtain ⟨rfl,rfl⟩ := done_pure.mp ended
    exact only_staged_refl v _
  | cons part rest ih =>
    obtain ⟨later,rfl,short | ⟨_,names',ended⟩⟩ := parts_cons ended
    · obtain ⟨_,_,rfl⟩ := short
      exact set_blob_only List.mem_cons_self
    · have others := only_staged_mono (ih ended) fun name member => List.mem_cons_of_mem (staging.draw i).blobName member
      exact only_staged_trans (set_blob_only List.mem_cons_self) others

theorem parts_bounded {source : Source}
    (ended : encryptParts prims source chunkSize fileId fileKey staging parts i names v = (.done records,w))
    (small : i < 2 ^ 32) : i + records.length ≤ 2 ^ 32 := by
  induction parts generalizing i names v records with
  | nil =>
    obtain ⟨rfl,rfl⟩ := done_pure.mp ended
    rw [List.length_nil]
    omega
  | cons part rest ih =>
    obtain ⟨later,rfl,left⟩ := parts_cons ended
    rw [List.length_cons]
    rcases left with ⟨rfl,_,_⟩ | ⟨next,names',ended⟩
    · rw [List.length_nil]
      omega
    · have := ih ended next
      omega

-- The loop over the chunks of a text: each record names a blob that holds its
-- chunk. A short read is the last one, so leaving there loses nothing.
theorem chunks_staged {source : Source} (positive : 0 < chunkSize) {text : Bytes}
    (ended : encryptParts prims source chunkSize fileId fileKey staging (chunks chunkSize text) i names v =
      (.done records,w))
    (fresh : ∀ record ∈ records, ∀ place, v.files place record.blobName = none)
    (distinct : (records.map (·.blobName)).Nodup) :
    StagedChunks prims w.files chunkSize fileId fileKey i (chunks chunkSize text) records := by
  induction text using chunks_induction positive generalizing i names v records with
  | empty =>
    rw [chunks_nil] at ended ⊢
    obtain ⟨rfl,rfl⟩ := done_pure.mp ended
    trivial
  | more text full ih =>
    rw [chunks_cons positive full] at ended ⊢
    obtain ⟨later,rfl,left⟩ := parts_cons ended
    have absent : ∀ place, v.files place (staging.draw i).blobName = none := fresh _ List.mem_cons_self
    have written : Intact (v.files.write staging.place _ (some (sealChunk prims chunkSize fileId fileKey i
        (text.take chunkSize) (staging.draw i).nonce))) _ _ := write_fresh_intact absent
    obtain ⟨unused,rest⟩ := List.nodup_cons.mp distinct
    rcases left with ⟨rfl,short,rfl⟩ | ⟨_,names',ended⟩
    · have last : text.drop chunkSize = [] := by
        rw [List.length_take] at short
        exact List.drop_eq_nil_of_le (by omega)
      rw [last,chunks_nil]
      exact ⟨⟨rfl,rfl,⟨rfl,rfl,rfl⟩,_,written,rfl⟩,trivial⟩
    · have only := parts_only ended
      refine ⟨⟨rfl,rfl,⟨rfl,rfl,rfl⟩,_,written.congr (only.files _ unused),rfl⟩,ih ended ?_ rest⟩
      intro record member place
      rw [setBlob_files,write_other]
      · exact fresh record (List.mem_cons_of_mem _ member) place
      · intro same
        exact unused (List.mem_map.mpr ⟨record,member,same⟩)

theorem parts_drawn {source : Source}
    (ended : encryptParts prims source chunkSize fileId fileKey staging parts i names v = (.done records,w)) :
    ∀ record ∈ records, ∃ j, record.blobName = (staging.draw j).blobName := by
  induction parts generalizing i names v records with
  | nil =>
    obtain ⟨rfl,_⟩ := done_pure.mp ended
    simp
  | cons part rest ih =>
    obtain ⟨later,rfl,left⟩ := parts_cons ended
    intro record member
    rcases List.mem_cons.mp member with rfl | member
    · exact ⟨i,rfl⟩
    · rcases left with ⟨rfl,_,_⟩ | ⟨_,names',ended⟩
      · cases member
      · exact ih ended record member

-- What an encryption of a text leaves, whichever loop ran, when it drew names
-- that nothing in staging has.
structure Encrypted (prims : Primitives) (staging : StagingDirectory) (v w : Workspace) (chunkSize : Nat)
    (fileId : Uuid) (fileKey : FileKey) (text : Bytes) (records : List ChunkRecord) : Prop where
  manifest : w.manifest = v.manifest
  bounded : records.length ≤ 2 ^ 32
  staged : (∀ j place, v.files place (staging.draw j).blobName = none) → (records.map (·.blobName)).Nodup →
    StagedChunks prims w.files chunkSize fileId fileKey 0 (chunks chunkSize text) records

theorem parts_encrypted {source : Source} (read : readChunkSizeBytes m = .ok chunkSize) {text : Bytes}
    (ended : encryptParts prims source chunkSize fileId fileKey staging (chunks chunkSize text) 0 [] v =
      (.done records,w)) : Encrypted prims staging v w chunkSize fileId fileKey text records := by
  have positive : 0 < chunkSize := by
    have := (chunk_size_read.mp read).1.1
    omega
  have bounded := parts_bounded ended (by decide)
  refine ⟨(parts_only ended).manifest,by omega,fun fresh => chunks_staged positive ended ?_⟩
  intro record member place
  obtain ⟨j,drawn⟩ := parts_drawn ended record member
  rw [drawn]
  exact fresh j place

theorem bytes_encrypted (read : readChunkSizeBytes v.manifest = .ok chunkSize)
    (ended : encryptBytes prims text fileId fileKey staging v = (.done records,w)) :
    Encrypted prims staging v w chunkSize fileId fileKey text records := by
  unfold encryptBytes at ended
  split at ended
  · rename_i empty
    obtain ⟨rfl,rfl⟩ := done_pure.mp ended
    refine ⟨rfl,by simp,fun _ _ => ?_⟩
    rw [empty,chunks_nil]
    trivial
  · simp only [done_bind,done_inspect,done_demand] at ended
    obtain ⟨_,_,⟨rfl,rfl⟩,size,_,⟨same,rfl⟩,ended⟩ := ended
    cases read.symm.trans same
    exact parts_encrypted read ended

theorem inner_encrypted (read : readChunkSizeBytes v.manifest = .ok chunkSize)
    (ended : encryptFileInner prims text fileId fileKey staging v = (.done records,w)) :
    Encrypted prims staging v w chunkSize fileId fileKey text records := by
  simp only [encryptFileInner,done_bind,done_inspect,done_demand] at ended
  obtain ⟨_,_,⟨rfl,rfl⟩,size,_,⟨same,rfl⟩,ended⟩ := ended
  cases read.symm.trans same
  exact parts_encrypted read ended

theorem file_encrypted (read : readChunkSizeBytes v.manifest = .ok chunkSize) (there : v.disk source = some content)
    (other : isImageMagic content = false)
    (ended : encryptFile prims source fileId fileKey staging v = (.done records,w)) :
    Encrypted prims staging v w chunkSize fileId fileKey content records := by
  have opened : readFile v source = .ok content := by
    rw [readFile,there]
  have plain : ¬ isImageMagic (readMagicBytes content) = true := by
    rw [readMagicBytes,magic_padded,other]
    decide
  simp only [encryptFile,done_bind,done_inspect,done_demand] at ended
  obtain ⟨_,_,⟨rfl,rfl⟩,found,_,⟨same,rfl⟩,ended⟩ := ended
  cases opened.symm.trans same
  rw [if_neg plain] at ended
  exact inner_encrypted read ended

end ArxRuna.Pipeline.Encrypt
