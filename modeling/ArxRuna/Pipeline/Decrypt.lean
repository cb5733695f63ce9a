import ArxRuna.Pipeline.Encrypt
namespace ArxRuna.Pipeline.Decrypt
open Library.Aead Library.Chunking Library.Fallible Library.Interrupt Crypto Store.Tables Store.Operations
open Store.Staging Epoch.Flush Pipeline.Encrypt Vault.Disk

def malformedChunkList : StorageError :=
  .constraintViolation "chunk list is malformed: missing or duplicate chunk_index"

def expectedChunkCount (fileSize chunkSize : Nat) : Nat :=
  if fileSize = 0 then 0 else (fileSize + chunkSize - 1) / chunkSize

def sortedChunks (chunks : List ChunkRecord) : List ChunkRecord :=
  chunks.insertionSort fun a b => a.chunkIndex ≤ b.chunkIndex

def validateChunk (chunkSize : Nat) (indexed : ChunkRecord × Nat) : Except StorageError Unit := do
  ensure (indexed.2 < 2 ^ 32) (.constraintViolation "chunk index overflow")
  ensure (indexed.1.chunkIndex = indexed.2) malformedChunkList
  validateSizePaddedMatchesChunkSize indexed.1.sizePadded chunkSize

-- The sorted list and `chunk_size_bytes`; the wire length of a blob is 40 more.
def readAndValidateChunks (m : Manifest) (fileSize : Nat) (chunks : List ChunkRecord) :
    Except StorageError (List ChunkRecord × Nat) := do
  let chunkSize ← readChunkSizeBytes m
  ensure (chunks.length = expectedChunkCount fileSize chunkSize) malformedChunkList
  let _ ← (sortedChunks chunks).zipIdx.mapM (validateChunk chunkSize)
  pure (sortedChunks chunks,chunkSize)

def readEncryptedBlob (files : Files) (name : BlobName) (expectedLen : Nat) : Except StorageError Bytes := do
  let blob ← readBlob files name
  ensure (blob.length = expectedLen)
    (.constraintViolation "encrypted blob length mismatch for configured chunk_size_bytes")
  pure blob

def bytesToWrite (fileSize chunkSize count position : Nat) (chunk : ChunkRecord) : Except StorageError Nat :=
  if position + 1 = count then
    if chunk.chunkIndex * chunkSize ≤ fileSize then .ok (fileSize - chunk.chunkIndex * chunkSize)
    else .error (.constraintViolation "file_size underflow while computing last-chunk truncation")
  else .ok chunkSize

variable (prims : Primitives)

-- The body both loops run for the chunk at one position.
def decryptPart (files : Files) (fileId : Uuid) (fileKey : FileKey) (fileSize chunkSize count : Nat)
    (indexed : ChunkRecord × Nat) : Except StorageError Bytes := do
  let blob ← readEncryptedBlob files indexed.1.blobName (chunkSize + 40)
  let verified ← (verifyChecksum prims blob indexed.1.blake3Checksum).mapError StorageError.fromCrypto
  let plaintext ← (decryptChunk prims verified fileKey fileId indexed.1.chunkIndex).mapError StorageError.fromCrypto
  let size ← bytesToWrite fileSize chunkSize count indexed.2 indexed.1
  ensure (size ≤ plaintext.length) (.constraintViolation "file_size exceeds padded plaintext length")
  pure (plaintext.take size)

def decryptFileToMemory (v : Workspace) (fileId : Uuid) (fileKey : FileKey) (fileSize : Nat)
    (chunks : List ChunkRecord) : Except StorageError Bytes := do
  let validated ← readAndValidateChunks v.manifest fileSize chunks
  let parts ← validated.1.zipIdx.mapM
    (decryptPart prims v.files fileId fileKey fileSize validated.2 validated.1.length)
  pure parts.flatten

def writeParts (io : Saving destination) (decrypt : ChunkRecord × Nat → Except StorageError Bytes) :
    List (ChunkRecord × Nat) → Command Workspace StorageError Unit
  | [] => pure ()
  | indexed :: rest => do
    let part ← demand (decrypt indexed)
    writeAll io.temporary part (io.write indexed.2)
    writeParts io decrypt rest

def decryptFile (destination : String) (io : Saving destination) (fileId : Uuid) (fileKey : FileKey)
    (fileSize : Nat) (chunks : List ChunkRecord) : Command Workspace StorageError Unit := do
  let v ← inspect
  let validated ← demand (readAndValidateChunks v.manifest fileSize chunks)
  createFile io.temporary io.create
  let body := do
    writeParts io (decryptPart prims v.files fileId fileKey fileSize validated.2 validated.1.length) validated.1.zipIdx
    persistTemporary destination io
  undoing (dropTemporary io) body

-- The epoch route writes its file without a clean-up before the replacement.
def decryptEpochFile (destination : String) (io : Saving destination) (kek : KeyEncryptionKey)
    (chunk : ChunkRecord) : Command Workspace StorageError Unit := do
  let v ← inspect
  let fileBytes ← demand (decryptEpochFileToMemory prims kek v.files v.manifest chunk)
  createFile io.temporary io.create
  writeAll io.temporary fileBytes (io.write 0)
  meet io.flush
  meet io.sync
  undoing (dropTemporary io) (replaceDestinationWithTemp destination io)

variable {prims : Primitives} {chunkSize fileSize : Nat} {fileId : Uuid} {fileKey : FileKey} {files : Files}
  {records : List ChunkRecord} {destination : String} {io : Saving destination} {v w : Workspace}

theorem write_all_done {path : String} (there : v.disk path = some old) :
    writeAll path text fate v = (.done value,w) ↔ fate = .goes ∧ w = v.setFile path (some (old ++ text)) := by
  simp only [writeAll,done_bind,done_meet,done_change]
  constructor
  · intro ended
    obtain ⟨_,_,⟨goes,rfl⟩,rfl⟩ := ended
    exact ⟨goes,by rw [there]; rfl⟩
  · intro ended
    obtain ⟨goes,rfl⟩ := ended
    exact ⟨(),v,⟨goes,rfl⟩,by rw [there]; rfl⟩

theorem write_parts_done {decrypt : ChunkRecord × Nat → Except StorageError Bytes} {list : List (ChunkRecord × Nat)}
    (there : v.disk io.temporary = some old) (ended : writeParts io decrypt list v = (.done value,w)) :
    ∃ parts, list.mapM decrypt = .ok parts ∧ w.disk io.temporary = some (old ++ parts.flatten) := by
  induction list generalizing v old with
  | nil =>
    obtain ⟨_,rfl⟩ := done_pure.mp ended
    exact ⟨[],rfl,by simpa using there⟩
  | cons indexed rest ih =>
    simp only [writeParts,done_bind,done_demand] at ended
    obtain ⟨part,_,⟨opened,rfl⟩,_,_,wrote,later⟩ := ended
    obtain ⟨_,rfl⟩ := (write_all_done there).mp wrote
    obtain ⟨parts,mapped,collected⟩ := ih setFile_same later
    refine ⟨part :: parts,?_,?_⟩
    · rw [List.mapM_cons,opened,mapped]
      rfl
    · rw [collected,List.flatten_cons,List.append_assoc]

theorem write_parts_works {decrypt : ChunkRecord × Nat → Except StorageError Bytes} {list : List (ChunkRecord × Nat)}
    (works : io.Works) (there : v.disk io.temporary = some old) (mapped : list.mapM decrypt = .ok parts) :
    ∃ w, writeParts io decrypt list v = (.done (),w) ∧ w.disk io.temporary = some (old ++ parts.flatten) := by
  induction list generalizing v old parts with
  | nil =>
    cases mapped
    exact ⟨v,rfl,by simpa using there⟩
  | cons indexed rest ih =>
    simp only [List.mapM_cons,bind_ok,pure_ok] at mapped
    obtain ⟨part,opened,others,mapped,rfl⟩ := mapped
    have wrote : writeAll io.temporary part (io.write indexed.2) v = (.done (),_) :=
      (write_all_done there).mpr ⟨works.write _,rfl⟩
    obtain ⟨w,later,collected⟩ := ih setFile_same mapped
    refine ⟨w,?_,?_⟩
    · rw [writeParts,opened]
      exact (bind_done wrote).trans later
    · rw [collected,List.flatten_cons,List.append_assoc]

theorem persist_done (there : v.disk io.temporary = some content)
    (ended : persistTemporary destination io v = (.done value,w)) : w.disk destination = some content := by
  simp only [persistTemporary,done_bind,done_meet] at ended
  obtain ⟨_,_,⟨_,rfl⟩,_,_,⟨_,rfl⟩,moved⟩ := ended
  exact replaced there moved

theorem persist_works (works : io.Works) (there : v.disk io.temporary = some content) :
    ∃ w, persistTemporary destination io v = (.done (),w) := by
  rw [persistTemporary,works.flush,bind_goes,works.sync,bind_goes]
  exact replace_works works there

theorem create_done {path : String} :
    createFile path fate v = (.done value,w) ↔ fate = .goes ∧ w = v.setFile path (some []) := by
  simp only [createFile,done_bind,done_meet,done_change]
  constructor
  · intro ended
    obtain ⟨_,_,⟨goes,rfl⟩,rfl⟩ := ended
    exact ⟨goes,rfl⟩
  · intro ended
    obtain ⟨goes,rfl⟩ := ended
    exact ⟨(),v,⟨goes,rfl⟩,rfl⟩

-- The two decoders agree: a file reported written holds what the other one
-- returns, and it is written when the file system does its part.
theorem decrypt_file_done {chunks : List ChunkRecord}
    (ended : decryptFile prims destination io fileId fileKey fileSize chunks v = (.done value,w)) :
    ∃ content, decryptFileToMemory prims v fileId fileKey fileSize chunks = .ok content ∧
      w.disk destination = some content := by
  simp only [decryptFile,done_bind,done_inspect,done_demand,done_undoing,create_done] at ended
  obtain ⟨_,_,⟨rfl,rfl⟩,validated,_,⟨valid,rfl⟩,_,_,⟨_,rfl⟩,_,_,wrote,moved⟩ := ended
  obtain ⟨parts,mapped,collected⟩ := write_parts_done setFile_same wrote
  refine ⟨parts.flatten,?_,persist_done collected moved⟩
  rw [decryptFileToMemory,bind_ok]
  exact ⟨validated,valid,bind_ok.mpr ⟨parts,mapped,rfl⟩⟩

theorem decrypt_file_works {chunks : List ChunkRecord} (works : io.Works)
    (opened : decryptFileToMemory prims v fileId fileKey fileSize chunks = .ok content) :
    ∃ w, decryptFile prims destination io fileId fileKey fileSize chunks v = (.done (),w) := by
  simp only [decryptFileToMemory,bind_ok,pure_ok] at opened
  obtain ⟨validated,valid,parts,mapped,_⟩ := opened
  have created : createFile io.temporary io.create v = (.done (),_) := create_done.mpr ⟨works.create,rfl⟩
  obtain ⟨u,wrote,collected⟩ := write_parts_works works (v := v.setFile io.temporary (some [])) setFile_same mapped
  obtain ⟨w,moved⟩ := persist_works works collected
  refine ⟨w,?_⟩
  rw [decryptFile,bind_inspect,valid]
  exact (bind_done created).trans (done_undoing.mpr ((bind_done wrote).trans moved))

theorem decrypt_epoch_file_done {kek : KeyEncryptionKey} {chunk : ChunkRecord}
    (ended : decryptEpochFile prims destination io kek chunk v = (.done value,w)) :
    ∃ content, decryptEpochFileToMemory prims kek v.files v.manifest chunk = .ok content ∧
      w.disk destination = some content := by
  simp only [decryptEpochFile,done_bind,done_inspect,done_demand,done_undoing,done_meet,create_done] at ended
  obtain ⟨_,_,⟨rfl,rfl⟩,content,_,⟨opened,rfl⟩,_,_,⟨_,rfl⟩,_,_,wrote,_,_,⟨_,rfl⟩,_,_,⟨_,rfl⟩,moved⟩ := ended
  obtain ⟨_,rfl⟩ := (write_all_done setFile_same).mp wrote
  exact ⟨content,opened,replaced setFile_same moved⟩

theorem decrypt_epoch_file_works {kek : KeyEncryptionKey} {chunk : ChunkRecord} (works : io.Works)
    (opened : decryptEpochFileToMemory prims kek v.files v.manifest chunk = .ok content) :
    ∃ w, decryptEpochFile prims destination io kek chunk v = (.done (),w) := by
  have created : createFile io.temporary io.create v = (.done (),_) := create_done.mpr ⟨works.create,rfl⟩
  have wrote : writeAll io.temporary content (io.write 0) (v.setFile io.temporary (some [])) = (.done (),_) :=
    (write_all_done setFile_same).mpr ⟨works.write 0,rfl⟩
  obtain ⟨w,moved⟩ := replace_works works (setFile_same (v := v.setFile io.temporary (some [])))
  refine ⟨w,?_⟩
  rw [decryptEpochFile,bind_inspect,opened]
  refine (bind_done created).trans ((bind_done wrote).trans ?_)
  rw [works.flush,bind_goes,works.sync,bind_goes]
  exact done_undoing.mpr moved

theorem pad_length {part : Bytes} (sized : part.length ≤ chunkSize) : (padTo chunkSize part).length = chunkSize := by
  rw [padTo,List.length_append,List.length_replicate]
  omega

theorem pad_take (part : Bytes) : (padTo chunkSize part).take part.length = part := by
  rw [padTo,List.take_left]

theorem seal_length {part : Bytes} (sized : part.length ≤ chunkSize) :
    (sealChunk prims chunkSize fileId fileKey i part nonce).length = chunkSize + 40 := by
  rw [sealChunk,encryptChunk,sealWire_length,pad_length sized]
  omega

theorem staged_part {part : Bytes} (staged : StagedChunk prims files chunkSize fileId fileKey i part record)
    (sized : part.length ≤ chunkSize) (amount : bytesToWrite fileSize chunkSize count i record = .ok part.length) :
    decryptPart prims files fileId fileKey fileSize chunkSize count (record,i) = .ok part := by
  obtain ⟨index,_,_,nonce,intact,checksum⟩ := staged
  have long : part.length ≤ (padTo chunkSize part).length := by rw [pad_length sized]; exact sized
  simp only [decryptPart,readEncryptedBlob,intact.read,bind_ok,ensure_ok,pure_ok]
  refine ⟨_,⟨_,rfl,(),seal_length sized,rfl⟩,_,by rw [checksum,verify_computed]; rfl,padTo chunkSize part,?_,
    part.length,amount,(),long,pad_take part⟩
  rw [index,sealChunk,decrypt_encrypt]
  rfl

theorem staged_lengths {parts : List Bytes}
    (staged : StagedChunks prims files chunkSize fileId fileKey i parts records) : records.length = parts.length := by
  induction parts generalizing i records with
  | nil => cases records with
    | nil => rfl
    | cons record rest => cases staged
  | cons part rest ih => cases records with
    | nil => cases staged
    | cons record others => rw [List.length_cons,List.length_cons,ih staged.2]

theorem staged_member {parts : List Bytes}
    (staged : StagedChunks prims files chunkSize fileId fileKey i parts records) (member : indexed ∈ records.zipIdx i) :
    ∃ part, StagedChunk prims files chunkSize fileId fileKey indexed.2 part indexed.1 := by
  induction parts generalizing i records with
  | nil => cases records with
    | nil => cases member
    | cons record rest => cases staged
  | cons part rest ih => cases records with
    | nil => cases staged
    | cons record others =>
      rw [List.zipIdx_cons] at member
      rcases List.mem_cons.mp member with rfl | later
      · exact ⟨part,staged.1⟩
      · exact ih staged.2 later

theorem staged_flat {parts : List Bytes}
    (staged : StagedChunks prims files chunkSize fileId fileKey i parts records) :
    ∀ record ∈ records, record.epochBlobId = none ∧ record.byteOffset = none ∧ record.byteLength = none := by
  intro record member
  obtain ⟨place,inside,rfl⟩ := List.mem_iff_getElem.mp member
  have indexed : (records[place],i + place) ∈ records.zipIdx i :=
    List.mem_iff_getElem.mpr ⟨place,by simpa using inside,by simp⟩
  obtain ⟨_,here⟩ := staged_member staged indexed
  exact here.flat

theorem staged_parts (positive : 0 < chunkSize) {text : Bytes}
    (staged : StagedChunks prims files chunkSize fileId fileKey i (chunks chunkSize text) records)
    (total : fileSize = i * chunkSize + text.length) (count : n = i + records.length) :
    (records.zipIdx i).mapM (decryptPart prims files fileId fileKey fileSize chunkSize n) =
      .ok (chunks chunkSize text) := by
  induction text using chunks_induction positive generalizing i records with
  | empty =>
    rw [chunks_nil] at staged ⊢
    cases records with
    | nil => rfl
    | cons record rest => cases staged
  | more text full ih =>
    rw [chunks_cons positive full] at staged ⊢
    cases records with
    | nil => cases staged
    | cons record rest =>
      obtain ⟨here,later⟩ := staged
      have more := staged_lengths later
      rw [List.length_cons] at count
      rw [List.zipIdx_cons,List.mapM_cons]
      by_cases last : text.length ≤ chunkSize
      · rw [List.drop_eq_nil_of_le last,chunks_nil] at more later ⊢
        cases List.length_eq_zero_iff.mp more
        have amount : bytesToWrite fileSize chunkSize n i record = .ok (text.take chunkSize).length := by
          rw [List.length_nil] at count
          rw [bytesToWrite,here.index,if_pos (by omega),if_pos (by omega),total,Nat.add_sub_cancel_left,
            List.take_of_length_le last]
        rw [staged_part here (List.length_take_le ..) amount]
        rfl
      · have some : rest ≠ [] := by
          intro none
          rw [none,List.length_nil,eq_comm,List.length_eq_zero_iff,chunks_empty positive,
            List.drop_eq_nil_iff] at more
          exact last more
        have amount : bytesToWrite fileSize chunkSize n i record = .ok (text.take chunkSize).length := by
          have := List.length_pos_of_ne_nil some
          rw [bytesToWrite,if_neg (by omega),List.length_take,Nat.min_eq_left (by omega)]
        have rest : fileSize = (i + 1) * chunkSize + (text.drop chunkSize).length := by
          rw [total,Nat.add_mul,List.length_drop]
          omega
        rw [staged_part here (List.length_take_le ..) amount,ih later rest (by omega)]
        rfl

theorem staged_pairwise {parts : List Bytes}
    (staged : StagedChunks prims files chunkSize fileId fileKey i parts records) :
    records.Pairwise fun a b => a.chunkIndex ≤ b.chunkIndex := by
  rw [List.pairwise_iff_getElem]
  intro a b aIn bIn below
  have place (c : Nat) (inside : c < records.length) : (records[c]).chunkIndex = i + c := by
    have member : (records[c],i + c) ∈ records.zipIdx i := List.mem_iff_getElem.mpr ⟨c,by simpa using inside,by simp⟩
    obtain ⟨_,here⟩ := staged_member staged member
    exact here.index
  rw [place a aIn,place b bIn]
  omega

theorem validated_parts (valid : readAndValidateChunks m fileSize records = .ok (sorted,size)) :
    readChunkSizeBytes m = .ok size ∧ sorted = sortedChunks records ∧
      sorted.length = expectedChunkCount fileSize size ∧
        ∀ indexed ∈ sorted.zipIdx, indexed.2 < 2 ^ 32 ∧ indexed.1.chunkIndex = indexed.2 := by
  simp only [readAndValidateChunks,bind_ok,ensure_ok,pure_ok] at valid
  obtain ⟨_,read,_,count,checked,mapped,same⟩ := valid
  cases same
  refine ⟨read,rfl,(List.length_insertionSort _ _).trans count,fun indexed member => ?_⟩
  obtain ⟨place,within,rfl⟩ := List.mem_iff_getElem.mp member
  have paired := mapM_ok.mp mapped
  obtain ⟨_,here⟩ := (List.forall₂_iff_get.mp paired)
  have one := here place within (by rw [← paired.length_eq]; exact within)
  simp only [validateChunk,bind_ok,ensure_ok] at one
  obtain ⟨_,small,_,index,_⟩ := one
  exact ⟨small,index⟩

theorem staged_valid {text : Bytes} (read : readChunkSizeBytes m = .ok chunkSize)
    (staged : StagedChunks prims files chunkSize fileId fileKey 0 (chunks chunkSize text) records)
    (bounded : records.length ≤ 2 ^ 32) :
    readAndValidateChunks m text.length records = .ok (records,chunkSize) := by
  have positive : 0 < chunkSize := by
    have := (chunk_size_read.mp read).1.1
    omega
  have count : records.length = expectedChunkCount text.length chunkSize := by
    rw [staged_lengths staged,chunks_length positive,expectedChunkCount]
    split
    · rename_i empty
      rw [empty,Nat.div_eq_of_lt (by omega)]
    · rfl
  obtain ⟨checked,mapped⟩ := mapM_total fun indexed (member : indexed ∈ records.zipIdx) =>
    show ∃ result, validateChunk chunkSize indexed = .ok result by
      obtain ⟨_,index,size,_⟩ := staged_member staged member
      obtain ⟨_,_,inside⟩ := List.mem_zipIdx member
      refine ⟨(),?_⟩
      simp only [validateChunk,validateSizePaddedMatchesChunkSize,bind_ok,ensure_ok]
      exact ⟨(),by omega,(),index,size⟩
  have sorted : sortedChunks records = records := List.Pairwise.insertionSort_eq (staged_pairwise staged)
  simp only [readAndValidateChunks,bind_ok,ensure_ok,pure_ok,sorted]
  exact ⟨chunkSize,read,(),count,checked,mapped,rfl⟩

theorem staged_opens {text : Bytes} (read : readChunkSizeBytes v.manifest = .ok chunkSize)
    (staged : StagedChunks prims v.files chunkSize fileId fileKey 0 (chunks chunkSize text) records)
    (bounded : records.length ≤ 2 ^ 32) :
    decryptFileToMemory prims v fileId fileKey text.length records = .ok text := by
  have positive : 0 < chunkSize := by
    have := (chunk_size_read.mp read).1.1
    omega
  simp only [decryptFileToMemory,bind_ok,pure_ok]
  exact ⟨_,staged_valid read staged bounded,_,staged_parts positive staged (by omega) (by omega),
    chunks_flatten positive text⟩

end ArxRuna.Pipeline.Decrypt
