import ArxRuna.Pipeline.Decrypt
namespace ArxRuna.Pipeline.Range
open Library.Aead Library.Chunking Library.Fallible Crypto Store.Tables Store.Operations Store.Staging Epoch.Flush
open Pipeline.Encrypt Pipeline.Decrypt Vault.Disk
variable (prims : Primitives)

def decryptRangePart (files : Files) (fileId : Uuid) (fileKey : FileKey) (fileSize chunkSize count start stop : Nat)
    (chunk : ChunkRecord) : Except StorageError Bytes := do
  let blob ← readEncryptedBlob files chunk.blobName (chunkSize + 40)
  let verified ← (verifyChecksum prims blob chunk.blake3Checksum).mapError StorageError.fromCrypto
  let plaintext ← (decryptChunk prims verified fileKey fileId chunk.chunkIndex).mapError StorageError.fromCrypto
  let chunkFileOffset := chunk.chunkIndex * chunkSize
  let realBytesInChunk ← bytesToWrite fileSize chunkSize count chunk.chunkIndex chunk
  let chunkFileEnd := chunkFileOffset + realBytesInChunk - 1
  let overlapStart := max start chunkFileOffset
  let overlapEnd := min stop chunkFileEnd
  if overlapEnd < overlapStart then pure []
  else
    let plainSliceStart := overlapStart - chunkFileOffset
    let plainSliceEnd := overlapEnd - chunkFileOffset + 1
    ensure (plainSliceEnd ≤ plaintext.length) (.constraintViolation "range slice exceeds padded plaintext length")
    pure ((plaintext.take plainSliceEnd).drop plainSliceStart)

def decryptFileRangeToMemory (v : Workspace) (fileId : Uuid) (fileKey : FileKey) (fileSize : Nat)
    (chunks : List ChunkRecord) (rangeStart rangeEnd : Nat) : Except StorageError Bytes := do
  ensure (rangeStart ≤ rangeEnd ∧ rangeEnd < fileSize) (.constraintViolation "range is out of bounds for this file")
  let validated ← readAndValidateChunks v.manifest fileSize chunks
  let firstChunkIndex := rangeStart / validated.2
  let lastChunkIndex := rangeEnd / validated.2
  let parts ← ((validated.1.drop firstChunkIndex).take (lastChunkIndex - firstChunkIndex + 1)).mapM
    (decryptRangePart prims v.files fileId fileKey fileSize validated.2 validated.1.length rangeStart rangeEnd)
  pure parts.flatten

variable {prims : Primitives} {files : Files} {fileId : Uuid} {fileKey : FileKey} {fileSize chunkSize count start stop : Nat}
  {record : ChunkRecord} {v : Workspace} {records sorted : List ChunkRecord}

-- How much of the chunk at one place belongs to the file: something, all of it but
-- at the end, and at the end what is left.
theorem amount_facts (positive : 0 < chunkSize) (within : i < expectedChunkCount fileSize chunkSize)
    (index : record.chunkIndex = i)
    (counted : bytesToWrite fileSize chunkSize (expectedChunkCount fileSize chunkSize) i record = .ok amount) :
    0 < amount ∧ amount ≤ chunkSize ∧ (i + 1 ≠ expectedChunkCount fileSize chunkSize → amount = chunkSize) := by
  have some : fileSize ≠ 0 := by
    intro none
    rw [expectedChunkCount,if_pos none] at within
    omega
  have count : expectedChunkCount fileSize chunkSize = (fileSize + chunkSize - 1) / chunkSize := by
    rw [expectedChunkCount,if_neg some]
  rw [count] at counted within ⊢
  unfold bytesToWrite at counted
  rw [index] at counted
  split at counted
  · rename_i last
    split at counted
    · cases counted
      have inside : i * chunkSize < fileSize := by
        have := Nat.mul_le_mul_right chunkSize (show i + 1 ≤ (fileSize + chunkSize - 1) / chunkSize by omega)
        have := Nat.div_mul_le_self (fileSize + chunkSize - 1) chunkSize
        rw [Nat.add_mul,Nat.one_mul] at *
        omega
      have covered : fileSize ≤ (i + 1) * chunkSize := by
        have := Nat.lt_div_mul_add (a := fileSize + chunkSize - 1) positive
        rw [last]
        omega
      rw [Nat.add_mul,Nat.one_mul] at covered
      exact ⟨by omega,by omega,fun other => absurd last other⟩
    · cases counted
  · cases counted
    exact ⟨positive,Nat.le_refl _,fun _ => rfl⟩

theorem part_length {indexed : ChunkRecord × Nat}
    (opened : decryptPart prims files fileId fileKey fileSize chunkSize count indexed = .ok part) :
    bytesToWrite fileSize chunkSize count indexed.2 indexed.1 = .ok part.length := by
  simp only [decryptPart,bind_ok,ensure_ok,pure_ok] at opened
  obtain ⟨_,_,_,_,plaintext,_,amount,counted,_,long,rfl⟩ := opened
  rw [List.length_take,Nat.min_eq_left long]
  exact counted

-- The range loop takes from a chunk what the window has of the part the full loop
-- takes.
theorem range_part (index : record.chunkIndex = i) (order : start ≤ stop)
    (opened : decryptPart prims files fileId fileKey fileSize chunkSize count (record,i) = .ok part)
    (filled : 0 < part.length) :
    decryptRangePart prims files fileId fileKey fileSize chunkSize count start stop record =
      .ok (window chunkSize start (stop + 1) i part) := by
  have counted := part_length opened
  simp only [decryptPart,bind_ok,ensure_ok,pure_ok,mapError_ok] at opened
  obtain ⟨blob,read,verified,checked,plaintext,decrypted,amount,counted',_,long,rfl⟩ := opened
  rw [counted'] at counted
  rw [List.length_take,Nat.min_eq_left long] at filled
  unfold decryptRangePart
  rw [bind_ok]
  refine ⟨blob,read,bind_ok.mpr ⟨verified,by rw [checked]; rfl,bind_ok.mpr ⟨plaintext,by rw [decrypted]; rfl,?_⟩⟩⟩
  rw [index]
  refine bind_ok.mpr ⟨amount,counted',?_⟩
  have cut : window chunkSize start (stop + 1) i (plaintext.take amount) =
      (plaintext.take (min (stop + 1 - i * chunkSize) amount)).drop (start - i * chunkSize) := by
    rw [window,List.take_take]
  dsimp only
  split
  · rename_i apart
    rw [pure_ok,cut,eq_comm]
    apply List.drop_eq_nil_of_le
    rw [List.length_take]
    omega
  · rename_i meeting
    have stops : min stop (i * chunkSize + amount - 1) - i * chunkSize + 1 = min (stop + 1 - i * chunkSize) amount := by
      omega
    have starts : max start (i * chunkSize) - i * chunkSize = start - i * chunkSize := by omega
    rw [stops,starts]
    refine bind_ok.mpr ⟨(),ensure_ok.mpr (by omega),?_⟩
    rw [pure_ok,cut]

theorem opened_places (valid : readAndValidateChunks v.manifest fileSize records = .ok (sorted,chunkSize))
    (mapped : sorted.zipIdx.mapM (decryptPart prims files fileId fileKey fileSize chunkSize sorted.length) = .ok parts) :
    parts.length = sorted.length ∧ ∀ i (inside : i < sorted.length) (within : i < parts.length),
      sorted[i].chunkIndex = i ∧
        decryptPart prims files fileId fileKey fileSize chunkSize sorted.length (sorted[i],i) = .ok parts[i] ∧
        0 < parts[i].length ∧ parts[i].length ≤ chunkSize ∧ (i + 1 ≠ parts.length → parts[i].length = chunkSize) := by
  obtain ⟨read,_,count,indices⟩ := validated_parts valid
  have positive : 0 < chunkSize := by
    have := (chunk_size_read.mp read).1
    omega
  have paired := mapM_ok.mp mapped
  have length : parts.length = sorted.length := by
    rw [← paired.length_eq,List.length_zipIdx]
  refine ⟨length,fun i inside within => ?_⟩
  have opened : decryptPart prims files fileId fileKey fileSize chunkSize sorted.length (sorted[i],i) = .ok parts[i] := by
    simpa using (List.forall₂_iff_get.mp paired).2 i (by rw [List.length_zipIdx]; exact inside) within
  have index := (indices (sorted[i],i) (List.mem_iff_getElem.mpr ⟨i,by simpa using inside,by simp⟩)).2
  have counted := part_length opened
  rw [count] at counted
  rw [length,count]
  exact ⟨index,by rw [← count]; exact opened,amount_facts positive (by omega) index counted⟩

theorem opened_filled (valid : readAndValidateChunks v.manifest fileSize records = .ok (sorted,chunkSize))
    (mapped : sorted.zipIdx.mapM (decryptPart prims files fileId fileKey fileSize chunkSize sorted.length) = .ok parts) :
    Filled chunkSize parts := by
  obtain ⟨length,places⟩ := opened_places valid mapped
  apply filled_places
  · intro i within other
    exact (places i (by omega) within).2.2.2.2 other
  · intro part member
    obtain ⟨i,within,rfl⟩ := List.mem_iff_getElem.mp member
    exact (places i (by omega) within).2.2.2.1

theorem opened_length (opened : decryptFileToMemory prims v fileId fileKey fileSize records = .ok out) :
    out.length = fileSize := by
  simp only [decryptFileToMemory,bind_ok,pure_ok] at opened
  obtain ⟨⟨sorted,chunkSize⟩,valid,parts,mapped,rfl⟩ := opened
  have filled := opened_filled valid mapped
  obtain ⟨length,places⟩ := opened_places valid mapped
  obtain ⟨read,_,count,_⟩ := validated_parts valid
  rcases List.eq_nil_or_concat parts with rfl | ⟨front,last,rfl⟩
  · rw [← length,List.length_nil,expectedChunkCount] at count
    split at count
    · rename_i none
      rw [none]
      rfl
    · have positive : 0 < chunkSize := by
        have := (chunk_size_read.mp read).1
        omega
      have := Nat.div_pos (a := fileSize + chunkSize - 1) (by omega) positive
      omega
  · rw [List.concat_eq_append] at *
    rw [List.length_append,List.length_singleton] at length
    obtain ⟨index,opened,_,_,_⟩ := places front.length (by omega) (by simp)
    have counted := part_length opened
    rw [List.getElem_concat_length rfl] at counted
    unfold bytesToWrite at counted
    rw [if_pos length] at counted
    rw [filled_length filled]
    split at counted
    · rename_i below
      rw [index] at below counted
      have same := Except.ok.inj counted
      omega
    · cases counted

theorem range_parts (order : start ≤ stop)
    (valid : readAndValidateChunks v.manifest fileSize records = .ok (sorted,chunkSize))
    (mapped : sorted.zipIdx.mapM (decryptPart prims files fileId fileKey fileSize chunkSize sorted.length) = .ok parts) :
    sorted.mapM (decryptRangePart prims files fileId fileKey fileSize chunkSize sorted.length start stop) =
      .ok (parts.zipIdx.map fun indexed => window chunkSize start (stop + 1) indexed.2 indexed.1) := by
  obtain ⟨length,places⟩ := opened_places valid mapped
  rw [mapM_ok,List.forall₂_iff_get]
  refine ⟨by simp [length],fun i inside within => ?_⟩
  have within' : i < parts.length := by simpa using within
  obtain ⟨index,opened,filled,_⟩ := places i inside within'
  simpa using range_part index order opened filled

theorem range_of_opened (order : start ≤ stop) (inside : stop < fileSize)
    (opened : decryptFileToMemory prims v fileId fileKey fileSize records = .ok out) :
    decryptFileRangeToMemory prims v fileId fileKey fileSize records start stop =
      .ok ((out.drop start).take (stop - start + 1)) := by
  simp only [decryptFileToMemory,bind_ok,pure_ok] at opened
  obtain ⟨⟨sorted,chunkSize⟩,valid,parts,mapped,rfl⟩ := opened
  obtain ⟨read,_,_,_⟩ := validated_parts valid
  have positive : 0 < chunkSize := by
    have := (chunk_size_read.mp read).1
    omega
  have cut : ((sorted.drop (start / chunkSize)).take (stop / chunkSize - start / chunkSize + 1)).mapM
      (decryptRangePart prims v.files fileId fileKey fileSize chunkSize sorted.length start stop) = .ok _ :=
    mapM_ok.mpr (List.forall₂_take _ (List.forall₂_drop _ (mapM_ok.mp (range_parts order valid mapped))))
  refine bind_ok.mpr ⟨(),ensure_ok.mpr ⟨order,inside⟩,bind_ok.mpr ⟨_,valid,bind_ok.mpr ⟨_,cut,?_⟩⟩⟩
  have late : stop + 1 ≤ (stop / chunkSize + 1) * chunkSize := by
    have := Nat.lt_div_mul_add (a := stop) positive
    rw [Nat.add_mul,Nat.one_mul]
    omega
  rw [pure_ok,windows_between (opened_filled valid mapped) (Nat.div_mul_le_self ..) late (Nat.div_le_div_right order),
    window,Nat.zero_mul,Nat.sub_zero,Nat.sub_zero,List.drop_take]
  congr 1
  omega

theorem range_refused (outside : ¬ (start ≤ stop ∧ stop < fileSize)) :
    decryptFileRangeToMemory prims v fileId fileKey fileSize records start stop =
      .error (.constraintViolation "range is out of bounds for this file") := by
  unfold decryptFileRangeToMemory ensure
  rw [if_neg outside]
  rfl

end ArxRuna.Pipeline.Range
