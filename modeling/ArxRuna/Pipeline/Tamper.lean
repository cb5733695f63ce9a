import ArxRuna.Pipeline.Decrypt
import ArxRuna.Store.Integrity
namespace ArxRuna.Pipeline.Tamper
open Library.Aead Library.Chunking Library.Fallible Library.Interrupt Crypto Store.Tables Store.Operations
open Store.Staging Epoch.Flush Pipeline.Encrypt Pipeline.Decrypt Vault.Disk
variable (prims : Primitives)

-- What of the stored blobs opens under a key was sealed under this key, with the
-- same associated data.
def Authentic (files : Files) (fileKey : FileKey) (sealed : Bytes → Bytes → Prop) : Prop :=
  ∀ place name blob aad text, files place name = some blob → openWire prims.cipher fileKey aad blob = some text →
    sealed aad text ∧ ∃ nonce, blob = sealWire prims.cipher fileKey nonce aad text

-- The key of a file is drawn for it, and seals its padded chunks.
def FileSealed (chunkSize : Nat) (fileId : Uuid) (content aad text : Bytes) : Prop :=
  ∃ (i : Nat) (part : Bytes), (chunks chunkSize content)[i]? = some part ∧ aad = buildChunkAad fileId i ∧
    text = padTo chunkSize part

-- The content went through one of the two encryption loops.
structure Stored (chunkSize : Nat) (fileId : Uuid) (fileKey : FileKey) (content : Bytes) : Prop where
  sized : 0 < chunkSize
  encrypted : ∃ source staging before after original, encryptParts prims source chunkSize fileId fileKey staging
    (chunks chunkSize content) 0 [] before = (.done original,after)

variable {prims : Primitives} {chunkSize size : Nat} {fileId : Uuid} {fileKey : FileKey} {content : Bytes}
  {v w : Workspace} {records : List ChunkRecord}

theorem encrypted_stored {staging : StagingDirectory} (full : content ≠ [])
    (ended : encryptBytes prims content fileId fileKey staging v = (.done records,w) ∨
      encryptFileInner prims content fileId fileKey staging v = (.done records,w)) :
    Stored prims v.manifest.manifestMeta.chunkSizeBytes fileId fileKey content := by
  rw [encryptBytes,if_neg full] at ended
  simp only [encryptFileInner,done_bind,done_inspect,done_demand] at ended
  rcases ended with ended | ended <;>
  · obtain ⟨_,_,⟨rfl,rfl⟩,size,_,⟨read,rfl⟩,ended⟩ := ended
    obtain ⟨bounds,rfl⟩ := chunk_size_read.mp read
    exact ⟨by omega,_,_,_,_,_,ended⟩

-- Only the last chunk of a text is short, so neither loop leaves before the end.
theorem parts_count {source : Source} {staging : StagingDirectory} (positive : 0 < chunkSize) {text : Bytes}
    (ended : encryptParts prims source chunkSize fileId fileKey staging (chunks chunkSize text) i names v =
      (.done records,w)) : records.length = (chunks chunkSize text).length := by
  induction text using chunks_induction positive generalizing i names v records with
  | empty =>
    rw [chunks_nil] at ended ⊢
    obtain ⟨rfl,rfl⟩ := done_pure.mp ended
    rfl
  | more text full ih =>
    rw [chunks_cons positive full] at ended ⊢
    obtain ⟨later,rfl,left⟩ := parts_cons ended
    rw [List.length_cons,List.length_cons]
    rcases left with ⟨rfl,short,rfl⟩ | ⟨_,names',ended⟩
    · have last : text.drop chunkSize = [] := by
        rw [List.length_take] at short
        exact List.drop_eq_nil_of_le (by omega)
      rw [last,chunks_nil]
      rfl
    · rw [ih ended]

theorem stored_few (stored : Stored prims chunkSize fileId fileKey content) :
    (chunks chunkSize content).length ≤ 2 ^ 32 := by
  obtain ⟨_,_,_,_,_,ended⟩ := stored.encrypted
  rw [← parts_count stored.sized ended,← Nat.zero_add (List.length _)]
  exact parts_bounded ended (by decide)

theorem index_bytes_inj (small : i < 2 ^ 32) (small' : j < 2 ^ 32) (same : indexBytes i = indexBytes j) : i = j := by
  have bytes (place : Nat) (inside : place < 4) : i >>> (8 * (3 - place)) % 256 = j >>> (8 * (3 - place)) % 256 := by
    have here := congrArg (fun bytes => (bytes[place]?).map UInt8.toNat) same
    simpa [indexBytes,inside] using here
  have high := bytes 0 (by decide)
  have next := bytes 1 (by decide)
  have third := bytes 2 (by decide)
  have low := bytes 3 (by decide)
  simp only [Nat.shiftRight_eq_div_pow] at high next third low
  omega

theorem chunk_aad_inj (small : i < 2 ^ 32) (small' : j < 2 ^ 32) (same : buildChunkAad fileId i = buildChunkAad fileId j) :
    i = j :=
  index_bytes_inj small small' (List.append_cancel_left same)

theorem opened_part {record : ChunkRecord} (stored : Stored prims chunkSize fileId fileKey content)
    (authentic : Authentic prims v.files fileKey (FileSealed chunkSize fileId content)) (index : record.chunkIndex = i)
    (small : i < 2 ^ 32) (within : i < expectedChunkCount content.length size)
    (opened : decryptPart prims v.files fileId fileKey content.length size (expectedChunkCount content.length size)
      (record,i) = .ok part) : size = chunkSize ∧ (chunks chunkSize content)[i]? = some part := by
  simp only [decryptPart,readEncryptedBlob,bind_ok,ensure_ok,pure_ok,mapError_ok] at opened
  obtain ⟨blob,⟨found,read,_,length,rfl⟩,verified,checked,text,decrypted,amount,counted,_,_,rfl⟩ := opened
  have same : verified = found := by
    unfold verifyChecksum at checked
    split at checked
    · cases checked
      rfl
    · cases checked
  subst same
  have sealed : openWire prims.cipher fileKey (buildChunkAad fileId i) verified = some text := by
    rw [index] at decrypted
    unfold decryptChunk at decrypted
    split at decrypted
    · cases decrypted
    · split at decrypted
      · cases decrypted
      · rename_i plaintext there
        cases decrypted
        exact there
  have there : v.files (resolveBlobPath v.files record.blobName) record.blobName = some verified := by
    unfold readBlob at read
    split at read
    · cases read
    · rename_i bytes held
      cases read
      exact held
  obtain ⟨⟨j,part,held,aad,rfl⟩,nonce,rfl⟩ := authentic _ _ _ _ _ there sealed
  have few := stored_few stored
  have inside := (List.getElem?_eq_some_iff.mp held).1
  have place : i = j := chunk_aad_inj small (by omega) aad
  subst place
  obtain ⟨cut,left⟩ := chunks_get stored.sized held
  have short : part.length ≤ chunkSize := by
    rw [cut]
    exact List.length_take_le ..
  rw [sealWire_length,pad_length short] at length
  have sizes : size = chunkSize := by omega
  refine ⟨sizes,?_⟩
  subst sizes
  -- What is cut off is the padding: the last part has what is left of the file,
  -- every other one is full.
  have partLength : part.length = min size (content.length - i * size) := by
    rw [cut,List.length_take,List.length_drop]
  have amountPart : amount = part.length := by
    have count : expectedChunkCount content.length size = (content.length + size - 1) / size := by
      rw [expectedChunkCount,if_neg (by omega)]
    rw [count] at counted within
    have covered : content.length ≤ (content.length + size - 1) / size * size := by
      have := Nat.lt_div_mul_add (a := content.length + size - 1) stored.sized
      omega
    unfold bytesToWrite at counted
    rw [index] at counted
    split at counted
    · rename_i last
      rw [if_pos (by omega)] at counted
      cases counted
      rw [← last,Nat.add_mul,Nat.one_mul] at covered
      omega
    · rename_i before
      cases counted
      have next : i + 1 ≤ (content.length + size - 1) / size - 1 := by omega
      have reach := Nat.mul_le_mul_right size next
      have total := Nat.div_mul_le_self (content.length + size - 1) size
      rw [Nat.sub_mul,Nat.one_mul,Nat.add_mul,Nat.one_mul] at reach
      omega
  rw [amountPart,pad_take]
  exact held

theorem opened_content (stored : Stored prims chunkSize fileId fileKey content)
    (authentic : Authentic prims v.files fileKey (FileSealed chunkSize fileId content))
    (opened : decryptFileToMemory prims v fileId fileKey content.length records = .ok out) : out = content := by
  simp only [decryptFileToMemory,bind_ok,pure_ok] at opened
  obtain ⟨⟨sorted,size⟩,valid,parts,mapped,rfl⟩ := opened
  obtain ⟨read,_,count,indices⟩ := validated_parts valid
  dsimp only at mapped count indices
  have paired := mapM_ok.mp mapped
  have pieces (i : Nat) (within : i < parts.length) : size = chunkSize ∧ (chunks chunkSize content)[i]? = some parts[i] := by
    have inside : i < sorted.length := by
      have := paired.length_eq
      rw [List.length_zipIdx] at this
      omega
    have here : decryptPart prims v.files fileId fileKey content.length size sorted.length (sorted[i],i) =
        .ok parts[i] := by
      simpa using (List.forall₂_iff_get.mp paired).2 i (by rw [List.length_zipIdx]; exact inside) within
    obtain ⟨small,index⟩ := indices (sorted[i],i) (List.mem_iff_getElem.mpr ⟨i,by simpa using inside,by simp⟩)
    rw [count] at here
    exact opened_part stored authentic index small (by omega) here
  have length : parts.length = expectedChunkCount content.length size := by
    rw [← count,← paired.length_eq,List.length_zipIdx]
  by_cases empty : content = []
  · rw [empty,List.length_nil,expectedChunkCount,if_pos rfl] at length
    rw [List.length_eq_zero_iff.mp length,empty]
    rfl
  · have some := List.length_pos_of_ne_nil empty
    have positive : 0 < size := by
      have := (chunk_size_read.mp read).1
      omega
    have many : 0 < parts.length := by
      rw [length,expectedChunkCount,if_neg (by omega)]
      exact Nat.div_pos (by omega) positive
    have same : size = chunkSize := (pieces 0 many).1
    subst same
    have all : parts = chunks size content := by
      apply List.ext_getElem
      · rw [length,expectedChunkCount,if_neg (by omega),chunks_length positive]
      · intro i within within'
        have here := (pieces i within).2
        rw [List.getElem?_eq_getElem within'] at here
        exact (Option.some.inj here).symm
    rw [all,chunks_flatten positive]

theorem sorted_perm (perm : records'.Perm records) (apart : (records.map (·.chunkIndex)).Nodup) :
    sortedChunks records' = sortedChunks records := by
  have perm' : (sortedChunks records').Perm (sortedChunks records) :=
    (List.perm_insertionSort _ _).trans (perm.trans (List.perm_insertionSort _ _).symm)
  have ordered (list : List ChunkRecord) : (sortedChunks list).Pairwise fun a b => a.chunkIndex ≤ b.chunkIndex :=
    List.pairwise_insertionSort _ _
  refine List.Perm.eq_of_pairwise (fun a b left right below above => ?_) (ordered _) (ordered _) perm'
  have left' : a ∈ records := perm.subset ((List.mem_insertionSort _).mp left)
  have right' : b ∈ records := (List.mem_insertionSort _).mp right
  exact List.inj_on_of_nodup_map apart left' right' (Nat.le_antisymm below above)

theorem validated_nodup (valid : readAndValidateChunks m fileSize records = .ok validated) :
    (records.map (·.chunkIndex)).Nodup := by
  obtain ⟨sorted,size⟩ := validated
  obtain ⟨_,rfl,_,indices⟩ := validated_parts valid
  have same : (sortedChunks records).map (·.chunkIndex) = List.range (sortedChunks records).length := by
    apply List.ext_getElem
    · rw [List.length_map,List.length_range]
    · intro i within within'
      rw [List.length_map] at within
      rw [List.getElem_map,List.getElem_range]
      exact (indices ((sortedChunks records)[i],i) (List.mem_iff_getElem.mpr ⟨i,by simpa using within,by simp⟩)).2
  have sorted : ((sortedChunks records).map (·.chunkIndex)).Nodup := by
    rw [same]
    exact List.nodup_range
  exact ((List.perm_insertionSort _ _).map _).nodup_iff.mp sorted

theorem validated_perm (perm : records'.Perm records)
    (valid : readAndValidateChunks m fileSize records = .ok validated) :
    readAndValidateChunks m fileSize records' = .ok validated := by
  have same := sorted_perm perm (validated_nodup valid)
  unfold readAndValidateChunks at valid ⊢
  rw [same,perm.length_eq]
  exact valid

theorem opened_perm (perm : records'.Perm records)
    (opened : decryptFileToMemory prims v fileId fileKey fileSize records = .ok out) :
    decryptFileToMemory prims v fileId fileKey fileSize records' = .ok out := by
  obtain ⟨validated,valid,later⟩ := bind_ok.mp opened
  exact bind_ok.mpr ⟨validated,validated_perm perm valid,later⟩

theorem order_irrelevant (perm : records'.Perm records) :
    (decryptFileToMemory prims v fileId fileKey fileSize records').toOption =
      (decryptFileToMemory prims v fileId fileKey fileSize records).toOption := by
  cases first : decryptFileToMemory prims v fileId fileKey fileSize records with
  | ok out => rw [opened_perm perm first]
  | error e =>
    cases second : decryptFileToMemory prims v fileId fileKey fileSize records' with
    | ok out => cases first.symm.trans (opened_perm perm.symm second)
    | error e' => rfl

section Saved
variable {destination : String} {io : Saving destination}

theorem saved_perm (perm : records'.Perm records)
    (valid : readAndValidateChunks v.manifest fileSize records = .ok validated) :
    decryptFile prims destination io fileId fileKey fileSize records' v =
      decryptFile prims destination io fileId fileKey fileSize records v := by
  unfold decryptFile
  rw [bind_inspect,bind_inspect,valid,validated_perm perm valid]

theorem saved_order_irrelevant (perm : records'.Perm records) :
    (decryptFile prims destination io fileId fileKey fileSize records' v).2 =
        (decryptFile prims destination io fileId fileKey fileSize records v).2 ∧
      ((decryptFile prims destination io fileId fileKey fileSize records' v).1 = .done () ↔
        (decryptFile prims destination io fileId fileKey fileSize records v).1 = .done ()) := by
  have refused (list : List ChunkRecord) (e : StorageError) (invalid : readAndValidateChunks v.manifest fileSize list = .error e) :
      decryptFile prims destination io fileId fileKey fileSize list v = (.failed e,v) := by
    unfold decryptFile
    rw [bind_inspect,invalid]
    rfl
  cases first : readAndValidateChunks v.manifest fileSize records with
  | ok validated =>
    rw [saved_perm perm first]
    exact ⟨rfl,Iff.rfl⟩
  | error e =>
    cases second : readAndValidateChunks v.manifest fileSize records' with
    | ok validated => cases first.symm.trans (validated_perm perm.symm second)
    | error e' =>
      rw [refused records e first,refused records' e' second]
      exact ⟨rfl,by constructor <;> rintro ⟨⟩⟩

-- Until the replacement begins only the temporary file is touched.
structure OnlyTemporary (io : Saving destination) (v w : Workspace) : Prop where
  manifest : w.manifest = v.manifest
  files : w.files = v.files
  disk : ∀ path, path ≠ io.temporary → w.disk path = v.disk path

theorem temporary_refl (v : Workspace) : OnlyTemporary io v v := ⟨rfl,rfl,fun _ _ => rfl⟩

theorem temporary_trans (a b c : Workspace) (first : OnlyTemporary io a b) (second : OnlyTemporary io b c) :
    OnlyTemporary io a c :=
  ⟨second.manifest.trans first.manifest,second.files.trans first.files,
    fun path other => (second.disk path other).trans (first.disk path other)⟩

theorem temporary_set (v : Workspace) (content : Option Bytes) : OnlyTemporary io v (v.setFile io.temporary content) :=
  ⟨rfl,rfl,fun _ other => setFile_other other⟩

theorem keeps_write_all {text : Bytes} : Keeps (OnlyTemporary io) (writeAll io.temporary text fate) :=
  keeps_bind temporary_trans (keeps_meet temporary_refl _) fun _ => keeps_change fun v => temporary_set v _

theorem keeps_write_parts {decrypt : ChunkRecord × Nat → Except StorageError Bytes} {list : List (ChunkRecord × Nat)} :
    Keeps (OnlyTemporary io) (writeParts io decrypt list) := by
  induction list with
  | nil => exact keeps_pure temporary_refl _
  | cons indexed rest ih =>
    refine keeps_bind temporary_trans (keeps_demand temporary_refl _) fun part => ?_
    exact keeps_bind temporary_trans keeps_write_all fun _ => ih

-- With a file system that does its part a write neither stops nor fails by itself.
theorem write_parts_ends (works : io.Works) {decrypt : ChunkRecord × Nat → Except StorageError Bytes}
    {list : List (ChunkRecord × Nat)} (there : v.disk io.temporary = some old) :
    (∃ e w, writeParts io decrypt list v = (.failed e,w)) ∨
      ∃ w content, writeParts io decrypt list v = (.done (),w) ∧ w.disk io.temporary = some content := by
  induction list generalizing v old with
  | nil => exact .inr ⟨v,old,rfl,there⟩
  | cons indexed rest ih =>
    cases opened : decrypt indexed with
    | error e =>
      refine .inl ⟨e,v,?_⟩
      rw [writeParts,opened]
      rfl
    | ok part =>
      have wrote : writeAll io.temporary part (io.write indexed.2) v = (.done (),_) :=
        (write_all_done there).mpr ⟨works.write _,rfl⟩
      have same : writeParts io decrypt (indexed :: rest) v = writeParts io decrypt rest
          (v.setFile io.temporary (some (old ++ part))) := by
        rw [writeParts,opened]
        exact bind_done wrote
      rw [same]
      exact ih setFile_same

theorem failed_only {decrypt : ChunkRecord × Nat → Except StorageError Bytes} {list : List (ChunkRecord × Nat)}
    (failed : writeParts io decrypt list v = (.failed e,w)) : OnlyTemporary io v w := by
  have kept : OnlyTemporary io v (writeParts io decrypt list v).2 := keeps_write_parts v
  rw [failed] at kept
  exact kept

theorem failed_leaves (works : io.Works) (dropped : io.dropped = true) (fresh : v.disk io.temporary = none)
    (ended : decryptFile prims destination io fileId fileKey fileSize records v = (.failed e,w)) : w.disk = v.disk := by
  unfold decryptFile at ended
  rw [bind_inspect] at ended
  cases valid : readAndValidateChunks v.manifest fileSize records with
  | error e' =>
    rw [valid] at ended
    cases ended
    rfl
  | ok validated =>
    rw [valid] at ended
    have created : createFile io.temporary io.create v = (.done (),_) := create_done.mpr ⟨works.create,rfl⟩
    change (createFile io.temporary io.create >>= _) v = _ at ended
    rw [bind_done created] at ended
    rcases write_parts_ends works (v := v.setFile io.temporary (some [])) setFile_same with
      ⟨e',u,failed⟩ | ⟨u,held,wrote,there⟩
    · have only := failed_only failed
      rw [undoing_failed (bind_failed failed)] at ended
      cases ended
      funext path
      rw [dropTemporary,if_pos dropped]
      by_cases here : path = io.temporary
      · rw [here,setFile_same,fresh]
      · rw [setFile_other here,only.disk path here,setFile_other here]
    · obtain ⟨t,persisted⟩ := persist_works works there
      rw [done_undoing.mpr ((bind_done (k := fun _ => persistTemporary destination io) wrote).trans persisted)] at ended
      cases ended

end Saved

-- Whatever the records and the blobs: the original content, or nothing.
theorem tampered_chunks_harmless (prims : Primitives) (v : Workspace) (destination : String) (io : Saving destination)
    (chunkSize : Nat) (fileId : Uuid) (fileKey : FileKey) (content : Bytes) (records : List ChunkRecord)
    (stored : Stored prims chunkSize fileId fileKey content)
    (authentic : Authentic prims v.files fileKey (FileSealed chunkSize fileId content)) :
    (∀ out, decryptFileToMemory prims v fileId fileKey content.length records = .ok out → out = content) ∧
    (∀ w, decryptFile prims destination io fileId fileKey content.length records v = (.done (),w) →
      w.disk destination = some content) ∧
    (∀ e w, decryptFile prims destination io fileId fileKey content.length records v = (.failed e,w) → io.Works →
      io.dropped = true → v.disk io.temporary = none → w.disk = v.disk) ∧
    ∀ records', records'.Perm records →
      (decryptFileToMemory prims v fileId fileKey content.length records').toOption =
        (decryptFileToMemory prims v fileId fileKey content.length records).toOption ∧
      (decryptFile prims destination io fileId fileKey content.length records' v).2 =
        (decryptFile prims destination io fileId fileKey content.length records v).2 ∧
      ((decryptFile prims destination io fileId fileKey content.length records' v).1 = .done () ↔
        (decryptFile prims destination io fileId fileKey content.length records v).1 = .done ()) := by
  refine ⟨fun out => opened_content stored authentic,fun w ended => ?_,fun e w ended works dropped fresh => ?_,
    fun records' perm => ⟨order_irrelevant perm,saved_order_irrelevant perm⟩⟩
  · obtain ⟨out,opened,written⟩ := decrypt_file_done ended
    rw [written,opened_content stored authentic opened]
  · exact failed_leaves works dropped fresh ended

-- A cipher whose tag tells the associated data of two chunks from all others.
def mark (aad : Bytes) : Block 16 :=
  if aad = buildChunkAad 1 0 then byteKey 1 else if aad = buildChunkAad 1 1 then byteKey 2 else byteKey 0

def marking : Primitives where
  cipher := {
    encrypt _ _ aad text := (text,mark aad)
    decrypt _ _ aad text tag := if tag = mark aad then some text else none
    decrypt_encrypt _ _ _ _ := if_pos rfl
    length_encrypt _ _ _ _ := rfl}
  blake3 blob := blob

def filled : Bytes := List.replicate 131072 7

-- A file of a full chunk and a short one.
def letter : Bytes := filled ++ [8,9]

def letterStaging : StagingDirectory := ⟨.pending,fun i => ⟨5 + i,20 + i,byteKey 0,.goes⟩,fun _ => true⟩

def letterBlob (i : Nat) (part : Bytes) : Bytes := sealChunk marking 131072 1 (byteKey 3) i part (byteKey 0)

def emptyVault : Workspace := ⟨Store.Integrity.createdManifest 1 ⟨9,0,none,131072,true,some 1⟩,noFiles,fun _ => none⟩

def letterVault : Workspace :=
  (emptyVault.setBlob .pending 5 (some (letterBlob 0 filled))).setBlob .pending 6 (some (letterBlob 1 [8,9]))

def letterRecords : List ChunkRecord :=
  [chunkRecord marking 131072 0 (letterStaging.draw 0) (letterBlob 0 filled),
   chunkRecord marking 131072 1 (letterStaging.draw 1) (letterBlob 1 [8,9])]

theorem letter_full : letter ≠ [] := List.append_ne_nil_of_right_ne_nil _ (by decide)

theorem letter_chunks : chunks 131072 letter = [filled,[8,9]] := by
  have length : filled.length = 131072 := List.length_replicate
  rw [chunks_cons (by decide) letter_full,letter,List.take_left' length,List.drop_left' length,
    chunks_cons (by decide) (by decide),List.drop_eq_nil_of_le (by decide),chunks_nil,List.take_of_length_le (by decide)]

theorem letter_encrypted :
    encryptFileInner marking letter 1 (byteKey 3) letterStaging emptyVault = (.done letterRecords,letterVault) := by
  have read : readChunkSizeBytes emptyVault.manifest = .ok 131072 := rfl
  have length : filled.length = 131072 := List.length_replicate
  simp only [encryptFileInner,done_bind,done_inspect,done_demand]
  refine ⟨_,_,⟨rfl,rfl⟩,131072,_,⟨read,rfl⟩,?_⟩
  rw [letter_chunks]
  simp only [encryptParts,done_bind,done_undoing,write_blob_done]
  refine ⟨(),_,⟨rfl,rfl⟩,?_⟩
  rw [if_neg (by rw [length]; decide)]
  simp only [done_bind,done_undoing,done_require,write_blob_done,done_pure]
  refine ⟨(),_,⟨by decide,rfl⟩,_,_,⟨(),_,⟨rfl,rfl⟩,?_⟩,rfl,rfl⟩
  rw [if_pos (by decide)]
  rfl

theorem letter_stored : Stored marking 131072 1 (byteKey 3) letter :=
  encrypted_stored letter_full (.inr letter_encrypted)

theorem letter_authentic : Authentic marking letterVault.files (byteKey 3) (FileSealed 131072 1 letter) := by
  have apart : buildChunkAad 1 1 ≠ buildChunkAad 1 0 := by decide
  have sealed (i : Nat) (part : Bytes) (held : (chunks 131072 letter)[i]? = some part)
      (marked : ∀ aad, mark (buildChunkAad 1 i) = mark aad → aad = buildChunkAad 1 i) (aad text : Bytes)
      (opened : openWire marking.cipher (byteKey 3) aad (letterBlob i part) = some text) :
      FileSealed 131072 1 letter aad text ∧
        ∃ nonce, letterBlob i part = sealWire marking.cipher (byteKey 3) nonce aad text := by
    rw [letterBlob,sealChunk,encryptChunk,openWire,sealWire,split_parts] at opened
    change (if mark (buildChunkAad 1 i) = mark aad then some (padTo 131072 part) else none) = some text at opened
    split at opened
    · rename_i same
      cases opened
      rw [marked aad same]
      exact ⟨⟨i,part,held,rfl,rfl⟩,byteKey 0,rfl⟩
    · cases opened
  have first : ∀ aad, mark (buildChunkAad 1 0) = mark aad → aad = buildChunkAad 1 0 := by
    intro aad same
    by_contra other
    rw [mark,if_pos rfl,mark,if_neg other] at same
    split at same <;> revert same <;> decide
  have second : ∀ aad, mark (buildChunkAad 1 1) = mark aad → aad = buildChunkAad 1 1 := by
    intro aad same
    by_contra other
    rw [mark,if_neg apart,if_pos rfl,mark,if_neg other] at same
    split at same <;> revert same <;> decide
  intro place name blob aad text there opened
  change (if place = .pending ∧ name = 6 then some (letterBlob 1 [8,9])
    else if place = .pending ∧ name = 5 then some (letterBlob 0 filled) else none) = some blob at there
  split at there
  · cases there
    exact sealed 1 [8,9] (by rw [letter_chunks]; rfl) second aad text opened
  · split at there
    · cases there
      exact sealed 0 filled (by rw [letter_chunks]; rfl) first aad text opened
    · cases there

def keeping : Saving "letter" where
  temporary := ".tmp"
  backup := ".bak"
  create := .goes
  write _ := .goes
  flush := .goes
  sync := .goes
  look := .goes
  moveAway := .goes
  moveIn := .goes
  movedBack := true
  dropBackup := .goes
  dropped := true
  backup_temporary := by decide
  backup_destination := by decide
  temporary_destination := by decide

-- Each record names the blob of the other chunk.
def letterSwapped : List ChunkRecord :=
  [chunkRecord marking 131072 0 (letterStaging.draw 1) (letterBlob 1 [8,9]),
   chunkRecord marking 131072 1 (letterStaging.draw 0) (letterBlob 0 filled)]

theorem letter_swapped_harmless :
    decryptFileToMemory marking letterVault 1 (byteKey 3) letter.length letterSwapped ≠ .ok ([8,9] ++ filled) ∧
      (decryptFileToMemory marking letterVault 1 (byteKey 3) letter.length letterRecords.reverse).toOption =
        (decryptFileToMemory marking letterVault 1 (byteKey 3) letter.length letterRecords).toOption := by
  have harmless := tampered_chunks_harmless marking letterVault "letter" keeping 131072 1 (byteKey 3) letter
  constructor
  · intro opened
    have same := (harmless letterSwapped letter_stored letter_authentic).1 _ opened
    have head := congrArg List.head? same
    rw [letter,filled,List.replicate_succ] at head
    revert head
    decide
  · exact ((harmless letterRecords letter_stored letter_authentic).2.2.2 _ letterRecords.reverse_perm).1

end ArxRuna.Pipeline.Tamper
