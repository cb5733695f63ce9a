import ArxRuna.Epoch.Complete
import ArxRuna.Pipeline.Decrypt
namespace ArxRuna.Vault.Transfer
open Library.Aead Library.Chunking Library.Fallible Library.Interrupt Crypto Store.Tables Store.Operations
open Store.Effects Store.Integrity Store.Staging Epoch.Flush Epoch.Complete Pipeline.Exif Pipeline.Encrypt
open Pipeline.Decrypt Vault.Disk
open Epoch.History (Opens decrypt_row)

inductive RouteDecision where
  | immediate
  | epochBuffer
  deriving DecidableEq, Repr

def decideRoute (fileSize chunkSize : Nat) (epochEnabled : Bool) : RouteDecision :=
  if epochEnabled ∧ fileSize < chunkSize then .epochBuffer else .immediate

-- The header read returns the first eight bytes, or all of a shorter file.
def stripExifIfImage (content : Bytes) : Option Bytes :=
  if content.length = 0 then none
  else if isImageMagic (content.take 8) then some (stripExif content)
  else none

-- What one upload draws at random or takes from the clock.
structure UploadDraw where
  fileKey : FileKey
  wrapNonce : Nonce
  staging : StagingDirectory
  entryId : Uuid
  queuedAt : Int

structure UploadRequest where
  source : String
  nodeId : Uuid
  parentId : Option Uuid
  name : String
  createdAt : Int
  modifiedAt : Int

variable (prims : Primitives) (kek : KeyEncryptionKey)

def UploadRequest.node (request : UploadRequest) (sizeBytes : Nat) (fileKey : FileKey) (nonce : Nonce) : Node :=
  ⟨request.nodeId,request.parentId,.file,request.name,request.createdAt,request.modifiedAt,sizeBytes,
    some (wrapFileKey prims fileKey request.nodeId kek nonce)⟩

def encryptSource (stripped : Option Bytes) (request : UploadRequest) (draw : UploadDraw) :
    Command Workspace StorageError (List ChunkRecord) :=
  match stripped with
  | some bytes => encryptBytes prims bytes request.nodeId draw.fileKey draw.staging
  | none => encryptFile prims request.source request.nodeId draw.fileKey draw.staging

def uploadFile (request : UploadRequest) (draw : UploadDraw) : Command Workspace StorageError Node := do
  let v ← inspect
  let content ← demand (readFile v request.source)
  let stripped := stripExifIfImage content
  let fileSize := (stripped.getD content).length
  let chunkSize ← demand (readChunkSizeBytes v.manifest)
  match decideRoute fileSize chunkSize v.manifest.manifestMeta.epochBufferEnabled with
  | .epochBuffer => do
    -- the node carries a wrapped key of zeroes; its file is under the key of a blob
    let node := request.node prims kek fileSize (byteKey 0) draw.wrapNonce
    let m ← demand
      (insertFileNodeAndStageEpochEntry v.manifest node (stripped.getD content) draw.entryId draw.queuedAt)
    change fun v => {v with manifest := m}
    pure node
  | .immediate => do
    let records ← encryptSource prims stripped request draw
    let chunks := assignNodeId request.nodeId records
    let node := request.node prims kek fileSize draw.fileKey draw.wrapNonce
    let v ← inspect
    let m ← undoing (cleanupStagedBlobs draw.staging.place (chunks.map (·.blobName)) draw.staging.removed)
      (demand (insertFileWithChunks v.manifest node chunks))
    change fun v => {v with manifest := m}
    pure node

-- The store's errors and the one only a download reports.
inductive DownloadError where
  | storage (error : StorageError)
  | epochBufferNotFlushed (nodeId : Uuid)
  deriving DecidableEq, Repr

inductive Located where
  | epoch (chunk : ChunkRecord)
  | flat (node : Node) (fileKey : FileKey) (chunks : List ChunkRecord)

def firstEpochChunk : List ChunkRecord → Option ChunkRecord
  | [] => none
  | chunk :: _ => if chunk.epochBlobId.isSome then some chunk else none

-- The routing both downloads run.
def locateContent (m : Manifest) (nodeId : Uuid) : Except DownloadError Located := do
  let node ← (getNode m nodeId).mapError .storage
  ensure (node.nodeType = .file) (.storage (.constraintViolation "target is a directory"))
  let chunks ← (getChunks m nodeId).mapError .storage
  ensure (¬ (chunks = [] ∧ nodeId ∈ m.epochBuffer.map (·.nodeId))) (.epochBufferNotFlushed nodeId)
  match firstEpochChunk chunks with
  | some chunk => pure (.epoch chunk)
  | none =>
    match node.fileKeyWrapped with
    | none => .error (.storage (.constraintViolation "file node missing wrapped key"))
    | some wrapped =>
      match unwrapFileKey prims wrapped node.nodeId kek with
      | .error e => .error (.storage (StorageError.fromCrypto e))
      | .ok fileKey => pure (.flat node fileKey chunks)

def decryptToMemory (v : Workspace) : Located → Except StorageError Bytes
  | .epoch chunk => decryptEpochFileToMemory prims kek v.files v.manifest chunk
  | .flat node fileKey chunks => decryptFileToMemory prims v node.nodeId fileKey node.sizeBytes chunks

def decryptToDisk (destination : String) (io : Saving destination) : Located → Command Workspace StorageError Unit
  | .epoch chunk => decryptEpochFile prims destination io kek chunk
  | .flat node fileKey chunks => decryptFile prims destination io node.nodeId fileKey node.sizeBytes chunks

def downloadFileToMemory (v : Workspace) (nodeId : Uuid) : Except DownloadError Bytes := do
  let located ← locateContent prims kek v.manifest nodeId
  (decryptToMemory prims kek v located).mapError .storage

def downloadFile (destination : String) (io : Saving destination) (nodeId : Uuid) :
    Command Workspace DownloadError Unit := do
  let v ← inspect
  let located ← demand (locateContent prims kek v.manifest nodeId)
  relabel .storage (decryptToDisk prims kek destination io located)

def storedContent (content : Bytes) : Bytes := if isImageMagic content then stripExif content else content

variable {prims : Primitives} {kek : KeyEncryptionKey} {m n : Manifest} {u v w : Workspace} {nodeId : Uuid}

theorem mapError_ok {f : StorageError → DownloadError} {result : Except StorageError α} :
    result.mapError f = .ok value ↔ result = .ok value := by
  cases result <;> simp [Except.mapError]

theorem strip_if_image (content : Bytes) : (stripExifIfImage content).getD content = storedContent content := by
  rw [stripExifIfImage,storedContent,magic_take]
  split
  · rename_i empty
    rw [List.length_eq_zero_iff.mp empty]
    rfl
  · split <;> rfl

-- A download to disk that is reported done wrote what the one to memory returns,
-- and it is done when the file system does its part.
theorem download_file_done {io : Saving destination}
    (ended : downloadFile prims kek destination io nodeId v = (.done value,w)) :
    ∃ content, downloadFileToMemory prims kek v nodeId = .ok content ∧ w.disk destination = some content := by
  simp only [downloadFile,done_bind,done_inspect,done_demand,done_relabel] at ended
  obtain ⟨_,_,⟨rfl,rfl⟩,located,_,⟨found,rfl⟩,ended⟩ := ended
  have opened : ∃ content, decryptToMemory prims kek v located = .ok content ∧ w.disk destination = some content := by
    cases located with
    | epoch chunk => exact decrypt_epoch_file_done ended
    | flat node fileKey chunks => exact decrypt_file_done ended
  obtain ⟨content,opened,wrote⟩ := opened
  exact ⟨content,bind_ok.mpr ⟨located,found,mapError_ok.mpr opened⟩,wrote⟩

theorem download_file_works {io : Saving destination} (works : io.Works)
    (opened : downloadFileToMemory prims kek v nodeId = .ok content) :
    ∃ w, downloadFile prims kek destination io nodeId v = (.done (),w) := by
  obtain ⟨located,found,opened⟩ := bind_ok.mp opened
  have wrote : ∃ w, decryptToDisk prims kek destination io located v = (.done (),w) := by
    cases located with
    | epoch chunk => exact decrypt_epoch_file_works works (mapError_ok.mp opened)
    | flat node fileKey chunks => exact decrypt_file_works works (mapError_ok.mp opened)
  obtain ⟨w,wrote⟩ := wrote
  refine ⟨w,?_⟩
  rw [downloadFile,bind_inspect,found]
  exact done_relabel.mpr wrote

theorem source_encrypted {request : UploadRequest} {draw : UploadDraw}
    (read : readChunkSizeBytes v.manifest = .ok chunkSize) (there : v.disk request.source = some content)
    (ended : encryptSource prims (stripExifIfImage content) request draw v = (.done records,w)) :
    Encrypted prims draw.staging v w chunkSize request.nodeId draw.fileKey (storedContent content) records := by
  cases stripped : stripExifIfImage content with
  | some bytes =>
    have same := strip_if_image content
    rw [stripped,Option.getD_some] at same
    rw [stripped] at ended
    rw [← same]
    exact bytes_encrypted read ended
  | none =>
    have other : isImageMagic content = false := by
      rw [stripExifIfImage,magic_take] at stripped
      split at stripped
      · rename_i empty
        rw [List.length_eq_zero_iff.mp empty]
        rfl
      · split at stripped
        · cases stripped
        · rename_i other
          simpa using other
    rw [stripped] at ended
    rw [storedContent,other]
    exact file_encrypted read there other ended

theorem inserted_chunks (valid : Valid m) {chunks : List ChunkRecord} (effect : FileInserted m node chunks n)
    (sorted : chunks.Pairwise fun a b => a.chunkIndex ≤ b.chunkIndex)
    (flat : ∀ chunk ∈ chunks, chunk.epochBlobId = none ∧ chunk.byteOffset = none ∧ chunk.byteLength = none) :
    getChunks n node.nodeId = .ok chunks := by
  have old : m.chunks.filter (fun row => row.nodeId = node.nodeId) = [] := by
    rw [List.filter_eq_nil_iff]
    intro row member
    obtain ⟨other,there,same⟩ := valid.chunkNodes row member
    simpa [← same] using effect.inserted.fresh other there
  have new : (chunks.map flatRow).filter (fun row => row.nodeId = node.nodeId) = chunks.map flatRow := by
    rw [List.filter_eq_self]
    intro row member
    obtain ⟨chunk,there,rfl⟩ := List.mem_map.mp member
    exact decide_eq_true (effect.own chunk there).1
  have order : (chunks.map flatRow).Pairwise fun a b => a.chunkIndex ≤ b.chunkIndex := List.pairwise_map.mpr sorted
  have rows : chunkRowsOf n node.nodeId = chunks.map flatRow := by
    rw [chunkRowsOf,effect.result,List.filter_append,old,new,List.nil_append]
    exact List.Pairwise.insertionSort_eq order
  rw [getChunks,rows,mapM_ok,List.forall₂_map_left_iff,List.forall₂_same]
  intro chunk member
  obtain ⟨id,offset,length⟩ := flat chunk member
  cases chunk
  simp_all [flatRow,ChunkRow.resolve]

-- The two ways an upload can end with a node.
structure UploadedFlat (prims : Primitives) (kek : KeyEncryptionKey) (request : UploadRequest) (draw : UploadDraw)
    (content : Bytes) (v : Workspace) (node : Node) (u : Workspace) : Prop where
  shape : node = request.node prims kek (storedContent content).length draw.fileKey draw.wrapNonce
  inserted : ∃ records middle, encryptSource prims (stripExifIfImage content) request draw v = (.done records,middle) ∧
    insertFileWithChunks middle.manifest node (assignNodeId request.nodeId records) = .ok u.manifest ∧
    u.files = middle.files

structure UploadedEpoch (prims : Primitives) (kek : KeyEncryptionKey) (request : UploadRequest) (draw : UploadDraw)
    (content : Bytes) (v : Workspace) (node : Node) (u : Workspace) : Prop where
  shape : node = request.node prims kek (storedContent content).length (byteKey 0) draw.wrapNonce
  staged : insertFileNodeAndStageEpochEntry v.manifest node (storedContent content) draw.entryId draw.queuedAt =
    .ok u.manifest
  files : u.files = v.files

def uploadRoute (v : Workspace) (content : Bytes) : RouteDecision :=
  decideRoute (storedContent content).length v.manifest.manifestMeta.chunkSizeBytes
    v.manifest.manifestMeta.epochBufferEnabled

theorem upload_done {request : UploadRequest} {draw : UploadDraw} (there : v.disk request.source = some content)
    (ended : uploadFile prims kek request draw v = (.done node,u)) :
    readChunkSizeBytes v.manifest = .ok v.manifest.manifestMeta.chunkSizeBytes ∧
      match uploadRoute v content with
      | .immediate => UploadedFlat prims kek request draw content v node u
      | .epochBuffer => UploadedEpoch prims kek request draw content v node u := by
  have opened : readFile v request.source = .ok content := by
    rw [readFile,there]
  simp only [uploadFile,done_bind,done_inspect,done_demand] at ended
  obtain ⟨_,_,⟨rfl,rfl⟩,_,_,⟨same,rfl⟩,chunkSize,_,⟨read,rfl⟩,ended⟩ := ended
  cases opened.symm.trans same
  obtain ⟨bounds,rfl⟩ := chunk_size_read.mp read
  refine ⟨read,?_⟩
  rw [strip_if_image] at ended
  rw [uploadRoute]
  cases route : decideRoute (storedContent content).length v.manifest.manifestMeta.chunkSizeBytes
      v.manifest.manifestMeta.epochBufferEnabled with
  | epochBuffer =>
    simp only [route,done_bind,done_demand,done_change,done_pure] at ended
    obtain ⟨m,_,⟨accepted,rfl⟩,_,_,rfl,rfl,rfl⟩ := ended
    exact ⟨rfl,accepted,rfl⟩
  | immediate =>
    simp only [route,done_bind,done_inspect,done_undoing,done_demand,done_change,done_pure] at ended
    obtain ⟨records,middle,encrypted,_,_,⟨rfl,rfl⟩,m,_,⟨accepted,rfl⟩,_,_,rfl,rfl,rfl⟩ := ended
    exact ⟨rfl,records,middle,encrypted,accepted,rfl⟩

theorem assigned_staged {parts : List Bytes}
    (staged : StagedChunks prims files chunkSize fileId fileKey i parts records) :
    StagedChunks prims files chunkSize fileId fileKey i parts (assignNodeId nodeId records) := by
  induction parts generalizing i records with
  | nil => cases records with
    | nil => exact staged
    | cons record rest => cases staged
  | cons part rest ih => cases records with
    | nil => cases staged
    | cons record others =>
      obtain ⟨⟨index,size,flat,blob⟩,later⟩ := staged
      exact ⟨⟨index,size,flat,blob⟩,ih later⟩

theorem flat_download {request : UploadRequest} {draw : UploadDraw} (valid : Valid v.manifest)
    (there : v.disk request.source = some content) (read : readChunkSizeBytes v.manifest = .ok chunkSize)
    (fresh : ∀ i place, v.files place (draw.staging.draw i).blobName = none)
    (uploaded : UploadedFlat prims kek request draw content v node u) :
    downloadFileToMemory prims kek u request.nodeId = .ok (storedContent content) ∧
      u.manifest.node? request.nodeId = some node := by
  obtain ⟨shape,records,middle,encrypted,accepted,files⟩ := uploaded
  obtain ⟨manifest,bounded,staged⟩ := source_encrypted read there encrypted
  rw [manifest] at accepted
  have effect := insert_file_with_chunks accepted
  have distinct : (records.map (·.blobName)).Nodup := by
    have rows := List.pairwise_map.mp (List.pairwise_map.mp effect.rows.flats)
    rw [List.Nodup,List.pairwise_map]
    exact rows.imp fun apart same => apart _ rfl (congrArg ChunkSource.flat same)
  have assigned : StagedChunks prims u.files chunkSize request.nodeId draw.fileKey 0
      (chunks chunkSize (storedContent content)) (assignNodeId request.nodeId records) := by
    rw [files]
    exact assigned_staged (staged fresh distinct)
  have named : node.nodeId = request.nodeId := by rw [shape]; rfl
  have flat := staged_flat assigned
  have listed := inserted_chunks valid effect (staged_pairwise assigned) flat
  have found : u.manifest.node? request.nodeId = some node := by
    rw [← named]
    exact (insert_file_valid valid effect).node?.mpr ⟨by rw [effect.result]; simp,rfl⟩
  have unbuffered : request.nodeId ∉ u.manifest.epochBuffer.map (·.nodeId) := by
    rw [effect.result]
    intro member
    obtain ⟨entry,there,same⟩ := List.mem_map.mp member
    obtain ⟨other,present,owner⟩ := valid.bufferNodes entry there
    exact effect.inserted.fresh other present (owner.trans (same.trans named.symm))
  have size : readChunkSizeBytes u.manifest = .ok chunkSize := by
    rw [effect.result]
    exact read
  have opened : decryptFileToMemory prims u request.nodeId draw.fileKey (storedContent content).length
      (assignNodeId request.nodeId records) = .ok (storedContent content) := by
    apply staged_opens size assigned
    rw [assignNodeId,List.length_map]
    exact bounded
  have flatFirst : firstEpochChunk (assignNodeId request.nodeId records) = none := by
    cases listing : assignNodeId request.nodeId records with
    | nil => rfl
    | cons chunk rest =>
      rw [listing] at flat
      rw [firstEpochChunk,(flat chunk List.mem_cons_self).1]
      rfl
  have located : locateContent prims kek u.manifest request.nodeId =
      .ok (.flat node draw.fileKey (assignNodeId request.nodeId records)) := by
    rw [named] at listed
    simp only [locateContent,getNode,found,listed,Except.mapError,bind_ok,ensure_ok]
    refine ⟨node,rfl,(),by rw [shape]; rfl,_,rfl,(),fun both => unbuffered both.2,?_⟩
    simp only [flatFirst,shape,UploadRequest.node,unwrap_wrap]
    rfl
  refine ⟨bind_ok.mpr ⟨_,located,mapError_ok.mpr ?_⟩,found⟩
  rw [decryptToMemory,shape]
  exact opened

theorem upload_waiting {request : UploadRequest} {draw : UploadDraw} (valid : Valid v.manifest)
    (uploaded : UploadedEpoch prims kek request draw content v node u) :
    Waiting u.manifest request.nodeId (storedContent content) ∧ u.manifest.node? request.nodeId = some node := by
  obtain ⟨shape,accepted,_⟩ := uploaded
  have effect := insert_file_node_and_stage accepted
  have after := stage_valid valid effect rfl
  have named : node.nodeId = request.nodeId := by rw [shape]; rfl
  have fresh := effect.inserted.fresh
  rw [named] at fresh
  refine ⟨⟨after,?_,?_,?_⟩,after.node?.mpr ⟨by rw [effect.result]; simp,named⟩⟩
  · intro row member same
    rw [effect.result] at member
    obtain ⟨other,there,owner⟩ := valid.chunkNodes row member
    exact fresh other there (owner.trans same)
  · rw [effect.result]
    exact ⟨_,List.mem_append_right _ List.mem_cons_self,named⟩
  · intro entry member same
    rw [effect.result] at member
    rcases List.mem_append.mp member with old | new
    · obtain ⟨other,there,owner⟩ := valid.bufferNodes entry old
      exact absurd (owner.trans same) (fresh other there)
    · rw [List.mem_singleton.mp new]

-- Another file staged next to it.
structure StagedFile where
  node : Node
  plaintext : Bytes
  entryId : Uuid
  queuedAt : Int

def stageAll (others : List StagedFile) (m : Manifest) : Except StorageError Manifest :=
  others.foldlM (fun m file => insertFileNodeAndStageEpochEntry m file.node file.plaintext file.entryId file.queuedAt) m

theorem stage_all_waiting {others : List StagedFile} (waiting : Waiting m nodeId content)
    (found : m.node? nodeId = some node) (staged : stageAll others m = .ok n) :
    Waiting n nodeId content ∧ n.node? nodeId = some node := by
  unfold stageAll at staged
  induction others generalizing m with
  | nil =>
    cases staged
    exact ⟨waiting,found⟩
  | cons file rest ih =>
    rw [List.foldlM_cons,bind_ok] at staged
    obtain ⟨middle,first,later⟩ := staged
    have effect := insert_file_node_and_stage first
    have after := stage_valid waiting.valid effect rfl
    obtain ⟨there,named⟩ := node?_mem found
    refine ih ⟨after,?_,?_,?_⟩ (after.node?.mpr ⟨?_,named⟩) later
    · rw [effect.result]
      exact waiting.unpacked
    · obtain ⟨entry,member,same⟩ := waiting.entry
      rw [effect.result]
      exact ⟨entry,List.mem_append_left _ member,same⟩
    · intro entry member same
      rw [effect.result] at member
      rcases List.mem_append.mp member with old | new
      · exact waiting.only entry old same
      · rw [List.mem_singleton.mp new] at same
        exact absurd (named.trans same.symm) (effect.inserted.fresh node there)
    · rw [effect.result]
      exact List.mem_append_left _ there

theorem filed_download (filed : Filed prims kek v nodeId content)
    (listing : ∃ row ∈ v.manifest.chunks, row.nodeId = nodeId) (found : v.manifest.node? nodeId = some node)
    (file : node.nodeType = .file) : downloadFileToMemory prims kek v nodeId = .ok content := by
  obtain ⟨chunks,listed⟩ := filed.valid.getChunks nodeId
  obtain ⟨first,member⟩ : ∃ chunk, chunk ∈ chunks := by
    obtain ⟨row,there,named⟩ := listing
    obtain ⟨chunk,resolved⟩ := filed.valid.resolve there
    exact ⟨chunk,(mem_getChunks listed).mpr ⟨row,there,named,resolved⟩⟩
  cases chunks with
  | nil => cases member
  | cons chunk rest =>
    obtain ⟨row,there,named,resolved⟩ := (mem_getChunks listed).mp List.mem_cons_self
    obtain ⟨id,offset,length,record,bytes,kind,known,intact,opened⟩ := filed.rows row there named
    have epoch : chunk.epochBlobId.isSome := by
      simp only [ChunkRow.resolve,kind,known,Except.ok.injEq] at resolved
      rw [← resolved]
      rfl
    have located : locateContent prims kek v.manifest nodeId = .ok (.epoch chunk) := by
      simp only [locateContent,getNode,found,listed,Except.mapError,bind_ok,ensure_ok]
      refine ⟨node,rfl,(),file,_,rfl,(),by simp,?_⟩
      simp only [firstEpochChunk,epoch,if_true]
      rfl
    refine bind_ok.mpr ⟨_,located,mapError_ok.mpr ?_⟩
    exact (decrypt_row kind resolved).mpr ⟨record,bytes,known,intact.read,opened⟩

-- When the file can be read again: at once on the flat route, and on the other
-- one after a complete flush of the buffer, with whatever else was staged first.
inductive Settled (prims : Primitives) (kek : KeyEncryptionKey) (u : Workspace) : RouteDecision → Workspace → Prop where
  | flat : Settled prims kek u .immediate u
  | flushed (w : Workspace) (others : List StagedFile) (m : Manifest) (chunkSize : Nat) (place : Place) (draw : Nat → BlobDraw)
      (staged : stageAll others u.manifest = .ok m)
      (fresh : ∀ i place, u.files place (draw i).epochBlobId = none)
      (ended : flushEpochBuffer prims kek chunkSize place draw {u with manifest := m} = (.done (),w)) :
      Settled prims kek u .epochBuffer w

-- Upload then download is the identity on what is kept of the content.
theorem upload_then_download {request : UploadRequest} {draw : UploadDraw} (valid : Valid v.manifest)
    (there : v.disk request.source = some content)
    (fresh : ∀ i place, v.files place (draw.staging.draw i).blobName = none)
    (uploaded : uploadFile prims kek request draw v = (.done node,u))
    (settled : Settled prims kek u (uploadRoute v content) w) :
    w.manifest.node? request.nodeId = some node ∧ node.sizeBytes = (storedContent content).length ∧
      downloadFileToMemory prims kek w request.nodeId = .ok (storedContent content) ∧
      ∀ destination, ∀ io : Saving destination,
        (∀ x, downloadFile prims kek destination io request.nodeId w = (.done (),x) →
          x.disk destination = some (storedContent content)) ∧
        (io.Works → ∃ x, downloadFile prims kek destination io request.nodeId w = (.done (),x)) := by
  obtain ⟨read,route⟩ := upload_done there uploaded
  have returned : w.manifest.node? request.nodeId = some node ∧ node.sizeBytes = (storedContent content).length ∧
      downloadFileToMemory prims kek w request.nodeId = .ok (storedContent content) := by
    generalize uploadRoute v content = decision at route settled
    cases settled with
    | flat =>
      obtain ⟨downloaded,found⟩ := flat_download valid there read fresh route
      exact ⟨found,by rw [route.shape]; rfl,downloaded⟩
    | flushed _ others m chunkSize place draw staged unused ended =>
      obtain ⟨waiting,found⟩ := upload_waiting valid route
      obtain ⟨still,found⟩ := stage_all_waiting waiting found staged
      obtain ⟨filed,same,listing⟩ := flush_epoch_buffer still ended unused
      have present : w.manifest.node? request.nodeId = some node := by
        rw [Manifest.node?,same.nodes]
        exact found
      have file : node.nodeType = .file := by rw [route.shape]; rfl
      exact ⟨present,by rw [route.shape]; rfl,filed_download filed listing present file⟩
  obtain ⟨found,size,downloaded⟩ := returned
  refine ⟨found,size,downloaded,fun destination io => ⟨?_,fun works => download_file_works works downloaded⟩⟩
  intro x ended
  obtain ⟨written,same,wrote⟩ := download_file_done ended
  rw [wrote,Except.ok.inj (same.symm.trans downloaded)]

def notesVault : Workspace :=
  ⟨createdManifest 1 ⟨9,0,none,131072,true,some 1⟩,noFiles,fun path => if path = "notes.txt" then some [10,11] else none⟩

def notesRequest : UploadRequest := ⟨"notes.txt",2,some 1,"notes.txt",0,0⟩

def notesDraw : UploadDraw :=
  ⟨byteKey 1,byteKey 2,⟨.pending,fun i => ⟨100 + i,200 + i,byteKey 3,.goes⟩,fun _ => true⟩,20,100⟩

def notesBlob (i : Nat) : BlobDraw := ⟨30 + i,byteKey 1,byteKey 2,byteKey 3,fun j => 40 + j,.goes⟩

def notesNode : Node := notesRequest.node plainPrimitives (byteKey 5) 2 (byteKey 0) (byteKey 2)

def notesUploaded : Workspace :=
  {notesVault with manifest := {notesVault.manifest with
    nodes := notesVault.manifest.nodes ++ [notesNode]
    epochBuffer := [⟨20,2,[10,11],2,100⟩]}}

theorem notes_uploaded :
    uploadFile plainPrimitives (byteKey 5) notesRequest notesDraw notesVault = (.done notesNode,notesUploaded) := rfl

def notesSealed : SealedBlob :=
  sealBatch plainPrimitives (byteKey 5) 131072 [(2,[10,11])] 30 (byteKey 1) (byteKey 2) (byteKey 3)

theorem notes_flushed : ∃ w, flushEpochBuffer plainPrimitives (byteKey 5) 131072 .pending notesBlob notesUploaded =
    (.done (),w) := by
  have size : notesSealed.record.sizePadded = 131112 := sealed_size
  have record : notesSealed.record = ⟨30,30,notesSealed.record.fileKeyWrapped,131112,
      notesSealed.record.blake3Checksum⟩ := by
    rw [← size]
    rfl
  obtain ⟨m,accepted⟩ : ∃ m, commitEpochFlush notesUploaded.manifest notesSealed.record notesSealed.extents
      (notesBlob 0).newV4 = .ok m := by
    rw [record]
    exact ⟨_,rfl⟩
  obtain ⟨w,flushed⟩ : ∃ w, flushOneBlob plainPrimitives (byteKey 5) 131072 .pending (notesBlob 0) [(2,[10,11])]
      notesUploaded = (.done (),w) := flush_one_goes rfl rfl accepted
  have batches : flushBatches 131072 (getEpochBufferEntries notesUploaded.manifest) = [[(2,[10,11])]] := by
    decide
  refine ⟨w,?_⟩
  rw [flushEpochBuffer,bind_inspect,batches,flushBlobs,bind_done flushed,flushBlobs]
  rfl

-- Uploaded, flushed and read back.
theorem notes_upload_then_download : ∃ w,
    flushEpochBuffer plainPrimitives (byteKey 5) 131072 .pending notesBlob notesUploaded = (.done (),w) ∧
    downloadFileToMemory plainPrimitives (byteKey 5) w 2 = .ok [10,11] := by
  obtain ⟨w,flushed⟩ := notes_flushed
  have settled : Settled plainPrimitives (byteKey 5) notesUploaded (uploadRoute notesVault [10,11]) w :=
    .flushed w [] _ 131072 .pending notesBlob rfl (fun _ _ => rfl) flushed
  exact ⟨w,flushed,(upload_then_download (created_valid _ _) rfl (fun _ _ => rfl) notes_uploaded settled).2.2.1⟩

end ArxRuna.Vault.Transfer