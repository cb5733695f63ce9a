import ArxRuna.Cloud.Push
import ArxRuna.Epoch.Flush
import ArxRuna.Library.Run
import ArxRuna.Vault.Delete
namespace ArxRuna.Cloud.Closure
open Library.Aead Library.Run Library.Fallible Crypto Store.Tables Store.Operations Store.Effects Store.Integrity
open Store.Removal Store.Names Store.Staging Epoch.Flush Vault.Delete Cloud.Transport Cloud.Push

-- One device and its primary. `pushed` holds right after a push that returned Ok.
structure State where
  vault : Vault
  pushed : Bool

-- Who flushes decides where the blob goes: the command passes the staging
-- directory itself, the other two its `pending` subdirectory.
inductive FlushCaller where
  | flushCommand
  | pushActiveVault
  | lockVault
  deriving DecidableEq, Repr

def FlushCaller.stagingDir : FlushCaller → Place
  | .flushCommand => .flat
  | .pushActiveVault => .pending
  | .lockVault => .pending

-- A file of the immediate route: its chunk rows with the blobs behind them.
abbrev Parts := List (ChunkRecord × Bytes)

def writeParts (files : Files) (parts : Parts) : Files :=
  parts.foldl (fun files part => files.write .pending part.1.blobName (some part.2)) files

-- An upload or a flush that fails before its transaction leaves files no row
-- names. A directory deletion that stops part way is the `deleteFile` and
-- `deleteEmptyDirectory` steps it got to.
inductive Action where
  | insertNode (node : Node)
  | renameNode (id : Uuid) (name : String) (modifiedAt : Int)
  | moveNode (id : Uuid) (parent : Option Uuid) (modifiedAt : Int)
  | stageFile (node : Node) (plaintext : Bytes) (entryId : Uuid) (queuedAt : Int)
  | uploadFile (node : Node) (parts : Parts) (leftover : BlobName → Bool)
  | strayBlob (place : Place) (name : BlobName) (content : Bytes)
  | flushOneBlob (caller : FlushCaller) (chunkSize : Nat) (batch : Batch) (id : Uuid) (fileKey : FileKey)
      (wrapNonce chunkNonce : Nonce) (newV4 : Nat → Uuid)
  | deleteFile (id : Uuid) (now : Int) (stuck : Stuck)
  | deleteDirectory (id : Uuid) (now : Int) (stuck : Stuck)
  | deleteEmptyDirectory (id : Uuid) (now : Int)
  | downloadBlob (name : BlobName) (content : Bytes)
  | restart (moved : BlobName → Bool) (swept : Place → BlobName → Bool)
  | pushVault (env : PushEnv)

-- A version 4 identifier just drawn names nothing on either side.
def Fresh (v : Vault) (name : BlobName) : Prop :=
  (v.files .pending name = none ∧ v.files .cache name = none ∧ v.files .flat name = none) ∧
    v.cloud.objects name = none ∧ name ∉ listAllBlobNames v.manifest ∧
    ∀ entry ∈ v.manifest.pendingDeletions, entry.blobName ≠ name

instance (v : Vault) (name : BlobName) : Decidable (Fresh v name) := by unfold Fresh; infer_instance

def changed (v : Vault) (files : Files) (m : Manifest) : State := ⟨{v with manifest := m,files := files},false⟩

def committed (v : Vault) (result : Except StorageError Manifest) : State :=
  match result with
  | .error _ => changed v v.files v.manifest
  | .ok m => changed v v.files m

def step (prims : Primitives) (kek : KeyEncryptionKey) (s : State) : Action → Option State
  | .insertNode node => some (committed s.vault (insertNodeTx s.vault.manifest node))
  | .renameNode id name modifiedAt =>
    some (committed s.vault (Store.Operations.renameNode s.vault.manifest id name modifiedAt))
  | .moveNode id parent modifiedAt =>
    some (committed s.vault (Store.Operations.moveNode s.vault.manifest id parent modifiedAt))
  | .stageFile node plaintext entryId queuedAt =>
    some (committed s.vault (insertFileNodeAndStageEpochEntry s.vault.manifest node plaintext entryId queuedAt))
  | .uploadFile node parts leftover =>
    if (∀ part ∈ parts, Fresh s.vault part.1.blobName) then
      match insertFileWithChunks s.vault.manifest node (parts.map (·.1)) with
      | .error _ =>
        some (changed s.vault (writeParts s.vault.files (parts.filter fun part => leftover part.1.blobName))
          s.vault.manifest)
      | .ok m => some (changed s.vault (writeParts s.vault.files parts) m)
    else none
  | .strayBlob place name content =>
    if Fresh s.vault name then some (changed s.vault (s.vault.files.write place name (some content)) s.vault.manifest)
    else none
  | .flushOneBlob caller chunkSize batch id fileKey wrapNonce chunkNonce newV4 =>
    if batch ≠ [] ∧ Fresh s.vault id then
      let blob := sealBatch prims kek chunkSize batch id fileKey wrapNonce chunkNonce
      let files := s.vault.files.write caller.stagingDir blob.record.blobName (some blob.bytes)
      match commitEpochFlush s.vault.manifest blob.record blob.extents newV4 with
      | .error _ => some (changed s.vault files s.vault.manifest)
      | .ok m => some (changed s.vault files m)
    else none
  | .deleteFile id now stuck =>
    match Vault.Delete.deleteFile now stuck s.vault.manifest s.vault.files id with
    | .error _ => some (changed s.vault s.vault.files s.vault.manifest)
    | .ok (m,files) => some (changed s.vault files m)
  | .deleteDirectory id now stuck =>
    match Vault.Delete.deleteDirectory now stuck s.vault.manifest s.vault.files id with
    | .error _ => some (changed s.vault s.vault.files s.vault.manifest)
    | .ok (m,files) => some (changed s.vault files m)
  | .deleteEmptyDirectory id now =>
    if (∃ node ∈ s.vault.manifest.nodes, node.nodeId = id ∧ node.nodeType = .directory) ∧
        listChildren s.vault.manifest id = [] then
      some (committed s.vault (deleteNode s.vault.manifest id now))
    else none
  | .downloadBlob name content =>
    some (changed s.vault (s.vault.files.write .cache name (some content)) s.vault.manifest)
  | .restart moved swept =>
    some (changed s.vault (prepareVaultStorage s.vault.manifest moved swept s.vault.files) s.vault.manifest)
  | .pushVault env =>
    match Cloud.Push.pushVault env s.vault with
    | .error (_,v) => some ⟨v,false⟩
    | .ok v => some ⟨v,true⟩

-- The backup that a push left names only blobs that are in the cloud.
def Closed (s : State) : Prop := s.pushed = true →
  ∃ m, s.vault.cloud.manifestBackup = some m ∧ ∀ name ∈ listAllBlobNames m, (s.vault.cloud.objects name).isSome

-- A deletion takes no staged copy of a blob that a surviving node uses, unless
-- the cloud has the blob.
def Spares (v : Vault) (id : Uuid) (stuck : Stuck) : Prop :=
  ∀ node ∈ v.manifest.nodes, node.nodeId ∉ subtree v.manifest id → ∀ name, Uses v.manifest node.nodeId name →
    ∀ place, place ≠ .cache → Removed v.manifest (subtree v.manifest id) stuck place name →
    v.files place name = none ∨ (v.cloud.objects name).isSome

-- A push leaves behind no referenced blob whose only copy is in the staging
-- directory itself.
def Collected (v : Vault) : Prop :=
  ∀ name ∈ listAllBlobNames v.manifest, (v.files .flat name).isSome →
    (v.files .pending name).isSome ∨ (v.cloud.objects name).isSome

def Careful (s : State) : Action → Prop
  | .deleteFile id _ stuck => Spares s.vault id stuck
  | .deleteDirectory id _ stuck => Spares s.vault id stuck
  | .pushVault _ => Collected s.vault
  | _ => True

def Somewhere (v : Vault) (name : BlobName) : Prop :=
  (v.files .pending name).isSome ∨ (v.files .flat name).isSome ∨ (v.cloud.objects name).isSome

structure Invariant (s : State) : Prop where
  named : Named s.vault.manifest
  placed : ∀ name ∈ listAllBlobNames s.vault.manifest, Somewhere s.vault name
  closed : Closed s

variable {prims : Primitives} {kek : KeyEncryptionKey} {s next : State} {v : Vault} {m n : Manifest} {id : Uuid}

theorem Fresh.unnamed (fresh : Fresh v name) : Unnamed v.manifest name := ⟨fresh.2.2.1,fresh.2.2.2⟩

theorem changed_open (v : Vault) (files : Files) (m : Manifest) : Closed (changed v files m) :=
  (by rintro ⟨⟩)

theorem changed_preserves (inv : Invariant s) (named : Named n)
    (kept : ∀ place name, (s.vault.files place name).isSome → (files place name).isSome)
    (added : ∀ name ∈ listAllBlobNames n, name ∈ listAllBlobNames s.vault.manifest ∨
      (files .pending name).isSome ∨ (files .flat name).isSome) : Invariant (changed s.vault files n) := by
  refine ⟨named,fun name listed => ?_,changed_open _ _ _⟩
  rcases added name listed with old | new
  · exact (inv.placed name old).imp (kept .pending name) (Or.imp_left (kept .flat name))
  · exact new.imp_right .inl

theorem same_rows_preserves (inv : Invariant s) (after : Valid n) (chunks : n.chunks = s.vault.manifest.chunks)
    (blobs : n.epochBlobs = s.vault.manifest.epochBlobs)
    (queue : n.pendingDeletions = s.vault.manifest.pendingDeletions) :
    Invariant (changed s.vault s.vault.files n) := by
  apply changed_preserves inv
  · exact grown_named inv.named (same_rows_grown after chunks blobs fun _ member => queue ▸ member)
  · exact fun _ _ there => there
  · exact fun name listed => .inl (same_rows_names chunks blobs ▸ listed)

theorem unchanged_preserves (inv : Invariant s) : Invariant (changed s.vault s.vault.files s.vault.manifest) :=
  same_rows_preserves inv inv.named.valid rfl rfl rfl

theorem committed_preserves (inv : Invariant s)
    (accepted : ∀ n, result = .ok n → Invariant (changed s.vault s.vault.files n)) :
    Invariant (committed s.vault result) := by
  cases result with
  | error failure => exact unchanged_preserves inv
  | ok n => exact accepted n rfl

theorem write_kept {files : Files} : (files place name).isSome →
    (files.write place' name' (some content) place name).isSome := by
  intro there
  unfold Files.write
  split
  · rfl
  · exact there

theorem write_parts_kept (parts : Parts) (files : Files) (there : (files place name).isSome) :
    (writeParts files parts place name).isSome := by
  induction parts generalizing files with
  | nil => exact there
  | cons part rest ih => exact ih _ (write_kept there)

theorem write_parts_new (parts : Parts) (files : Files) (member : part ∈ parts) :
    (writeParts files parts .pending part.1.blobName).isSome := by
  induction parts generalizing files with
  | nil => cases member
  | cons first rest ih =>
    rcases List.mem_cons.mp member with rfl | later
    · exact write_parts_kept rest _ (by simp)
    · exact ih _ later

theorem upload_preserves {parts : Parts} (inv : Invariant s) (fresh : ∀ part ∈ parts, Fresh s.vault part.1.blobName)
    (accepted : insertFileWithChunks s.vault.manifest node (parts.map (·.1)) = .ok n) :
    Invariant (changed s.vault (writeParts s.vault.files parts) n) := by
  have unnamed : ∀ chunk ∈ parts.map (·.1), Unnamed s.vault.manifest chunk.blobName := by
    intro chunk member
    obtain ⟨part,there,rfl⟩ := List.mem_map.mp member
    exact (fresh part there).unnamed
  obtain ⟨grown,names⟩ := insert_file_grown inv.named (insert_file_with_chunks accepted) unnamed
  apply changed_preserves inv (grown_named inv.named grown)
  · exact fun _ _ there => write_parts_kept parts _ there
  · intro name listed
    rcases names name listed with old | ⟨chunk,member,rfl⟩
    · exact .inl old
    · obtain ⟨part,there,rfl⟩ := List.mem_map.mp member
      exact .inr (.inl (write_parts_new parts _ there))

theorem flush_preserves (inv : Invariant s) (fresh : Fresh s.vault record.blobName)
    (accepted : commitEpochFlush s.vault.manifest record extents newV4 = .ok n) (caller : FlushCaller) :
    Invariant (changed s.vault (s.vault.files.write caller.stagingDir record.blobName (some content)) n) := by
  obtain ⟨grown,names⟩ := commit_grown inv.named accepted fresh.unnamed
  apply changed_preserves inv (grown_named inv.named grown)
  · exact fun _ _ there => write_kept there
  · intro name listed
    rcases names name listed with old | rfl
    · exact .inl old
    · refine .inr ?_
      cases caller with
      | flushCommand => exact .inr (by simp [FlushCaller.stagingDir])
      | pushActiveVault => exact .inl (by simp [FlushCaller.stagingDir])
      | lockVault => exact .inl (by simp [FlushCaller.stagingDir])

-- A name still referenced after a deletion is used by a node that survived it, so
-- a careful deletion has left its staged copies alone.
theorem deletion_preserves (inv : Invariant s) (spares : Spares s.vault id stuck)
    (deleted : Deleted s.vault.manifest s.vault.files (subtree s.vault.manifest id) stuck n files)
    (ended : Named n ∧ ∃ k x, Named k ∧ deleteNode k x now = .ok n) : Invariant (changed s.vault files n) := by
  obtain ⟨named,k,x,_,last⟩ := ended
  have effect := delete_node last
  have recorded : ∀ record ∈ n.epochBlobs, ∃ row ∈ n.chunks, epochIdOf row = some record.epochBlobId := by
    intro record member
    rw [effect.epochBlobs,List.mem_filter,decide_eq_true_eq] at member
    exact member.2
  refine ⟨named,fun name listed => ?_,changed_open _ _ _⟩
  obtain ⟨node,there,used⟩ := listed_used named.valid recorded listed
  obtain ⟨old,outside⟩ := deleted.without.mem_nodes.mp there
  have usedBefore := (deleted.without.uses inv.named.valid named.valid outside).mp used
  have staged (place : Place) (apart : place ≠ .cache) (copy : (s.vault.files place name).isSome) :
      (files place name).isSome ∨ (s.vault.cloud.objects name).isSome := by
    by_cases removed : Removed s.vault.manifest (subtree s.vault.manifest id) stuck place name
    · rcases spares node old outside name usedBefore place apart removed with gone | uploaded
      · rw [gone] at copy
        cases copy
      · exact .inr uploaded
    · rw [deleted.kept place name removed]
      exact .inl copy
  rcases inv.placed name (without_names deleted.without listed) with pending | flat | uploaded
  · exact (staged .pending (by decide) pending).imp_right .inr
  · exact .inr (staged .flat (by decide) flat)
  · exact .inr (.inr uploaded)

theorem delete_node_named (k : Manifest) (x : Uuid) (n : Manifest) (named : Named k)
    (dropped : deleteNode k x now = .ok n) : Named n :=
  delete_named named (delete_node dropped)

theorem delete_empty_preserves (inv : Invariant s) (dropped : deleteNode s.vault.manifest id now = .ok n) :
    Invariant (changed s.vault s.vault.files n) := by
  have effect := delete_node dropped
  apply changed_preserves inv (delete_named inv.named effect)
  · exact fun _ _ there => there
  · exact fun name listed => .inl (without_names (delete_without effect) listed)

theorem restart_preserves (inv : Invariant s) : Invariant
    (changed s.vault (prepareVaultStorage s.vault.manifest moved swept s.vault.files) s.vault.manifest) := by
  refine ⟨inv.named,fun name listed => ?_,changed_open _ _ _⟩
  have known : name ∈ listAllBlobNames s.vault.manifest := listed
  have unswept (place : Place) : prepareVaultStorage s.vault.manifest moved swept s.vault.files place name =
      migrateFlatStagingBlobs moved s.vault.files place name := by
    simp [prepareVaultStorage,cleanupOrphanedBlobs,known]
  simp only [Somewhere,changed,unswept]
  by_cases applies : moved name ∧ (s.vault.files .flat name).isSome
  · exact .inl (by simp only [migrateFlatStagingBlobs,if_pos applies,renamed]; exact applies.2)
  · simp only [migrateFlatStagingBlobs,if_neg applies]
    exact inv.placed name listed

theorem push_preserves (inv : Invariant s) (collected : Collected s.vault)
    (taken : step prims kek s (.pushVault env) = some next) : Invariant next := by
  have advanced := push_vault env s.vault
  simp only [step] at taken
  have after (w : Vault) (moved : Advanced s.vault w) : Named w.manifest ∧
      listAllBlobNames w.manifest = listAllBlobNames s.vault.manifest ∧
      ∀ name ∈ listAllBlobNames s.vault.manifest, Somewhere w name := by
    obtain ⟨queue,values,rows⟩ := moved.rows
    have chunks : w.manifest.chunks = s.vault.manifest.chunks := by rw [rows]
    have blobs : w.manifest.epochBlobs = s.vault.manifest.epochBlobs := by rw [rows]
    have valid : Valid w.manifest := by
      have old := inv.named.valid
      rw [rows]
      exact ⟨old.nodeIds,old.parents,old.forest,old.chunkNodes,old.chunkIds,old.chunkPlaces,old.flatNames,
        old.chunkBlobs,old.blobIds,old.blobNames,old.bufferNodes⟩
    refine ⟨grown_named inv.named (same_rows_grown valid chunks blobs moved.queue),
      same_rows_names chunks blobs,fun name listed => ?_⟩
    have free := inv.named.free name listed
    rcases inv.placed name listed with pending | flat | uploaded
    · rcases moved.pending name free with same | ⟨_,carried⟩
      · exact .inl (same ▸ pending)
      · exact .inr (.inr carried)
    · exact .inr (.inl (moved.elsewhere .flat name (by decide) ▸ flat))
    · exact .inr (.inr (moved.kept name free uploaded))
  cases pushed : Cloud.Push.pushVault env s.vault with
  | error ended =>
    rw [pushed] at advanced taken
    obtain ⟨failure,w⟩ := ended
    cases taken
    obtain ⟨named,names,placed⟩ := after w advanced
    exact ⟨named,fun name listed => placed name (names ▸ listed),by rintro ⟨⟩⟩
  | ok w =>
    rw [pushed] at advanced taken
    cases taken
    obtain ⟨named,names,placed⟩ := after w advanced
    refine ⟨named,fun name listed => placed name (names ▸ listed),fun _ => ?_⟩
    obtain ⟨m,backup,same,present⟩ := push_vault_ok pushed inv.named.free
    refine ⟨m,backup,fun name listed => ?_⟩
    rw [same] at listed
    have free := inv.named.free name listed
    -- a blob that is not pending must have been uploaded before
    rcases inv.placed name listed with pending | flat | uploaded
    · exact present name listed pending
    · rcases collected name listed flat with pending | uploaded
      · exact present name listed pending
      · exact advanced.kept name free uploaded
    · exact advanced.kept name free uploaded

theorem step_preserves (inv : Invariant s) (careful : Careful s act)
    (taken : step prims kek s act = some next) : Invariant next := by
  have valid := inv.named.valid
  cases act with
  | insertNode node =>
    cases taken
    apply committed_preserves inv
    intro n accepted
    have effect := insert_node_tx accepted
    exact same_rows_preserves inv (insert_node_valid valid effect) (by rw [effect.result]) (by rw [effect.result])
      (by rw [effect.result])
  | renameNode id name modifiedAt =>
    cases taken
    apply committed_preserves inv
    intro n accepted
    have result := rename_node accepted
    exact same_rows_preserves inv (rename_valid valid accepted) (by rw [result]) (by rw [result]) (by rw [result])
  | moveNode id parent modifiedAt =>
    cases taken
    apply committed_preserves inv
    intro n accepted
    have effect := move_node accepted
    exact same_rows_preserves inv (move_valid valid effect) (by rw [effect.result]) (by rw [effect.result])
      (by rw [effect.result])
  | stageFile node plaintext entryId queuedAt =>
    cases taken
    apply committed_preserves inv
    intro n accepted
    have effect := insert_file_node_and_stage accepted
    exact same_rows_preserves inv (stage_valid valid effect rfl) (by rw [effect.result]) (by rw [effect.result])
      (by rw [effect.result])
  | uploadFile node parts leftover =>
    simp only [step] at taken
    split at taken
    · rename_i fresh
      split at taken
      · cases taken
        apply changed_preserves inv inv.named
        · exact fun _ _ there => write_parts_kept _ _ there
        · exact fun _ listed => .inl listed
      · rename_i n accepted
        cases taken
        exact upload_preserves inv fresh accepted
    · cases taken
  | strayBlob place name content =>
    simp only [step] at taken
    split at taken
    · cases taken
      apply changed_preserves inv inv.named
      · exact fun _ _ there => write_kept there
      · exact fun _ listed => .inl listed
    · cases taken
  | flushOneBlob caller chunkSize batch blobId fileKey wrapNonce chunkNonce newV4 =>
    simp only [step] at taken
    split at taken
    · rename_i allowed
      split at taken
      · cases taken
        apply changed_preserves inv inv.named
        · exact fun _ _ there => write_kept there
        · exact fun _ listed => .inl listed
      · rename_i n accepted
        cases taken
        exact flush_preserves inv allowed.2 accepted caller
    · cases taken
  | deleteFile id now stuck =>
    simp only [step] at taken
    split at taken
    · cases taken
      exact unchanged_preserves inv
    · rename_i n files accepted
      cases taken
      exact deletion_preserves inv careful (delete_file_deleted valid accepted)
        (delete_file_keeps delete_node_named inv.named accepted)
  | deleteDirectory id now stuck =>
    simp only [step] at taken
    split at taken
    · cases taken
      exact unchanged_preserves inv
    · rename_i n files accepted
      cases taken
      exact deletion_preserves inv careful (delete_directory_deleted valid accepted)
        (delete_directory_keeps delete_node_named inv.named accepted)
  | deleteEmptyDirectory id now =>
    simp only [step] at taken
    split at taken
    · cases taken
      apply committed_preserves inv
      intro n dropped
      exact delete_empty_preserves inv dropped
    · cases taken
  | downloadBlob name content =>
    cases taken
    apply changed_preserves inv inv.named
    · exact fun _ _ there => write_kept there
    · exact fun _ listed => .inl listed
  | restart moved swept =>
    cases taken
    exact restart_preserves inv
  | pushVault env => exact push_preserves inv careful taken

def created (root : Uuid) (values : ManifestMeta) : State :=
  ⟨⟨createdManifest root values,noFiles,⟨fun _ => none,none⟩⟩,false⟩

theorem created_invariant (root : Uuid) (values : ManifestMeta) : Invariant (created root values) := by
  refine ⟨⟨created_valid root values,?_,?_⟩,?_,by rintro ⟨⟩⟩
  · exact by rintro row ⟨⟩
  · exact by rintro name ⟨⟩
  · exact by rintro name ⟨⟩

-- Along every run of careful steps, each push that returns Ok leaves a backup all
-- of whose blobs are in the cloud.
theorem pushed_backup_closed (guarded : Guarded (step prims kek) Careful (created root values) acts) :
    Along (step prims kek) Closed (created root values) acts :=
  along_mono (fun _ inv => inv.closed)
    (along_guarded (fun _ _ _ => step_preserves) (created_invariant root values) guarded)

theorem flush_step (filled : batch ≠ []) (fresh : Fresh s.vault id)
    (accepted : commitEpochFlush s.vault.manifest
      (sealBatch prims kek chunkSize batch id fileKey wrapNonce chunkNonce).record
      (sealBatch prims kek chunkSize batch id fileKey wrapNonce chunkNonce).extents newV4 = .ok n) :
    step prims kek s (.flushOneBlob caller chunkSize batch id fileKey wrapNonce chunkNonce newV4) =
      some (changed s.vault (s.vault.files.write caller.stagingDir id
        (some (sealBatch prims kek chunkSize batch id fileKey wrapNonce chunkNonce).bytes)) n) := by
  simp only [step,if_pos (And.intro filled fresh),accepted]
  rfl

def smoothPush : PushEnv where
  probe := .ok true
  limit := 4
  pick := fun round => round
  folder := .ok ()
  upload := fun _ => .smooth
  interrupted := none
  increment := .goes
  setLastSynced := .goes
  now := 200
  manifestUpload := .succeeds
  stopsAfterManifest := false
  rollback := .goes
  restore := .goes
  header := .ok ()
  stopsAfterHeader := false
  deletion := fun _ _ => ⟨true,.ok (),.goes⟩

def strandedFile : Node := ⟨2,some 1,.file,"a.txt",0,0,2,some (byteKey 7)⟩

def strandedStart : State := created 1 ⟨9,0,none,131072,true,some 1⟩

def strandedBlob : SealedBlob :=
  sealBatch plainPrimitives (byteKey 5) 131072 [(2,[10,11])] 30 (byteKey 1) (byteKey 2) (byteKey 3)

def strandedFlush (caller : FlushCaller) : Action :=
  .flushOneBlob caller 131072 [(2,[10,11])] 30 (byteKey 1) (byteKey 2) (byteKey 3) fun i => 40 + i

-- The buffer is flushed, then the vault is pushed.
def strandedActions (caller : FlushCaller) : List Action :=
  [.stageFile strandedFile [10,11] 20 100,strandedFlush caller,.pushVault smoothPush]

def strandedManifest : Manifest :=
  ⟨[⟨1,none,.directory,"",0,0,0,none⟩,strandedFile],[],[],[⟨20,2,[10,11],2,100⟩],[],⟨9,0,none,131072,true,some 1⟩⟩

def strandedVault (caller : FlushCaller) (m : Manifest) : Vault :=
  ⟨m,noFiles.write caller.stagingDir 30 (some strandedBlob.bytes),⟨fun _ => none,none⟩⟩

theorem stranded_commit : ∃ m, commitEpochFlush strandedManifest strandedBlob.record strandedBlob.extents
    (fun i => 40 + i) = .ok m ∧ ∃ w, Cloud.Push.pushVault smoothPush (strandedVault .flushCommand m) = .ok w ∧
    (∃ k, w.cloud.manifestBackup = some k ∧ 30 ∈ listAllBlobNames k) ∧ w.cloud.objects 30 = none := by
  have size : strandedBlob.record.sizePadded = 131112 := sealed_size
  have record : strandedBlob.record = ⟨30,30,strandedBlob.record.fileKeyWrapped,131112,
      strandedBlob.record.blake3Checksum⟩ := by
    rw [← size]
    rfl
  rw [record]
  exact ⟨_,rfl,_,rfl,⟨_,rfl,by decide⟩,rfl⟩

theorem stranded_staged : step plainPrimitives (byteKey 5) strandedStart (.stageFile strandedFile [10,11] 20 100) =
    some ⟨⟨strandedManifest,noFiles,⟨fun _ => none,none⟩⟩,false⟩ := rfl

theorem stranded_flushed (caller : FlushCaller)
    (accepted : commitEpochFlush strandedManifest strandedBlob.record strandedBlob.extents (fun i => 40 + i) = .ok m) :
    step plainPrimitives (byteKey 5) ⟨⟨strandedManifest,noFiles,⟨fun _ => none,none⟩⟩,false⟩ (strandedFlush caller) =
      some ⟨strandedVault caller m,false⟩ :=
  flush_step (by decide) (by decide) accepted

-- After a flush by the command the push returns Ok, and its backup names a blob
-- that is only in staging.
theorem stranded_push_not_closed :
    ¬ Along (step plainPrimitives (byteKey 5)) Closed strandedStart (strandedActions .flushCommand) := by
  obtain ⟨m,accepted,w,pushed,⟨k,backup,listed⟩,absent⟩ := stranded_commit
  have ran : run (step plainPrimitives (byteKey 5)) strandedStart (strandedActions .flushCommand) =
      some ⟨w,true⟩ := by
    rw [strandedActions,run_cons,stranded_staged,Option.bind_some,run_cons,stranded_flushed _ accepted,
      Option.bind_some,run_cons]
    simp only [step,pushed]
    rfl
  intro along
  obtain ⟨other,same,closed⟩ := along_last along ran rfl
  cases same.symm.trans backup
  have present := closed 30 listed
  rw [absent] at present
  cases present

-- The flush that belongs to the push itself puts the blob where the push looks.
theorem collected_push_closed :
    Along (step plainPrimitives (byteKey 5)) Closed strandedStart (strandedActions .pushActiveVault) := by
  obtain ⟨m,accepted,_⟩ := stranded_commit
  have collected : Collected (strandedVault .pushActiveVault m) := by
    intro name _ there
    cases there
  apply pushed_backup_closed
  exact guarded_cons trivial stranded_staged (guarded_cons trivial (stranded_flushed _ accepted) (guarded_last collected))

end ArxRuna.Cloud.Closure
