import ArxRuna.Store.Names
import ArxRuna.Cloud.Transport
import Mathlib.Data.List.Dedup
namespace ArxRuna.Cloud.Push
open Library.Aead Library.Fallible Crypto Store.Tables Store.Operations Store.Names Store.Staging Cloud.Transport

structure CloudVault where
  objects : Objects
  manifestBackup : Option Manifest

structure Vault where
  manifest : Manifest
  files : Files
  cloud : CloudVault

inductive SyncError where
  | conflict (localCounter cloudCounter : Nat)
  | cloudManifestUnreadable
  | pushUploadFailed (firstError : CloudTransportError) (successfulUploads : List BlobName)
  | pushManifestBackupFailed (source : CloudTransportError)
  | rollbackFailed (manifestError : CloudTransportError)
  | vaultHeaderUploadFailed (source : CloudTransportError)
  | transport (source : CloudTransportError)
  | storage (source : StorageError)

-- A local step can go through, fail, or be the one before which the process stops.
inductive Fate where
  | goes
  | fails (text : String)
  | stops

structure DeletionFate where
  removed : Bool
  report : Except CloudTransportError Unit
  marked : Fate

-- Everything one call of `push_vault` does not decide itself.
structure PushEnv where
  probe : Except CloudTransportError Bool
  limit : Nat
  pick : Nat → Nat
  folder : Except CloudTransportError Unit
  upload : BlobName → UploadFate
  interrupted : Option (Nat × (BlobName → Bool))
  increment : Fate
  setLastSynced : Fate
  now : Int
  manifestUpload : Attempt
  stopsAfterManifest : Bool
  rollback : Fate
  restore : Fate
  header : Except CloudTransportError Unit
  stopsAfterHeader : Bool
  deletion : Nat → BlobName → DeletionFate

-- A call ends early with an error or, as `none`, with the process.
abbrev Stage := Except (Option SyncError × Vault) Vault

def storeStep (fate : Fate) (v : Vault) (result : Except StorageError Manifest) : Stage :=
  match fate,result with
  | .stops,_ => .error (none,v)
  | .fails text,_ => .error (some (.storage (.database text)),v)
  | .goes,.error failure => .error (some (.storage failure),v)
  | .goes,.ok m => .ok {v with manifest := m}

-- The probe answers whether the backup decrypts under the current key. One that
-- does not is reported, and `push_vault` goes on as if there were none.
def readCloudSnapshotState (probe : Except CloudTransportError Bool) (cloud : CloudVault) :
    Except SyncError (Option Nat) :=
  match probe,cloud.manifestBackup with
  | .error .notFound,_ => .ok none
  | .error failure,_ => .error (.transport failure)
  | .ok _,none => .ok none
  | .ok true,some m => .ok (some m.manifestMeta.snapshotCounter)
  | .ok false,some _ => .error .cloudManifestUnreadable

def conflictCheck (env : PushEnv) (v : Vault) : Stage :=
  let localCounter := v.manifest.manifestMeta.snapshotCounter
  match readCloudSnapshotState env.probe v.cloud with
  | .error .cloudManifestUnreadable => .ok v
  | .error failure => .error (some failure,v)
  | .ok none => .ok v
  | .ok (some cloudCounter) =>
    if cloudCounter > localCounter then .error (some (.conflict localCounter cloudCounter),v) else .ok v

-- UNION drops duplicates; the order is shuffled away.
def listSyncChunks (m : Manifest) : List BlobName := (listAllBlobNames m).dedup

def uploadBlobs (env : PushEnv) (v : Vault) : Stage :=
  let names := (listSyncChunks v.manifest).filter fun name => (v.files .pending name).isSome
  let sides : Sides := ⟨v.files,v.cloud.objects⟩
  let moved (s : Sides) : Vault := {v with files := s.files,cloud := {v.cloud with objects := s.objects}}
  match env.interrupted with
  | some (completed,landed) =>
    .error (none,moved (interruptUploads env.upload env.pick env.limit completed landed names sides))
  | none =>
    match names,env.folder with
    | _ :: _,.error failure => .error (some (.transport failure),v)
    | _,_ =>
      match driveBlobUploads env.upload env.pick env.limit names sides with
      | (.error (failure,successful),s) => .error (some (.pushUploadFailed failure successful),moved s)
      | (.ok _,s) => .ok (moved s)

def setLastSyncedAt (m : Manifest) (value : Option Int) : Manifest :=
  {m with manifestMeta := {m.manifestMeta with lastSyncedAt := value}}

-- Both repairs are tried; the counter goes first.
def rollBack (env : PushEnv) (before : ManifestMeta) (failure : CloudTransportError) (v : Vault) : Stage :=
  let rolled := storeStep env.rollback v (rollbackSnapshotCounter v.manifest before.snapshotCounter)
  match rolled with
  | .error (none,v) => .error (none,v)
  | .error (some _,v) =>
    match storeStep env.restore v (.ok (setLastSyncedAt v.manifest before.lastSyncedAt)) with
    | .error (none,v) => .error (none,v)
    | .error (some _,v) | .ok v => .error (some (.rollbackFailed failure),v)
  | .ok v =>
    match storeStep env.restore v (.ok (setLastSyncedAt v.manifest before.lastSyncedAt)) with
    | .error (none,v) => .error (none,v)
    | .error (some _,v) => .error (some (.rollbackFailed failure),v)
    | .ok v => .error (some (.pushManifestBackupFailed failure),v)

-- The backup is the database as it stands, encrypted.
def uploadManifestBackup (attempt : Attempt) (v : Vault) : Vault :=
  if attempt.stored then {v with cloud := {v.cloud with manifestBackup := some v.manifest}} else v

def publishManifest (env : PushEnv) (v : Vault) : Stage := do
  let before := v.manifest.manifestMeta
  let v ← storeStep env.increment v (incrementSnapshotCounter v.manifest)
  let v ← storeStep env.setLastSynced v (.ok (setLastSyncedAt v.manifest (some env.now)))
  let v := uploadManifestBackup env.manifestUpload v
  if env.stopsAfterManifest then .error (none,v)
  else match env.manifestUpload.report with
    | .error failure => rollBack env before failure v
    | .ok _ => .ok v

def uploadHeader (env : PushEnv) (v : Vault) : Stage :=
  if env.stopsAfterHeader then .error (none,v)
  else match env.header with
    | .error failure => .error (some (.vaultHeaderUploadFailed failure),v)
    | .ok _ => .ok v

def listPendingDeletions (m : Manifest) (limit : Nat) : List BlobName :=
  ((m.pendingDeletions.insertionSort fun a b =>
    a.queuedAt < b.queuedAt ∨ a.queuedAt = b.queuedAt ∧ a.blobName ≤ b.blobName).take limit).map (·.blobName)

-- `NotFound` counts as deleted; any other failure leaves the row queued.
def drainOne (fate : BlobName → DeletionFate) (v : Vault) (name : BlobName) : Stage :=
  let objects := if (fate name).removed then fun other => if other = name then none else v.cloud.objects other
    else v.cloud.objects
  let v := {v with cloud := {v.cloud with objects := objects}}
  match (fate name).report with
  | .ok _ | .error .notFound => storeStep (fate name).marked v (.ok (markDeletionComplete v.manifest name))
  | .error _ => .ok v

-- Batches go on while one takes a row off the queue, so one round per row is
-- always enough.
def drainRounds (fate : Nat → BlobName → DeletionFate) : Nat → Vault → Stage
  | 0, v => .ok v
  | rounds + 1, v => do
    let after ← (listPendingDeletions v.manifest 128).foldlM (drainOne (fate rounds)) v
    if after.manifest.pendingDeletions.length < v.manifest.pendingDeletions.length then
      drainRounds fate rounds after
    else .ok after

def drainPendingDeletions (fate : Nat → BlobName → DeletionFate) (v : Vault) : Stage :=
  drainRounds fate v.manifest.pendingDeletions.length v

def pushVault (env : PushEnv) (v : Vault) : Stage := do
  let v ← conflictCheck env v
  let v ← uploadBlobs env v
  let v ← publishManifest env v
  let v ← uploadHeader env v
  drainPendingDeletions env.deletion v

def Stage.last : Stage → Vault
  | .ok v => v
  | .error (_,v) => v

-- What any part of a push can do, wherever it ends. Only names in the deletion
-- queue can leave the cloud, and only a pending file whose object is in the
-- cloud can go.
structure Advanced (v w : Vault) : Prop where
  rows : ∃ queue values, w.manifest = {v.manifest with pendingDeletions := queue,manifestMeta := values}
  queue : ∀ entry ∈ w.manifest.pendingDeletions, entry ∈ v.manifest.pendingDeletions
  elsewhere : ∀ place name, place ≠ .pending → w.files place name = v.files place name
  kept : ∀ name, Unqueued v.manifest name → (v.cloud.objects name).isSome → (w.cloud.objects name).isSome
  pending : ∀ name, Unqueued v.manifest name → w.files .pending name = v.files .pending name ∨
    w.files .pending name = none ∧ (w.cloud.objects name).isSome

theorem Advanced.refl (v : Vault) : Advanced v v :=
  ⟨⟨_,_,rfl⟩,fun _ member => member,fun _ _ _ => rfl,fun _ _ there => there,fun _ _ => .inl rfl⟩

theorem Advanced.unqueued (advanced : Advanced v w) (free : Unqueued v.manifest name) :
    Unqueued w.manifest name := fun entry member => free entry (advanced.queue entry member)

theorem Advanced.trans (first : Advanced v w) (second : Advanced w x) : Advanced v x := by
  obtain ⟨queue,values,same⟩ := first.rows
  obtain ⟨queue',values',same'⟩ := second.rows
  refine ⟨⟨queue',values',by rw [same',same]⟩,fun entry member => first.queue entry (second.queue entry member),
    fun place name other => ?_,fun name free there => ?_,fun name free => ?_⟩
  · rw [second.elsewhere place name other,first.elsewhere place name other]
  · exact second.kept name (first.unqueued free) (first.kept name free there)
  · rcases second.pending name (first.unqueued free) with same | gone
    · rcases first.pending name free with same' | ⟨gone,there⟩
      · exact .inl (same.trans same')
      · exact .inr ⟨same.trans gone,second.kept name (first.unqueued free) there⟩
    · exact .inr gone

theorem Advanced.values (queue : ∀ entry ∈ w.pendingDeletions, entry ∈ v.manifest.pendingDeletions)
    (rows : w = {v.manifest with pendingDeletions := w.pendingDeletions,manifestMeta := w.manifestMeta}) :
    Advanced v {v with manifest := w} :=
  ⟨⟨_,_,rows⟩,queue,fun _ _ _ => rfl,fun _ _ there => there,fun _ _ => .inl rfl⟩

theorem Advanced.carried (carried : Carried ⟨v.files,v.cloud.objects⟩ s) :
    Advanced v {v with files := s.files,cloud := {v.cloud with objects := s.objects}} :=
  ⟨⟨_,_,rfl⟩,fun _ member => member,carried.elsewhere,fun name _ => carried.kept name,
    fun name _ => carried.pending name⟩

theorem bind_advanced {first : Stage} {rest : Vault → Stage} (here : Advanced v first.last)
    (later : ∀ w, first = .ok w → Advanced w (rest w).last) : Advanced v (Stage.last (first >>= rest)) := by
  cases first with
  | error ended => exact here
  | ok w => exact here.trans (later w rfl)

theorem store_step (advanced : ∀ m, result = .ok m → Advanced v {v with manifest := m}) :
    Advanced v (storeStep fate v result).last := by
  cases fate with
  | stops => exact .refl v
  | fails text => exact .refl v
  | goes =>
    cases result with
    | error failure => exact .refl v
    | ok m => exact advanced m rfl

theorem set_last_synced_advanced (value : Option Int) : Advanced v {v with manifest := setLastSyncedAt v.manifest value} :=
  .values (fun _ member => member) rfl

theorem increment_advanced (accepted : incrementSnapshotCounter v.manifest = .ok m) :
    Advanced v {v with manifest := m} := by
  unfold incrementSnapshotCounter at accepted
  split at accepted
  · cases accepted
    exact .values (fun _ member => member) rfl
  · cases accepted

theorem rollback_advanced (accepted : rollbackSnapshotCounter v.manifest previous = .ok m) :
    Advanced v {v with manifest := m} := by
  unfold rollbackSnapshotCounter at accepted
  split at accepted
  · split at accepted
    · cases accepted
      exact .values (fun _ member => member) rfl
    · cases accepted
  · cases accepted

theorem conflict_check (env : PushEnv) (v : Vault) : (conflictCheck env v).last = v := by
  unfold conflictCheck
  dsimp only
  split
  · rfl
  · rfl
  · rfl
  · split <;> rfl

theorem conflict_check_ok (passed : conflictCheck env v = .ok w) : w = v := by
  have same := conflict_check env v
  rw [passed] at same
  exact same

theorem upload_blobs (env : PushEnv) (v : Vault) : Advanced v (uploadBlobs env v).last := by
  unfold uploadBlobs
  dsimp only
  split
  · exact .carried interrupt_uploads
  · split
    · exact .refl v
    · have driven := (drive_blob_uploads env.upload env.pick env.limit
        ((listSyncChunks v.manifest).filter fun name => (v.files .pending name).isSome)
        ⟨v.files,v.cloud.objects⟩).1
      split
      · rename_i drive
        rw [drive] at driven
        exact .carried driven
      · rename_i drive
        rw [drive] at driven
        exact .carried driven

theorem upload_blobs_ok (uploaded : uploadBlobs env v = .ok w) : w.manifest = v.manifest ∧
    ∀ name ∈ listAllBlobNames v.manifest, (v.files .pending name).isSome → (w.cloud.objects name).isSome := by
  unfold uploadBlobs at uploaded
  dsimp only at uploaded
  split at uploaded
  · cases uploaded
  · split at uploaded
    · cases uploaded
    · have present := (drive_blob_uploads env.upload env.pick env.limit
        ((listSyncChunks v.manifest).filter fun name => (v.files .pending name).isSome)
        ⟨v.files,v.cloud.objects⟩).2
      split at uploaded
      · cases uploaded
      · rename_i drive
        rw [drive] at present
        cases uploaded
        refine ⟨rfl,fun name listed pending => present _ rfl name ?_⟩
        exact List.mem_filter.mpr ⟨List.mem_dedup.mpr listed,pending⟩

theorem roll_back (env : PushEnv) (before : ManifestMeta) (failure : CloudTransportError) (v : Vault) :
    Advanced v (rollBack env before failure v).last ∧ ∀ w, rollBack env before failure v ≠ .ok w := by
  have repair (w : Vault) : Advanced w
      (storeStep env.restore w (.ok (setLastSyncedAt w.manifest before.lastSyncedAt))).last :=
    store_step fun m same => by cases same; exact set_last_synced_advanced _
  have first : Advanced v
      (storeStep env.rollback v (rollbackSnapshotCounter v.manifest before.snapshotCounter)).last :=
    store_step fun m => rollback_advanced
  unfold rollBack
  dsimp only
  split
  · rename_i ended
    rw [ended] at first
    exact ⟨first,by rintro _ ⟨⟩⟩
  · rename_i w ended
    rw [ended] at first
    have second := repair w
    split <;> rename_i restored <;> rw [restored] at second <;>
      exact ⟨first.trans second,by rintro _ ⟨⟩⟩
  · rename_i w ended
    rw [ended] at first
    have second := repair w
    split <;> rename_i restored <;> rw [restored] at second <;>
      exact ⟨first.trans second,by rintro _ ⟨⟩⟩

theorem upload_manifest_backup (attempt : Attempt) (v : Vault) : Advanced v (uploadManifestBackup attempt v) := by
  unfold uploadManifestBackup
  split
  · exact ⟨⟨_,_,rfl⟩,fun _ member => member,fun _ _ _ => rfl,fun _ _ there => there,fun _ _ => .inl rfl⟩
  · exact .refl v

theorem publish_manifest (env : PushEnv) (v : Vault) : Advanced v (publishManifest env v).last := by
  unfold publishManifest
  refine bind_advanced (store_step fun m => increment_advanced) fun w _ => ?_
  refine bind_advanced (store_step fun m same => by cases same; exact set_last_synced_advanced _) fun x _ => ?_
  dsimp only
  have uploaded := upload_manifest_backup env.manifestUpload x
  split
  · exact uploaded
  · split
    · exact uploaded.trans (roll_back env _ _ _).1
    · exact uploaded

theorem publish_manifest_ok (published : publishManifest env v = .ok w) :
    w.cloud.manifestBackup = some w.manifest := by
  simp only [publishManifest,bind_ok] at published
  obtain ⟨_,_,x,_,rest⟩ := published
  split at rest
  · cases rest
  · split at rest
    · exact absurd rest ((roll_back env _ _ _).2 w)
    · rename_i reported
      cases rest
      simp [uploadManifestBackup,env.manifestUpload.honest reported]

theorem upload_header (env : PushEnv) (v : Vault) : (uploadHeader env v).last = v := by
  unfold uploadHeader
  split
  · rfl
  · split <;> rfl

theorem upload_header_ok (passed : uploadHeader env v = .ok w) : w = v := by
  have same := upload_header env v
  rw [passed] at same
  exact same

theorem mark_advanced (name : BlobName) : Advanced v {v with manifest := markDeletionComplete v.manifest name} :=
  .values (fun _ member => List.mem_of_mem_filter member) rfl

theorem drain_one (fate : BlobName → DeletionFate) (begun : Advanced v w) (queued : ¬ Unqueued v.manifest name) :
    Advanced v (drainOne fate w name).last ∧
      (drainOne fate w name).last.cloud.manifestBackup = w.cloud.manifestBackup := by
  have dropped (objects : Objects) (same : ∀ other, other ≠ name → objects other = w.cloud.objects other) :
      Advanced v {w with cloud := {w.cloud with objects := objects}} := by
    refine ⟨begun.rows,begun.queue,begun.elsewhere,fun other free there => ?_,fun other free => ?_⟩
    · dsimp only
      rw [same other (by rintro rfl; exact queued free)]
      exact begun.kept other free there
    · dsimp only
      rw [same other (by rintro rfl; exact queued free)]
      exact begun.pending other free
  have marked (fate : Fate) (x : Vault) :
      Advanced x (storeStep fate x (.ok (markDeletionComplete x.manifest name))).last ∧
      (storeStep fate x (.ok (markDeletionComplete x.manifest name))).last.cloud = x.cloud := by
    refine ⟨store_step fun m same => by cases same; exact mark_advanced name,?_⟩
    cases fate <;> rfl
  unfold drainOne
  dsimp only
  generalize chosen : (if (fate name).removed = true then
    (fun other => if other = name then none else w.cloud.objects other) else w.cloud.objects) = objects
  have advanced := dropped objects fun other apart => by
    subst chosen
    split
    · exact if_neg apart
    · rfl
  split
  · exact ⟨advanced.trans (marked _ _).1,by rw [(marked _ _).2]⟩
  · exact ⟨advanced.trans (marked _ _).1,by rw [(marked _ _).2]⟩
  · exact ⟨advanced,rfl⟩

theorem drain_batch {names : List BlobName} (fate : BlobName → DeletionFate) (begun : Advanced v w) (queued : ∀ name ∈ names, ¬ Unqueued v.manifest name) :
    Advanced v (Stage.last (names.foldlM (drainOne fate) w)) ∧
      (Stage.last (names.foldlM (drainOne fate) w)).cloud.manifestBackup = w.cloud.manifestBackup := by
  induction names generalizing w with
  | nil => exact ⟨begun,rfl⟩
  | cons name rest ih =>
    obtain ⟨advanced,same⟩ := drain_one fate begun (queued name List.mem_cons_self)
    rw [List.foldlM_cons]
    cases drained : drainOne fate w name with
    | error ended =>
      rw [drained] at advanced same
      exact ⟨advanced,same⟩
    | ok x =>
      rw [drained] at advanced same
      obtain ⟨others,same'⟩ := ih advanced fun name member => queued name (List.mem_cons_of_mem _ member)
      exact ⟨others,same'.trans same⟩

theorem listed_queued (member : name ∈ listPendingDeletions m limit) : ¬ Unqueued m name := by
  obtain ⟨entry,there,rfl⟩ := List.mem_map.mp member
  intro free
  exact free entry ((List.perm_insertionSort _ _).mem_iff.mp (List.mem_of_mem_take there)) rfl

theorem drain_rounds (fate : Nat → BlobName → DeletionFate) (rounds : Nat) (v : Vault) :
    Advanced v (drainRounds fate rounds v).last ∧
      (drainRounds fate rounds v).last.cloud.manifestBackup = v.cloud.manifestBackup := by
  induction rounds generalizing v with
  | zero => exact ⟨.refl v,rfl⟩
  | succ rounds ih =>
    obtain ⟨advanced,same⟩ := drain_batch (fate rounds) (.refl v)
      fun name (member : name ∈ listPendingDeletions v.manifest 128) => listed_queued member
    rw [drainRounds]
    cases drained : (listPendingDeletions v.manifest 128).foldlM (drainOne (fate rounds)) v with
    | error ended =>
      rw [drained] at advanced same
      exact ⟨advanced,same⟩
    | ok after =>
      rw [drained] at advanced same
      simp only [bind,Except.bind]
      split
      · exact ⟨advanced.trans (ih after).1,(ih after).2.trans same⟩
      · exact ⟨advanced,same⟩

theorem push_vault (env : PushEnv) (v : Vault) : Advanced v (pushVault env v).last := by
  unfold pushVault
  refine bind_advanced (by rw [conflict_check]; exact .refl v) fun w _ => ?_
  refine bind_advanced (upload_blobs env w) fun x _ => ?_
  refine bind_advanced (publish_manifest env x) fun y _ => ?_
  refine bind_advanced (by rw [upload_header]; exact .refl y) fun z _ => ?_
  exact (drain_rounds env.deletion _ z).1

-- A push that returns Ok has uploaded every referenced blob it found pending, and
-- the backup it left names the blobs of the manifest it started from.
theorem push_vault_ok (pushed : pushVault env v = .ok w)
    (free : ∀ name ∈ listAllBlobNames v.manifest, Unqueued v.manifest name) :
    ∃ m, w.cloud.manifestBackup = some m ∧ listAllBlobNames m = listAllBlobNames v.manifest ∧
      ∀ name ∈ listAllBlobNames v.manifest, (v.files .pending name).isSome → (w.cloud.objects name).isSome := by
  simp only [pushVault,bind_ok] at pushed
  obtain ⟨v',checked,x,uploaded,y,published,z,headed,drained⟩ := pushed
  cases conflict_check_ok checked
  cases upload_header_ok headed
  obtain ⟨same,present⟩ := upload_blobs_ok uploaded
  have publishing := publish_manifest env x
  rw [published] at publishing
  have backup := publish_manifest_ok published
  have draining := drain_rounds env.deletion y.manifest.pendingDeletions.length y
  rw [← drainPendingDeletions,drained] at draining
  obtain ⟨queue,values,rows⟩ := publishing.rows
  refine ⟨y.manifest,draining.2.trans backup,?_,fun name listed pending => ?_⟩
  · simp only [Stage.last] at rows
    rw [rows,← same]
    rfl
  · have unqueued : Unqueued x.manifest name := same ▸ free name listed
    exact draining.1.kept name (publishing.unqueued unqueued)
      (publishing.kept name unqueued (present name listed pending))

end ArxRuna.Cloud.Push
