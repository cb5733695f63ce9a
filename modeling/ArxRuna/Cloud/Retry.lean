import ArxRuna.Cloud.Closure
namespace ArxRuna.Cloud.Retry
open Library.Aead Library.Fallible Store.Tables Store.Operations Store.Staging Cloud.Transport Cloud.Push

-- What every single upload keeps, a drive of uploads keeps, in whatever order
-- they complete.
theorem settle_keeps {P : Sides → Prop} {fate : BlobName → UploadFate} {d : Drive} {name : BlobName}
    (task : ∀ name s, P s → P (uploadBlobTask (fate name) name s).2) (holds : P d.sides) :
    P (d.settle fate name).sides := by
  have next := task name d.sides holds
  unfold Drive.settle
  cases done : uploadBlobTask (fate name) name d.sides with
  | mk result s =>
    rw [done] at next
    cases result with
    | error failure => exact next
    | ok name =>
      dsimp only
      split
      · exact next
      · exact next

theorem complete_keeps {P : Sides → Prop} {fate : BlobName → UploadFate} {d : Drive} {rounds : Nat}
    (task : ∀ name s, P s → P (uploadBlobTask (fate name) name s).2) (holds : P d.sides) :
    P (d.complete fate pick rounds).sides := by
  induction rounds generalizing d with
  | zero => exact holds
  | succ rounds ih =>
    rw [Drive.complete]
    split
    · exact holds
    · apply ih
      exact settle_keeps task holds

theorem drive_sides (fate : BlobName → UploadFate) (pick : Nat → Nat) (limit : Nat) (names : List BlobName) (s : Sides) :
    (driveBlobUploads fate pick limit names s).2 = (Drive.complete fate pick names.length (.begin limit names s)).sides := by
  unfold driveBlobUploads
  dsimp only
  split
  · rfl
  · rfl

def Delivered (s t : Sides) : Prop :=
  ∀ name bytes, s.files .pending name = some bytes → t.files .pending name = some bytes ∨
    t.files .pending name = none ∧ t.objects name = some bytes

theorem upload_files (s : Sides) (name : BlobName) (attempt : Attempt) : (s.upload name attempt).2.files = s.files := by
  unfold Sides.upload
  split
  · rfl
  · dsimp only
    split
    · rfl
    · rfl

theorem upload_other (s : Sides) (attempt : Attempt) (apart : other ≠ name) :
    (s.upload name attempt).2.objects other = s.objects other := by
  unfold Sides.upload
  split
  · rfl
  · dsimp only
    split
    · simp [apart]
    · rfl

theorem upload_stores {s : Sides} {attempt : Attempt} (reported : (s.upload name attempt).1 = .ok value) :
    ∃ bytes, s.files .pending name = some bytes ∧ (s.upload name attempt).2.objects name = some bytes := by
  unfold Sides.upload at reported ⊢
  split at reported
  · cases reported
  · rename_i bytes there
    exact ⟨bytes,there,by simp [attempt.honest reported]⟩

theorem upload_delivered (delivered : Delivered s t) (name : BlobName) (attempt : Attempt) :
    Delivered s (t.upload name attempt).2 := by
  intro other bytes waiting
  rw [upload_files]
  rcases delivered other bytes waiting with still | ⟨gone,there⟩
  · exact .inl still
  · refine .inr ⟨gone,?_⟩
    by_cases same : other = name
    · subst same
      simpa [Sides.upload,gone] using there
    · rw [upload_other t attempt same]
      exact there

-- The file goes only after a report of success for the very bytes it holds.
theorem remove_delivered (delivered : Delivered s t) (waiting : t.files .pending name = some bytes)
    (stored : t.objects name = some bytes) : Delivered s {t with files := t.files.remove .pending name} := by
  intro other content before
  by_cases same : other = name
  · subst same
    have removed : t.files.remove .pending other .pending other = none := by simp [Files.remove,Files.write]
    rcases delivered other content before with still | ⟨gone,_⟩
    · cases still.symm.trans waiting
      exact .inr ⟨removed,stored⟩
    · cases gone.symm.trans waiting
  · have untouched : t.files.remove .pending name .pending other = t.files .pending other := write_other same
    simpa [untouched] using delivered other content before

theorem task_delivered (fate : UploadFate) (name : BlobName) (delivered : Delivered s t) :
    Delivered s (uploadBlobTask fate name t).2 := by
  unfold uploadBlobTask
  dsimp only
  generalize chosen : (if (t.upload name fate.first).1 = .error .timeout then
    (t.upload name fate.first).2.upload name fate.second else t.upload name fate.first) = last
  obtain ⟨u,attempt,arrived,rfl⟩ : ∃ u attempt, Delivered s u ∧ last = Sides.upload u name attempt := by
    subst chosen
    split
    · exact ⟨_,fate.second,upload_delivered delivered name fate.first,rfl⟩
    · exact ⟨t,fate.first,delivered,rfl⟩
  have uploaded := upload_delivered arrived name attempt
  split
  · exact uploaded
  · rename_i reported
    split
    · obtain ⟨bytes,waiting,stored⟩ := upload_stores reported
      exact remove_delivered uploaded (by rw [upload_files]; exact waiting) stored
    · exact uploaded

theorem drive_delivered (fate : BlobName → UploadFate) (pick : Nat → Nat) (limit : Nat) (names : List BlobName) (s : Sides) :
    Delivered s (driveBlobUploads fate pick limit names s).2 := by
  rw [drive_sides]
  apply complete_keeps
  · intro name t delivered
    exact task_delivered (fate name) name delivered
  · intro name bytes there
    exact .inl there

def Takes (fate : BlobName → UploadFate) : Prop :=
  ∀ name, (fate name).first.report = .ok () ∧ (fate name).removed = true

theorem task_taken {s : Sides} {fate : UploadFate} (taken : fate.first.report = .ok ()) (free : fate.removed = true)
    (waiting : (s.files .pending name).isSome) : ∃ t, uploadBlobTask fate name s = (.ok name,t) ∧
      ∀ other, other ≠ name → t.files .pending other = s.files .pending other := by
  obtain ⟨bytes,there⟩ := Option.isSome_iff_exists.mp waiting
  have reported : (s.upload name fate.first).1 = .ok () := by simp [Sides.upload,there,taken]
  have started : ¬ (Except.ok () : Except CloudTransportError Unit) = .error .timeout := by rintro ⟨⟩
  refine ⟨{(s.upload name fate.first).2 with files := (s.upload name fate.first).2.files.remove .pending name},?_,?_⟩
  · simp only [uploadBlobTask,reported,if_neg started,free,if_true]
  · intro other apart
    dsimp only
    rw [upload_files]
    exact write_other apart

-- What such a drive keeps: no error, every name issued once, every file in place
-- until its own upload.
structure Ready (d : Drive) : Prop where
  clean : d.firstError = none
  apart : (d.inFlight ++ d.pending).Nodup
  there : ∀ name ∈ d.inFlight ++ d.pending, (d.sides.files .pending name).isSome

theorem begin_ready (limit : Nat) {names : List BlobName} {s : Sides} (apart : names.Nodup)
    (there : ∀ name ∈ names, (s.files .pending name).isSome) : Ready (.begin limit names s) := by
  refine ⟨rfl,?_,?_⟩
  · simpa [Drive.begin] using apart
  · simpa [Drive.begin] using there

theorem settle_ready {d : Drive} {fate : BlobName → UploadFate} (takes : Takes fate) (ready : Ready d)
    (flying : name ∈ d.inFlight) : Ready (d.settle fate name) := by
  obtain ⟨taken,free⟩ := takes name
  obtain ⟨t,done,others⟩ := task_taken taken free (ready.there name (List.mem_append_left _ flying))
  have settled : d.settle fate name =
      ⟨d.pending.drop 1,d.inFlight.erase name ++ d.pending.take 1,d.successful ++ [name],none,t⟩ := by
    simp [Drive.settle,done,ready.clean]
  have left : (d.inFlight.erase name ++ d.pending.take 1) ++ d.pending.drop 1 = (d.inFlight ++ d.pending).erase name := by
    rw [List.append_assoc,List.take_append_drop,List.erase_append_left _ flying]
  rw [settled]
  refine ⟨rfl,?_,?_⟩
  · dsimp only
    rw [left]
    exact ready.apart.erase name
  · dsimp only
    rw [left]
    intro other member
    obtain ⟨apart,before⟩ := ready.apart.mem_erase_iff.mp member
    rw [others other apart]
    exact ready.there other before

theorem complete_ready {d : Drive} {fate : BlobName → UploadFate} {rounds : Nat} (takes : Takes fate) (ready : Ready d) :
    Ready (d.complete fate pick rounds) := by
  induction rounds generalizing d with
  | zero => exact ready
  | succ rounds ih =>
    rw [Drive.complete]
    split
    · exact ready
    · rename_i found
      apply ih
      exact settle_ready takes ready (List.mem_of_getElem? found)

theorem drive_taken {fate : BlobName → UploadFate} (pick : Nat → Nat) (limit : Nat) {names : List BlobName} {s : Sides}
    (takes : Takes fate) (apart : names.Nodup) (there : ∀ name ∈ names, (s.files .pending name).isSome) :
    ∃ done t, driveBlobUploads fate pick limit names s = (.ok done,t) := by
  have ready : Ready (Drive.complete fate pick names.length (.begin limit names s)) :=
    complete_ready takes (begin_ready limit apart there)
  unfold driveBlobUploads
  simp only [ready.clean]
  exact ⟨_,_,rfl⟩

-- The database answers and the process is not stopped: whatever fails is the
-- provider's part.
structure LocalWorks (env : PushEnv) : Prop where
  running : env.interrupted = none
  increment : env.increment = .goes
  setLastSynced : env.setLastSynced = .goes
  rollback : env.rollback = .goes
  restore : env.restore = .goes
  published : env.stopsAfterManifest = false
  headed : env.stopsAfterHeader = false
  marked : ∀ rounds name, (env.deletion rounds name).marked = .goes

-- The provider's part of a push that goes through. A deletion that fails there is
-- only left queued.
structure Works (env : PushEnv) : Prop extends LocalWorks env where
  folder : env.folder = .ok ()
  upload : Takes env.upload
  manifestUpload : env.manifestUpload.report = .ok ()
  header : env.header = .ok ()

-- The probe tells whether a backup is there, and whether it opens.
def probeOf (readable : Bool) (cloud : CloudVault) : Except CloudTransportError Bool :=
  if cloud.manifestBackup.isSome then .ok readable else .error .notFound

-- The upload stage fails, or the new backup never gets there.
def FailsBeforeBackup (env : PushEnv) (v : Vault) : Prop :=
  (∃ ended, uploadBlobs env v = .error ended) ∨ env.manifestUpload.stored = false

-- What a push that failed so leaves behind.
structure Undone (v w : Vault) : Prop where
  manifest : w.manifest = v.manifest
  backup : w.cloud.manifestBackup = v.cloud.manifestBackup
  delivered : Delivered ⟨v.files,v.cloud.objects⟩ ⟨w.files,w.cloud.objects⟩

theorem uploads_undone (running : env.interrupted = none) : Undone v (uploadBlobs env v).last ∧
    ∀ ended, uploadBlobs env v = .error ended → ∃ failure, ended.1 = some failure := by
  unfold uploadBlobs
  simp only [running]
  split
  · refine ⟨⟨rfl,rfl,fun name bytes there => .inl there⟩,?_⟩
    intro ended failed
    cases failed
    exact ⟨_,rfl⟩
  · have delivered := drive_delivered env.upload env.pick env.limit
      ((listSyncChunks v.manifest).filter fun name => (v.files .pending name).isSome) ⟨v.files,v.cloud.objects⟩
    split
    · rename_i drive
      rw [drive] at delivered
      refine ⟨⟨rfl,rfl,delivered⟩,?_⟩
      intro ended failed
      cases failed
      exact ⟨_,rfl⟩
    · rename_i drive
      rw [drive] at delivered
      refine ⟨⟨rfl,rfl,delivered⟩,?_⟩
      rintro ended ⟨⟩

def raised (m : Manifest) : Manifest :=
  {m with manifestMeta := {m.manifestMeta with snapshotCounter := m.manifestMeta.snapshotCounter + 1}}

theorem increment_raised (room : m.manifestMeta.snapshotCounter + 1 < 2 ^ 64) :
    incrementSnapshotCounter m = .ok (raised m) := if_pos room

theorem rollback_raised (value : Option Int) (room : m.manifestMeta.snapshotCounter + 1 < 2 ^ 64) :
    rollbackSnapshotCounter (setLastSyncedAt (raised m) value) m.manifestMeta.snapshotCounter =
      .ok (setLastSyncedAt m value) := by
  have counter : (setLastSyncedAt (raised m) value).manifestMeta.snapshotCounter = m.manifestMeta.snapshotCounter + 1 := rfl
  unfold rollbackSnapshotCounter
  rw [if_pos room,if_pos counter]
  rfl

theorem publish_manifest_raised (works : LocalWorks env) (room : v.manifest.manifestMeta.snapshotCounter + 1 < 2 ^ 64) :
    publishManifest env v =
      match env.manifestUpload.report with
      | .error failure => rollBack env v.manifest.manifestMeta failure (uploadManifestBackup env.manifestUpload
          {v with manifest := setLastSyncedAt (raised v.manifest) (some env.now)})
      | .ok _ => .ok (uploadManifestBackup env.manifestUpload
          {v with manifest := setLastSyncedAt (raised v.manifest) (some env.now)}) := by
  unfold publishManifest
  rw [works.increment,works.setLastSynced,works.published,increment_raised room]
  rfl

theorem roll_back_raised (works : LocalWorks env) (failure : CloudTransportError) (room : v.manifest.manifestMeta.snapshotCounter + 1 < 2 ^ 64) :
    rollBack env v.manifest.manifestMeta failure {v with manifest := setLastSyncedAt (raised v.manifest) value} =
      .error (some (.pushManifestBackupFailed failure),v) := by
  unfold rollBack
  dsimp only
  rw [works.rollback,works.restore,rollback_raised value room]
  rfl

theorem publish_full (works : LocalWorks env) (full : ¬ v.manifest.manifestMeta.snapshotCounter + 1 < 2 ^ 64) :
    publishManifest env v = .error (some (.storage (.database "invalid snapshot_counter: overflow")),v) := by
  have refused : incrementSnapshotCounter v.manifest = .error (.database "invalid snapshot_counter: overflow") :=
    if_neg full
  unfold publishManifest
  rw [works.increment,refused]
  rfl

theorem publish_undone (works : LocalWorks env) (unstored : env.manifestUpload.stored = false) :
    ∃ failure, publishManifest env v = .error (some failure,v) := by
  by_cases room : v.manifest.manifestMeta.snapshotCounter + 1 < 2 ^ 64
  · rw [publish_manifest_raised works room]
    cases report : env.manifestUpload.report with
    | ok done =>
      have stored := env.manifestUpload.honest report
      rw [unstored] at stored
      cases stored
    | error failure =>
      refine ⟨.pushManifestBackupFailed failure,?_⟩
      simp only [uploadManifestBackup,unstored]
      exact roll_back_raised works failure room
  · exact ⟨_,publish_full works room⟩

theorem conflict_check_seen (seen : env.probe = probeOf readable v.cloud) : conflictCheck env v = .ok v ↔
    readable = true → ∀ m, v.cloud.manifestBackup = some m →
      m.manifestMeta.snapshotCounter ≤ v.manifest.manifestMeta.snapshotCounter := by
  unfold conflictCheck
  rw [seen]
  cases backup : v.cloud.manifestBackup with
  | none => simp [probeOf,backup,readCloudSnapshotState]
  | some m =>
    cases readable with
    | false => simp [probeOf,backup,readCloudSnapshotState]
    | true =>
      simp only [probeOf,backup,readCloudSnapshotState,Option.isSome_some,if_true]
      split
      · rename_i newer
        simpa using newer
      · rename_i newer
        simpa using newer

theorem drain_goes {fate : BlobName → DeletionFate} (marked : ∀ name, (fate name).marked = .goes)
    (names : List BlobName) (v : Vault) : ∃ w, names.foldlM (drainOne fate) v = .ok w := by
  induction names generalizing v with
  | nil => exact ⟨v,rfl⟩
  | cons name rest ih =>
    obtain ⟨w,drained⟩ : ∃ w, drainOne fate v name = .ok w := by
      unfold drainOne
      dsimp only
      rw [marked name]
      split
      · exact ⟨_,rfl⟩
      · exact ⟨_,rfl⟩
      · exact ⟨_,rfl⟩
    rw [List.foldlM_cons,drained]
    exact ih w

theorem rounds_go {fate : Nat → BlobName → DeletionFate} (marked : ∀ rounds name, (fate rounds name).marked = .goes)
    (rounds : Nat) (v : Vault) : ∃ w, drainRounds fate rounds v = .ok w := by
  induction rounds generalizing v with
  | zero => exact ⟨v,rfl⟩
  | succ rounds ih =>
    obtain ⟨w,drained⟩ := drain_goes (marked rounds) (listPendingDeletions v.manifest 128) v
    rw [drainRounds,drained]
    simp only [bind,Except.bind]
    split
    · exact ih w
    · exact ⟨w,rfl⟩

theorem uploads_taken (works : Works env) (v : Vault) : ∃ w, uploadBlobs env v = .ok w := by
  have apart : ((listSyncChunks v.manifest).filter fun name => (v.files .pending name).isSome).Nodup :=
    (List.nodup_dedup _).filter _
  obtain ⟨done,t,drive⟩ := drive_taken env.pick env.limit works.upload (s := ⟨v.files,v.cloud.objects⟩) apart
    fun name member => (List.mem_filter.mp member).2
  unfold uploadBlobs
  simp only [works.running]
  split
  · rename_i refused
    rw [works.folder] at refused
    cases refused
  · rw [drive]
    exact ⟨_,rfl⟩

theorem push_goes (works : Works env) (passed : conflictCheck env v = .ok v)
    (room : v.manifest.manifestMeta.snapshotCounter + 1 < 2 ^ 64) : ∃ w, pushVault env v = .ok w := by
  obtain ⟨x,uploaded⟩ := uploads_taken works v
  have undone := (uploads_undone (v := v) works.running).1
  rw [uploaded] at undone
  rw [← undone.manifest] at room
  have published := publish_manifest_raised works.toLocalWorks room
  rw [works.manifestUpload] at published
  obtain ⟨w,drained⟩ := rounds_go works.marked _ (uploadManifestBackup env.manifestUpload
    {x with manifest := setLastSyncedAt (raised x.manifest) (some env.now)})
  refine ⟨w,?_⟩
  simp only [pushVault,bind_ok]
  refine ⟨v,passed,x,uploaded,_,published,_,?_,drained⟩
  simp only [uploadHeader,works.headed,works.header]
  rfl

theorem push_full (works : Works env) (full : ¬ v.manifest.manifestMeta.snapshotCounter + 1 < 2 ^ 64) :
    ∀ w, pushVault env v ≠ .ok w := by
  intro w pushed
  simp only [pushVault,bind_ok] at pushed
  obtain ⟨x,passed,y,uploaded,z,published,_⟩ := pushed
  cases conflict_check_ok passed
  have undone := (uploads_undone (v := v) works.running).1
  rw [uploaded] at undone
  have still : ¬ y.manifest.manifestMeta.snapshotCounter + 1 < 2 ^ 64 := by
    rw [← undone.manifest] at full
    exact full
  rw [publish_full works.toLocalWorks still] at published
  cases published

theorem push_undone (works : LocalWorks env) (passed : conflictCheck env v = .ok v) (fails : FailsBeforeBackup env v) :
    ∃ failure w, pushVault env v = .error (some failure,w) ∧ Undone v w := by
  obtain ⟨undone,reported⟩ := uploads_undone (v := v) works.running
  cases uploaded : uploadBlobs env v with
  | error ended =>
    obtain ⟨failure,same⟩ := reported ended uploaded
    rw [uploaded] at undone
    refine ⟨failure,ended.2,?_,undone⟩
    simp only [pushVault,passed,uploaded,bind,Except.bind,← same]
  | ok x =>
    rw [uploaded] at undone
    have unstored : env.manifestUpload.stored = false := by
      rcases fails with ⟨ended,failed⟩ | unstored
      · cases uploaded.symm.trans failed
      · exact unstored
    obtain ⟨failure,published⟩ := publish_undone (v := x) works unstored
    refine ⟨failure,x,?_,undone⟩
    simp only [pushVault,passed,uploaded,published,bind,Except.bind]

-- A push that fails before its backup is in place leaves the manifest and the old
-- backup as they were and every pending file, or its bytes in the cloud. The next
-- push with a working provider goes through, unless the counter has reached its
-- last value.
theorem failed_push_undone (works : LocalWorks env) (seen : env.probe = probeOf readable v.cloud)
    (passed : conflictCheck env v = .ok v) (fails : FailsBeforeBackup env v) :
    ∃ failure w, pushVault env v = .error (some failure,w) ∧ w.manifest = v.manifest ∧
      w.cloud.manifestBackup = v.cloud.manifestBackup ∧
      (∀ name bytes, v.files .pending name = some bytes → w.files .pending name = some bytes ∨
        w.files .pending name = none ∧ w.cloud.objects name = some bytes) ∧
      ∀ again, Works again → again.probe = probeOf readable w.cloud →
        ((∃ x, pushVault again w = .ok x) ↔ v.manifest.manifestMeta.snapshotCounter + 1 < 2 ^ 64) := by
  obtain ⟨failure,w,pushed,undone⟩ := push_undone works passed fails
  refine ⟨failure,w,pushed,undone.manifest,undone.backup,undone.delivered,fun again goes seenAgain => ?_⟩
  have passedAgain : conflictCheck again w = .ok w := by
    rw [conflict_check_seen seenAgain,undone.backup,undone.manifest]
    exact (conflict_check_seen seen).mp passed
  rw [← undone.manifest]
  constructor
  · rintro ⟨x,arrived⟩
    by_contra full
    exact push_full goes full x arrived
  · exact push_goes goes passedAgain

-- A vault that was never pushed, with one sealed blob still in pending.
def waitingVault (counter : Nat) : Vault :=
  ⟨⟨[],[],[⟨30,30,[],131112,[]⟩],[],[],⟨9,counter,none,131072,true,some 1⟩⟩,
    noFiles.write .pending 30 (some [7]),⟨fun _ => none,none⟩⟩

def onlinePush : PushEnv := {Cloud.Closure.smoothPush with probe := .error .notFound}

-- The provider stores what it is sent, then refuses the backup.
def refusedPush : PushEnv := {onlinePush with manifestUpload := .timesOut}

theorem online_works : Works onlinePush :=
  ⟨⟨rfl,rfl,rfl,rfl,rfl,rfl,rfl,fun _ _ => rfl⟩,rfl,fun _ => ⟨rfl,rfl⟩,rfl,rfl⟩

theorem refused_local : LocalWorks refusedPush := ⟨rfl,rfl,rfl,rfl,rfl,rfl,rfl,fun _ _ => rfl⟩

theorem refused_push_undone : ∃ failure w, pushVault refusedPush (waitingVault 4) = .error (some failure,w) ∧
    w.manifest = (waitingVault 4).manifest ∧ ∃ x, pushVault onlinePush w = .ok x := by
  have seen : refusedPush.probe = probeOf true (waitingVault 4).cloud := rfl
  obtain ⟨failure,w,pushed,manifest,backup,_,retried⟩ := failed_push_undone refused_local seen rfl (.inr rfl)
  refine ⟨failure,w,pushed,manifest,(retried onlinePush online_works ?_).mpr (by decide)⟩
  rw [probeOf,backup]
  rfl

def fullVault : Vault := waitingVault 18446744073709551615

def offlinePush : PushEnv := {onlinePush with folder := .error .timeout}

-- At the last value of the counter no later push goes through.
theorem last_counter_not_retried : LocalWorks offlinePush ∧ offlinePush.probe = probeOf true fullVault.cloud ∧
    conflictCheck offlinePush fullVault = .ok fullVault ∧ FailsBeforeBackup offlinePush fullVault ∧
    pushVault offlinePush fullVault = .error (some (.transport .timeout),fullVault) ∧
    Works onlinePush ∧ onlinePush.probe = probeOf true fullVault.cloud ∧ ∀ x, pushVault onlinePush fullVault ≠ .ok x :=
  ⟨⟨rfl,rfl,rfl,rfl,rfl,rfl,rfl,fun _ _ => rfl⟩,rfl,rfl,.inl ⟨_,rfl⟩,rfl,online_works,rfl,
    push_full online_works (by decide)⟩

end ArxRuna.Cloud.Retry
