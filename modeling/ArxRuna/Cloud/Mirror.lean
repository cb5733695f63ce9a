import ArxRuna.Cloud.Drain
namespace ArxRuna.Cloud.Mirror
open Crypto Store.Tables Cloud.Transport Cloud.Push
open Cloud.Drain (vaultPrefix blobSuffix)
open Sharing.RemotePath (Text hyphenated hyphenated_filled)
open Sharing.Endpoint (versionNumber)

-- A destination by the paths of its objects. What the objects hold is not looked at.
structure Destination where
  stored : Text → Bool
  manifestBackup : Option Manifest
  vaultHeader : Bool

structure DestSyncCounts where
  uploaded : Nat
  failed : Nat
  deleted : Nat
  deriving DecidableEq

-- The destination with its rows of `pending_backup` and `backup_upload_failures`.
structure Run where
  dest : Destination
  backlog : List Text
  failures : List Text
  counts : DestSyncCounts

-- What one blob of the backlog meets. The two tables are written best effort.
structure BlobFate where
  staged : Bool
  mirrored : Bool
  tempDir : Bool
  download : Except CloudTransportError Unit
  upload : Attempt
  cleared : Bool
  failureCleared : Bool
  failureRecorded : Bool

-- A provider may delete an object and report a failure, or the other way round.
structure DeleteAttempt where
  removed : Bool
  report : Except CloudTransportError Unit

structure OrphanFate where
  first : DeleteAttempt
  second : DeleteAttempt

structure MirrorEnv where
  parseStr : Text → Option Uuid
  blob : Nat → Text → BlobFate
  manifestUpload : Attempt
  headerUpload : Attempt
  listing : Nat → Except CloudTransportError (List Text)
  orphan : Nat → Text → OrphanFate

def blobRemotePath (blobName : Text) : Text := vaultPrefix ++ blobName ++ blobSuffix

inductive Source where
  | here
  | absent
  | unreachable
  deriving DecidableEq

-- Staging first, then what an earlier destination has pulled, then the primary.
def BlobFate.source (fate : BlobFate) : Source :=
  if fate.staged || fate.mirrored then .here
  else if fate.tempDir = false then .unreachable
  else match fate.download with
    | .ok _ => .here
    | .error .notFound => .absent
    | .error _ => .unreachable

def Run.clear (run : Run) (fate : BlobFate) (blobName : Text) : Run :=
  {run with
    backlog := if fate.cleared then run.backlog.filter (· ≠ blobName) else run.backlog
    failures := if fate.failureCleared then run.failures.filter (· ≠ blobName) else run.failures}

def Run.upload (run : Run) (fate : BlobFate) (blobName : Text) : Run :=
  let dest := if fate.upload.stored then
    {run.dest with stored := fun path => if path = blobRemotePath blobName then true else run.dest.stored path}
    else run.dest
  match fate.upload.report with
  | .error _ => {run with
      dest := dest
      failures := if fate.failureRecorded then run.failures.insert blobName else run.failures
      counts := {run.counts with failed := run.counts.failed + 1}}
  | .ok _ => Run.clear {run with
      dest := dest
      counts := {run.counts with uploaded := run.counts.uploaded + 1}} fate blobName

def syncBlob (allBlobNames : List Text) (run : Run) (fate : BlobFate) (blobName : Text) : Run :=
  if allBlobNames.all (· ≠ blobName) then run.clear fate blobName
  else match fate.source with
    | .here => run.upload fate blobName
    | .absent => run.clear fate blobName
    | .unreachable => run

def syncBlobs (blob : Nat → Text → BlobFate) (allBlobNames : List Text) : Nat → List Text → Run → Run
  | _,[],run => run
  | i,blobName :: rest,run =>
    syncBlobs blob allBlobNames (i + 1) rest (syncBlob allBlobNames run (blob i blobName) blobName)

def listBlobsMaxAttempts : Nat := 3

-- The listing is asked for again after any failure but `NotFound`.
def listBlobs (listing : Nat → Except CloudTransportError (List Text)) : Nat → Except CloudTransportError (List Text)
  | 0 => .error (.other "not started")
  | attempts + 1 =>
    match listing attempts with
    | .ok paths => .ok paths
    | .error .notFound => .error .notFound
    | .error failure => if attempts = 0 then .error failure else listBlobs listing attempts

def blobNameOf (path : Text) : Text :=
  let rest := path.drop vaultPrefix.length
  if vaultPrefix.isPrefixOf path && blobSuffix.isSuffixOf rest then rest.take (rest.length - blobSuffix.length) else []

def isBlobNameUuidV4 (parseStr : Text → Option Uuid) (blobName : Text) : Bool :=
  match parseStr blobName with
  | none => false
  | some parsed => versionNumber parsed = 4 ∧ hyphenated parsed = blobName

def isOrphan (parseStr : Text → Option Uuid) (allBlobNames : List Text) (path : Text) : Bool :=
  blobNameOf path ≠ [] ∧ allBlobNames.all (· ≠ blobNameOf path) = true ∧ isBlobNameUuidV4 parseStr (blobNameOf path) = true

def failed (report : Except CloudTransportError Unit) : Bool :=
  match report with
  | .ok _ => false
  | .error _ => true

-- A failed deletion is tried once more.
def OrphanFate.removes (fate : OrphanFate) : Bool :=
  fate.first.removed || failed fate.first.report && fate.second.removed

def OrphanFate.reported (fate : OrphanFate) : Bool :=
  !failed fate.first.report || !failed fate.second.report

def deleteOrphan (run : Run) (fate : OrphanFate) (path : Text) : Run :=
  {run with
    dest := if fate.removes then
      {run.dest with stored := fun other => if other = path then false else run.dest.stored other} else run.dest
    counts := if fate.reported then {run.counts with deleted := run.counts.deleted + 1} else run.counts}

def deleteOrphans (parseStr : Text → Option Uuid) (orphan : Nat → Text → OrphanFate) (allBlobNames : List Text) :
    Nat → List Text → Run → Run
  | _,[],run => run
  | i,path :: rest,run => deleteOrphans parseStr orphan allBlobNames (i + 1) rest
      (if isOrphan parseStr allBlobNames path then deleteOrphan run (orphan i path) path else run)

def mirrorDeletions (env : MirrorEnv) (allBlobNames : List Text) (mirrorMode : Bool) (run : Run) : Run :=
  if mirrorMode then
    match listBlobs env.listing listBlobsMaxAttempts with
    | .ok paths => deleteOrphans env.parseStr env.orphan allBlobNames 0 paths run
    | .error _ => run
  else run

def uploadManifestBackup (attempt : Attempt) (m : Manifest) (run : Run) : Run :=
  if attempt.stored then {run with dest := {run.dest with manifestBackup := some m}} else run

def uploadVaultHeader (attempt : Attempt) (run : Run) : Run :=
  if attempt.stored then {run with dest := {run.dest with vaultHeader := true}} else run

def blobNames (m : Manifest) : List Text := (listSyncChunks m).map hyphenated

-- Every failure on the way is logged, and the next step is taken.
def syncToDestination (env : MirrorEnv) (m : Manifest) (pendingBlobs : List Text) (mirrorMode : Bool)
    (dest : Destination) (failures : List Text) : Run :=
  let start : Run := ⟨dest,pendingBlobs,failures,⟨0,0,0⟩⟩
  let sent := syncBlobs env.blob (blobNames m) 0 pendingBlobs start
  mirrorDeletions env (blobNames m) mirrorMode
    (uploadVaultHeader env.headerUpload (uploadManifestBackup env.manifestUpload m sent))

def Closed (dest : Destination) : Prop :=
  ∀ m, dest.manifestBackup = some m → ∀ name ∈ blobNames m, dest.stored (blobRemotePath name) = true

-- What a run may not touch is there before it or not at all.
structure Restorable (m : Manifest) (dest after : Destination) : Prop where
  closed : Closed after
  kept : ∀ name ∈ blobNames m, dest.stored (blobRemotePath name) = true → after.stored (blobRemotePath name) = true

def BlobFate.sends (fate : BlobFate) : Bool := fate.source = .here ∧ fate.upload.stored = true

def Sent (env : MirrorEnv) (pendingBlobs : List Text) (blobName : Text) : Prop :=
  ∃ i, pendingBlobs[i]? = some blobName ∧ (env.blob i blobName).sends = true

def Swept (env : MirrorEnv) (m : Manifest) (mirrorMode : Bool) (path : Text) : Prop :=
  mirrorMode = true ∧ ∃ paths, listBlobs env.listing listBlobsMaxAttempts = .ok paths ∧
    isOrphan env.parseStr (blobNames m) path = true ∧ ∃ i, paths[i]? = some path ∧ (env.orphan i path).removes = true

theorem remote_path_inj (same : blobRemotePath a = blobRemotePath b) : a = b := by
  unfold blobRemotePath at same
  exact List.append_cancel_left (List.append_cancel_right same)

theorem blob_name_of (blobName : Text) : blobNameOf (blobRemotePath blobName) = blobName := by
  have rest : (blobRemotePath blobName).drop vaultPrefix.length = blobName ++ blobSuffix := by
    simp [blobRemotePath]
  have ends : blobSuffix.isSuffixOf (blobName ++ blobSuffix) = true := by
    rw [List.isSuffixOf_iff_suffix]
    exact List.suffix_append _ _
  have begins : vaultPrefix.isPrefixOf (blobRemotePath blobName) = true := by
    rw [List.isPrefixOf_iff_prefix,blobRemotePath,List.append_assoc]
    exact List.prefix_append _ _
  unfold blobNameOf
  dsimp only
  rw [rest,begins,ends]
  simp

theorem clear_dest (run : Run) (fate : BlobFate) (blobName : Text) : (run.clear fate blobName).dest = run.dest := rfl

theorem upload_stored (run : Run) (fate : BlobFate) (blobName path : Text) :
    (run.upload fate blobName).dest.stored path = true ↔
      run.dest.stored path = true ∨ fate.upload.stored = true ∧ path = blobRemotePath blobName := by
  have dest : (run.upload fate blobName).dest = if fate.upload.stored then
      {run.dest with stored := fun path => if path = blobRemotePath blobName then true else run.dest.stored path}
      else run.dest := by
    unfold Run.upload
    dsimp only
    split
    · rfl
    · rfl
  rw [dest]
  split
  · rename_i stored
    by_cases same : path = blobRemotePath blobName
    · simp [same,stored]
    · simp [same]
  · rename_i lost
    simp [lost]

theorem upload_backup (run : Run) (fate : BlobFate) (blobName : Text) :
    (run.upload fate blobName).dest.manifestBackup = run.dest.manifestBackup := by
  unfold Run.upload
  dsimp only
  split
  · split
    · rfl
    · rfl
  · rw [clear_dest]
    split
    · rfl
    · rfl

theorem all_other {allBlobNames : List Text} {blobName : Text} :
    allBlobNames.all (· ≠ blobName) = true ↔ blobName ∉ allBlobNames := by
  rw [List.all_eq_true]
  constructor
  · intro other member
    exact of_decide_eq_true (other blobName member) rfl
  · intro apart name member
    apply decide_eq_true
    rintro rfl
    exact apart member

theorem sync_blob_stored (allBlobNames : List Text) (run : Run) (fate : BlobFate) (blobName path : Text) :
    (syncBlob allBlobNames run fate blobName).dest.stored path = true ↔ run.dest.stored path = true ∨
      blobName ∈ allBlobNames ∧ fate.sends = true ∧ path = blobRemotePath blobName := by
  unfold syncBlob BlobFate.sends
  by_cases listed : blobName ∈ allBlobNames
  · rw [if_neg (mt all_other.mp (not_not_intro listed))]
    cases source : fate.source with
    | here => simp [upload_stored,listed]
    | absent => simp [clear_dest]
    | unreachable => simp
  · rw [if_pos (all_other.mpr listed),clear_dest]
    simp [listed]

theorem sync_blob_backup (allBlobNames : List Text) (run : Run) (fate : BlobFate) (blobName : Text) :
    (syncBlob allBlobNames run fate blobName).dest.manifestBackup = run.dest.manifestBackup := by
  unfold syncBlob
  split
  · rfl
  · split
    · exact upload_backup run fate blobName
    · rfl
    · rfl

-- By induction on the backlog: an object is there afterwards if it was before or a
-- blob of the backlog has put it there.
theorem sync_blobs_stored (blob : Nat → Text → BlobFate) (allBlobNames : List Text) (start : Nat) (pending : List Text)
    (run : Run) (path : Text) : (syncBlobs blob allBlobNames start pending run).dest.stored path = true ↔
      run.dest.stored path = true ∨ ∃ i blobName, pending[i]? = some blobName ∧ blobName ∈ allBlobNames ∧
        (blob (start + i) blobName).sends = true ∧ path = blobRemotePath blobName := by
  induction pending generalizing start run with
  | nil => simp [syncBlobs]
  | cons first rest ih =>
    rw [syncBlobs,ih,sync_blob_stored]
    constructor
    · rintro ((before | ⟨listed,sends,same⟩) | ⟨i,blobName,found,later⟩)
      · exact .inl before
      · exact .inr ⟨0,first,rfl,listed,sends,same⟩
      · refine .inr ⟨i + 1,blobName,found,?_⟩
        rwa [Nat.add_assoc,Nat.add_comm 1 i] at later
    · rintro (before | ⟨i,blobName,found,later⟩)
      · exact .inl (.inl before)
      · cases i with
        | zero =>
          cases found
          exact .inl (.inr later)
        | succ i =>
          refine .inr ⟨i,blobName,found,?_⟩
          rwa [Nat.add_assoc,Nat.add_comm 1 i]

theorem sync_blobs_backup (blob : Nat → Text → BlobFate) (allBlobNames : List Text) (start : Nat) (pending : List Text)
    (run : Run) : (syncBlobs blob allBlobNames start pending run).dest.manifestBackup = run.dest.manifestBackup := by
  induction pending generalizing start run with
  | nil => rfl
  | cons first rest ih =>
    rw [syncBlobs,ih]
    exact sync_blob_backup allBlobNames run _ first

theorem delete_orphan_stored (run : Run) (fate : OrphanFate) (path other : Text) :
    (deleteOrphan run fate path).dest.stored other = true ↔
      run.dest.stored other = true ∧ ¬ (fate.removes = true ∧ other = path) := by
  unfold deleteOrphan
  dsimp only
  split
  · rename_i removes
    by_cases same : other = path
    · simp [same,removes]
    · simp [same]
  · rename_i kept
    simp [kept]

theorem delete_orphan_backup (run : Run) (fate : OrphanFate) (path : Text) :
    (deleteOrphan run fate path).dest.manifestBackup = run.dest.manifestBackup := by
  unfold deleteOrphan
  dsimp only
  split
  · rfl
  · rfl

theorem delete_orphans_stored (parseStr : Text → Option Uuid) (orphan : Nat → Text → OrphanFate)
    (allBlobNames : List Text) (start : Nat) (paths : List Text) (run : Run) (other : Text) :
    (deleteOrphans parseStr orphan allBlobNames start paths run).dest.stored other = true ↔
      run.dest.stored other = true ∧ ¬ (isOrphan parseStr allBlobNames other = true ∧
        ∃ i, paths[i]? = some other ∧ (orphan (start + i) other).removes = true) := by
  induction paths generalizing start run with
  | nil => simp [deleteOrphans]
  | cons path rest ih =>
    have here : (if isOrphan parseStr allBlobNames path then deleteOrphan run (orphan start path) path else run).dest.stored
        other = true ↔ run.dest.stored other = true ∧ ¬ (isOrphan parseStr allBlobNames other = true ∧
          path = other ∧ (orphan start other).removes = true) := by
      split
      · rename_i isOrphan
        rw [delete_orphan_stored]
        refine and_congr_right fun _ => not_congr ⟨?_,?_⟩
        · rintro ⟨removes,rfl⟩
          exact ⟨isOrphan,rfl,removes⟩
        · rintro ⟨_,rfl,removes⟩
          exact ⟨removes,rfl⟩
      · rename_i referenced
        refine (and_iff_left ?_).symm
        rintro ⟨isOrphan,rfl,_⟩
        exact referenced isOrphan
    rw [deleteOrphans,ih,here,and_assoc]
    refine and_congr_right fun _ => ?_
    rw [← not_or]
    refine not_congr ⟨?_,?_⟩
    · rintro (⟨isOrphan,rfl,removes⟩ | ⟨isOrphan,i,found,removes⟩)
      · exact ⟨isOrphan,0,rfl,removes⟩
      · refine ⟨isOrphan,i + 1,found,?_⟩
        rwa [Nat.add_assoc,Nat.add_comm 1 i] at removes
    · rintro ⟨isOrphan,i,found,removes⟩
      cases i with
      | zero =>
        cases found
        exact .inl ⟨isOrphan,rfl,removes⟩
      | succ i =>
        refine .inr ⟨isOrphan,i,found,?_⟩
        rwa [Nat.add_assoc,Nat.add_comm 1 i]

theorem delete_orphans_backup (parseStr : Text → Option Uuid) (orphan : Nat → Text → OrphanFate)
    (allBlobNames : List Text) (start : Nat) (paths : List Text) (run : Run) :
    (deleteOrphans parseStr orphan allBlobNames start paths run).dest.manifestBackup = run.dest.manifestBackup := by
  induction paths generalizing start run with
  | nil => rfl
  | cons path rest ih =>
    rw [deleteOrphans,ih]
    split
    · exact delete_orphan_backup run _ path
    · rfl

theorem mirror_deletions_stored (env : MirrorEnv) (m : Manifest) (mirrorMode : Bool) (run : Run) (path : Text) :
    (mirrorDeletions env (blobNames m) mirrorMode run).dest.stored path = true ↔
      run.dest.stored path = true ∧ ¬ Swept env m mirrorMode path := by
  unfold mirrorDeletions Swept
  split
  · rename_i mirror
    split
    · rename_i paths listed
      rw [delete_orphans_stored]
      refine and_congr_right fun _ => not_congr ⟨?_,?_⟩
      · rintro ⟨isOrphan,i,found,removes⟩
        rw [Nat.zero_add] at removes
        exact ⟨mirror,paths,listed,isOrphan,i,found,removes⟩
      · rintro ⟨_,other,same,isOrphan,i,found,removes⟩
        cases Except.ok.inj (listed.symm.trans same)
        rw [← Nat.zero_add i] at removes
        exact ⟨isOrphan,i,found,removes⟩
    · rename_i refused
      refine (and_iff_left ?_).symm
      rintro ⟨_,paths,listed,_⟩
      cases refused.symm.trans listed
  · rename_i additive
    simp [additive]

theorem mirror_deletions_backup (env : MirrorEnv) (m : Manifest) (mirrorMode : Bool) (run : Run) :
    (mirrorDeletions env (blobNames m) mirrorMode run).dest.manifestBackup = run.dest.manifestBackup := by
  unfold mirrorDeletions
  split
  · split
    · exact delete_orphans_backup _ _ _ _ _ _
    · rfl
  · rfl

theorem referenced_not_swept (env : MirrorEnv) (mirrorMode : Bool) (member : name ∈ blobNames m) :
    ¬ Swept env m mirrorMode (blobRemotePath name) := by
  rintro ⟨_,_,_,isOrphan,_⟩
  unfold Mirror.isOrphan at isOrphan
  rw [blob_name_of,decide_eq_true_iff] at isOrphan
  exact all_other.mp isOrphan.2.1 member

theorem published_stored (env : MirrorEnv) (m : Manifest) (run : Run) :
    (uploadVaultHeader env.headerUpload (uploadManifestBackup env.manifestUpload m run)).dest.stored =
      run.dest.stored := by
  unfold uploadVaultHeader uploadManifestBackup
  split
  · split
    · rfl
    · rfl
  · split
    · rfl
    · rfl

theorem published_backup (env : MirrorEnv) (m : Manifest) (run : Run) :
    (uploadVaultHeader env.headerUpload (uploadManifestBackup env.manifestUpload m run)).dest.manifestBackup =
      if env.manifestUpload.stored then some m else run.dest.manifestBackup := by
  unfold uploadVaultHeader uploadManifestBackup
  split
  · split
    · rfl
    · rfl
  · split
    · rfl
    · rfl

section Law
variable (env : MirrorEnv) (m : Manifest) (pendingBlobs : List Text) (mirrorMode : Bool) (dest : Destination)
  (failures : List Text)

theorem sync_backup : (syncToDestination env m pendingBlobs mirrorMode dest failures).dest.manifestBackup =
    if env.manifestUpload.stored then some m else dest.manifestBackup := by
  unfold syncToDestination
  dsimp only
  rw [mirror_deletions_backup,published_backup,sync_blobs_backup]

theorem sync_stored (path : Text) : (syncToDestination env m pendingBlobs mirrorMode dest failures).dest.stored path = true ↔
    (dest.stored path = true ∨ ∃ name, name ∈ blobNames m ∧ Sent env pendingBlobs name ∧ path = blobRemotePath name) ∧
      ¬ Swept env m mirrorMode path := by
  unfold syncToDestination
  dsimp only
  rw [mirror_deletions_stored,published_stored,sync_blobs_stored]
  refine and_congr_left fun _ => or_congr_right ⟨?_,?_⟩
  · rintro ⟨i,name,found,listed,sends,same⟩
    rw [Nat.zero_add] at sends
    exact ⟨name,listed,⟨i,found,sends⟩,same⟩
  · rintro ⟨name,listed,⟨i,found,sends⟩,same⟩
    rw [← Nat.zero_add i] at sends
    exact ⟨i,name,found,listed,sends,same⟩

theorem referenced_stored (member : name ∈ blobNames m) :
    (syncToDestination env m pendingBlobs mirrorMode dest failures).dest.stored (blobRemotePath name) = true ↔
      dest.stored (blobRemotePath name) = true ∨ Sent env pendingBlobs name := by
  rw [sync_stored,and_iff_left (referenced_not_swept env mirrorMode member)]
  refine or_congr_right ⟨?_,?_⟩
  · rintro ⟨other,_,sent,same⟩
    rw [remote_path_inj same]
    exact sent
  · intro sent
    exact ⟨name,member,sent,rfl⟩

-- The mirror stays restorable exactly if a new backup finds its blobs there or is
-- sent them, and an old one that stays loses none to the mirror's deletions.
theorem mirror_restorable_iff (closed : Closed dest) :
    Restorable m dest (syncToDestination env m pendingBlobs mirrorMode dest failures).dest ↔
      (env.manifestUpload.stored = true → ∀ name ∈ blobNames m,
        dest.stored (blobRemotePath name) = true ∨ Sent env pendingBlobs name) ∧
      (env.manifestUpload.stored = false → ∀ k, dest.manifestBackup = some k → ∀ name ∈ blobNames k,
        ¬ Swept env m mirrorMode (blobRemotePath name)) := by
  have kept : ∀ name ∈ blobNames m, dest.stored (blobRemotePath name) = true →
      (syncToDestination env m pendingBlobs mirrorMode dest failures).dest.stored (blobRemotePath name) = true :=
    fun name member before => (referenced_stored env m pendingBlobs mirrorMode dest failures member).mpr (.inl before)
  cases stored : env.manifestUpload.stored with
  | true =>
    constructor
    · intro restorable
      refine ⟨fun _ name member => ?_,by rintro ⟨⟩⟩
      apply (referenced_stored env m pendingBlobs mirrorMode dest failures member).mp
      apply restorable.closed m
      · rw [sync_backup,stored]
        rfl
      · exact member
    · rintro ⟨arrives,_⟩
      refine ⟨fun k backup name member => ?_,kept⟩
      rw [sync_backup,stored] at backup
      cases backup
      exact (referenced_stored env m pendingBlobs mirrorMode dest failures member).mpr (arrives rfl name member)
  | false =>
    constructor
    · intro restorable
      refine ⟨by rintro ⟨⟩,fun _ k backup name member => ?_⟩
      have there := restorable.closed k (by rw [sync_backup,stored]; exact backup) name member
      exact ((sync_stored env m pendingBlobs mirrorMode dest failures _).mp there).2
    · rintro ⟨_,spared⟩
      refine ⟨fun k backup name member => ?_,kept⟩
      rw [sync_backup,stored] at backup
      apply (sync_stored env m pendingBlobs mirrorMode dest failures _).mpr
      exact ⟨.inl (closed k backup name member),spared rfl k backup name member⟩

end Law

def vaultOf (names : List BlobName) : Manifest :=
  ⟨[],[],names.map fun name => ⟨name,name,[],131112,[]⟩,[],[],⟨9,1,none,131072,true,none⟩⟩

def reachedFate : BlobFate := ⟨true,false,true,.ok (),.succeeds,true,true,true⟩

def refusedFate : BlobFate := {reachedFate with upload := .timesOut}

def smoothMirror : MirrorEnv where
  parseStr := fun _ => none
  blob := fun _ _ => reachedFate
  manifestUpload := .succeeds
  headerUpload := .succeeds
  listing := fun _ => .ok []
  orphan := fun _ _ => ⟨⟨true,.ok ()⟩,⟨true,.ok ()⟩⟩

def olderDestination : Destination := ⟨fun path => path = blobRemotePath (hyphenated 20),some (vaultOf [20]),true⟩

theorem second_sync_restorable : Restorable (vaultOf [20,30]) olderDestination
    (syncToDestination smoothMirror (vaultOf [20,30]) [hyphenated 30] true olderDestination []).dest := by
  apply (mirror_restorable_iff smoothMirror (vaultOf [20,30]) [hyphenated 30] true olderDestination [] ?_).mpr
  · refine ⟨fun _ name member => ?_,by rintro ⟨⟩⟩
    rcases List.mem_pair.mp (show name ∈ [hyphenated 20,hyphenated 30] from member) with rfl | rfl
    · exact .inl (decide_eq_true rfl)
    · exact .inr ⟨0,rfl,rfl⟩
  · rintro m ⟨⟩ name member
    cases List.mem_singleton.mp member
    exact decide_eq_true rfl

def emptyDestination : Destination := ⟨fun _ => false,none,false⟩

-- The blob does not arrive and the backup does.
def refusedMirror : MirrorEnv := {smoothMirror with blob := fun _ _ => refusedFate}

def leftBlob : Uuid := 0x11111111111141118111111111111111

-- The backup does not arrive and the blob only the old one refers to is deleted.
def staleMirror : MirrorEnv :=
  {smoothMirror with
    parseStr := fun _ => some leftBlob
    manifestUpload := .timesOut
    listing := fun _ => .ok [blobRemotePath (hyphenated leftBlob)]}

def staleDestination : Destination :=
  ⟨fun path => path = blobRemotePath (hyphenated leftBlob),some (vaultOf [leftBlob]),true⟩

theorem mirror_left_unrestorable :
    ¬ Restorable (vaultOf [30]) emptyDestination
      (syncToDestination refusedMirror (vaultOf [30]) [hyphenated 30] true emptyDestination []).dest ∧
    Closed staleDestination ∧ ¬ Restorable (vaultOf []) staleDestination
      (syncToDestination staleMirror (vaultOf []) [] true staleDestination []).dest := by
  refine ⟨fun restorable => ?_,?_,fun restorable => ?_⟩
  · have there := restorable.closed (vaultOf [30]) rfl (hyphenated 30) (List.mem_singleton_self _)
    rcases (referenced_stored refusedMirror (vaultOf [30]) [hyphenated 30] true emptyDestination []
      (List.mem_singleton_self _)).mp there with before | ⟨_,_,sends⟩
    · cases before
    · cases sends
  · rintro m ⟨⟩ name member
    cases List.mem_singleton.mp member
    exact decide_eq_true rfl
  · have backup : (syncToDestination staleMirror (vaultOf []) [] true staleDestination []).dest.manifestBackup =
        some (vaultOf [leftBlob]) := sync_backup staleMirror (vaultOf []) [] true staleDestination []
    have there := restorable.closed (vaultOf [leftBlob]) backup (hyphenated leftBlob) (List.mem_singleton_self _)
    apply ((sync_stored staleMirror (vaultOf []) [] true staleDestination [] _).mp there).2
    refine ⟨rfl,_,rfl,?_,0,rfl,rfl⟩
    unfold isOrphan
    rw [blob_name_of,decide_eq_true_iff]
    refine ⟨?_,rfl,?_⟩
    · exact hyphenated_filled leftBlob
    · have version : versionNumber leftBlob = 4 := by decide
      simp [isBlobNameUuidV4,staleMirror,version]

end ArxRuna.Cloud.Mirror
