import ArxRuna.Cloud.Drain
import ArxRuna.Library.Faults
import ArxRuna.Library.Windowing
namespace ArxRuna.Cloud.Drivers
open Library.Aead Library.Faults Library.Run Library.Windowing Crypto Store.Tables Cloud.Transport Cloud.Push Cloud.Drain
open Sharing.RemotePath (Text)

def storageText : StorageError → String
  | .database text => "database operation failed: " ++ text
  | .notFound => "record not found"
  | .checksumMismatch => "blob checksum mismatch"
  | .decryptionFailed => "vault data could not be decrypted"
  | .io text => "I/O operation failed: " ++ text
  | .constraintViolation text => "constraint violation: " ++ text

def transportText : CloudTransportError → String
  | .notFound => "blob not found at remote path"
  | .bucketNameTaken => "bucket name is already taken by another account"
  | .authenticationFailed => "cloud transport authentication failed"
  | .timeout => "cloud transport operation timed out"
  | .ioError _ => "cloud transport local I/O error"
  | .rcloneProcessFailed exitCode _ => "rclone process failed with exit code " ++ toString exitCode
  | .other text => "cloud transport error: " ++ text

-- Only the last two arise where a remote path is built.
def syncText : SyncError → String
  | .conflict _ _ => "snapshot_counter conflict with cloud"
  | .cloudManifestUnreadable => "cloud manifest backup could not be decrypted or verified"
  | .pushUploadFailed failure _ => "push failed during blob upload: " ++ transportText failure
  | .pushManifestBackupFailed _ => "push failed during manifest backup upload"
  | .rollbackFailed _ => "snapshot_counter rollback failed after manifest-upload error"
  | .vaultHeaderUploadFailed source => "vault header upload failed: " ++ transportText source
  | .transport source => "cloud transport operation failed: " ++ transportText source
  | .storage source => "storage error: " ++ storageText source

-- The answers to one transfer: to the first call, and to the one after a timeout.
structure Transfer where
  first : Except CloudTransportError Unit
  second : Except CloudTransportError Unit

def Transfer.calls (t : Transfer) : List (Except CloudTransportError Unit) :=
  if t.first = .error .timeout then [t.first,t.second] else [t.first]

def Transfer.last (t : Transfer) : Except CloudTransportError Unit :=
  if t.first = .error .timeout then t.second else t.first

structure UploadFate where
  transfer : Transfer
  removal : Except String Unit

variable (env : DrainEnv) (prims : Primitives)

def uploadBlobTask (blobName : Text) (fate : UploadFate) : Except CloudTransportError Text := do
  let _remotePath ← (buildBlobRemotePath env blobName).mapError fun error =>
    match error with
    | .transport source => source
    | error => .other (syncText error)
  fate.transfer.last
  fate.removal.mapError .ioError
  pure blobName

-- The locals of `drive_blob_uploads`.
structure Uploads (α : Type) where
  pending : List α
  inFlight : List α
  successfulUploads : List α
  firstError : Option CloudTransportError
  deriving DecidableEq

def Uploads.begin (maxConcurrent : Nat) (blobs : List α) : Uploads α :=
  ⟨blobs.drop (max maxConcurrent 1),blobs.take (max maxConcurrent 1),[],none⟩

def Uploads.settle [DecidableEq α] (u : Uploads α) (name : α) : Except CloudTransportError α → Uploads α
  | .ok blobName =>
    if u.firstError.isNone then
      ⟨u.pending.drop 1,u.inFlight.erase name ++ u.pending.take 1,u.successfulUploads ++ [blobName],u.firstError⟩
    else ⟨u.pending,u.inFlight.erase name,u.successfulUploads ++ [blobName],u.firstError⟩
  | .error error => ⟨u.pending,u.inFlight.erase name,u.successfulUploads,u.firstError.or (some error)⟩

def Uploads.next (u : Uploads Text) (event : Text × UploadFate) : Option (Uploads Text) :=
  if u.inFlight.any (· = event.1) then some (u.settle event.1 (uploadBlobTask env event.1 event.2)) else none

def Uploads.report (u : Uploads α) : Except (CloudTransportError × List α) (List α) :=
  match u.firstError with
  | some firstError => .error (firstError,u.successfulUploads)
  | none => .ok u.successfulUploads

-- `events` are the completions in their order. The loop returns once nothing is in
-- flight.
def driveBlobUploads (blobs : List Text) (maxConcurrent : Nat) (events : List (Text × UploadFate)) :
    Option (Except (CloudTransportError × List Text) (List Text)) :=
  (run (Uploads.next env) (.begin maxConcurrent blobs) events).bind fun u =>
    if u.inFlight = [] then some u.report else none

structure SyncChunkRecord where
  blobName : Text
  blake3Checksum : Bytes
  deriving DecidableEq

inductive DownloadTaskError where
  | verification (blobName : Text)
  | transport (blobName : Text) (error : CloudTransportError)
  deriving DecidableEq

-- The answers of the provider, and what the fetched file then reads as.
structure DownloadFate where
  transfer : Transfer
  content : Except String Bytes

def verifyBlobChecksum (content : Except String Bytes) (expectedChecksum : Bytes) : Except String Bool :=
  content.map fun bytes => prims.blake3 bytes = expectedChecksum

-- Whether the bad file could be removed changes nothing.
def downloadBlobTask (chunk : SyncChunkRecord) (fate : DownloadFate) : Except DownloadTaskError Unit := do
  let _remotePath ← (buildBlobRemotePath env chunk.blobName).mapError fun error =>
    .transport chunk.blobName (.other (syncText error))
  fate.transfer.last.mapError (.transport chunk.blobName)
  let checksumMatches ← (verifyBlobChecksum prims fate.content chunk.blake3Checksum).mapError fun error =>
    .transport chunk.blobName (.ioError error)
  if checksumMatches then pure () else .error (.verification chunk.blobName)

-- The locals of `drive_blob_downloads`.
structure Downloads where
  pending : List SyncChunkRecord
  inFlight : List SyncChunkRecord
  downloaded : Nat
  verificationFailures : List Text
  transportFailures : List (Text × CloudTransportError)

def Downloads.begin (maxConcurrent : Nat) (chunksToFetch : List SyncChunkRecord) : Downloads :=
  ⟨chunksToFetch.drop (max maxConcurrent 1),chunksToFetch.take (max maxConcurrent 1),0,[],[]⟩

def Downloads.record (d : Downloads) : Except DownloadTaskError Unit → Downloads
  | .ok _ => {d with downloaded := d.downloaded + 1}
  | .error (.verification blobName) => {d with verificationFailures := d.verificationFailures ++ [blobName]}
  | .error (.transport blobName error) => {d with transportFailures := d.transportFailures ++ [(blobName,error)]}

def Downloads.settle (d : Downloads) (chunk : SyncChunkRecord) (result : Except DownloadTaskError Unit) : Downloads :=
  {d.record result with
    pending := d.pending.drop 1
    inFlight := d.inFlight.erase chunk ++ d.pending.take 1}

def Downloads.next (d : Downloads) (event : SyncChunkRecord × DownloadFate) : Option Downloads :=
  if event.1 ∈ d.inFlight then some (d.settle event.1 (downloadBlobTask env prims event.1 event.2)) else none

def Downloads.report (d : Downloads) : Except (List Text × List (Text × CloudTransportError)) Nat :=
  if d.verificationFailures = [] ∧ d.transportFailures = [] then .ok d.downloaded
  else .error (d.verificationFailures,d.transportFailures)

def driveBlobDownloads (chunksToFetch : List SyncChunkRecord) (maxConcurrent : Nat)
    (events : List (SyncChunkRecord × DownloadFate)) :
    Option (Except (List Text × List (Text × CloudTransportError)) Nat) :=
  (run (Downloads.next env prims) (.begin maxConcurrent chunksToFetch) events).bind fun d =>
    if d.inFlight = [] then some d.report else none

-- A word of the system generator, or its failure.
abbrev Draw := Except String UInt64

def maxWord : Nat := 2 ^ 64 - 1

def zone (bound : Nat) : Nat := maxWord - maxWord % bound

-- With no words left the loop still draws.
def unbiasedIndex (upperExclusive : Nat) : List Draw → Option (Except SyncError Nat × List Draw)
  | rng =>
    if upperExclusive = 0 then some (.ok 0,rng)
    else draw rng
where
  draw : List Draw → Option (Except SyncError Nat × List Draw)
  | [] => none
  | .error error :: rng => some (.error (.transport (.other ("system RNG failure: " ++ error))),rng)
  | .ok sample :: rng =>
    if sample.toNat < zone upperExclusive then some (.ok (sample.toNat % upperExclusive),rng) else draw rng

-- `for i in (1..items.len()).rev()`, with `i` one above the count. A swap panics
-- outside the slice.
def shuffleFrom : Nat → Array α → List Draw → Option (Except (Fault SyncError) Unit × Array α × List Draw)
  | 0, items, rng => some (.ok (),items,rng)
  | i + 1, items, rng =>
    match unbiasedIndex (i + 1 + 1) rng with
    | none => none
    | some (.error error,rng) => some (.error (.error error),items,rng)
    | some (.ok j,rng) =>
      if inside : i + 1 < items.size ∧ j < items.size then
        shuffleFrom i (items.swap (i + 1) j inside.1 inside.2) rng
      else some (.error .panic,items,rng)

def fisherYatesShuffleWithSystemRng (items : Array α) (rng : List Draw) :
    Option (Except (Fault SyncError) Unit × Array α × List Draw) :=
  if items.size < 2 then some (.ok (),items,rng) else shuffleFrom (items.size - 1) items rng

-- An upload counts as successful when its path is accepted, the last transfer goes
-- and the pending file goes away.
def landed (event : Text × UploadFate) : Bool :=
  (buildBlobRemotePath env event.1).isOk && event.2.transfer.last.isOk && event.2.removal.isOk

def uploadError (result : Except CloudTransportError α) : Option CloudTransportError :=
  match result with
  | .error error => some error
  | .ok _ => none

def noneFailed (ended : List (Text × Except CloudTransportError Text)) : Bool := ended.all (·.2.isOk)

-- The locals as a window of tasks shows them.
def uploadsOf (w : Window Text (Except CloudTransportError Text)) : Uploads Text :=
  ⟨w.waiting,w.flying,w.ended.filterMap (·.2.toOption),w.ended.findSome? fun event => uploadError event.2⟩

theorem error_clean (ended : List (Text × Except CloudTransportError Text)) :
    (ended.findSome? fun event => uploadError event.2).isNone = noneFailed ended := by
  induction ended with
  | nil => rfl
  | cons event rest ih =>
    obtain ⟨name,result⟩ := event
    cases result with
    | error error => rfl
    | ok blobName => exact ih

theorem next_uploads (w : Window Text (Except CloudTransportError Text)) (event : Text × UploadFate) :
    (uploadsOf w).next env event =
      (w.complete noneFailed (event.1,uploadBlobTask env event.1 event.2)).map uploadsOf := by
  unfold Uploads.next Window.complete
  have clean := error_clean w.ended
  have shown : (uploadsOf w).inFlight = w.flying := rfl
  rw [shown]
  have waits : w.flying.any (· = event.1) = true ↔ event.1 ∈ w.flying := by
    simp
  by_cases flying : event.1 ∈ w.flying
  · rw [if_pos (waits.mpr flying),if_pos flying]
    cases uploadBlobTask env event.1 event.2 with
    | error error =>
      have stopped : noneFailed (w.ended ++ [(event.1,.error error)]) = false := by
        simp [noneFailed,Except.isOk,Except.toBool]
      simp [stopped,uploadsOf,Uploads.settle,uploadError,List.findSome?_append,Except.toOption]
    | ok blobName =>
      have goes : noneFailed (w.ended ++ [(event.1,.ok blobName)]) = noneFailed w.ended := by
        simp [noneFailed,Except.isOk,Except.toBool]
      have first : (uploadsOf w).firstError.isNone = noneFailed w.ended := clean
      rw [goes,Uploads.settle,first]
      split <;> simp [uploadsOf,uploadError,List.findSome?_append,Except.toOption]
  · rw [if_neg (flying ∘ waits.mp),if_neg flying]
    rfl

theorem task_landed (event : Text × UploadFate) :
    (uploadBlobTask env event.1 event.2).toOption = if landed env event then some event.1 else none := by
  unfold uploadBlobTask landed
  cases buildBlobRemotePath env event.1 with
  | error error => rfl
  | ok remotePath =>
    cases event.2.transfer.last with
    | error error => rfl
    | ok _ =>
      cases event.2.removal <;> rfl

theorem uploads_run {env : DrainEnv} (ran : run (Uploads.next env) (.begin maxConcurrent blobs) events = some u) :
    ∃ w, Worked (max maxConcurrent 1) blobs noneFailed w ∧ u = uploadsOf w ∧
      w.ended = events.map fun event => (event.1,uploadBlobTask env event.1 event.2) := by
  have start : Uploads.begin maxConcurrent blobs = uploadsOf (.opened (max maxConcurrent 1) blobs) := rfl
  rw [start,run_through (next_uploads env)] at ran
  obtain ⟨w,through,rfl⟩ := Option.map_eq_some_iff.mp ran
  obtain ⟨worked,ended⟩ := run_worked (by omega) through
  exact ⟨w,worked,rfl,ended⟩

theorem ended_successful (events : List (Text × UploadFate)) :
    (events.map fun event => (event.1,uploadBlobTask env event.1 event.2)).filterMap (·.2.toOption) =
      (events.filter (landed env)).map (·.1) := by
  induction events with
  | nil => rfl
  | cons event rest ih =>
    rw [List.map_cons,List.filterMap_cons,ih,List.filter_cons,task_landed]
    cases landed env event <;> rfl

theorem task_goes (event : Text × UploadFate) : (uploadBlobTask env event.1 event.2).isOk = landed env event := by
  have task := task_landed env event
  cases here : uploadBlobTask env event.1 event.2 <;> rw [here] at task
  · split at task
    · cases task
    · rename_i refused
      exact (Bool.eq_false_iff.mpr refused).symm
  · split at task
    · rename_i accepted
      exact accepted.symm
    · cases task

theorem ended_clean (events : List (Text × UploadFate)) :
    noneFailed (events.map fun event => (event.1,uploadBlobTask env event.1 event.2)) = events.all (landed env) := by
  simp [noneFailed,List.all_map,Function.comp_def,task_goes]

def verificationFailure : Except DownloadTaskError Unit → Option Text
  | .error (.verification blobName) => some blobName
  | _ => none

def transportFailure : Except DownloadTaskError Unit → Option (Text × CloudTransportError)
  | .error (.transport blobName error) => some (blobName,error)
  | _ => none

def always (_ : List (SyncChunkRecord × Except DownloadTaskError Unit)) : Bool := true

def downloadsOf (w : Window SyncChunkRecord (Except DownloadTaskError Unit)) : Downloads :=
  ⟨w.waiting,w.flying,w.ended.countP (·.2.isOk),w.ended.filterMap fun event => verificationFailure event.2,
    w.ended.filterMap fun event => transportFailure event.2⟩

theorem next_downloads (w : Window SyncChunkRecord (Except DownloadTaskError Unit))
    (event : SyncChunkRecord × DownloadFate) :
    (downloadsOf w).next env prims event =
      (w.complete always (event.1,downloadBlobTask env prims event.1 event.2)).map downloadsOf := by
  unfold Downloads.next Window.complete
  have shown : (downloadsOf w).inFlight = w.flying := rfl
  rw [shown]
  by_cases flying : event.1 ∈ w.flying
  · rw [if_pos flying,if_pos flying]
    rcases downloadBlobTask env prims event.1 event.2 with (blobName | ⟨blobName,error⟩) | _ <;>
      simp [always,downloadsOf,Downloads.settle,Downloads.record,verificationFailure,transportFailure,Except.isOk,
        Except.toBool]
  · rw [if_neg flying,if_neg flying]
    rfl

theorem downloads_run {env : DrainEnv} {prims : Primitives}
    (ran : run (Downloads.next env prims) (.begin maxConcurrent chunksToFetch) events = some d) :
    ∃ w, Worked (max maxConcurrent 1) chunksToFetch always w ∧ d = downloadsOf w ∧
      w.ended = events.map fun event => (event.1,downloadBlobTask env prims event.1 event.2) := by
  have start : Downloads.begin maxConcurrent chunksToFetch =
      downloadsOf (.opened (max maxConcurrent 1) chunksToFetch) := rfl
  rw [start,run_through (next_downloads env prims)] at ran
  obtain ⟨w,through,rfl⟩ := Option.map_eq_some_iff.mp ran
  obtain ⟨worked,ended⟩ := run_worked (by omega) through
  exact ⟨w,worked,rfl,ended⟩

theorem zone_half (positive : 0 < bound) (small : bound ≤ 2 ^ 63) : 2 ^ 63 ≤ zone bound := by
  have left := Nat.mod_lt maxWord positive
  unfold zone maxWord at *
  omega

theorem unbiased_index (positive : 0 < upperExclusive)
    (drawn : unbiasedIndex upperExclusive rng = some (.ok j,rest)) : j < upperExclusive := by
  unfold unbiasedIndex at drawn
  rw [if_neg (by omega)] at drawn
  induction rng with
  | nil => cases drawn
  | cons word rng ih =>
    cases word with
    | error error => cases drawn
    | ok sample =>
      rw [unbiasedIndex.draw] at drawn
      split at drawn
      · cases drawn
        exact Nat.mod_lt _ positive
      · exact ih drawn

-- However the generator answers, every swap is inside and the items stay the same
-- up to their order.
theorem shuffle_from (room : i < items.size) (shuffled : shuffleFrom i items rng = some (result,arranged,rest)) :
    arranged.Perm items ∧ result ≠ .error .panic := by
  induction i generalizing items rng with
  | zero =>
    cases shuffled
    exact ⟨.rfl,by rintro ⟨⟩⟩
  | succ i ih =>
    rw [shuffleFrom] at shuffled
    split at shuffled
    · cases shuffled
    · cases shuffled
      exact ⟨.rfl,by rintro ⟨⟩⟩
    · rename_i j left drawn
      have bound := unbiased_index (by omega) drawn
      have inside : i + 1 < items.size ∧ j < items.size := ⟨room,by omega⟩
      rw [dif_pos inside] at shuffled
      obtain ⟨same,sound⟩ := ih (by rw [Array.size_swap]; omega) shuffled
      exact ⟨same.trans (Array.swap_perm _ _),sound⟩

def low (sample : UInt64) : Bool := sample.toNat < 2 ^ 63

theorem index_drawn (positive : 0 < upperExclusive) (small : upperExclusive ≤ 2 ^ 63) (words : List UInt64)
    (enough : 0 < words.countP low) :
    ∃ j rest, unbiasedIndex upperExclusive (words.map .ok) = some (.ok j,List.map .ok rest) ∧
      words.countP low ≤ rest.countP low + 1 := by
  have half := zone_half positive small
  unfold unbiasedIndex
  rw [if_neg (by omega)]
  induction words with
  | nil => simp at enough
  | cons sample rest ih =>
    rw [List.map_cons,unbiasedIndex.draw]
    split
    · refine ⟨_,rest,rfl,?_⟩
      rw [List.countP_cons]
      split <;> omega
    · rename_i refused
      have large : low sample = false := by
        simp only [low,decide_eq_false_iff_not]
        omega
      have skipped : (sample :: rest).countP low = rest.countP low := by
        simp [large]
      rw [skipped] at enough ⊢
      exact ih enough

theorem shuffle_returns (small : i < 2 ^ 63) (words : List UInt64) (enough : i ≤ words.countP low) (items : Array α)
    (room : i < items.size) :
    ∃ arranged rest, shuffleFrom i items (words.map .ok) = some (.ok (),arranged,rest) := by
  induction i generalizing words items with
  | zero => exact ⟨items,_,rfl⟩
  | succ i ih =>
    obtain ⟨j,rest,drawn,left⟩ := index_drawn (by omega : 0 < i + 1 + 1) (by omega) words (by omega)
    have bound := unbiased_index (by omega) drawn
    rw [shuffleFrom,drawn]
    dsimp only
    rw [dif_pos ⟨room,by omega⟩]
    exact ih (by omega) rest (by omega) _ (by rw [Array.size_swap]; omega)

def successes : Except (CloudTransportError × List α) (List α) → List α
  | .ok names => names
  | .error (_,names) => names

theorem uploads_account {env : DrainEnv} (ran : run (Uploads.next env) (.begin maxConcurrent blobs) events = some u) :
    (∀ blob, (u.inFlight ++ events.map (·.1)).count blob ≤ blobs.count blob) ∧
      u.inFlight.length ≤ max maxConcurrent 1 ∧ u.inFlight.length + events.length ≤ blobs.length ∧
      successes u.report = (events.filter (landed env)).map (·.1) ∧
      u.report.isOk = events.all (landed env) ∧
      (u.inFlight = [] → events.all (landed env) = true → (events.map (·.1)).Perm blobs) := by
  obtain ⟨w,worked,rfl,ended⟩ := uploads_run ran
  have named : w.ended.map (·.1) = events.map (·.1) := by
    simp [ended,Function.comp_def]
  obtain ⟨once,counted⟩ := worked_once worked
  have clean := error_clean w.ended
  have landing : noneFailed w.ended = events.all (landed env) := by
    rw [ended,ended_clean]
  have list : (uploadsOf w).successfulUploads = (events.filter (landed env)).map (·.1) := by
    rw [← ended_successful,← ended]
    rfl
  refine ⟨?_,worked.narrow,?_,?_,?_,fun idle all => ?_⟩
  · rw [← named]
    exact once
  · rw [ended,List.length_map] at counted
    exact counted
  · rw [← list]
    unfold Uploads.report
    split <;> rfl
  · rw [← landing,← clean]
    unfold Uploads.report
    have first : (uploadsOf w).firstError = w.ended.findSome? fun event => uploadError event.2 := rfl
    rw [first]
    cases w.ended.findSome? fun event => uploadError event.2 <;> rfl
  · rw [← named]
    exact worked_dry worked idle (landing.trans all)

theorem downloads_account {env : DrainEnv} {prims : Primitives}
    (ran : run (Downloads.next env prims) (.begin maxConcurrent chunksToFetch) events = some d) :
    (∀ chunk, (d.inFlight ++ events.map (·.1)).count chunk ≤ chunksToFetch.count chunk) ∧
      d.inFlight.length ≤ max maxConcurrent 1 ∧ d.inFlight.length + events.length ≤ chunksToFetch.length ∧
      d.verificationFailures = events.filterMap (fun event =>
        verificationFailure (downloadBlobTask env prims event.1 event.2)) ∧
      d.transportFailures = events.filterMap (fun event =>
        transportFailure (downloadBlobTask env prims event.1 event.2)) ∧
      d.downloaded = events.countP (fun event => (downloadBlobTask env prims event.1 event.2).isOk) ∧
      (d.inFlight = [] → (events.map (·.1)).Perm chunksToFetch) := by
  obtain ⟨w,worked,rfl,ended⟩ := downloads_run ran
  have named : w.ended.map (·.1) = events.map (·.1) := by
    simp [ended,Function.comp_def]
  obtain ⟨once,counted⟩ := worked_once worked
  refine ⟨?_,worked.narrow,?_,?_,?_,?_,fun idle => ?_⟩
  · rw [← named]
    exact once
  · rw [ended,List.length_map] at counted
    exact counted
  · simp [downloadsOf,ended,List.filterMap_map,Function.comp_def]
  · simp [downloadsOf,ended,List.filterMap_map,Function.comp_def]
  · simp [downloadsOf,ended,List.countP_map,Function.comp_def]
  · rw [← named]
    exact worked_dry worked idle rfl

theorem downloads_report (d : Downloads) :
    d.report = .ok d.downloaded ∧ d.verificationFailures = [] ∧ d.transportFailures = [] ∨
      d.report = .error (d.verificationFailures,d.transportFailures) ∧
        (d.verificationFailures ≠ [] ∨ d.transportFailures ≠ []) := by
  unfold Downloads.report
  split
  · rename_i clean
    exact .inl ⟨rfl,clean⟩
  · rename_i failed
    exact .inr ⟨rfl,Classical.not_and_iff_not_or_not.mp failed⟩

-- The driver of the push model settles its completions as this one does.
def shownDrive (d : Drive) : Uploads BlobName := ⟨d.pending,d.inFlight,d.successful,d.firstError⟩

theorem settle_shown (fate : BlobName → Transport.UploadFate) (d : Drive) (name : BlobName) :
    shownDrive (d.settle fate name) =
      (shownDrive d).settle name (Transport.uploadBlobTask (fate name) name d.sides).1 := by
  unfold Drive.settle
  rcases Transport.uploadBlobTask (fate name) name d.sides with ⟨error | blobName,s⟩
  · rfl
  · have first : (shownDrive d).firstError = d.firstError := rfl
    dsimp only
    rw [Uploads.settle,first]
    split
    · rename_i clean
      rw [Option.isNone_iff_eq_none.mp clean]
      rfl
    · rfl

def Uploads.take [DecidableEq α] (u : Uploads α) (event : α × Except CloudTransportError α) : Option (Uploads α) :=
  if event.1 ∈ u.inFlight then some (u.settle event.1 event.2) else none

theorem drive_shown (fate : BlobName → Transport.UploadFate) (pick : Nat → Nat) (rounds : Nat) (d : Drive) :
    ∃ events, run Uploads.take (shownDrive d) events = some (shownDrive (d.complete fate pick rounds)) := by
  induction rounds generalizing d with
  | zero => exact ⟨[],rfl⟩
  | succ rounds ih =>
    rw [Drive.complete]
    split
    · exact ⟨[],rfl⟩
    · rename_i name picked
      obtain ⟨events,ran⟩ := ih (d.settle fate name)
      refine ⟨(name,(Transport.uploadBlobTask (fate name) name d.sides).1) :: events,?_⟩
      have flying : name ∈ (shownDrive d).inFlight := List.mem_of_getElem? picked
      rw [run_cons,Uploads.take,if_pos flying,← settle_shown]
      exact ran

-- And its task reports what this one reports where the file is there and the path goes.
theorem task_shown (there : (s.files .pending name).isSome) (accepted : buildBlobRemotePath env blobName = .ok remotePath)
    (fate : Transport.UploadFate) :
    uploadBlobTask env blobName ⟨⟨fate.first.report,fate.second.report⟩,
        if fate.removed then .ok () else .error "Permission denied"⟩ =
      (Transport.uploadBlobTask fate name s).1.map fun _ => blobName := by
  obtain ⟨bytes,there⟩ := Option.isSome_iff_exists.mp there
  have last : (if (s.upload name fate.first).1 = .error .timeout then (s.upload name fate.first).2.upload name fate.second
      else s.upload name fate.first).1 = (⟨fate.first.report,fate.second.report⟩ : Transfer).last := by
    rw [upload_pending there,Transfer.last]
    dsimp only
    split
    · split <;> simp only [Sides.upload,there]
    · rfl
  unfold uploadBlobTask Transport.uploadBlobTask
  dsimp only
  rw [accepted,last]
  cases (⟨fate.first.report,fate.second.report⟩ : Transfer).last with
  | error failure => rfl
  | ok _ => cases fate.removed <;> rfl

-- Each driver at every point of its loop and when it returns, and the shuffle.
theorem drivers_account (env : DrainEnv) (prims : Primitives) :
    (∀ maxConcurrent blobs events,
      (∀ u, run (Uploads.next env) (.begin maxConcurrent blobs) events = some u →
        (∀ blob, (u.inFlight ++ events.map (·.1)).count blob ≤ blobs.count blob) ∧
        successes u.report = (events.filter (landed env)).map (·.1) ∧ u.report.isOk = events.all (landed env) ∧
        (u.inFlight = [] → events.all (landed env) = true → (events.map (·.1)).Perm blobs) ∧
        u.inFlight.length + events.length ≤ blobs.length ∧
        ∀ blob ∈ u.inFlight, ∀ fate, (u.next env (blob,fate)).isSome) ∧
      ∀ result, driveBlobUploads env blobs maxConcurrent events = some result →
        (∀ blob, (events.map (·.1)).count blob ≤ blobs.count blob) ∧
        successes result = (events.filter (landed env)).map (·.1) ∧ result.isOk = events.all (landed env) ∧
        (result.isOk = true → (events.map (·.1)).Perm blobs)) ∧
    (∀ maxConcurrent chunks events,
      (∀ d, run (Downloads.next env prims) (.begin maxConcurrent chunks) events = some d →
        (∀ chunk, (d.inFlight ++ events.map (·.1)).count chunk ≤ chunks.count chunk) ∧
        (d.inFlight = [] → (events.map (·.1)).Perm chunks) ∧
        d.verificationFailures = events.filterMap (fun event =>
          verificationFailure (downloadBlobTask env prims event.1 event.2)) ∧
        d.transportFailures = events.filterMap (fun event =>
          transportFailure (downloadBlobTask env prims event.1 event.2)) ∧
        (d.report = .ok d.downloaded ∧ d.verificationFailures = [] ∧ d.transportFailures = [] ∨
          d.report = .error (d.verificationFailures,d.transportFailures) ∧
            (d.verificationFailures ≠ [] ∨ d.transportFailures ≠ [])) ∧
        d.inFlight.length + events.length ≤ chunks.length ∧
        ∀ chunk ∈ d.inFlight, ∀ fate, (d.next env prims (chunk,fate)).isSome) ∧
      ∀ result, driveBlobDownloads env prims chunks maxConcurrent events = some result →
        (events.map (·.1)).Perm chunks ∧
        result = if (events.filterMap fun event => verificationFailure (downloadBlobTask env prims event.1 event.2)) = [] ∧
            (events.filterMap fun event => transportFailure (downloadBlobTask env prims event.1 event.2)) = [] then
          .ok (events.countP fun event => (downloadBlobTask env prims event.1 event.2).isOk)
        else .error (events.filterMap fun event => verificationFailure (downloadBlobTask env prims event.1 event.2),
          events.filterMap fun event => transportFailure (downloadBlobTask env prims event.1 event.2))) ∧
    ∀ (α : Type) (items : Array α),
      (∀ rng result arranged rest, fisherYatesShuffleWithSystemRng items rng = some (result,arranged,rest) →
        arranged.Perm items ∧ result ≠ .error .panic) ∧
      ∀ words : List UInt64, items.size ≤ 2 ^ 63 → items.size ≤ words.countP low + 1 →
        ∃ arranged rest, fisherYatesShuffleWithSystemRng items (words.map .ok) = some (.ok (),arranged,rest) := by
  refine ⟨fun maxConcurrent blobs events => ⟨fun u ran => ?_,fun result driven => ?_⟩,
    fun maxConcurrent chunks events => ⟨fun d ran => ?_,fun result driven => ?_⟩,?_⟩
  · obtain ⟨once,_,counted,list,clean,whole⟩ := uploads_account ran
    refine ⟨once,list,clean,whole,counted,fun blob flying fate => ?_⟩
    have waits : u.inFlight.any (· = blob) = true := by
      simp [flying]
    rw [Uploads.next,if_pos waits]
    rfl
  · obtain ⟨u,ran,ended⟩ := Option.bind_eq_some_iff.mp driven
    split at ended
    · rename_i idle
      cases ended
      obtain ⟨once,_,_,list,clean,whole⟩ := uploads_account ran
      rw [idle,List.nil_append] at once
      exact ⟨once,list,clean,fun ok => whole idle (clean ▸ ok)⟩
    · cases ended
  · obtain ⟨once,_,counted,verification,transport,_,whole⟩ := downloads_account ran
    refine ⟨once,whole,verification,transport,downloads_report d,counted,fun chunk flying fate => ?_⟩
    rw [Downloads.next,if_pos flying]
    rfl
  · obtain ⟨d,ran,ended⟩ := Option.bind_eq_some_iff.mp driven
    split at ended
    · rename_i idle
      cases ended
      obtain ⟨_,_,_,verification,transport,downloaded,whole⟩ := downloads_account ran
      refine ⟨whole idle,?_⟩
      rw [Downloads.report,verification,transport,downloaded]
    · cases ended
  · intro α items
    constructor
    · intro rng result arranged rest shuffled
      unfold fisherYatesShuffleWithSystemRng at shuffled
      split at shuffled
      · cases shuffled
        exact ⟨.rfl,by rintro ⟨⟩⟩
      · exact shuffle_from (by omega) shuffled
    · intro words small enough
      unfold fisherYatesShuffleWithSystemRng
      split
      · exact ⟨items,_,rfl⟩
      · exact shuffle_returns (by omega) words (by omega) items (by omega)

def sharedBlob (c : Char) : Text := ['s','h','a','r','e','d','/',c]

def smoothUpload : UploadFate := ⟨⟨.ok (),.ok ()⟩,.ok ()⟩

def stuckUpload : UploadFate := ⟨⟨.error .timeout,.ok ()⟩,.error "Permission denied"⟩

def sharedChunk (c : Char) : SyncChunkRecord := ⟨sharedBlob c,plainPrimitives.blake3 [1]⟩

-- Two at a time, out of order; the pending file of one upload stays, and one of the
-- downloads is damaged.
theorem drivers_account_shared :
    (driveBlobUploads willing [sharedBlob 'a',sharedBlob 'b',sharedBlob 'c'] 2
        [(sharedBlob 'b',smoothUpload),(sharedBlob 'a',stuckUpload),(sharedBlob 'c',smoothUpload)] =
      some (.error (.ioError "Permission denied",[sharedBlob 'b',sharedBlob 'c'])) ∧
      successes (.error (.ioError "Permission denied",[sharedBlob 'b',sharedBlob 'c'])) =
        ([(sharedBlob 'b',smoothUpload),(sharedBlob 'a',stuckUpload),(sharedBlob 'c',smoothUpload)].filter
          (landed willing)).map (·.1)) ∧
    ([(sharedChunk 'b',(⟨⟨.ok (),.ok ()⟩,.ok [2]⟩ : DownloadFate)),(sharedChunk 'a',⟨⟨.ok (),.ok ()⟩,.ok [1]⟩)].map
      (·.1)).Perm [sharedChunk 'a',sharedChunk 'b'] ∧
    ∃ arranged rest, fisherYatesShuffleWithSystemRng #['a','b','c'] ([7,5].map .ok) = some (.ok (),arranged,rest) ∧
      arranged.Perm #['a','b','c'] := by
  obtain ⟨uploads,downloads,shuffle⟩ := drivers_account willing plainPrimitives
  have uploaded : driveBlobUploads willing [sharedBlob 'a',sharedBlob 'b',sharedBlob 'c'] 2
      [(sharedBlob 'b',smoothUpload),(sharedBlob 'a',stuckUpload),(sharedBlob 'c',smoothUpload)] =
    some (.error (.ioError "Permission denied",[sharedBlob 'b',sharedBlob 'c'])) := by decide +kernel
  have downloaded : driveBlobDownloads willing plainPrimitives [sharedChunk 'a',sharedChunk 'b'] 2
      [(sharedChunk 'b',⟨⟨.ok (),.ok ()⟩,.ok [2]⟩),(sharedChunk 'a',⟨⟨.ok (),.ok ()⟩,.ok [1]⟩)] =
    some (.error ([sharedBlob 'b'],[])) := by decide +kernel
  obtain ⟨arranged,rest,shuffled⟩ := (shuffle Char #['a','b','c']).2 [7,5] (by decide) (by decide)
  exact ⟨⟨uploaded,((uploads _ _ _).2 _ uploaded).2.1⟩,((downloads _ _ _).2 _ downloaded).1,arranged,rest,shuffled,
    ((shuffle Char _).1 _ _ _ _ shuffled).1⟩

-- The second call has stored the blob, and the pending file stays: the blob is not
-- reported. A blob listed twice is uploaded twice.
theorem landed_unreported :
    driveBlobUploads willing [sharedBlob 'a'] 1 [(sharedBlob 'a',stuckUpload)] =
      some (.error (.ioError "Permission denied",[])) ∧
    stuckUpload.transfer.calls = [.error .timeout,.ok ()] ∧
    driveBlobUploads willing [sharedBlob 'a',sharedBlob 'a'] 1
        [(sharedBlob 'a',smoothUpload),(sharedBlob 'a',smoothUpload)] =
      some (.ok [sharedBlob 'a',sharedBlob 'a']) := by
  decide +kernel

end ArxRuna.Cloud.Drivers
