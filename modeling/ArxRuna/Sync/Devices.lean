import ArxRuna.Library.Run
import ArxRuna.Cloud.Push
namespace ArxRuna.Sync.Devices
open Library.Aead Crypto Store.Tables Store.Operations Store.Staging Cloud.Transport Cloud.Push

-- Any number of devices around one cloud vault. The steps of their runs
-- interleave freely; a run may stop after any of them.
abbrev ManifestKey := Block 32

def counter (m : Manifest) : Nat := m.manifestMeta.snapshotCounter

-- `version` and `byPush` are history: the number of the upload, and whether a
-- push or a ceremony made it. No step of a device reads them.
structure CloudManifest where
  manifest : Manifest
  key : ManifestKey
  version : Nat
  byPush : Bool

inductive PushStage where
  | begun
  | uploading (remaining : List BlobName)
  | bumped
  | exported (m : Manifest)
  | landed (reported : Bool)
  | refused

-- The counter and the key were read when the push began.
structure PushRun where
  localCounter : Nat
  key : ManifestKey
  stage : PushStage

structure PullRun where
  download : CloudManifest
  behind : Bool

-- `pushes` holds the calls of `push_vault` under way, by number: `sync_to_cloud`
-- makes one under `sync_mutex`, `recover_vault_with_phrase` makes one without it.
-- `known` holds the versions the device has pushed or pulled. `behind` says that
-- another device has uploaded a manifest since the last one of these; in a pull
-- it says so of the manifest downloaded. Both are history as well.
structure Device where
  manifest : Manifest
  files : Files
  key : ManifestKey
  pushes : Nat → Option PushRun
  pull : Option PullRun
  ceremony : Option Manifest
  known : List Nat
  behind : Bool

inductive PushReport where
  | ok
  | conflict
  | failed
  deriving DecidableEq, Repr

inductive Event (n : Nat) where
  | pushReplaced (device : Fin n) (seen : Bool)
  | pushEnded (device : Fin n) (report : PushReport) (stored : Bool)
  | ceremonyReplaced (device : Fin n) (seen closed : Bool)

-- `sent` is history too: the blobs each device has uploaded and that no drain has
-- removed since.
structure State (n : Nat) where
  devices : Fin n → Device
  manifestBackup : Option CloudManifest
  objects : Objects
  sent : List (Fin n × BlobName)
  nextVersion : Nat
  history : List (Event n)

-- `edit` stands for whatever the other operations did to the local manifest and
-- the staging directory: none of them writes the counter.
inductive Action (n : Nat) where
  | edit (d : Fin n) (m : Manifest) (files : Files)
  | beginPush (d : Fin n) (call : Nat)
  | readCloud (d : Fin n) (call : Nat) (reachable : Bool)
  | uploadBlob (d : Fin n) (call : Nat) (name : BlobName) (fate : UploadFate)
  | incrementCounter (d : Fin n) (call : Nat) (fate : Fate)
  | stampSync (d : Fin n) (call : Nat) (now : Int) (fate : Fate)
  | exportManifest (d : Fin n) (call : Nat) (written : Bool)
  | uploadManifest (d : Fin n) (call : Nat) (attempt : Attempt)
  | rollBackCounter (d : Fin n) (call : Nat) (fate : Fate)
  | finishPush (d : Fin n) (call : Nat) (clean : Bool)
  | drainDeletion (d : Fin n) (name : BlobName) (removed : Bool)
  | downloadManifest (d : Fin n)
  | replaceLocal (d : Fin n)
  | recoverVault (d : Fin n)
  | rekey (d : Fin n) (key : ManifestKey)
  | ceremonyExport (d : Fin n)
  | ceremonyUpload (d : Fin n) (attempt : Attempt)
  | stop (d : Fin n)

variable {n : Nat}

def State.put (s : State n) (d : Fin n) (dev : Device) : State n :=
  {s with devices := fun e => if e = d then dev else s.devices e}

def Device.setPush (dev : Device) (call : Nat) (task : Option PushRun) : Device :=
  {dev with pushes := fun other => if other = call then task else dev.pushes other}

def Device.atStage (dev : Device) (call localCounter : Nat) (key : ManifestKey) (stage : PushStage) : Device :=
  dev.setPush call (some ⟨localCounter,key,stage⟩)

def State.endPush (s : State n) (d : Fin n) (call : Nat) (dev : Device) (report : PushReport) (stored : Bool) :
    State n :=
  {s.put d (dev.setPush call none) with history := .pushEnded d report stored :: s.history}

def seen (s : State n) (dev : Device) : Bool :=
  match s.manifestBackup with
  | none => true
  | some c => c.version ∈ dev.known

def Device.overtaken (dev : Device) : Device :=
  {dev with behind := true,pull := dev.pull.map fun pull => {pull with behind := true}}

def State.store (s : State n) (d : Fin n) (dev : Device) (m : Manifest) (key : ManifestKey) (byPush : Bool)
    (event : Event n) : State n where
  devices := fun e =>
    if e = d then {dev with known := s.nextVersion :: dev.known,behind := false} else (s.devices e).overtaken
  manifestBackup := some ⟨m,key,s.nextVersion,byPush⟩
  objects := s.objects
  sent := s.sent
  nextVersion := s.nextVersion + 1
  history := event :: s.history

-- `read_cloud_snapshot_state` as `push_vault` uses it: a backup that does not
-- decrypt under the key of the run counts as none.
def cloudCounter (s : State n) (key : ManifestKey) : Option Nat :=
  s.manifestBackup.bind fun c => if c.key = key then some (counter c.manifest) else none

def readCloud (s : State n) (d : Fin n) (call : Nat) (reachable : Bool) : Option (State n) :=
  let dev := s.devices d
  match dev.pushes call with
  | some ⟨localCounter,key,.begun⟩ =>
    if reachable then
      let remaining := (listSyncChunks dev.manifest).filter fun name => (dev.files .pending name).isSome
      let passed := s.put d (dev.atStage call localCounter key (.uploading remaining))
      match cloudCounter s key with
      | none => some passed
      | some cloud => if cloud > localCounter then some (s.endPush d call dev .conflict false) else some passed
    else some (s.endPush d call dev .failed false)
  | _ => none

def uploadBlob (s : State n) (d : Fin n) (call : Nat) (name : BlobName) (fate : UploadFate) : Option (State n) :=
  let dev := s.devices d
  match dev.pushes call with
  | some ⟨localCounter,key,.uploading remaining⟩ =>
    if name ∈ remaining then
      let (result,sides) := uploadBlobTask fate name ⟨dev.files,s.objects⟩
      let arrived := (dev.files .pending name).isSome && fate.stores
      let moved := {s with objects := sides.objects,sent := if arrived then (d,name) :: s.sent else s.sent}
      let dev := {dev with files := sides.files}
      match result with
      | .error _ => some (moved.endPush d call dev .failed false)
      | .ok _ =>
        some (moved.put d (dev.atStage call localCounter key (.uploading (remaining.erase name))))
    else none
  | _ => none

def incrementCounter (s : State n) (d : Fin n) (call : Nat) (fate : Fate) : Option (State n) :=
  let dev := s.devices d
  match dev.pushes call with
  | some ⟨localCounter,key,.uploading []⟩ =>
    match fate,incrementSnapshotCounter dev.manifest with
    | .stops,_ => none
    | .fails _,_ | .goes,.error _ => some (s.endPush d call dev .failed false)
    | .goes,.ok m => some (s.put d ({dev with manifest := m}.atStage call localCounter key .bumped))
  | _ => none

-- A failure to write `last_synced_at` ends the push without a rollback.
def stampSync (s : State n) (d : Fin n) (call : Nat) (now : Int) (fate : Fate) : Option (State n) :=
  let dev := s.devices d
  match dev.pushes call,fate with
  | some ⟨_,_,.bumped⟩,.goes => some (s.put d {dev with manifest := setLastSyncedAt dev.manifest (some now)})
  | some ⟨_,_,.bumped⟩,.fails _ => some (s.endPush d call dev .failed false)
  | _,_ => none

def exportManifest (s : State n) (d : Fin n) (call : Nat) (written : Bool) : Option (State n) :=
  let dev := s.devices d
  match dev.pushes call with
  | some ⟨localCounter,key,.bumped⟩ =>
    let stage := if written then .exported dev.manifest else .refused
    some (s.put d (dev.atStage call localCounter key stage))
  | _ => none

def uploadManifest (s : State n) (d : Fin n) (call : Nat) (attempt : Attempt) : Option (State n) :=
  let dev := s.devices d
  match dev.pushes call with
  | some ⟨localCounter,key,.exported m⟩ =>
    let reported : Bool := match attempt.report with
      | .ok _ => true
      | .error _ => false
    if attempt.stored then
      some (s.store d (dev.atStage call localCounter key (.landed reported)) m key true
        (.pushReplaced d (seen s dev)))
    else some (s.put d (dev.atStage call localCounter key .refused))
  | _ => none

def PushStage.failed : PushStage → Option Bool
  | .landed false => some true
  | .refused => some false
  | _ => none

def rollBackCounter (s : State n) (d : Fin n) (call : Nat) (fate : Fate) : Option (State n) :=
  let dev := s.devices d
  match dev.pushes call with
  | none => none
  | some run =>
    match run.stage.failed with
    | none => none
    | some stored =>
      match fate,rollbackSnapshotCounter dev.manifest run.localCounter with
      | .stops,_ => none
      | .fails _,_ | .goes,.error _ => some (s.endPush d call dev .failed stored)
      | .goes,.ok m => some (s.endPush d call {dev with manifest := m} .failed stored)

def finishPush (s : State n) (d : Fin n) (call : Nat) (clean : Bool) : Option (State n) :=
  let dev := s.devices d
  match dev.pushes call with
  | some ⟨_,_,.landed true⟩ => some (s.endPush d call dev (if clean then .ok else .failed) true)
  | _ => none

def drainDeletion (s : State n) (d : Fin n) (name : BlobName) (removed : Bool) : Option (State n) :=
  let dev := s.devices d
  if name ∈ dev.manifest.pendingDeletions.map (·.blobName) then
    let drained := if removed then
        {s with
          objects := fun other => if other = name then none else s.objects other
          sent := s.sent.filter fun entry => entry.2 ≠ name}
      else s
    some (drained.put d {dev with manifest := markDeletionComplete dev.manifest name})
  else none

def downloadManifest (s : State n) (d : Fin n) : Option (State n) :=
  match s.manifestBackup with
  | none => none
  | some c =>
    let dev := s.devices d
    if c.key = dev.key then some (s.put d {dev with pull := some ⟨c,false⟩}) else none

def replaceLocal (s : State n) (d : Fin n) : Option (State n) :=
  let dev := s.devices d
  match dev.pull with
  | none => none
  | some pull =>
    some (s.put d {dev with
      manifest := pull.download.manifest
      pull := none
      known := pull.download.version :: dev.known
      behind := dev.behind && pull.behind})

-- A device that has no copy of the vault takes over the one in the cloud,
-- credentials included.
def recoverVault (s : State n) (d : Fin n) : Option (State n) :=
  match s.manifestBackup with
  | none => none
  | some c =>
    let dev := s.devices d
    if dev.pull.isNone ∧ dev.ceremony.isNone then
      some (s.put d {dev with
        manifest := c.manifest
        key := c.key
        known := c.version :: dev.known
        behind := false})
    else none

def closed (s : State n) (m : Manifest) : Bool := (listAllBlobNames m).all fun name => (s.objects name).isSome

-- The upload of a ceremony asks the cloud nothing before it replaces the backup.
def ceremonyUpload (s : State n) (d : Fin n) (attempt : Attempt) : Option (State n) :=
  let dev := s.devices d
  match dev.ceremony with
  | none => none
  | some m =>
    let dev' := {dev with ceremony := none}
    if attempt.stored then
      some (s.store d dev' m dev.key false (.ceremonyReplaced d (seen s dev) (closed s m)))
    else some (s.put d dev')

def step (s : State n) : Action n → Option (State n)
  | .edit d m files =>
    if counter m = counter (s.devices d).manifest then
      some (s.put d {s.devices d with manifest := m,files := files})
    else none
  | .beginPush d call =>
    let dev := s.devices d
    if (dev.pushes call).isSome then none
    else some (s.put d (dev.atStage call (counter dev.manifest) dev.key .begun))
  | .readCloud d call reachable => readCloud s d call reachable
  | .uploadBlob d call name fate => uploadBlob s d call name fate
  | .incrementCounter d call fate => incrementCounter s d call fate
  | .stampSync d call now fate => stampSync s d call now fate
  | .exportManifest d call written => exportManifest s d call written
  | .uploadManifest d call attempt => uploadManifest s d call attempt
  | .rollBackCounter d call fate => rollBackCounter s d call fate
  | .finishPush d call clean => finishPush s d call clean
  | .drainDeletion d name removed => drainDeletion s d name removed
  | .downloadManifest d => downloadManifest s d
  | .replaceLocal d => replaceLocal s d
  | .recoverVault d => recoverVault s d
  | .rekey d key => some (s.put d {s.devices d with key := key})
  | .ceremonyExport d => some (s.put d {s.devices d with ceremony := some (s.devices d).manifest})
  | .ceremonyUpload d attempt => ceremonyUpload s d attempt
  | .stop d => some (s.put d {s.devices d with pushes := fun _ => none,pull := none,ceremony := none})

theorem put_same (s : State n) (d : Fin n) (dev : Device) : (s.put d dev).devices d = dev := if_pos rfl

@[simp] theorem setPush_same (dev : Device) (call : Nat) (task : Option PushRun) :
    (dev.setPush call task).pushes call = task := if_pos rfl

theorem setPush_other (dev : Device) (task : Option PushRun) (other : call' ≠ call) :
    (dev.setPush call task).pushes call' = dev.pushes call' := if_neg other

theorem put_other (s : State n) (dev : Device) (other : e ≠ d) : (s.put d dev).devices e = s.devices e := if_neg other

-- Devices at rest that share the vault: each is level with the backup it knows,
-- or behind it. Before the first upload they all start from one counter.
structure Shared (s : State n) : Prop where
  empty : s.history = []
  idle : ∀ d, (∀ call, (s.devices d).pushes call = none) ∧ (s.devices d).pull = none ∧ (s.devices d).ceremony = none
  versions : (∀ c, s.manifestBackup = some c → c.version < s.nextVersion) ∧
    ∀ d, ∀ version ∈ (s.devices d).known, version < s.nextVersion
  published : ∀ c, s.manifestBackup = some c → ∀ d,
    (s.devices d).behind = false ∧ c.version ∈ (s.devices d).known ∧
      counter (s.devices d).manifest = counter c.manifest ∨
    (s.devices d).behind = true ∧ c.version ∉ (s.devices d).known ∧
      counter (s.devices d).manifest < counter c.manifest
  unpublished : s.manifestBackup = none →
    ∃ base, ∀ d, (s.devices d).behind = false ∧ counter (s.devices d).manifest = base

end ArxRuna.Sync.Devices
