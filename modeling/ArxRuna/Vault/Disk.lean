import ArxRuna.Library.Interrupt
import ArxRuna.Store.Staging
namespace ArxRuna.Vault.Disk
open Library.Aead Library.Fallible Library.Interrupt Crypto Store.Tables Store.Staging

-- One vault as a transfer sees it: its manifest, its staging directory, and the
-- user's files by path.
structure Workspace where
  manifest : Manifest
  files : Files
  disk : String → Option Bytes

-- One blob file written to staging; a write that fails may leave something.
inductive StageWrite where
  | goes
  | fails (leftover : Option Bytes) (text : String)
  deriving DecidableEq, Repr

def Workspace.setBlob (v : Workspace) (place : Place) (name : BlobName) (content : Option Bytes) : Workspace :=
  {v with files := v.files.write place name content}

def Workspace.setFile (v : Workspace) (path : String) (content : Option Bytes) : Workspace :=
  {v with disk := fun other => if other = path then content else v.disk other}

def writeBlobFile (place : Place) (name : BlobName) (blob : Bytes) : StageWrite → Command Workspace StorageError Unit
  | .goes => change (·.setBlob place name (some blob))
  | .fails leftover text => do
    change (·.setBlob place name leftover)
    fail (.io text)

-- `removed` tells which removals work; nothing is reported.
def cleanupStagedBlobs (place : Place) (names : List BlobName) (removed : BlobName → Bool) (v : Workspace) : Workspace :=
  {v with files := fun place' name =>
    if place' = place ∧ name ∈ names ∧ removed name then none else v.files place' name}

def readFile (v : Workspace) (path : String) : Except StorageError Bytes :=
  match v.disk path with
  | none => .error (.io "No such file or directory")
  | some content => .ok content

-- How a plaintext reaches its destination: the two sibling names drawn for it and
-- what each call on the file system does. Drawn names differ from each other and
-- from the destination.
structure Saving (destination : String) where
  temporary : String
  backup : String
  create : Fate StorageError
  write : Nat → Fate StorageError
  flush : Fate StorageError
  sync : Fate StorageError
  look : Fate StorageError
  moveAway : Fate StorageError
  moveIn : Fate StorageError
  movedBack : Bool
  dropBackup : Fate StorageError
  dropped : Bool
  backup_temporary : backup ≠ temporary
  backup_destination : backup ≠ destination
  temporary_destination : temporary ≠ destination

structure Saving.Works (io : Saving destination) : Prop where
  create : io.create = .goes
  write : ∀ i, io.write i = .goes
  flush : io.flush = .goes
  sync : io.sync = .goes
  look : io.look = .goes
  moveAway : io.moveAway = .goes
  moveIn : io.moveIn = .goes
  dropBackup : io.dropBackup = .goes

def createFile (path : String) (fate : Fate StorageError) : Command Workspace StorageError Unit := do
  meet fate
  change (·.setFile path (some []))

def writeAll (path : String) (text : Bytes) (fate : Fate StorageError) : Command Workspace StorageError Unit := do
  meet fate
  change fun v => v.setFile path (some ((v.disk path).getD [] ++ text))

def rename (source target : String) (fate : Fate StorageError) : Command Workspace StorageError Unit := do
  meet fate
  let v ← inspect
  let content ← demand (readFile v source)
  change fun v => (v.setFile source none).setFile target (some content)

def replaceDestinationWithTemp (destination : String) (io : Saving destination) : Command Workspace StorageError Unit := do
  meet io.look
  let v ← inspect
  match v.disk destination with
  | none => rename io.temporary destination io.moveIn
  | some _ => do
    rename destination io.backup io.moveAway
    undoing (fun u => if io.movedBack then (u.setFile io.backup none).setFile destination (u.disk io.backup) else u)
      (rename io.temporary destination io.moveIn)
    meet io.dropBackup
    change (·.setFile io.backup none)

-- The end of both decryptions to disk, from the last write on.
def persistTemporary (destination : String) (io : Saving destination) : Command Workspace StorageError Unit := do
  meet io.flush
  meet io.sync
  replaceDestinationWithTemp destination io

def dropTemporary (io : Saving destination) (v : Workspace) : Workspace :=
  if io.dropped then v.setFile io.temporary none else v

variable {destination : String} {io : Saving destination} {v w : Workspace}

@[simp] theorem setBlob_manifest : (v.setBlob place name content).manifest = v.manifest := rfl

@[simp] theorem setBlob_files : (v.setBlob place name content).files = v.files.write place name content := rfl

@[simp] theorem setFile_same {path : String} : (v.setFile path content).disk path = content := by
  simp [Workspace.setFile]

theorem setFile_other {path : String} (other : path' ≠ path) : (v.setFile path content).disk path' = v.disk path' := by
  simp [Workspace.setFile,other]

theorem write_blob_done : writeBlobFile place name blob write v = (.done value,w) ↔
    write = .goes ∧ w = v.setBlob place name (some blob) := by
  cases write with
  | goes =>
    rw [writeBlobFile,done_change]
    simp [eq_comm]
  | fails leftover text => simp [writeBlobFile,done_bind]

theorem rename_done {source target : String} (there : v.disk source = some content) :
    rename source target fate v = (.done value,w) ↔
      fate = .goes ∧ w = (v.setFile source none).setFile target (some content) := by
  have read : readFile v source = .ok content := by
    rw [readFile,there]
  simp only [rename,done_bind,done_meet,done_inspect,done_demand,done_change]
  constructor
  · intro ended
    obtain ⟨_,_,⟨goes,rfl⟩,_,_,⟨rfl,rfl⟩,_,_,⟨found,rfl⟩,rfl⟩ := ended
    cases read.symm.trans found
    exact ⟨goes,rfl⟩
  · intro ended
    obtain ⟨goes,rfl⟩ := ended
    exact ⟨(),v,⟨goes,rfl⟩,v,v,⟨rfl,rfl⟩,content,v,⟨read,rfl⟩,rfl⟩

theorem replaced (there : v.disk io.temporary = some content)
    (ended : replaceDestinationWithTemp destination io v = (.done value,w)) :
    w.disk destination = some content := by
  simp only [replaceDestinationWithTemp,done_bind,done_meet,done_inspect] at ended
  obtain ⟨_,_,⟨_,rfl⟩,_,_,⟨rfl,rfl⟩,ended⟩ := ended
  cases found : v.disk destination with
  | none =>
    simp only [found] at ended
    obtain ⟨_,rfl⟩ := (rename_done there).mp ended
    exact setFile_same
  | some old =>
    simp only [found,done_bind,done_meet,done_change,done_undoing] at ended
    obtain ⟨_,_,away,_,_,moved,_,_,⟨_,rfl⟩,rfl⟩ := ended
    obtain ⟨_,rfl⟩ := (rename_done found).mp away
    have still : ((v.setFile destination none).setFile io.backup (some old)).disk io.temporary = some content := by
      rw [setFile_other io.backup_temporary.symm,setFile_other io.temporary_destination,there]
    obtain ⟨_,rfl⟩ := (rename_done still).mp moved
    rw [setFile_other io.backup_destination.symm]
    exact setFile_same

theorem replace_works (works : io.Works) (there : v.disk io.temporary = some content) :
    ∃ w, replaceDestinationWithTemp destination io v = (.done (),w) := by
  rw [replaceDestinationWithTemp,works.look,bind_goes,bind_inspect]
  cases found : v.disk destination with
  | none => exact ⟨_,(rename_done there).mpr ⟨works.moveIn,rfl⟩⟩
  | some old =>
    have still : ((v.setFile destination none).setFile io.backup (some old)).disk io.temporary = some content := by
      rw [setFile_other io.backup_temporary.symm,setFile_other io.temporary_destination,there]
    have away : rename destination io.backup io.moveAway v = (.done (),_) := (rename_done found).mpr ⟨works.moveAway,rfl⟩
    have moved : rename io.temporary destination io.moveIn _ = (.done (),_) := (rename_done still).mpr ⟨works.moveIn,rfl⟩
    exact ⟨_,(bind_done away).trans ((bind_done (done_undoing.mpr moved)).trans (by rw [works.dropBackup]; rfl))⟩

end ArxRuna.Vault.Disk
