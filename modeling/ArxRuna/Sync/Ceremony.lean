import ArxRuna.Store.Names
import ArxRuna.Sync.Conflict
namespace ArxRuna.Sync.Ceremony
open Library.Run Crypto Store.Tables Store.Operations Store.Integrity Store.Names Store.Staging
open Cloud.Transport Cloud.Push Sync.Devices
open Sync.Conflict (deviceOne deviceTwo publishing)
variable {n : Nat} {s next : State n} {d : Fin n} {dev dev' : Device} {backup : Option CloudManifest}

-- A ceremony replaces only what its device had pushed or pulled, by a manifest
-- whose blobs are all in the cloud at that moment.
def Published : Event n → Prop
  | .ceremonyReplaced _ seen closed => seen = true ∧ closed = true
  | .pushReplaced _ _ => True
  | .pushEnded _ _ _ => True

-- The first half of it.
def Incorporated : Event n → Prop
  | .ceremonyReplaced _ seen _ => seen = true
  | .pushReplaced _ _ => True
  | .pushEnded _ _ _ => True

def NothingOverwritten (s : State n) : Prop := ∀ event ∈ s.history, Incorporated event

-- A push uploads from `pending` only; what is in the staging directory itself
-- waits there as well.
def Staged (dev : Device) (name : BlobName) : Prop :=
  (dev.files .pending name).isSome ∨ (dev.files .flat name).isSome

def Exported (dev : Device) (m : Manifest) : Prop :=
  dev.ceremony = some m ∨ ∃ call localCounter key, dev.pushes call = some ⟨localCounter,key,.exported m⟩

-- What a device in step with the cloud refers to, in its database or in a copy of
-- it, or will refer to once it has taken over the manifest it has downloaded.
def Refers (dev : Device) (name : BlobName) : Prop :=
  (dev.behind = false ∧ ∃ m, (m = dev.manifest ∨ Exported dev m) ∧ name ∈ listAllBlobNames m) ∨
  ∃ pull, dev.pull = some pull ∧ (dev.behind && pull.behind) = false ∧ name ∈ listAllBlobNames pull.download.manifest

-- No other device has uploaded a manifest since this one last pushed or pulled.
def InStep (s : State n) (d : Fin n) : Prop := s.manifestBackup.isSome → (s.devices d).behind = false

-- Whatever of the manifest is in staging has been uploaded from there.
def Uploaded (s : State n) (d : Fin n) (m : Manifest) : Prop :=
  ∀ name ∈ listAllBlobNames m, Staged (s.devices d) name → (d,name) ∈ s.sent

def Abreast (s : State n) : Action n → Prop
  | .ceremonyUpload d attempt => attempt.stored = true → (s.devices d).ceremony.isSome → InStep s d
  | _ => True

-- Nothing is asked of the cloud: whoever uploads a manifest is in step and has sent
-- what it had staged. An edit refers to a new blob only when it is staged or sent,
-- and what it takes out of staging is sent or referred to no longer. A drain spares
-- what a manifest refers to, and no export is under way when a manifest of the cloud
-- takes the place of the local one.
def Settled (s : State n) : Action n → Prop
  | .ceremonyUpload d attempt => attempt.stored = true → ∀ m, (s.devices d).ceremony = some m →
      InStep s d ∧ Uploaded s d m
  | .uploadManifest d call attempt => attempt.stored = true → ∀ localCounter key m,
      (s.devices d).pushes call = some ⟨localCounter,key,.exported m⟩ → InStep s d ∧ Uploaded s d m
  | .edit d m files => ∀ name, Refers {s.devices d with manifest := m,files := files} name →
      Staged {s.devices d with files := files} name ∨ (d,name) ∈ s.sent ∨
        Refers (s.devices d) name ∧ ¬ Staged (s.devices d) name
  | .drainDeletion _ name removed => removed = true →
      (∀ c, s.manifestBackup = some c → name ∉ listAllBlobNames c.manifest) ∧
        ∀ e, Refers (s.devices e) name → Staged (s.devices e) name
  | .replaceLocal d | .recoverVault d => ∀ m, ¬ Exported (s.devices d) m
  | _ => True

-- What the history fields of a device say about the backup in the cloud.
structure Tracked (nextVersion : Nat) (backup : Option CloudManifest) (dev : Device) : Prop where
  known : ∀ version ∈ dev.known, version < nextVersion
  current : ∀ c, backup = some c → (dev.behind = false ↔ c.version ∈ dev.known)
  first : backup = none → dev.behind = false
  pulled : ∀ pull, dev.pull = some pull → pull.download.version < nextVersion ∧ ∃ c, backup = some c ∧
    (pull.behind = false → pull.download.version = c.version ∨ c.version ∈ dev.known) ∧
    (pull.behind = true → pull.download.version ≠ c.version)

structure History (s : State n) : Prop where
  current : ∀ c, s.manifestBackup = some c → c.version < s.nextVersion
  devices : ∀ d, Tracked s.nextVersion s.manifestBackup (s.devices d)

-- The steps that leave the backup and every device's history of it alone.
structure Quiet (s next : State n) : Prop where
  backup : next.manifestBackup = s.manifestBackup
  version : next.nextVersion = s.nextVersion
  history : ∀ event ∈ next.history, event ∈ s.history ∨ ∃ d report stored, event = .pushEnded d report stored
  known : ∀ e, (next.devices e).known = (s.devices e).known
  behind : ∀ e, (next.devices e).behind = (s.devices e).behind
  pull : ∀ e, (next.devices e).pull = (s.devices e).pull ∨ (next.devices e).pull = none

theorem in_step_seen (inv : History s) : InStep s d ↔ seen s (s.devices d) = true := by
  unfold InStep seen
  cases there : s.manifestBackup with
  | none => simp
  | some c => simp [(inv.devices d).current c there]

-- Outside the condition the upload itself is the violation: its event says so.
theorem step_breaks (inv : History s) (ahead : ¬ Abreast s act) (taken : step s act = some next) :
    ¬ NothingOverwritten next := by
  cases act with
  | ceremonyUpload d attempt =>
    simp only [Abreast,not_forall] at ahead
    obtain ⟨stored,exported,late⟩ := ahead
    obtain ⟨m,exported⟩ := Option.isSome_iff_exists.mp exported
    simp only [step,ceremonyUpload,exported,stored,if_pos,Option.some.injEq] at taken
    subst taken
    intro incorporated
    exact late ((in_step_seen inv).mpr (incorporated _ List.mem_cons_self))
  | _ => exact absurd trivial ahead

end ArxRuna.Sync.Ceremony
