import ArxRuna.Library.Run
import ArxRuna.Sharing.Revocation
namespace ArxRuna.Sharing.Lifecycle
open Library.Run Crypto Cloud.Transport Rows Revocation

-- A revocation between two of its steps.
inductive RevokeStage where
  | found (share : ShareRecord)
  | counted (share : ShareRecord) (last : Bool)
  | deleting (share : ShareRecord) (left : List Uuid)
  | marking (share : ShareRecord) (last : Bool)
  | dropping (share : ShareRecord)

def RevokeStage.share : RevokeStage → ShareRecord
  | .found share | .counted share _ | .deleting share _ | .marking share _ | .dropping share => share

-- A running call between two of its steps. A sweep works through its ids with one
-- revocation after the other; `rest` holds those that are still to come.
inductive Task where
  | reuse (request : CreateShareRequest) (fileShareId : Uuid)
  | building (request : CreateShareRequest) (fileShareId : Uuid) (uploaded : List Uuid) (left : Nat)
  | cleaning (fileShareId : Uuid) (left : List Uuid)
  | built (request : CreateShareRequest) (snapshot : FileShareSnapshot)
  | ready (request : CreateShareRequest) (fileShareId : Uuid)
  | revoking (stage : RevokeStage) (rest : List Uuid)
  | sweeping (rest : List Uuid)

-- The tables, the blobs below `shared/` by file share and name, and the running
-- calls. The last four are history: the file share ids drawn, the snapshots ever
-- stored, the shares a revocation has taken up, and the file shares of which a
-- revocation has removed something.
structure Shop where
  tables : SharingTables
  blobs : List (Uuid × Uuid)
  tasks : Nat → Option Task
  drawn : List Uuid
  published : List FileShareSnapshot
  attempted : List Uuid
  damaged : List Uuid

def Shop.start : Shop := ⟨⟨[],[]⟩,[],fun _ => none,[],[],[],[]⟩

inductive Action where
  | create (t : Nat) (request : CreateShareRequest) (fileShareId : Uuid) (chunkCount : Nat)
  | readSnapshot (t : Nat)
  | upload (t : Nat) (blobName : Uuid) (attempt : Attempt)
  | clean (t : Nat) (removed : Bool)
  | finishBuild (t : Nat) (shareFileId : Uuid) (wrapped : WrappedFileKey) (chunkSize fileSize : Nat) (fileName : String)
  | insertSnapshot (t : Nat) (goes : Bool)
  | giveUp (t : Nat)
  | insertRow (t : Nat) (shareId : Uuid) (downloadKeyId downloadFolderId : Option String) (goes : Bool)
  | revoke (t : Nat) (shareId : Uuid)
  | sweep (t : Nat) (now : Int)
  | sweepNext (t : Nat)
  | count (t : Nat)
  | list (t : Nat) (answered : Bool)
  | delete (t : Nat) (fate : DeleteFate)
  | mark (t : Nat) (now : Int) (goes : Bool)
  | drop (t : Nat) (goes : Bool)

def Shop.setTask (s : Shop) (t : Nat) (task : Option Task) : Shop :=
  {s with tasks := fun other => if other = t then task else s.tasks other}

-- A revocation is over; a sweep goes on with the ids that are left.
def ended : List Uuid → Option Task
  | [] => none
  | rest => some (.sweeping rest)

def Shop.putBlob (s : Shop) (fileShareId blobName : Uuid) : Shop := {s with blobs := (fileShareId,blobName) :: s.blobs}

def Shop.dropBlob (s : Shop) (fileShareId blobName : Uuid) : Shop :=
  {s with blobs := s.blobs.filter (· ≠ (fileShareId,blobName))}

def Shop.damage (s : Shop) (fileShareId : Uuid) : Shop := {s with damaged := fileShareId :: s.damaged}

def blobsOf (s : Shop) (fileShareId : Uuid) : List Uuid :=
  ((s.blobs.filter (·.1 = fileShareId)).map (·.2)).insertionSort (· ≤ ·)

def afterDelete (share : ShareRecord) : List Uuid → RevokeStage
  | [] => .marking share true
  | left => .deleting share left

def beginRevoke (s : Shop) (t : Nat) (shareId : Uuid) (rest : List Uuid) : Shop :=
  match s.tables.getShare shareId with
  | .error _ => s.setTask t (ended rest)
  | .ok share =>
    if share.revokedAt = none then
      {s.setTask t (some (.revoking (.found share) rest)) with attempted := shareId :: s.attempted}
    else s.setTask t (ended rest)

-- `expires_at IS NOT NULL AND expires_at < ?1 AND revoked_at IS NULL`
def expired (now : Int) (share : ShareRecord) : Bool := share.expiresAt.any (· < now) && share.active

def readSnapshot (s : Shop) (t : Nat) (request : CreateShareRequest) (fileShareId : Uuid) : Shop :=
  match s.tables.getFileShare fileShareId with
  | none => s.setTask t none
  | some _ => s.setTask t (some (.ready request fileShareId))

def uploadChunk (s : Shop) (t : Nat) (request : CreateShareRequest) (fileShareId : Uuid) (uploaded : List Uuid)
    (left : Nat) (blobName : Uuid) (attempt : Attempt) : Shop :=
  let stored := if attempt.stored then s.putBlob fileShareId blobName else s
  match attempt.report with
  | .ok _ => stored.setTask t (some (.building request fileShareId (uploaded ++ [blobName]) left))
  | .error _ => stored.setTask t (some (.cleaning fileShareId uploaded))

def cleanChunk (s : Shop) (t : Nat) (fileShareId : Uuid) (removed : Bool) : List Uuid → Shop
  | [] => s.setTask t none
  | blobName :: left =>
    (if removed then s.dropBlob fileShareId blobName else s).setTask t (some (.cleaning fileShareId left))

def storeSnapshot (s : Shop) (t : Nat) (request : CreateShareRequest) (snapshot : FileShareSnapshot) (goes : Bool) : Shop :=
  match s.tables.insertFileShare snapshot with
  | .error _ => s.setTask t none
  | .ok tables =>
    if goes then {s.setTask t (some (.ready request snapshot.fileShareId)) with
      tables := tables,published := snapshot :: s.published}
    else s.setTask t none

def storeRow (s : Shop) (t : Nat) (row : ShareRecord) (goes : Bool) : Shop :=
  match s.tables.insertShare row with
  | .error _ => s.setTask t none
  | .ok tables => if goes then {s.setTask t none with tables := tables} else s.setTask t none

-- `giveUp` is every failure in between: the vault is not read, a key is not
-- unwrapped, no credential is issued, the contact is gone, no package is sealed.
def stepCreate (s : Shop) (t : Nat) (task : Task) (act : Action) : Option Shop :=
  match task with
  | .reuse request fileShareId =>
    match act with
    | .readSnapshot _ => some (readSnapshot s t request fileShareId)
    | .giveUp _ => some (s.setTask t none)
    | _ => none
  | .building request fileShareId uploaded (left + 1) =>
    match act with
    | .upload _ blobName attempt => some (uploadChunk s t request fileShareId uploaded left blobName attempt)
    | .giveUp _ => some (s.setTask t none)
    | _ => none
  | .building request fileShareId uploaded 0 =>
    match act with
    | .finishBuild _ shareFileId wrapped chunkSize fileSize fileName => some (s.setTask t (some (.built request
        ⟨fileShareId,shareFileId,wrapped,uploaded,chunkSize,fileSize,fileName,request.nowUnixSeconds⟩)))
    | .giveUp _ => some (s.setTask t none)
    | _ => none
  | .cleaning fileShareId left =>
    match act with
    | .clean _ removed => some (cleanChunk s t fileShareId removed left)
    | _ => none
  | .built request snapshot =>
    match act with
    | .insertSnapshot _ goes => some (storeSnapshot s t request snapshot goes)
    | .giveUp _ => some (s.setTask t none)
    | _ => none
  | .ready request fileShareId =>
    match act with
    | .insertRow _ shareId downloadKeyId downloadFolderId goes =>
      some (storeRow s t (shareRecord request shareId fileShareId downloadKeyId downloadFolderId) goes)
    | .giveUp _ => some (s.setTask t none)
    | _ => none
  | .revoking .. | .sweeping _ => none

-- A listed blob is deleted, its deletion is reported failed, or it is not found any more.
def deleteNext (s : Shop) (t : Nat) (share : ShareRecord) (rest : List Uuid) (blobName : Uuid) (left : List Uuid)
    (fate : DeleteFate) : Shop :=
  if (share.fileShareId,blobName) ∈ s.blobs then
    match fate with
    | .goes => ((s.dropBlob share.fileShareId blobName).damage share.fileShareId).setTask t
        (some (.revoking (afterDelete share left) rest))
    | .fails _ => s.setTask t (ended rest)
    | .loses _ => ((s.dropBlob share.fileShareId blobName).damage share.fileShareId).setTask t (ended rest)
  else s.setTask t (some (.revoking (afterDelete share left) rest))

def markRow (s : Shop) (t : Nat) (share : ShareRecord) (last : Bool) (rest : List Uuid) (now : Int) (goes : Bool) : Shop :=
  match s.tables.setShareRevokedAt share.shareId now with
  | .error _ => s.setTask t (ended rest)
  | .ok tables =>
    if goes then {s.setTask t (if last then some (.revoking (.dropping share) rest) else ended rest) with tables := tables}
    else s.setTask t (ended rest)

def dropSnapshot (s : Shop) (t : Nat) (share : ShareRecord) (rest : List Uuid) (goes : Bool) : Shop :=
  if goes then {(s.damage share.fileShareId).setTask t (ended rest) with
    tables := s.tables.deleteFileShare share.fileShareId}
  else s.setTask t (ended rest)

def stepRevoke (s : Shop) (t : Nat) (rest : List Uuid) (stage : RevokeStage) (act : Action) : Option Shop :=
  match stage with
  | .found share =>
    match act with
    | .count _ => some (s.setTask t (some (.revoking (.counted share (isLast s.tables share)) rest)))
    | _ => none
  | .counted share last =>
    match act with
    | .list _ answered =>
      if last then
        if answered then some (s.setTask t (some (.revoking (afterDelete share (blobsOf s share.fileShareId)) rest)))
        else some (s.setTask t (ended rest))
      else some (s.setTask t (some (.revoking (.marking share false) rest)))
    | _ => none
  | .deleting share left =>
    match left,act with
    | blobName :: left,.delete _ fate => some (deleteNext s t share rest blobName left fate)
    | _,_ => none
  | .marking share last =>
    match act with
    | .mark _ now goes => some (markRow s t share last rest now goes)
    | _ => none
  | .dropping share =>
    match act with
    | .drop _ goes => some (dropSnapshot s t share rest goes)
    | _ => none

def Action.task : Action → Nat
  | .create t .. | .readSnapshot t | .upload t .. | .clean t _ | .finishBuild t .. | .insertSnapshot t _ | .giveUp t
  | .insertRow t .. | .revoke t _ | .sweep t _ | .sweepNext t | .count t | .list t _ | .delete t _ | .mark t ..
  | .drop t _ => t

-- A call that begins takes a free slot.
def begin (s : Shop) : Action → Option Shop
  | .create t request fileShareId chunkCount =>
    match s.tables.listActiveSharesByFile request.fileId with
    | first :: _ => some (s.setTask t (some (.reuse request first.fileShareId)))
    | [] =>
      if fileShareId ∈ s.drawn then none
      else some {s.setTask t (some (.building request fileShareId [] chunkCount)) with drawn := fileShareId :: s.drawn}
  | .revoke t shareId => some (beginRevoke s t shareId [])
  | .sweep t now => some (s.setTask t (ended ((s.tables.shares.filter (expired now)).map (·.shareId))))
  | _ => none

def step (s : Shop) (act : Action) : Option Shop :=
  match s.tasks act.task with
  | none => begin s act
  | some (.revoking stage rest) => stepRevoke s act.task rest stage act
  | some (.sweeping ids) =>
    match ids,act with
    | shareId :: rest,.sweepNext t => some (beginRevoke s t shareId rest)
    | _,_ => none
  | some task => stepCreate s act.task task act

end ArxRuna.Sharing.Lifecycle
