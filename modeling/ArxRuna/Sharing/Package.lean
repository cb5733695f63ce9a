import ArxRuna.Library.Base64
import ArxRuna.Library.Paths
import ArxRuna.Sharing.Hpke
import ArxRuna.Sharing.ShareConf
import ArxRuna.Store.Tables
namespace ArxRuna.Sharing.Package
open Library.Aead Library.Base64 Library.JsonText Library.JsonCompact Library.Fallible Library.Interrupt Library.Faults
open Library.Triples Library.Paths Crypto Rows Endpoint Hpke ShareConf

structure SharePackagePayload where
  shareId : String
  fileId : String
  fileName : String
  chunkCount : UInt32
  chunkSize : UInt32
  chunkUuids : List String
  fileKey : String
  senderPublicKey : String
  cloudEndpoint : Json
  fileSize : UInt64
  expiresAt : Option Int

-- The derived deserialisation of a payload and `Uuid::parse_str`. No form of a UUID
-- has a slash.
structure Readers where
  fromSlice : Bytes → Option SharePackagePayload
  parseStr : String → Option Uuid
  unslashed : ∀ {text id}, parseStr text = some id → '/' ∉ text.toList

-- One row of `received_shares`. The contact column is always null.
structure ReceivedShare where
  shareId : String
  senderPublicKey : X25519Key
  fileId : String
  fileName : String
  fileKeyWrapped : WrappedFileKey
  chunkCount : UInt32
  chunkSize : UInt32
  chunkUuids : List String
  cloudEndpoint : Json
  expiresAt : Option Int
  importedAt : Int

-- What an import, a download or a preview changes: the table and the files of the
-- device, wherever they are.
structure Recipient where
  received : List ReceivedShare
  disk : Path → Option Bytes

def Recipient.setFile (s : Recipient) (path : Path) (content : Option Bytes) : Recipient :=
  {s with disk := fun other => if other = path then content else s.disk other}

-- One file written. A write that does not go through may leave something.
inductive Writing where
  | goes
  | fails (left : Option Bytes)
  | stops (left : Option Bytes)

def writeFile {ε : Type} (path : Path) (content : Bytes) (e : ε) : Writing → Command Recipient ε Unit
  | .goes => change (·.setFile path (some content))
  | .fails left => do
    change (·.setFile path left)
    fail e
  | .stops left => do
    change (·.setFile path left)
    stop

def removeFile (path : Path) (removed : Bool) (s : Recipient) : Recipient :=
  if removed then s.setFile path none else s

def removeFiles (paths : List Path) (removed : Path → Bool) (s : Recipient) : Recipient :=
  paths.foldl (fun s path => removeFile path (removed path) s) s

variable (readers : Readers)

def isUuidV4 (text : String) : Bool := (readers.parseStr text).any (versionNumber · = 4)

def validateChunkUuid (indexed : String × Nat) : Except SharingError Unit := do
  let parsed ← given (readers.parseStr indexed.1)
    (.invalidJsonPayload ("chunk_uuids[" ++ toString indexed.2 ++ "] is not a valid UUID"))
  ensure (versionNumber parsed = 4) (.invalidJsonPayload ("chunk_uuids[" ++ toString indexed.2 ++ "] is not UUID v4"))

def validatePayload (payload : SharePackagePayload) : Except SharingError Unit := do
  ensure (payload.shareId ≠ "") (.invalidJsonPayload "share_id is empty")
  ensure (payload.fileId ≠ "") (.invalidJsonPayload "file_id is empty")
  ensure (payload.fileName ≠ "") (.invalidJsonPayload "file_name is empty")
  ensure (payload.chunkCount.toNat = payload.chunkUuids.length)
    (.invalidJsonPayload ("chunk_count (" ++ toString payload.chunkCount ++ ") does not match chunk_uuids length (" ++
      toString payload.chunkUuids.length ++ ")"))
  payload.chunkUuids.zipIdx.forM (validateChunkUuid readers)

def decodeKey (encoded : String) (garbled wrongLength : SharingError) : Except SharingError (Block 32) := do
  let decoded ← given (decodeBase64 encoded) garbled
  given (block 32 decoded) wrongLength

def decodeFileKey (encoded : String) : Except SharingError FileKey :=
  decodeKey encoded (.invalidJsonPayload "file_key is not valid base64") .invalidFileKeyLength

def decodeSenderPublicKey (encoded : String) : Except SharingError X25519Key :=
  decodeKey encoded (.invalidJsonPayload "sender_public_key is not valid base64") .invalidSenderPublicKeyLength

-- `cloud_endpoint["_file_size"] = file_size`, for a file that is not empty.
def endpointWithSize (cloudEndpoint : Json) (fileSize : UInt64) : Except (Fault SharingError) Json :=
  if 0 < fileSize.toNat then
    match setField "_file_size" (.number fileSize.toNat) cloudEndpoint with
    | none => .error .panic
    | some endpoint => .ok endpoint
  else .ok cloudEndpoint

-- The primary key refuses a second row.
def insertReceivedShare (row : ReceivedShare) (fate : Fate SharingError) :
    Command Recipient (Fault SharingError) Unit := do
  require (isUuidV4 readers row.shareId) (.error (.invalidJsonPayload ("share_id is not UUID v4: " ++ row.shareId)))
  face fate
  let s ← inspect
  require (row.shareId ∉ s.received.map (·.shareId)) (.error (.backend "storage backend failure"))
  change fun s => {s with received := s.received ++ [row]}

variable (prims : Primitives) (hpke : HpkePrimitives) (kek : KeyEncryptionKey)

def receivedRow (payload : SharePackagePayload) (senderPublicKey : X25519Key) (wrapped : WrappedFileKey)
    (cloudEndpoint : Json) (nowUnixSeconds : Int) : ReceivedShare :=
  {shareId := payload.shareId,senderPublicKey := senderPublicKey,fileId := payload.fileId,fileName := payload.fileName,
   fileKeyWrapped := wrapped,chunkCount := payload.chunkCount,chunkSize := payload.chunkSize,
   chunkUuids := payload.chunkUuids,cloudEndpoint := cloudEndpoint,expiresAt := payload.expiresAt,
   importedAt := nowUnixSeconds}

def readPackage (secret : X25519Key) (wire : Bytes) (wrapNonce : Nonce) (nowUnixSeconds : Int) :
    Except (Fault SharingError) ReceivedShare := do
  let plaintext ← hpkeOpen hpke secret wire
  let payload ← refusing (given (readers.fromSlice plaintext) (.invalidJsonPayload "not a payload"))
  refusing (validatePayload readers payload)
  let fileKey ← refusing (decodeFileKey payload.fileKey)
  let senderPublicKey ← refusing (decodeSenderPublicKey payload.senderPublicKey)
  let shareFileId ← refusing (given (readers.parseStr payload.fileId) (.invalidJsonPayload "invalid file_id"))
  let cloudEndpoint ← endpointWithSize payload.cloudEndpoint payload.fileSize
  pure (receivedRow payload senderPublicKey (wrapFileKey prims fileKey shareFileId kek wrapNonce) cloudEndpoint
    nowUnixSeconds)

def importSharePackage (secret : X25519Key) (wire : Bytes) (wrapNonce : Nonce) (nowUnixSeconds : Int)
    (fate : Fate SharingError) : Command Recipient (Fault SharingError) ReceivedShare := do
  let row ← demand (readPackage readers prims hpke kek secret wire wrapNonce nowUnixSeconds)
  insertReceivedShare readers row fate
  pure row

def TakesSize (payload : SharePackagePayload) : Prop :=
  0 < payload.fileSize.toNat → payload.cloudEndpoint = .null ∨ ∃ fields, payload.cloudEndpoint = .object fields

variable {readers : Readers} {prims : Primitives} {hpke : HpkePrimitives} {kek : KeyEncryptionKey}

theorem sound_endpoint {payload : SharePackagePayload} (takes : TakesSize payload) :
    Sound (endpointWithSize payload.cloudEndpoint payload.fileSize) := by
  unfold endpointWithSize
  split
  · rename_i positive
    rcases takes positive with empty | ⟨fields,object⟩
    · rw [empty]
      exact sound_ok _
    · rw [object]
      exact sound_ok _
  · exact sound_ok _

theorem sound_read (fits : wire.length + 64 ≤ 2 ^ 38)
    (takes : ∀ plaintext payload, hpkeOpen hpke secret wire = .ok plaintext → readers.fromSlice plaintext = some payload →
      TakesSize payload) :
    Sound (readPackage readers prims hpke kek secret wire wrapNonce nowUnixSeconds) := by
  unfold readPackage
  apply sound_bind (sound_open fits)
  intro plaintext opened
  apply sound_bind (sound_refusing _)
  intro payload read
  have read := given_ok.mp (refusing_ok.mp read)
  apply sound_bind (sound_refusing _)
  intro _ _
  apply sound_bind (sound_refusing _)
  intro _ _
  apply sound_bind (sound_refusing _)
  intro _ _
  apply sound_bind (sound_refusing _)
  intro _ _
  apply sound_bind (sound_endpoint (takes plaintext payload opened read))
  intro _ _
  exact sound_pure _

theorem insert_leads (s : Recipient) (row : ReceivedShare) (fate : Fate SharingError) :
    Leads (· = s) (insertReceivedShare readers row fate)
      (fun _ t => t = {s with received := s.received ++ [row]} ∧ isUuidV4 readers row.shareId = true) (· = s) (· = s) := by
  let Named : Unit → Recipient → Prop := fun _ t => t = s ∧ isUuidV4 readers row.shareId = true
  apply leads_bind (R := Named) (leads_require
    (fun named t same => ⟨same,named⟩) (fun _ _ same => same))
  intro _
  apply leads_bind (R := Named) (leads_face (fun _ same => same) (fun _ same => same.1) (fun _ same => same.1))
  intro _
  apply leads_inspect
  rintro t ⟨rfl,named⟩
  apply leads_bind (R := fun _ => (· = t)) (leads_require (fun _ _ same => same) (fun _ _ same => same))
  intro _
  apply leads_change
  rintro _ rfl
  exact ⟨rfl,named⟩

theorem insert_steady (row : ReceivedShare) (fate : Fate SharingError) :
    Steady (fun _ => True) (insertReceivedShare readers row fate) (fun _ _ => True) := by
  apply steady_bind (R := fun _ _ => True) (steady_require fun _ _ _ => trivial)
  intro _
  apply steady_bind (R := fun _ _ => True) (steady_face fun _ _ => trivial)
  intro _
  apply steady_inspect
  intro _ _
  apply steady_bind (R := fun _ _ => True) (steady_require fun _ _ _ => trivial)
  intro _
  exact steady_change fun _ _ => trivial

theorem import_leads (s : Recipient) :
    Leads (· = s) (importSharePackage readers prims hpke kek secret wire wrapNonce nowUnixSeconds fate)
      (fun row t => t = {s with received := s.received ++ [row]} ∧ isUuidV4 readers row.shareId = true) (· = s) (· = s) := by
  apply leads_bind (leads_demand (fun _ _ _ same => same) (fun _ _ _ same => same))
  intro row
  apply leads_bind (insert_leads s row fate)
  intro _
  exact leads_pure row fun _ done => done

theorem import_steady (sound : Sound (readPackage readers prims hpke kek secret wire wrapNonce nowUnixSeconds)) :
    Steady (fun _ => True) (importSharePackage readers prims hpke kek secret wire wrapNonce nowUnixSeconds fate)
      (fun _ _ => True) := by
  apply steady_bind (R := fun _ _ => True) (steady_demand sound fun _ _ _ _ => trivial)
  intro row
  apply steady_bind (insert_steady row fate)
  intro _
  exact steady_pure row fun _ _ => trivial

end ArxRuna.Sharing.Package
