import ArxRuna.Library.Run
import ArxRuna.Sharing.Package
namespace ArxRuna.Sharing.Received
open Library.Aead Library.Base64 Library.JsonText Library.JsonCompact Library.Fallible Library.Interrupt Library.Faults
open Library.Triples Library.Paths Library.Run Crypto Store.Tables RemotePath SessionConf Rows Endpoint Hpke ShareConf Package

inductive ReceiveError where
  | sharing (e : SharingError)
  | invalidInput (text : String)
  | internalError (text : String)

-- What the commands of one open vault share.
structure Setting where
  readers : Readers
  prims : Primitives
  hpke : HpkePrimitives
  fromStr : Text → Option Value
  kek : KeyEncryptionKey
  identity : Except ReceiveError X25519Key
  staging : Path
  rclone : Bool

variable (v : Setting)

def dotBlob : Text := ['.','b','l','o','b']

def blobName (chunkUuid : String) : Text := chunkUuid.toList ++ dotBlob

def confName (shareId : String) : Text := ['d','l','-'] ++ shareId.toList ++ ['.','c','o','n','f']

def receiptName (receiptUuid : Uuid) : Text := ['r','e','c','e','i','p','t','-'] ++ hyphenated receiptUuid ++ dotBlob

def receiptConfName (receiptUuid : Uuid) : Text :=
  ['r','c','p','t','-'] ++ hyphenated receiptUuid ++ ['.','c','o','n','f']

def tmpExtension : Text := ['t','m','p']

def utf8 (text : Text) : Bytes := (String.ofList text).toUTF8.toList

def getReceivedShare (s : Recipient) (shareId : String) : Except SharingError ReceivedShare :=
  given (s.received.find? (·.shareId = shareId)) .receivedShareNotFound

-- One object as the transport leaves it at the local path, and what it reports.
structure Fetched where
  left : Option Bytes
  report : Fate SharingError

structure Fetching where
  directories : Fate SharingError
  conf : Writing
  fetched : Nat → Text → Fetched
  looked : Nat → Bool
  removed : Path → Bool

-- A scoped transport has the prefix in its root.
def fetchChunk (io : Fetching) (hasScoped : Bool) (pathPrefix : Text) (indexed : String × Nat) :
    Command Recipient (Fault SharingError) Path := do
  require (isUuidV4 v.readers indexed.1) (.error .invalidSharePackage)
  let localPath := v.staging.join (blobName indexed.1)
  require (localPath.startsWith v.staging) (.error .invalidSharePackage)
  require (hasScoped ∨ pathPrefix ≠ []) (.error .invalidSharePackage)
  let fetched := io.fetched indexed.2 (if hasScoped then blobName indexed.1 else pathPrefix ++ blobName indexed.1)
  change (·.setFile localPath fetched.left)
  face fetched.report
  let s ← inspect
  require (io.looked indexed.2 ∧ (s.disk localPath).isSome) (.error .cloudOperation)
  pure localPath

def dropConf (io : Fetching) (hasScoped : Bool) (confPath : Path) (s : Recipient) : Recipient :=
  if hasScoped then removeFile confPath (io.removed confPath) s else s

def fetchChunks (io : Fetching) (hasScoped : Bool) (confPath : Path) (pathPrefix : Text) :
    List (String × Nat) → List Path → Command Recipient (Fault SharingError) (List Path)
  | [],localPaths => pure localPaths
  | indexed :: rest,localPaths => do
    let localPath ← closing (onError fun s => dropConf io hasScoped confPath (removeFiles localPaths io.removed s))
      (fetchChunk v io hasScoped pathPrefix indexed)
    fetchChunks io hasScoped confPath pathPrefix rest (localPaths ++ [localPath])

-- `build_b2_share_transport` and `build_gdrive_share_transport`
def buildShareTransport (io : Fetching) (confPath : Path) (cloudEndpoint : Json) :
    Command Recipient (Fault SharingError) Unit := do
  let conf ← demand (refusing (given (confContent v.fromStr .download cloudEndpoint) .invalidSharePackage))
  writeFile confPath (utf8 conf) (.error .cloudOperation) io.conf

def scopedProvider (cloudEndpoint : Json) : Bool :=
  v.rclone && (stringField "provider" cloudEndpoint = some "b2" || stringField "provider" cloudEndpoint = some "drive")

def fetchShare (io : Fetching) (shareId : String) (share : ReceivedShare) :
    Command Recipient (Fault SharingError) (List Path) := do
  face io.directories
  let confPath := v.staging.join (confName shareId)
  let hasScoped := scopedProvider v share.cloudEndpoint
  whenever hasScoped (buildShareTransport v io confPath share.cloudEndpoint)
  require (hasScoped ∨ (stringField "provider" share.cloudEndpoint).isSome) (.error .cloudOperation)
  let localPaths ← fetchChunks v io hasScoped confPath ((textField "path_prefix" share.cloudEndpoint).getD [])
    share.chunkUuids.zipIdx []
  change (dropConf io hasScoped confPath)
  pure localPaths

def fetchReceivedShareToLocal (io : Fetching) (shareId : String) :
    Command Recipient (Fault SharingError) (List Path) := do
  let s ← inspect
  let share ← demand (refusing (getReceivedShare s shareId))
  fetchShare v io shareId share

structure Decrypting where
  create : Fate StorageError
  read : Nat → Fate StorageError
  write : Nat → Writing
  flush : Fate StorageError
  removed : Bool
  rename : Fate StorageError

-- What the decryption takes from the row, with the unwrapped key.
structure Sealed where
  fileId : Uuid
  fileKey : FileKey
  fileSize : Nat
  chunkCount : UInt32
  chunkSize : UInt32
  chunkUuids : List String

def bytesToWrite (file : Sealed) (index padded : Nat) : Except (Fault StorageError) Nat :=
  if index + 1 = file.chunkCount.toNat then do
    let offset ← mulWord index file.chunkSize.toNat
    pure (min (file.fileSize - offset) padded)
  else pure file.chunkSize.toNat

def decryptPart (file : Sealed) (index : Nat) (blob : Bytes) : Except (Fault StorageError) Bytes := do
  let verified ← refusing ((verifyChecksum v.prims blob (computeChecksum v.prims blob)).mapError StorageError.fromCrypto)
  let padded ← refusing ((decryptChunk v.prims verified file.fileKey file.fileId index).mapError StorageError.fromCrypto)
  let size ← bytesToWrite file index padded.length
  slice padded 0 size

def readFile (s : Recipient) (path : Path) : Except StorageError Bytes :=
  given (s.disk path) (.io "No such file or directory")

def writePart (temp : Path) (file : Sealed) (io : Decrypting) (indexed : String × Nat) :
    Command Recipient (Fault StorageError) Unit := do
  face (io.read indexed.2)
  let s ← inspect
  let blob ← demand (refusing (readFile s (v.staging.join (blobName indexed.1))))
  let part ← demand (decryptPart v file indexed.2 blob)
  writeFile temp ((s.disk temp).getD [] ++ part) (.error (.io "write failed")) (io.write indexed.2)

def writeParts (temp : Path) (file : Sealed) (io : Decrypting) :
    List (String × Nat) → Command Recipient (Fault StorageError) Unit
  | [] => face io.flush
  | indexed :: rest => do
    writePart v temp file io indexed
    writeParts temp file io rest

def moveFile (source target : Path) (s : Recipient) : Recipient :=
  (s.setFile source none).setFile target (s.disk source)

def decryptReceivedShareBlobs (destination : Path) (file : Sealed) (io : Decrypting) :
    Command Recipient (Fault StorageError) Unit := do
  require (file.chunkUuids.length = file.chunkCount.toNat)
    (.error (.constraintViolation "chunk_uuids length does not match chunk_count"))
  let temp := destination.withExtension tmpExtension
  face io.create
  change (·.setFile temp (some []))
  closing (onError (removeFile temp io.removed)) (writeParts v temp file io file.chunkUuids.zipIdx)
  face io.rename
  change (moveFile temp destination)

-- A receipt as it is sealed, stored, uploaded and dropped. Nothing is reported.
structure Receipting where
  receiptUuid : Uuid
  wire : Option Bytes
  localWrite : Writing
  confWrite : Writing
  upload : Fate Unit
  removed : Path → Bool

def sendReceipt (io : Receipting) (wire : Bytes) (conf : Text) : Command Recipient Unit Unit := do
  let localReceipt := v.staging.join (receiptName io.receiptUuid)
  let confPath := v.staging.join (receiptConfName io.receiptUuid)
  writeFile localReceipt wire () io.localWrite
  undoing (removeFile localReceipt (io.removed localReceipt)) (writeFile confPath (utf8 conf) () io.confWrite)
  ignoring (meet io.upload)
  change (removeFiles [localReceipt,confPath] io.removed)

def writeReceiptBlob (cloudEndpoint : Json) (io : Receipting) : Command Recipient (Fault ReceiveError) Unit :=
  match io.wire,confContent v.fromStr .receipt cloudEndpoint with
  | some wire,some conf => whenever v.rclone (ignoring (sendReceipt v io wire conf))
  | _,_ => pure ()

def receiptRequested (share : ReceivedShare) : Bool :=
  match jsonGet "receipt_requested" share.cloudEndpoint with
  | some (.bool requested) => requested
  | _ => false

def receivedFileSize (share : ReceivedShare) : Nat :=
  ((jsonGet "_file_size" share.cloudEndpoint).bind (Json.number? (2 ^ 64))).getD
    (min (share.chunkCount.toNat * share.chunkSize.toNat) (2 ^ 64 - 1))

-- The row, unless it has expired.
def currentShare (s : Recipient) (shareId : String) (nowUnixSeconds : Int) : Except ReceiveError ReceivedShare := do
  let share ← (getReceivedShare s shareId).mapError .sharing
  ensure (¬ share.expiresAt.any (· < nowUnixSeconds))
    (.invalidInput "Share has expired — contact sender for renewed access")
  pure share

def sealedFile (share : ReceivedShare) : Except ReceiveError Sealed := do
  let fileId ← given (v.readers.parseStr share.fileId) (.internalError "Invalid file ID in received share")
  let fileKey ← (unwrapFileKey v.prims share.fileKeyWrapped fileId v.kek).mapError
    fun _ => .internalError "File key unwrap failed"
  pure ⟨fileId,fileKey,receivedFileSize share,share.chunkCount,share.chunkSize,share.chunkUuids⟩

structure Downloading where
  now : Int
  fetching : Fetching
  decrypting : Decrypting
  receipt : Receipting

-- The end both commands share: the fetched blobs are removed whatever comes of them.
def decryptFetched (destination : Path) (file : Sealed) (localPaths : List Path) (io : Downloading) :
    Command Recipient (Fault ReceiveError) Unit :=
  closing (onReturn (removeFiles localPaths io.fetching.removed))
    (relabel (Fault.map fun _ => .internalError "Decryption failed")
      (decryptReceivedShareBlobs v destination file io.decrypting))

def downloadReceivedShare (shareId : String) (destination : Path) (io : Downloading) :
    Command Recipient (Fault ReceiveError) String := do
  let s ← inspect
  let share ← demand (refusing (currentShare s shareId io.now))
  let file ← demand (refusing (sealedFile v share))
  let localPaths ← relabel (Fault.map .sharing) (fetchReceivedShareToLocal v io.fetching shareId)
  decryptFetched v destination file localPaths io
  whenever (receiptRequested share) (writeReceiptBlob v share.cloudEndpoint io.receipt)
  pure share.fileName

structure FileContent where
  mimeType : String
  dataBase64 : String
  sizeBytes : Nat

def detectMimeType (bytes : Bytes) : String :=
  if [0xFF,0xD8,0xFF].isPrefixOf bytes then "image/jpeg"
  else if [0x89,0x50,0x4E,0x47,0x0D,0x0A,0x1A,0x0A].isPrefixOf bytes then "image/png"
  else if [0x47,0x49,0x46,0x38,0x37,0x61].isPrefixOf bytes ∨ [0x47,0x49,0x46,0x38,0x39,0x61].isPrefixOf bytes then "image/gif"
  else if [0x25,0x50,0x44,0x46].isPrefixOf bytes then "application/pdf"
  else if [0x50,0x4B,0x03,0x04].isPrefixOf bytes then "application/zip"
  else "application/octet-stream"

def fiftyMib : Nat := 50 * 1024 * 1024

def contentName : Text := ['c','o','n','t','e','n','t']

-- A directory of its own, dropped when the command returns or unwinds.
structure Previewing where
  io : Downloading
  tempDir : Path
  made : Fate ReceiveError
  reread : Fate ReceiveError
  dropped : Bool

def dropDirectory (dir : Path) (dropped : Bool) (s : Recipient) : Recipient :=
  if dropped then {s with disk := fun path => if path.startsWith dir then none else s.disk path} else s

def previewContent (file : Sealed) (localPaths : List Path) (env : Previewing) :
    Command Recipient (Fault ReceiveError) Bytes := do
  let tempPath := env.tempDir.join contentName
  decryptFetched v tempPath file localPaths env.io
  face env.reread
  let s ← inspect
  demand (refusing (given (s.disk tempPath) (.internalError "Failed to read decrypted content")))

def getReceivedShareContent (shareId : String) (env : Previewing) :
    Command Recipient (Fault ReceiveError) FileContent := do
  let s ← inspect
  let share ← demand (refusing (currentShare s shareId env.io.now))
  require (receivedFileSize share ≤ fiftyMib) (.error (.invalidInput "File exceeds 50 MiB in-app viewing limit"))
  let file ← demand (refusing (sealedFile v share))
  let localPaths ← relabel (Fault.map .sharing) (fetchReceivedShareToLocal v env.io.fetching shareId)
  face env.made
  let bytes ← closing (fun _ => dropDirectory env.tempDir env.dropped) (previewContent v file localPaths env)
  pure ⟨detectMimeType bytes,encodeBase64 bytes,bytes.length⟩

structure Importing where
  package : Option Bytes
  wrapNonce : Nonce
  now : Int
  insert : Fate SharingError
  receipt : Receipting

def importShare (io : Importing) : Command Recipient (Fault ReceiveError) ReceivedShare := do
  let wire ← demand (refusing (given io.package (.invalidInput "Failed to read share package file")))
  let secret ← demand (refusing v.identity)
  let row ← relabel (Fault.map .sharing)
    (importSharePackage v.readers v.prims v.hpke v.kek secret wire io.wrapNonce io.now io.insert)
  whenever (receiptRequested row) (writeReceiptBlob v row.cloudEndpoint io.receipt)
  pure row

inductive Act where
  | importShare (io : Importing)
  | download (shareId : String) (destination : Path) (io : Downloading)
  | preview (shareId : String) (env : Previewing)

inductive Response where
  | imported (row : ReceivedShare)
  | downloaded (fileName : String)
  | content (file : FileContent)

def perform : Act → Command Recipient (Fault ReceiveError) Response
  | .importShare io => do
    let row ← importShare v io
    pure (.imported row)
  | .download shareId destination io => do
    let fileName ← downloadReceivedShare v shareId destination io
    pure (.downloaded fileName)
  | .preview shareId env => do
    let file ← getReceivedShareContent v shareId env
    pure (.content file)

def step (s : Recipient) (act : Act) : Option Recipient := some (perform v act s).2

variable {v : Setting} {allowed : Path → Prop}

-- Nothing is written but files at the allowed paths.
structure Confined (allowed : Path → Prop) (s t : Recipient) : Prop where
  disk : ∀ path, ¬ allowed path → t.disk path = s.disk path
  received : t.received = s.received

theorem confined_refl (s : Recipient) : Confined allowed s s := ⟨fun _ _ => rfl,rfl⟩

theorem confined_trans (a b c : Recipient) (first : Confined allowed a b) (later : Confined allowed b c) :
    Confined allowed a c :=
  ⟨fun path outside => (later.disk path outside).trans (first.disk path outside),later.received.trans first.received⟩

theorem confined_set (fits : allowed path) (content : Option Bytes) (s : Recipient) :
    Confined allowed s (s.setFile path content) := by
  refine ⟨fun other outside => ?_,rfl⟩
  have apart : other ≠ path := fun same => outside (same ▸ fits)
  exact if_neg apart

theorem confined_remove (fits : allowed path) (removed : Bool) (s : Recipient) :
    Confined allowed s (removeFile path removed s) := by
  cases removed with
  | true => exact confined_set fits none s
  | false => exact confined_refl s

theorem confined_removes {paths : List Path} (fits : ∀ path ∈ paths, allowed path) (removed : Path → Bool)
    (s : Recipient) : Confined allowed s (removeFiles paths removed s) := by
  induction paths generalizing s with
  | nil => exact confined_refl s
  | cons path rest ih =>
    exact confined_trans _ _ _ (confined_remove (fits path List.mem_cons_self) _ s)
      (ih (fun other member => fits other (List.mem_cons_of_mem _ member)) _)

theorem confined_move (fits : allowed source) (fits' : allowed target) (s : Recipient) :
    Confined allowed s (moveFile source target s) :=
  confined_trans _ _ _ (confined_set fits none s) (confined_set fits' _ _)

theorem keeps_write {ε : Type} {e : ε} (fits : allowed path) (content : Bytes) (io : Writing) :
    Keeps (Confined allowed) (writeFile path content e io) := by
  cases io with
  | goes => exact keeps_change (confined_set fits _)
  | fails left =>
    apply keeps_bind confined_trans (keeps_change (confined_set fits left))
    exact fun _ => keeps_fail confined_refl e
  | stops left =>
    apply keeps_bind confined_trans (keeps_change (confined_set fits left))
    exact fun _ => keeps_stop confined_refl

section Fetching
variable {io : Fetching} {hasScoped : Bool} {confPath : Path} {pathPrefix : Text}

theorem keeps_fetch_chunk {indexed : String × Nat}
    (fits : isUuidV4 v.readers indexed.1 = true → allowed (v.staging.join (blobName indexed.1))) :
    Keeps (Confined allowed) (fetchChunk v io hasScoped pathPrefix indexed) := by
  apply keeps_bind_done confined_trans (keeps_require confined_refl _ _)
  intro _ _ _ valid
  have fits := fits (done_require.mp valid).1
  apply keeps_bind confined_trans (keeps_require confined_refl _ _)
  intro _
  apply keeps_bind confined_trans (keeps_require confined_refl _ _)
  intro _
  apply keeps_bind confined_trans (keeps_change (confined_set fits _))
  intro _
  apply keeps_bind confined_trans (keeps_face confined_refl _)
  intro _
  apply keeps_bind confined_trans (keeps_inspect confined_refl)
  intro _
  apply keeps_bind confined_trans (keeps_require confined_refl _ _)
  exact fun _ => keeps_pure confined_refl _

theorem fetched_path {indexed : String × Nat} (ran : fetchChunk v io hasScoped pathPrefix indexed s = (.done path,t)) :
    isUuidV4 v.readers indexed.1 = true ∧ path = v.staging.join (blobName indexed.1) := by
  simp only [fetchChunk,done_bind,done_require,done_inspect,done_pure] at ran
  obtain ⟨_,_,⟨valid,_⟩,_,_,_,_,_,_,_,_,_,_,_,_,_,_,_,_,_,_,same,_⟩ := ran
  exact ⟨valid,same.symm⟩

theorem confined_drop (fits : allowed confPath) (s : Recipient) : Confined allowed s (dropConf io hasScoped confPath s) := by
  unfold dropConf
  split
  · exact confined_remove fits _ s
  · exact confined_refl s

theorem keeps_fetch_chunks {list : List (String × Nat)} {localPaths : List Path} (conf : allowed confPath)
    (fits : ∀ indexed ∈ list, isUuidV4 v.readers indexed.1 = true → allowed (v.staging.join (blobName indexed.1)))
    (gathered : ∀ path ∈ localPaths, allowed path) :
    Keeps (Confined allowed) (fetchChunks v io hasScoped confPath pathPrefix list localPaths) := by
  induction list generalizing localPaths with
  | nil => exact keeps_pure confined_refl _
  | cons indexed rest ih =>
    have here := fits indexed List.mem_cons_self
    apply keeps_bind_done confined_trans
    · apply keeps_closing confined_trans (keeps_fetch_chunk here)
      apply keeps_on_error confined_refl
      intro s
      exact confined_trans _ _ _ (confined_removes gathered _ s) (confined_drop conf _)
    · intro path s t ran
      obtain ⟨_,ran,_⟩ := done_closing.mp ran
      obtain ⟨valid,rfl⟩ := fetched_path ran
      apply ih (fun other member => fits other (List.mem_cons_of_mem _ member))
      intro other member
      rcases List.mem_append.mp member with earlier | last
      · exact gathered other earlier
      · rw [List.mem_singleton.mp last]
        exact here valid

theorem fetched_paths {list : List (String × Nat)} {localPaths paths : List Path}
    (ran : fetchChunks v io hasScoped confPath pathPrefix list localPaths s = (.done paths,t)) :
    ∀ path ∈ paths, path ∈ localPaths ∨
      ∃ indexed ∈ list, isUuidV4 v.readers indexed.1 = true ∧ path = v.staging.join (blobName indexed.1) := by
  induction list generalizing localPaths s with
  | nil =>
    obtain ⟨rfl,_⟩ := done_pure.mp ran
    exact fun path member => .inl member
  | cons indexed rest ih =>
    rw [fetchChunks,done_bind] at ran
    obtain ⟨first,_,ran,later⟩ := ran
    obtain ⟨_,ran,_⟩ := done_closing.mp ran
    intro path member
    rcases ih later path member with before | ⟨other,inside,valid,same⟩
    · rcases List.mem_append.mp before with earlier | last
      · exact .inl earlier
      · rw [List.mem_singleton.mp last]
        obtain ⟨valid,same⟩ := fetched_path ran
        exact .inr ⟨indexed,List.mem_cons_self,valid,same⟩
    · exact .inr ⟨other,List.mem_cons_of_mem _ inside,valid,same⟩

theorem keeps_transport (conf : allowed confPath) :
    Keeps (Confined allowed) (buildShareTransport v io confPath cloudEndpoint) := by
  apply keeps_bind confined_trans (keeps_demand confined_refl _)
  exact fun _ => keeps_write conf _ _

def FetchAllows (v : Setting) (allowed : Path → Prop) (shareId : String) (share : ReceivedShare) : Prop :=
  allowed (v.staging.join (confName shareId)) ∧
    ∀ chunk ∈ share.chunkUuids, isUuidV4 v.readers chunk = true → allowed (v.staging.join (blobName chunk))

theorem chunk_of_indexed {chunks : List String} {indexed : String × Nat} (member : indexed ∈ chunks.zipIdx) :
    indexed.1 ∈ chunks := by
  obtain ⟨chunk,index⟩ := indexed
  exact List.fst_mem_of_mem_zipIdx member

theorem keeps_fetch_share (fits : FetchAllows v allowed shareId share) :
    Keeps (Confined allowed) (fetchShare v io shareId share) := by
  obtain ⟨conf,chunks⟩ := fits
  apply keeps_bind confined_trans (keeps_face confined_refl _)
  intro _
  apply keeps_bind confined_trans (keeps_whenever confined_refl (keeps_transport conf))
  intro _
  apply keeps_bind confined_trans (keeps_require confined_refl _ _)
  intro _
  apply keeps_bind confined_trans
  · apply keeps_fetch_chunks conf (fun indexed member => chunks _ (chunk_of_indexed member))
    exact List.forall_mem_nil _
  · intro _
    apply keeps_bind confined_trans (keeps_change (confined_drop conf))
    exact fun _ => keeps_pure confined_refl _

theorem fetched_allowed (fits : FetchAllows v allowed shareId share) (ran : fetchShare v io shareId share s = (.done paths,t)) :
    ∀ path ∈ paths, allowed path := by
  simp only [fetchShare,done_bind,done_pure] at ran
  obtain ⟨_,_,_,_,_,_,_,_,_,_,_,gathered,_,_,_,rfl,_⟩ := ran
  intro path member
  rcases fetched_paths gathered path member with none | ⟨indexed,inside,valid,rfl⟩
  · cases none
  · exact fits.2 _ (chunk_of_indexed inside) valid

end Fetching

section Decrypting
variable {io : Decrypting} {temp : Path} {file : Sealed}

theorem keeps_write_part (fits : allowed temp) (indexed : String × Nat) :
    Keeps (Confined allowed) (writePart v temp file io indexed) := by
  apply keeps_bind confined_trans (keeps_face confined_refl _)
  intro _
  apply keeps_bind confined_trans (keeps_inspect confined_refl)
  intro _
  apply keeps_bind confined_trans (keeps_demand confined_refl _)
  intro _
  apply keeps_bind confined_trans (keeps_demand confined_refl _)
  exact fun _ => keeps_write fits _ _

theorem keeps_write_parts (fits : allowed temp) (list : List (String × Nat)) :
    Keeps (Confined allowed) (writeParts v temp file io list) := by
  induction list with
  | nil => exact keeps_face confined_refl _
  | cons indexed rest ih =>
    apply keeps_bind confined_trans (keeps_write_part fits indexed)
    exact fun _ => ih

theorem keeps_decrypt (fits : allowed destination) (beside : allowed (destination.withExtension tmpExtension)) :
    Keeps (Confined allowed) (decryptReceivedShareBlobs v destination file io) := by
  apply keeps_bind confined_trans (keeps_require confined_refl _ _)
  intro _
  apply keeps_bind confined_trans (keeps_face confined_refl _)
  intro _
  apply keeps_bind confined_trans (keeps_change (confined_set beside _))
  intro _
  apply keeps_bind confined_trans
  · apply keeps_closing confined_trans (keeps_write_parts beside _)
    exact keeps_on_error confined_refl (confined_remove beside _)
  · intro _
    apply keeps_bind confined_trans (keeps_face confined_refl _)
    exact fun _ => keeps_change (confined_move beside fits)

theorem keeps_decrypt_fetched {io : Downloading} (fits : allowed destination)
    (beside : allowed (destination.withExtension tmpExtension)) {localPaths : List Path}
    (gathered : ∀ path ∈ localPaths, allowed path) :
    Keeps (Confined allowed) (decryptFetched v destination file localPaths io) := by
  apply keeps_closing confined_trans (keeps_relabel (keeps_decrypt fits beside))
  exact keeps_on_return confined_refl (confined_removes gathered _)

end Decrypting

def ReceiptAllows (v : Setting) (allowed : Path → Prop) (io : Receipting) : Prop :=
  allowed (v.staging.join (receiptName io.receiptUuid)) ∧ allowed (v.staging.join (receiptConfName io.receiptUuid))

theorem keeps_send_receipt {io : Receipting} (fits : ReceiptAllows v allowed io) :
    Keeps (Confined allowed) (sendReceipt v io wire conf) := by
  apply keeps_bind confined_trans (keeps_write fits.1 _ _)
  intro _
  apply keeps_bind confined_trans
  · intro s
    have kept := keeps_write fits.2 (utf8 conf) io.confWrite s (e := ())
    unfold undoing
    rcases here : writeFile (v.staging.join (receiptConfName io.receiptUuid)) (utf8 conf) () io.confWrite s with
      ⟨_ | _ | _,t⟩ <;> rw [here] at kept
    · exact kept
    · exact confined_trans _ _ _ kept (confined_remove fits.1 _ t)
    · exact kept
  · intro _
    apply keeps_bind confined_trans (keeps_ignoring (keeps_meet confined_refl _))
    intro _
    apply keeps_change
    apply confined_removes
    rintro path member
    rcases List.mem_cons.mp member with rfl | last
    · exact fits.1
    · exact List.mem_singleton.mp last ▸ fits.2

theorem keeps_receipt {io : Receipting} (fits : ReceiptAllows v allowed io) :
    Keeps (Confined allowed) (writeReceiptBlob v cloudEndpoint io) := by
  unfold writeReceiptBlob
  split
  · exact keeps_whenever confined_refl (keeps_ignoring (keeps_send_receipt fits))
  · exact keeps_pure confined_refl _

-- The names in the staging directory that are a command's own.
def FetchNames (v : Setting) (s : Recipient) (shareId : String) (name : Text) : Prop :=
  ∃ share, getReceivedShare s shareId = .ok share ∧
    (name = confName shareId ∨ ∃ chunk ∈ share.chunkUuids, isUuidV4 v.readers chunk = true ∧ name = blobName chunk)

def ReceiptNames (io : Receipting) (name : Text) : Prop :=
  name = receiptName io.receiptUuid ∨ name = receiptConfName io.receiptUuid

def Act.working (v : Setting) (s : Recipient) : Act → Text → Prop
  | .importShare io,name => ReceiptNames io.receipt name
  | .download shareId _ io,name => FetchNames v s shareId name ∨ ReceiptNames io.receipt name
  | .preview shareId _,name => FetchNames v s shareId name

def Act.target : Act → Path → Prop
  | .importShare _,_ => False
  | .download _ destination _,path => path = destination ∨ path = destination.withExtension tmpExtension
  | .preview _ env,path => path.startsWith env.tempDir = true

def Act.allows (v : Setting) (s : Recipient) (act : Act) (path : Path) : Prop :=
  act.target path ∨ ∃ name, act.working v s name ∧ path = v.staging.join name

theorem current_found (current : currentShare s shareId now = .ok share) : getReceivedShare s shareId = .ok share := by
  simp only [currentShare,bind_ok,pure_ok,mapError_ok] at current
  obtain ⟨_,found,_,_,rfl⟩ := current
  exact found

theorem fetch_leads (w : Recipient) (found : getReceivedShare w shareId = .ok share)
    (fits : FetchAllows v allowed shareId share) :
    Leads (· = w) (fetchReceivedShareToLocal v io shareId)
      (fun paths t => Confined allowed w t ∧ ∀ path ∈ paths, allowed path) (Confined allowed w) (Confined allowed w) := by
  apply leads_inspect
  rintro _ rfl
  rw [found]
  intro s same
  subst same
  change Owes _ _ _ (fetchShare v io shareId share s)
  have kept : Keeps (Confined allowed) (fetchShare v io shareId share) := keeps_fetch_share fits
  replace kept := kept s
  rcases here : fetchShare v io shareId share s with ⟨paths | e | _,t⟩ <;> rw [here] at kept
  · exact ⟨kept,fetched_allowed fits here⟩
  · exact kept
  · exact kept

-- The part of both commands up to the fetched blobs.
theorem opened_leads (s : Recipient) {now : Int} {k : ReceivedShare → Command Recipient (Fault ReceiveError) α}
    (later : ∀ share, getReceivedShare s shareId = .ok share →
      Leads (· = s) (k share) (fun _ => Confined allowed s) (Confined allowed s) (Confined allowed s)) :
    Leads (· = s) (demand (refusing (currentShare s shareId now)) >>= k) (fun _ => Confined allowed s)
      (Confined allowed s) (Confined allowed s) := by
  apply leads_bind (R := fun share t => t = s ∧ getReceivedShare s shareId = .ok share)
  · apply leads_demand
    · intro share t current same
      exact ⟨same,current_found (refusing_ok.mp current)⟩
    · intro _ t _ same
      exact same ▸ confined_refl _
  · intro share
    exact leads_given (later share)

theorem fetched_leads (s : Recipient) (found : getReceivedShare s shareId = .ok share)
    (fits : FetchAllows v allowed shareId share) {k : List Path → Command Recipient (Fault ReceiveError) α}
    (later : ∀ paths, (∀ path ∈ paths, allowed path) → Keeps (Confined allowed) (k paths)) :
    Leads (· = s) (relabel (Fault.map .sharing) (fetchReceivedShareToLocal v io shareId) >>= k)
      (fun _ => Confined allowed s) (Confined allowed s) (Confined allowed s) := by
  apply leads_bind (leads_relabel (fetch_leads s found fits))
  intro paths
  exact leads_given fun gathered => leads_keeps confined_trans (later paths gathered)

theorem download_confined (s : Recipient) :
    Confined ((Act.download shareId destination io).allows v s) s (downloadReceivedShare v shareId destination io s).2 := by
  have receipt : ReceiptAllows v ((Act.download shareId destination io).allows v s) io.receipt :=
    ⟨.inr ⟨_,.inr (.inl rfl),rfl⟩,.inr ⟨_,.inr (.inr rfl),rfl⟩⟩
  apply leads_ends (P := (· = s)) _ rfl
  apply leads_inspect
  rintro s rfl
  apply opened_leads
  intro share found
  have fits : FetchAllows v ((Act.download shareId destination io).allows v s) shareId share :=
    ⟨.inr ⟨_,.inl ⟨share,found,.inl rfl⟩,rfl⟩,
      fun chunk member valid => .inr ⟨_,.inl ⟨share,found,.inr ⟨chunk,member,valid,rfl⟩⟩,rfl⟩⟩
  apply leads_bind (R := fun _ => (· = s)) (leads_demand (fun _ _ _ same => same) (fun _ _ _ same => same ▸ confined_refl _))
  intro file
  apply fetched_leads s found fits
  intro paths gathered
  apply keeps_bind confined_trans (keeps_decrypt_fetched (.inl (.inl rfl)) (.inl (.inr rfl)) gathered)
  intro _
  apply keeps_bind confined_trans (keeps_whenever confined_refl (keeps_receipt receipt))
  exact fun _ => keeps_pure confined_refl _

theorem confined_dir (dir : Path) (fits : ∀ path, path.startsWith dir = true → allowed path) (dropped : Bool) (s : Recipient) :
    Confined allowed s (dropDirectory dir dropped s) := by
  unfold dropDirectory
  split
  · refine ⟨fun path outside => if_neg ?_,rfl⟩
    exact fun inside => outside (fits path inside)
  · exact confined_refl s

theorem content_plain : Plain contentName := by decide

theorem content_beside (dir : Path) : (dir.join contentName).withExtension tmpExtension = dir.join (contentName ++ '.' :: tmpExtension) := by
  have beside : Plain (contentName ++ '.' :: tmpExtension) := by decide
  rw [join_plain dir content_plain,join_plain dir beside]
  have named : (⟨dir.absolute,dir.parts ++ [contentName]⟩ : Library.Paths.Path).fileName = some contentName := by
    rw [Path.fileName,List.getLast?_concat]
    rfl
  rw [Path.withExtension,named]
  dsimp only
  rw [List.dropLast_concat]
  rfl

theorem preview_confined (s : Recipient) :
    Confined ((Act.preview shareId env).allows v s) s (getReceivedShareContent v shareId env s).2 := by
  have inside : ∀ path, path.startsWith env.tempDir = true → (Act.preview shareId env).allows v s path :=
    fun _ starts => .inl starts
  apply leads_ends (P := (· = s)) _ rfl
  apply leads_inspect
  rintro s rfl
  apply opened_leads
  intro share found
  have fits : FetchAllows v ((Act.preview shareId env).allows v s) shareId share :=
    ⟨.inr ⟨_,⟨share,found,.inl rfl⟩,rfl⟩,
      fun chunk member valid => .inr ⟨_,⟨share,found,.inr ⟨chunk,member,valid,rfl⟩⟩,rfl⟩⟩
  apply leads_bind (R := fun _ => (· = s)) (leads_require (fun _ _ same => same) (fun _ _ same => same ▸ confined_refl _))
  intro _
  apply leads_bind (R := fun _ => (· = s)) (leads_demand (fun _ _ _ same => same) (fun _ _ _ same => same ▸ confined_refl _))
  intro file
  apply fetched_leads s found fits
  intro paths gathered
  apply keeps_bind confined_trans (keeps_face confined_refl _)
  intro _
  apply keeps_bind confined_trans
  · refine keeps_closing confined_trans ?_ fun _ => confined_dir _ inside _
    have beside := content_beside env.tempDir
    apply keeps_bind confined_trans (keeps_decrypt_fetched (inside _ (join_starts _ content_plain)) ?_ gathered)
    · intro _
      apply keeps_bind confined_trans (keeps_face confined_refl _)
      intro _
      apply keeps_bind confined_trans (keeps_inspect confined_refl)
      exact fun _ => keeps_demand confined_refl _
    · rw [beside]
      exact inside _ (join_starts _ (by decide))
  · exact fun _ => keeps_pure confined_refl _

theorem valid_unslashed (valid : isUuidV4 v.readers text = true) : '/' ∉ text.toList := by
  unfold isUuidV4 at valid
  cases parsed : v.readers.parseStr text with
  | none =>
    rw [parsed] at valid
    cases valid
  | some uuid => exact v.readers.unslashed parsed

theorem plain_name {front : Text} (whole : '/' ∉ front) (whole' : '/' ∉ back) (long : 2 < back.length) : Plain (front ++ back) := by
  have size : 2 < (front ++ back).length := by
    rw [List.length_append]
    omega
  refine ⟨?_,?_,?_,?_⟩
  · rw [List.mem_append]
    rintro (member | member)
    · exact whole member
    · exact whole' member
  all_goals
    intro same
    rw [same] at size
    simp at size

theorem blob_plain (valid : isUuidV4 v.readers chunk = true) : Plain (blobName chunk) :=
  plain_name (valid_unslashed valid) (by decide) (by decide)

theorem conf_plain (valid : isUuidV4 v.readers shareId = true) : Plain (confName shareId) := by
  apply plain_name _ (by decide) (by decide)
  rw [List.mem_append]
  rintro (member | member)
  · revert member
    decide
  · exact valid_unslashed valid member

theorem receipt_plain (receiptUuid : Uuid) : Plain (receiptName receiptUuid) ∧ Plain (receiptConfName receiptUuid) := by
  constructor
  all_goals
    apply plain_name _ (by decide) (by decide)
    rw [List.mem_append]
    rintro (member | member)
    · revert member
      decide
    · exact hyphenated_whole receiptUuid member

-- The temporary file is never one of the blobs.
theorem temp_apart (valid : isUuidV4 v.readers chunk = true) (destination : Path) :
    destination.withExtension tmpExtension ≠ v.staging.join (blobName chunk) := by
  have plain := blob_plain valid
  rw [join_plain _ plain]
  intro same
  cases named : destination.fileName with
  | none =>
    rw [Path.withExtension,named] at same
    dsimp only at same
    rw [same,Path.fileName,List.getLast?_concat] at named
    simp [plain.up] at named
  | some name =>
    rw [Path.withExtension,named] at same
    have last := congrArg (fun path => path.parts.getLast?) same
    dsimp only at last
    rw [List.getLast?_concat,List.getLast?_concat] at last
    have ends := congrArg List.getLast? (Option.some.inj last)
    revert ends
    simp [blobName,dotBlob,tmpExtension]

-- The blobs of the share as the transport has left them.
def Fresh (v : Setting) (io : Fetching) (chunks : List String) (s : Recipient) : Prop :=
  ∀ chunk ∈ chunks, isUuidV4 v.readers chunk = true ∧ ∀ blob, s.disk (v.staging.join (blobName chunk)) = some blob →
    ∃ i remotePath, (io.fetched i remotePath).left = some blob

theorem fresh_set {io : Fetching} (apart : ∀ chunk ∈ chunks, isUuidV4 v.readers chunk = true →
    path ≠ v.staging.join (blobName chunk)) (fresh : Fresh v io chunks s) : Fresh v io chunks (s.setFile path content) := by
  intro chunk member
  obtain ⟨valid,held⟩ := fresh chunk member
  refine ⟨valid,fun blob found => held blob ?_⟩
  rw [← found]
  exact (if_neg (apart chunk member valid).symm).symm

theorem fresh_removed {io : Fetching} (fresh : Fresh v io chunks s) : Fresh v io chunks (removeFile path removed s) := by
  cases removed with
  | false => exact fresh
  | true =>
    intro chunk member
    obtain ⟨valid,held⟩ := fresh chunk member
    refine ⟨valid,fun blob found => held blob ?_⟩
    change (if _ then none else _) = _ at found
    split at found
    · cases found
    · exact found

section Calm
variable {io : Fetching} {hasScoped : Bool} {confPath : Path} {pathPrefix : Text}

theorem steady_fetch_chunk (indexed : String × Nat) :
    Steady (Fresh v io chunks) (fetchChunk v io hasScoped pathPrefix indexed) (fun _ => Fresh v io (chunks ++ [indexed.1])) := by
  let Valid : Unit → Recipient → Prop := fun _ s => Fresh v io chunks s ∧ isUuidV4 v.readers indexed.1 = true
  apply steady_bind (R := Valid) (steady_require fun valid s fresh => ⟨fresh,valid⟩)
  intro _
  apply steady_bind (R := Valid) (steady_require fun _ s fresh => fresh)
  intro _
  apply steady_bind (R := Valid) (steady_require fun _ s fresh => fresh)
  intro _
  apply steady_bind (R := fun _ => Fresh v io (chunks ++ [indexed.1]))
  · apply steady_change
    rintro s ⟨fresh,valid⟩ chunk member
    have valid' : isUuidV4 v.readers chunk = true := by
      rcases List.mem_append.mp member with earlier | last
      · exact (fresh chunk earlier).1
      · exact List.mem_singleton.mp last ▸ valid
    refine ⟨valid',fun blob found => ?_⟩
    change (if _ then _ else _) = _ at found
    split at found
    · exact ⟨_,_,found⟩
    · rename_i other
      rcases List.mem_append.mp member with earlier | last
      · exact (fresh chunk earlier).2 blob found
      · exact absurd (List.mem_singleton.mp last ▸ rfl) other
  · intro _
    apply steady_bind (R := fun _ => Fresh v io (chunks ++ [indexed.1])) (steady_face fun _ fresh => fresh)
    intro _
    apply steady_inspect
    intro w fresh
    apply steady_bind (R := fun _ => Fresh v io (chunks ++ [indexed.1])) (steady_require ?_)
    · intro _
      exact steady_pure _ fun _ fresh => fresh
    · rintro _ _ rfl
      exact fresh

theorem steady_fetch_chunks (list : List (String × Nat)) (localPaths : List Path) :
    Steady (Fresh v io chunks) (fetchChunks v io hasScoped confPath pathPrefix list localPaths)
      (fun _ => Fresh v io (chunks ++ list.map Prod.fst)) := by
  induction list generalizing chunks localPaths with
  | nil =>
    apply steady_pure
    intro s fresh
    simpa using fresh
  | cons indexed rest ih =>
    apply steady_bind (R := fun _ => Fresh v io (chunks ++ [indexed.1]))
    · exact steady_closing (steady_fetch_chunk indexed) fun _ _ fresh => fresh
    · intro path
      have later : Steady (Fresh v io (chunks ++ [indexed.1]))
          (fetchChunks v io hasScoped confPath pathPrefix rest (localPaths ++ [path]))
          (fun _ => Fresh v io (chunks ++ [indexed.1] ++ rest.map Prod.fst)) := ih _
      rw [List.append_assoc] at later
      exact later

theorem steady_write {ε : Type} {e : ε} {P : Recipient → Prop} {U : Unit → Recipient → Prop} {write : Writing}
    (holds : ∀ s, P s → U () (s.setFile path (some content))) :
    Steady P (writeFile path content (.error e) write) U := by
  cases write with
  | goes => exact steady_change holds
  | fails left =>
    apply steady_bind (R := fun _ _ => True) (steady_change fun _ _ => trivial)
    exact fun _ => steady_fail e
  | stops left =>
    intro s _ ending t ran
    obtain ⟨rfl,_⟩ := Prod.mk.inj ran
    exact ⟨by simp,fun _ same => by cases same⟩

theorem steady_fetch_share (shareId : String) (share : ReceivedShare) :
    Steady (fun _ => True) (fetchShare v io shareId share) (fun _ => Fresh v io share.chunkUuids) := by
  have names : share.chunkUuids.zipIdx.map Prod.fst = share.chunkUuids := by simp
  apply steady_bind (R := fun _ _ => True) (steady_face fun _ _ => trivial)
  intro _
  apply steady_bind (R := fun _ _ => True)
  · apply steady_whenever
    · intro _
      apply steady_bind (R := fun _ _ => True) (steady_demand (sound_refusing _) fun _ _ _ _ => trivial)
      exact fun _ => steady_write fun _ _ => trivial
    · exact fun _ _ _ => trivial
  · intro _
    apply steady_bind (R := fun _ _ => True) (steady_require fun _ _ _ => trivial)
    intro _
    have fetched : Steady (Fresh v io []) (fetchChunks v io (scopedProvider v share.cloudEndpoint)
        (v.staging.join (confName shareId)) ((textField "path_prefix" share.cloudEndpoint).getD [])
        share.chunkUuids.zipIdx []) (fun _ => Fresh v io ([] ++ share.chunkUuids.zipIdx.map Prod.fst)) :=
      steady_fetch_chunks _ []
    rw [names,List.nil_append] at fetched
    apply steady_bind (steady_mono fetched (fun _ _ _ none => by cases none) fun _ _ fresh => fresh)
    intro paths
    apply steady_bind (R := fun _ => Fresh v io share.chunkUuids)
    · apply steady_change
      intro s fresh
      unfold dropConf
      split
      · exact fresh_removed fresh
      · exact fresh
    · exact fun _ => steady_pure _ fun _ fresh => fresh

end Calm

-- Every chunk but the last decrypts to a whole chunk, if it decrypts.
def Whole (v : Setting) (io : Fetching) (file : Sealed) : Prop :=
  ∀ i remotePath blob index padded, (io.fetched i remotePath).left = some blob → index + 1 < file.chunkCount.toNat →
    decryptChunk v.prims blob file.fileKey file.fileId index = .ok padded → file.chunkSize.toNat ≤ padded.length

theorem sound_decrypt_part {file : Sealed} (inside : index < file.chunkCount.toNat)
    (whole : index + 1 < file.chunkCount.toNat → ∀ padded,
      decryptChunk v.prims blob file.fileKey file.fileId index = .ok padded → file.chunkSize.toNat ≤ padded.length) :
    Sound (decryptPart v file index blob) := by
  unfold decryptPart
  rw [verify_computed]
  apply sound_bind (sound_refusing _)
  intro verified checked
  cases refusing_ok.mp checked
  apply sound_bind (sound_refusing _)
  intro padded opened
  have opened := mapError_ok.mp (refusing_ok.mp opened)
  by_cases last : index + 1 = file.chunkCount.toNat
  · have fits : index * file.chunkSize.toNat < 2 ^ 64 := by
      have count := file.chunkCount.toNat_lt
      have size := file.chunkSize.toNat_lt
      calc index * file.chunkSize.toNat ≤ 2 ^ 32 * file.chunkSize.toNat := Nat.mul_le_mul_right _ (by omega)
        _ < 2 ^ 32 * 2 ^ 32 := Nat.mul_lt_mul_of_pos_left size (by decide)
        _ = 2 ^ 64 := by decide
    rw [bytesToWrite,if_pos last]
    apply sound_bind (sound_bind (sound_mul fits) fun _ _ => sound_pure _)
    intro size chosen
    obtain ⟨offset,_,same⟩ := bind_ok.mp chosen
    cases pure_ok.mp same
    exact sound_slice (Nat.zero_le _) (Nat.min_le_right _ _)
  · rw [bytesToWrite,if_neg last]
    apply sound_bind (sound_pure _)
    intro size chosen
    cases pure_ok.mp chosen
    exact sound_slice (Nat.zero_le _) (whole (by omega) padded opened)

section Written
variable {fetching : Fetching} {io : Decrypting} {temp : Path} {file : Sealed}

theorem steady_write_part {indexed : String × Nat}
    (apart : ∀ chunk, isUuidV4 v.readers chunk = true → temp ≠ v.staging.join (blobName chunk))
    (member : indexed.1 ∈ file.chunkUuids) (inside : indexed.2 < file.chunkCount.toNat) (whole : Whole v fetching file) :
    Steady (Fresh v fetching file.chunkUuids) (writePart v temp file io indexed)
      (fun _ => Fresh v fetching file.chunkUuids) := by
  apply steady_bind (R := fun _ => Fresh v fetching file.chunkUuids) (steady_face fun _ fresh => fresh)
  intro _
  apply steady_inspect
  intro w fresh
  apply steady_bind (R := fun blob s => s = w ∧ w.disk (v.staging.join (blobName indexed.1)) = some blob)
  · apply steady_demand (sound_refusing _)
    intro blob s read same
    exact ⟨same,given_ok.mp (refusing_ok.mp read)⟩
  · intro blob s before
    obtain ⟨same,held⟩ := before
    obtain ⟨i,remotePath,left⟩ := (fresh indexed.1 member).2 blob held
    revert s
    have sound : Sound (decryptPart v file indexed.2 blob) :=
      sound_decrypt_part inside fun more padded => whole i remotePath blob indexed.2 padded left more
    have rest : Steady (· = w) (demand (decryptPart v file indexed.2 blob) >>= fun part =>
        writeFile temp ((w.disk temp).getD [] ++ part) (.error (.io "write failed")) (io.write indexed.2))
        (fun _ => Fresh v fetching file.chunkUuids) := by
      apply steady_bind (R := fun _ => (· = w)) (steady_demand sound fun _ _ _ same => same)
      intro part
      apply steady_write
      rintro _ rfl
      exact fresh_set (fun chunk _ valid => apart chunk valid) fresh
    exact fun s same => rest s same

theorem steady_write_parts {list : List (String × Nat)}
    (apart : ∀ chunk, isUuidV4 v.readers chunk = true → temp ≠ v.staging.join (blobName chunk))
    (members : ∀ indexed ∈ list, indexed.1 ∈ file.chunkUuids ∧ indexed.2 < file.chunkCount.toNat)
    (whole : Whole v fetching file) :
    Steady (Fresh v fetching file.chunkUuids) (writeParts v temp file io list) (fun _ _ => True) := by
  induction list with
  | nil => exact steady_face fun _ _ => trivial
  | cons indexed rest ih =>
    obtain ⟨member,inside⟩ := members indexed List.mem_cons_self
    apply steady_bind (steady_write_part apart member inside whole)
    exact fun _ => ih fun other later => members other (List.mem_cons_of_mem _ later)

theorem steady_decrypt (whole : Whole v fetching file) :
    Steady (Fresh v fetching file.chunkUuids) (decryptReceivedShareBlobs v destination file io) (fun _ _ => True) := by
  let Counted : Unit → Recipient → Prop := fun _ s =>
    Fresh v fetching file.chunkUuids s ∧ file.chunkUuids.length = file.chunkCount.toNat
  have apart := fun chunk (valid : isUuidV4 v.readers chunk = true) => temp_apart valid destination
  apply steady_bind (R := Counted) (steady_require fun counted s fresh => ⟨fresh,counted⟩)
  intro _
  apply steady_bind (R := Counted) (steady_face fun _ before => before)
  intro _
  apply steady_bind (R := Counted)
  · apply steady_change
    rintro s ⟨fresh,counted⟩
    exact ⟨fresh_set (fun chunk _ valid => apart chunk valid) fresh,counted⟩
  · intro _
    apply steady_bind (R := fun _ _ => True)
    · rintro s ⟨fresh,counted⟩
      have written : Steady (Fresh v fetching file.chunkUuids)
          (closing (onError (removeFile (destination.withExtension tmpExtension) io.removed))
            (writeParts v (destination.withExtension tmpExtension) file io file.chunkUuids.zipIdx)) (fun _ _ => True) := by
        refine steady_closing (?_ : Steady _ _ fun _ _ => True) fun _ _ _ => trivial
        apply steady_write_parts apart _ whole
        intro indexed member
        refine ⟨chunk_of_indexed member,?_⟩
        obtain ⟨chunk,index⟩ := indexed
        have bound := (List.mem_zipIdx member).2.1
        dsimp only
        omega
      exact written s fresh
    · intro _
      apply steady_bind (R := fun _ _ => True) (steady_face fun _ _ => trivial)
      exact fun _ => steady_change fun _ _ => trivial

end Written

-- The temporary file goes away again: it is dropped after an error, renamed
-- otherwise, and the process does not stop between.
structure Decrypting.Tidies (io : Decrypting) : Prop where
  removed : io.removed = true
  rename : io.rename = .goes
  flush : io.flush ≠ .stops
  read : ∀ i, io.read i ≠ .stops
  write : ∀ i left, io.write i ≠ .stops left

-- Nothing stands where a download puts its text before it renames it.
def Act.tidy (s : Recipient) : Act → Prop
  | .importShare _ => True
  | .download _ destination io => destination.withExtension tmpExtension = destination ∨
      s.disk (destination.withExtension tmpExtension) = none ∧ io.decrypting.Tidies
  | .preview _ _ => True

section Sibling
variable {io : Decrypting} {temp : Path} {file : Sealed}

theorem write_parts_run (tidies : io.Tidies) (list : List (String × Nat)) (s : Recipient) :
    (writeParts v temp file io list s).1 ≠ .stopped := by
  induction list generalizing s with
  | nil =>
    rw [writeParts,face]
    simpa using tidies.flush
  | cons indexed rest ih =>
    intro stopped
    rcases stopped_bind.mp stopped with here | ⟨_,t,_,later⟩
    · rcases stopped_bind.mp here with read | ⟨_,u,_,here⟩
      · rw [face,stopped_relabel,stopped_meet] at read
        exact tidies.read _ read
      · rw [bind_inspect] at here
        cases found : readFile u (v.staging.join (blobName indexed.1)) with
        | error e =>
          rw [found] at here
          cases here
        | ok blob =>
          rw [found] at here
          change ((demand (decryptPart v file indexed.2 blob) >>= _) u).1 = _ at here
          cases opened : decryptPart v file indexed.2 blob with
          | error e =>
            rw [opened] at here
            cases here
          | ok part =>
            rw [opened] at here
            change (writeFile temp _ _ (io.write indexed.2) u).1 = _ at here
            cases written : io.write indexed.2 with
            | goes =>
              rw [written] at here
              cases here
            | fails left =>
              rw [written] at here
              cases here
            | stops left => exact tidies.write _ left written
    · exact ih t later

theorem decrypt_clears (tidies : io.Tidies) (apart : destination.withExtension tmpExtension ≠ destination) :
    Ends (fun s => s.disk (destination.withExtension tmpExtension) = none)
      (decryptReceivedShareBlobs v destination file io) := by
  have same : ∀ s t : Recipient, Confined (fun _ => False) s t → s.disk (destination.withExtension tmpExtension) = none →
      t.disk (destination.withExtension tmpExtension) = none := fun s t kept clear => (kept.disk _ not_false).trans clear
  apply ends_bind (ends_keeps (keeps_require confined_refl _ _) same)
  intro _
  apply ends_bind (ends_keeps (keeps_face confined_refl _) same)
  intro _ s clear calm
  rw [bind_change] at calm ⊢
  have runs : (writeParts v (destination.withExtension tmpExtension) file io file.chunkUuids.zipIdx
      (s.setFile (destination.withExtension tmpExtension) (some []))).1 ≠ .stopped := write_parts_run tidies _ _
  rcases ran : writeParts v (destination.withExtension tmpExtension) file io file.chunkUuids.zipIdx
    (s.setFile (destination.withExtension tmpExtension) (some [])) with ⟨_ | e | _,t⟩
  · have renamed (s : Recipient) : (face io.rename : Command Recipient (Fault StorageError) Unit) s = (.done (),s) :=
      done_face.mpr ⟨tidies.rename,rfl⟩
    rw [bind_done (done_closing.mpr ⟨t,ran,rfl⟩),bind_done (renamed _)]
    have moved : (moveFile (destination.withExtension tmpExtension) destination t).disk
        (destination.withExtension tmpExtension) = none := by
      unfold moveFile Recipient.setFile
      dsimp only
      rw [if_neg apart,if_pos rfl]
    exact moved
  · have closed : closing (onError (removeFile (destination.withExtension tmpExtension) io.removed))
        (writeParts v (destination.withExtension tmpExtension) file io file.chunkUuids.zipIdx)
        (s.setFile (destination.withExtension tmpExtension) (some [])) =
        (.failed e,onError (removeFile (destination.withExtension tmpExtension) io.removed) (some e) t) := by
      rw [closing,ran]
    rw [bind_failed closed] at calm ⊢
    cases e with
    | panic => exact absurd rfl calm
    | error e =>
      change (removeFile _ io.removed t).disk _ = none
      rw [tidies.removed]
      exact if_pos rfl
  · rw [ran] at runs
    exact absurd rfl runs

end Sibling

theorem removes_clear {paths : List Path} {removed : Path → Bool} {s : Recipient} (clear : s.disk path = none) :
    (removeFiles paths removed s).disk path = none := by
  induction paths generalizing s with
  | nil => exact clear
  | cons other rest ih =>
    apply ih
    dsimp only
    unfold removeFile
    split
    · change (if _ then none else _) = none
      rw [clear,ite_self]
    · exact clear

-- Where a command meets neither of the two operations that panic.
def Act.ordinary (v : Setting) (s : Recipient) : Act → Prop
  | .importShare io => ∀ wire secret, io.package = some wire → v.identity = .ok secret →
      wire.length + 64 ≤ 2 ^ 38 ∧ ∀ plaintext payload, hpkeOpen v.hpke secret wire = .ok plaintext →
        v.readers.fromSlice plaintext = some payload → TakesSize payload
  | .download shareId _ io => ∀ share file, getReceivedShare s shareId = .ok share → sealedFile v share = .ok file →
      Whole v io.fetching file
  | .preview shareId env => ∀ share file, getReceivedShare s shareId = .ok share → sealedFile v share = .ok file →
      Whole v env.io.fetching file

theorem steady_receipt (io : Receipting) (cloudEndpoint : Json) :
    Steady P (writeReceiptBlob v cloudEndpoint io) (fun _ _ => True) := by
  unfold writeReceiptBlob
  split
  · apply steady_whenever
    · exact fun _ => steady_ignoring fun _ => trivial
    · exact fun _ _ _ => trivial
  · exact steady_pure () fun _ _ => trivial

theorem steady_import {io : Importing} (ordinary : (Act.importShare io).ordinary v s) :
    Steady (fun _ => True) (importShare v io) (fun _ _ => True) := by
  apply steady_bind (R := fun wire _ => io.package = some wire)
  · exact steady_demand (sound_refusing _) fun wire _ read _ => given_ok.mp (refusing_ok.mp read)
  intro wire
  apply steady_bind (R := fun secret _ => io.package = some wire ∧ v.identity = .ok secret)
  · exact steady_demand (sound_refusing _) fun secret _ unwrapped read => ⟨read,refusing_ok.mp unwrapped⟩
  intro secret
  apply steady_bind (R := fun _ _ => True)
  · rintro t ⟨read,unwrapped⟩
    obtain ⟨fits,takes⟩ := ordinary wire secret read unwrapped
    exact steady_relabel (import_steady (sound_read fits takes)) t trivial
  intro row
  apply steady_bind (R := fun _ _ => True)
  · apply steady_whenever
    · exact fun _ => steady_receipt _ _
    · exact fun _ _ _ => trivial
  · exact fun _ => steady_pure _ fun _ _ => trivial

theorem steady_fetched {io : Fetching} {file : Sealed} (found : getReceivedShare s shareId = .ok share) (chunks : file.chunkUuids = share.chunkUuids) :
    Steady (· = s) (relabel (Fault.map ReceiveError.sharing) (fetchReceivedShareToLocal v io shareId))
      (fun _ => Fresh v io file.chunkUuids) := by
  apply steady_relabel
  apply steady_inspect
  rintro w rfl
  rw [found,chunks]
  exact steady_mono (steady_fetch_share shareId share) (fun _ _ => trivial) fun _ _ fresh => fresh

theorem steady_decrypt_fetched {io : Downloading} (whole : Whole v io.fetching file) :
    Steady (Fresh v io.fetching file.chunkUuids) (decryptFetched v destination file localPaths io) (fun _ _ => True) :=
  steady_closing (steady_relabel (steady_decrypt whole)) fun _ _ _ => trivial

theorem sealed_size (opened : sealedFile v share = .ok file) : file.chunkSize = share.chunkSize := by
  simp only [sealedFile,bind_ok,pure_ok] at opened
  obtain ⟨_,_,_,_,rfl⟩ := opened
  rfl

theorem sealed_chunks (opened : sealedFile v share = .ok file) : file.chunkUuids = share.chunkUuids := by
  simp only [sealedFile,bind_ok,pure_ok] at opened
  obtain ⟨_,_,_,_,rfl⟩ := opened
  rfl

theorem steady_current (s : Recipient) {now : Int} {k : ReceivedShare → Command Recipient (Fault ReceiveError) α}
    (later : ∀ share, getReceivedShare s shareId = .ok share → Steady (· = s) (k share) (fun _ _ => True)) :
    Steady (· = s) (demand (refusing (currentShare s shareId now)) >>= k) (fun _ _ => True) := by
  apply steady_bind (R := fun share t => t = s ∧ getReceivedShare s shareId = .ok share)
  · exact steady_demand (sound_refusing _) fun share t current same => ⟨same,current_found (refusing_ok.mp current)⟩
  · exact fun share => steady_given (later share)

theorem steady_sealed (s : Recipient) {k : Sealed → Command Recipient (Fault ReceiveError) α}
    (later : ∀ file, sealedFile v share = .ok file → Steady (· = s) (k file) (fun _ _ => True)) :
    Steady (· = s) (demand (refusing (sealedFile v share)) >>= k) (fun _ _ => True) := by
  apply steady_bind (R := fun file t => t = s ∧ sealedFile v share = .ok file)
  · exact steady_demand (sound_refusing _) fun file t opened same => ⟨same,refusing_ok.mp opened⟩
  · exact fun file => steady_given (later file)

theorem steady_download (ordinary : (Act.download shareId destination io).ordinary v s) :
    Steady (· = s) (downloadReceivedShare v shareId destination io) (fun _ _ => True) := by
  apply steady_inspect
  rintro s rfl
  apply steady_current
  intro share found
  apply steady_sealed
  intro file opened
  apply steady_bind (steady_fetched found (sealed_chunks opened))
  intro localPaths
  apply steady_bind (steady_decrypt_fetched (ordinary share file found opened))
  intro _
  apply steady_bind (R := fun _ _ => True)
  · apply steady_whenever
    · exact fun _ => steady_receipt _ _
    · exact fun _ _ _ => trivial
  · exact fun _ => steady_pure _ fun _ _ => trivial

theorem steady_preview (ordinary : (Act.preview shareId env).ordinary v s) :
    Steady (· = s) (getReceivedShareContent v shareId env) (fun _ _ => True) := by
  apply steady_inspect
  rintro s rfl
  apply steady_current
  intro share found
  apply steady_bind (R := fun _ => (· = s)) (steady_require fun _ _ same => same)
  intro _
  apply steady_sealed
  intro file opened
  apply steady_bind (steady_fetched found (sealed_chunks opened))
  intro localPaths
  apply steady_bind (R := fun _ => Fresh v env.io.fetching file.chunkUuids) (steady_face fun _ fresh => fresh)
  intro _
  apply steady_bind (R := fun _ _ => True)
  · refine steady_closing (?_ : Steady _ _ fun _ _ => True) fun _ _ _ => trivial
    apply steady_bind (steady_decrypt_fetched (ordinary share file found opened))
    intro _
    apply steady_bind (R := fun _ _ => True) (steady_face fun _ _ => trivial)
    intro _
    apply steady_inspect
    intro w _
    exact steady_demand (sound_refusing _) fun _ _ _ _ => trivial
  · exact fun _ => steady_pure _ fun _ _ => trivial

def Admitted (v : Setting) (s : Recipient) : Prop := ∀ row ∈ s.received, isUuidV4 v.readers row.shareId = true

def Added (v : Setting) (io : Importing) (s : Recipient) (row : ReceivedShare) (t : Recipient) : Prop :=
  isUuidV4 v.readers row.shareId = true ∧
    Confined ((Act.importShare io).allows v s) {s with received := s.received ++ [row]} t

-- A receipt is best effort: it never fails.
theorem receipt_leads {io : Receipting} {E : Recipient → Prop} (fits : ReceiptAllows v allowed io) (s : Recipient) :
    Leads (Confined allowed s) (writeReceiptBlob v cloudEndpoint io) (fun _ => Confined allowed s) E (Confined allowed s) := by
  unfold writeReceiptBlob
  split
  · apply leads_whenever
    · exact fun _ => leads_ignoring (leads_keeps confined_trans (keeps_send_receipt fits))
    · exact fun _ _ before => before
  · exact leads_pure () fun _ before => before

theorem import_share_leads (s : Recipient) :
    Leads (· = s) (importShare v io) (Added v io s) (· = s) (fun t => t = s ∨ ∃ row, Added v io s row t) := by
  have receipt : ReceiptAllows v ((Act.importShare io).allows v s) io.receipt :=
    ⟨.inr ⟨_,.inl rfl,rfl⟩,.inr ⟨_,.inr rfl,rfl⟩⟩
  apply leads_bind (R := fun _ => (· = s)) (leads_demand (fun _ _ _ same => same) (fun _ _ _ same => same))
  intro wire
  apply leads_bind (R := fun _ => (· = s)) (leads_demand (fun _ _ _ same => same) (fun _ _ _ same => same))
  intro secret
  apply leads_bind
  · apply leads_relabel
    apply leads_mono (import_leads s) (fun _ same => same) (fun _ _ done => done) (fun _ same => same)
    exact fun _ same => .inl same
  · intro row
    apply leads_given
    intro valid
    apply leads_bind (R := fun _ => Added v io s row)
    · apply leads_whenever
      · intro _
        apply leads_mono (receipt_leads receipt {s with received := s.received ++ [row]})
        · rintro _ rfl
          exact confined_refl _
        · exact fun _ _ kept => ⟨valid,kept⟩
        · exact fun _ same => same
        · exact fun _ kept => .inr ⟨row,valid,kept⟩
      · rintro _ _ rfl
        exact ⟨valid,confined_refl _⟩
    · exact fun _ => leads_pure row fun _ added => added

-- What a user has chosen for the text of a file. A preview has a directory of its own.
def Act.chosen : Act → Path → Prop
  | .importShare _,_ => False
  | .download _ destination _,path => path = destination
  | .preview _ env,path => path.startsWith env.tempDir = true

-- A command that panics nowhere, finds nothing in the way of its temporary file and
-- works under no name of a blob that the recipient's vault has staged.
structure Act.Safe (v : Setting) (own : Text → Prop) (s : Recipient) (act : Act) : Prop where
  ordinary : act.ordinary v s
  tidy : act.tidy s
  apart : ∀ name, own name → ¬ act.working v s name

-- One command from one state.
structure Harmless (v : Setting) (own : Text → Prop) (s : Recipient) (act : Act) : Prop where
  -- Only its own files in the staging directory, and what the user chose.
  confined : ∀ path, (perform v act s).2.disk path ≠ s.disk path →
    act.chosen path ∨ ∃ name, Plain name ∧ act.working v s name ∧ path = v.staging.join name
  -- Never a blob staged flat, waiting in `pending/` or kept in `cache/`.
  flat : ∀ name, own name → Plain name → ¬ act.chosen (v.staging.join name) →
    (perform v act s).2.disk (v.staging.join name) = s.disk (v.staging.join name)
  staged : ∀ place ∈ [['p','e','n','d','i','n','g'],['c','a','c','h','e']], ∀ name, Plain name →
    ¬ act.chosen ((v.staging.join place).join name) →
    (perform v act s).2.disk ((v.staging.join place).join name) = s.disk ((v.staging.join place).join name)
  table : ∀ e, (perform v act s).1 = .failed e → (perform v act s).2.received = s.received
  calm : (perform v act s).1 ≠ .failed .panic

theorem wrapped_state {c : Command Recipient (Fault ReceiveError) α} (wrap : α → Response) (s : Recipient) :
    ((c >>= fun a => pure (wrap a) : Command Recipient (Fault ReceiveError) Response) s).2 = (c s).2 := by
  rcases here : c s with ⟨_ | _ | _,t⟩
  · rw [bind_done here]
    rfl
  · rw [bind_failed here]
  · rw [bind_stopped here]

theorem wrapped_failed {c : Command Recipient (Fault ReceiveError) α} (wrap : α → Response)
    (failed : ((c >>= fun a => pure (wrap a) : Command Recipient (Fault ReceiveError) Response) s).1 = .failed e) :
    (c s).1 = .failed e := by
  rcases here : c s with ⟨_ | _ | _,t⟩
  · rw [bind_done here] at failed
    cases failed
  · rw [bind_failed here] at failed
    cases failed
    rfl
  · rw [bind_stopped here] at failed
    cases failed

theorem failed_wrapped {c : Command Recipient (Fault ReceiveError) α} (wrap : α → Response) (failed : (c s).1 = .failed e) :
    ((c >>= fun a => pure (wrap a) : Command Recipient (Fault ReceiveError) Response) s).1 = .failed e := by
  rcases here : c s with ⟨_ | _ | _,t⟩ <;> rw [here] at failed
  · cases failed
  · cases failed
    rw [bind_failed here]
  · cases failed

theorem import_ends (s : Recipient) : (perform v (.importShare io) s).2 = s ∨
    ∃ row, Added v io s row (perform v (.importShare io) s).2 := by
  have owed : Owes (Added v io s) (· = s) (fun t => t = s ∨ ∃ row, Added v io s row t) (importShare v io s) :=
    import_share_leads s s rfl
  rw [perform,wrapped_state]
  rcases here : importShare v io s with ⟨row | e | _,t⟩ <;> rw [here] at owed
  · exact .inr ⟨row,owed⟩
  · exact .inl owed
  · exact owed

theorem perform_disk (v : Setting) (s : Recipient) (act : Act) :
    ∀ path, ¬ act.allows v s path → (perform v act s).2.disk path = s.disk path := by
  cases act with
  | importShare io =>
    intro path outside
    have ends : _ ∨ ∃ row, Added v io s row _ := import_ends s
    rcases ends with same | ⟨row,_,kept⟩
    · rw [same]
    · exact kept.disk path outside
  | download shareId destination io =>
    rw [perform,wrapped_state]
    exact (download_confined s).disk
  | preview shareId env =>
    rw [perform,wrapped_state]
    exact (preview_confined s).disk

theorem perform_received (v : Setting) (s : Recipient) (act : Act) : (perform v act s).2.received = s.received ∨
    ∃ row, (perform v act s).2.received = s.received ++ [row] ∧ isUuidV4 v.readers row.shareId = true := by
  cases act with
  | importShare io =>
    have ends : _ ∨ ∃ row, Added v io s row _ := import_ends s
    rcases ends with same | ⟨row,valid,kept⟩
    · rw [same]
      exact .inl rfl
    · exact .inr ⟨row,kept.received,valid⟩
  | download shareId destination io =>
    rw [perform,wrapped_state]
    exact .inl (download_confined s).received
  | preview shareId env =>
    rw [perform,wrapped_state]
    exact .inl (preview_confined s).received

theorem perform_failed (failed : (perform v act s).1 = .failed e) : (perform v act s).2.received = s.received := by
  cases act with
  | importShare io =>
    have owed : Owes (Added v io s) (· = s) (fun t => t = s ∨ ∃ row, Added v io s row t) (importShare v io s) :=
      import_share_leads s s rfl
    have failed := wrapped_failed _ failed
    rw [perform,wrapped_state]
    rcases here : importShare v io s with ⟨row | e | _,t⟩ <;> rw [here] at owed failed
    · cases failed
    · exact congrArg Recipient.received owed
    · cases failed
  | download shareId destination io =>
    rw [perform,wrapped_state]
    exact (download_confined s).received
  | preview shareId env =>
    rw [perform,wrapped_state]
    exact (preview_confined s).received

theorem perform_calm {act : Act} (ordinary : act.ordinary v s) : (perform v act s).1 ≠ .failed .panic := by
  intro failed
  cases act with
  | importShare io => exact (steady_import ordinary s trivial _ _ rfl).1 (wrapped_failed _ failed)
  | download shareId destination io => exact (steady_download ordinary s rfl _ _ rfl).1 (wrapped_failed _ failed)
  | preview shareId env => exact (steady_preview ordinary s rfl _ _ rfl).1 (wrapped_failed _ failed)

theorem working_plain {act : Act} (admitted : Admitted v s) (mine : act.working v s name) : Plain name := by
  have fetched : ∀ shareId, FetchNames v s shareId name → Plain name := by
    rintro shareId ⟨share,found,rfl | ⟨chunk,_,valid,rfl⟩⟩
    · have member := given_ok.mp found
      apply conf_plain
      have named := List.find?_some member
      rw [← of_decide_eq_true named]
      exact admitted share (List.mem_of_find?_eq_some member)
    · exact blob_plain valid
  have receipt : ∀ io : Receipting, ReceiptNames io name → Plain name := by
    rintro io (rfl | rfl)
    · exact (receipt_plain _).1
    · exact (receipt_plain _).2
  cases act with
  | importShare io => exact receipt _ mine
  | download shareId destination io => exact mine.elim (fetched _) (receipt _)
  | preview shareId env => exact fetched _ mine

theorem download_clears {io : Downloading} (clear : s.disk (destination.withExtension tmpExtension) = none)
    (tidies : io.decrypting.Tidies) (apart : destination.withExtension tmpExtension ≠ destination)
    (foreign : ∀ name, (Act.download shareId destination io).working v s name →
      destination.withExtension tmpExtension ≠ v.staging.join name)
    (calm : (downloadReceivedShare v shareId destination io s).1 ≠ .failed .panic) :
    (downloadReceivedShare v shareId destination io s).2.disk (destination.withExtension tmpExtension) = none := by
  have elsewhere : ∀ t u : Recipient, Confined (· ≠ destination.withExtension tmpExtension) t u →
      t.disk (destination.withExtension tmpExtension) = none → u.disk (destination.withExtension tmpExtension) = none :=
    fun t u kept before => (kept.disk _ (fun other => other rfl)).trans before
  have receipt : ReceiptAllows v (· ≠ destination.withExtension tmpExtension) io.receipt :=
    ⟨fun same => foreign _ (.inr (.inl rfl)) same.symm,fun same => foreign _ (.inr (.inr rfl)) same.symm⟩
  unfold downloadReceivedShare at calm ⊢
  rw [bind_inspect] at calm ⊢
  cases current : currentShare s shareId io.now with
  | error e => exact clear
  | ok share =>
    rw [current] at calm
    cases opened : sealedFile v share with
    | error e =>
      change ((demand (refusing (sealedFile v share)) >>= _) s).2.disk _ = none
      rw [opened]
      exact clear
    | ok file =>
      have found := current_found current
      have fits : FetchAllows v (· ≠ destination.withExtension tmpExtension) shareId share := by
        refine ⟨fun same => foreign _ (.inl ⟨share,found,.inl rfl⟩) same.symm,?_⟩
        intro chunk member valid same
        exact foreign _ (.inl ⟨share,found,.inr ⟨chunk,member,valid,rfl⟩⟩) same.symm
      change ((demand (refusing (sealedFile v share)) >>= _) s).1 ≠ _ at calm
      change ((demand (refusing (sealedFile v share)) >>= _) s).2.disk _ = none
      rw [opened] at calm ⊢
      change ((relabel (Fault.map ReceiveError.sharing) (fetchReceivedShareToLocal v io.fetching shareId) >>= _) s).1 ≠ _ at calm
      change ((relabel (Fault.map ReceiveError.sharing) (fetchReceivedShareToLocal v io.fetching shareId) >>= _) s).2.disk _ = none
      have owed : Owes _ _ _ (relabel (Fault.map ReceiveError.sharing) (fetchReceivedShareToLocal v io.fetching shareId) s) :=
        leads_relabel (fetch_leads s found fits) s rfl
      rcases ran : relabel (Fault.map ReceiveError.sharing) (fetchReceivedShareToLocal v io.fetching shareId) s
        with ⟨paths | e | _,t⟩ <;> rw [ran] at owed
      · rw [bind_done ran] at calm ⊢
        have rest : Ends (fun u : Recipient => u.disk (destination.withExtension tmpExtension) = none)
            (decryptFetched v destination file paths io >>= fun _ => do
              whenever (receiptRequested share) (writeReceiptBlob v share.cloudEndpoint io.receipt)
              pure share.fileName) := by
          apply ends_bind
          · apply ends_closing (ends_relabel (decrypt_clears tidies apart))
            intro way u before
            rcases way with _ | _ | _
            · exact removes_clear before
            · exact removes_clear before
            · exact before
          · intro _
            apply ends_bind (ends_keeps (keeps_whenever confined_refl (keeps_receipt receipt)) elsewhere)
            exact fun _ => ends_keeps (keeps_pure confined_refl _) elsewhere
        exact rest t (elsewhere s t owed.1 clear) calm
      · rw [bind_failed ran]
        exact elsewhere s t owed clear
      · rw [bind_stopped ran]
        exact elsewhere s t owed clear

theorem perform_confined {act : Act} (admitted : Admitted v s) (safe : act.Safe v own s) :
    ∀ path, (perform v act s).2.disk path ≠ s.disk path →
      act.chosen path ∨ ∃ name, Plain name ∧ act.working v s name ∧ path = v.staging.join name := by
  intro path changed
  by_contra outside
  obtain ⟨unchosen,foreign⟩ := not_or.mp outside
  have foreign : ∀ name, act.working v s name → path ≠ v.staging.join name :=
    fun name mine same => foreign ⟨name,working_plain admitted mine,mine,same⟩
  have allowed : act.allows v s path := by
    by_contra refused
    exact changed (perform_disk v s act path refused)
  rcases allowed with target | ⟨name,mine,same⟩
  · cases act with
    | importShare io => exact target
    | preview shareId env => exact unchosen target
    | download shareId destination io =>
      rcases target with same | rfl
      · exact unchosen same
      · rcases safe.tidy with same | ⟨clear,tidies⟩
        · exact unchosen same
        · have calm := perform_calm safe.ordinary
          rw [perform,wrapped_state,clear] at changed
          exact changed (download_clears clear tidies unchosen foreign fun failed => calm (by
            rw [perform]
            exact failed_wrapped _ failed))
  · exact foreign name mine same

theorem safe_harmless (admitted : Admitted v s) {act : Act} (safe : act.Safe v own s) : Harmless v own s act := by
  have confined := perform_confined admitted safe
  refine ⟨confined,?_,?_,fun _ => perform_failed,perform_calm safe.ordinary⟩
  · intro name mine plain unchosen
    by_contra changed
    rcases confined _ changed with chosen | ⟨other,plainOther,works,same⟩
    · exact unchosen chosen
    · rw [join_plain _ plain,join_plain _ plainOther] at same
      have last := congrArg (fun path => path.parts.getLast?) same
      simp only [List.getLast?_concat,Option.some.injEq] at last
      exact safe.apart name mine (last ▸ works)
  · intro place member name plain unchosen
    have plainPlace : Plain place := by
      rcases List.mem_cons.mp member with rfl | last
      · decide
      · rw [List.mem_singleton.mp last]
        decide
    by_contra changed
    rcases confined _ changed with chosen | ⟨mine,plainMine,_,same⟩
    · exact unchosen chosen
    · rw [join_plain _ plain,join_plain _ plainPlace,join_plain _ plainMine] at same
      have sizes := congrArg (fun path => path.parts.length) same
      simp at sizes

theorem admitted_step (admitted : Admitted v s) (taken : step v s act = some t) : Admitted v t := by
  cases Option.some.inj taken
  intro row member
  rcases perform_received v s act with same | ⟨new,same,valid⟩
  · rw [same] at member
    exact admitted row member
  · rw [same] at member
    rcases List.mem_append.mp member with before | last
    · exact admitted row before
    · rw [List.mem_singleton.mp last]
      exact valid

-- Every command of a run that is safe where it runs is harmless there.
theorem received_shares_harmless (v : Setting) (own : Text → Prop) (disk : Path → Option Bytes) (acts : List Act) :
    Along (step v) (fun s => ∀ act : Act, act.Safe v own s → Harmless v own s act) ⟨[],disk⟩ acts := by
  have along : Along (step v) (Admitted v) ⟨[],disk⟩ acts := by
    apply along_invariant
    · exact fun s act next admitted taken => admitted_step admitted taken
    · intro row member
      cases member
  exact along_mono (fun s admitted act safe => safe_harmless admitted safe) along

def panicked : Ending (Fault ReceiveError) α → Bool
  | .failed .panic => true
  | _ => false

def sampleText : String := "3f2b8c1e-0a4d-4e6f-8a9b-0c1d2e3f4a5b"

def sampleKey : String := "AAAAAAAAAAAAAAAAAAAAAAAAAAAAAAAAAAAAAAAAAAA="

def samplePayload (chunks : List String) (chunkSize : UInt32) (cloudEndpoint : Json) (fileSize : UInt64) : SharePackagePayload :=
  {shareId := sampleText,fileId := sampleText,fileName := "report.pdf",chunkCount := UInt32.ofNat chunks.length,
   chunkSize := chunkSize,chunkUuids := chunks,fileKey := sampleKey,senderPublicKey := sampleKey,
   cloudEndpoint := cloudEndpoint,fileSize := fileSize,expiresAt := none}

theorem sample_unslashed : '/' ∉ sampleText.toList := by decide +kernel

theorem sample_parsed {text : String} {id : Uuid}
    (parsed : (if text = sampleText then some 0x3f2b8c1e0a4d4e6f8a9b0c1d2e3f4a5b else none) = some id) : '/' ∉ text.toList := by
  split at parsed
  · rename_i same
    rw [same]
    exact sample_unslashed
  · cases parsed

def sampleReaders (payload : SharePackagePayload) : Readers :=
  ⟨fun _ => some payload,fun text => if text = sampleText then some 0x3f2b8c1e0a4d4e6f8a9b0c1d2e3f4a5b else none,
    sample_parsed⟩

def samplePrimitives : HpkePrimitives :=
  ⟨fun key => key,fun _ _ => byteKey 1,fun _ _ => zeroBlock 32,fun _ _ n => some (zeroBlock n),fun _ => zeroBlock 32,
    fun _ _ _ => 0⟩

def stagingDir : Path := ⟨true,[['s','t','a','g','i','n','g']]⟩

def sampleSetting (payload : SharePackagePayload) : Setting :=
  ⟨sampleReaders payload,plainPrimitives,samplePrimitives,fun _ => none,byteKey 5,.ok (byteKey 2),stagingDir,false⟩

def noReceipt : Receipting := ⟨0,none,.goes,.goes,.goes,fun _ => true⟩

def sampleImport : Importing := ⟨some (List.replicate 64 0),byteKey 0,100,.goes,noReceipt⟩

def zerosBlob (n : Nat) : Bytes := List.replicate (40 + n) 0

def sampleDownload (n : Nat) : Downloading :=
  ⟨200,⟨.goes,.goes,fun _ _ => ⟨some (zerosBlob n),.goes⟩,fun _ => true,fun _ => true⟩,
    ⟨.goes,fun _ => .goes,fun _ => .goes,.goes,true,.goes⟩,noReceipt⟩

def reportPath : Path := ⟨true,[['h','o','m','e'],['r','e','p','o','r','t','.','p','d','f']]⟩

def besidePath : Path := ⟨true,[['h','o','m','e'],['r','e','p','o','r','t','.','t','m','p']]⟩

def stagedPath : Path := stagingDir.join (blobName sampleText)

def ownDisk : Path → Option Bytes := fun path =>
  if path = besidePath then some [7] else if path = stagedPath then some [9] else none

def webdavEndpoint : Json := .object [("provider",.text "webdav"),("path_prefix",.text "shared/")]

def wholeSetting : Setting := sampleSetting (samplePayload [sampleText,sampleText] 16 webdavEndpoint 20)

def ownBlob (name : Text) : Prop := name = ['o','w','n','.','b','l','o','b']

def imported : Option Recipient :=
  run (step wholeSetting) ⟨[],fun path => if path = stagingDir.join ['o','w','n','.','b','l','o','b'] then some [9] else none⟩
    [.importShare sampleImport]

theorem zeros_whole (opened : decryptChunk plainPrimitives (zerosBlob 16) key fileId index = .ok padded) :
    padded.length = 16 := by
  have long : ¬ (zerosBlob 16).length < 24 + 16 := by decide
  rw [decryptChunk,if_neg long] at opened
  cases found : openWire plainPrimitives.cipher key (buildChunkAad fileId index) (zerosBlob 16) with
  | none =>
    rw [found] at opened
    cases opened
  | some plaintext =>
    rw [found] at opened
    cases opened
    have parts : split 24 16 (zerosBlob 16) =
        some (⟨List.replicate 24 0,rfl⟩,List.replicate 16 0,⟨List.replicate 16 0,rfl⟩) := by decide
    rw [openWire,parts] at found
    unfold plainPrimitives plain at found
    dsimp only at found
    split at found
    · cases found
      rfl
    · cases found

-- Two whole chunks are imported and downloaded, and the vault's own blob stays.
theorem whole_share_harmless : ∃ s, imported = some s ∧ s.received.length = 1 ∧
    (Act.download sampleText reportPath (sampleDownload 16)).Safe wholeSetting ownBlob s ∧
    Harmless wholeSetting ownBlob s (.download sampleText reportPath (sampleDownload 16)) ∧
    (perform wholeSetting (.download sampleText reportPath (sampleDownload 16)) s).2.disk reportPath =
      some (List.replicate 20 0) := by
  have rows : imported.map (fun s => s.received.map fun row => (row.shareId,row.chunkSize,row.chunkUuids)) =
      some [(sampleText,16,[sampleText,sampleText])] := by decide +kernel
  have content : imported.map (fun s =>
      ((perform wholeSetting (.download sampleText reportPath (sampleDownload 16)) s).2.disk reportPath,
        s.disk besidePath)) = some (some (List.replicate 20 0),none) := by decide +kernel
  obtain ⟨s,ran,rows⟩ := Option.map_eq_some_iff.mp rows
  rw [ran,Option.map_some,Option.some.injEq] at content
  obtain ⟨content,beside⟩ := Prod.mk.inj content
  have counted : s.received.length = 1 := by
    have sizes := congrArg List.length rows
    simpa using sizes
  have safe : (Act.download sampleText reportPath (sampleDownload 16)).Safe wholeSetting ownBlob s := by
    have only : ∀ share ∈ s.received, share.chunkSize = 16 ∧ share.chunkUuids = [sampleText,sampleText] := by
      intro share member
      have inside := List.mem_map_of_mem (f := fun row : ReceivedShare => (row.shareId,row.chunkSize,row.chunkUuids)) member
      rw [rows,List.mem_singleton] at inside
      exact ⟨congrArg (·.2.1) inside,congrArg (·.2.2) inside⟩
    have found_row {share : ReceivedShare} (found : getReceivedShare s sampleText = .ok share) : share ∈ s.received :=
      List.mem_of_find?_eq_some (given_ok.mp found)
    refine ⟨?_,.inr ⟨beside,?_⟩,?_⟩
    · intro share file found opened i remotePath blob index padded left _ whole
      cases Option.some.inj left
      rw [zeros_whole whole,sealed_size opened,(only share (found_row found)).1]
      decide
    · refine ⟨rfl,rfl,by decide,?_,?_⟩
      · intro i same
        cases same
      · intro i left same
        cases same
    · rintro name rfl (⟨share,found,same | ⟨chunk,member,_,same⟩⟩ | same | same)
      · revert same
        decide +kernel
      · rw [(only share (found_row found)).2] at member
        simp only [List.mem_cons,List.not_mem_nil,or_false,or_self] at member
        subst member
        revert same
        decide +kernel
      · revert same
        decide +kernel
      · revert same
        decide +kernel
  have along := received_shares_harmless wholeSetting ownBlob
    (fun path => if path = stagingDir.join ['o','w','n','.','b','l','o','b'] then some [9] else none)
    [.importShare sampleImport]
  exact ⟨s,ran,counted,safe,along_last along ran _ safe,content⟩

-- A file of the user's beside the destination is lost, and a staged blob of the vault's
-- that a chunk names. A sender whose endpoint is a text stops the import; one whose
-- chunks are shorter than they are said to be, the download.
theorem share_harms_recipient :
    (besidePath ≠ reportPath ∧ besidePath.startsWith stagingDir = false ∧ ownDisk besidePath = some [7] ∧
      (run (step (sampleSetting (samplePayload [] 0 webdavEndpoint 0))) ⟨[],ownDisk⟩
        [.importShare sampleImport,.download sampleText reportPath (sampleDownload 0)]).map (·.disk besidePath) = some none) ∧
    (ownDisk stagedPath = some [9] ∧ (run (step (sampleSetting (samplePayload [sampleText] 16 webdavEndpoint 16))) ⟨[],ownDisk⟩
        [.importShare sampleImport,.download sampleText reportPath (sampleDownload 16)]).map (·.disk stagedPath) = some none) ∧
    panicked (perform (sampleSetting (samplePayload [] 0 (.text "b2") 1)) (.importShare sampleImport) ⟨[],ownDisk⟩).1 = true ∧
    ((step (sampleSetting (samplePayload [sampleText,sampleText] 16 webdavEndpoint 20)) ⟨[],ownDisk⟩
        (.importShare sampleImport)).map fun s =>
      panicked (perform (sampleSetting (samplePayload [sampleText,sampleText] 16 webdavEndpoint 20))
        (.download sampleText reportPath (sampleDownload 0)) s).1) = some true := by
  refine ⟨⟨by decide,by decide,?_,?_⟩,⟨?_,?_⟩,?_,?_⟩
  all_goals decide +kernel

end ArxRuna.Sharing.Received
