import ArxRuna.Pipeline.Range
import ArxRuna.Pipeline.Tamper
import ArxRuna.Sharing.RemotePath
import ArxRuna.Vault.Transfer
namespace ArxRuna.Vault.VideoStream
open Library.Aead Library.Fallible Library.Texts Crypto Store.Tables Store.Operations Store.Staging Epoch.Flush
open Pipeline.Decrypt Pipeline.Range
open Sharing.RemotePath (Text)
open Vault.Disk Vault.Transfer

def maxRangeBytes : Nat := 8 * 1024 * 1024

-- A header value is text if all of it is visible ASCII or a tab.
def isVisibleAscii (byte : UInt8) : Bool := 32 ≤ byte.toNat ∧ byte.toNat < 127 ∨ byte = 9

def toStr (value : Bytes) : Option Text :=
  if value.all isVisibleAscii then some (value.map fun byte => Char.ofNat byte.toNat) else none

def digitsValue (digits : Text) : Nat := digits.foldl (fun total digit => total * 10 + (digit.toNat - '0'.toNat)) 0

-- A number may have a plus in front.
def parseU64 (text : Text) : Option Nat :=
  let digits := if text.head? = some '+' then text.tail else text
  if digits ≠ [] ∧ digits.all Char.isDigit ∧ digitsValue digits < 2 ^ 64 then some (digitsValue digits) else none

def bytesUnit : Text := ['b','y','t','e','s','=']

-- The ends of the range, both included, and whether the request has a header. The
-- sums are those of 64 bit numbers.
def parseRangeHeader (header : Option Bytes) (fileSize : Nat) : Except Unit (Nat × Nat × Bool) := do
  let lastByte := (fileSize + (2 ^ 64 - 1)) % 2 ^ 64
  match header with
  | none => pure (0,lastByte,false)
  | some value =>
    let text ← given (toStr value) ()
    let rest ← given (text.dropPrefix? bytesUnit) ()
    let halves ← given (splitOnce '-' rest) ()
    let start ← given (parseU64 halves.1) ()
    ensure (start < fileSize) ()
    if halves.2 = [] then pure (start,min ((start + maxRangeBytes + (2 ^ 64 - 1)) % 2 ^ 64) lastByte,true)
    else
      let requested ← given (parseU64 halves.2) ()
      ensure (start ≤ requested) ()
      pure (start,min requested lastByte,true)

variable (prims : Primitives) (kek : KeyEncryptionKey)

def downloadFileRangeToMemory (v : Workspace) (nodeId : Uuid) (rangeStart rangeEnd : Nat) :
    Except DownloadError Bytes := do
  let located ← locateContent prims kek v.manifest nodeId
  match located with
  | .epoch _ => .error (.storage (.constraintViolation
      "range streaming is not supported for epoch-packed files; sync the vault first"))
  | .flat node fileKey chunks =>
    (decryptFileRangeToMemory prims v node.nodeId fileKey node.sizeBytes chunks rangeStart rangeEnd).mapError .storage

-- A response without its media type.
inductive Response where
  | plainError (status : Nat) (body : String)
  | content (status contentLength : Nat) (contentRange : Option (Nat × Nat × Nat)) (body : Bytes)
  deriving DecidableEq, Repr

-- What follows the checks of the session and of the path. `fetched` is how fetching
-- the blobs that are only in the cloud ended.
def serveVideoRange (v : Workspace) (nodeId : Uuid) (header : Option Bytes) (fetched : Bool) : Response :=
  match getNode v.manifest nodeId with
  | .error _ => .plainError 404 "File not found"
  | .ok node =>
    if node.sizeBytes = 0 then .plainError 204 "Empty file"
    else if fetched = false then .plainError 503 "Cloud fetch failed"
    else match parseRangeHeader header node.sizeBytes with
      | .error _ => .plainError 416 "Invalid range"
      | .ok (rangeStart,rangeEnd,isRangeRequest) =>
        match downloadFileRangeToMemory prims kek v nodeId rangeStart rangeEnd with
        | .error _ => .plainError 500 "Decryption failed"
        | .ok bytes =>
          let contentLength := rangeEnd - rangeStart + 1
          if isRangeRequest then .content 206 contentLength (some (rangeStart,rangeEnd,node.sizeBytes)) bytes
          else .content 200 contentLength none bytes

variable {prims : Primitives} {kek : KeyEncryptionKey} {v : Workspace} {value : Bytes} {fileSize start stop : Nat}

theorem header_parts (accepted : parseRangeHeader (some value) fileSize = .ok (start,stop,ranged)) :
    ∃ startText endText, toStr value = some (bytesUnit ++ startText ++ '-' :: endText) ∧ '-' ∉ startText ∧
      parseU64 startText = some start ∧ start < fileSize ∧ ranged = true ∧
      ((endText = [] ∧ stop = min ((start + maxRangeBytes + (2 ^ 64 - 1)) % 2 ^ 64) ((fileSize + (2 ^ 64 - 1)) % 2 ^ 64)) ∨
        ∃ requested, parseU64 endText = some requested ∧ start ≤ requested ∧
          stop = min requested ((fileSize + (2 ^ 64 - 1)) % 2 ^ 64)) := by
  simp only [parseRangeHeader,bind_ok,given_ok,ensure_ok] at accepted
  obtain ⟨text,shown,rest,unit,⟨startText,endText⟩,split,offset,parsed,_,inside,accepted⟩ := accepted
  obtain ⟨whole,free⟩ := splitOnce_parts split
  have same : text = bytesUnit ++ startText ++ '-' :: endText := by
    obtain ⟨front,cut,matched⟩ := List.dropPrefix?_eq_some_iff.mp unit
    rw [cut,eq_of_beq matched,whole,List.append_assoc]
  refine ⟨startText,endText,by rw [shown,same],free,?_⟩
  split at accepted
  · rename_i bare
    simp only [pure_ok,Prod.mk.injEq] at accepted
    obtain ⟨rfl,rfl,rfl⟩ := accepted
    exact ⟨parsed,inside,rfl,.inl ⟨bare,rfl⟩⟩
  · simp only [bind_ok,given_ok,ensure_ok,pure_ok,Prod.mk.injEq] at accepted
    obtain ⟨requested,closed,_,order,rfl,rfl,rfl⟩ := accepted
    exact ⟨parsed,inside,rfl,.inr ⟨requested,closed,order,rfl⟩⟩

-- The interval of an accepted header, where the sums stay below `2 ^ 64`.
theorem header_interval (room : fileSize + maxRangeBytes ≤ 2 ^ 64)
    (accepted : parseRangeHeader (some value) fileSize = .ok (start,stop,ranged)) :
    start ≤ stop ∧ stop < fileSize ∧ ∃ startText endText,
      toStr value = some (bytesUnit ++ startText ++ '-' :: endText) ∧ '-' ∉ startText ∧ parseU64 startText = some start ∧
        (endText = [] → stop - start + 1 ≤ maxRangeBytes) := by
  obtain ⟨startText,endText,shown,free,parsed,inside,_,ends⟩ := header_parts accepted
  have large : 0 < maxRangeBytes := by decide
  have lastByte : (fileSize + (2 ^ 64 - 1)) % 2 ^ 64 = fileSize - 1 := by omega
  rw [lastByte] at ends
  rcases ends with ⟨bare,same⟩ | ⟨requested,closed,order,same⟩
  · have stops : (start + maxRangeBytes + (2 ^ 64 - 1)) % 2 ^ 64 = start + maxRangeBytes - 1 := by omega
    rw [stops] at same
    exact ⟨by omega,by omega,startText,endText,shown,free,parsed,fun _ => by omega⟩
  · refine ⟨by omega,by omega,startText,endText,shown,free,parsed,fun bare => ?_⟩
    rw [bare] at closed
    cases closed

-- What is served of a file that opens is its interval, of the length announced.
theorem served_slice (opened : downloadFileToMemory prims kek v nodeId = .ok out)
    (served : downloadFileRangeToMemory prims kek v nodeId start stop = .ok body) :
    body = (out.drop start).take (stop - start + 1) ∧ body.length = stop - start + 1 := by
  obtain ⟨located,there,opened⟩ := bind_ok.mp opened
  obtain ⟨located',there',served⟩ := bind_ok.mp served
  cases there.symm.trans there'
  cases located with
  | epoch chunk => cases served
  | flat node fileKey chunks =>
    dsimp only [decryptToMemory] at opened served
    rw [Transfer.mapError_ok] at opened served
    by_cases inside : start ≤ stop ∧ stop < node.sizeBytes
    · rw [range_of_opened inside.1 inside.2 opened] at served
      cases served
      have length := opened_length opened
      refine ⟨rfl,?_⟩
      rw [List.length_take,List.length_drop]
      omega
    · rw [range_refused inside] at served
      cases served

-- A response with content is the slice of its interval, as long as it says.
theorem serve_content {header : Option Bytes} (opened : downloadFileToMemory prims kek v nodeId = .ok out)
    (served : serveVideoRange prims kek v nodeId header fetched = .content status contentLength contentRange body) :
    ∃ node start stop ranged, getNode v.manifest nodeId = .ok node ∧
      parseRangeHeader header node.sizeBytes = .ok (start,stop,ranged) ∧
      body = (out.drop start).take contentLength ∧ body.length = contentLength ∧
      contentRange = if ranged then some (start,stop,node.sizeBytes) else none := by
  unfold serveVideoRange at served
  split at served
  · cases served
  · rename_i node found
    split at served
    · cases served
    · split at served
      · cases served
      · split at served
        · cases served
        · rename_i start stop ranged accepted
          split at served
          · cases served
          · rename_i bytes taken
            obtain ⟨slice,length⟩ := served_slice opened taken
            refine ⟨node,start,stop,ranged,found,accepted,?_⟩
            split at served
            · rename_i asked
              cases served
              exact ⟨slice,length,(if_pos asked).symm⟩
            · rename_i absent
              cases served
              exact ⟨slice,length,(if_neg absent).symm⟩

-- A range of a file is its slice; the interval of a header is within the file,
-- starts where the header says and is capped where the header leaves its end open.
theorem ranges_agree (prims : Primitives) :
    (∀ v fileId fileKey fileSize records out, decryptFileToMemory prims v fileId fileKey fileSize records = .ok out →
      ∀ start stop, decryptFileRangeToMemory prims v fileId fileKey fileSize records start stop =
        if start ≤ stop ∧ stop < fileSize then .ok ((out.drop start).take (stop - start + 1))
        else .error (.constraintViolation "range is out of bounds for this file")) ∧
    (∀ value fileSize start stop ranged, fileSize + maxRangeBytes ≤ 2 ^ 64 →
      parseRangeHeader (some value) fileSize = .ok (start,stop,ranged) →
        start ≤ stop ∧ stop < fileSize ∧ ∃ startText endText,
          toStr value = some (bytesUnit ++ startText ++ '-' :: endText) ∧ '-' ∉ startText ∧
            parseU64 startText = some start ∧ (endText = [] → stop - start + 1 ≤ maxRangeBytes)) := by
  refine ⟨fun v fileId fileKey fileSize records out opened start stop => ?_,
    fun value fileSize start stop ranged room accepted => header_interval room accepted⟩
  split
  · rename_i inside
    exact range_of_opened inside.1 inside.2 opened
  · rename_i outside
    exact range_refused outside

-- `bytes=0-8388608`
def wholeHeader : Bytes := [98,121,116,101,115,61,48,45,56,51,56,56,54,48,56]

-- `bytes=18446744073709551000-`
def lateHeader : Bytes :=
  [98,121,116,101,115,61,49,56,52,52,54,55,52,52,48,55,51,55,48,57,53,53,49,48,48,48,45]

section Letter
open Pipeline.Tamper

theorem letter_opens :
    decryptFileToMemory marking letterVault 1 (byteKey 3) letter.length letterRecords = .ok letter := by
  have read : Pipeline.Encrypt.readChunkSizeBytes letterVault.manifest = .ok 131072 := rfl
  have staged := (Pipeline.Encrypt.inner_encrypted rfl letter_encrypted).staged (fun _ _ => rfl) (by decide)
  exact staged_opens read staged (by decide)

-- `bytes=131070-131072`
def letterHeader : Bytes := [98,121,116,101,115,61,49,51,49,48,55,48,45,49,51,49,48,55,50]

-- The range ends in the second chunk.
theorem letter_ranges_agree : decryptFileRangeToMemory marking letterVault 1 (byteKey 3) letter.length letterRecords
    131070 131072 = .ok [7,7,8] ∧ ∃ startText endText,
      toStr letterHeader = some (bytesUnit ++ startText ++ '-' :: endText) ∧ parseU64 startText = some 131070 := by
  have ranges := (ranges_agree marking).1 _ _ _ _ _ _ letter_opens 131070 131072
  have length : letter.length = 131074 := by
    rw [letter,List.length_append,filled,List.length_replicate]
    rfl
  have slice : (letter.drop 131070).take 3 = [7,7,8] := by
    rw [letter,filled,List.drop_append,List.drop_replicate,List.length_replicate]
    rfl
  rw [if_pos (by omega)] at ranges
  obtain ⟨_,_,startText,endText,shown,_,parsed,_⟩ :=
    (ranges_agree marking).2 letterHeader 131074 131070 131072 true (by decide) (by decide +kernel)
  exact ⟨ranges.trans (congrArg Except.ok slice),startText,endText,shown,parsed⟩

end Letter

-- A closed range is not capped, and the end of an open one wraps around near `2 ^ 64`.
theorem closed_range_uncapped :
    parseRangeHeader (some wholeHeader) 8388609 = .ok (0,8388608,true) ∧ maxRangeBytes < 8388608 - 0 + 1 ∧
      parseRangeHeader (some lateHeader) 18446744073709551615 = .ok (18446744073709551000,8387991,true) := by
  decide +kernel

end ArxRuna.Vault.VideoStream
