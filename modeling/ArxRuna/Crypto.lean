import ArxRuna.Library.Aead
import ArxRuna.Library.Fallible
namespace ArxRuna.Crypto
open Library.Aead Library.Fallible

-- 128-bit identifiers. Only equality, order and the sixteen bytes are used.
abbrev Uuid := Nat
abbrev FileKey := Block 32
abbrev KeyEncryptionKey := Block 32
abbrev WrappedFileKey := Block 72
abbrev Nonce := Block 24

inductive CryptoError where
  | decryptionFailed
  | invalidBlobFormat (expected actual : Nat)
  | checksumMismatch
  deriving DecidableEq, Repr

-- XChaCha20-Poly1305 and BLAKE3 come from other packages.
structure Primitives where
  cipher : Cipher 32 24 16
  blake3 : Bytes → Bytes

def uuidBytes (id : Uuid) : Bytes :=
  (List.range 16).map fun i => UInt8.ofNat (id >>> (8 * (15 - i)))

def indexBytes (index : Nat) : Bytes :=
  (List.range 4).map fun i => UInt8.ofNat (index >>> (8 * (3 - i)))

def buildChunkAad (fileId : Uuid) (chunkIndex : Nat) : Bytes := uuidBytes fileId ++ indexBytes chunkIndex

variable (prims : Primitives)

def computeChecksum (encryptedBlob : Bytes) : Bytes := prims.blake3 encryptedBlob

def verifyChecksum (blob expected : Bytes) : Except CryptoError Bytes :=
  if computeChecksum prims blob = expected then .ok blob else .error .checksumMismatch

def wrapFileKey (fileKey : FileKey) (fileId : Uuid) (kek : KeyEncryptionKey) (nonce : Nonce) :
    WrappedFileKey :=
  ⟨sealWire prims.cipher kek nonce (uuidBytes fileId) fileKey.1,by rw [sealWire_length,fileKey.2]⟩

-- The unwrapped text has the length of the ciphertext, so the last branch is
-- never taken for a real cipher; the model does not rely on that.
def unwrapFileKey (wrapped : WrappedFileKey) (fileId : Uuid) (kek : KeyEncryptionKey) :
    Except CryptoError FileKey :=
  match openWire prims.cipher kek (uuidBytes fileId) wrapped.1 with
  | none => .error .decryptionFailed
  | some bytes =>
    match block 32 bytes with
    | none => .error .decryptionFailed
    | some fileKey => .ok fileKey

def encryptChunk (plaintext : Bytes) (fileKey : FileKey) (fileId : Uuid) (chunkIndex : Nat)
    (nonce : Nonce) : Bytes :=
  sealWire prims.cipher fileKey nonce (buildChunkAad fileId chunkIndex) plaintext

def decryptChunk (blob : Bytes) (fileKey : FileKey) (fileId : Uuid) (chunkIndex : Nat) :
    Except CryptoError Bytes :=
  if blob.length < 24 + 16 then .error (.invalidBlobFormat (24 + 16) blob.length)
  else match openWire prims.cipher fileKey (buildChunkAad fileId chunkIndex) blob with
    | none => .error .decryptionFailed
    | some plaintext => .ok plaintext

@[simp] theorem verify_computed (blob : Bytes) :
    verifyChecksum prims blob (computeChecksum prims blob) = .ok blob := by
  simp [verifyChecksum]

@[simp] theorem unwrap_wrap (fileKey : FileKey) (fileId : Uuid) (kek : KeyEncryptionKey) (nonce : Nonce) :
    unwrapFileKey prims (wrapFileKey prims fileKey fileId kek nonce) fileId kek = .ok fileKey := by
  simp only [unwrapFileKey,wrapFileKey,openWire_sealWire,block_val]

@[simp] theorem decrypt_encrypt (plaintext : Bytes) (fileKey : FileKey) (fileId : Uuid)
    (chunkIndex : Nat) (nonce : Nonce) :
    decryptChunk prims (encryptChunk prims plaintext fileKey fileId chunkIndex nonce)
      fileKey fileId chunkIndex = .ok plaintext := by
  have long : ¬ (encryptChunk prims plaintext fileKey fileId chunkIndex nonce).length < 24 + 16 := by
    rw [encryptChunk,sealWire_length]
    omega
  rw [decryptChunk,if_neg long,encryptChunk,openWire_sealWire]

-- Evaluable primitives for fixed inputs.
def plainPrimitives : Primitives := ⟨plain 32 24 16,fun blob => blob⟩

def byteKey (value : UInt8) : Block size := ⟨List.replicate size value,List.length_replicate⟩

end ArxRuna.Crypto
