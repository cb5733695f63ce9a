import ArxRuna.Library.Faults
import ArxRuna.Sharing.Rows
namespace ArxRuna.Sharing.Hpke
open Library.Aead Library.Fallible Library.Faults Rows

abbrev X25519Key := Block 32
abbrev AeadKey := Block 32
abbrev AeadNonce := Block 24
abbrev CtxTag := Block 32

-- X25519, HKDF with SHA-256, BLAKE3 and the keystream of XChaCha20 come from other
-- packages. `keystream` gives the byte at a position.
structure HpkePrimitives where
  publicKey : X25519Key → X25519Key
  diffieHellman : X25519Key → X25519Key → Block 32
  extract : Bytes → Bytes → Block 32
  expand : Block 32 → Bytes → (n : Nat) → Option (Block n)
  blake3 : Bytes → Block 32
  keystream : AeadKey → AeadNonce → Nat → UInt8

-- "arx-runa-share", "HPKE-v1" and "arx-runa-ctx-v1"
def hpkeShareInfo : Bytes := [0x61,0x72,0x78,0x2D,0x72,0x75,0x6E,0x61,0x2D,0x73,0x68,0x61,0x72,0x65]

def versionLabel : Bytes := [0x48,0x50,0x4B,0x45,0x2D,0x76,0x31]

def ctxDomainLabel : Bytes := [0x61,0x72,0x78,0x2D,0x72,0x75,0x6E,0x61,0x2D,0x63,0x74,0x78,0x2D,0x76,0x31]

def kemSuiteId : Bytes := [0x4B,0x45,0x4D,0x00,0x20]

def suiteId : Bytes := [0x48,0x50,0x4B,0x45,0x00,0x20,0x00,0x01,0x00,0x03]

-- "eae_prk", "shared_secret", "psk_id_hash", "info_hash", "secret", "key" and "base_nonce"
def eaePrk : Bytes := [0x65,0x61,0x65,0x5F,0x70,0x72,0x6B]

def sharedSecretLabel : Bytes := [0x73,0x68,0x61,0x72,0x65,0x64,0x5F,0x73,0x65,0x63,0x72,0x65,0x74]

def pskIdHash : Bytes := [0x70,0x73,0x6B,0x5F,0x69,0x64,0x5F,0x68,0x61,0x73,0x68]

def infoHash : Bytes := [0x69,0x6E,0x66,0x6F,0x5F,0x68,0x61,0x73,0x68]

def secretLabel : Bytes := [0x73,0x65,0x63,0x72,0x65,0x74]

def keyLabel : Bytes := [0x6B,0x65,0x79]

def baseNonceLabel : Bytes := [0x62,0x61,0x73,0x65,0x5F,0x6E,0x6F,0x6E,0x63,0x65]

def zeroBlock (size : Nat) : Block size := ⟨List.replicate size 0,List.length_replicate⟩

variable (prims : HpkePrimitives)

def labeledExtract (suite salt label ikm : Bytes) : Block 32 :=
  prims.extract salt (versionLabel ++ suite ++ label ++ ikm)

-- The length goes in as two bytes.
def labeledExpand (prk : Block 32) (suite label info : Bytes) (size : Nat) : Except SharingError (Block size) :=
  given (prims.expand prk ([UInt8.ofNat (size / 256),UInt8.ofNat size] ++ versionLabel ++ suite ++ label ++ info) size)
    (.backend "HKDF expand length exceeded")

def extractAndExpand (diffieHellman : Block 32) (kemContext : Bytes) : Except SharingError (Block 32) :=
  labeledExpand prims (labeledExtract prims kemSuiteId [] eaePrk diffieHellman.1) kemSuiteId sharedSecretLabel kemContext 32

def kemEncap (ephemeralSecret recipientPublicKey : X25519Key) : Except SharingError (Block 32 × X25519Key) := do
  let diffieHellman := prims.diffieHellman ephemeralSecret recipientPublicKey
  ensure (diffieHellman ≠ zeroBlock 32) .authenticationFailed
  let enc := prims.publicKey ephemeralSecret
  let sharedSecret ← extractAndExpand prims diffieHellman (enc.1 ++ recipientPublicKey.1)
  pure (sharedSecret,enc)

def kemDecap (recipientSecret enc : X25519Key) : Except SharingError (Block 32) := do
  let diffieHellman := prims.diffieHellman recipientSecret enc
  ensure (diffieHellman ≠ zeroBlock 32) .authenticationFailed
  extractAndExpand prims diffieHellman (enc.1 ++ (prims.publicKey recipientSecret).1)

def keyScheduleContext : Bytes :=
  0x00 :: ((labeledExtract prims suiteId [] pskIdHash []).1 ++ (labeledExtract prims suiteId [] infoHash hpkeShareInfo).1)

def keySchedule (sharedSecret : Block 32) : Except SharingError (AeadKey × AeadNonce) := do
  let secret := labeledExtract prims suiteId sharedSecret.1 secretLabel []
  let key ← labeledExpand prims secret suiteId keyLabel (keyScheduleContext prims) 32
  let baseNonce ← labeledExpand prims secret suiteId baseNonceLabel (keyScheduleContext prims) 24
  pure (key,baseNonce)

def computeCommitment (key : AeadKey) (nonce : AeadNonce) (ciphertext : Bytes) : CtxTag :=
  prims.blake3 (ctxDomainLabel ++ key.1 ++ nonce.1 ++ ciphertext)

def xorKeystream (key : AeadKey) (nonce : AeadNonce) (start : Nat) (text : Bytes) : Bytes :=
  text.mapIdx fun i byte => byte ^^^ prims.keystream key nonce (start + i)

-- The cipher counts its blocks of 64 bytes in 32 bits.
def keystreamBlocks : Nat := 2 ^ 32 - 1

def applyKeystream (key : AeadKey) (nonce : AeadNonce) (start : Nat) (text : Bytes) :
    Except (Fault SharingError) Bytes :=
  if (start + text.length + 63) / 64 ≤ keystreamBlocks then .ok (xorKeystream prims key nonce start text)
  else .error .panic

-- Block 0 is the one-time key of the discarded Poly1305 tag.
def ctxSeal (key : AeadKey) (nonce : AeadNonce) (plaintext : Bytes) :
    Except (Fault SharingError) (Bytes × CtxTag) := do
  refusing (ensure (plaintext.length / 64 < keystreamBlocks) .authenticationFailed)
  let ciphertext ← applyKeystream prims key nonce 64 plaintext
  pure (ciphertext,computeCommitment prims key nonce ciphertext)

def ctxOpen (key : AeadKey) (nonce : AeadNonce) (ciphertext : Bytes) (claimedTag : CtxTag) :
    Except (Fault SharingError) Bytes :=
  if computeCommitment prims key nonce ciphertext = claimedTag then applyKeystream prims key nonce 64 ciphertext
  else .error (.error .authenticationFailed)

-- `[32B enc | ciphertext | 32B CTX tag]`
def hpkeSeal (ephemeralSecret recipientPublicKey : X25519Key) (plaintext : Bytes) :
    Except (Fault SharingError) Bytes := do
  let shared ← refusing (kemEncap prims ephemeralSecret recipientPublicKey)
  let schedule ← refusing (keySchedule prims shared.1)
  let sealed ← ctxSeal prims schedule.1 schedule.2 plaintext
  pure (shared.2.1 ++ sealed.1 ++ sealed.2.1)

def hpkeOpen (recipientSecret : X25519Key) (wire : Bytes) : Except (Fault SharingError) Bytes := do
  refusing (ensure (64 ≤ wire.length) (.malformedSharePackage "wire length < 64"))
  let enc ← slice wire 0 32
  let enc ← refusing (given (block 32 enc) (.malformedSharePackage "enc length mismatch"))
  let tag ← slice wire (wire.length - 32) wire.length
  let tag ← refusing (given (block 32 tag) (.malformedSharePackage "tag length mismatch"))
  let ciphertext ← slice wire 32 (wire.length - 32)
  let sharedSecret ← refusing (kemDecap prims recipientSecret enc)
  let schedule ← refusing (keySchedule prims sharedSecret)
  ctxOpen prims schedule.1 schedule.2 ciphertext tag

variable {prims : HpkePrimitives}

theorem sound_ctx_open (fits : ciphertext.length + 128 ≤ 2 ^ 38) : Sound (ctxOpen prims key nonce ciphertext claimedTag) := by
  unfold ctxOpen
  split
  · rw [applyKeystream,if_pos (by simp only [keystreamBlocks]; omega)]
    exact sound_ok _
  · simp [Sound]

theorem sound_open (fits : wire.length + 64 ≤ 2 ^ 38) : Sound (hpkeOpen prims recipientSecret wire) := by
  unfold hpkeOpen
  apply sound_bind (sound_refusing _)
  intro _ long
  have long : 64 ≤ wire.length := by simpa using long
  apply sound_bind (sound_slice (by omega) (by omega))
  intro _ _
  apply sound_bind (sound_refusing _)
  intro _ _
  apply sound_bind (sound_slice (by omega) (Nat.le_refl _))
  intro _ _
  apply sound_bind (sound_refusing _)
  intro _ _
  apply sound_bind (sound_slice (by omega) (by omega))
  intro ciphertext cut
  have size := slice_length cut
  apply sound_bind (sound_refusing _)
  intro _ _
  apply sound_bind (sound_refusing _)
  intro _ _
  exact sound_ctx_open (by omega)

end ArxRuna.Sharing.Hpke
