import ArxRuna.Crypto
namespace ArxRuna.Credentials.Keys
open Library.Aead Crypto

abbrev MasterKey := Block 32
abbrev RecoveryKey := Block 32
abbrev SqlcipherKey := Block 32
abbrev ManifestKey := Block 32
abbrev KeyFile := Block 32
abbrev Salt := Block 32
abbrev WrappedMasterKey := Block 72

inductive AuthenticationError where
  | invalidCredentials
  | keyFileNotFound
  | memoryLockFailed (text : String)
  | vaultHeaderInvalid
  | sessionAlreadyActive
  | sessionNotActive
  | invalidRecoveryPhrase
  | noRecoverySlot
  deriving DecidableEq, Repr

structure Argon2Params where
  memoryCostKib : UInt32
  timeCost : UInt32
  parallelism : UInt32
  deriving DecidableEq, Repr

def Argon2Params.default : Argon2Params := ⟨65536,3,4⟩

-- Argon2id, HKDF-SHA256, the BIP-39 word list and UUID texts come from other
-- packages. `argon2id` is `none` for parameters the package refuses.
structure Suite extends Primitives where
  argon2id : Bytes → Salt → Argon2Params → Option MasterKey
  hkdf : (salt info : String) → MasterKey → Block 32
  mnemonic : Bytes → Option (List String)
  hex : Bytes → String
  parseUuid : String → Option Uuid
  uuidText : Uuid → String

structure VaultKeys where
  keyEncryptionKey : KeyEncryptionKey
  sqlcipherKey : SqlcipherKey
  manifestKey : ManifestKey
  deriving DecidableEq

variable (suite : Suite)

def deriveMasterKey (password : Bytes) (keyFile : Option KeyFile) (salt : Salt) (parameters : Argon2Params) :
    Except AuthenticationError MasterKey :=
  let combinedInput := match keyFile with
    | none => password
    | some bytes => password ++ bytes.1
  match suite.argon2id combinedInput salt parameters with
  | none => .error .invalidCredentials
  | some masterKey => .ok masterKey

def deriveVaultKeys (masterKey : MasterKey) : VaultKeys where
  keyEncryptionKey := suite.hkdf "arx-runa-v1" "arx-runa-key-encryption" masterKey
  sqlcipherKey := suite.hkdf "arx-runa-v1" "arx-runa-sqlcipher" masterKey
  manifestKey := suite.hkdf "arx-runa-v1" "arx-runa-manifest-backup" masterKey

def zeroKey : Block 32 := byteKey 0

-- `derived_keys_are_initialized`: no buffer of a session is all zero.
def VaultKeys.initialised (keys : VaultKeys) : Prop :=
  keys.keyEncryptionKey ≠ zeroKey ∧ keys.sqlcipherKey ≠ zeroKey ∧ keys.manifestKey ≠ zeroKey

instance (keys : VaultKeys) : Decidable keys.initialised := inferInstanceAs (Decidable (_ ∧ _ ∧ _))

def ascii (text : String) : Bytes := text.toList.map fun c => UInt8.ofNat c.toNat

def recoveryAad (vaultId : Uuid) : Bytes := ascii "arx-runa recovery v1" ++ uuidBytes vaultId

def wrapMasterKeyForRecovery (masterKey : MasterKey) (recoveryKey : RecoveryKey) (vaultId : Uuid)
    (nonce : Nonce) : WrappedMasterKey :=
  ⟨sealWire suite.cipher recoveryKey nonce (recoveryAad vaultId) masterKey.1,
    by rw [sealWire_length,masterKey.2]⟩

def unwrapMasterKeyFromRecovery (wrapped : WrappedMasterKey) (recoveryKey : RecoveryKey) (vaultId : Uuid) :
    Except CryptoError MasterKey :=
  match openWire suite.cipher recoveryKey (recoveryAad vaultId) wrapped.1 with
  | none => .error .decryptionFailed
  | some bytes =>
    match block 32 bytes with
    | none => .error .decryptionFailed
    | some masterKey => .ok masterKey

@[simp] theorem unwrap_wrap_master (masterKey : MasterKey) (recoveryKey : RecoveryKey) (vaultId : Uuid)
    (nonce : Nonce) : unwrapMasterKeyFromRecovery suite
      (wrapMasterKeyForRecovery suite masterKey recoveryKey vaultId nonce) recoveryKey vaultId = .ok masterKey := by
  simp only [unwrapMasterKeyFromRecovery,wrapMasterKeyForRecovery,openWire_sealWire,block_val]

-- The words of the list are ASCII.
def canonicalizePhrase (words : List String) : Bytes := ascii (" ".intercalate words)

-- An evaluable suite for fixed inputs: keys begin with the length of their label,
-- then with the salt.
def plainSuite : Suite where
  toPrimitives := plainPrimitives
  argon2id input salt _ := some ⟨(salt.1.take 8 ++ input ++ List.replicate 32 0).take 32,by
    simp only [List.length_take,List.length_append,List.length_replicate]
    omega⟩
  hkdf _ info masterKey := ⟨UInt8.ofNat info.length :: masterKey.1.take 31,by simp [masterKey.2]⟩
  mnemonic bytes := some [String.ofList (bytes.map fun byte => Char.ofNat byte.toNat)]
  hex bytes := String.ofList (bytes.map fun byte => Char.ofNat byte.toNat)
  parseUuid text := some text.length
  uuidText id := String.ofList (List.replicate id 'u')

end ArxRuna.Credentials.Keys
