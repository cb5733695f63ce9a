import ArxRuna.Library.Base64
import ArxRuna.Library.JsonText
import ArxRuna.Credentials.Keys
namespace ArxRuna.Credentials.Header
open Library.Aead Library.Base64 Library.Fallible Library.JsonText Keys

structure Argon2ParametersJson where
  memoryCost : UInt32
  timeCost : UInt32
  parallelism : UInt32
  deriving DecidableEq, Repr

structure RecoverySlot where
  method : String
  argon2Salt : String
  argon2Params : Argon2ParametersJson
  wrappedMasterKey : String
  deriving DecidableEq, Repr

structure VaultHeader where
  vaultId : String
  schemaVersion : UInt32
  tier : UInt8
  argon2Salt : String
  argon2Params : Argon2ParametersJson
  keyFileBlake3 : Option String
  recoverySlots : List RecoverySlot
  name : Option String
  deriving DecidableEq, Repr

inductive VaultHeaderError where
  | unsupportedSchemaVersion (version : UInt32)
  | unsupportedTier (tier : UInt8)
  | keyFileBlake3DecodeFailed
  | keyFileBlake3WrongLength
  | saltDecodeFailed
  | saltWrongLength
  | argon2ParamsBelowMinimum
  | recoverySlotSaltDecodeFailed
  | recoverySlotSaltWrongLength
  | recoverySlotBlobDecodeFailed
  | recoverySlotBlobWrongLength
  | recoverySlotArgon2ParamsBelowMinimum
  deriving DecidableEq, Repr

def argon2ParametersToJson (parameters : Argon2Params) : Argon2ParametersJson :=
  ⟨parameters.memoryCostKib,parameters.timeCost,parameters.parallelism⟩

def argon2ParametersFromJson (json : Argon2ParametersJson) : Argon2Params :=
  ⟨json.memoryCost,json.timeCost,json.parallelism⟩

def decodeBase64Of (size : Nat) (text : String) : Except AuthenticationError (Block size) :=
  match decodeBase64 text with
  | none => .error .vaultHeaderInvalid
  | some bytes =>
    match block size bytes with
    | none => .error .vaultHeaderInvalid
    | some array => .ok array

def decodeBase64_32 : String → Except AuthenticationError Salt := decodeBase64Of 32

def decodeBase64_72 : String → Except AuthenticationError WrappedMasterKey := decodeBase64Of 72

def Argon2ParametersJson.toJson (parameters : Argon2ParametersJson) : Json :=
  .object [("memory_cost",.number parameters.memoryCost.toNat),("time_cost",.number parameters.timeCost.toNat),
    ("parallelism",.number parameters.parallelism.toNat)]

def RecoverySlot.toJson (slot : RecoverySlot) : Json :=
  .object [("method",.text slot.method),("argon2_salt",.text slot.argon2Salt),
    ("argon2_params",slot.argon2Params.toJson),("wrapped_master_key",.text slot.wrappedMasterKey)]

def presentText (name : String) : Option String → Fields
  | none => []
  | some text => [(name,.text text)]

-- `key_file_blake3` and `name` are written only when they are there.
def VaultHeader.toJson (header : VaultHeader) : Json :=
  .object ([("vault_id",.text header.vaultId),("schema_version",.number header.schemaVersion.toNat),
    ("tier",.number header.tier.toNat),("argon2_salt",.text header.argon2Salt),
    ("argon2_params",header.argon2Params.toJson)] ++ presentText "key_file_blake3" header.keyFileBlake3 ++
    [("recovery_slots",.array (header.recoverySlots.map RecoverySlot.toJson))] ++ presentText "name" header.name)

def u32 (value : Json) : Option UInt32 := (value.number? (2 ^ 32)).map UInt32.ofNat

def u8 (value : Json) : Option UInt8 := (value.number? (2 ^ 8)).map UInt8.ofNat

def Argon2ParametersJson.ofJson (value : Json) : Option Argon2ParametersJson := do
  let fields ← value.record? ["memory_cost","time_cost","parallelism"]
  let memoryCost ← u32 (← field "memory_cost" fields)
  let timeCost ← u32 (← field "time_cost" fields)
  let parallelism ← u32 (← field "parallelism" fields)
  return ⟨memoryCost,timeCost,parallelism⟩

def RecoverySlot.ofJson (value : Json) : Option RecoverySlot := do
  let fields ← value.record? ["method","argon2_salt","argon2_params","wrapped_master_key"]
  let method ← (← field "method" fields).text?
  let argon2Salt ← (← field "argon2_salt" fields).text?
  let argon2Params ← Argon2ParametersJson.ofJson (← field "argon2_params" fields)
  let wrappedMasterKey ← (← field "wrapped_master_key" fields).text?
  return ⟨method,argon2Salt,argon2Params,wrappedMasterKey⟩

def slotsOfJson (value : Json) : Option (List RecoverySlot) := do
  (← value.array?).mapM RecoverySlot.ofJson

def VaultHeader.ofJson (value : Json) : Option VaultHeader := do
  let fields ← value.record? ["vault_id","schema_version","tier","argon2_salt","argon2_params","key_file_blake3",
    "recovery_slots","name"]
  let vaultId ← (← field "vault_id" fields).text?
  let schemaVersion ← u32 (← field "schema_version" fields)
  let tier ← u8 (← field "tier" fields)
  let argon2Salt ← (← field "argon2_salt" fields).text?
  let argon2Params ← Argon2ParametersJson.ofJson (← field "argon2_params" fields)
  let keyFileBlake3 ← fieldOr "key_file_blake3" none (nullable Json.text?) fields
  let recoverySlots ← fieldOr "recovery_slots" [] slotsOfJson fields
  let name ← fieldOr "name" none (nullable Json.text?) fields
  return ⟨vaultId,schemaVersion,tier,argon2Salt,argon2Params,keyFileBlake3,recoverySlots,name⟩

def readHeader (file : JsonFile) : Option VaultHeader := file.value? >>= VaultHeader.ofJson

def hexDigit (c : Char) : Bool :=
  (48 ≤ c.toNat ∧ c.toNat ≤ 57) ∨ (97 ≤ c.toNat ∧ c.toNat ≤ 102) ∨ (65 ≤ c.toNat ∧ c.toNat ≤ 70)

def validateKeyFileBlake3 : Option String → Except VaultHeaderError Unit
  | none => .ok ()
  | some hexDigest => do
    let digits := hexDigest.toList
    ensure (digits.length % 2 = 0 ∧ digits.all hexDigit) .keyFileBlake3DecodeFailed
    ensure (digits.length = 64) .keyFileBlake3WrongLength

def validateLength (size : Nat) (text : String) (undecoded wrongLength : VaultHeaderError) :
    Except VaultHeaderError Unit :=
  match decodeBase64 text with
  | none => .error undecoded
  | some bytes => ensure (bytes.length = size) wrongLength

def validateSlotStructure (slot : RecoverySlot) : Except VaultHeaderError Unit := do
  validateLength 32 slot.argon2Salt .recoverySlotSaltDecodeFailed .recoverySlotSaltWrongLength
  validateLength 72 slot.wrappedMasterKey .recoverySlotBlobDecodeFailed .recoverySlotBlobWrongLength

def VaultHeader.validateStructure (header : VaultHeader) : Except VaultHeaderError Unit := do
  ensure (header.schemaVersion = 1) (.unsupportedSchemaVersion header.schemaVersion)
  ensure (header.tier = 1 ∨ header.tier = 2) (.unsupportedTier header.tier)
  validateKeyFileBlake3 header.keyFileBlake3
  validateLength 32 header.argon2Salt .saltDecodeFailed .saltWrongLength
  header.recoverySlots.forM validateSlotStructure

def argon2AboveMinimum (parameters : Argon2ParametersJson) : Bool :=
  19456 ≤ parameters.memoryCost ∧ 2 ≤ parameters.timeCost ∧ 1 ≤ parameters.parallelism

-- `validate_trust_policy` under the bootstrap policy, the one of a new device.
def VaultHeader.validateBootstrap (header : VaultHeader) : Except VaultHeaderError Unit := do
  header.validateStructure
  ensure (argon2AboveMinimum header.argon2Params) .argon2ParamsBelowMinimum
  header.recoverySlots.forM fun slot =>
    ensure (argon2AboveMinimum slot.argon2Params) .recoverySlotArgon2ParamsBelowMinimum

@[simp] theorem u32_number (value : UInt32) : u32 (.number value.toNat) = some value := by
  rw [u32,Json.number?,if_pos value.toNat_lt]
  simp

@[simp] theorem u8_number (value : UInt8) : u8 (.number value.toNat) = some value := by
  rw [u8,Json.number?,if_pos value.toNat_lt]
  simp

@[simp] theorem parameters_round (parameters : Argon2ParametersJson) :
    Argon2ParametersJson.ofJson parameters.toJson = some parameters := by
  simp [Argon2ParametersJson.ofJson,Argon2ParametersJson.toJson,Json.record?,field]

@[simp] theorem slot_round (slot : RecoverySlot) : RecoverySlot.ofJson slot.toJson = some slot := by
  simp [RecoverySlot.ofJson,RecoverySlot.toJson,Json.record?,field,Json.text?]

@[simp] theorem slots_round (slots : List RecoverySlot) :
    slotsOfJson (.array (slots.map RecoverySlot.toJson)) = some slots := by
  rw [slotsOfJson,Json.array?]
  exact decode_items slot_round slots

@[simp] theorem header_round (header : VaultHeader) : VaultHeader.ofJson header.toJson = some header := by
  obtain ⟨vaultId,schemaVersion,tier,argon2Salt,argon2Params,keyFileBlake3,recoverySlots,name⟩ := header
  cases keyFileBlake3 <;> cases name <;>
    simp only [VaultHeader.ofJson,VaultHeader.toJson,presentText,Json.record?,field,fieldOr,Json.text?,nullable,
      List.append_nil,List.nil_append,List.cons_append,List.filter_cons_of_pos,List.filter_cons_of_neg,List.filter_nil,
      String.reduceEq,decide_true,decide_false,Bool.false_eq_true,not_false_eq_true,Option.pure_def,Option.bind_eq_bind,
      Option.bind_some,Option.map_some,parameters_round,slots_round,u8_number,u32_number]

@[simp] theorem read_header_json (header : VaultHeader) : readHeader (.json header.toJson) = some header := by
  simp [readHeader,JsonFile.value?]

@[simp] theorem decode_encode_salt (salt : Salt) : decodeBase64_32 (encodeBase64 salt.1) = .ok salt := by
  simp [decodeBase64_32,decodeBase64Of]

@[simp] theorem decode_encode_wrapped (wrapped : WrappedMasterKey) :
    decodeBase64_72 (encodeBase64 wrapped.1) = .ok wrapped := by
  simp [decodeBase64_72,decodeBase64Of]

end ArxRuna.Credentials.Header
