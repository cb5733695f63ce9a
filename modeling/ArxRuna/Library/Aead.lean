import Mathlib.Algebra.BigOperators.Group.List.Basic
import Mathlib.Algebra.Order.Ring.Nat
import Mathlib.Data.List.Induction
import Mathlib.Data.List.Sort
import Mathlib.Tactic.Tauto
namespace ArxRuna.Library.Aead

abbrev Bytes := List UInt8

-- A byte string of one fixed length: keys, nonces and tags.
abbrev Block (size : Nat) := {bytes : Bytes // bytes.length = size}

-- A detached authenticated cipher. The laws are the documented ones: decryption
-- inverts encryption and the ciphertext is as long as the text. Nothing is said
-- here about what an attacker can do.
structure Cipher (keySize nonceSize tagSize : Nat) where
  encrypt : Block keySize → Block nonceSize → Bytes → Bytes → Bytes × Block tagSize
  decrypt : Block keySize → Block nonceSize → Bytes → Bytes → Block tagSize → Option Bytes
  decrypt_encrypt : ∀ key nonce aad text,
    decrypt key nonce aad (encrypt key nonce aad text).1 (encrypt key nonce aad text).2 = some text
  length_encrypt : ∀ key nonce aad text, (encrypt key nonce aad text).1.length = text.length

variable {keySize nonceSize tagSize : Nat}

-- The wire format nonce | ciphertext | tag.
def sealWire (cipher : Cipher keySize nonceSize tagSize) (key : Block keySize) (nonce : Block nonceSize)
    (aad text : Bytes) : Bytes :=
  nonce.1 ++ (cipher.encrypt key nonce aad text).1 ++ (cipher.encrypt key nonce aad text).2.1

def block (size : Nat) (bytes : Bytes) : Option (Block size) :=
  if sized : bytes.length = size then some ⟨bytes,sized⟩ else none

def split (nonceSize tagSize : Nat) (wire : Bytes) : Option (Block nonceSize × Bytes × Block tagSize) :=
  if wire.length < nonceSize + tagSize then none else do
    let nonce ← block nonceSize (wire.take nonceSize)
    let rest := wire.drop nonceSize
    let tag ← block tagSize (rest.drop (rest.length - tagSize))
    some (nonce,rest.take (rest.length - tagSize),tag)

def openWire (cipher : Cipher keySize nonceSize tagSize) (key : Block keySize) (aad wire : Bytes) :
    Option Bytes :=
  match split nonceSize tagSize wire with
  | none => none
  | some (nonce,text,tag) => cipher.decrypt key nonce aad text tag

@[simp] theorem block_val (bytes : Block size) : block size bytes.1 = some bytes := by
  simp [block,bytes.2]

theorem block_exact (checked : block size bytes = some value) : value.1 = bytes := by
  unfold block at checked
  split at checked
  · cases checked; rfl
  · cases checked

theorem sealWire_length (cipher : Cipher keySize nonceSize tagSize) (key : Block keySize)
    (nonce : Block nonceSize) (aad text : Bytes) :
    (sealWire cipher key nonce aad text).length = nonceSize + text.length + tagSize := by
  simp only [sealWire,List.length_append,cipher.length_encrypt,nonce.2,
    (cipher.encrypt key nonce aad text).2.2]

theorem split_parts (nonce : Block nonceSize) (text : Bytes) (tag : Block tagSize) :
    split nonceSize tagSize (nonce.1 ++ text ++ tag.1) = some (nonce,text,tag) := by
  have long : ¬ (nonce.1 ++ text ++ tag.1).length < nonceSize + tagSize := by
    simp only [List.length_append,nonce.2,tag.2]
    omega
  have front : (nonce.1 ++ text ++ tag.1).take nonceSize = nonce.1 := by
    rw [List.append_assoc,List.take_left' nonce.2]
  have rest : (nonce.1 ++ text ++ tag.1).drop nonceSize = text ++ tag.1 := by
    rw [List.append_assoc,List.drop_left' nonce.2]
  have size : (text ++ tag.1).length - tagSize = text.length := by
    rw [List.length_append,tag.2,Nat.add_sub_cancel]
  simp only [split,if_neg long,front,rest,size,block_val,List.take_left,List.drop_left,
    Option.bind_eq_bind,Option.bind_some]

theorem openWire_sealWire (cipher : Cipher keySize nonceSize tagSize) (key : Block keySize)
    (nonce : Block nonceSize) (aad text : Bytes) :
    openWire cipher key aad (sealWire cipher key nonce aad text) = some text := by
  rw [openWire,sealWire,split_parts]
  exact cipher.decrypt_encrypt key nonce aad text

-- A cipher that carries the text in clear and the head of the key as its tag. It
-- is only meant for evaluating a development on given inputs.
def plain (keySize nonceSize tagSize : Nat) : Cipher keySize nonceSize tagSize where
  encrypt key _ _ text := (text,⟨(key.1 ++ List.replicate tagSize 0).take tagSize,by simp⟩)
  decrypt key _ _ text tag :=
    if tag.1 = (key.1 ++ List.replicate tagSize 0).take tagSize then some text else none
  decrypt_encrypt := by simp
  length_encrypt := by simp

end ArxRuna.Library.Aead
