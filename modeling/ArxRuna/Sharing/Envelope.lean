import ArxRuna.Sharing.Hpke
namespace ArxRuna.Sharing.Envelope
open Library.Aead Library.Fallible Library.Faults Rows Hpke

variable {prims : HpkePrimitives}

-- What the recipient derives from the encapsulated key.
def deriveKeys (prims : HpkePrimitives) (recipientSecret enc : X25519Key) : Except SharingError (AeadKey × AeadNonce) := do
  let sharedSecret ← kemDecap prims recipientSecret enc
  keySchedule prims sharedSecret

theorem xor_twice (key : AeadKey) (nonce : AeadNonce) (start : Nat) (text : Bytes) :
    xorKeystream prims key nonce start (xorKeystream prims key nonce start text) = text := by
  apply List.ext_getElem
  · simp [xorKeystream]
  · intro i here there
    simp only [xorKeystream,List.getElem_mapIdx]
    rw [UInt8.xor_assoc,UInt8.xor_self,UInt8.xor_zero]

@[simp] theorem xor_length (key : AeadKey) (nonce : AeadNonce) (start : Nat) (text : Bytes) :
    (xorKeystream prims key nonce start text).length = text.length := by
  simp [xorKeystream]

theorem applied_ok : applyKeystream prims key nonce start text = .ok result ↔
    (start + text.length + 63) / 64 ≤ keystreamBlocks ∧ result = xorKeystream prims key nonce start text := by
  unfold applyKeystream
  split
  · rename_i fits
    simp [fits,eq_comm]
  · rename_i beyond
    simp [beyond]

theorem sealed_text_ok : ctxSeal prims key nonce plaintext = .ok sealed ↔
    plaintext.length + 128 ≤ 2 ^ 38 ∧
      sealed = (xorKeystream prims key nonce 64 plaintext,
        computeCommitment prims key nonce (xorKeystream prims key nonce 64 plaintext)) := by
  have blocks : keystreamBlocks = 2 ^ 32 - 1 := rfl
  simp only [ctxSeal,bind_ok,refusing_ok,ensure_ok,applied_ok,pure_ok]
  constructor
  · rintro ⟨_,_,text,⟨fits,rfl⟩,rfl⟩
    exact ⟨by omega,rfl⟩
  · rintro ⟨fits,rfl⟩
    exact ⟨(),by omega,_,⟨by omega,rfl⟩,rfl⟩

theorem opened_text_ok : ctxOpen prims key nonce ciphertext tag = .ok plaintext ↔
    computeCommitment prims key nonce ciphertext = tag ∧ ciphertext.length + 128 ≤ 2 ^ 38 ∧
      plaintext = xorKeystream prims key nonce 64 ciphertext := by
  unfold ctxOpen
  split
  · rename_i committed
    simp only [applied_ok,committed,true_and,keystreamBlocks]
    constructor
    · rintro ⟨fits,same⟩
      exact ⟨by omega,same⟩
    · rintro ⟨fits,same⟩
      exact ⟨by omega,same⟩
  · rename_i other
    simp [other]

def encOf (wire : Bytes) : Bytes := wire.take 32

def textOf (wire : Bytes) : Bytes := (wire.take (wire.length - 32)).drop 32

def tagOf (wire : Bytes) : Bytes := wire.drop (wire.length - 32)

theorem parts_whole (long : 64 ≤ wire.length) : wire = encOf wire ++ textOf wire ++ tagOf wire := by
  have front : encOf wire = (wire.take (wire.length - 32)).take 32 := by
    rw [encOf,List.take_take,Nat.min_eq_left (by omega)]
  rw [front,textOf,List.take_append_drop,tagOf,List.take_append_drop]

theorem parts_of (enc : X25519Key) (ciphertext : Bytes) (tag : CtxTag) :
    encOf (enc.1 ++ ciphertext ++ tag.1) = enc.1 ∧ textOf (enc.1 ++ ciphertext ++ tag.1) = ciphertext ∧
      tagOf (enc.1 ++ ciphertext ++ tag.1) = tag.1 := by
  have size : (enc.1 ++ ciphertext ++ tag.1).length - 32 = (enc.1 ++ ciphertext).length := by
    simp only [List.length_append,tag.2,Nat.add_sub_cancel]
  refine ⟨?_,?_,?_⟩
  · rw [encOf,List.append_assoc,List.take_left' enc.2]
  · rw [textOf,size,List.take_left,List.drop_left' enc.2]
  · rw [tagOf,size,List.drop_left]

-- A wire text opens exactly if it is an encapsulated key, a ciphertext and the
-- commitment to the derived key, the nonce and that ciphertext.
theorem open_ok : hpkeOpen prims recipientSecret wire = .ok plaintext ↔
    ∃ (enc : X25519Key) (ciphertext : Bytes) (tag : CtxTag) (key : AeadKey) (nonce : AeadNonce),
      wire = enc.1 ++ ciphertext ++ tag.1 ∧ deriveKeys prims recipientSecret enc = .ok (key,nonce) ∧
      computeCommitment prims key nonce ciphertext = tag ∧ ciphertext.length + 128 ≤ 2 ^ 38 ∧
      plaintext = xorKeystream prims key nonce 64 ciphertext := by
  constructor
  · intro opened
    simp only [hpkeOpen,bind_ok,refusing_ok,ensure_ok,given_ok] at opened
    obtain ⟨_,long,front,cut,enc,sized,back,cut',tag,sized',ciphertext,cut'',shared,decapsulated,⟨key,nonce⟩,
      scheduled,opened⟩ := opened
    rw [slice_inside (Nat.zero_le _) (by omega)] at cut
    rw [slice_inside (Nat.sub_le _ _) (Nat.le_refl _)] at cut'
    rw [slice_inside (by omega) (Nat.sub_le _ _)] at cut''
    cases cut
    cases cut'
    cases cut''
    obtain ⟨committed,fits,text⟩ := opened_text_ok.mp opened
    refine ⟨enc,_,tag,key,nonce,?_,?_,committed,fits,text⟩
    · rw [block_exact sized,block_exact sized',List.drop_zero,List.take_length]
      exact parts_whole long
    · simp only [deriveKeys,bind_ok]
      exact ⟨shared,decapsulated,scheduled⟩
  · rintro ⟨enc,ciphertext,tag,key,nonce,rfl,derived,committed,fits,text⟩
    obtain ⟨front,middle,back⟩ := parts_of enc ciphertext tag
    have size : (enc.1 ++ ciphertext ++ tag.1).length = 32 + ciphertext.length + 32 := by
      rw [List.length_append,List.length_append,enc.2,tag.2]
    simp only [deriveKeys,bind_ok] at derived
    obtain ⟨shared,decapsulated,scheduled⟩ := derived
    simp only [hpkeOpen,bind_ok,refusing_ok,ensure_ok,given_ok]
    refine ⟨(),by omega,_,slice_inside (Nat.zero_le _) (by omega),enc,?_,_,
      slice_inside (Nat.sub_le _ _) (Nat.le_refl _),tag,?_,_,slice_inside (by omega) (Nat.sub_le _ _),
      shared,decapsulated,(key,nonce),scheduled,?_⟩
    · rw [List.drop_zero]
      exact (congrArg (block 32) front).trans (block_val enc)
    · rw [List.take_length]
      exact (congrArg (block 32) back).trans (block_val tag)
    · change ctxOpen prims key nonce (textOf (enc.1 ++ ciphertext ++ tag.1)) tag = .ok plaintext
      rw [middle]
      exact opened_text_ok.mpr ⟨committed,fits,text⟩

-- Documented laws of the packages: Diffie-Hellman agreement, no degenerate secret
-- between two generated keys, and HKDF-Expand up to 255 hash lengths.
structure Documented (prims : HpkePrimitives) : Prop where
  agreement : ∀ a b, prims.diffieHellman a (prims.publicKey b) = prims.diffieHellman b (prims.publicKey a)
  contributory : ∀ a b, prims.diffieHellman a (prims.publicKey b) ≠ zeroBlock 32
  expands : ∀ prk info size, size ≤ 255 * 32 → (prims.expand prk info size).isSome

theorem encap_decap (documented : Documented prims) (ephemeralSecret recipientSecret : X25519Key) :
    kemEncap prims ephemeralSecret (prims.publicKey recipientSecret) =
      (kemDecap prims recipientSecret (prims.publicKey ephemeralSecret)).map fun sharedSecret =>
        (sharedSecret,prims.publicKey ephemeralSecret) := by
  unfold kemEncap kemDecap
  rw [documented.agreement ephemeralSecret recipientSecret]
  dsimp only
  unfold ensure
  split
  · cases extractAndExpand prims (prims.diffieHellman recipientSecret (prims.publicKey ephemeralSecret))
      ((prims.publicKey ephemeralSecret).1 ++ (prims.publicKey recipientSecret).1) <;> rfl
  · rfl

theorem expand_total (documented : Documented prims) (prk : Block 32) (suite label info : Bytes)
    (short : size ≤ 255 * 32) : ∃ result, labeledExpand prims prk suite label info size = .ok result := by
  obtain ⟨result,expanded⟩ := Option.isSome_iff_exists.mp (documented.expands prk
    ([UInt8.ofNat (size / 256),UInt8.ofNat size] ++ versionLabel ++ suite ++ label ++ info) size short)
  exact ⟨result,given_ok.mpr expanded⟩

theorem derive_total (documented : Documented prims) (recipientSecret ephemeralSecret : X25519Key) :
    ∃ keys, deriveKeys prims recipientSecret (prims.publicKey ephemeralSecret) = .ok keys := by
  obtain ⟨shared,expanded⟩ := expand_total documented
    (labeledExtract prims kemSuiteId [] eaePrk (prims.diffieHellman recipientSecret (prims.publicKey ephemeralSecret)).1)
    kemSuiteId sharedSecretLabel ((prims.publicKey ephemeralSecret).1 ++ (prims.publicKey recipientSecret).1)
    (by decide : 32 ≤ 255 * 32)
  obtain ⟨key,keyed⟩ := expand_total documented (labeledExtract prims suiteId shared.1 secretLabel []) suiteId keyLabel
    (keyScheduleContext prims) (by decide : 32 ≤ 255 * 32)
  obtain ⟨nonce,numbered⟩ := expand_total documented (labeledExtract prims suiteId shared.1 secretLabel []) suiteId
    baseNonceLabel (keyScheduleContext prims) (by decide : 24 ≤ 255 * 32)
  refine ⟨(key,nonce),?_⟩
  simp only [deriveKeys,kemDecap,keySchedule,extractAndExpand,bind_ok,ensure_ok,pure_ok]
  exact ⟨shared,⟨(),documented.contributory _ _,expanded⟩,key,keyed,nonce,numbered,rfl⟩

theorem seal_ok (documented : Documented prims) {ephemeralSecret recipientSecret : X25519Key} :
    hpkeSeal prims ephemeralSecret (prims.publicKey recipientSecret) plaintext = .ok wire ↔
      ∃ key nonce, deriveKeys prims recipientSecret (prims.publicKey ephemeralSecret) = .ok (key,nonce) ∧
        plaintext.length + 128 ≤ 2 ^ 38 ∧
        wire = (prims.publicKey ephemeralSecret).1 ++ xorKeystream prims key nonce 64 plaintext ++
          (computeCommitment prims key nonce (xorKeystream prims key nonce 64 plaintext)).1 := by
  simp only [hpkeSeal,deriveKeys,bind_ok,refusing_ok,pure_ok,encap_decap documented]
  constructor
  · rintro ⟨_,encapsulated,⟨key,nonce⟩,scheduled,sealed,closed,rfl⟩
    obtain ⟨shared,decapsulated,rfl⟩ := map_ok.mp encapsulated
    obtain ⟨fits,rfl⟩ := sealed_text_ok.mp closed
    exact ⟨key,nonce,⟨shared,decapsulated,scheduled⟩,fits,rfl⟩
  · rintro ⟨key,nonce,⟨shared,decapsulated,scheduled⟩,fits,rfl⟩
    exact ⟨_,map_ok.mpr ⟨shared,decapsulated,rfl⟩,(key,nonce),scheduled,_,sealed_text_ok.mpr ⟨fits,rfl⟩,rfl⟩

-- The hashes that opening asks for.
inductive Query where
  | extract (salt ikm : Bytes)
  | expand (prk : Block 32) (info : Bytes) (size : Nat)
  | commit (input : Bytes)
  deriving DecidableEq

def Query.answer (prims : HpkePrimitives) : Query → Option Bytes
  | .extract salt ikm => some (prims.extract salt ikm).1
  | .expand prk info size => (prims.expand prk info size).map (·.1)
  | .commit input => some (prims.blake3 input).1

-- The function a query is put to; expanding is one function for each length.
def Query.kind : Query → Nat
  | .extract _ _ => 0
  | .commit _ => 1
  | .expand _ _ size => 2 + size

def extractQuery (suite salt label ikm : Bytes) : Query := .extract salt (versionLabel ++ suite ++ label ++ ikm)

def expandQuery (prk : Block 32) (suite label info : Bytes) (size : Nat) : Query :=
  .expand prk ([UInt8.ofNat (size / 256),UInt8.ofNat size] ++ versionLabel ++ suite ++ label ++ info) size

def askedAfter (prims : HpkePrimitives) (sharedSecret : Block 32) (ciphertext : Bytes) : List Query :=
  let secret := labeledExtract prims suiteId sharedSecret.1 secretLabel []
  [extractQuery suiteId [] pskIdHash [],extractQuery suiteId [] infoHash hpkeShareInfo,
    extractQuery suiteId sharedSecret.1 secretLabel [],expandQuery secret suiteId keyLabel (keyScheduleContext prims) 32,
    expandQuery secret suiteId baseNonceLabel (keyScheduleContext prims) 24] ++
  match keySchedule prims sharedSecret with
  | .error _ => []
  | .ok keys => [.commit (ctxDomainLabel ++ keys.1.1 ++ keys.2.1 ++ ciphertext)]

def asked (prims : HpkePrimitives) (recipientSecret enc : X25519Key) (ciphertext : Bytes) : List Query :=
  let diffieHellman := prims.diffieHellman recipientSecret enc
  [extractQuery kemSuiteId [] eaePrk diffieHellman.1,
    expandQuery (labeledExtract prims kemSuiteId [] eaePrk diffieHellman.1) kemSuiteId sharedSecretLabel
      (enc.1 ++ (prims.publicKey recipientSecret).1) 32] ++
  match kemDecap prims recipientSecret enc with
  | .error _ => []
  | .ok sharedSecret => askedAfter prims sharedSecret ciphertext

-- Hashing is injective on what is asked: no function gives two of the inputs one answer.
def Apart (prims : HpkePrimitives) (queries : List Query) : Prop :=
  ∀ q ∈ queries, ∀ q' ∈ queries, q.kind = q'.kind → q.answer prims = q'.answer prims → q = q'

instance (prims : HpkePrimitives) (queries : List Query) : Decidable (Apart prims queries) := by
  unfold Apart
  infer_instance

theorem apart_answers (apart : Apart prims queries) (first : q ∈ queries) (second : q' ∈ queries)
    (kind : q.kind = q'.kind) (same : q.answer prims = q'.answer prims) : q = q' := apart q first q' second kind same

theorem derived_asked (derived : deriveKeys prims recipientSecret enc = .ok (key,nonce)) (ciphertext : Bytes) :
    ∃ sharedSecret : Block 32, let prk := labeledExtract prims kemSuiteId [] eaePrk (prims.diffieHellman recipientSecret enc).1
      let secret := labeledExtract prims suiteId sharedSecret.1 secretLabel []
      let shared := expandQuery prk kemSuiteId sharedSecretLabel (enc.1 ++ (prims.publicKey recipientSecret).1) 32
      let keyed := expandQuery secret suiteId keyLabel (keyScheduleContext prims) 32
      let commitment := Query.commit (ctxDomainLabel ++ key.1 ++ nonce.1 ++ ciphertext)
      (shared ∈ asked prims recipientSecret enc ciphertext ∧ shared.answer prims = some sharedSecret.1) ∧
      extractQuery suiteId sharedSecret.1 secretLabel [] ∈ asked prims recipientSecret enc ciphertext ∧
      (keyed ∈ asked prims recipientSecret enc ciphertext ∧ keyed.answer prims = some key.1) ∧
      commitment ∈ asked prims recipientSecret enc ciphertext := by
  simp only [deriveKeys,bind_ok] at derived
  obtain ⟨sharedSecret,decapsulated,scheduled⟩ := derived
  have known : asked prims recipientSecret enc ciphertext =
      [extractQuery kemSuiteId [] eaePrk (prims.diffieHellman recipientSecret enc).1,
        expandQuery (labeledExtract prims kemSuiteId [] eaePrk (prims.diffieHellman recipientSecret enc).1) kemSuiteId
          sharedSecretLabel (enc.1 ++ (prims.publicKey recipientSecret).1) 32] ++
        askedAfter prims sharedSecret ciphertext := by
    rw [asked,decapsulated]
  have after : askedAfter prims sharedSecret ciphertext =
      [extractQuery suiteId [] pskIdHash [],extractQuery suiteId [] infoHash hpkeShareInfo,
        extractQuery suiteId sharedSecret.1 secretLabel [],
        expandQuery (labeledExtract prims suiteId sharedSecret.1 secretLabel []) suiteId keyLabel
          (keyScheduleContext prims) 32,
        expandQuery (labeledExtract prims suiteId sharedSecret.1 secretLabel []) suiteId baseNonceLabel
          (keyScheduleContext prims) 24] ++ [.commit (ctxDomainLabel ++ key.1 ++ nonce.1 ++ ciphertext)] := by
    rw [askedAfter,scheduled]
  simp only [kemDecap,extractAndExpand,labeledExpand,bind_ok,ensure_ok,given_ok] at decapsulated
  obtain ⟨_,_,expanded⟩ := decapsulated
  simp only [keySchedule,labeledExpand,bind_ok,given_ok,pure_ok] at scheduled
  obtain ⟨_,keyed,_,_,same⟩ := scheduled
  cases same
  refine ⟨sharedSecret,⟨?_,?_⟩,?_,⟨?_,?_⟩,?_⟩
  · rw [known]
    simp
  · rw [expandQuery,Query.answer,expanded]
    rfl
  · rw [known,after]
    simp
  · rw [known,after]
    simp
  · rw [expandQuery,Query.answer,keyed]
    rfl
  · rw [known,after]
    simp

-- Where hashing tells the inputs apart, one commitment binds the encapsulated key and
-- the ciphertext.
theorem commitment_binds {enc enc' : X25519Key} {key key' : AeadKey} {nonce nonce' : AeadNonce}
    (derived : deriveKeys prims recipientSecret enc = .ok (key,nonce))
    (derived' : deriveKeys prims recipientSecret enc' = .ok (key',nonce'))
    (apart : Apart prims (asked prims recipientSecret enc ciphertext ++ asked prims recipientSecret enc' ciphertext'))
    (same : computeCommitment prims key nonce ciphertext = computeCommitment prims key' nonce' ciphertext') :
    enc = enc' ∧ ciphertext = ciphertext' := by
  obtain ⟨sharedSecret,⟨shared,expanded⟩,secret,⟨keyed,made⟩,committed⟩ := derived_asked derived ciphertext
  obtain ⟨sharedSecret',⟨shared',expanded'⟩,secret',⟨keyed',made'⟩,committed'⟩ := derived_asked derived' ciphertext'
  have inputs := Query.commit.inj (apart_answers apart (List.mem_append_left _ committed)
    (List.mem_append_right _ committed') rfl (congrArg (fun tag : CtxTag => some tag.1) same))
  simp only [List.append_assoc] at inputs
  obtain ⟨keys,rest⟩ := List.append_inj (List.append_cancel_left inputs) (key.2.trans key'.2.symm)
  obtain ⟨_,texts⟩ := List.append_inj rest (nonce.2.trans nonce'.2.symm)
  have schedules := apart_answers apart (List.mem_append_left _ keyed) (List.mem_append_right _ keyed') rfl
    (made.trans ((congrArg some keys).trans made'.symm))
  have secrets := (Query.expand.inj schedules).1
  have salts := apart_answers apart (List.mem_append_left _ secret) (List.mem_append_right _ secret') rfl
    (congrArg (fun prk : Block 32 => some prk.1) secrets)
  have sharings := apart_answers apart (List.mem_append_left _ shared) (List.mem_append_right _ shared') rfl
    (expanded.trans ((congrArg some (Query.extract.inj salts).1).trans expanded'.symm))
  have contexts := List.append_cancel_left (Query.expand.inj sharings).2.1
  exact ⟨Subtype.ext (List.append_cancel_right contexts),texts⟩

def askedBy (prims : HpkePrimitives) (recipientSecret : X25519Key) (wire : Bytes) : List Query :=
  match block 32 (encOf wire) with
  | none => []
  | some enc => asked prims recipientSecret enc (textOf wire)

theorem asked_by (enc : X25519Key) (ciphertext : Bytes) (tag : CtxTag) :
    askedBy prims recipientSecret (enc.1 ++ ciphertext ++ tag.1) = asked prims recipientSecret enc ciphertext := by
  obtain ⟨front,middle,_⟩ := parts_of enc ciphertext tag
  rw [askedBy,front,block_val,middle]

-- A text that opens and keeps the tag of another, or all but its tag, is that text.
theorem open_unique (opened : hpkeOpen prims recipientSecret wire = .ok plaintext)
    (opened' : hpkeOpen prims recipientSecret wire' = .ok plaintext')
    (apart : Apart prims (askedBy prims recipientSecret wire ++ askedBy prims recipientSecret wire'))
    (kept : tagOf wire' = tagOf wire ∨ encOf wire' = encOf wire ∧ textOf wire' = textOf wire) : wire' = wire := by
  obtain ⟨enc,ciphertext,tag,key,nonce,rfl,derived,committed,_⟩ := open_ok.mp opened
  obtain ⟨enc',ciphertext',tag',key',nonce',rfl,derived',committed',_⟩ := open_ok.mp opened'
  obtain ⟨front,middle,back⟩ := parts_of enc ciphertext tag
  obtain ⟨front',middle',back'⟩ := parts_of enc' ciphertext' tag'
  rcases kept with tags | ⟨encs,texts⟩
  · rw [back,back'] at tags
    have same : tag' = tag := Subtype.ext tags
    rw [asked_by,asked_by] at apart
    obtain ⟨rfl,rfl⟩ := commitment_binds derived derived' apart (committed.trans (same.symm.trans committed'.symm))
    rw [same]
  · rw [front,front'] at encs
    rw [middle,middle'] at texts
    have same : enc' = enc := Subtype.ext encs
    subst same texts
    rw [derived] at derived'
    cases derived'
    rw [← committed,← committed']

theorem seal_opens (documented : Documented prims)
    (sealed : hpkeSeal prims ephemeralSecret (prims.publicKey recipientSecret) plaintext = .ok wire) :
    hpkeOpen prims recipientSecret wire = .ok plaintext := by
  obtain ⟨key,nonce,derived,fits,rfl⟩ := (seal_ok documented).mp sealed
  exact open_ok.mpr ⟨prims.publicKey ephemeralSecret,_,_,key,nonce,rfl,derived,rfl,by rwa [xor_length],
    (xor_twice key nonce 64 plaintext).symm⟩

theorem envelope_sealed (prims : HpkePrimitives) (documented : Documented prims) (recipientSecret : X25519Key) :
    (∀ ephemeralSecret plaintext, plaintext.length + 128 ≤ 2 ^ 38 →
      ∃ wire, hpkeSeal prims ephemeralSecret (prims.publicKey recipientSecret) plaintext = .ok wire ∧
        hpkeOpen prims recipientSecret wire = .ok plaintext) ∧
    (∀ wire plaintext, hpkeOpen prims recipientSecret wire = .ok plaintext →
      ∃ (enc : X25519Key) (ciphertext : Bytes) (tag : CtxTag) (key : AeadKey) (nonce : AeadNonce),
        wire = enc.1 ++ ciphertext ++ tag.1 ∧ deriveKeys prims recipientSecret enc = .ok (key,nonce) ∧
        tag = computeCommitment prims key nonce ciphertext) ∧
    ∀ ephemeralSecret plaintext wire wire' plaintext',
      hpkeSeal prims ephemeralSecret (prims.publicKey recipientSecret) plaintext = .ok wire →
      Apart prims (askedBy prims recipientSecret wire ++ askedBy prims recipientSecret wire') →
      (tagOf wire' = tagOf wire ∨ encOf wire' = encOf wire ∧ textOf wire' = textOf wire) →
      hpkeOpen prims recipientSecret wire' = .ok plaintext' → wire' = wire := by
  refine ⟨?_,?_,?_⟩
  · intro ephemeralSecret plaintext fits
    obtain ⟨keys,derived⟩ := derive_total documented recipientSecret ephemeralSecret
    have sealed := (seal_ok documented).mpr ⟨keys.1,keys.2,derived,fits,rfl⟩
    exact ⟨_,sealed,seal_opens documented sealed⟩
  · intro wire plaintext opened
    obtain ⟨enc,ciphertext,tag,key,nonce,whole,derived,committed,_⟩ := open_ok.mp opened
    exact ⟨enc,ciphertext,tag,key,nonce,whole,derived,committed.symm⟩
  · intro ephemeralSecret plaintext wire wire' plaintext' sealed apart kept opened
    exact open_unique (seal_opens documented sealed) opened apart kept

-- Stand-ins for the packages: a polynomial fingerprint for the hashes and a bytewise
-- sum for the shared secret.
def fingerprint (input : Bytes) : Nat := input.foldl (fun value byte => (257 * value + byte.toNat + 1) % 2 ^ 256) 0

def digest (size : Nat) (input : Bytes) : Block size :=
  ⟨(List.range size).map fun i => UInt8.ofNat (fingerprint input / 256 ^ (i % 32)),by simp⟩

def summed (a b : X25519Key) : Block 32 :=
  ⟨1 :: List.zipWith (· + ·) (a.1.drop 1) (b.1.drop 1),by simp [a.2,b.2]⟩

def plainHpke : HpkePrimitives where
  publicKey := fun secret => secret
  diffieHellman := summed
  extract := fun salt ikm => digest 32 (salt ++ ikm)
  expand := fun prk info size => if size ≤ 255 * 32 then some (digest size (prk.1 ++ info)) else none
  blake3 := digest 32
  keystream := fun key nonce i => UInt8.ofNat (fingerprint (key.1 ++ nonce.1) / 256 ^ (i % 32))

theorem plain_documented : Documented plainHpke where
  agreement := by
    intro a b
    apply Subtype.ext
    exact congrArg (1 :: ·) (List.zipWith_comm_of_comm UInt8.add_comm)
  contributory := by
    intro a b zero
    cases congrArg (fun shared : Block 32 => shared.1.head?) zero
  expands := by
    intro prk info size short
    simp [plainHpke,short]

def recipientKey : X25519Key := ⟨List.replicate 32 5,by simp⟩

def ephemeralKey : X25519Key := ⟨List.replicate 32 9,by simp⟩

def sealedWire : Bytes := ((hpkeSeal plainHpke ephemeralKey recipientKey [7,8]).toOption).getD []

-- One bit of the encapsulated key is flipped.
def alteredWire : Bytes := 8 :: sealedWire.drop 1

theorem envelope_sealed_plain :
    (∃ wire, hpkeSeal plainHpke ephemeralKey (plainHpke.publicKey recipientKey) [7,8] = .ok wire ∧
      hpkeOpen plainHpke recipientKey wire = .ok [7,8]) ∧
    ∀ plaintext, hpkeOpen plainHpke recipientKey alteredWire ≠ .ok plaintext := by
  obtain ⟨round,_,unique⟩ := envelope_sealed plainHpke plain_documented recipientKey
  refine ⟨round ephemeralKey [7,8] (by decide),fun plaintext opened => ?_⟩
  have sealed : hpkeSeal plainHpke ephemeralKey (plainHpke.publicKey recipientKey) [7,8] = .ok sealedWire := by
    decide +kernel
  have apart : Apart plainHpke (askedBy plainHpke recipientKey sealedWire ++ askedBy plainHpke recipientKey alteredWire) := by
    decide +kernel
  have same := unique ephemeralKey [7,8] sealedWire alteredWire plaintext sealed apart (.inl (by decide +kernel)) opened
  revert same
  decide +kernel

-- The block counter of the cipher has 32 bits.
theorem vast_unsealed : ¬ ∃ wire,
    hpkeSeal plainHpke ephemeralKey (plainHpke.publicKey recipientKey) (List.replicate (2 ^ 38) 0) = .ok wire := by
  rintro ⟨wire,sealed⟩
  obtain ⟨_,_,_,fits,_⟩ := (seal_ok plain_documented).mp sealed
  rw [List.length_replicate] at fits
  omega

end ArxRuna.Sharing.Envelope
