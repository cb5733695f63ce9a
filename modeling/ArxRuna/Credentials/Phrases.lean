import ArxRuna.Credentials.Lockout
import ArxRuna.Library.Run
namespace ArxRuna.Credentials.Phrases
open Library.Aead Library.Base64 Library.Fallible Library.Interrupt Library.JsonText Library.Run Crypto
open Keys Header Rekey Device Ceremonies Recovery Lockout

structure SetupRecoveryRequest where
  currentPassword : Bytes
  currentKeySource : Option String
  vaultDb : String

-- `words` are the words that BIP-39 has for the entropy drawn.
structure SetupEnv extends CeremonyEnv where
  words : List String
  readsIdentity : Fate AuthenticationError

variable (suite : Suite)

def verifyCredentialsViaIdentityRow (env : SetupEnv) (vaultDb : String) (keys : VaultKeys) (identity : Uuid) :
    Command World AuthenticationError Unit := do
  meet env.readsIdentity
  let database ← openDatabase vaultDb keys.sqlcipherKey .invalidCredentials
  match database.tables.vaultIdentity with
  | none => fail .invalidCredentials
  | some blob =>
    match block 72 blob with
    | none => fail .vaultHeaderInvalid
    | some wrapped =>
      match unwrapFileKey suite.toPrimitives wrapped identity keys.keyEncryptionKey with
      | .error _ => fail .invalidCredentials
      | .ok _ => pure ()

def recoverySlot (env : SetupEnv) (parameters : Argon2Params) (masterKey : MasterKey) (recoveryKey : RecoveryKey)
    (vaultId : Uuid) : RecoverySlot where
  method := "bip39"
  argon2Salt := encodeBase64 env.salt.1
  argon2Params := argon2ParametersToJson parameters
  wrappedMasterKey := encodeBase64 (wrapMasterKeyForRecovery suite masterKey recoveryKey vaultId env.nonce).1

def setupRecovery (env : SetupEnv) (request : SetupRecoveryRequest) (header : VaultHeader) (vaultId : Uuid) :
    Command World AuthenticationError (Bytes × VaultHeader) := do
  require (← inspect).session.isSome .sessionNotActive
  let currentSalt ← demand (decodeBase64_32 header.argon2Salt)
  let currentParams := argon2ParametersFromJson header.argon2Params
  let keyFile ← readKeySource env.toCeremonyEnv header.tier request.currentKeySource
  let masterKey ← demand (deriveMasterKey suite request.currentPassword keyFile currentSalt currentParams)
  meet env.locksCurrent
  verifyCredentialsViaIdentityRow suite env request.vaultDb (deriveVaultKeys suite masterKey) vaultId
  let phrase := canonicalizePhrase env.words
  let recoveryKey ← demand (deriveMasterKey suite phrase none env.salt currentParams)
  let slot := recoverySlot suite env currentParams masterKey recoveryKey vaultId
  let updated : VaultHeader := {header with recoverySlots := header.recoverySlots ++ [slot]}
  meet env.stages
  relabel (fun _ => .vaultHeaderInvalid) (uploadVaultHeader env.header .config updated)
  return (phrase,updated)

def slotMasterKey (phrase : Bytes) (vaultId : Uuid) (slot : RecoverySlot) : Option (MasterKey × RecoveryKey) :=
  if slot.method = "bip39" then
    match suite.mnemonic phrase with
    | none => none
    | some words =>
      match openSlot suite (canonicalizePhrase words) slot with
      | .error _ => none
      | .ok (wrapped,recoveryKey) =>
        match unwrapMasterKeyFromRecovery suite wrapped recoveryKey vaultId with
        | .error _ => none
        | .ok masterKey => some (masterKey,recoveryKey)
  else none

def Unlocks (header : VaultHeader) (vaultId : Uuid) (phrase : Bytes) : Prop :=
  ∃ slot ∈ header.recoverySlots, (slotMasterKey suite phrase vaultId slot).isSome = true

-- The check of a phrase, as each kind of ceremony makes it.
def acceptedByRekey (header : VaultHeader) (vaultId : Uuid) (phrase : Bytes) : Prop :=
  ∃ recoveryKey, resolveRecoverySlotAction suite header (some phrase) vaultId = .ok (.keepAndRewrap recoveryKey)

def acceptedByRecovery (header : VaultHeader) (vaultId : Uuid) (phrase : Bytes) : Prop :=
  ∃ words found, suite.mnemonic phrase = some words ∧
    recoverMasterKey suite header (canonicalizePhrase words) vaultId = .ok found

-- No phrase finds a master key in this header under which the database does not open.
def Current (header : VaultHeader) (key : Option SqlcipherKey) : Prop :=
  ∀ vaultId, suite.parseUuid header.vaultId = some vaultId → ∀ slot ∈ header.recoverySlots, ∀ phrase found,
    slotMasterKey suite phrase vaultId slot = some found → some (deriveVaultKeys suite found.1).sqlcipherKey = key

def Follows (header : VaultHeader) (vaultId : Uuid) (phrase : Bytes) (key : Option SqlcipherKey) : Prop :=
  ∃ words found, suite.mnemonic phrase = some words ∧
    recoverMasterKey suite header (canonicalizePhrase words) vaultId = .ok found ∧
      some (deriveVaultKeys suite found.1).sqlcipherKey = key

-- The header its callers hold, and `keyed`, the key the database had when this
-- header was made.
structure State where
  world : World
  header : VaultHeader
  keyed : Option SqlcipherKey

inductive Action where
  | setupRecovery (env : SetupEnv) (request : SetupRecoveryRequest)
  | changePassword (env : CeremonyEnv) (request : ChangePasswordRequest)
  | rotateKeyFile (env : CeremonyEnv) (request : RotateKeyFileRequest)
  | recoverWithPhrase (env : RecoverEnv) (request : RecoverWithPhraseRequest)
  | elsewhere (world : World)

variable (dir : String)

-- A ceremony that fails or stops leaves its callers the header they had.
def advance (s : State) (header : α → VaultHeader) : Ending AuthenticationError α × World → State
  | (.done a,w) => ⟨w,header a,databaseKey w dir⟩
  | (_,w) => {s with world := w}

def step (s : State) : Action → Option State
  | .setupRecovery env request => do
    let vaultId ← suite.parseUuid s.header.vaultId
    return advance dir s (·.2) (setupRecovery suite env {request with vaultDb := dir} s.header vaultId s.world)
  | .changePassword env request => do
    let vaultId ← suite.parseUuid s.header.vaultId
    return advance dir s id (changePassword suite env {request with vaultDb := dir} s.header vaultId s.world)
  | .rotateKeyFile env request => do
    let vaultId ← suite.parseUuid s.header.vaultId
    return advance dir s id (rotateKeyFile suite env {request with vaultDb := dir} s.header vaultId s.world)
  | .recoverWithPhrase env request => some (advance dir s (·.2) (recoverWithPhrase suite env
      {request with vaultDb := dir,header := request.header.map fun _ => s.header} s.world))
  | .elsewhere world => some {s with world := world}

def outcome (header : α → VaultHeader) : Ending AuthenticationError α × World → Option (VaultHeader × Option SqlcipherKey)
  | (.done a,w) => some (header a,databaseKey w dir)
  | _ => none

structure Survives (header : VaultHeader) (vaultId : Uuid) (phrase : Option Bytes) (accepted : Bytes → Prop)
    (outcome : Option (VaultHeader × Option SqlcipherKey)) : Prop where
  accepts : ∀ p ∈ phrase, Unlocks suite header vaultId p → accepted p
  follows : ∀ updated key, outcome = some (updated,key) → ∀ p ∈ phrase, Unlocks suite header vaultId p →
    Follows suite updated vaultId p key
  current : ∀ updated key, outcome = some (updated,key) → Current suite updated key

-- The header a recovery works on is the caller's, or the one in the cloud.
def RecoversFrom (env : RecoverEnv) (request : RecoverWithPhraseRequest) (s : State) (header : VaultHeader) : Prop :=
  ∃ w, recoveryHeader env {request with vaultDb := dir,header := request.header.map fun _ => s.header} s.world =
    (.done header,w)

def PhrasesSurvive (s : State) : Action → Prop
  | .setupRecovery env request => ∀ vaultId, suite.parseUuid s.header.vaultId = some vaultId →
    Survives suite s.header vaultId none (fun _ => True)
      (outcome dir (·.2) (setupRecovery suite env {request with vaultDb := dir} s.header vaultId s.world))
  | .changePassword env request => ∀ vaultId, suite.parseUuid s.header.vaultId = some vaultId →
    Survives suite s.header vaultId request.recoveryPhrase (acceptedByRekey suite s.header vaultId)
      (outcome dir id (changePassword suite env {request with vaultDb := dir} s.header vaultId s.world))
  | .rotateKeyFile env request => ∀ vaultId, suite.parseUuid s.header.vaultId = some vaultId →
    Survives suite s.header vaultId request.recoveryPhrase (acceptedByRekey suite s.header vaultId)
      (outcome dir id (rotateKeyFile suite env {request with vaultDb := dir} s.header vaultId s.world))
  | .recoverWithPhrase env request => ∀ header vaultId, RecoversFrom dir env request s header →
    suite.parseUuid header.vaultId = some vaultId →
      Survives suite header vaultId (some request.phrase) (acceptedByRecovery suite header vaultId)
        (outcome dir (·.2) (recoverWithPhrase suite env
          {request with vaultDb := dir,header := request.header.map fun _ => s.header} s.world))
  | .elsewhere _ => True

-- A ceremony is given a phrase of the header's one slot, or of none; and a slot is
-- added only while the database has the key it had when the header was made.
def Sole (header : VaultHeader) (vaultId : Uuid) (phrase : Bytes) : Prop :=
  Unlocks suite header vaultId phrase → header.recoverySlots.length = 1

-- A rekey that is reported but undone is found out by the session, whose database
-- is the vault's.
def FoundOut (env : CeremonyEnv) (w : World) : Prop :=
  env.rekey.faults.rekeys = .undone → ∀ session ∈ w.session, session.vaultDb = dir

def Orderly (s : State) : Action → Prop
  | .setupRecovery _ _ => databaseKey s.world dir = s.keyed
  | .changePassword env request => FoundOut dir env s.world ∧ ∀ vaultId, suite.parseUuid s.header.vaultId = some vaultId →
    ∀ p ∈ request.recoveryPhrase, Sole suite s.header vaultId p
  | .rotateKeyFile env request => FoundOut dir env s.world ∧ ∀ vaultId, suite.parseUuid s.header.vaultId = some vaultId →
    ∀ p ∈ request.recoveryPhrase, Sole suite s.header vaultId p
  | .recoverWithPhrase env request => ∀ header vaultId, RecoversFrom dir env request s header →
    suite.parseUuid header.vaultId = some vaultId → Sole suite header vaultId request.phrase
  | .elsewhere _ => True

-- The cipher gives no other text under another key.
def Binding : Prop :=
  ∀ masterKey recoveryKey vaultId nonce other found, unwrapMasterKeyFromRecovery suite
    (wrapMasterKeyForRecovery suite masterKey recoveryKey vaultId nonce) other vaultId = .ok found → found = masterKey

section Slots
variable {suite : Suite} {phrase : Bytes} {vaultId : Uuid} {slot : RecoverySlot} {header : VaultHeader}
  {masterKey : MasterKey} {recoveryKey : RecoveryKey} {words : List String}

theorem open_slot_ok {canonical : Bytes} {wrapped : WrappedMasterKey} :
    openSlot suite canonical slot = .ok (wrapped,recoveryKey) ↔ ∃ salt, decodeBase64_32 slot.argon2Salt = .ok salt ∧
      decodeBase64_72 slot.wrappedMasterKey = .ok wrapped ∧
        deriveMasterKey suite canonical none salt (argon2ParametersFromJson slot.argon2Params) = .ok recoveryKey := by
  unfold openSlot
  constructor
  · intro read
    obtain ⟨salt,decoded,read⟩ := bind_ok.mp read
    obtain ⟨cut,held,read⟩ := bind_ok.mp read
    obtain ⟨key,derived,same⟩ := bind_ok.mp read
    cases same
    exact ⟨salt,decoded,held,derived⟩
  · rintro ⟨salt,decoded,held,derived⟩
    exact bind_ok.mpr ⟨salt,decoded,bind_ok.mpr ⟨wrapped,held,bind_ok.mpr ⟨recoveryKey,derived,rfl⟩⟩⟩

theorem slot_opens (opened : slotMasterKey suite phrase vaultId slot = some (masterKey,recoveryKey)) :
    slot.method = "bip39" ∧ ∃ words wrapped, suite.mnemonic phrase = some words ∧
      openSlot suite (canonicalizePhrase words) slot = .ok (wrapped,recoveryKey) ∧
        unwrapMasterKeyFromRecovery suite wrapped recoveryKey vaultId = .ok masterKey := by
  unfold slotMasterKey at opened
  split at opened
  · rename_i method
    refine ⟨method,?_⟩
    cases parsed : suite.mnemonic phrase with
    | none =>
      rw [parsed] at opened
      cases opened
    | some words =>
      rw [parsed] at opened
      dsimp only at opened
      rcases read : openSlot suite (canonicalizePhrase words) slot with e | ⟨wrapped,key⟩
      · rw [read] at opened
        cases opened
      · rw [read] at opened
        dsimp only at opened
        rcases unwrapped : unwrapMasterKeyFromRecovery suite wrapped key vaultId with e | found
        · rw [unwrapped] at opened
          cases opened
        · rw [unwrapped] at opened
          cases opened
          exact ⟨words,wrapped,rfl,read,unwrapped⟩
  · cases opened

theorem opens_slot {wrapped : WrappedMasterKey} (method : slot.method = "bip39") (parsed : suite.mnemonic phrase = some words)
    (read : openSlot suite (canonicalizePhrase words) slot = .ok (wrapped,recoveryKey))
    (unwrapped : unwrapMasterKeyFromRecovery suite wrapped recoveryKey vaultId = .ok masterKey) :
    slotMasterKey suite phrase vaultId slot = some (masterKey,recoveryKey) := by
  rw [slotMasterKey,if_pos method,parsed]
  dsimp only
  rw [read]
  dsimp only
  rw [unwrapped]

theorem sole_resolves (one : header.recoverySlots = [slot])
    (opened : slotMasterKey suite phrase vaultId slot = some (masterKey,recoveryKey)) :
    resolveRecoverySlotAction suite header (some phrase) vaultId = .ok (.keepAndRewrap recoveryKey) := by
  obtain ⟨method,words,wrapped,parsed,read,unwrapped⟩ := slot_opens opened
  have found : firstSlot [slot] = some slot := by simp [firstSlot,method]
  rw [resolveRecoverySlotAction,if_neg (by rw [one]; exact List.cons_ne_nil _ _)]
  dsimp only
  rw [parsed]
  dsimp only
  rw [one,found]
  dsimp only
  refine bind_ok.mpr ⟨(wrapped,recoveryKey),read,?_⟩
  dsimp only
  rw [unwrapped]

theorem sole_recovers (one : header.recoverySlots = [slot])
    (opened : slotMasterKey suite phrase vaultId slot = some (masterKey,recoveryKey)) : ∃ words,
      suite.mnemonic phrase = some words ∧
        recoverMasterKey suite header (canonicalizePhrase words) vaultId = .ok (masterKey,recoveryKey) := by
  obtain ⟨method,words,wrapped,parsed,read,unwrapped⟩ := slot_opens opened
  refine ⟨words,parsed,?_⟩
  have found : findRecoverySlot suite (canonicalizePhrase words) vaultId [slot] = .ok (some (masterKey,recoveryKey)) := by
    rw [findRecoverySlot,if_pos method]
    refine bind_ok.mpr ⟨(wrapped,recoveryKey),read,?_⟩
    dsimp only
    rw [unwrapped]
  unfold recoverMasterKey
  rw [one,found]
  simp [ensure,method]
  rfl

theorem resolve_cases {given : Option Bytes} {decided : RecoverySlotAction}
    (resolved : resolveRecoverySlotAction suite header given vaultId = .ok decided) :
    (decided = .noSlots ∧ header.recoverySlots = []) ∨ (decided = .remove ∧ given = none) ∨
      ∃ phrase slot masterKey recoveryKey, given = some phrase ∧ decided = .keepAndRewrap recoveryKey ∧
        slot ∈ header.recoverySlots ∧ slotMasterKey suite phrase vaultId slot = some (masterKey,recoveryKey) := by
  unfold resolveRecoverySlotAction at resolved
  split at resolved
  · rename_i empty
    cases resolved
    exact .inl ⟨rfl,empty⟩
  · cases given with
    | none =>
      cases resolved
      exact .inr (.inl ⟨rfl,rfl⟩)
    | some phrase =>
      dsimp only at resolved
      cases parsed : suite.mnemonic phrase with
      | none =>
        rw [parsed] at resolved
        cases resolved
      | some words =>
        rw [parsed] at resolved
        dsimp only at resolved
        cases found : firstSlot header.recoverySlots with
        | none =>
          rw [found] at resolved
          cases resolved
        | some slot =>
          rw [found] at resolved
          dsimp only at resolved
          obtain ⟨⟨wrapped,recoveryKey⟩,read,resolved⟩ := bind_ok.mp resolved
          dsimp only at resolved
          rcases unwrapped : unwrapMasterKeyFromRecovery suite wrapped recoveryKey vaultId with e | masterKey
          · rw [unwrapped] at resolved
            cases resolved
          · rw [unwrapped] at resolved
            cases resolved
            have method : slot.method = "bip39" := by
              have holds := List.find?_some found
              exact of_decide_eq_true holds
            refine .inr (.inr ⟨phrase,slot,masterKey,recoveryKey,rfl,rfl,List.mem_of_find?_eq_some found,?_⟩)
            exact opens_slot method parsed read unwrapped

theorem find_slot_some {slots : List RecoverySlot} (parsed : suite.mnemonic phrase = some words)
    (found : findRecoverySlot suite (canonicalizePhrase words) vaultId slots = .ok (some (masterKey,recoveryKey))) :
    ∃ slot ∈ slots, slotMasterKey suite phrase vaultId slot = some (masterKey,recoveryKey) := by
  induction slots with
  | nil => cases found
  | cons slot rest ih =>
    have later (found : findRecoverySlot suite (canonicalizePhrase words) vaultId rest = .ok (some (masterKey,recoveryKey))) :
        ∃ slot' ∈ slot :: rest, slotMasterKey suite phrase vaultId slot' = some (masterKey,recoveryKey) := by
      obtain ⟨other,member,opened⟩ := ih found
      exact ⟨other,List.mem_cons_of_mem _ member,opened⟩
    rw [findRecoverySlot] at found
    split at found
    · rename_i method
      obtain ⟨⟨wrapped,key⟩,read,found⟩ := bind_ok.mp found
      dsimp only at found
      rcases unwrapped : unwrapMasterKeyFromRecovery suite wrapped key vaultId with e | first
      · rw [unwrapped] at found
        exact later found
      · rw [unwrapped] at found
        cases found
        exact ⟨slot,List.mem_cons_self,opens_slot method parsed read unwrapped⟩
    · exact later found

theorem recover_slot (parsed : suite.mnemonic phrase = some words)
    (recovered : recoverMasterKey suite header (canonicalizePhrase words) vaultId = .ok (masterKey,recoveryKey)) :
    ∃ slot ∈ header.recoverySlots, slotMasterKey suite phrase vaultId slot = some (masterKey,recoveryKey) := by
  obtain ⟨_,_,recovered⟩ := bind_ok.mp recovered
  obtain ⟨result,searched,recovered⟩ := bind_ok.mp recovered
  obtain ⟨_,_,recovered⟩ := bind_ok.mp recovered
  cases result with
  | none => cases recovered
  | some keys =>
    cases recovered
    exact find_slot_some parsed searched

def rewrapped (suite : Suite) (slot : RecoverySlot) (masterKey : MasterKey) (recoveryKey : RecoveryKey) (vaultId : Uuid)
    (nonce : Nonce) : RecoverySlot :=
  {slot with wrappedMasterKey := encodeBase64 (wrapMasterKeyForRecovery suite masterKey recoveryKey vaultId nonce).1}

theorem rewrapped_opens {newKey : MasterKey} {nonce : Nonce}
    (opened : slotMasterKey suite phrase vaultId slot = some (masterKey,recoveryKey)) :
    slotMasterKey suite phrase vaultId (rewrapped suite slot newKey recoveryKey vaultId nonce) =
      some (newKey,recoveryKey) := by
  obtain ⟨method,words,wrapped,parsed,read,_⟩ := slot_opens opened
  obtain ⟨salt,decoded,_,derived⟩ := open_slot_ok.mp read
  have read' : openSlot suite (canonicalizePhrase words) (rewrapped suite slot newKey recoveryKey vaultId nonce) =
      .ok (wrapMasterKeyForRecovery suite newKey recoveryKey vaultId nonce,recoveryKey) :=
    open_slot_ok.mpr ⟨salt,decoded,decode_encode_wrapped _,derived⟩
  exact opens_slot method parsed read' (unwrap_wrap_master suite newKey recoveryKey vaultId nonce)

theorem wrapped_found (binding : Binding suite) {newKey other : MasterKey} {nonce : Nonce} {found : MasterKey × RecoveryKey}
    (holds : slot.wrappedMasterKey = encodeBase64 (wrapMasterKeyForRecovery suite newKey other vaultId nonce).1)
    (opened : slotMasterKey suite phrase vaultId slot = some found) : found.1 = newKey := by
  obtain ⟨masterKey,recoveryKey⟩ := found
  obtain ⟨_,words,wrapped,_,read,unwrapped⟩ := slot_opens opened
  obtain ⟨_,_,held,_⟩ := open_slot_ok.mp read
  rw [holds,decode_encode_wrapped] at held
  cases held
  exact binding _ _ _ _ _ _ unwrapped

end Slots

section Ceremonies
variable {suite : Suite} {w v u : World} {dir : String} {header : VaultHeader} {vaultId : Uuid}

theorem opened_key {key : SqlcipherKey} (there : (u.vaults dir).database.isSome)
    (opens : ∀ database ∈ (u.vaults dir).database, database.key = key) : databaseKey u dir = some key := by
  obtain ⟨database,found⟩ := Option.isSome_iff_exists.mp there
  rw [databaseKey,found,Option.map_some,opens database found]

theorem rekey_task_key {env : CeremonyEnv} {currentKeys newKeys : VaultKeys}
    (done : rekeyTask suite env dir currentKeys newKeys vaultId w = (.done (.ok ()),u)) :
    databaseKey u dir = some newKeys.sqlcipherKey ∨
      env.rekey.faults.rekeys = .undone ∧ (u.vaults dir).database.isSome := by
  by_cases lands : Lands suite env dir currentKeys vaultId w
  · obtain ⟨tables,landed⟩ := rekey_task_lands newKeys lands
    rw [landed] at done
    obtain ⟨_,_,ended,returned⟩ := done_bind.mp done
    obtain ⟨_,rfl⟩ := done_meet.mp ended
    obtain ⟨_,rfl⟩ := done_pure.mp returned
    exact .inl (by simp [databaseKey,World.setDatabase,World.setVault])
  · obtain ⟨left,reported⟩ := rekey_task_spares newKeys lands
    obtain ⟨undone,there⟩ := reported u done
    rw [done] at left
    refine .inr ⟨undone,?_⟩
    rcases left with rfl | ⟨database,tables,_,rfl⟩
    · exact there
    · simp [World.setDatabase,World.setVault]

theorem rekey_task_session {env : CeremonyEnv} {currentKeys newKeys : VaultKeys} :
    Keeps (fun w after => after.session = w.session) (rekeyTask suite env dir currentKeys newKeys vaultId) :=
  keeps_rekey_task (R := fun w after => after.session = w.session) (fun _ => rfl) (fun _ _ _ first second => second.trans first) fun _ _ _ => rfl

theorem install_key {env : CeremonyEnv} {keys : VaultKeys} {updated returned : VaultHeader}
    (done : installCredentials suite env keys updated dir vaultId w = (.done returned,u)) :
    returned = updated ∧ databaseKey u dir = databaseKey w dir := by
  refine ⟨returns_header done,?_⟩
  have locks : SameLocks w (installCredentials suite env keys updated dir vaultId w).2 :=
    keeps_install locks_refl locks_trans locks_session locks_cloud (fun w => locks_staged w _)
      (fun w => locks_staged w _) w
  rw [done] at locks
  exact locks.databases dir

theorem installed_key {env : CeremonyEnv} {currentKeys newKeys : VaultKeys} {updated returned : VaultHeader}
    (rekeyed : rekeyTask suite env dir currentKeys newKeys vaultId v = (.done (.ok ()),w))
    (done : installCredentials suite env newKeys updated dir vaultId w = (.done returned,u))
    (foundOut : FoundOut dir env v) : databaseKey u dir = some newKeys.sqlcipherKey := by
  rw [(install_key done).2]
  rcases rekey_task_key rekeyed with key | ⟨undone,there⟩
  · exact key
  · obtain ⟨session,active,opens⟩ := install_opens done
    have kept : (rekeyTask suite env dir currentKeys newKeys vaultId v).2.session = v.session := rekey_task_session v
    rw [rekeyed] at kept
    rw [foundOut undone session (kept ▸ active)] at opens
    exact opened_key there opens

-- What a ceremony that rekeyed makes of the slots.
structure Moved (suite : Suite) (nonce : Nonce) (header updated : VaultHeader) (vaultId : Uuid) (newKey : MasterKey)
    (slots : RecoverySlotAction) : Prop where
  named : updated.vaultId = header.vaultId
  moved : updated.recoverySlots = match slots with
    | .remove => []
    | .noSlots => header.recoverySlots
    | .keepAndRewrap recoveryKey => replaceFirstSlot
        (wrapMasterKeyForRecovery suite newKey recoveryKey vaultId nonce) header.recoverySlots

theorem change_moves {env : CeremonyEnv} {request : ChangePasswordRequest} {updated : VaultHeader}
    (done : changePassword suite env request header vaultId w = (.done updated,u))
    (foundOut : FoundOut request.vaultDb env w) : ∃ newKey slots,
      resolveRecoverySlotAction suite header request.recoveryPhrase vaultId = .ok slots ∧
        Moved suite env.nonce header updated vaultId newKey slots ∧
          databaseKey u request.vaultDb = some (deriveVaultKeys suite newKey).sqlcipherKey := by
  obtain ⟨prepared,v,ready,done⟩ := done_bind.mp done
  obtain ⟨result,t,rekeyed,done⟩ := done_bind.mp done
  obtain ⟨value,_,passed,done⟩ := done_bind.mp done
  obtain ⟨succeeded,same⟩ := done_demand.mp passed
  subst succeeded same
  have session : (prepareChange suite env request header vaultId w).2.session = w.session :=
    keeps_prepare_change (R := fun w after => after.session = w.session) (fun _ => rfl)
      (fun _ _ _ first second => second.trans first) w
  rw [ready] at session
  have key := installed_key rekeyed done fun undone => session ▸ foundOut undone
  obtain ⟨rfl,_⟩ := install_key done
  unfold prepareChange at ready
  simp only [done_bind,done_inspect,done_require,done_demand,done_meet,done_pure] at ready
  obtain ⟨_,_,_,_,_,_,_,_,_,keyFile,_,_,_,_,_,_,_,_,slots,_,⟨resolved,_⟩,newKey,_,⟨derived,_⟩,_,_,_,rfl,_⟩ := ready
  exact ⟨newKey,slots,resolved,⟨rfl,rfl⟩,key⟩

theorem rotate_moves {env : CeremonyEnv} {request : RotateKeyFileRequest} {updated : VaultHeader}
    (done : rotateKeyFile suite env request header vaultId w = (.done updated,u))
    (foundOut : FoundOut request.vaultDb env w) : ∃ newKey slots,
      resolveRecoverySlotAction suite header request.recoveryPhrase vaultId = .ok slots ∧
        Moved suite env.nonce header updated vaultId newKey slots ∧
          databaseKey u request.vaultDb = some (deriveVaultKeys suite newKey).sqlcipherKey := by
  obtain ⟨prepared,v,ready,done⟩ := done_bind.mp done
  obtain ⟨result,t,rekeyed,done⟩ := done_bind.mp done
  cases result with
  | error e =>
    obtain ⟨_,_,_,failed⟩ := done_bind.mp done
    exact absurd failed not_done_fail
  | ok value =>
    have session : (prepareRotation suite env request header vaultId w).2.session = w.session :=
      keeps_prepare_rotation (R := fun w after => after.session = w.session) (fun _ => rfl)
        (fun _ _ _ first second => second.trans first) (fun _ _ _ _ => rfl) w
    rw [ready] at session
    have key := installed_key rekeyed done fun undone => session ▸ foundOut undone
    obtain ⟨rfl,_⟩ := install_key done
    unfold prepareRotation at ready
    simp only [done_bind,done_inspect,done_require,done_demand,done_meet,done_pure] at ready
    obtain ⟨_,_,_,_,_,_,_,_,_,_,_,_,keyFile,_,_,_,_,_,_,_,_,_,_,_,slots,_,⟨resolved,_⟩,_,_,_,newKey,_,⟨derived,_⟩,_,_,_,
      rfl,_⟩ := ready
    exact ⟨newKey,slots,resolved,⟨rfl,rfl⟩,key⟩

theorem recovery_header_reads {env : RecoverEnv} {request : RecoverWithPhraseRequest}
    (read : recoveryHeader env request w = (.done header,v)) : v = w := by
  have same : Same w (recoveryHeader env request w).2 := keeps_recovery_header same_refl same_trans w
  rw [read] at same
  exact same.symm

theorem finish_key {env : RecoverEnv} {keys : VaultKeys} {updated : VaultHeader} {returned : Uuid × VaultHeader}
    (done : finishRecovery suite env keys updated dir vaultId w = (.done returned,u)) :
    returned.2 = updated ∧ databaseKey u dir = databaseKey w dir := by
  have locks : SameLocks w (finishRecovery suite env keys updated dir vaultId w).2 :=
    keeps_finish_recovery locks_refl locks_trans locks_session locks_cloud (fun w => locks_staged w _)
      (fun w => locks_staged w _) w
  rw [done] at locks
  refine ⟨?_,locks.databases dir⟩
  unfold finishRecovery at done
  simp only [done_bind,done_pure] at done
  obtain ⟨_,_,_,_,_,_,_,_,_,rfl,_⟩ := done
  rfl

theorem recover_moves {env : RecoverEnv} {request : RecoverWithPhraseRequest} {returned : Uuid × VaultHeader}
    (done : recoverWithPhrase suite env request w = (.done returned,u)) :
    ∃ header vaultId words masterKey recoveryKey newKey, recoveryHeader env request w = (.done header,w) ∧
      suite.parseUuid header.vaultId = some vaultId ∧ suite.mnemonic request.phrase = some words ∧
        recoverMasterKey suite header (canonicalizePhrase words) vaultId = .ok (masterKey,recoveryKey) ∧
          Moved suite env.nonce header returned.2 vaultId newKey (.keepAndRewrap recoveryKey) ∧
            databaseKey u request.vaultDb = some (deriveVaultKeys suite newKey).sqlcipherKey := by
  obtain ⟨located,v,found,done⟩ := done_bind.mp done
  obtain ⟨recovered,t,prepared,done⟩ := done_bind.mp done
  obtain ⟨result,s,rekeyed,done⟩ := done_bind.mp done
  obtain ⟨value,_,passed,done⟩ := done_bind.mp done
  obtain ⟨succeeded,same⟩ := done_demand.mp passed
  subst succeeded same
  obtain ⟨updated,key⟩ := finish_key done
  have rekeyedKey : databaseKey s request.vaultDb = some recovered.prepared.newKeys.sqlcipherKey :=
    (rekey_task_key rekeyed).elim id fun ⟨_,there⟩ => opened_key there (finish_opens done)
  unfold locateRecovery at found
  simp only [done_bind,done_inspect,done_require,done_demand,done_meet,done_pure] at found
  obtain ⟨_,_,⟨_,rfl⟩,_,_,⟨_,rfl⟩,words,_,⟨parsed,rfl⟩,_,_,⟨_,rfl⟩,_,_,⟨_,rfl⟩,header,_,read,vaultId,_,⟨named,rfl⟩,
    ⟨masterKey,recoveryKey⟩,_,⟨unlocked,rfl⟩,_,_,⟨_,rfl⟩,_,_,⟨_,rfl⟩,rfl,rfl⟩ := found
  obtain rfl := recovery_header_reads read
  unfold prepareRecovery completeRecovery at prepared
  simp only [done_bind,done_demand,done_meet,done_pure] at prepared
  obtain ⟨_,_,_,keyFile,_,_,newKey,_,⟨_,_⟩,_,_,_,rfl,_⟩ := prepared
  refine ⟨header,vaultId,words,masterKey,recoveryKey,newKey,read,?_,?_,unlocked,?_,key.trans rekeyedKey⟩
  · unfold asVaultId at named
    split at named
    · cases named
    · cases named
      assumption
  · unfold asWords at parsed
    split at parsed
    · cases parsed
    · cases parsed
      assumption
  · rw [updated]
    exact ⟨rfl,rfl⟩

theorem open_database_key {key : SqlcipherKey} {e : AuthenticationError} {database : Database}
    (opened : openDatabase dir key e w = (.done database,v)) : v = w ∧ databaseKey w dir = some key := by
  unfold openDatabase at opened
  rw [bind_inspect] at opened
  unfold databaseKey
  cases there : (w.vaults dir).database with
  | none =>
    rw [there] at opened
    exact absurd opened not_done_fail
  | some found =>
    rw [there] at opened
    simp only [done_bind,done_require,done_pure] at opened
    obtain ⟨_,_,⟨opens,rfl⟩,_,rfl⟩ := opened
    exact ⟨rfl,congrArg some opens⟩

theorem verify_done {env : SetupEnv} {keys : VaultKeys} {value : Unit}
    (done : verifyCredentialsViaIdentityRow suite env dir keys vaultId w = (.done value,v)) :
    v = w ∧ databaseKey w dir = some keys.sqlcipherKey := by
  obtain ⟨_,_,met,done⟩ := done_bind.mp done
  obtain ⟨_,rfl⟩ := done_meet.mp met
  obtain ⟨database,t,opened,verified⟩ := done_bind.mp done
  obtain ⟨rfl,key⟩ := open_database_key opened
  refine ⟨?_,key⟩
  cases held : database.tables.vaultIdentity with
  | none =>
    rw [held] at verified
    exact absurd verified not_done_fail
  | some blob =>
    rw [held] at verified
    dsimp only at verified
    cases cut : block 72 blob with
    | none =>
      rw [cut] at verified
      exact absurd verified not_done_fail
    | some wrapped =>
      rw [cut] at verified
      dsimp only at verified
      cases unwrapped : unwrapFileKey suite.toPrimitives wrapped vaultId keys.keyEncryptionKey with
      | error e =>
        rw [unwrapped] at verified
        exact absurd verified not_done_fail
      | ok identity =>
        rw [unwrapped] at verified
        exact (done_pure.mp verified).2.symm

theorem header_upload_key {upload : HeaderUpload} {value : Unit}
    (uploaded : uploadVaultHeader upload .config header w = (.done value,u)) : databaseKey u dir = databaseKey w dir := by
  have locks : SameLocks w (uploadVaultHeader upload .config header w).2 :=
    keeps_upload_header locks_refl locks_trans locks_cloud (fun w => locks_staged w _) (fun w => locks_staged w _) w
  rw [uploaded] at locks
  exact locks.databases dir

theorem setup_adds {env : SetupEnv} {request : SetupRecoveryRequest} {returned : Bytes × VaultHeader}
    (done : setupRecovery suite env request header vaultId w = (.done returned,u)) :
    ∃ masterKey recoveryKey, returned.2 = {header with recoverySlots := header.recoverySlots ++
        [recoverySlot suite env (argon2ParametersFromJson header.argon2Params) masterKey recoveryKey vaultId]} ∧
      databaseKey w request.vaultDb = some (deriveVaultKeys suite masterKey).sqlcipherKey ∧
        databaseKey u request.vaultDb = databaseKey w request.vaultDb := by
  unfold setupRecovery at done
  simp only [done_bind,done_inspect,done_require,done_demand,done_meet,done_pure,done_relabel] at done
  obtain ⟨_,_,⟨rfl,rfl⟩,_,_,⟨_,rfl⟩,salt,_,⟨_,rfl⟩,keyFile,_,readKey,masterKey,_,⟨_,rfl⟩,_,_,⟨_,rfl⟩,_,_,verified,
    recoveryKey,_,⟨_,rfl⟩,_,_,⟨_,rfl⟩,_,_,uploaded,rfl,rfl⟩ := done
  obtain ⟨rfl,_⟩ := read_key_done readKey
  obtain ⟨rfl,key⟩ := verify_done verified
  exact ⟨masterKey,recoveryKey,rfl,key,header_upload_key uploaded⟩

end Ceremonies

section Claims
variable {suite : Suite} {dir : String} {header updated : VaultHeader} {vaultId : Uuid} {key : Option SqlcipherKey}
  {newKey : MasterKey} {nonce : Nonce}

theorem unlocked_slot {phrase : Bytes} (unlocks : Unlocks suite header vaultId phrase)
    (sole : Sole suite header vaultId phrase) : ∃ slot masterKey recoveryKey, header.recoverySlots = [slot] ∧
      slotMasterKey suite phrase vaultId slot = some (masterKey,recoveryKey) := by
  obtain ⟨slot,one⟩ := List.length_eq_one_iff.mp (sole unlocks)
  obtain ⟨found,member,opened⟩ := unlocks
  rw [one] at member
  obtain rfl := List.mem_singleton.mp member
  obtain ⟨⟨masterKey,recoveryKey⟩,opened⟩ := Option.isSome_iff_exists.mp opened
  exact ⟨found,masterKey,recoveryKey,one,opened⟩

theorem empty_current (empty : updated.recoverySlots = []) : Current suite updated key := by
  intro _ _ slot member
  rw [empty] at member
  cases member

theorem moved_sole {phrase : Bytes} {slot : RecoverySlot} {masterKey : MasterKey} {recoveryKey : RecoveryKey}
    (one : header.recoverySlots = [slot])
    (opened : slotMasterKey suite phrase vaultId slot = some (masterKey,recoveryKey))
    (moved : Moved suite nonce header updated vaultId newKey (.keepAndRewrap recoveryKey)) :
    updated.recoverySlots = [rewrapped suite slot newKey recoveryKey vaultId nonce] := by
  rw [moved.moved,one]
  exact if_pos (slot_opens opened).1

theorem moved_current {phrase : Bytes} {slot : RecoverySlot} {masterKey : MasterKey} {recoveryKey : RecoveryKey}
    (binding : Binding suite) (named : suite.parseUuid header.vaultId = some vaultId)
    (one : header.recoverySlots = [slot])
    (opened : slotMasterKey suite phrase vaultId slot = some (masterKey,recoveryKey))
    (moved : Moved suite nonce header updated vaultId newKey (.keepAndRewrap recoveryKey)) :
    Current suite updated (some (deriveVaultKeys suite newKey).sqlcipherKey) := by
  intro other parsed slot' member phrase' found opened'
  rw [moved.named,named] at parsed
  cases parsed
  rw [moved_sole one opened moved] at member
  obtain rfl := List.mem_singleton.mp member
  rw [wrapped_found binding rfl opened']

theorem moved_follows {phrase : Bytes} {slot : RecoverySlot} {masterKey : MasterKey} {recoveryKey : RecoveryKey}
    (one : header.recoverySlots = [slot])
    (opened : slotMasterKey suite phrase vaultId slot = some (masterKey,recoveryKey))
    (moved : Moved suite nonce header updated vaultId newKey (.keepAndRewrap recoveryKey)) :
    Follows suite updated vaultId phrase (some (deriveVaultKeys suite newKey).sqlcipherKey) := by
  obtain ⟨words,parsed,recovered⟩ := sole_recovers (moved_sole one opened moved) (rewrapped_opens opened)
  exact ⟨words,_,parsed,recovered,rfl⟩

theorem rekey_survives (nonce : Nonce) {given : Option Bytes} {outcome : Option (VaultHeader × Option SqlcipherKey)}
    (binding : Binding suite) (named : suite.parseUuid header.vaultId = some vaultId)
    (sole : ∀ p ∈ given, Sole suite header vaultId p)
    (moves : ∀ updated key, outcome = some (updated,key) → ∃ newKey slots,
      resolveRecoverySlotAction suite header given vaultId = .ok slots ∧
        Moved suite nonce header updated vaultId newKey slots ∧ key = some (deriveVaultKeys suite newKey).sqlcipherKey) :
    Survives suite header vaultId given (acceptedByRekey suite header vaultId) outcome := by
  refine ⟨fun p member unlocks => ?_,fun updated key ended p member unlocks => ?_,fun updated key ended => ?_⟩
  · obtain ⟨slot,_,recoveryKey,one,opened⟩ := unlocked_slot unlocks (sole p member)
    exact ⟨recoveryKey,sole_resolves one opened⟩
  · obtain ⟨slot,_,recoveryKey,one,opened⟩ := unlocked_slot unlocks (sole p member)
    obtain ⟨newKey,slots,resolved,moved,rfl⟩ := moves updated key ended
    rw [member] at resolved
    cases (sole_resolves one opened).symm.trans resolved
    exact moved_follows one opened moved
  · obtain ⟨newKey,slots,resolved,moved,rfl⟩ := moves updated key ended
    rcases resolve_cases resolved with ⟨rfl,empty⟩ | ⟨rfl,_⟩ | ⟨phrase,slot,masterKey,recoveryKey,given,rfl,member,opened⟩
    · exact empty_current (moved.moved.trans empty)
    · exact empty_current moved.moved
    · have unlocks : Unlocks suite header vaultId phrase := ⟨slot,member,by rw [opened]; rfl⟩
      obtain ⟨slot',_,recoveryKey',one,opened'⟩ := unlocked_slot unlocks (sole phrase given)
      rw [one] at member
      obtain rfl := List.mem_singleton.mp member
      exact moved_current binding named one opened moved

theorem outcome_some {α : Type} {made : α → VaultHeader} {ended : Ending AuthenticationError α × World}
    (there : outcome dir made ended = some (updated,key)) :
    ∃ a w, ended = (.done a,w) ∧ updated = made a ∧ key = databaseKey w dir := by
  obtain ⟨a | e | _,w⟩ := ended
  · cases there
    exact ⟨a,w,rfl,rfl,rfl⟩
  · cases there
  · cases there

theorem setup_survives {env : SetupEnv} {request : SetupRecoveryRequest} {s : State} (binding : Binding suite)
    (current : Current suite s.header s.keyed) (same : databaseKey s.world dir = s.keyed) :
    PhrasesSurvive suite dir s (.setupRecovery env request) := by
  intro vaultId named
  refine ⟨fun _ _ _ => trivial,(by rintro _ _ _ _ ⟨⟩),fun updated key ended => ?_⟩
  obtain ⟨returned,w,done,rfl,rfl⟩ := outcome_some ended
  obtain ⟨masterKey,recoveryKey,grown,opens,kept⟩ := setup_adds done
  intro other parsed slot member phrase found opened
  rw [grown] at parsed member
  cases named.symm.trans parsed
  have kept' : databaseKey w dir = databaseKey s.world dir := kept
  have opens' : databaseKey s.world dir = some (deriveVaultKeys suite masterKey).sqlcipherKey := opens
  rw [kept']
  rcases List.mem_append.mp member with old | new
  · rw [same]
    exact current vaultId named slot old phrase found opened
  · obtain rfl := List.mem_singleton.mp new
    rw [wrapped_found binding rfl opened,opens']

theorem change_survives {env : CeremonyEnv} {request : ChangePasswordRequest} {s : State} (binding : Binding suite)
    (orderly : Orderly suite dir s (.changePassword env request)) :
    PhrasesSurvive suite dir s (.changePassword env request) := by
  intro vaultId named
  refine rekey_survives env.nonce binding named (orderly.2 vaultId named) fun updated key ended => ?_
  obtain ⟨returned,w,done,rfl,rfl⟩ := outcome_some ended
  exact change_moves done orderly.1

theorem rotate_survives {env : CeremonyEnv} {request : RotateKeyFileRequest} {s : State} (binding : Binding suite)
    (orderly : Orderly suite dir s (.rotateKeyFile env request)) :
    PhrasesSurvive suite dir s (.rotateKeyFile env request) := by
  intro vaultId named
  refine rekey_survives env.nonce binding named (orderly.2 vaultId named) fun updated key ended => ?_
  obtain ⟨returned,w,done,rfl,rfl⟩ := outcome_some ended
  exact rotate_moves done orderly.1

theorem recover_survives {env : RecoverEnv} {request : RecoverWithPhraseRequest} {s : State} (binding : Binding suite)
    (orderly : Orderly suite dir s (.recoverWithPhrase env request)) :
    PhrasesSurvive suite dir s (.recoverWithPhrase env request) := by
  intro header vaultId works named
  have sole := orderly header vaultId works named
  -- A recovery that went through read this header and found its one slot.
  have parts (updated : VaultHeader) (key : Option SqlcipherKey)
      (ended : outcome dir (·.2) (recoverWithPhrase suite env
        {request with vaultDb := dir,header := request.header.map fun _ => s.header} s.world) = some (updated,key)) :
      ∃ slot masterKey recoveryKey newKey, header.recoverySlots = [slot] ∧
        slotMasterKey suite request.phrase vaultId slot = some (masterKey,recoveryKey) ∧
          Moved suite env.nonce header updated vaultId newKey (.keepAndRewrap recoveryKey) ∧
            key = some (deriveVaultKeys suite newKey).sqlcipherKey := by
    obtain ⟨returned,w,done,rfl,rfl⟩ := outcome_some ended
    obtain ⟨header',vaultId',words,masterKey,recoveryKey,newKey,read,named',parsed,recovered,moved,key⟩ :=
      recover_moves done
    obtain ⟨w',read'⟩ := works
    cases read.symm.trans read'
    cases named.symm.trans named'
    obtain ⟨slot,member,opened⟩ := recover_slot parsed recovered
    have unlocks : Unlocks suite header vaultId request.phrase := ⟨slot,member,by rw [opened]; rfl⟩
    obtain ⟨slot',_,_,one,_⟩ := unlocked_slot unlocks sole
    rw [one] at member
    obtain rfl := List.mem_singleton.mp member
    exact ⟨slot,masterKey,recoveryKey,newKey,one,opened,moved,key⟩
  refine ⟨fun p member unlocks => ?_,fun updated key ended p member _ => ?_,fun updated key ended => ?_⟩
  · obtain rfl := Option.some.inj member
    obtain ⟨slot,_,_,one,opened⟩ := unlocked_slot unlocks sole
    obtain ⟨words,parsed,recovered⟩ := sole_recovers one opened
    exact ⟨words,_,parsed,recovered⟩
  · obtain rfl := Option.some.inj member
    obtain ⟨slot,_,_,newKey,one,opened,moved,rfl⟩ := parts updated key ended
    exact moved_follows one opened moved
  · obtain ⟨slot,_,_,newKey,one,opened,moved,rfl⟩ := parts updated key ended
    exact moved_current binding named one opened moved

theorem action_survives {s : State} {act : Action} (binding : Binding suite) (current : Current suite s.header s.keyed)
    (orderly : Orderly suite dir s act) : PhrasesSurvive suite dir s act := by
  cases act with
  | setupRecovery env request => exact setup_survives binding current orderly
  | changePassword env request => exact change_survives binding orderly
  | rotateKeyFile env request => exact rotate_survives binding orderly
  | recoverWithPhrase env request => exact recover_survives binding orderly
  | elsewhere world => trivial

theorem advance_current {α : Type} {made : α → VaultHeader} {ended : Ending AuthenticationError α × World} {s : State}
    (current : Current suite s.header s.keyed)
    (made_current : ∀ updated key, outcome dir made ended = some (updated,key) → Current suite updated key) :
    Current suite (advance dir s made ended).header (advance dir s made ended).keyed := by
  obtain ⟨a | e | _,w⟩ := ended
  · exact made_current _ _ rfl
  · exact current
  · exact current

theorem step_current {s next : State} {act : Action} (current : Current suite s.header s.keyed)
    (survives : PhrasesSurvive suite dir s act) (taken : step suite dir s act = some next) :
    Current suite next.header next.keyed := by
  cases act with
  | setupRecovery env request =>
    obtain ⟨vaultId,named,same⟩ := Option.bind_eq_some_iff.mp taken
    cases same
    exact advance_current current (survives vaultId named).current
  | changePassword env request =>
    obtain ⟨vaultId,named,same⟩ := Option.bind_eq_some_iff.mp taken
    cases same
    exact advance_current current (survives vaultId named).current
  | rotateKeyFile env request =>
    obtain ⟨vaultId,named,same⟩ := Option.bind_eq_some_iff.mp taken
    cases same
    exact advance_current current (survives vaultId named).current
  | recoverWithPhrase env request =>
    cases taken
    refine advance_current current fun updated key ended => ?_
    obtain ⟨returned,w,done,_,_⟩ := outcome_some ended
    obtain ⟨header,vaultId,_,_,_,_,read,named,_⟩ := recover_moves done
    exact (survives header vaultId ⟨_,read⟩ named).current updated key ended
  | elsewhere world =>
    cases taken
    exact current

end Claims

-- Whatever the order of the ceremonies, and whatever becomes of each.
theorem phrases_survive (suite : Suite) (dir : String) (s : State) (acts : List Action) (binding : Binding suite)
    (unslotted : s.header.recoverySlots = []) (orderly : Guarded (step suite dir) (Orderly suite dir) s acts) :
    Guarded (step suite dir) (PhrasesSurvive suite dir) s acts := by
  refine guarded_mono (P := fun s => Current suite s.header s.keyed) ?_ ?_ (empty_current unslotted) orderly
  · exact fun s act current orderly => action_survives binding current orderly
  · exact fun s act next current orderly taken => step_current current (action_survives binding current orderly) taken

theorem plain_binding : Binding plainSuite := by
  intro masterKey recoveryKey vaultId nonce other found opened
  unfold unwrapMasterKeyFromRecovery wrapMasterKeyForRecovery openWire sealWire at opened
  rw [split_parts] at opened
  dsimp only [plainSuite,plainPrimitives,plain] at opened
  split at opened
  · cases opened
  · rename_i text cut
    split at cut
    · cases cut
      rw [block_val] at opened
      cases opened
      rfl
    · cases cut

def identityVault : World :=
  let identity := (wrapFileKey plainPrimitives (byteKey 9) 5 oldKeys.keyEncryptionKey (byteKey 0)).1
  {oneVault with vaults := fun _ => ⟨some ⟨oldKeys.sqlcipherKey,{noKeys with vaultIdentity := some identity}⟩,none⟩}

def unslotted : State := ⟨identityVault,oldHeader,databaseKey identityVault "vault"⟩

def drawn (salt : UInt8) (word : String) : SetupEnv :=
  {steadyCommand.toCeremonyEnv with salt := byteKey salt,words := [word],readsIdentity := .goes}

def addSlot (salt : UInt8) (word : String) : Action := .setupRecovery (drawn salt word) ⟨[1],none,"vault"⟩

def changeWith (word : String) : Action :=
  .changePassword steadyCommand.toCeremonyEnv ⟨[1],[2],none,some (ascii word),.default,.preserveTrusted,"vault"⟩

def afterSlot (s : State) (salt : UInt8) (word : String) : State :=
  advance "vault" s (·.2) (setupRecovery plainSuite (drawn salt word) ⟨[1],none,"vault"⟩ s.header 5 s.world)

theorem slot_taken {s : State} {salt : UInt8} {word : String} (named : plainSuite.parseUuid s.header.vaultId = some 5) :
    step plainSuite "vault" s (addSlot salt word) = some (afterSlot s salt word) := by
  rw [addSlot,step,named]
  rfl

theorem one_phrase_survives : Guarded (step plainSuite "vault") (PhrasesSurvive plainSuite "vault") unslotted
    [addSlot 6 "one",changeWith "one"] := by
  apply phrases_survive plainSuite "vault" unslotted _ plain_binding rfl
  have slotted : Orderly plainSuite "vault" unslotted (addSlot 6 "one") := rfl
  apply guarded_cons slotted (slot_taken (by decide +kernel))
  refine guarded_last ⟨by rintro ⟨⟩,fun _ _ _ _ _ => ?_⟩
  decide +kernel

def keeps : Except AuthenticationError RecoverySlotAction → Bool
  | .ok (.keepAndRewrap _) => true
  | _ => false

def twoSlots : State := afterSlot (afterSlot unslotted 6 "one") 7 "two"

-- The phrase of the second slot is turned away: only the first one is tried.
theorem second_phrase_refused : ¬ Guarded (step plainSuite "vault") (PhrasesSurvive plainSuite "vault") unslotted
    [addSlot 6 "one",addSlot 7 "two",changeWith "two"] := by
  rintro ⟨_,guarded⟩
  rw [slot_taken (by decide +kernel)] at guarded
  obtain ⟨_,guarded⟩ := guarded
  rw [slot_taken (by decide +kernel)] at guarded
  have named : plainSuite.parseUuid twoSlots.header.vaultId = some 5 := by decide +kernel
  have unlocks : Unlocks plainSuite twoSlots.header 5 (ascii "two") := by
    unfold Unlocks
    decide +kernel
  obtain ⟨recoveryKey,resolved⟩ := (guarded.1 5 named).accepts (ascii "two") rfl unlocks
  have refused : keeps (resolveRecoverySlotAction plainSuite twoSlots.header (some (ascii "two")) 5) = false := by
    decide +kernel
  have impossible : false = true := refused.symm.trans (congrArg keeps resolved)
  cases impossible

end ArxRuna.Credentials.Phrases
