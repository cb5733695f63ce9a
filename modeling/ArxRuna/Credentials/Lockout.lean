import ArxRuna.Credentials.Commands
namespace ArxRuna.Credentials.Lockout
open Library.Aead Library.Base64 Library.Fallible Library.Interrupt Library.JsonText Crypto
open Keys Header Rekey Device Ceremonies Recovery Commands

-- What a user can present: a password, with the bytes of a key file, or a phrase.
inductive Credential where
  | password (password : Bytes) (keyFile : Option KeyFile)
  | phrase (phrase : Bytes)

variable (suite : Suite)

-- `unlock_vault` reads a key file only for tier 2.
def unlockKeyFile (tier : UInt8) (keyFile : Option KeyFile) : Except AuthenticationError (Option KeyFile) :=
  if tier = 2 then
    match keyFile with
    | none => .error .keyFileNotFound
    | some bytes => .ok (some bytes)
  else .ok none

def passwordKeys (header : VaultHeader) (password : Bytes) (keyFile : Option KeyFile) :
    Except AuthenticationError VaultKeys := do
  let salt ← decodeBase64_32 header.argon2Salt
  let keyFile ← unlockKeyFile header.tier keyFile
  let masterKey ← deriveMasterKey suite password keyFile salt (argon2ParametersFromJson header.argon2Params)
  ensure (deriveVaultKeys suite masterKey).initialised .invalidCredentials
  return deriveVaultKeys suite masterKey

def phraseKeys (header : VaultHeader) (phrase : Bytes) : Except AuthenticationError VaultKeys := do
  let words ← asWords suite phrase
  let vaultId ← asVaultId suite header
  let found ← recoverMasterKey suite header (canonicalizePhrase words) vaultId
  return deriveVaultKeys suite found.1

def credentialKeys (header : VaultHeader) : Credential → Except AuthenticationError VaultKeys
  | .password password keyFile => passwordKeys suite header password keyFile
  | .phrase phrase => phraseKeys suite header phrase

def storedHeader (w : World) (dir : String) : Option VaultHeader := (w.vaults dir).header >>= readHeader

def databaseKey (w : World) (dir : String) : Option SqlcipherKey := (w.vaults dir).database.map (·.key)

-- A key file counts as held while it lies on some path.
def Held (w : World) : Credential → Prop
  | .password _ (some keyFile) => ∃ path, w.keyFiles path = some keyFile.1
  | _ => True

-- The credential, with the header stored on the local disk, opens the local
-- database.
structure Works (w : World) (dir : String) (credential : Credential) : Prop where
  held : Held w credential
  opens : ∃ header keys, storedHeader w dir = some header ∧ credentialKeys suite header credential = .ok keys ∧
    databaseKey w dir = some keys.sqlcipherKey

-- On Ok the new credential works and on Err the old one does; after a process stop
-- one of them does.
def NoLockout (dir : String) (old new : Credential) : Ending IpcError Unit × World → Prop
  | (.done _,after) => Works suite after dir new
  | (.failed _,after) => Works suite after dir old
  | (.stopped,after) => Works suite after dir old ∨ Works suite after dir new

-- What has to stay as it is for every credential to go on working.
structure SameLocks (w after : World) : Prop where
  headers : ∀ dir, (after.vaults dir).header = (w.vaults dir).header
  databases : ∀ dir, databaseKey after dir = databaseKey w dir
  keyFiles : ∀ path content, w.keyFiles path = some content → after.keyFiles path = some content

variable {suite} {w v u after : World} {dir : String} {old new credential : Credential}

theorem locks_refl (w : World) : SameLocks w w := ⟨fun _ => rfl,fun _ => rfl,fun _ _ there => there⟩

theorem locks_trans (a b c : World) (first : SameLocks a b) (second : SameLocks b c) : SameLocks a c :=
  ⟨fun dir => (second.headers dir).trans (first.headers dir),
    fun dir => (second.databases dir).trans (first.databases dir),
    fun path content there => second.keyFiles path content (first.keyFiles path content there)⟩

theorem locks_session (w : World) (session : Option Session) : SameLocks w {w with session := session} :=
  ⟨fun _ => rfl,fun _ => rfl,fun _ _ there => there⟩

theorem locks_cloud (w : World) (location : String) (objects : CloudObjects) :
    SameLocks w (w.setCloud location objects) :=
  ⟨fun _ => rfl,fun _ => rfl,fun _ _ there => there⟩

theorem locks_staged (w : World) (file : Option JsonFile) : SameLocks w (w.stageHeader .config file) :=
  ⟨fun _ => rfl,fun _ => rfl,fun _ _ there => there⟩

theorem locks_key_file (w : World) (path : String) (content : Bytes) (free : w.keyFiles path = none) :
    SameLocks w (w.setKeyFile path (some content)) := by
  refine ⟨fun _ => rfl,fun _ => rfl,fun other held there => ?_⟩
  have apart : other ≠ path := fun same => by rw [same,free] at there; cases there
  exact (if_neg apart).trans there

theorem locks_database (same : (database.map (·.key)) = databaseKey w dir) :
    SameLocks w (w.setDatabase dir database) := by
  refine ⟨fun other => ?_,fun other => ?_,fun _ _ there => there⟩
  · by_cases here : other = dir
    · subst here
      simp [World.setDatabase,World.setVault]
    · simp [World.setDatabase,World.setVault,here]
  · by_cases here : other = dir
    · subst here
      simpa [databaseKey,World.setDatabase,World.setVault] using same
    · simp [databaseKey,World.setDatabase,World.setVault,here]

theorem held_same (held : Held w credential)
    (kept : ∀ path content, w.keyFiles path = some content → after.keyFiles path = some content) :
    Held after credential := by
  cases credential with
  | phrase => trivial
  | password password keyFile =>
    cases keyFile with
    | none => trivial
    | some bytes =>
      obtain ⟨path,there⟩ := held
      exact ⟨path,kept path _ there⟩

theorem works_same (works : Works suite w dir credential) (locks : SameLocks w after) :
    Works suite after dir credential := by
  obtain ⟨held,header,keys,stored,derived,opens⟩ := works
  refine ⟨held_same held locks.keyFiles,header,keys,?_,derived,?_⟩
  · rw [storedHeader,locks.headers]
    exact stored
  · rw [locks.databases]
    exact opens

-- A database under a key that none of the credentials derives from the header on
-- disk is closed to them.
theorem not_works (key : databaseKey after dir = some newKey)
    (stale : ∀ header, storedHeader after dir = some header → ∀ keys,
      credentialKeys suite header credential = .ok keys → keys.sqlcipherKey ≠ newKey) :
    ¬ Works suite after dir credential := by
  rintro ⟨_,header,keys,stored,derived,opens⟩
  rw [key] at opens
  exact stale header stored keys derived (Option.some.inj opens).symm

def rekeyedWorld (w : World) (dir : String) (keys : VaultKeys) : World :=
  w.setDatabase dir ((w.vaults dir).database.map fun database => {database with key := keys.sqlcipherKey})

theorem persist_eq {env : CommandEnv} {header : VaultHeader} : persistHeader env dir header w =
    (if env.writesHeader.stops then .stopped else .done (),
      w.setHeader dir (env.writesHeader.result header.toJson (w.vaults dir).header)) := by
  unfold persistHeader
  rw [bind_change]
  cases env.writesHeader.stops <;> rfl

@[simp] theorem set_header_stored (w : World) (dir : String) (file : Option JsonFile) :
    ((w.setHeader dir file).vaults dir).header = file := by
  simp [World.setHeader,World.setVault]

@[simp] theorem set_header_key (w : World) (dir other : String) (file : Option JsonFile) :
    databaseKey (w.setHeader dir file) other = databaseKey w other := by
  by_cases here : other = dir
  · subst here
    simp [databaseKey,World.setHeader,World.setVault]
  · simp [databaseKey,World.setHeader,World.setVault,here]

-- What a ceremony runs after its preparations, up to the header on disk.
def tail (env : CommandEnv) (dir : String) (task : Command World AuthenticationError (Except AuthenticationError Unit))
    (onResult : Except AuthenticationError Unit → Command World AuthenticationError α) (returned : α → VaultHeader) :
    Command World IpcError Unit :=
  relabel .fromAuthentication (task >>= onResult) >>= fun result => persistHeader env dir (returned result)

section Tails
variable {env : CommandEnv} {task : Command World AuthenticationError (Except AuthenticationError Unit)}
  {onResult : Except AuthenticationError Unit → Command World AuthenticationError α} {returned : α → VaultHeader}

-- Without a rekey every credential goes on working.
theorem tail_spared (works : Works suite w dir old)
    (spared : (∃ e t, task v = (.failed e,t) ∧ SameLocks w t) ∨ (∃ t, task v = (.stopped,t) ∧ SameLocks w t) ∨
      ∃ result t, task v = (.done result,t) ∧ SameLocks w (onResult result t).2 ∧
        ∀ a, (onResult result t).1 ≠ .done a) :
    NoLockout suite dir old new (tail env dir task onResult returned v) := by
  unfold tail
  rcases spared with ⟨e,t,ended,locks⟩ | ⟨t,ended,locks⟩ | ⟨result,t,ended,locks,unfinished⟩
  · rw [bind_failed (relabel_failed (bind_failed ended))]
    exact works_same works locks
  · rw [bind_stopped (relabel_stopped (bind_stopped ended))]
    exact .inl (works_same works locks)
  · rcases left : onResult result t with ⟨a | e' | _,t'⟩
    · rw [left] at unfinished
      exact absurd rfl (unfinished a)
    · rw [left] at locks
      rw [bind_failed (relabel_failed ((bind_done ended).trans left))]
      exact works_same works locks
    · rw [left] at locks
      rw [bind_stopped (relabel_stopped ((bind_done ended).trans left))]
      exact .inl (works_same works locks)

structure Landing (suite : Suite) (env : CommandEnv) (dir : String) (w u : World) (old new : Credential)
    (newKeys : VaultKeys) (newHeader : VaultHeader) : Prop where
  key : databaseKey u dir = some newKeys.sqlcipherKey
  header : storedHeader u dir = storedHeader w dir
  held : Held u new
  opens : newKeys.initialised → credentialKeys suite newHeader new = .ok newKeys
  fresh : ∀ credential ∈ [old,new], ∀ header keys, storedHeader w dir = some header →
    credentialKeys suite header credential = .ok keys → keys.sqlcipherKey ≠ newKeys.sqlcipherKey

theorem landing_closed (landing : Landing suite env dir w u old new newKeys newHeader)
    (key : databaseKey after dir = some newKeys.sqlcipherKey)
    (headers : ∀ header, storedHeader after dir = some header → storedHeader u dir = some header)
    (member : credential ∈ [old,new]) : ¬ Works suite after dir credential := by
  refine not_works key fun header stored keys derived => ?_
  exact landing.fresh credential member header keys (landing.header ▸ headers header stored) derived

theorem locked_out {ending : Ending IpcError Unit} (closed : ¬ Works suite after dir old)
    (closed' : ¬ Works suite after dir new) : ¬ NoLockout suite dir old new (ending,after) := by
  cases ending with
  | done => exact closed'
  | failed => exact closed
  | stopped => exact not_or.mpr ⟨closed,closed'⟩

-- Once the header is on disk the new credential works.
theorem persisted (landing : Landing suite env dir w u old new newKeys newHeader) (locks : SameLocks u after)
    (initialised : newKeys.initialised) :
    NoLockout suite dir old new (persistHeader env dir newHeader after) ↔ env.writesHeader.leaves = .written := by
  have key : databaseKey after dir = some newKeys.sqlcipherKey := (locks.databases dir).trans landing.key
  rw [persist_eq]
  unfold FileWrite.result
  cases leaves : env.writesHeader.leaves with
  | written =>
    have works : Works suite (after.setHeader dir (some (.json newHeader.toJson))) dir new :=
      ⟨held_same landing.held locks.keyFiles,newHeader,newKeys,by simp [storedHeader],landing.opens initialised,by simp [key]⟩
    cases env.writesHeader.stops with
    | false => exact ⟨fun _ => rfl,fun _ => works⟩
    | true => exact ⟨fun _ => rfl,fun _ => .inr works⟩
  | untouched =>
    have closed {credential : Credential} (member : credential ∈ [old,new]) :
        ¬ Works suite (after.setHeader dir (after.vaults dir).header) dir credential := by
      refine landing_closed landing (by rw [set_header_key,key]) (fun header stored => ?_) member
      rw [storedHeader,set_header_stored,locks.headers] at stored
      exact stored
    exact ⟨fun safe => absurd safe (locked_out (closed (by simp)) (closed (by simp))),(by rintro ⟨⟩)⟩
  | garbled =>
    have closed {credential : Credential} (member : credential ∈ [old,new]) :
        ¬ Works suite (after.setHeader dir (some .garbled)) dir credential := by
      refine landing_closed landing (by rw [set_header_key,key]) (fun header stored => ?_) member
      rw [storedHeader,set_header_stored] at stored
      cases stored
    exact ⟨fun safe => absurd safe (locked_out (closed (by simp)) (closed (by simp))),(by rintro ⟨⟩)⟩

-- After the rekey everything has to go through, up to the header on disk.
theorem tail_landed (landing : Landing suite env dir w u old new newKeys newHeader)
    (lands : task v = (meet env.rekeyEnds >>= fun _ => pure (.ok ())) u)
    (keeps : Keeps SameLocks (onResult (.ok ())))
    (returns : ∀ a t, onResult (.ok ()) u = (.done a,t) → returned a = newHeader ∧ newKeys.initialised) :
    NoLockout suite dir old new (tail env dir task onResult returned v) ↔
      env.rekeyEnds = .goes ∧ (∃ a t, onResult (.ok ()) u = (.done a,t)) ∧ env.writesHeader.leaves = .written := by
  have closed {ending : Ending IpcError Unit} {after : World} (locks : SameLocks u after) :
      ¬ NoLockout suite dir old new (ending,after) := by
    have key := (locks.databases dir).trans landing.key
    have headers (header : VaultHeader) (stored : storedHeader after dir = some header) :
        storedHeader u dir = some header := by
      rw [storedHeader,locks.headers] at stored
      exact stored
    exact locked_out (landing_closed landing key headers (by simp)) (landing_closed landing key headers (by simp))
  unfold tail
  cases ends : env.rekeyEnds with
  | fails e =>
    rw [ends] at lands
    rw [bind_failed (relabel_failed (bind_failed lands))]
    exact ⟨fun safe => absurd safe (closed (locks_refl u)),(by rintro ⟨impossible,_⟩; cases impossible)⟩
  | stops =>
    rw [ends] at lands
    rw [bind_stopped (relabel_stopped (bind_stopped lands))]
    exact ⟨fun safe => absurd safe (closed (locks_refl u)),(by rintro ⟨impossible,_⟩; cases impossible)⟩
  | goes =>
    rw [ends] at lands
    have locks := keeps u
    rcases installed : onResult (.ok ()) u with ⟨a | e | _,t⟩
    · rw [installed] at locks
      obtain ⟨same,initialised⟩ := returns a t installed
      rw [bind_done (done_relabel.mpr ((bind_done lands).trans installed)),same,persisted landing locks initialised]
      exact ⟨fun written => ⟨rfl,⟨a,t,rfl⟩,written⟩,fun ⟨_,_,written⟩ => written⟩
    · rw [installed] at locks
      rw [bind_failed (relabel_failed ((bind_done lands).trans installed))]
      exact ⟨fun safe => absurd safe (closed locks),by rintro ⟨_,⟨_,_,⟨⟩⟩,_⟩⟩
    · rw [installed] at locks
      rw [bind_stopped (relabel_stopped ((bind_done lands).trans installed))]
      exact ⟨fun safe => absurd safe (closed locks),by rintro ⟨_,⟨_,_,⟨⟩⟩,_⟩⟩

end Tails

-- What the preparations of a ceremony leave for the new credential.
structure Ready (suite : Suite) (env : CeremonyEnv) (prepared : Prepared) (password : Bytes)
    (keyFile : Option KeyFile) : Prop where
  newKeys : prepared.newKeys = deriveVaultKeys suite prepared.newMasterKey
  derives : deriveMasterKey suite password keyFile env.salt prepared.parameters = .ok prepared.newMasterKey

theorem updated_header_opens {env : CeremonyEnv} {prepared : Prepared} {password : Bytes}
    {presented keyFile : Option KeyFile} {header : VaultHeader} {vaultId : Uuid}
    (ready : Ready suite env prepared password keyFile) (unlocks : unlockKeyFile header.tier presented = .ok keyFile)
    (initialised : prepared.newKeys.initialised) :
    passwordKeys suite (updateHeader suite env header prepared.parameters prepared.newMasterKey prepared.slots vaultId)
      password presented = .ok prepared.newKeys := by
  rw [ready.newKeys] at initialised
  unfold passwordKeys
  simp only [updateHeader,decode_encode_salt,argon2ParametersFromJson,argon2ParametersToJson]
  change (unlockKeyFile header.tier presented >>= _) = _
  rw [unlocks]
  change (deriveMasterKey suite password keyFile env.salt prepared.parameters >>= _) = _
  rw [ready.derives]
  change (ensure _ _ >>= _) = _
  rw [ensure,if_pos initialised]
  exact congrArg Except.ok ready.newKeys.symm

theorem read_key_done {env : CeremonyEnv} {tier : UInt8} {path : Option String} {keyFile : Option KeyFile}
    (done : readKeySource env tier path w = (.done keyFile,v)) :
    v = w ∧ unlockKeyFile tier (path >>= fun path => w.keyFiles path >>= block 32) = .ok keyFile := by
  unfold readKeySource at done
  unfold unlockKeyFile
  split at done
  · rename_i one
    obtain ⟨same,here⟩ := done_pure.mp done
    subst one same here
    exact ⟨rfl,rfl⟩
  · split at done
    · rename_i two
      rw [if_pos two]
      cases path with
      | none => exact absurd done not_done_fail
      | some path =>
        simp only [done_bind,done_meet,done_inspect] at done
        obtain ⟨_,_,⟨_,same⟩,_,_,⟨here,same'⟩,found⟩ := done
        subst same here same'
        have lookup : (some path >>= fun path => w.keyFiles path >>= block 32) = w.keyFiles path >>= block 32 := rfl
        rw [lookup]
        cases content : w.keyFiles path >>= block 32 with
        | none =>
          rw [content] at found
          exact absurd found not_done_fail
        | some bytes =>
          rw [content] at found
          obtain ⟨same,here⟩ := done_pure.mp found
          subst same here
          exact ⟨rfl,rfl⟩
    · exact absurd done not_done_fail

theorem prepare_change_done {env : CeremonyEnv} {request : ChangePasswordRequest} {header : VaultHeader}
    {vaultId : Uuid} {prepared : Prepared}
    (done : prepareChange suite env request header vaultId w = (.done prepared,v)) :
    v = w ∧ w.session.isSome ∧ prepared.header = header ∧ ∃ keyFile,
      Ready suite env prepared request.newPassword keyFile ∧
      readKeySource env header.tier request.currentKeySource w = (.done keyFile,w) := by
  unfold prepareChange at done
  simp only [done_bind,done_inspect,done_require,done_demand,done_meet,done_pure] at done
  obtain ⟨_,_,⟨rfl,same⟩,_,_,⟨active,same'⟩,_,_,⟨_,same''⟩,keyFile,_,read,_,_,⟨_,rfl⟩,_,_,⟨_,rfl⟩,_,_,⟨_,rfl⟩,_,_,
    ⟨derived,rfl⟩,_,_,⟨_,rfl⟩,rfl,rfl⟩ := done
  subst same same' same''
  obtain ⟨rfl,_⟩ := read_key_done read
  exact ⟨rfl,active,rfl,keyFile,⟨rfl,derived⟩,read⟩

theorem prepare_rotation_done {env : CeremonyEnv} {request : RotateKeyFileRequest} {header : VaultHeader}
    {vaultId : Uuid} {prepared : Prepared}
    (done : prepareRotation suite env request header vaultId w = (.done prepared,v)) :
    w.session.isSome ∧ prepared.header.tier = 2 ∧ w.keyFiles request.targetNewKeyFile = none ∧
      v = w.setKeyFile request.targetNewKeyFile (some env.keyFile.1) ∧
      Ready suite env prepared request.password (some env.keyFile) := by
  unfold prepareRotation at done
  simp only [done_bind,done_inspect,done_require,done_demand,done_meet,done_pure] at done
  obtain ⟨_,_,⟨two,same⟩,_,_,⟨rfl,same'⟩,_,_,⟨active,same''⟩,_,_,⟨_,last⟩,keyFile,_,read,_,_,⟨_,rfl⟩,_,_,⟨_,rfl⟩,_,_,
    ⟨_,rfl⟩,_,_,⟨_,rfl⟩,_,_,written,_,_,⟨derived,rfl⟩,_,_,⟨_,rfl⟩,rfl,rfl⟩ := done
  subst same same' same'' last
  obtain ⟨rfl,_⟩ := read_key_done read
  obtain ⟨free,_,_,rfl⟩ := write_new_done.mp written
  exact ⟨active,two,free,rfl,rfl,derived⟩

-- A key file that cannot be created, with the database removed for it.
def Deletes (env : RecoverEnv) (request : RecoverWithPhraseRequest) (tier : UInt8) (w : World) : Prop :=
  tier = 2 ∧ env.removesDatabase = true ∧ ∃ target, request.newKeyFile = some target ∧
    (w.keyFiles target ≠ none ∨ env.writesKeyFile.stops = false ∧ env.writesKeyFile.reported = false)

def chosenKeyFile (env : CeremonyEnv) (tier : UInt8) : Option KeyFile := if tier = 2 then some env.keyFile else none

theorem locks_created (write : FileWrite) {path : String} (bytes : Bytes) (free : w.keyFiles path = none) :
    SameLocks w (createFile write path bytes w) := by
  unfold createFile
  cases write.leaves with
  | written => exact locks_key_file w path bytes free
  | untouched => exact locks_refl w
  | garbled => exact locks_key_file w path [] free

-- The key file is there for the new credential, or the ceremony ends with the vault
-- as it was, or the database is gone.
theorem new_key_file_cases (env : RecoverEnv) (request : RecoverWithPhraseRequest) (tier : UInt8) (w : World) :
    (¬ Deletes env request tier w ∧ ∃ keyFile v, newKeyFile env request tier w = (.done keyFile,v) ∧
      SameLocks w v ∧ unlockKeyFile tier (chosenKeyFile env.toCeremonyEnv tier) = .ok keyFile ∧
      ∀ password, Held v (.password password (chosenKeyFile env.toCeremonyEnv tier))) ∨
    (¬ Deletes env request tier w ∧ SameLocks w (newKeyFile env request tier w).2 ∧
      ∀ keyFile, (newKeyFile env request tier w).1 ≠ .done keyFile) ∨
    (Deletes env request tier w ∧ ∃ e v, newKeyFile env request tier w = (.failed e,v) ∧
      databaseKey v request.vaultDb = none) := by
  unfold newKeyFile
  by_cases one : tier = 1
  · subst one
    exact .inl ⟨(by rintro ⟨two,_⟩; cases two),none,w,rfl,locks_refl w,rfl,fun _ => trivial⟩
  · rw [if_neg one]
    by_cases two : tier = 2
    · rw [if_pos two]
      cases chosen : request.newKeyFile with
      | none => exact .inr (.inl ⟨(by rintro ⟨_,_,_,same,_⟩; cases chosen.symm.trans same),locks_refl w,(by rintro _ ⟨⟩)⟩)
      | some target =>
        have deletes : Deletes env request tier w ↔ env.removesDatabase = true ∧
            (w.keyFiles target ≠ none ∨ env.writesKeyFile.stops = false ∧ env.writesKeyFile.reported = false) := by
          simp [Deletes,two,chosen]
        rw [deletes]
        have failing {e : AuthenticationError} {u : World}
            (ended : writeOwnerOnlyNew env.writesKeyFile target env.keyFile.1 w = (.failed e,u)) :
            createKeyFile env request target w =
              (.failed e,if env.removesDatabase then u.setDatabase request.vaultDb none else u) := by
          unfold createKeyFile
          rw [bind_done (settle_failed ended)]
          cases env.removesDatabase <;> rfl
        have gone (u : World) : databaseKey (u.setDatabase request.vaultDb none) request.vaultDb = none := by
          simp [databaseKey,World.setDatabase,World.setVault]
        dsimp only
        cases taken : w.keyFiles target with
        | some content =>
          rw [failing (write_new_taken (taken ▸ (by rintro ⟨⟩)))]
          cases env.removesDatabase with
          | true => exact .inr (.inr ⟨⟨rfl,.inl (by rintro ⟨⟩)⟩,_,_,rfl,gone w⟩)
          | false => exact .inr (.inl ⟨(by rintro ⟨⟨⟩,_⟩),locks_refl w,(by rintro _ ⟨⟩)⟩)
        | none =>
          have ended := write_new_free env.writesKeyFile env.keyFile.1 taken
          have locks := locks_created env.writesKeyFile env.keyFile.1 taken
          cases stops : env.writesKeyFile.stops with
          | true =>
            rw [stops] at ended
            unfold createKeyFile
            rw [bind_stopped (settle_stopped ended)]
            exact .inr (.inl ⟨(by rintro ⟨_,reason⟩; simp at reason),locks,(by rintro _ ⟨⟩)⟩)
          | false =>
            cases reported : env.writesKeyFile.reported with
            | true =>
              rw [stops,reported] at ended
              unfold createKeyFile
              rw [bind_done (settle_done ended)]
              refine .inl ⟨(by rintro ⟨_,reason⟩; simp at reason),some env.keyFile,_,rfl,locks,?_,fun _ => ?_⟩
              · simp [chosenKeyFile,two,unlockKeyFile]
              · rw [chosenKeyFile,if_pos two]
                refine ⟨target,?_⟩
                simp [createFile,env.writesKeyFile.honest reported,World.setKeyFile]
            | false =>
              rw [stops,reported] at ended
              rw [failing ended]
              cases env.removesDatabase with
              | true => exact .inr (.inr ⟨⟨rfl,.inr ⟨rfl,rfl⟩⟩,_,_,rfl,gone _⟩)
              | false => exact .inr (.inl ⟨(by rintro ⟨⟨⟩,_⟩),locks,(by rintro _ ⟨⟩)⟩)
    · rw [if_neg two]
      exact .inr (.inl ⟨(by rintro ⟨impossible,_⟩; exact two impossible),locks_refl w,(by rintro _ ⟨⟩)⟩)

inductive Ceremony where
  | changePassword (input : ChangePasswordInput)
  | rotateKeyFile (input : RotateKeyFileInput)
  | recoverWithPhrase (input : RecoverInput)

section Runs
variable (suite : Suite) (env : CommandEnv)

def Ceremony.run : Ceremony → Command World IpcError Unit
  | .changePassword input => changePasswordCommand suite env input
  | .rotateKeyFile input => rotateKeyFileCommand suite env input
  | .recoverWithPhrase input => recoverVaultWithPhraseCommand suite env input

def Ceremony.targets (w : World) (dir : String) : Ceremony → Prop
  | .changePassword _ | .rotateKeyFile _ => ∀ session, w.session = some session → session.vaultId = dir
  | .recoverWithPhrase input => input.vaultId = dir

def storedTier (w : World) (dir : String) : UInt8 := ((storedHeader w dir).map (·.tier)).getD 0

def Ceremony.newCredential (w : World) (dir : String) : Ceremony → Credential
  | .changePassword input =>
    .password input.newPassword (input.currentKeyFile >>= fun path => w.keyFiles path >>= block 32)
  | .rotateKeyFile input => .password input.currentPassword (some env.keyFile)
  | .recoverWithPhrase input => .password input.newPassword (chosenKeyFile env.toCeremonyEnv (storedTier w dir))

def locate (dir : String) (input : RecoverInput) : Command World IpcError Located := do
  validatePassword input.newPassword
  resolveVaultById dir
  let header ← readLocalHeader dir
  relabel .fromAuthentication (locateRecovery suite env.toRecoverEnv (input.request header))

def Ceremony.reach (dir : String) : Ceremony → Command World IpcError Recovered
  | .changePassword input => do
    validatePassword input.currentPassword
    validatePassword input.newPassword
    resolveVaultById dir
    let header ← readLocalHeader dir
    let vaultId ← parseVaultId suite header
    let prepared ← relabel .fromAuthentication
      (prepareChange suite env.toCeremonyEnv (input.request dir) header vaultId)
    return ⟨prepared,vaultId⟩
  | .rotateKeyFile input => do
    resolveVaultById dir
    let header ← readLocalHeader dir
    require (header.tier = 2) (.invalidInput "Key file rotation is only supported for Tier 2 vaults")
    let vaultId ← parseVaultId suite header
    let prepared ← relabel .fromAuthentication
      (prepareRotation suite env.toCeremonyEnv (input.request dir) header vaultId)
    return ⟨prepared,vaultId⟩
  | .recoverWithPhrase input => do
    let located ← locate suite env dir input
    relabel .fromAuthentication (prepareRecovery suite env.toRecoverEnv (input.request located.header) located)

def task (dir : String) (ready : Recovered) : Command World AuthenticationError (Except AuthenticationError Unit) :=
  rekeyTask suite env.toCeremonyEnv dir ready.prepared.currentKeys ready.prepared.newKeys ready.vaultId

def newHeader (ready : Recovered) : VaultHeader :=
  updateHeader suite env.toCeremonyEnv ready.prepared.header ready.prepared.parameters ready.prepared.newMasterKey
    ready.prepared.slots ready.vaultId

def Ceremony.finish (dir : String) (ready : Recovered) : Ceremony → Command World IpcError Unit
  | .changePassword _ => tail env dir (task suite env dir ready) (fun result => do
      demand result
      installCredentials suite env.toCeremonyEnv ready.prepared.newKeys (newHeader suite env ready) dir ready.vaultId) id
  | .rotateKeyFile input => tail env dir (task suite env dir ready) (fun result => match result with
      | .error e => do
        removeFileIfExists env.removesKeyFile input.destination
        fail e
      | .ok _ =>
        installCredentials suite env.toCeremonyEnv ready.prepared.newKeys (newHeader suite env ready) dir
          ready.vaultId) id
  | .recoverWithPhrase _ => tail env dir (task suite env dir ready) (fun result => do
      demand result
      finishRecovery suite env.toRecoverEnv ready.prepared.newKeys (newHeader suite env ready) dir ready.vaultId)
      Prod.snd

end Runs

theorem run_change {env : CommandEnv} {input : ChangePasswordInput} {session : Session} (active : w.session = some session) :
    changePasswordCommand suite env input w = ((Ceremony.changePassword input).reach suite env session.vaultId >>= fun ready =>
      (Ceremony.changePassword input).finish suite env session.vaultId ready) w := by
  have starts : requireActiveSession w = (.done session,w) := by
    rw [requireActiveSession,bind_inspect,active]
    rfl
  unfold changePasswordCommand changePassword
  rw [bind_done starts]
  simp only [Ceremony.reach,Ceremony.finish,tail,relabel_bind,bind_assoc,pure_bind,task,newHeader,id]
  rfl

theorem run_rotate {env : CommandEnv} {input : RotateKeyFileInput} {session : Session} (active : w.session = some session) :
    rotateKeyFileCommand suite env input w = ((Ceremony.rotateKeyFile input).reach suite env session.vaultId >>= fun ready =>
      (Ceremony.rotateKeyFile input).finish suite env session.vaultId ready) w := by
  have starts : requireActiveSession w = (.done session,w) := by
    rw [requireActiveSession,bind_inspect,active]
    rfl
  unfold rotateKeyFileCommand rotateKeyFile
  rw [bind_done starts]
  simp only [Ceremony.reach,Ceremony.finish,tail,relabel_bind,bind_assoc,pure_bind,task,newHeader,id]
  rfl

theorem run_recover {env : CommandEnv} {input : RecoverInput} :
    recoverVaultWithPhraseCommand suite env input = (Ceremony.recoverWithPhrase input).reach suite env input.vaultId >>= fun ready =>
      (Ceremony.recoverWithPhrase input).finish suite env input.vaultId ready := by
  unfold recoverVaultWithPhraseCommand recoverWithPhrase
  simp only [Ceremony.reach,locate,Ceremony.finish,tail,relabel_bind,bind_assoc,task,newHeader]
  rfl

theorem read_local_done {header : VaultHeader} (done : readLocalHeader dir w = (.done header,v)) :
    v = w ∧ storedHeader w dir = some header := by
  unfold readLocalHeader at done
  rw [bind_inspect] at done
  unfold storedHeader
  cases file : (w.vaults dir).header with
  | none =>
    rw [file] at done
    exact absurd done not_done_fail
  | some content =>
    rw [file] at done
    dsimp only at done
    cases parsed : readHeader content with
    | none =>
      rw [parsed] at done
      exact absurd done not_done_fail
    | some found =>
      rw [parsed] at done
      obtain ⟨rfl,rfl⟩ := done_pure.mp done
      exact ⟨rfl,parsed⟩

theorem resolve_done {value : Unit} (done : resolveVaultById dir w = (.done value,v)) :
    v = w ∧ (w.vaults dir).database.isSome := by
  unfold resolveVaultById at done
  rw [bind_inspect] at done
  obtain ⟨⟨database,_⟩,rfl⟩ := done_require.mp done
  exact ⟨rfl,database⟩

theorem parse_id_done {header : VaultHeader} {vaultId : Uuid}
    (done : parseVaultId suite header w = (.done vaultId,v)) : v = w := by
  unfold parseVaultId at done
  cases parsed : suite.parseUuid header.vaultId with
  | none =>
    rw [parsed] at done
    exact absurd done not_done_fail
  | some found =>
    rw [parsed] at done
    exact (done_pure.mp done).2.symm

theorem locate_done {env : CommandEnv} {input : RecoverInput} {located : Located}
    (done : locate suite env dir input w = (.done located,v)) :
    v = w ∧ (w.vaults dir).database.isSome ∧ storedHeader w dir = some located.header ∧
      located.dbExists = (w.vaults input.vaultId).database.isSome := by
  unfold locate locateRecovery at done
  simp only [done_bind,done_relabel,validatePassword,done_require,done_inspect,done_demand,done_meet,done_pure] at done
  obtain ⟨_,_,⟨_,rfl⟩,_,_,resolved,header,_,read,_,_,⟨rfl,rfl⟩,_,_,⟨_,rfl⟩,_,_,⟨_,rfl⟩,_,_,⟨rfl,rfl⟩,_,_,
    ⟨_,rfl⟩,_,_,given,_,_,⟨_,rfl⟩,_,_,⟨_,rfl⟩,_,_,⟨_,rfl⟩,_,_,⟨_,rfl⟩,rfl,rfl⟩ := done
  obtain ⟨rfl,there⟩ := resolve_done resolved
  obtain ⟨rfl,stored⟩ := read_local_done read
  obtain ⟨rfl,rfl⟩ := done_pure.mp given
  exact ⟨rfl,there,stored,rfl⟩


-- What the run of a command has by the time it rekeys: nothing is changed for any
-- credential, and the new one is ready.
structure Arrived (suite : Suite) (env : CommandEnv) (ceremony : Ceremony) (dir : String) (w v : World)
    (ready : Recovered) : Prop where
  locks : SameLocks w v
  credential : ∃ password presented keyFile, ceremony.newCredential env w dir = .password password presented ∧
    Ready suite env.toCeremonyEnv ready.prepared password keyFile ∧
    unlockKeyFile ready.prepared.header.tier presented = .ok keyFile ∧
    Held v (.password password presented)
  written : ∀ input, ceremony = .rotateKeyFile input → w.keyFiles input.destination = none
  active : (∀ input, ceremony ≠ .recoverWithPhrase input) → w.session.isSome
  session : (∀ input, ceremony ≠ .recoverWithPhrase input) → v.session = w.session

theorem held_file (w : World) (password : Bytes) (path : Option String) :
    Held w (.password password (path >>= fun path => w.keyFiles path >>= block 32)) := by
  cases found : path >>= fun path => w.keyFiles path >>= block 32 with
  | none => trivial
  | some keyFile =>
    simp only [Option.bind_eq_bind,Option.bind_eq_some_iff] at found
    obtain ⟨path,_,content,there,cut⟩ := found
    exact ⟨path,there.trans (congrArg some (block_exact cut).symm)⟩

theorem change_arrives {env : CommandEnv} {input : ChangePasswordInput} {ready : Recovered}
    (reached : (Ceremony.changePassword input).reach suite env dir w = (.done ready,v)) :
    Arrived suite env (.changePassword input) dir w v ready := by
  simp only [Ceremony.reach,validatePassword,done_bind,done_relabel,done_require,done_pure] at reached
  obtain ⟨_,_,⟨_,rfl⟩,_,_,⟨_,rfl⟩,_,_,resolved,header,_,read,vaultId,_,parsed,prepared,_,done,rfl,rfl⟩ := reached
  obtain ⟨rfl,_⟩ := resolve_done resolved
  obtain ⟨rfl,_⟩ := read_local_done read
  cases parse_id_done parsed
  obtain ⟨rfl,active,rfl,keyFile,ready,readKey⟩ := prepare_change_done done
  obtain ⟨_,unlocks⟩ := read_key_done readKey
  exact ⟨locks_refl _,⟨_,_,keyFile,rfl,ready,unlocks,held_file _ _ _⟩,(by rintro _ ⟨⟩),fun _ => active,fun _ => rfl⟩

theorem rotate_arrives {env : CommandEnv} {input : RotateKeyFileInput} {ready : Recovered}
    (reached : (Ceremony.rotateKeyFile input).reach suite env dir w = (.done ready,v)) :
    Arrived suite env (.rotateKeyFile input) dir w v ready := by
  simp only [Ceremony.reach,done_bind,done_relabel,done_require,done_pure] at reached
  obtain ⟨_,_,resolved,header,_,read,_,_,⟨_,rfl⟩,vaultId,_,parsed,prepared,_,done,rfl,rfl⟩ := reached
  obtain ⟨rfl,_⟩ := resolve_done resolved
  obtain ⟨rfl,_⟩ := read_local_done read
  cases parse_id_done parsed
  obtain ⟨active,two,free,rfl,ready⟩ := prepare_rotation_done done
  refine ⟨locks_key_file _ _ _ free,⟨_,_,some env.keyFile,rfl,ready,?_,input.destination,?_⟩,?_,fun _ => active,fun _ => rfl⟩
  · rw [unlockKeyFile,if_pos two]
  · exact if_pos rfl
  · intro other same
    cases same
    exact free


theorem stored_tier {header : VaultHeader} (stored : storedHeader w dir = some header) :
    storedTier w dir = header.tier := by
  rw [storedTier,stored]
  rfl

theorem recover_arrives {env : CommandEnv} {input : RecoverInput} {ready : Recovered}
    (reached : (Ceremony.recoverWithPhrase input).reach suite env input.vaultId w = (.done ready,v)) :
    Arrived suite env (.recoverWithPhrase input) input.vaultId w v ready ∧
      ∀ located, locate suite env input.vaultId input w = (.done located,w) →
        ¬ Deletes env.toRecoverEnv (input.request located.header) located.header.tier w := by
  simp only [Ceremony.reach,done_bind,done_relabel] at reached
  obtain ⟨located,_,found,prepared⟩ := reached
  obtain ⟨rfl,there,stored,dbExists⟩ := locate_done found
  rw [there] at dbExists
  rw [prepare_existing dbExists] at prepared
  unfold completeRecovery at prepared
  simp only [done_bind,done_demand,done_meet,done_pure] at prepared
  obtain ⟨keyFile,_,created,_,_,⟨derived,rfl⟩,_,_,⟨_,rfl⟩,rfl,rfl⟩ := prepared
  rcases new_key_file_cases env.toRecoverEnv (input.request located.header) located.header.tier _ with
    ⟨kept,_,_,ended,locks,unlocks,held⟩ | ⟨_,_,unfinished⟩ | ⟨_,_,_,ended,_⟩
  · cases created.symm.trans ended
    refine ⟨⟨locks,⟨_,_,keyFile,rfl,⟨rfl,derived⟩,?_,?_⟩,(by rintro _ ⟨⟩),fun other => absurd rfl (other input),
      fun other => absurd rfl (other input)⟩,fun other found' => ?_⟩
    · rw [stored_tier stored]
      exact unlocks
    · rw [stored_tier stored]
      exact held _
    · cases found.symm.trans found'
      exact kept
  · rw [created] at unfinished
    exact absurd rfl (unfinished keyFile)
  · cases created.symm.trans ended

theorem change_reach_locks {env : CommandEnv} {input : ChangePasswordInput} :
    Keeps SameLocks ((Ceremony.changePassword input).reach suite env dir) := by
  refine keeps_bind locks_trans (keeps_validate locks_refl) fun _ => ?_
  refine keeps_bind locks_trans (keeps_validate locks_refl) fun _ => ?_
  refine keeps_bind locks_trans (keeps_resolve locks_refl locks_trans) fun _ => ?_
  refine keeps_bind locks_trans (keeps_read_local locks_refl locks_trans) fun _ => ?_
  refine keeps_bind locks_trans (keeps_parse_id locks_refl) fun _ => ?_
  refine keeps_bind locks_trans (keeps_relabel (keeps_prepare_change locks_refl locks_trans)) fun _ => ?_
  exact keeps_pure locks_refl _

theorem rotate_reach_locks {env : CommandEnv} {input : RotateKeyFileInput} :
    Keeps SameLocks ((Ceremony.rotateKeyFile input).reach suite env dir) := by
  refine keeps_bind locks_trans (keeps_resolve locks_refl locks_trans) fun _ => ?_
  refine keeps_bind locks_trans (keeps_read_local locks_refl locks_trans) fun _ => ?_
  refine keeps_bind locks_trans (keeps_require locks_refl _ _) fun _ => ?_
  refine keeps_bind locks_trans (keeps_parse_id locks_refl) fun _ => ?_
  refine keeps_bind locks_trans
    (keeps_relabel (keeps_prepare_rotation locks_refl locks_trans locks_key_file)) fun _ => ?_
  exact keeps_pure locks_refl _

-- What a phrase recovery deletes before it has rekeyed anything.
def Ceremony.deletes (suite : Suite) (env : CommandEnv) (w : World) : Ceremony → Prop
  | .changePassword _ | .rotateKeyFile _ => False
  | .recoverWithPhrase input => ∃ located, locate suite env input.vaultId input w = (.done located,w) ∧
    Deletes env.toRecoverEnv (input.request located.header) located.header.tier w

theorem locate_reads {env : CommandEnv} {input : RecoverInput} : Reads (locate suite env dir input) := by
  refine keeps_bind same_trans (keeps_validate same_refl) fun _ => ?_
  refine keeps_bind same_trans (keeps_resolve same_refl same_trans) fun _ => ?_
  refine keeps_bind same_trans (keeps_read_local same_refl same_trans) fun _ => ?_
  exact keeps_relabel (keeps_locate_recovery same_refl same_trans)

theorem recover_reach_cases (suite : Suite) (env : CommandEnv) (input : RecoverInput) (w : World) :
    (∃ ready v, (Ceremony.recoverWithPhrase input).reach suite env input.vaultId w = (.done ready,v)) ∨
    (¬ (Ceremony.recoverWithPhrase input).deletes suite env w ∧
      SameLocks w ((Ceremony.recoverWithPhrase input).reach suite env input.vaultId w).2) ∨
    ((Ceremony.recoverWithPhrase input).deletes suite env w ∧ ∃ e v,
      (Ceremony.recoverWithPhrase input).reach suite env input.vaultId w = (.failed e,v) ∧
        databaseKey v input.vaultId = none) := by
  have here : Same w (locate suite env input.vaultId input w).2 := locate_reads w
  simp only [Ceremony.reach]
  rcases ended : locate suite env input.vaultId input w with ⟨located | e | _,t⟩
  · rw [ended] at here
    obtain ⟨same,there,_,dbExists⟩ := locate_done ended
    obtain rfl := same.symm
    rw [there] at dbExists
    rw [bind_done ended]
    have deletes : (Ceremony.recoverWithPhrase input).deletes suite env w ↔
        Deletes env.toRecoverEnv (input.request located.header) located.header.tier w := by
      constructor
      · rintro ⟨_,found,deletes⟩
        cases ended.symm.trans found
        exact deletes
      · intro deletes
        exact ⟨located,ended,deletes⟩
    rw [deletes]
    rw [prepare_existing dbExists]
    rcases new_key_file_cases env.toRecoverEnv (input.request located.header) located.header.tier w with
      ⟨kept,keyFile,v,created,locks,_⟩ | ⟨kept,locks,unfinished⟩ | ⟨gone,e,v,failed,none⟩
    · have kept' : SameLocks v (completeRecovery suite env.toRecoverEnv (input.request located.header) located
          keyFile v).2 := keeps_complete locks_refl locks_trans v
      rcases completed : completeRecovery suite env.toRecoverEnv (input.request located.header) located keyFile v with
        ⟨ready | e | _,t⟩
      · exact .inl ⟨ready,t,done_relabel.mpr ((bind_done created).trans completed)⟩
      · rw [completed] at kept'
        rw [relabel_failed ((bind_done created).trans completed)]
        exact .inr (.inl ⟨kept,locks_trans _ _ _ locks kept'⟩)
      · rw [completed] at kept'
        rw [relabel_stopped ((bind_done created).trans completed)]
        exact .inr (.inl ⟨kept,locks_trans _ _ _ locks kept'⟩)
    · rcases created : newKeyFile env.toRecoverEnv (input.request located.header) located.header.tier w with
        ⟨keyFile | e | _,t⟩
      · rw [created] at unfinished
        exact absurd rfl (unfinished keyFile)
      · rw [created] at locks
        rw [relabel_failed (bind_failed created)]
        exact .inr (.inl ⟨kept,locks⟩)
      · rw [created] at locks
        rw [relabel_stopped (bind_stopped created)]
        exact .inr (.inl ⟨kept,locks⟩)
    · exact .inr (.inr ⟨gone,_,v,relabel_failed (bind_failed failed),none⟩)
  · rw [ended] at here
    cases here
    rw [bind_failed ended]
    exact .inr (.inl ⟨(by rintro ⟨_,found,_⟩; cases ended.symm.trans found),locks_refl _⟩)
  · rw [ended] at here
    cases here
    rw [bind_stopped ended]
    exact .inr (.inl ⟨(by rintro ⟨_,found,_⟩; cases ended.symm.trans found),locks_refl _⟩)

-- The credential derives another database key from the stored header than the new
-- keys hold.
def Fresh (suite : Suite) (w : World) (dir : String) (newKeys : VaultKeys) (credential : Credential) : Prop :=
  ∀ header keys, storedHeader w dir = some header → credentialKeys suite header credential = .ok keys →
    keys.sqlcipherKey ≠ newKeys.sqlcipherKey

theorem landing {env : CommandEnv} {ceremony : Ceremony} {ready : Recovered} {tables : KeyTables}
    (arrived : Arrived suite env ceremony dir w v ready)
    (fresh : Fresh suite w dir ready.prepared.newKeys old)
    (fresh' : Fresh suite w dir ready.prepared.newKeys (ceremony.newCredential env w dir)) :
    Landing suite env dir w (v.setDatabase dir (some ⟨ready.prepared.newKeys.sqlcipherKey,tables⟩)) old
      (ceremony.newCredential env w dir) ready.prepared.newKeys (newHeader suite env ready) := by
  obtain ⟨locks,⟨password,presented,keyFile,chosen,ready',unlocks,held⟩,_,_⟩ := arrived
  refine ⟨?_,?_,?_,fun initialised => ?_,?_⟩
  · simp [databaseKey,World.setDatabase,World.setVault]
  · simp only [storedHeader,← locks.headers]
    simp [World.setDatabase,World.setVault]
  · rw [chosen]
    exact held
  · rw [chosen]
    exact updated_header_opens ready' unlocks initialised
  · intro credential member
    rcases List.mem_pair.mp member with rfl | rfl
    · exact fresh
    · exact fresh'

theorem task_spared {env : CommandEnv} {ready : Recovered}
    (spared : ¬ Lands suite env.toCeremonyEnv dir ready.prepared.currentKeys ready.vaultId v) :
    SameLocks v (task suite env dir ready v).2 ∧ (task suite env dir ready v).2.keyFiles = v.keyFiles ∧
      (task suite env dir ready v).2.session = v.session ∧
        ∀ t, task suite env dir ready v = (.done (.ok ()),t) → env.rekey.faults.rekeys = .undone := by
  obtain ⟨left,reported⟩ := rekey_task_spares ready.prepared.newKeys spared
  unfold task
  rcases left with left | ⟨database,tables,there,left⟩
  · rw [left]
    exact ⟨locks_refl v,rfl,rfl,fun t ok => (reported t ok).1⟩
  · rw [left]
    exact ⟨locks_database (by simp [databaseKey,there]),rfl,rfl,fun t ok => (reported t ok).1⟩

theorem closed_to_new {newKeys : VaultKeys} (works : Works suite w dir old) (fresh : Fresh suite w dir newKeys old)
    (locks : SameLocks w t) : ¬ ∀ database ∈ (t.vaults dir).database,database.key = newKeys.sqlcipherKey := by
  intro opens
  obtain ⟨_,header,keys,stored,derived,key⟩ := works
  rw [← locks.databases,databaseKey,Option.map_eq_some_iff] at key
  obtain ⟨database,there,same⟩ := key
  exact fresh header keys stored derived (same.symm.trans (opens database there))

-- The end of any of the ceremonies, from where it is ready to rekey.
theorem finish_iff {env : CommandEnv} {ceremony : Ceremony} {ready : Recovered}
    {onResult : Except AuthenticationError Unit → Command World AuthenticationError α} {returned : α → VaultHeader}
    {completes : World → Prop} (arrived : Arrived suite env ceremony dir w v ready) (works : Works suite w dir old)
    (fresh : Fresh suite w dir ready.prepared.newKeys old)
    (fresh' : Fresh suite w dir ready.prepared.newKeys (ceremony.newCredential env w dir))
    (keeps : Keeps SameLocks (onResult (.ok ())))
    (refuses : ∀ e t, SameLocks w t → t.keyFiles = v.keyFiles →
      SameLocks w (onResult (.error e) t).2 ∧ ∀ a, (onResult (.error e) t).1 ≠ .done a)
    (installs : ∀ u database, (u.vaults dir).database = some database →
      database.key = ready.prepared.newKeys.sqlcipherKey →
        ((∃ a t, onResult (.ok ()) u = (.done a,t)) ↔ completes u))
    (returns : ∀ u a t, completes u → onResult (.ok ()) u = (.done a,t) →
      returned a = newHeader suite env ready ∧ ready.prepared.newKeys.initialised)
    (congr : ∀ database database', database.key = database'.key →
      completes (v.setDatabase dir (some database)) → completes (v.setDatabase dir (some database')))
    (stalls : env.rekey.faults.rekeys = .undone → ∀ t, SameLocks w t → t.session = v.session →
      ∀ a, (onResult (.ok ()) t).1 ≠ .done a) :
    NoLockout suite dir old (ceremony.newCredential env w dir)
        (tail env dir (task suite env dir ready) onResult returned v) ↔
      (Lands suite env.toCeremonyEnv dir ready.prepared.currentKeys ready.vaultId v → env.rekeyEnds = .goes ∧
        completes (rekeyedWorld v dir ready.prepared.newKeys) ∧ env.writesHeader.leaves = .written) := by
  by_cases lands : Lands suite env.toCeremonyEnv dir ready.prepared.currentKeys ready.vaultId v
  · obtain ⟨tables,landed⟩ : ∃ tables, task suite env dir ready v = _ :=
      rekey_task_lands ready.prepared.newKeys lands
    obtain ⟨database,there,_⟩ := lands.commits
    have opened : ((v.setDatabase dir (some ⟨ready.prepared.newKeys.sqlcipherKey,tables⟩)).vaults dir).database =
        some ⟨ready.prepared.newKeys.sqlcipherKey,tables⟩ := by
      simp [World.setDatabase,World.setVault]
    have installs := installs _ _ opened rfl
    rw [tail_landed (landing arrived fresh fresh') landed keeps
      (fun a t done => returns _ a t (installs.mp ⟨a,t,done⟩) done),installs]
    have rekeyed : rekeyedWorld v dir ready.prepared.newKeys =
        v.setDatabase dir (some ⟨ready.prepared.newKeys.sqlcipherKey,database.tables⟩) := by
      rw [rekeyedWorld,there]
      rfl
    rw [rekeyed]
    constructor
    · rintro ⟨ends,done,written⟩ _
      exact ⟨ends,congr ⟨_,tables⟩ ⟨_,database.tables⟩ rfl done,written⟩
    · intro condition
      obtain ⟨ends,done,written⟩ := condition lands
      exact ⟨ends,congr ⟨_,database.tables⟩ ⟨_,tables⟩ rfl done,written⟩
  · refine ⟨fun _ landed => absurd landed lands,fun _ => tail_spared works ?_⟩
    obtain ⟨locks,keyFiles,session,reported⟩ := task_spared lands
    rcases ended : task suite env dir ready v with ⟨result | e | _,t⟩
    · rw [ended] at locks keyFiles session
      have locks := locks_trans _ _ _ arrived.locks locks
      cases result with
      | ok value =>
        -- what `sqlite3_rekey` has undone is found out when the session is opened
        exact .inr (.inr ⟨.ok (),t,rfl,locks_trans _ _ _ locks (keeps t),stalls (reported t ended) t locks session⟩)
      | error e =>
        obtain ⟨kept,unfinished⟩ := refuses e t locks keyFiles
        exact .inr (.inr ⟨.error e,t,rfl,kept,unfinished⟩)
    · rw [ended] at locks
      exact .inl ⟨e,t,rfl,locks_trans _ _ _ arrived.locks locks⟩
    · rw [ended] at locks
      exact .inr (.inl ⟨t,rfl,locks_trans _ _ _ arrived.locks locks⟩)


def Ceremony.completes (env : CommandEnv) (keys : VaultKeys) (w : World) : Ceremony → Prop
  | .changePassword _ | .rotateKeyFile _ => Installs env.toCeremonyEnv keys w
  | .recoverWithPhrase _ => Finishes env.toRecoverEnv keys w

-- No step between the rekey and the header on disk fails or stops the process, and
-- no key file fails to be created beside a database that is there.
def Ceremony.Survives (suite : Suite) (env : CommandEnv) (w : World) (dir : String) (ceremony : Ceremony) : Prop :=
  ¬ ceremony.deletes suite env w ∧ ∀ ready v, ceremony.reach suite env dir w = (.done ready,v) →
    Lands suite env.toCeremonyEnv dir ready.prepared.currentKeys ready.vaultId v → env.rekeyEnds = .goes ∧
      ceremony.completes env ready.prepared.newKeys (rekeyedWorld v dir ready.prepared.newKeys) ∧
      env.writesHeader.leaves = .written

theorem installs_congr {env : CeremonyEnv} {keys : VaultKeys} (database database' : Database)
    (same : database.key = database'.key) (installs : Installs env keys (v.setDatabase dir (some database))) :
    Installs env keys (v.setDatabase dir (some database')) := by
  obtain ⟨initialised,swaps,⟨session,active,opens⟩,uploads⟩ := installs
  refine ⟨initialised,swaps,⟨session,active,fun found there => ?_⟩,uploads⟩
  by_cases here : session.vaultDb = dir
  · have key := opens database (by simp [World.setDatabase,World.setVault,here])
    simp only [World.setDatabase,World.setVault,here,if_true,Option.mem_def,Option.some.injEq] at there
    rw [← there,← same,key]
  · exact opens found (by simpa [World.setDatabase,World.setVault,here] using there)

theorem install_locks {env : CommandEnv} {keys : VaultKeys} {header : VaultHeader} {vaultId : Uuid} :
    Keeps SameLocks (installCredentials suite env.toCeremonyEnv keys header dir vaultId) :=
  keeps_install locks_refl locks_trans locks_session locks_cloud (fun w => locks_staged w _)
    (fun w => locks_staged w _)

theorem returns_header {env : CeremonyEnv} {keys : VaultKeys} {header returned : VaultHeader} {vaultId : Uuid}
    (done : installCredentials suite env keys header dir vaultId u = (.done returned,after)) : returned = header := by
  unfold installCredentials at done
  rw [bind_inspect] at done
  simp only [done_bind,done_pure] at done
  obtain ⟨_,_,_,_,_,_,_,_,_,rfl,_⟩ := done
  rfl

theorem install_stalls {env : CommandEnv} {ready : Recovered} {header : VaultHeader} {vaultId : Uuid}
    (works : Works suite w dir old) (fresh : Fresh suite w dir ready.prepared.newKeys old)
    (own : ∀ session ∈ w.session, session.vaultDb = dir) (locks : SameLocks w t) (session : t.session = w.session)
    (a : VaultHeader) :
    (installCredentials suite env.toCeremonyEnv ready.prepared.newKeys header dir vaultId t).1 ≠ .done a := by
  intro done
  obtain ⟨found,active,opens⟩ := install_opens (Prod.ext_iff.mpr ⟨done,rfl⟩)
  rw [own found (session ▸ active)] at opens
  exact closed_to_new works fresh locks opens

theorem change_finish_iff {env : CommandEnv} {input : ChangePasswordInput} {ready : Recovered}
    (arrived : Arrived suite env (.changePassword input) dir w v ready) (works : Works suite w dir old)
    (fresh : Fresh suite w dir ready.prepared.newKeys old)
    (fresh' : Fresh suite w dir ready.prepared.newKeys ((Ceremony.changePassword input).newCredential env w dir))
    (own : env.rekey.faults.rekeys = .undone → ∀ session ∈ w.session, session.vaultDb = dir) :
    NoLockout suite dir old ((Ceremony.changePassword input).newCredential env w dir)
        ((Ceremony.changePassword input).finish suite env dir ready v) ↔
      (Lands suite env.toCeremonyEnv dir ready.prepared.currentKeys ready.vaultId v → env.rekeyEnds = .goes ∧
        Installs env.toCeremonyEnv ready.prepared.newKeys (rekeyedWorld v dir ready.prepared.newKeys) ∧
        env.writesHeader.leaves = .written) := by
  refine finish_iff arrived works fresh fresh' install_locks (fun e t locks _ => ⟨locks,(by rintro _ ⟨⟩)⟩)
    (fun u database there opens => install_done there opens) (fun u a t installs done => ?_) installs_congr
    fun undone t locks session =>
      install_stalls works fresh (own undone) locks (session.trans (arrived.session (by rintro _ ⟨⟩)))
  exact ⟨returns_header done,installs.initialised⟩

theorem rotate_finish_iff {env : CommandEnv} {input : RotateKeyFileInput} {ready : Recovered}
    (arrived : Arrived suite env (.rotateKeyFile input) dir w v ready) (works : Works suite w dir old)
    (fresh : Fresh suite w dir ready.prepared.newKeys old)
    (fresh' : Fresh suite w dir ready.prepared.newKeys ((Ceremony.rotateKeyFile input).newCredential env w dir))
    (own : env.rekey.faults.rekeys = .undone → ∀ session ∈ w.session, session.vaultDb = dir) :
    NoLockout suite dir old ((Ceremony.rotateKeyFile input).newCredential env w dir)
        ((Ceremony.rotateKeyFile input).finish suite env dir ready v) ↔
      (Lands suite env.toCeremonyEnv dir ready.prepared.currentKeys ready.vaultId v → env.rekeyEnds = .goes ∧
        Installs env.toCeremonyEnv ready.prepared.newKeys (rekeyedWorld v dir ready.prepared.newKeys) ∧
        env.writesHeader.leaves = .written) := by
  refine finish_iff arrived works fresh fresh' install_locks (fun e t locks _ => ?_)
    (fun u database there opens => install_done there opens) (fun u a t installs done => ?_) installs_congr
    fun undone t locks session =>
      install_stalls works fresh (own undone) locks (session.trans (arrived.session (by rintro _ ⟨⟩)))
  · have free := arrived.written input rfl
    have removed : ((removeFileIfExists env.removesKeyFile input.destination >>= fun _ => fail e :
        Command World AuthenticationError VaultHeader) t) =
          (.failed e,if env.removesKeyFile then t.setKeyFile input.destination none else t) := by
      unfold removeFileIfExists
      cases env.removesKeyFile <;> rfl
    dsimp only
    rw [removed]
    refine ⟨?_,(by rintro _ ⟨⟩)⟩
    cases env.removesKeyFile with
    | false => exact locks
    | true =>
      refine ⟨locks.headers,locks.databases,fun path content there => ?_⟩
      have apart : path ≠ input.destination := by
        intro same
        rw [same,free] at there
        cases there
      exact (if_neg apart).trans (locks.keyFiles path content there)
  · exact ⟨returns_header done,installs.initialised⟩

theorem recover_finish_iff {env : CommandEnv} {input : RecoverInput} {ready : Recovered}
    (arrived : Arrived suite env (.recoverWithPhrase input) dir w v ready) (works : Works suite w dir old)
    (fresh : Fresh suite w dir ready.prepared.newKeys old)
    (fresh' : Fresh suite w dir ready.prepared.newKeys ((Ceremony.recoverWithPhrase input).newCredential env w dir)) :
    NoLockout suite dir old ((Ceremony.recoverWithPhrase input).newCredential env w dir)
        ((Ceremony.recoverWithPhrase input).finish suite env dir ready v) ↔
      (Lands suite env.toCeremonyEnv dir ready.prepared.currentKeys ready.vaultId v → env.rekeyEnds = .goes ∧
        Finishes env.toRecoverEnv ready.prepared.newKeys (rekeyedWorld v dir ready.prepared.newKeys) ∧
        env.writesHeader.leaves = .written) := by
  refine finish_iff arrived works fresh fresh' ?_ (fun e t locks _ => ⟨locks,(by rintro _ ⟨⟩)⟩)
    (fun u database there opens => finish_done there opens) (fun u a t finishes done => ?_)
    (fun _ _ _ finishes => ⟨finishes.header,finishes.manifest,finishes.free,finishes.initialised,finishes.installs⟩)
    fun _ t locks _ a done => closed_to_new works fresh locks (finish_opens (Prod.ext_iff.mpr ⟨done,rfl⟩))
  · exact keeps_finish_recovery locks_refl locks_trans locks_session locks_cloud (fun w => locks_staged w _)
      (fun w => locks_staged w _)
  · refine ⟨?_,finishes.initialised⟩
    change finishRecovery _ _ _ _ _ _ u = _ at done
    unfold finishRecovery at done
    simp only [done_bind,done_pure] at done
    obtain ⟨_,_,_,_,_,_,_,_,_,rfl,_⟩ := done
    rfl

theorem refuses_locked {next : Session → Command World IpcError Unit} (locked : w.session = none) :
    (requireActiveSession >>= next) w = (.failed (.vaultLocked "Vault is locked"),w) := by
  refine bind_failed ?_
  rw [requireActiveSession,bind_inspect,locked]
  rfl

theorem run_eq (suite : Suite) (env : CommandEnv) {ceremony : Ceremony} (target : ceremony.targets w dir) :
    ceremony.run suite env w = (ceremony.reach suite env dir >>= fun ready => ceremony.finish suite env dir ready) w ∨
      (∃ e, ceremony.run suite env w = (.failed e,w)) ∧ ¬ ceremony.deletes suite env w ∧
        ∀ ready v, ceremony.reach suite env dir w ≠ (.done ready,v) := by
  cases ceremony with
  | changePassword input =>
    cases active : w.session with
    | some session =>
      have same := target session active
      subst same
      exact .inl (run_change active)
    | none =>
      refine .inr ⟨⟨_,refuses_locked active⟩,not_false,fun ready v reached => ?_⟩
      have unlocked := (change_arrives reached).active (by rintro _ ⟨⟩)
      rw [active] at unlocked
      cases unlocked
  | rotateKeyFile input =>
    cases active : w.session with
    | some session =>
      have same := target session active
      subst same
      exact .inl (run_rotate active)
    | none =>
      refine .inr ⟨⟨_,refuses_locked active⟩,not_false,fun ready v reached => ?_⟩
      have unlocked := (rotate_arrives reached).active (by rintro _ ⟨⟩)
      rw [active] at unlocked
      cases unlocked
  | recoverWithPhrase input =>
    cases target
    exact .inl (by rw [Ceremony.run,run_recover])

theorem reach_cases (suite : Suite) (env : CommandEnv) {ceremony : Ceremony} (target : ceremony.targets w dir) :
    (∃ ready v, ceremony.reach suite env dir w = (.done ready,v) ∧ Arrived suite env ceremony dir w v ready ∧
      ¬ ceremony.deletes suite env w) ∨
    (¬ ceremony.deletes suite env w ∧ SameLocks w (ceremony.reach suite env dir w).2 ∧
      ∀ ready, (ceremony.reach suite env dir w).1 ≠ .done ready) ∨
    (ceremony.deletes suite env w ∧ ∃ e v, ceremony.reach suite env dir w = (.failed e,v) ∧
      databaseKey v dir = none) := by
  cases ceremony with
  | changePassword input =>
    have locks : SameLocks w ((Ceremony.changePassword input).reach suite env dir w).2 := change_reach_locks w
    rcases reached : (Ceremony.changePassword input).reach suite env dir w with ⟨ready | e | _,v⟩
    · exact .inl ⟨ready,v,rfl,change_arrives reached,not_false⟩
    · rw [reached] at locks
      exact .inr (.inl ⟨not_false,locks,(by rintro _ ⟨⟩)⟩)
    · rw [reached] at locks
      exact .inr (.inl ⟨not_false,locks,(by rintro _ ⟨⟩)⟩)
  | rotateKeyFile input =>
    have locks : SameLocks w ((Ceremony.rotateKeyFile input).reach suite env dir w).2 := rotate_reach_locks w
    rcases reached : (Ceremony.rotateKeyFile input).reach suite env dir w with ⟨ready | e | _,v⟩
    · exact .inl ⟨ready,v,rfl,rotate_arrives reached,not_false⟩
    · rw [reached] at locks
      exact .inr (.inl ⟨not_false,locks,(by rintro _ ⟨⟩)⟩)
    · rw [reached] at locks
      exact .inr (.inl ⟨not_false,locks,(by rintro _ ⟨⟩)⟩)
  | recoverWithPhrase input =>
    cases target
    rcases recover_reach_cases suite env input w with
      ⟨ready,v,reached⟩ | ⟨kept,locks⟩ | ⟨gone,e,v,failed,none⟩
    · obtain ⟨arrived,kept⟩ := recover_arrives reached
      exact .inl ⟨ready,v,reached,arrived,fun ⟨located,found,deletes⟩ => kept located found deletes⟩
    · rcases reached : (Ceremony.recoverWithPhrase input).reach suite env input.vaultId w with ⟨ready | e | _,v⟩
      · obtain ⟨arrived,_⟩ := recover_arrives reached
        exact .inl ⟨ready,v,rfl,arrived,kept⟩
      · rw [reached] at locks
        exact .inr (.inl ⟨kept,locks,(by rintro _ ⟨⟩)⟩)
      · rw [reached] at locks
        exact .inr (.inl ⟨kept,locks,(by rintro _ ⟨⟩)⟩)
    · exact .inr (.inr ⟨gone,e,v,failed,none⟩)

theorem finished_iff {env : CommandEnv} {ceremony : Ceremony} {ready : Recovered}
    (arrived : Arrived suite env ceremony dir w v ready) (works : Works suite w dir old)
    (fresh : ∀ credential ∈ [old,ceremony.newCredential env w dir],
      Fresh suite w dir ready.prepared.newKeys credential)
    (own : env.rekey.faults.rekeys = .undone → ∀ session ∈ w.session, session.vaultDb = dir) :
    NoLockout suite dir old (ceremony.newCredential env w dir) (ceremony.finish suite env dir ready v) ↔
      (Lands suite env.toCeremonyEnv dir ready.prepared.currentKeys ready.vaultId v → env.rekeyEnds = .goes ∧
        ceremony.completes env ready.prepared.newKeys (rekeyedWorld v dir ready.prepared.newKeys) ∧
        env.writesHeader.leaves = .written) := by
  have one := fresh old (by simp)
  have two := fresh (ceremony.newCredential env w dir) (by simp)
  cases ceremony with
  | changePassword input => exact change_finish_iff arrived works one two own
  | rotateKeyFile input => exact rotate_finish_iff arrived works one two own
  | recoverWithPhrase input => exact recover_finish_iff arrived works one two

-- Every run that rekeys has to get through to the header on disk. A rekey that is
-- reported but undone is found out by the session, whose database is the vault's.
theorem ceremony_no_lockout_iff (suite : Suite) (env : CommandEnv) (ceremony : Ceremony) (w : World) (dir : String)
    (old : Credential) (target : ceremony.targets w dir) (works : Works suite w dir old)
    (fresh : ∀ ready v, ceremony.reach suite env dir w = (.done ready,v) →
      ∀ credential ∈ [old,ceremony.newCredential env w dir], Fresh suite w dir ready.prepared.newKeys credential)
    (own : env.rekey.faults.rekeys = .undone → ∀ session ∈ w.session, session.vaultDb = dir) :
    NoLockout suite dir old (ceremony.newCredential env w dir) (ceremony.run suite env w) ↔
      ceremony.Survives suite env w dir := by
  rcases run_eq suite env target with same | ⟨⟨e,failed⟩,kept,never⟩
  · rw [same]
    rcases reach_cases suite env target with
      ⟨ready,v,reached,arrived,kept⟩ | ⟨kept,locks,unfinished⟩ | ⟨gone,e,v,failed,none⟩
    · rw [bind_done reached,finished_iff arrived works (fresh ready v reached) own]
      constructor
      · intro condition
        refine ⟨kept,fun ready' v' reached' lands => ?_⟩
        cases reached.symm.trans reached'
        exact condition lands
      · rintro ⟨_,condition⟩
        exact condition ready v reached
    · have survives : ceremony.Survives suite env w dir :=
        ⟨kept,fun ready v reached => absurd (by rw [reached]) (unfinished ready)⟩
      refine ⟨fun _ => survives,fun _ => ?_⟩
      rcases reached : ceremony.reach suite env dir w with ⟨ready | e | _,v⟩
      · exact absurd (by rw [reached]) (unfinished ready)
      · rw [reached] at locks
        rw [bind_failed reached]
        exact works_same works locks
      · rw [reached] at locks
        rw [bind_stopped reached]
        exact .inl (works_same works locks)
    · rw [bind_failed failed]
      refine ⟨fun safe => ?_,fun ⟨kept,_⟩ => absurd gone kept⟩
      obtain ⟨_,_,_,_,_,opens⟩ := safe
      rw [none] at opens
      cases opens
  · rw [failed]
    exact ⟨fun _ => ⟨kept,fun ready v reached => absurd reached (never ready v)⟩,fun _ => works⟩

-- In the evaluable suite a database key begins with the salt it comes from.
theorem plain_master_salt {password : Bytes} {keyFile : Option KeyFile} {salt : Salt} {parameters : Argon2Params}
    {masterKey : MasterKey} (derived : deriveMasterKey plainSuite password keyFile salt parameters = .ok masterKey) :
    (deriveVaultKeys plainSuite masterKey).sqlcipherKey.1[1]? = salt.1[0]? := by
  obtain ⟨bytes,size⟩ := salt
  match bytes,size with
  | first :: rest,size =>
    cases derived
    rfl

theorem plain_fresh {header : VaultHeader} {salt newSalt : Salt} {password newPassword : Bytes}
    {presented keyFile : Option KeyFile} {parameters : Argon2Params} {masterKey : MasterKey}
    (stored : storedHeader w dir = some header) (salted : decodeBase64_32 header.argon2Salt = .ok salt)
    (apart : salt.1[0]? ≠ newSalt.1[0]?)
    (derived : deriveMasterKey plainSuite newPassword keyFile newSalt parameters = .ok masterKey) :
    Fresh plainSuite w dir (deriveVaultKeys plainSuite masterKey) (.password password presented) := by
  intro header' keys stored' opened same
  cases stored.symm.trans stored'
  change passwordKeys plainSuite header password presented = .ok keys at opened
  unfold passwordKeys at opened
  obtain ⟨salt',salted',opened⟩ := bind_ok.mp opened
  cases salted.symm.trans salted'
  obtain ⟨keyFile',_,opened⟩ := bind_ok.mp opened
  obtain ⟨masterKey',derived',opened⟩ := bind_ok.mp opened
  obtain ⟨_,_,returned⟩ := bind_ok.mp opened
  cases returned
  apply apart
  rw [← plain_master_salt derived',← plain_master_salt derived,same]

def oldHeader : VaultHeader :=
  ⟨"vault",1,1,encodeBase64 (byteKey 5 : Block 32).1,⟨65536,3,4⟩,none,[],none⟩

def oldKeys : VaultKeys :=
  match passwordKeys plainSuite oldHeader [1] none with
  | .ok keys => keys
  | .error _ => ⟨zeroKey,zeroKey,zeroKey⟩

def oneVault : World where
  vaults _ := ⟨some ⟨oldKeys.sqlcipherKey,noKeys⟩,some (.json oldHeader.toJson)⟩
  keyFiles _ := none
  session := some ⟨"vault","vault",oldKeys⟩
  transport := some "cloud"
  clouds _ := ⟨none,none⟩
  pending := none

def steadyCommand : CommandEnv where
  salt := byteKey 6
  nonce := byteKey 0
  keyFile := byteKey 8
  rekey := steadyEnv
  readsKey := .goes
  locksCurrent := .goes
  writesKeyFile := .succeeds
  removesKeyFile := true
  locksNew := .goes
  rekeyBegins := .goes
  rekeyEnds := .goes
  installs := .goes
  stages := .goes
  header := ⟨.succeeds,.ended .succeeds,true⟩
  manifest := ⟨.goes,.ended .succeeds⟩
  removesPending := true
  downloadsHeader := .goes
  preparesStorage := .goes
  download := ⟨.goes,.goes,true⟩
  removesDatabase := true
  writesHeader := .succeeds

def failedUpload : Cloud.Transport.Attempt := ⟨false,.error .notFound,nofun⟩

def failingHeader : CommandEnv := {steadyCommand with header := ⟨.succeeds,.ended failedUpload,true⟩}

def newPassword : ChangePasswordInput := ⟨[1],[2],none,none⟩

theorem no_lockout_failed {outcome : Ending IpcError Unit × World} (failed : outcome.1 = .failed e)
    (safe : NoLockout suite dir old new outcome) : Works suite outcome.2 dir old := by
  obtain ⟨ending,after⟩ := outcome
  cases failed
  exact safe

theorem old_works : Works plainSuite oneVault "vault" (.password [1] none) :=
  ⟨trivial,oldHeader,oldKeys,by decide +kernel,by decide +kernel,by decide +kernel⟩

theorem failed_change_iff :
    NoLockout plainSuite "vault" (.password [1] none)
        ((Ceremony.changePassword newPassword).newCredential failingHeader oneVault "vault")
        ((Ceremony.changePassword newPassword).run plainSuite failingHeader oneVault) ↔
      (Ceremony.changePassword newPassword).Survives plainSuite failingHeader oneVault "vault" := by
  refine ceremony_no_lockout_iff plainSuite failingHeader (.changePassword newPassword) oneVault "vault"
    (.password [1] none) (fun session active => by cases active; rfl) old_works ?_ (by rintro ⟨⟩)
  intro ready v reached credential member
  obtain ⟨_,_,_,_,ready',_,_⟩ := (change_arrives reached).credential
  have stored : storedHeader oneVault "vault" = some oldHeader := by decide +kernel
  have salted : decodeBase64_32 oldHeader.argon2Salt = .ok (byteKey 5) := decode_encode_salt _
  rw [ready'.newKeys]
  rcases List.mem_pair.mp member with same | same
  · rw [same]
    exact plain_fresh stored salted (by decide) ready'.derives
  · rw [same]
    exact plain_fresh stored salted (by decide) ready'.derives

-- The header upload fails after the rekey: the old password no longer fits the
-- database, and the new one has no header on disk.
theorem failed_upload_locks_out : Works plainSuite oneVault "vault" (.password [1] none) ∧
    ¬ NoLockout plainSuite "vault" (.password [1] none)
      ((Ceremony.changePassword newPassword).newCredential failingHeader oneVault "vault")
      ((Ceremony.changePassword newPassword).run plainSuite failingHeader oneVault) := by
  refine ⟨old_works,fun safe => ?_⟩
  obtain ⟨_,header,keys,stored,derived,opens⟩ := no_lockout_failed
    (e := .internalError "Vault configuration error") (by decide +kernel) safe
  have same : storedHeader ((Ceremony.changePassword newPassword).run plainSuite failingHeader oneVault).2 "vault" =
      some oldHeader := by decide +kernel
  cases same.symm.trans stored
  have same' : credentialKeys plainSuite oldHeader (.password [1] none) = .ok oldKeys := by decide +kernel
  cases same'.symm.trans derived
  revert opens
  decide +kernel

end ArxRuna.Credentials.Lockout
