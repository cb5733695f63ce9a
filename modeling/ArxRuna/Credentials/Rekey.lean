import ArxRuna.Library.Rewrite
import ArxRuna.Credentials.Keys
namespace ArxRuna.Credentials.Rekey
open Library.Aead Library.Fallible Library.Rewrite Crypto Keys

structure ShareKey where
  fileId : String
  wrapped : Bytes
  deriving DecidableEq

-- The columns that hold keys wrapped under the KEK, by primary key. Rows of
-- `nodes` without a key or an id hold nothing and are left out.
structure KeyTables where
  nodes : Table String Bytes
  epochBlobs : Table String Bytes
  vaultIdentity : Option Bytes
  fileShares : Table String ShareKey
  receivedShares : Table String ShareKey

structure Database where
  key : SqlcipherKey
  tables : KeyTables

-- SQLCipher checks the key of a connection when the file is first read.
structure Connection where
  file : Database
  key : SqlcipherKey

inductive KeySlot where
  | node (nodeId : String)
  | epochBlob (epochBlobId : String)
  | identity
  | fileShare (fileShareId : String)
  | receivedShare (shareId : String)
  deriving DecidableEq

-- `sqlite3_rekey` rolls back when rewriting the pages fails, and returns SQLITE_OK.
inductive RekeyFate where
  | rewrites
  | refuses
  | undone
  deriving DecidableEq

-- Which database calls go through. A row that does not read as a text and a
-- blob is a failed read.
structure RekeyFaults where
  begins : Bool
  nodesRead : Bool
  epochBlobsRead : Bool
  identityRead : Bool
  updates : KeySlot → Bool
  commits : Bool
  rekeys : RekeyFate

structure RekeyEnv where
  nonce : KeySlot → Nonce
  faults : RekeyFaults

variable (suite : Suite) (env : RekeyEnv) (currentKek newKek : KeyEncryptionKey)

def rewrapNode (nodeId : String) (wrapped : Bytes) : Except AuthenticationError (Option Bytes) :=
  match suite.parseUuid nodeId with
  | none => .error .invalidCredentials
  | some fileId =>
    match block 72 wrapped with
    | none => .error .invalidCredentials
    | some wrapped =>
      match unwrapFileKey suite.toPrimitives wrapped fileId currentKek with
      | .error _ => .error .invalidCredentials
      | .ok fileKey => do
        let rewrapped := wrapFileKey suite.toPrimitives fileKey fileId newKek (env.nonce (.node nodeId))
        ensure (env.faults.updates (.node nodeId)) .invalidCredentials
        return some rewrapped.1

-- A row that cannot be read as a key under the current KEK is skipped here, where
-- the nodes and the identity end the transaction.
def rewrapEpochBlob (epochBlobId : String) (wrapped : Bytes) : Except AuthenticationError (Option Bytes) :=
  match suite.parseUuid epochBlobId with
  | none => .ok none
  | some fileId =>
    match block 72 wrapped with
    | none => .ok none
    | some wrapped =>
      match unwrapFileKey suite.toPrimitives wrapped fileId currentKek with
      | .error _ => .ok none
      | .ok fileKey => do
        let rewrapped := wrapFileKey suite.toPrimitives fileKey fileId newKek (env.nonce (.epochBlob epochBlobId))
        ensure (env.faults.updates (.epochBlob epochBlobId)) .invalidCredentials
        return some rewrapped.1

def rewrapIdentity (vaultId : Uuid) : Option Bytes → Except AuthenticationError (Option Bytes)
  | none => .ok none
  | some wrapped =>
    match block 72 wrapped with
    | none => .error .invalidCredentials
    | some wrapped =>
      match unwrapFileKey suite.toPrimitives wrapped vaultId currentKek with
      | .error _ => .error .invalidCredentials
      | .ok fileKey => do
        let rewrapped := wrapFileKey suite.toPrimitives fileKey vaultId newKek (env.nonce .identity)
        ensure (env.faults.updates .identity) .invalidCredentials
        return some rewrapped.1

-- The body of the transaction. No statement names `file_shares` or `received_shares`.
def rewrapTables (vaultId : Uuid) (tables : KeyTables) : Except AuthenticationError KeyTables := do
  ensure env.faults.nodesRead .invalidCredentials
  let nodes ← rewriteAll (rewrapNode suite env currentKek newKek) tables.nodes
  ensure env.faults.epochBlobsRead .invalidCredentials
  let epochBlobs ← rewriteAll (rewrapEpochBlob suite env currentKek newKek) tables.epochBlobs
  ensure env.faults.identityRead .invalidCredentials
  let vaultIdentity ← rewrapIdentity suite env currentKek newKek vaultId tables.vaultIdentity
  return {tables with nodes := nodes,epochBlobs := epochBlobs,vaultIdentity := vaultIdentity}

-- A connection dropped inside its transaction is rolled back like one that is
-- rolled back in time. `sqlite3_rekey` runs after the commit, and undoes only itself.
def rekeyVaultDb (conn : Connection) (newSqlcipher : SqlcipherKey) (vaultId : Uuid) :
    Except AuthenticationError Unit × Database :=
  if conn.key = conn.file.key ∧ env.faults.begins then
    match rewrapTables suite env currentKek newKek vaultId conn.file.tables with
    | .error e => (.error e,conn.file)
    | .ok tables =>
      if env.faults.commits then
        match env.faults.rekeys with
        | .rewrites => (.ok (),⟨newSqlcipher,tables⟩)
        | .refuses => (.error .vaultHeaderInvalid,⟨conn.file.key,tables⟩)
        | .undone => (.ok (),⟨conn.file.key,tables⟩)
      else (.error .invalidCredentials,conn.file)
  else (.error .invalidCredentials,conn.file)

-- The wrapped key a slot holds, with the id it is bound to.
def KeyTables.slot? (vaultId : Uuid) (tables : KeyTables) : KeySlot → Option (Uuid × Bytes)
  | .node id => do return (← suite.parseUuid id,← tables.nodes.lookup id)
  | .epochBlob id => do return (← suite.parseUuid id,← tables.epochBlobs.lookup id)
  | .identity => do return (vaultId,← tables.vaultIdentity)
  | .fileShare id => do
    let row ← tables.fileShares.lookup id
    return (← suite.parseUuid row.fileId,row.wrapped)
  | .receivedShare id => do
    let row ← tables.receivedShares.lookup id
    return (← suite.parseUuid row.fileId,row.wrapped)

def openKey (kek : KeyEncryptionKey) (fileId : Uuid) (wrapped : Bytes) : Option FileKey := do
  let wrapped ← block 72 wrapped
  (unwrapFileKey suite.toPrimitives wrapped fileId kek).toOption

def storedKey (kek : KeyEncryptionKey) (vaultId : Uuid) (tables : KeyTables) (slot : KeySlot) :
    Option FileKey := do
  let (fileId,wrapped) ← tables.slot? suite vaultId slot
  openKey suite kek fileId wrapped

def KeySlot.shared : KeySlot → Prop
  | .fileShare _ | .receivedShare _ => True
  | _ => False

-- Every key that could be read before can be read after, and is the same.
def Kept (vaultId : Uuid) (kekBefore kekAfter : KeyEncryptionKey) (before after : KeyTables) : Prop :=
  ∀ slot key, storedKey suite kekBefore vaultId before slot = some key →
    storedKey suite kekAfter vaultId after slot = some key

def CompleteAndAtomic (conn : Connection) (newSqlcipher : SqlcipherKey) (vaultId : Uuid) : Prop :=
  match rekeyVaultDb suite env currentKek newKek conn newSqlcipher vaultId with
  | (.error _,after) => after.key = conn.file.key ∧
      Kept suite vaultId currentKek currentKek conn.file.tables after.tables
  | (.ok _,after) => after.key = newSqlcipher ∧
      Kept suite vaultId currentKek newKek conn.file.tables after.tables

-- When the transaction commits, in terms of the tables it starts from.
structure Commits (conn : Connection) (vaultId : Uuid) : Prop where
  opened : conn.key = conn.file.key
  begins : env.faults.begins
  reads : env.faults.nodesRead ∧ env.faults.epochBlobsRead ∧ env.faults.identityRead
  nodes : ∀ id ∈ conn.file.tables.nodes,
    (storedKey suite currentKek vaultId conn.file.tables (.node id)).isSome ∧ env.faults.updates (.node id)
  epochBlobs : ∀ id, (storedKey suite currentKek vaultId conn.file.tables (.epochBlob id)).isSome →
    env.faults.updates (.epochBlob id)
  identity : conn.file.tables.vaultIdentity.isSome →
    (storedKey suite currentKek vaultId conn.file.tables .identity).isSome ∧ env.faults.updates .identity
  commits : env.faults.commits

variable {suite env currentKek newKek} {vaultId : Uuid} {tables rewrapped : KeyTables}

theorem open_key_some : openKey suite kek fileId wrapped = some key ↔
    ∃ blob, block 72 wrapped = some blob ∧ unwrapFileKey suite.toPrimitives blob fileId kek = .ok key := by
  rw [openKey,Option.bind_eq_bind,Option.bind_eq_some_iff]
  refine exists_congr fun blob => and_congr_right fun _ => ?_
  cases unwrapFileKey suite.toPrimitives blob fileId kek with
  | error refusal => exact ⟨by rintro ⟨⟩,by rintro ⟨⟩⟩
  | ok found => exact ⟨fun opened => congrArg Except.ok (Option.some.inj opened),fun opened => by cases opened; rfl⟩

theorem open_key_short (cut : block 72 wrapped = none) : openKey suite kek fileId wrapped = none := by
  rw [openKey,cut]
  rfl

theorem open_key_refused (cut : block 72 wrapped = some blob)
    (refused : unwrapFileKey suite.toPrimitives blob fileId kek = .error refusal) :
    openKey suite kek fileId wrapped = none := by
  rw [openKey,cut,Option.bind_eq_bind,Option.bind_some,refused]
  rfl

@[simp] theorem open_key_wrap (key : FileKey) (fileId : Uuid) (kek : KeyEncryptionKey) (nonce : Nonce) :
    openKey suite kek fileId (wrapFileKey suite.toPrimitives key fileId kek nonce).1 = some key :=
  open_key_some.mpr ⟨_,block_val _,unwrap_wrap _ _ _ _ _⟩

theorem update_ok {allowed : Bool} {failure : AuthenticationError} {value : Bytes} {found : Option Bytes} :
    (do ensure (allowed = true) failure; return some value) = (.ok found : Except AuthenticationError _) ↔
      allowed = true ∧ found = some value := by
  rw [bind_ok]
  constructor
  · rintro ⟨_,passed,returned⟩
    exact ⟨ensure_ok.mp passed,(pure_ok.mp returned).symm⟩
  · rintro ⟨passed,same⟩
    exact ⟨(),ensure_ok.mpr passed,pure_ok.mpr same.symm⟩

theorem rewrap_node_ok : rewrapNode suite env currentKek newKek nodeId wrapped = .ok found ↔
    ∃ fileId key, suite.parseUuid nodeId = some fileId ∧ openKey suite currentKek fileId wrapped = some key ∧
      env.faults.updates (.node nodeId) ∧
      found = some (wrapFileKey suite.toPrimitives key fileId newKek (env.nonce (.node nodeId))).1 := by
  unfold rewrapNode
  constructor
  · intro rewritten
    split at rewritten
    · cases rewritten
    · rename_i fileId parsed
      split at rewritten
      · cases rewritten
      · rename_i blob cut
        split at rewritten
        · cases rewritten
        · rename_i key unwrapped
          obtain ⟨allowed,same⟩ := update_ok.mp rewritten
          exact ⟨fileId,key,parsed,open_key_some.mpr ⟨blob,cut,unwrapped⟩,allowed,same⟩
  · rintro ⟨fileId,key,parsed,opened,allowed,same⟩
    obtain ⟨blob,cut,unwrapped⟩ := open_key_some.mp opened
    simp only [parsed,cut,unwrapped]
    exact update_ok.mpr ⟨allowed,same⟩

theorem rewrap_epoch_ok {epochBlobId : String} :
    rewrapEpochBlob suite env currentKek newKek epochBlobId wrapped = .ok found ↔
    (∃ fileId key, suite.parseUuid epochBlobId = some fileId ∧ openKey suite currentKek fileId wrapped = some key ∧
      env.faults.updates (.epochBlob epochBlobId) ∧ found =
        some (wrapFileKey suite.toPrimitives key fileId newKek (env.nonce (.epochBlob epochBlobId))).1) ∨
    (∀ fileId, suite.parseUuid epochBlobId = some fileId → openKey suite currentKek fileId wrapped = none) ∧
      found = none := by
  unfold rewrapEpochBlob
  constructor
  · intro rewritten
    split at rewritten
    · rename_i unparsed
      cases rewritten
      exact .inr ⟨(by intro fileId parsed; cases unparsed.symm.trans parsed),rfl⟩
    · rename_i fileId parsed
      have only (other : Uuid) (named : suite.parseUuid epochBlobId = some other) : other = fileId :=
        Option.some.inj (named.symm.trans parsed)
      split at rewritten
      · rename_i cut
        cases rewritten
        exact .inr ⟨fun other _ => open_key_short cut,rfl⟩
      · rename_i blob cut
        split at rewritten
        · rename_i refused
          cases rewritten
          exact .inr ⟨fun other named => only other named ▸ open_key_refused cut refused,rfl⟩
        · rename_i key unwrapped
          obtain ⟨allowed,same⟩ := update_ok.mp rewritten
          exact .inl ⟨fileId,key,parsed,open_key_some.mpr ⟨blob,cut,unwrapped⟩,allowed,same⟩
  · intro cases_of
    rcases cases_of with ⟨fileId,key,parsed,opened,allowed,same⟩ | ⟨unreadable,same⟩
    · obtain ⟨blob,cut,unwrapped⟩ := open_key_some.mp opened
      simp only [parsed,cut,unwrapped]
      exact update_ok.mpr ⟨allowed,same⟩
    · subst same
      split
      · rfl
      · rename_i fileId parsed
        split
        · rfl
        · rename_i blob cut
          split
          · rfl
          · rename_i key unwrapped
            have opened := unreadable fileId parsed
            rw [open_key_some.mpr ⟨blob,cut,unwrapped⟩] at opened
            cases opened

theorem rewrap_identity_ok {stored : Option Bytes} :
    rewrapIdentity suite env currentKek newKek vaultId stored = .ok found ↔
    (stored = none ∧ found = none) ∨ ∃ wrapped key, stored = some wrapped ∧
      openKey suite currentKek vaultId wrapped = some key ∧ env.faults.updates .identity ∧
      found = some (wrapFileKey suite.toPrimitives key vaultId newKek (env.nonce .identity)).1 := by
  cases stored with
  | none =>
    constructor
    · intro rewritten
      cases rewritten
      exact .inl ⟨rfl,rfl⟩
    · intro cases_of
      rcases cases_of with ⟨_,rfl⟩ | ⟨_,_,impossible,_⟩
      · rfl
      · cases impossible
  | some wrapped =>
    constructor
    · intro rewritten
      simp only [rewrapIdentity] at rewritten
      split at rewritten
      · cases rewritten
      · rename_i blob cut
        split at rewritten
        · cases rewritten
        · rename_i key unwrapped
          obtain ⟨allowed,same⟩ := update_ok.mp rewritten
          exact .inr ⟨wrapped,key,rfl,open_key_some.mpr ⟨blob,cut,unwrapped⟩,allowed,same⟩
    · intro cases_of
      rcases cases_of with ⟨impossible,_⟩ | ⟨_,key,same,opened,allowed,returned⟩
      · cases impossible
      · cases same
        obtain ⟨blob,cut,unwrapped⟩ := open_key_some.mp opened
        simp only [rewrapIdentity,cut,unwrapped]
        exact update_ok.mpr ⟨allowed,returned⟩

theorem stored_node : storedKey suite kek vaultId tables (.node nodeId) = some key ↔
    ∃ fileId wrapped, suite.parseUuid nodeId = some fileId ∧ tables.nodes.lookup nodeId = some wrapped ∧
      openKey suite kek fileId wrapped = some key := by
  simp [storedKey,KeyTables.slot?,Option.bind_eq_some_iff]

theorem stored_epoch : storedKey suite kek vaultId tables (.epochBlob epochBlobId) = some key ↔
    ∃ fileId wrapped, suite.parseUuid epochBlobId = some fileId ∧ tables.epochBlobs.lookup epochBlobId = some wrapped ∧
      openKey suite kek fileId wrapped = some key := by
  simp [storedKey,KeyTables.slot?,Option.bind_eq_some_iff]

theorem stored_identity : storedKey suite kek vaultId tables .identity = some key ↔
    ∃ wrapped, tables.vaultIdentity = some wrapped ∧ openKey suite kek vaultId wrapped = some key := by
  simp [storedKey,KeyTables.slot?,Option.bind_eq_some_iff]

theorem rewrap_tables_ok : rewrapTables suite env currentKek newKek vaultId tables = .ok rewrapped ↔
    ∃ nodes epochBlobs vaultIdentity, env.faults.nodesRead ∧
      rewriteAll (rewrapNode suite env currentKek newKek) tables.nodes = .ok nodes ∧
      env.faults.epochBlobsRead ∧
      rewriteAll (rewrapEpochBlob suite env currentKek newKek) tables.epochBlobs = .ok epochBlobs ∧
      env.faults.identityRead ∧
      rewrapIdentity suite env currentKek newKek vaultId tables.vaultIdentity = .ok vaultIdentity ∧
      rewrapped = {tables with nodes := nodes,epochBlobs := epochBlobs,vaultIdentity := vaultIdentity} := by
  simp only [rewrapTables,bind_ok,ensure_ok,pure_ok]
  constructor
  · rintro ⟨_,nodesRead,nodes,one,_,epochsRead,epochBlobs,two,_,identityRead,vaultIdentity,three,same⟩
    exact ⟨nodes,epochBlobs,vaultIdentity,nodesRead,one,epochsRead,two,identityRead,three,same.symm⟩
  · rintro ⟨nodes,epochBlobs,vaultIdentity,nodesRead,one,epochsRead,two,identityRead,three,same⟩
    exact ⟨(),nodesRead,nodes,one,(),epochsRead,epochBlobs,two,(),identityRead,vaultIdentity,three,same.symm⟩

theorem rewrap_moves (done : rewrapTables suite env currentKek newKek vaultId tables = .ok rewrapped)
    (own : ¬ slot.shared) (opened : storedKey suite currentKek vaultId tables slot = some key) :
    storedKey suite newKek vaultId rewrapped slot = some key := by
  obtain ⟨nodes,epochBlobs,vaultIdentity,_,one,_,two,_,three,rfl⟩ := rewrap_tables_ok.mp done
  cases slot with
  | node nodeId =>
    obtain ⟨fileId,wrapped,parsed,there,opens⟩ := stored_node.mp opened
    obtain ⟨found,rewritten,now⟩ := rewrite_lookup one there
    obtain ⟨fileId',key',parsed',opens',_,rfl⟩ := rewrap_node_ok.mp rewritten
    cases parsed.symm.trans parsed'
    cases opens.symm.trans opens'
    exact stored_node.mpr ⟨fileId,_,parsed,now,open_key_wrap _ _ _ _⟩
  | epochBlob epochBlobId =>
    obtain ⟨fileId,wrapped,parsed,there,opens⟩ := stored_epoch.mp opened
    obtain ⟨found,rewritten,now⟩ := rewrite_lookup two there
    rcases rewrap_epoch_ok.mp rewritten with ⟨fileId',key',parsed',opens',_,rfl⟩ | ⟨unreadable,_⟩
    · cases parsed.symm.trans parsed'
      cases opens.symm.trans opens'
      exact stored_epoch.mpr ⟨fileId,_,parsed,now,open_key_wrap _ _ _ _⟩
    · rw [unreadable fileId parsed] at opens
      cases opens
  | identity =>
    obtain ⟨wrapped,there,opens⟩ := stored_identity.mp opened
    rcases rewrap_identity_ok.mp three with ⟨absent,_⟩ | ⟨wrapped',key',there',opens',_,rfl⟩
    · rw [absent] at there
      cases there
    · cases there.symm.trans there'
      cases opens.symm.trans opens'
      exact stored_identity.mpr ⟨_,rfl,open_key_wrap _ _ _ _⟩
  | fileShare => exact absurd trivial own
  | receivedShare => exact absurd trivial own

theorem rewrap_leaves (done : rewrapTables suite env currentKek newKek vaultId tables = .ok rewrapped)
    (shared : slot.shared) (kek : KeyEncryptionKey) :
    storedKey suite kek vaultId rewrapped slot = storedKey suite kek vaultId tables slot := by
  obtain ⟨_,_,_,_,_,_,_,_,_,rfl⟩ := rewrap_tables_ok.mp done
  cases slot with
  | fileShare => rfl
  | receivedShare => rfl
  | node => cases shared
  | epochBlob => cases shared
  | identity => cases shared

theorem rewrap_total {conn : Connection} (newKek : KeyEncryptionKey) (commits : Commits suite env currentKek conn vaultId) :
    ∃ rewrapped, rewrapTables suite env currentKek newKek vaultId conn.file.tables = .ok rewrapped := by
  obtain ⟨nodes,one⟩ : ∃ nodes, rewriteAll (rewrapNode suite env currentKek newKek) conn.file.tables.nodes =
      .ok nodes := rewrite_total.mpr <| by
    intro nodeId wrapped there
    obtain ⟨readable,allowed⟩ := commits.nodes nodeId (AList.lookup_isSome.mp (there ▸ rfl))
    obtain ⟨key,opened⟩ := Option.isSome_iff_exists.mp readable
    obtain ⟨fileId,wrapped',parsed,there',opens⟩ := stored_node.mp opened
    cases there.symm.trans there'
    exact ⟨_,rewrap_node_ok.mpr ⟨fileId,key,parsed,opens,allowed,rfl⟩⟩
  obtain ⟨epochBlobs,two⟩ : ∃ epochBlobs, rewriteAll (rewrapEpochBlob suite env currentKek newKek)
      conn.file.tables.epochBlobs = .ok epochBlobs := rewrite_total.mpr <| by
    intro epochBlobId wrapped there
    by_cases readable : (storedKey suite currentKek vaultId conn.file.tables (.epochBlob epochBlobId)).isSome
    · obtain ⟨key,opened⟩ := Option.isSome_iff_exists.mp readable
      obtain ⟨fileId,wrapped',parsed,there',opens⟩ := stored_epoch.mp opened
      cases there.symm.trans there'
      exact ⟨_,rewrap_epoch_ok.mpr (.inl ⟨fileId,key,parsed,opens,commits.epochBlobs _ readable,rfl⟩)⟩
    · refine ⟨none,rewrap_epoch_ok.mpr (.inr ⟨fun fileId parsed => ?_,rfl⟩)⟩
      rw [Option.not_isSome_iff_eq_none] at readable
      cases opens : openKey suite currentKek fileId wrapped with
      | none => rfl
      | some key =>
        rw [stored_epoch.mpr ⟨fileId,wrapped,parsed,there,opens⟩] at readable
        cases readable
  obtain ⟨vaultIdentity,three⟩ : ∃ found, rewrapIdentity suite env currentKek newKek vaultId
      conn.file.tables.vaultIdentity = .ok found := by
    cases there : conn.file.tables.vaultIdentity with
    | none => exact ⟨none,rfl⟩
    | some wrapped =>
      obtain ⟨readable,allowed⟩ := commits.identity (there ▸ rfl)
      obtain ⟨key,opened⟩ := Option.isSome_iff_exists.mp readable
      obtain ⟨wrapped',there',opens⟩ := stored_identity.mp opened
      cases there.symm.trans there'
      exact ⟨_,rewrap_identity_ok.mpr (.inr ⟨wrapped,key,rfl,opens,allowed,rfl⟩)⟩
  obtain ⟨nodesRead,epochsRead,identityRead⟩ := commits.reads
  exact ⟨_,rewrap_tables_ok.mpr ⟨nodes,epochBlobs,vaultIdentity,nodesRead,one,epochsRead,two,identityRead,three,rfl⟩⟩

theorem rewrap_readable {conn : Connection}
    (done : rewrapTables suite env currentKek newKek vaultId conn.file.tables = .ok rewrapped)
    (opened : conn.key = conn.file.key) (begins : env.faults.begins) (committed : env.faults.commits) :
    Commits suite env currentKek conn vaultId := by
  obtain ⟨nodes,epochBlobs,vaultIdentity,nodesRead,one,epochsRead,two,identityRead,three,_⟩ :=
    rewrap_tables_ok.mp done
  refine ⟨opened,begins,⟨nodesRead,epochsRead,identityRead⟩,?_,?_,?_,committed⟩
  · intro nodeId member
    obtain ⟨wrapped,there⟩ := Option.isSome_iff_exists.mp (AList.lookup_isSome.mpr member)
    obtain ⟨_,rewritten,_⟩ := rewrite_lookup one there
    obtain ⟨fileId,key,parsed,opens,allowed,_⟩ := rewrap_node_ok.mp rewritten
    rw [stored_node.mpr ⟨fileId,wrapped,parsed,there,opens⟩]
    exact ⟨rfl,allowed⟩
  · intro epochBlobId readable
    obtain ⟨key,stored⟩ := Option.isSome_iff_exists.mp readable
    obtain ⟨fileId,wrapped,parsed,there,opens⟩ := stored_epoch.mp stored
    obtain ⟨_,rewritten,_⟩ := rewrite_lookup two there
    rcases rewrap_epoch_ok.mp rewritten with ⟨_,_,_,_,allowed,_⟩ | ⟨unreadable,_⟩
    · exact allowed
    · rw [unreadable fileId parsed] at opens
      cases opens
  · intro there
    rcases rewrap_identity_ok.mp three with ⟨absent,_⟩ | ⟨wrapped,key,there,opens,allowed,_⟩
    · rw [absent] at there
      cases there
    · rw [stored_identity.mpr ⟨wrapped,there,opens⟩]
      exact ⟨rfl,allowed⟩

def committed (conn : Connection) (newSqlcipher : SqlcipherKey) (tables : KeyTables) :
    RekeyFate → Except AuthenticationError Unit × Database
  | .rewrites => (.ok (),⟨newSqlcipher,tables⟩)
  | .refuses => (.error .vaultHeaderInvalid,⟨conn.file.key,tables⟩)
  | .undone => (.ok (),⟨conn.file.key,tables⟩)

theorem rekey_cases (newKek : KeyEncryptionKey) (conn : Connection) (newSqlcipher : SqlcipherKey) (vaultId : Uuid) :
    (¬ Commits suite env currentKek conn vaultId ∧
      ∃ e, rekeyVaultDb suite env currentKek newKek conn newSqlcipher vaultId = (.error e,conn.file)) ∨
    (Commits suite env currentKek conn vaultId ∧
      ∃ tables, rewrapTables suite env currentKek newKek vaultId conn.file.tables = .ok tables ∧
        rekeyVaultDb suite env currentKek newKek conn newSqlcipher vaultId =
          committed conn newSqlcipher tables env.faults.rekeys) := by
  by_cases commits : Commits suite env currentKek conn vaultId
  · obtain ⟨tables,done⟩ := rewrap_total newKek commits
    refine .inr ⟨commits,tables,done,?_⟩
    rw [rekeyVaultDb,if_pos ⟨commits.opened,commits.begins⟩,done]
    dsimp only
    rw [if_pos commits.commits]
    cases env.faults.rekeys <;> rfl
  · refine .inl ⟨commits,?_⟩
    rw [rekeyVaultDb]
    split
    · rename_i opened
      split
      · exact ⟨_,rfl⟩
      · rename_i tables done
        split
        · rename_i committed
          exact absurd (rewrap_readable done opened.1 opened.2 committed) commits
        · exact ⟨_,rfl⟩
    · exact ⟨_,rfl⟩

-- No wrapped key opens to the same file key under both KEKs: a key other than the
-- one a blob was sealed with fails.
def Apart (suite : Suite) (currentKek newKek : KeyEncryptionKey) : Prop :=
  ∀ fileId wrapped key, openKey suite currentKek fileId wrapped = some key →
    openKey suite newKek fileId wrapped ≠ some key

theorem stored_apart (apart : Apart suite currentKek newKek)
    (one : storedKey suite currentKek vaultId tables slot = some key) :
    storedKey suite newKek vaultId tables slot ≠ some key := by
  rw [storedKey,Option.bind_eq_bind,Option.bind_eq_some_iff] at one
  obtain ⟨⟨fileId,wrapped⟩,there,opens⟩ := one
  rw [storedKey,there]
  exact apart fileId wrapped key opens

-- A rekey that commits and reports success is whole iff the database is under the
-- new key and no share holds a key under the KEK, and one that reports a failure iff
-- there was nothing to rewrap.
theorem rekey_complete_and_atomic_iff (suite : Suite) (env : RekeyEnv) (currentKek newKek : KeyEncryptionKey)
    (conn : Connection) (newSqlcipher : SqlcipherKey) (vaultId : Uuid) (apart : Apart suite currentKek newKek) :
    CompleteAndAtomic suite env currentKek newKek conn newSqlcipher vaultId ↔
      (Commits suite env currentKek conn vaultId →
        (env.faults.rekeys = .undone → conn.file.key = newSqlcipher) ∧ ∀ slot,
          (slot.shared ↔ env.faults.rekeys ≠ .refuses) →
            storedKey suite currentKek vaultId conn.file.tables slot = none) := by
  rcases rekey_cases newKek conn newSqlcipher vaultId with
    ⟨refused,e,ended⟩ | ⟨commits,tables,done,ended⟩
  · rw [CompleteAndAtomic,ended]
    exact ⟨fun _ commits => absurd commits refused,fun _ => ⟨rfl,fun _ _ opened => opened⟩⟩
  · have moved : Kept suite vaultId currentKek newKek conn.file.tables tables ↔
        ∀ slot, slot.shared → storedKey suite currentKek vaultId conn.file.tables slot = none := by
      constructor
      · intro kept slot shared
        cases opened : storedKey suite currentKek vaultId conn.file.tables slot with
        | none => rfl
        | some key =>
          have now := kept slot key opened
          rw [rewrap_leaves done shared] at now
          exact absurd now (stored_apart apart opened)
      · intro unshared slot key opened
        by_cases shared : slot.shared
        · rw [unshared slot shared] at opened
          cases opened
        · exact rewrap_moves done shared opened
    have stayed : Kept suite vaultId currentKek currentKek conn.file.tables tables ↔
        ∀ slot, ¬ slot.shared → storedKey suite currentKek vaultId conn.file.tables slot = none := by
      constructor
      · intro kept slot own
        cases opened : storedKey suite currentKek vaultId conn.file.tables slot with
        | none => rfl
        | some key => exact absurd (rewrap_moves done own opened) (stored_apart apart (kept slot key opened))
      · intro empty slot key opened
        by_cases shared : slot.shared
        · rw [rewrap_leaves done shared]
          exact opened
        · rw [empty slot shared] at opened
          cases opened
    rw [CompleteAndAtomic,ended]
    cases env.faults.rekeys <;> simp [committed,moved,stayed,commits]

theorem plain_open_key (opened : openKey plainSuite kek fileId wrapped = some key) :
    ∃ nonce text, ∃ tag : Block 16, split 24 16 wrapped = some (nonce,text,tag) ∧
      tag.1 = (kek.1 ++ List.replicate 16 0).take 16 := by
  obtain ⟨blob,cut,unwrapped⟩ := open_key_some.mp opened
  rw [← block_exact cut]
  cases parts : split 24 16 blob.1 with
  | none => simp only [unwrapFileKey,openWire,parts] at unwrapped; cases unwrapped
  | some found =>
    obtain ⟨nonce,text,tag⟩ := found
    refine ⟨nonce,text,tag,rfl,?_⟩
    by_contra differ
    have refused : openWire plainSuite.cipher kek (uuidBytes fileId) blob.1 = none := by
      rw [openWire,parts]
      exact if_neg differ
    simp only [unwrapFileKey,refused] at unwrapped
    cases unwrapped

theorem plain_apart (differ : (currentKek.1 ++ List.replicate 16 0).take 16 ≠
    (newKek.1 ++ List.replicate 16 0).take 16) : Apart plainSuite currentKek newKek := by
  intro fileId wrapped key one two
  obtain ⟨_,_,tag,cut,first⟩ := plain_open_key one
  obtain ⟨_,_,tag',cut',second⟩ := plain_open_key two
  cases cut.symm.trans cut'
  exact differ (first.symm.trans second)

def steadyFaults : RekeyFaults := ⟨true,true,true,true,fun _ => true,true,.rewrites⟩

def steadyEnv : RekeyEnv := ⟨fun _ => byteKey 0,steadyFaults⟩

def noKeys : KeyTables := ⟨∅,∅,none,∅,∅⟩

def wrappedSeven : Bytes := (wrapFileKey plainPrimitives (byteKey 7) 4 (byteKey 1) (byteKey 0)).1

def importedShare : KeyTables :=
  let share : ShareKey := ⟨"file",wrappedSeven⟩
  {noKeys with receivedShares := AList.singleton "share" share}

def ownFile : KeyTables := {noKeys with nodes := AList.singleton "file" wrappedSeven}

def opened (tables : KeyTables) : Connection := ⟨⟨byteKey 3,tables⟩,byteKey 3⟩

def lateFailure (fate : RekeyFate) : RekeyEnv := {steadyEnv with faults := {steadyFaults with rekeys := fate}}

theorem own_file_rekeyed :
    CompleteAndAtomic plainSuite steadyEnv (byteKey 1) (byteKey 2) (opened ownFile) (byteKey 4) 9 := by
  refine (rekey_complete_and_atomic_iff plainSuite steadyEnv (byteKey 1) (byteKey 2) (opened ownFile) (byteKey 4) 9
    (plain_apart (by decide))).mpr fun _ => ⟨by rintro ⟨⟩,fun slot shared => ?_⟩
  cases slot with
  | fileShare id => rfl
  | receivedShare id => rfl
  | node id => exact absurd (shared.mpr (by decide)) not_false
  | epochBlob id => exact absurd (shared.mpr (by decide)) not_false
  | identity => exact absurd (shared.mpr (by decide)) not_false

-- The imported key stays under the old KEK when the rekey succeeds, the key of the
-- file is under the new one when its last call fails, and success is reported for a
-- database still under the old key when the pages could not be rewritten.
theorem rekey_strands_keys :
    ¬ CompleteAndAtomic plainSuite steadyEnv (byteKey 1) (byteKey 2) (opened importedShare) (byteKey 4) 9 ∧
    ¬ CompleteAndAtomic plainSuite (lateFailure .refuses) (byteKey 1) (byteKey 2) (opened ownFile) (byteKey 4) 9 ∧
    ¬ CompleteAndAtomic plainSuite (lateFailure .undone) (byteKey 1) (byteKey 2) (opened ownFile) (byteKey 4) 9 := by
  refine ⟨?_,?_,?_⟩
  · rintro ⟨_,kept⟩
    have now := kept (.receivedShare "share") (byteKey 7) (by decide +kernel)
    revert now
    decide +kernel
  · rintro ⟨_,kept⟩
    have now := kept (.node "file") (byteKey 7) (by decide +kernel)
    revert now
    decide +kernel
  · rintro ⟨key,_⟩
    revert key
    decide +kernel

end ArxRuna.Credentials.Rekey
