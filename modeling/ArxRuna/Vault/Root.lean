import ArxRuna.Library.Pool
import ArxRuna.Sharing.RemotePath
import ArxRuna.Store.Forest
namespace ArxRuna.Vault.Root
open Library.Aead Library.Closure Library.Fallible Library.Pool Library.Run Library.Texts Relation Crypto
open Store.Tables Store.Operations Store.Effects Store.Integrity Store.Forest
open Sharing.RemotePath (Text isControl)

inductive FileCommandError where
  | invalidInput (text : String)
  | storage (error : StorageError)
  deriving DecidableEq, Repr

-- `Uuid::parse_str`, and the classes of letters and digits of the path pattern.
structure PathEnv where
  parseStr : Text → Option Uuid
  letterOrDigit : Char → Bool

def PathEnv.allowed (env : PathEnv) (c : Char) : Bool := env.letterOrDigit c || c ∈ [' ','.','_','/','-']

def normaliseVaultPath (path : Text) : Text := trimStart '/' path

def validateVaultPath (env : PathEnv) (path : Text) : Except FileCommandError Unit := do
  ensure ('\\' ∉ path) (.invalidInput "Path must not contain backslashes")
  ensure (path.head? ≠ some '/') (.invalidInput "Path must be relative; absolute paths are not allowed")
  ensure ((path.splitOn '/').all (· ≠ ['.','.'])) (.invalidInput "Path must not contain traversal sequences")
  ensure (path.any isControl = false) (.invalidInput "Path must not contain control characters")
  ensure (path.all env.allowed) (.invalidInput "Path contains characters outside the allowed set")

def parentComponent (path : Text) : Text :=
  match splitOnce '/' path.reverse with
  | none => []
  | some (_,before) => before.reverse

def lastComponent (path : Text) : Text :=
  match splitOnce '/' path.reverse with
  | none => path
  | some (after,_) => after.reverse

-- What a command adds: a directory, or a file by one of the two routes.
inductive Insertion where
  | directory
  | immediate (sizeBytes : Nat) (fileKeyWrapped : WrappedFileKey) (chunks : List ChunkRecord)
  | epochBuffer (plaintext : Bytes) (fileKeyWrapped : WrappedFileKey) (entryId : Uuid) (queuedAt : Int)

structure Request where
  vaultPath : Text
  sourceName : Option Text
  nodeId : Uuid
  now : Int
  insertion : Insertion

-- A request whose path and name are accepted.
structure Placement where
  vaultPath : Text
  name : Text
  nodeId : Uuid
  now : Int
  insertion : Insertion

def Insertion.call (nodeId parentId : Uuid) (name : Text) (now : Int) : Insertion → Call
  | .directory => .insertNode ⟨nodeId,some parentId,.directory,String.ofList name,now,now,0,none⟩
  | .immediate sizeBytes wrapped chunks =>
    .insertFileWithChunks ⟨nodeId,some parentId,.file,String.ofList name,now,now,sizeBytes,some wrapped⟩ chunks
  | .epochBuffer plaintext wrapped entryId queuedAt =>
    .insertFileNodeAndStageEpochEntry
      ⟨nodeId,some parentId,.file,String.ofList name,now,now,plaintext.length,some wrapped⟩ plaintext entryId queuedAt

-- The checks of `create_vault_directory` and of `upload_file` before they read.
def prepare (env : PathEnv) (request : Request) : Except FileCommandError Placement := do
  let path := normaliseVaultPath request.vaultPath
  match request.insertion with
  | .directory => do
    ensure (path ≠ []) (.invalidInput "Vault path is required to create a directory")
    validateVaultPath env path
    ensure (lastComponent path ≠ []) (.invalidInput "Vault path has no valid directory name")
    pure ⟨path,lastComponent path,request.nodeId,request.now,request.insertion⟩
  | _ => do
    ensure (path ≠ []) (.invalidInput "Vault path is required for upload")
    validateVaultPath env path
    let name ← given request.sourceName (.invalidInput "Source path has no valid file name")
    pure ⟨path,name,request.nodeId,request.now,request.insertion⟩

-- Where a command stands: before it reads `root_id`, between that read and the
-- insertion of a root, between this and the write of `root_id`, before its own
-- insertion.
inductive Stage where
  | resolving (placement : Placement)
  | creating (placement : Placement) (rootId : Uuid) (now : Int)
  | naming (placement : Placement) (rootId : Uuid)
  | placing (placement : Placement) (parentId : Uuid)
  | ended (result : Except FileCommandError Uuid)

def Stage.names : Stage → Option Uuid
  | .naming _ rootId => some rootId
  | _ => none

def rootNode (rootId : Uuid) (now : Int) : Node := ⟨rootId,none,.directory,"root",now,now,0,none⟩

def setRootId (rootId : Uuid) (m : Manifest) : Except StorageError Manifest :=
  .ok {m with manifestMeta := {m.manifestMeta with rootId := some rootId}}

def written (outcome : Manifest × Except StorageError Unit) (next : Stage) : Manifest × Stage :=
  match outcome.2 with
  | .ok _ => (outcome.1,next)
  | .error failure => (outcome.1,.ended (.error (.storage failure)))

structure Draw where
  rootId : Uuid
  now : Int

def turn (env : PathEnv) (m : Manifest) (draw : Draw) (fate : Except StorageError Unit) :
    Stage → Option (Manifest × Stage)
  | .resolving placement =>
    match parentComponent placement.vaultPath with
    | [] => match fate with
      | .error failure => some (m,.ended (.error (.storage failure)))
      | .ok _ => match m.manifestMeta.rootId with
        | some rootId => some (m,.placing placement rootId)
        | none => some (m,.creating placement draw.rootId draw.now)
    | parent => match env.parseStr parent with
      | some parentId => some (m,.placing placement parentId)
      | none => some (m,.ended (.error (.invalidInput "Parent directory path must be a UUID")))
  | .creating placement rootId now =>
    some (written (inTransaction fate (insertNodeTx · (rootNode rootId now)) m) (.naming placement rootId))
  | .naming placement rootId =>
    some (written (inTransaction fate (setRootId rootId) m) (.placing placement rootId))
  | .placing placement parentId =>
    some (written (inTransaction fate
      (placement.insertion.call placement.nodeId parentId placement.name placement.now).statements m)
      (.ended (.ok placement.nodeId)))
  | .ended _ => none

structure World where
  manifest : Manifest
  commands : List Stage

inductive Action where
  | begins (request : Request)
  | turns (t : Nat) (draw : Draw) (fate : Except StorageError Unit)
  | stops

def started (env : PathEnv) (request : Request) : Stage :=
  match prepare env request with
  | .error refusal => .ended (.error refusal)
  | .ok placement => .resolving placement

-- Commands take turns in any order; a stop of the process ends them all.
def step (env : PathEnv) (s : World) : Action → Option World
  | .begins request => some {s with commands := s.commands ++ [started env request]}
  | .turns t draw fate =>
    (s.commands[t]?).bind fun stage => (turn env s.manifest draw fate stage).map fun result =>
      ⟨result.1,s.commands.set t result.2⟩
  | .stops => some {s with commands := []}

def Parentless (m : Manifest) (id : Uuid) : Prop :=
  ∃ node ∈ m.nodes, node.nodeId = id ∧ node.parentId = none ∧ node.nodeType = .directory

-- At most one directory has no parent, it is the one `root_id` names, and the
-- recursive query from it finds every node.
structure Rooted (m : Manifest) : Prop where
  one : ∀ a b, Parentless m a → Parentless m b → a = b
  named : ∀ id, Parentless m id ↔ m.manifestMeta.rootId = some id
  reached : ∀ node ∈ m.nodes, ∃ root, Parentless m root ∧ node.nodeId ∈ subtree m root

-- While a command is between its two writes the directory it made has no name yet.
structure RootLaw (s : World) : Prop where
  one : ∀ a b, Parentless s.manifest a → Parentless s.manifest b → a = b
  named : ∀ id, Parentless s.manifest id → s.manifest.manifestMeta.rootId = some id ∨
    ∃ stage ∈ s.commands, stage.names = some id
  root : ∀ id, s.manifest.manifestMeta.rootId = some id → Parentless s.manifest id
  reached : ∀ node ∈ s.manifest.nodes, ∃ root, Parentless s.manifest root ∧ node.nodeId ∈ subtree s.manifest root

-- No root is inserted where there is one already, and the command that inserted it
-- gets to name it.
def Orderly (s : World) : Action → Prop
  | .begins _ => True
  | .turns t _ fate => ∀ stage, s.commands[t]? = some stage → match stage with
    | .creating _ rootId _ => fate = .ok () → s.manifest.node? rootId = none → ∀ id, ¬ Parentless s.manifest id
    | .naming _ _ => fate = .ok ()
    | _ => True
  | .stops => ∀ stage ∈ s.commands, stage.names = none

structure Invariant (s : World) : Prop where
  law : RootLaw s
  pending : ∀ stage ∈ s.commands, ∀ id, stage.names = some id →
    Parentless s.manifest id ∧ s.manifest.manifestMeta.rootId = none
  alone : s.commands.countP (·.names.isSome) ≤ 1

variable {env : PathEnv} {m n : Manifest} {id root rootId parentId : Uuid} {now : Int} {node : Node} {s : World} {stage next : Stage} {draw : Draw} {fate : Except StorageError Unit}

theorem subtree_mono (more : ∀ node ∈ m.nodes, node ∈ n.nodes) (found : x ∈ subtree m root) : x ∈ subtree n root := by
  rw [mem_subtree] at found ⊢
  obtain ⟨there,path⟩ := found
  obtain ⟨node,member,named⟩ := node?_isSome.mp there
  refine ⟨node?_isSome.mpr ⟨node,more node member,named⟩,ReflTransGen.mono (fun a b edge => ?_) _ _ path⟩
  obtain ⟨child,inside,above,below⟩ := linked_iff.mp edge
  exact linked_iff.mpr ⟨child,more child inside,above,below⟩

theorem subtree_self (member : node ∈ m.nodes) : node.nodeId ∈ subtree m node.nodeId :=
  mem_subtree.mpr ⟨node?_isSome.mpr ⟨node,member,rfl⟩,.refl⟩

theorem subtree_child (found : p ∈ subtree m root) (member : node ∈ m.nodes) (above : node.parentId = some p) :
    node.nodeId ∈ subtree m root := by
  obtain ⟨there,path⟩ := mem_subtree.mp found
  exact mem_subtree.mpr ⟨there,path.tail (linked_iff.mpr ⟨node,member,above,rfl⟩)⟩

theorem transaction_cases {statements : Manifest → Except StorageError Manifest} {after : Stage}
    (ran : written (inTransaction fate statements m) after = (n,next)) :
    (statements m = .ok n ∧ fate = .ok () ∧ next = after) ∨
      (n = m ∧ (∃ failure, next = .ended (.error (.storage failure))) ∧
        ∀ accepted, statements m = .ok accepted → fate ≠ .ok ()) := by
  unfold written inTransaction at ran
  cases performed : statements m with
  | error failure =>
    rw [performed] at ran
    cases ran
    exact .inr ⟨rfl,⟨failure,rfl⟩,fun accepted other => by cases other⟩
  | ok accepted =>
    rw [performed] at ran
    cases fate with
    | error failure =>
      cases ran
      exact .inr ⟨rfl,⟨failure,rfl⟩,fun _ _ same => by cases same⟩
    | ok value =>
      cases ran
      exact .inl ⟨rfl,rfl,rfl⟩

-- What an insertion below a parent does to the nodes.
structure ChildAdded (m n : Manifest) : Prop where
  added : ∃ node p, n.nodes = m.nodes ++ [node] ∧ node.parentId = some p ∧ ∃ dir ∈ m.nodes, dir.nodeId = p
  named : n.manifestMeta.rootId = m.manifestMeta.rootId

theorem insertion_adds {insertion : Insertion} (accepted : (insertion.call nodeId parentId name now).statements m = .ok n) :
    ChildAdded m n := by
  have below {node : Node} (effect : NodeInserted m node {m with nodes := m.nodes ++ [node]})
      (above : node.parentId = some parentId) :
      node.parentId = some parentId ∧ ∃ dir ∈ m.nodes, dir.nodeId = parentId := by
    obtain ⟨_,dir,member,named,_⟩ := effect.parent parentId above
    exact ⟨above,dir,member,named⟩
  cases insertion with
  | directory =>
    have effect := insert_node_tx accepted
    cases effect.result
    exact ⟨⟨_,_,rfl,below effect rfl⟩,rfl⟩
  | immediate sizeBytes wrapped chunks =>
    have effect := insert_file_with_chunks accepted
    cases effect.result
    exact ⟨⟨_,_,rfl,below effect.inserted rfl⟩,rfl⟩
  | epochBuffer plaintext wrapped entryId queuedAt =>
    have effect := insert_file_node_and_stage accepted
    cases effect.result
    exact ⟨⟨_,_,rfl,below effect.inserted rfl⟩,rfl⟩

-- Everything one turn can do.
inductive Turned (m : Manifest) (fate : Except StorageError Unit) : Stage → Manifest → Stage → Prop where
  | reads {stage next : Stage} (quiet : stage.names = none) (quiet' : next.names = none)
      (failed : ∀ placement rootId now, stage = .creating placement rootId now →
        fate = .ok () → m.node? rootId ≠ none) : Turned m fate stage m next
  | creates {n : Manifest} (placement : Placement) (rootId : Uuid) (now : Int) (effect : NodeInserted m (rootNode rootId now) n)
      (went : fate = .ok ()) : Turned m fate (.creating placement rootId now) n (.naming placement rootId)
  | named (placement : Placement) (rootId : Uuid) (went : fate = .ok ()) :
      Turned m fate (.naming placement rootId) {m with manifestMeta := {m.manifestMeta with rootId := some rootId}}
        (.placing placement rootId)
  | unnamed (placement : Placement) (rootId : Uuid) (failure : StorageError) (lost : fate ≠ .ok ()) :
      Turned m fate (.naming placement rootId) m (.ended (.error (.storage failure)))
  | places {n : Manifest} (placement : Placement) (parentId : Uuid) (effect : ChildAdded m n) (result : Except FileCommandError Uuid) :
      Turned m fate (.placing placement parentId) n (.ended result)

theorem root_accepted (now : Int) (fresh : m.node? rootId = none) : ∃ n, insertNodeTx m (rootNode rootId now) = .ok n := by
  refine ⟨{m with nodes := m.nodes ++ [rootNode rootId now]},?_⟩
  simp only [insertNodeTx,bind_ok,toI64,ensure_ok]
  exact ⟨(),rfl,(),by simp [rootNode],(),by simp [rootNode],(),fresh,rfl⟩

theorem turn_cases (ran : turn env m draw fate stage = some (n,next)) : Turned m fate stage n next := by
  cases stage with
  | resolving placement =>
    have quiet : n = m ∧ next.names = none := by
      simp only [turn] at ran
      split at ran
      · split at ran
        · cases ran
          exact ⟨rfl,rfl⟩
        · split at ran
          · cases ran
            exact ⟨rfl,rfl⟩
          · cases ran
            exact ⟨rfl,rfl⟩
      · split at ran
        · cases ran
          exact ⟨rfl,rfl⟩
        · cases ran
          exact ⟨rfl,rfl⟩
    obtain ⟨rfl,quiet⟩ := quiet
    exact .reads rfl quiet fun _ _ _ same => by cases same
  | creating placement rootId now =>
    rcases transaction_cases (Option.some.inj ran) with ⟨accepted,went,rfl⟩ | ⟨rfl,⟨failure,rfl⟩,refused⟩
    · exact .creates placement rootId now (insert_node_tx accepted) went
    · refine .reads rfl rfl fun _ _ _ same went fresh => ?_
      cases same
      obtain ⟨written,accepted⟩ := root_accepted now fresh
      exact refused written accepted went
  | naming placement rootId =>
    rcases transaction_cases (Option.some.inj ran) with ⟨accepted,went,rfl⟩ | ⟨rfl,⟨failure,rfl⟩,refused⟩
    · cases accepted
      exact .named placement rootId went
    · exact .unnamed placement rootId failure (refused _ rfl)
  | placing placement parentId =>
    rcases transaction_cases (Option.some.inj ran) with ⟨accepted,_,rfl⟩ | ⟨rfl,⟨failure,rfl⟩,_⟩
    · exact .places placement parentId (insertion_adds accepted) _
    · exact .reads rfl rfl fun _ _ _ same => by cases same
  | ended result => cases ran

theorem parentless_child (added : ChildAdded m n) : Parentless n id ↔ Parentless m id := by
  obtain ⟨node,p,nodes,above,_⟩ := added.added
  unfold Parentless
  rw [nodes]
  constructor
  · intro found
    obtain ⟨other,member,same,top,kind⟩ := found
    rcases List.mem_append.mp member with old | new
    · exact ⟨other,old,same,top,kind⟩
    · rw [List.mem_singleton.mp new,above] at top
      cases top
  · intro found
    obtain ⟨other,member,facts⟩ := found
    exact ⟨other,List.mem_append_left _ member,facts⟩

theorem parentless_root (effect : NodeInserted m (rootNode rootId now) n) :
    Parentless n id ↔ Parentless m id ∨ id = rootId := by
  unfold Parentless
  rw [effect.result]
  constructor
  · intro found
    obtain ⟨other,member,same,top,kind⟩ := found
    rcases List.mem_append.mp member with old | new
    · exact .inl ⟨other,old,same,top,kind⟩
    · rw [List.mem_singleton.mp new] at same
      exact .inr same.symm
  · intro found
    rcases found with ⟨other,member,facts⟩ | rfl
    · exact ⟨other,List.mem_append_left _ member,facts⟩
    · exact ⟨_,List.mem_append_right _ (List.mem_singleton_self _),rfl,rfl,rfl⟩

theorem unnamed_of_count (none : s.commands.countP (·.names.isSome) = 0) : ∀ stage ∈ s.commands, stage.names = .none := by
  intro stage member
  have quiet := List.countP_eq_zero.mp none stage member
  simpa using quiet

theorem reads_keeps (inv : Invariant s) (here : s.commands[t]? = some stage) (quiet : stage.names = none)
    (quiet' : next.names = none) : Invariant ⟨s.manifest,s.commands.set t next⟩ := by
  have count := count_moved (fun stage : Stage => stage.names.isSome) next here
  rw [quiet,quiet'] at count
  refine ⟨⟨inv.law.one,fun id there => ?_,inv.law.root,inv.law.reached⟩,?_,?_⟩
  · refine (inv.law.named id there).imp_right fun naming => ?_
    refine exists_kept here (fun names => ?_) naming
    rw [quiet] at names
    cases names
  · apply forall_moved inv.pending
    intro id names
    rw [quiet'] at names
    cases names
  · have := inv.alone
    dsimp only at count ⊢
    omega

theorem creates_keeps (inv : Invariant s) (here : s.commands[t]? = some (.creating placement rootId now))
    (effect : NodeInserted s.manifest (rootNode rootId now) n) (absent : ∀ id, ¬ Parentless s.manifest id) :
    Invariant ⟨n,s.commands.set t (.naming placement rootId)⟩ := by
  have only {id : Uuid} (there : Parentless n id) : id = rootId :=
    ((parentless_root effect).mp there).resolve_left (absent id)
  have new : Parentless n rootId := (parentless_root effect).mpr (.inr rfl)
  have unset : n.manifestMeta.rootId = none := by
    rw [effect.result]
    cases named : s.manifest.manifestMeta.rootId with
    | none => rfl
    | some id => exact absurd (inv.law.root id named) (absent id)
  have quiet : ∀ stage ∈ s.commands, stage.names = none := by
    intro stage member
    cases names : stage.names with
    | none => rfl
    | some id => exact absurd (inv.pending stage member id names).1 (absent id)
  refine ⟨⟨fun a b first second => (only first).trans (only second).symm,fun id there => ?_,fun id named => ?_,?_⟩,
    ?_,?_⟩
  · exact .inr (exists_new here (by rw [only there]; rfl))
  · rw [unset] at named
    cases named
  · intro node member
    refine ⟨rootId,new,?_⟩
    dsimp only at member
    rw [effect.result] at member
    rcases List.mem_append.mp member with old | last
    · obtain ⟨root,there,_⟩ := inv.law.reached node old
      exact absurd there (absent root)
    · rw [List.mem_singleton.mp last]
      have self : rootNode rootId now ∈ n.nodes := by
        rw [effect.result]
        exact List.mem_append_right _ (List.mem_singleton_self _)
      exact subtree_self self
  · refine forall_moved (fun stage member id names => ?_) fun id names => ?_
    · rw [quiet stage member] at names
      cases names
    · cases names
      exact ⟨new,unset⟩
  · have count := count_moved (fun stage : Stage => stage.names.isSome) (.naming placement rootId) here
    have none : s.commands.countP (fun stage : Stage => stage.names.isSome) = 0 := by
      rw [List.countP_eq_zero]
      intro stage member
      rw [quiet stage member]
      simp
    have before : (Stage.creating placement rootId now).names = .none := rfl
    have after : (Stage.naming placement rootId).names = some rootId := rfl
    rw [none,before,after,Option.isSome_none,Option.isSome_some,Bool.toNat_false,Bool.toNat_true] at count
    dsimp only
    omega

-- Once its directory has its name no other command is between the two writes.
theorem naming_last (inv : Invariant s) (here : s.commands[t]? = some (.naming placement rootId))
    (quiet : next.names = none) : ∀ stage ∈ s.commands.set t next, stage.names = none := by
  have count := count_moved (fun stage : Stage => stage.names.isSome) next here
  have before : (Stage.naming placement rootId).names = some rootId := rfl
  rw [quiet,before,Option.isSome_none,Option.isSome_some,Bool.toNat_false,Bool.toNat_true] at count
  have := inv.alone
  apply unnamed_of_count (s := ⟨s.manifest,s.commands.set t next⟩)
  dsimp only
  omega

theorem named_keeps (inv : Invariant s) (here : s.commands[t]? = some (.naming placement rootId)) :
    Invariant ⟨{s.manifest with manifestMeta := {s.manifest.manifestMeta with rootId := some rootId}},
      s.commands.set t (.placing placement rootId)⟩ := by
  have there := (inv.pending _ (List.mem_of_getElem? here) rootId rfl).1
  have quiet : ∀ stage ∈ s.commands.set t (.placing placement rootId), stage.names = none :=
    naming_last inv here rfl
  refine ⟨⟨inv.law.one,fun id other => .inl ?_,fun id named => ?_,inv.law.reached⟩,?_,?_⟩
  · rw [inv.law.one id rootId other there]
  · cases named
    exact there
  · intro stage member id names
    rw [quiet stage member] at names
    cases names
  · have none : (s.commands.set t (.placing placement rootId)).countP (fun stage => stage.names.isSome) = 0 := by
      rw [List.countP_eq_zero]
      intro stage member
      rw [quiet stage member]
      simp
    dsimp only
    omega

theorem places_keeps (inv : Invariant s) (here : s.commands[t]? = some (.placing placement parentId))
    (added : ChildAdded s.manifest n) : Invariant ⟨n,s.commands.set t (.ended result)⟩ := by
  have quiet : Invariant ⟨s.manifest,s.commands.set t (.ended result)⟩ := reads_keeps inv here rfl rfl
  obtain ⟨node,p,nodes,above,dir,inside,named⟩ := added.added
  have more : ∀ node ∈ s.manifest.nodes, node ∈ n.nodes := by
    intro old member
    rw [nodes]
    exact List.mem_append_left _ member
  refine ⟨⟨fun a b first second => ?_,fun id there => ?_,fun id root => ?_,fun other member => ?_⟩,
    fun stage member id names => ?_,quiet.alone⟩
  · exact inv.law.one a b ((parentless_child added).mp first) ((parentless_child added).mp second)
  · dsimp only
    rw [added.named]
    exact quiet.law.named id ((parentless_child added).mp there)
  · dsimp only at root
    rw [added.named] at root
    exact (parentless_child added).mpr (inv.law.root id root)
  · dsimp only at member
    rw [nodes] at member
    rcases List.mem_append.mp member with old | last
    · obtain ⟨root,there,found⟩ := inv.law.reached other old
      exact ⟨root,(parentless_child added).mpr there,subtree_mono more found⟩
    · obtain ⟨root,there,found⟩ := inv.law.reached dir inside
      rw [List.mem_singleton.mp last]
      have self : node ∈ n.nodes := by
        rw [nodes]
        exact List.mem_append_right _ (List.mem_singleton_self _)
      refine ⟨root,(parentless_child added).mpr there,subtree_child (subtree_mono more found) self ?_⟩
      rw [above,named]
  · obtain ⟨there,unset⟩ := quiet.pending stage member id names
    exact ⟨(parentless_child added).mpr there,by dsimp only; rw [added.named]; exact unset⟩

theorem step_keeps (inv : Invariant s) (orderly : Orderly s act) (taken : step env s act = some s') : Invariant s' := by
  cases act with
  | begins request =>
    cases taken
    have quiet : (started env request).names = none := by
      unfold started
      split <;> rfl
    refine ⟨⟨inv.law.one,fun id there => ?_,inv.law.root,inv.law.reached⟩,?_,?_⟩
    · exact (inv.law.named id there).imp_right exists_snoc
    · refine forall_snoc inv.pending fun id names => ?_
      rw [quiet] at names
      cases names
    · have := inv.alone
      dsimp only
      rw [List.countP_append,List.countP_singleton,quiet]
      simpa using this
  | turns t draw fate =>
    obtain ⟨stage,here,moved⟩ := Option.bind_eq_some_iff.mp taken
    obtain ⟨⟨n,next⟩,ran,rfl⟩ := Option.map_eq_some_iff.mp moved
    have allowed := orderly stage here
    cases turn_cases ran with
    | reads quiet quiet' _ => exact reads_keeps inv here quiet quiet'
    | creates placement rootId now effect went =>
      exact creates_keeps inv here effect (allowed went (node?_none.mpr effect.fresh))
    | named placement rootId _ => exact named_keeps inv here
    | unnamed placement rootId failure lost => exact absurd allowed lost
    | places placement parentId added result => exact places_keeps inv here added
  | stops =>
    cases taken
    refine ⟨⟨inv.law.one,fun id there => ?_,inv.law.root,inv.law.reached⟩,?_,Nat.zero_le _⟩
    · refine .inl ((inv.law.named id there).resolve_right fun naming => ?_)
      obtain ⟨stage,member,names⟩ := naming
      rw [orderly stage member] at names
      cases names
    · intro stage member
      cases member

theorem step_breaks (inv : Invariant s) (disorderly : ¬ Orderly s act) (taken : step env s act = some s') :
    ¬ RootLaw s' := by
  intro law
  cases act with
  | begins request => exact disorderly trivial
  | turns t draw fate =>
    obtain ⟨stage,here,moved⟩ := Option.bind_eq_some_iff.mp taken
    obtain ⟨⟨n,next⟩,ran,rfl⟩ := Option.map_eq_some_iff.mp moved
    apply disorderly
    intro other there
    rw [here] at there
    cases there
    cases turn_cases ran with
    | reads quiet quiet' refused =>
      cases stage with
      | creating placement rootId now => exact fun went fresh => absurd fresh (refused _ _ _ rfl went)
      | naming placement rootId => cases quiet
      | resolving _ => trivial
      | placing _ _ => trivial
      | ended _ => trivial
    | creates placement rootId now effect went =>
      intro _ fresh id there
      have same := law.one id rootId ((parentless_root effect).mpr (.inl there)) ((parentless_root effect).mpr (.inr rfl))
      obtain ⟨node,member,named,_⟩ := there
      exact effect.fresh node member (named.trans same)
    | named placement rootId went => exact went
    | unnamed placement rootId failure lost =>
      obtain ⟨there,unset⟩ := inv.pending _ (List.mem_of_getElem? here) rootId rfl
      rcases law.named rootId there with named | ⟨stage,member,names⟩
      · dsimp only at named
        rw [unset] at named
        cases named
      · rw [naming_last inv here rfl stage member] at names
        cases names
    | places placement parentId added result => trivial
  | stops =>
    cases taken
    apply disorderly
    intro stage member
    cases names : stage.names with
    | none => rfl
    | some id =>
      obtain ⟨there,unset⟩ := inv.pending stage member id names
      rcases law.named id there with named | ⟨_,none,_⟩
      · dsimp only at named
        rw [unset] at named
        cases named
      · cases none

theorem rooted_start (rooted : Rooted m) : Invariant ⟨m,[]⟩ :=
  ⟨⟨rooted.one,fun id there => .inl ((rooted.named id).mp there),fun id named => (rooted.named id).mpr named,
    rooted.reached⟩,fun _ member => absurd member List.not_mem_nil,Nat.zero_le _⟩

theorem law_rooted (law : RootLaw s) (quiet : ∀ stage ∈ s.commands, stage.names = none) : Rooted s.manifest := by
  refine ⟨law.one,fun id => ⟨fun there => ?_,law.root id⟩,law.reached⟩
  refine (law.named id there).resolve_right fun naming => ?_
  obtain ⟨stage,member,names⟩ := naming
  rw [quiet stage member] at names
  cases names

-- Uploads and new directories stay below one root in exactly the orderly runs.
theorem uploads_stay_under_root (env : PathEnv) (m : Manifest) (acts : List Action) (last : World) (rooted : Rooted m)
    (ran : run (step env) ⟨m,[]⟩ acts = some last) :
    (Along (step env) RootLaw ⟨m,[]⟩ acts ↔ Guarded (step env) Orderly ⟨m,[]⟩ acts) ∧
      (Guarded (step env) Orderly ⟨m,[]⟩ acts → (∀ stage ∈ last.commands, stage.names = none) →
        Rooted last.manifest) := by
  have exactly := along_iff_guarded (P := RootLaw) (fun _ inv => inv.law) (fun _ _ _ => step_keeps)
    (fun _ _ _ => step_breaks) (rooted_start rooted) ran
  exact ⟨exactly,fun guarded quiet => law_rooted (along_last (exactly.mpr guarded) ran) quiet⟩

def plainPaths : PathEnv := ⟨fun _ => none,Char.isAlphanum⟩

def freshVault : Manifest := ⟨[],[],[],[],[],⟨9,0,none,131072,false,none⟩⟩

def newDirectory (name : Text) (nodeId : Uuid) : Request := ⟨name,none,nodeId,0,.directory⟩

def goes (t : Nat) (rootId : Uuid) : Action := .turns t ⟨rootId,0⟩ (.ok ())

theorem fresh_rooted : Rooted freshVault := by
  refine ⟨fun a b there => ?_,fun id => ⟨fun there => ?_,fun named => ?_⟩,fun node member => ?_⟩
  · obtain ⟨_,member,_⟩ := there
    cases member
  · obtain ⟨_,member,_⟩ := there
    cases member
  · cases named
  · cases member

def firstRun : List Action := [.begins (newDirectory ['a'] 10),goes 0 1,goes 0 1,goes 0 1,goes 0 1]

def firstNodes : Manifest :=
  {freshVault with
    nodes := [rootNode 1 0,⟨10,some 1,.directory,"a",0,0,0,none⟩]
    manifestMeta := ⟨9,0,none,131072,false,some 1⟩}

theorem first_directory_rooted : Rooted firstNodes := by
  have guarded : Guarded (step plainPaths) Orderly ⟨freshVault,[]⟩ firstRun := by
    refine ⟨trivial,?_,?_,?_,?_,trivial⟩
    all_goals
      intro stage here
      cases here
    · trivial
    · intro _ _ id there
      obtain ⟨_,member,_⟩ := there
      cases member
    · rfl
    · trivial
  refine (uploads_stay_under_root plainPaths freshVault firstRun ⟨firstNodes,[.ended (.ok 10)]⟩ fresh_rooted rfl).2
    guarded ?_
  intro stage member
  cases List.mem_singleton.mp member
  rfl

def race : List Action :=
  [.begins (newDirectory ['a'] 10),.begins (newDirectory ['b'] 11),goes 0 1,goes 1 2,goes 0 1,goes 0 1,goes 0 1,
    goes 1 2,goes 1 2,goes 1 2]

def racedNodes : Manifest :=
  {freshVault with
    nodes := [rootNode 1 0,⟨10,some 1,.directory,"a",0,0,0,none⟩,rootNode 2 0,⟨11,some 2,.directory,"b",0,0,0,none⟩]
    manifestMeta := ⟨9,0,none,131072,false,some 2⟩}

-- The process stops between the two writes of the first command.
def cutOff : List Action :=
  [.begins (newDirectory ['a'] 10),goes 0 1,goes 0 1,.stops,.begins (newDirectory ['b'] 11),goes 0 2,goes 0 2,goes 0 2,
    goes 0 2]

def cutNodes : Manifest :=
  {freshVault with
    nodes := [rootNode 1 0,rootNode 2 0,⟨11,some 2,.directory,"b",0,0,0,none⟩]
    manifestMeta := ⟨9,0,none,131072,false,some 2⟩}

theorem two_roots : run (step plainPaths) ⟨freshVault,[]⟩ race = some ⟨racedNodes,[.ended (.ok 10),.ended (.ok 11)]⟩ ∧
    ¬ Rooted racedNodes ∧ 10 ∉ subtree racedNodes 2 ∧
    run (step plainPaths) ⟨freshVault,[]⟩ cutOff = some ⟨cutNodes,[.ended (.ok 11)]⟩ ∧ ¬ Rooted cutNodes := by
  have apart : (1 : Uuid) ≠ 2 := by decide
  refine ⟨rfl,fun rooted => ?_,by decide,rfl,fun rooted => ?_⟩
  · exact apart (rooted.one 1 2 ⟨_,List.mem_cons_self,rfl,rfl,rfl⟩ ⟨rootNode 2 0,by simp [racedNodes],rfl,rfl,rfl⟩)
  · exact apart (rooted.one 1 2 ⟨_,List.mem_cons_self,rfl,rfl,rfl⟩ ⟨rootNode 2 0,by simp [cutNodes],rfl,rfl,rfl⟩)

end ArxRuna.Vault.Root
