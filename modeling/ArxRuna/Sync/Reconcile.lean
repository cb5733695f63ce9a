import ArxRuna.Library.Triples
import ArxRuna.Sync.NameTree
namespace ArxRuna.Sync.Reconcile
open Library.Aead Library.Fallible Library.Interrupt Library.Triples Crypto Store.Tables Store.Operations Store.Effects
open Store.Integrity NameTree

inductive IpcError where
  | storage (error : StorageError)
  | internalError (text : String)
  deriving DecidableEq, Repr

structure PendingStandaloneFile where
  path : List String
  node : Node
  chunks : List ChunkRecord

structure PackedFile where
  path : List String
  node : Node
  chunkIndex : Nat
  byteOffset : Nat
  byteLength : Nat

structure PendingEpochBlob where
  epochBlob : EpochBlobRecord
  files : List PackedFile

structure PendingLocalState where
  standalone : List PendingStandaloneFile
  epochBlobs : List PendingEpochBlob

-- `clock` numbers the calls to the store. `puts` is history, the paths that were put
-- back: nothing reads it.
structure Reconciling where
  manifest : Manifest
  clock : Nat
  puts : List (List String × NodeType)

def Reconciling.tick (s : Reconciling) : Reconciling := {s with clock := s.clock + 1}

-- What each call meets and draws.
structure Env where
  fate : Nat → Fate StorageError
  newV4 : Nat → Uuid
  chunkIds : Nat → Nat → Uuid
  now : Nat → Int

variable (env : Env) {α : Type}

def call (outcome : Except StorageError (α × Reconciling)) : Command Reconciling IpcError α := fun s =>
  match env.fate s.clock with
  | .goes =>
    match outcome with
    | .ok result => (.done result.1,result.2.tick)
    | .error e => (.failed (.storage e),s.tick)
  | .fails e => (.failed (.storage e),s.tick)
  | .stops => (.stopped,s)

def query (read : Manifest → α) : Command Reconciling IpcError α := do
  let s ← inspect
  call env (.ok (read s.manifest,s))

def execute (write : Manifest → Except StorageError Manifest) : Command Reconciling IpcError Unit := do
  let s ← inspect
  call env ((write s.manifest).map fun m => ((),{s with manifest := m}))

def makeDirectory (current : Uuid) (component : String) : Command Reconciling IpcError Uuid := do
  let s ← inspect
  let newDir : Node := ⟨env.newV4 s.clock,some current,.directory,component,env.now s.clock,env.now s.clock,0,none⟩
  execute env fun m => insertNodeTx m newDir
  pure newDir.nodeId

def descend (current : Uuid) (component : String) : Command Reconciling IpcError Uuid := do
  let children ← query env fun m => listChildren m current
  match children.find? (·.name = component) with
  | some child =>
    if child.nodeType = .directory then pure child.nodeId
    else fail (.internalError ("path conflict: '" ++ component ++ "' exists as a file in the cloud manifest"))
  | none => makeDirectory env current component

def resolveOrCreateParent (dirPath : List String) : Command Reconciling IpcError Uuid := do
  let rootId ← query env fun m => m.manifestMeta.rootId
  let root ← demand (given rootId (.internalError "root_id missing from manifest"))
  dirPath.foldlM (descend env) root

def conflictName (original : String) : String :=
  if '.' ∈ original.toList then
    String.ofList (((original.toList.reverse.dropWhile (· ≠ '.')).drop 1).reverse ++ " (conflicted copy)".toList ++
      '.' :: (original.toList.reverse.takeWhile (· ≠ '.')).reverse)
  else original ++ " (conflicted copy)"

def finalName (children : List Node) (filename : String) : String :=
  if children.any (·.name = filename) then conflictName filename else filename

-- Both loops put a file back alike, with their own insert.
def putBack (insert : Manifest → Node → Except StorageError Manifest) (path : List String) (node : Node)
    (renamed : List String) : Command Reconciling IpcError (List String) := do
  let parent ← resolveOrCreateParent env path.dropLast
  let filename := path.getLast?.getD ""
  let children ← query env fun m => listChildren m parent
  let name := finalName children filename
  execute env fun m => insert m {node with parentId := some parent,name := name}
  change fun t => {t with puts := t.puts ++ [(path,node.nodeType)]}
  pure (if name ≠ filename then renamed ++ [name] else renamed)

def reinsertStandalone (renamed : List String) (file : PendingStandaloneFile) :
    Command Reconciling IpcError (List String) :=
  putBack env (fun m node => insertFileWithChunks m node file.chunks) file.path file.node renamed

def reinsertPacked (sofar : List Extent × List String) (file : PackedFile) :
    Command Reconciling IpcError (List Extent × List String) := do
  let renamed ← putBack env insertNodeTx file.path file.node sofar.2
  pure (sofar.1 ++ [⟨file.node.nodeId,file.chunkIndex,file.byteOffset,file.byteLength⟩],renamed)

def reinsertEpoch (renamed : List String) (entry : PendingEpochBlob) : Command Reconciling IpcError (List String) := do
  let packed ← entry.files.foldlM (reinsertPacked env) ([],renamed)
  let s ← inspect
  execute env fun m => reinsertEpochBlob m entry.epochBlob packed.1 (env.chunkIds s.clock)
  pure packed.2

def reinsertPendingState (pending : PendingLocalState) : Command Reconciling IpcError (List String) := do
  let renamed ← pending.standalone.foldlM (reinsertStandalone env) []
  pending.epochBlobs.foldlM (reinsertEpoch env) renamed

-- The same on names alone: whether a captured file finds its own name or else its
-- conflict name free, and the tree after it, where no file is in its way.
def reinsertAt (tree : Tree) (file : List String × NodeType) : Option (Bool × Tree) :=
  (tree.makeParents [] file.1.dropLast).map fun made =>
    let dir := file.1.dropLast
    let name := file.1.getLast?.getD ""
    if (made dir name).isSome then
      ((made dir (conflictName name)).isNone,made.put dir (conflictName name) file.2)
    else (true,made.put dir name file.2)

-- Every captured file finds room, as far as none meets a file in its way.
def hasRoom (tree : Tree) : List (List String × NodeType) → Bool
  | [] => true
  | file :: rest =>
    match reinsertAt tree file with
    | none => true
    | some (room,after) => room && hasRoom after rest

def PendingLocalState.captured (pending : PendingLocalState) : List (List String × NodeType) :=
  (pending.standalone.map fun file => (file.path,file.node.nodeType)) ++
    pending.epochBlobs.flatMap fun entry => entry.files.map fun file => (file.path,file.node.nodeType)

def Follows (start : Tree) : List (List String × NodeType) → Tree → Prop
  | [],tree => start = tree
  | file :: rest,tree => ∃ after, reinsertAt start file = some (true,after) ∧ Follows after rest tree

section Replay
variable {start tree after : Tree} {files more : List (List String × NodeType)} {file : List String × NodeType}

theorem follows_room (follows : Follows start files tree) : hasRoom start files = true := by
  induction files generalizing start with
  | nil => rfl
  | cons file rest ih =>
    obtain ⟨next,found,later⟩ := follows
    rw [hasRoom,found]
    exact ih later

theorem follows_snoc (follows : Follows start files tree) (found : reinsertAt tree file = some (true,after)) :
    Follows start (files ++ [file]) after := by
  induction files generalizing start with
  | nil =>
    cases follows
    exact ⟨after,found,rfl⟩
  | cons first rest ih =>
    obtain ⟨next,here,later⟩ := follows
    exact ⟨next,here,ih later⟩

theorem follows_crowded (follows : Follows start files tree) (found : reinsertAt tree file = some (false,after)) :
    hasRoom start (files ++ [file]) = false := by
  induction files generalizing start with
  | nil =>
    cases follows
    rw [List.nil_append,hasRoom,found]
    rfl
  | cons first rest ih =>
    obtain ⟨next,here,later⟩ := follows
    rw [List.cons_append,hasRoom,here]
    exact ih later

-- A file without room stays one, whatever else is captured.
theorem crowded_append (crowded : hasRoom start files = false) : hasRoom start (files ++ more) = false := by
  induction files generalizing start with
  | nil => cases crowded
  | cons file rest ih =>
    rw [hasRoom] at crowded
    rw [List.cons_append,hasRoom]
    cases found : reinsertAt start file with
    | none =>
      rw [found] at crowded
      cases crowded
    | some result =>
      obtain ⟨room,after⟩ := result
      rw [found] at crowded
      cases room with
      | false => rfl
      | true => exact ih crowded

end Replay

-- What holds wherever the function ends.
structure Agreed (start : Tree) (s : Reconciling) : Prop where
  valid : Valid s.manifest
  exact : Siblings s.manifest ↔ hasRoom start s.puts = true

-- Between two files the manifest is the tree the files have led to, or already has
-- two children of one name.
structure Tracked (start : Tree) (s : Reconciling) : Prop where
  valid : Valid s.manifest
  tracks : (Siblings s.manifest ∧ Follows start s.puts (treeOf s.manifest)) ∨
    (¬ Siblings s.manifest ∧ hasRoom start s.puts = false)

theorem tracked_agreed {start : Tree} {s : Reconciling} (tracked : Tracked start s) : Agreed start s := by
  refine ⟨tracked.valid,?_⟩
  rcases tracked.tracks with ⟨distinct,follows⟩ | ⟨clash,crowded⟩
  · exact iff_of_true distinct (follows_room follows)
  · exact iff_of_false clash (by rw [crowded]; decide)

section Calls
variable {env} {P E S : Reconciling → Prop}

theorem leads_call {outcome : Reconciling → Except StorageError (α × Reconciling)} {Q : α → Reconciling → Prop}
    (stops : ∀ s, P s → S s) (fails : ∀ s, P s → E s.tick)
    (goes : ∀ s a t, P s → outcome s = .ok (a,t) → Q a t.tick) :
    Leads P (inspect >>= fun s => call env (outcome s)) Q E S := by
  intro s before
  rw [bind_inspect]
  unfold call
  cases env.fate s.clock with
  | goes =>
    cases wrote : outcome s with
    | ok result => exact goes s result.1 result.2 before wrote
    | error e => exact fails s before
  | fails e => exact fails s before
  | stops => exact stops s before

theorem leads_query {read : Manifest → α} {Q : α → Reconciling → Prop} (stops : ∀ s, P s → S s)
    (fails : ∀ s, P s → E s.tick) (goes : ∀ s, P s → Q (read s.manifest) s.tick) : Leads P (query env read) Q E S := by
  refine leads_call stops fails ?_
  intro s a t before same
  cases same
  exact goes s before

theorem leads_execute {write : Manifest → Except StorageError Manifest} {Q : Unit → Reconciling → Prop}
    (stops : ∀ s, P s → S s) (fails : ∀ s, P s → E s.tick)
    (goes : ∀ s m, P s → write s.manifest = .ok m → Q () ({s with manifest := m} : Reconciling).tick) :
    Leads P (execute env write) Q E S := by
  refine leads_call stops fails ?_
  intro s a t before same
  cases wrote : write s.manifest with
  | ok m =>
    rw [wrote] at same
    cases same
    exact goes s m before wrote
  | error e =>
    rw [wrote] at same
    cases same

end Calls

section Steps
variable {env} {m n : Manifest} {node : Node} {parent : Uuid} {name filename : String} {s : Reconciling}
  {start tree : Tree} {puts : List (List String × NodeType)}

theorem siblings_snoc (nodes : n.nodes = m.nodes ++ [node]) (under : node.parentId = some parent) :
    Siblings n ↔ Siblings m ∧ ¬ Named m parent node.name := by
  rw [Siblings,nodes,List.pairwise_append]
  constructor
  · rintro ⟨old,_,across⟩
    refine ⟨old,?_⟩
    rintro ⟨other,member,same,called⟩
    exact across other member node List.mem_cons_self (same.trans under.symm) (by rw [same]; simp) called
  · rintro ⟨old,free⟩
    refine ⟨old,List.pairwise_singleton _ _,?_⟩
    rintro other member last there same _ called
    rw [List.mem_singleton.mp there] at same called
    exact free ⟨other,member,same.trans under,called⟩

def Appends (insert : Manifest → Node → Except StorageError Manifest) : Prop :=
  ∀ m node n, insert m node = .ok n →
    n.nodes = m.nodes ++ [node] ∧ n.manifestMeta = m.manifestMeta ∧ (Valid m → Valid n)

theorem standalone_appends (chunks : List ChunkRecord) : Appends fun m node => insertFileWithChunks m node chunks := by
  intro m node n wrote
  have effect := insert_file_with_chunks wrote
  exact ⟨by rw [effect.result],by rw [effect.result],fun valid => insert_file_valid valid effect⟩

theorem packed_appends : Appends insertNodeTx := by
  intro m node n wrote
  have effect := insert_node_tx wrote
  exact ⟨by rw [effect.result],by rw [effect.result],fun valid => insert_node_valid valid effect⟩

-- A manifest with distinct names that is this tree, and one that has lost them.
def Mirrors (tree : Tree) (puts : List (List String × NodeType)) (s : Reconciling) : Prop :=
  Valid s.manifest ∧ Siblings s.manifest ∧ treeOf s.manifest = tree ∧ s.puts = puts

def Clashes (puts : List (List String × NodeType)) (s : Reconciling) : Prop :=
  Valid s.manifest ∧ ¬ Siblings s.manifest ∧ s.puts = puts

def Resolving (puts : List (List String × NodeType)) (s : Reconciling) : Prop :=
  Valid s.manifest ∧ Siblings s.manifest ∧ s.puts = puts

theorem mirrors_resolving (mirrors : Mirrors tree puts s) : Resolving puts s := ⟨mirrors.1,mirrors.2.1,mirrors.2.2.2⟩

def Stands (tree : Tree) (puts : List (List String × NodeType)) (dir : List String) (current : Uuid)
    (s : Reconciling) : Prop := Mirrors tree puts s ∧ dirAt s.manifest dir = some current

theorem make_directory_stands {component : String} {dir : List String} {current : Uuid}
    (missing : tree dir component = none) : Leads (Stands tree puts dir current) (makeDirectory env current component)
      (Stands (tree.put dir component .directory) puts (dir ++ [component])) (Resolving puts) (Resolving puts) := by
  refine leads_inspect fun w stands => ?_
  refine leads_bind (R := fun _ => Stands (tree.put dir component .directory) puts (dir ++ [component])
    (env.newV4 w.clock)) (leads_execute ?_ ?_ ?_) fun _ => leads_pure _ fun s holds => holds
  · rintro s rfl
    exact mirrors_resolving stands.1
  · rintro s rfl
    exact mirrors_resolving stands.1
  · rintro s m rfl wrote
    obtain ⟨⟨valid,distinct,mirrors,same⟩,here⟩ := stands
    obtain ⟨nodes,values,kept⟩ := packed_appends _ _ _ wrote
    have free : ¬ Named s.manifest current component := by
      rw [← child_none]
      have lookup := congrFun (congrFun mirrors dir) component
      rw [tree_at,here,missing] at lookup
      exact Option.map_eq_none_iff.mp lookup
    refine ⟨⟨kept valid,(siblings_snoc nodes rfl).mpr ⟨distinct,free⟩,?_,same⟩,?_⟩
    · rw [← mirrors]
      exact tree_inserted valid (kept valid) nodes values rfl here free
    · exact dir_made valid (kept valid) nodes values rfl here free

theorem descend_stands (dir : List String) (current : Uuid) (component : String) :
    Leads (Stands tree puts dir current) (descend env current component)
      (fun next s => ∃ after, (∀ rest, tree.makeParents dir (component :: rest) =
        after.makeParents (dir ++ [component]) rest) ∧ Stands after puts (dir ++ [component]) next s)
      (Resolving puts) (Resolving puts) := by
  have first : Leads (Stands tree puts dir current) (query env fun m => listChildren m current)
      (fun children s => Stands tree puts dir current s ∧ children = listChildren s.manifest current)
      (Resolving puts) (Resolving puts) :=
    leads_query (fun s stands => mirrors_resolving stands.1) (fun s stands => mirrors_resolving stands.1)
      (fun s stands => ⟨stands,rfl⟩)
  refine leads_bind first fun children => ?_
  rintro s ⟨stands,rfl⟩
  obtain ⟨⟨valid,distinct,mirrors,same⟩,here⟩ := stands
  have lookup : tree dir component = (childAt s.manifest current component).map (·.nodeType) := by
    rw [← mirrors,tree_at,here]
    rfl
  rw [child_listed distinct]
  cases found : childAt s.manifest current component with
  | none =>
    rw [found] at lookup
    refine leads_mono (make_directory_stands lookup) (fun _ stands => stands) ?_ (fun _ left => left) (fun _ left => left) s
      ⟨⟨valid,distinct,mirrors,same⟩,here⟩
    intro next t stands
    refine ⟨_,fun rest => ?_,stands⟩
    rw [parents_cons,lookup]
    rfl
  | some child =>
    rw [found] at lookup
    dsimp only
    split
    · rename_i kind
      refine ⟨tree,fun rest => ?_,⟨valid,distinct,mirrors,same⟩,?_⟩
      · rw [parents_cons,lookup,Option.map_some,kind]
      · rw [dir_snoc,here,Option.bind_some,found]
        rfl
    · exact ⟨valid,distinct,same⟩

theorem path_stands (path : List String) (dir : List String) (current : Uuid) (tree : Tree) :
    Leads (Stands tree puts dir current) (path.foldlM (descend env) current)
      (fun parent s => ∃ after, tree.makeParents dir path = some after ∧ Stands after puts (dir ++ path) parent s)
      (Resolving puts) (Resolving puts) := by
  induction path generalizing dir current tree with
  | nil => exact leads_pure current fun s stands => ⟨tree,rfl,by rw [List.append_nil]; exact stands⟩
  | cons component rest ih =>
    rw [List.foldlM_cons]
    refine leads_bind (descend_stands dir current component) fun next => leads_exists fun after => ?_
    rintro s ⟨made,stands⟩
    refine leads_mono (ih (dir ++ [component]) next after) (fun _ holds => holds) ?_ (fun _ left => left)
      (fun _ left => left) s stands
    rintro parent t ⟨last,found,stands⟩
    rw [List.append_assoc] at stands
    exact ⟨last,(made rest).trans found,stands⟩

theorem resolve_stands (dirPath : List String) : Leads (Mirrors tree puts) (resolveOrCreateParent env dirPath)
    (fun parent s => ∃ after, tree.makeParents [] dirPath = some after ∧ Stands after puts dirPath parent s)
    (Resolving puts) (Resolving puts) := by
  have first : Leads (Mirrors tree puts) (query env fun m => m.manifestMeta.rootId)
      (fun rootId s => Mirrors tree puts s ∧ rootId = dirAt s.manifest []) (Resolving puts) (Resolving puts) := by
    exact leads_query (fun s => mirrors_resolving) (fun s => mirrors_resolving) fun s mirrors =>
      ⟨mirrors,(dir_root s.manifest).symm⟩
  refine leads_bind first fun rootId => ?_
  refine leads_bind (R := fun root => Stands tree puts [] root) (leads_demand ?_ ?_) fun root => path_stands dirPath [] root tree
  · rintro root s found ⟨mirrors,same⟩
    cases rootId with
    | none => cases found
    | some id =>
      cases found
      exact ⟨mirrors,same.symm⟩
  · rintro e s _ ⟨mirrors,_⟩
    exact mirrors_resolving mirrors

theorem clashes_query {read : Manifest → α} :
    Leads (Clashes puts) (query env read) (fun _ => Clashes puts) (Clashes puts) (Clashes puts) :=
  leads_query (fun _ clash => clash) (fun _ clash => clash) (fun _ clash => clash)

theorem clashes_execute {write : Manifest → Except StorageError Manifest} (parent : Uuid)
    (appends : ∀ m n, write m = .ok n → ∃ node, n.nodes = m.nodes ++ [node] ∧ node.parentId = some parent ∧
      (Valid m → Valid n)) :
    Leads (Clashes puts) (execute env write) (fun _ => Clashes puts) (Clashes puts) (Clashes puts) := by
  refine leads_execute (fun _ clash => clash) (fun _ clash => clash) ?_
  rintro s m ⟨valid,clash,same⟩ wrote
  obtain ⟨node,nodes,under,kept⟩ := appends _ _ wrote
  exact ⟨kept valid,fun distinct => clash ((siblings_snoc nodes under).mp distinct).1,same⟩

theorem make_directory_clashes {current : Uuid} {component : String} :
    Leads (Clashes puts) (makeDirectory env current component) (fun _ => Clashes puts) (Clashes puts) (Clashes puts) := by
  refine leads_inspect fun w clash => ?_
  refine leads_bind (leads_from (clashes_execute current fun m n wrote => ?_) ?_) fun _ =>
    leads_pure _ fun s holds => holds
  · obtain ⟨nodes,_,kept⟩ := packed_appends _ _ _ wrote
    exact ⟨_,nodes,rfl,kept⟩
  · rintro s rfl
    exact clash

theorem descend_clashes (current : Uuid) (component : String) :
    Leads (Clashes puts) (descend env current component) (fun _ => Clashes puts) (Clashes puts) (Clashes puts) := by
  refine leads_bind clashes_query fun children => ?_
  split
  · split
    · exact leads_pure _ fun s clash => clash
    · exact leads_fail _ fun s clash => clash
  · exact make_directory_clashes

theorem resolve_clashes (dirPath : List String) :
    Leads (Clashes puts) (resolveOrCreateParent env dirPath) (fun _ => Clashes puts) (Clashes puts) (Clashes puts) := by
  refine leads_bind clashes_query fun rootId => ?_
  refine leads_bind (R := fun _ => Clashes puts) (leads_demand (fun _ _ _ clash => clash) fun _ _ _ clash => clash)
    fun root => ?_
  exact leads_fold (I := fun _ => Clashes puts) _ dirPath (fun _ component _ current _ => descend_clashes current component) root

theorem put_tracked {after : Tree} {path : List String} {clock : Nat} {kind : NodeType}
    (follows : Follows start puts tree) (made : tree.makeParents [] path.dropLast = some after)
    (stands : Stands after puts path.dropLast parent s) (nodes : n.nodes = s.manifest.nodes ++ [node])
    (values : n.manifestMeta = s.manifest.manifestMeta) (kept : Valid s.manifest → Valid n)
    (under : node.parentId = some parent) (typed : node.nodeType = kind)
    (named : node.name = finalName (listChildren s.manifest parent) (path.getLast?.getD "")) :
    Tracked start ⟨n,clock,puts ++ [(path,kind)]⟩ := by
  obtain ⟨⟨valid,distinct,mirrors,_⟩,here⟩ := stands
  have there (name : String) : (after path.dropLast name).isSome = true ↔ Named s.manifest parent name := by
    rw [← mirrors,tree_at,here,Option.bind_some,Option.isSome_map,← Option.ne_none_iff_isSome,ne_eq,child_none,not_not]
  have inserted (free : ¬ Named s.manifest parent node.name) :
      Siblings n ∧ treeOf n = after.put path.dropLast node.name kind := by
    refine ⟨(siblings_snoc nodes under).mpr ⟨distinct,free⟩,?_⟩
    rw [← mirrors,← typed]
    exact tree_inserted valid (kept valid) nodes values under here free
  have replayed : reinsertAt tree (path,kind) = some
      (if (after path.dropLast (path.getLast?.getD "")).isSome then
        ((after path.dropLast (conflictName (path.getLast?.getD ""))).isNone,
          after.put path.dropLast (conflictName (path.getLast?.getD "")) kind)
      else (true,after.put path.dropLast (path.getLast?.getD "") kind)) := by
    rw [reinsertAt,made]
    rfl
  refine ⟨kept valid,?_⟩
  unfold finalName at named
  by_cases taken : Named s.manifest parent (path.getLast?.getD "")
  · rw [if_pos (children_named.mpr taken)] at named
    rw [if_pos ((there _).mpr taken)] at replayed
    by_cases again : Named s.manifest parent node.name
    · right
      refine ⟨fun still => ((siblings_snoc nodes under).mp still).2 again,?_⟩
      rw [named] at again
      rw [← Option.not_isSome,(there _).mpr again] at replayed
      exact follows_crowded follows replayed
    · left
      obtain ⟨apart,tracks⟩ := inserted again
      have free : (after path.dropLast (conflictName (path.getLast?.getD ""))).isSome = false := by
        rw [Bool.eq_false_iff,ne_eq,there,← named]
        exact again
      rw [← Option.not_isSome,free,← named] at replayed
      exact ⟨apart,tracks ▸ follows_snoc follows replayed⟩
  · rw [if_neg (fun listed => taken (children_named.mp listed))] at named
    rw [if_neg (fun some => taken ((there _).mp some)),← named] at replayed
    obtain ⟨apart,tracks⟩ := inserted (by rw [named]; exact taken)
    exact .inl ⟨apart,tracks ▸ follows_snoc follows replayed⟩

-- Before and after a file, and wherever the function may end in between.
def At (start : Tree) (puts : List (List String × NodeType)) (s : Reconciling) : Prop := Tracked start s ∧ s.puts = puts

def Left (start : Tree) (puts : List (List String × NodeType)) (s : Reconciling) : Prop := Agreed start s ∧ s.puts = puts

theorem mirrors_left (follows : Follows start puts tree) (s : Reconciling) (resolving : Resolving puts s) :
    Left start puts s := by
  obtain ⟨valid,distinct,same⟩ := resolving
  exact ⟨⟨valid,iff_of_true distinct (by rw [same]; exact follows_room follows)⟩,same⟩

theorem clashes_left (crowded : hasRoom start puts = false) (s : Reconciling) (clashes : Clashes puts s) :
    Left start puts s := by
  obtain ⟨valid,clash,same⟩ := clashes
  exact ⟨⟨valid,iff_of_false clash (by rw [same,crowded]; decide)⟩,same⟩

theorem put_back_mirrors {insert : Manifest → Node → Except StorageError Manifest} (appends : Appends insert)
    (path : List String) (node : Node) (renamed : List String) (follows : Follows start puts tree) :
    Leads (Mirrors tree puts) (putBack env insert path node renamed)
      (fun _ => At start (puts ++ [(path,node.nodeType)])) (Left start puts) (Left start puts) := by
  have left := mirrors_left follows
  refine leads_bind (leads_mono (resolve_stands path.dropLast) (fun _ mirrors => mirrors) (fun _ _ stands => stands)
    left left) fun parent => leads_exists fun after => ?_
  refine leads_bind (R := fun children t => (tree.makeParents [] path.dropLast = some after ∧
    Stands after puts path.dropLast parent t) ∧ children = listChildren t.manifest parent) ?_ fun children => ?_
  · refine leads_query ?_ ?_ fun s here => ⟨here,rfl⟩
    · exact fun s here => left s (mirrors_resolving here.2.1)
    · exact fun s here => left s.tick (mirrors_resolving here.2.1)
  · refine leads_bind (R := fun _ t => Tracked start {t with puts := puts ++ [(path,node.nodeType)]} ∧ t.puts = puts) ?_
      fun _ => leads_bind (R := fun _ => At start (puts ++ [(path,node.nodeType)])) ?_ fun _ =>
        leads_pure _ fun s holds => holds
    · refine leads_execute ?_ ?_ ?_
      · exact fun s here => left s (mirrors_resolving here.1.2.1)
      · exact fun s here => left s.tick (mirrors_resolving here.1.2.1)
      · rintro s m ⟨⟨made,stands⟩,rfl⟩ wrote
        obtain ⟨nodes,values,kept⟩ := appends _ _ _ wrote
        exact ⟨put_tracked follows made stands nodes values kept rfl rfl rfl,stands.1.2.2.2⟩
    · refine leads_change ?_
      rintro s ⟨tracked,same⟩
      rw [same]
      exact ⟨tracked,rfl⟩

theorem put_back_clashes {insert : Manifest → Node → Except StorageError Manifest} (appends : Appends insert)
    (path : List String) (node : Node) (renamed : List String) :
    Leads (Clashes puts) (putBack env insert path node renamed)
      (fun _ => Clashes (puts ++ [(path,node.nodeType)])) (Clashes puts) (Clashes puts) := by
  refine leads_bind (resolve_clashes _) fun parent => leads_bind clashes_query fun children => ?_
  refine leads_bind (clashes_execute parent fun m n wrote => ?_) fun _ =>
    leads_bind (R := fun _ => Clashes (puts ++ [(path,node.nodeType)])) (leads_change ?_) fun _ =>
      leads_pure _ fun s holds => holds
  · obtain ⟨nodes,_,kept⟩ := appends _ _ _ wrote
    exact ⟨_,nodes,rfl,kept⟩
  · rintro s ⟨valid,clash,same⟩
    exact ⟨valid,clash,by rw [same]⟩

theorem put_back_tracked {insert : Manifest → Node → Except StorageError Manifest} (appends : Appends insert)
    (path : List String) (node : Node) (renamed : List String) :
    Leads (At start puts) (putBack env insert path node renamed) (fun _ => At start (puts ++ [(path,node.nodeType)]))
      (Left start puts) (Left start puts) := by
  rintro s ⟨⟨valid,tracks⟩,same⟩
  rw [same] at tracks
  rcases tracks with ⟨distinct,follows⟩ | ⟨clash,crowded⟩
  · exact put_back_mirrors appends path node renamed follows s ⟨valid,distinct,rfl,same⟩
  · refine leads_mono (put_back_clashes appends path node renamed) (fun _ clashes => clashes) ?_ (clashes_left crowded)
      (clashes_left crowded) s ⟨valid,clash,same⟩
    rintro _ t ⟨valid,clash,same⟩
    exact ⟨⟨valid,.inr ⟨clash,by rw [same]; exact crowded_append crowded⟩⟩,same⟩

-- Wherever the function ends, with the files it has put back so far.
def Ends (start : Tree) (files : List (List String × NodeType)) (s : Reconciling) : Prop :=
  Agreed start s ∧ s.puts <+: files

theorem standalone_tracked (files : List PendingStandaloneFile) (later : List (List String × NodeType)) :
    Leads (At start []) (files.foldlM (reinsertStandalone env) [])
      (fun _ => At start (files.map fun file => (file.path,file.node.nodeType)))
      (Ends start (files.map (fun file => (file.path,file.node.nodeType)) ++ later))
      (Ends start (files.map (fun file => (file.path,file.node.nodeType)) ++ later)) := by
  refine leads_fold (I := fun before => At start (before.map fun file => (file.path,file.node.nodeType))) _ files ?_ []
  intro before file rest renamed split
  have ends (s : Reconciling) (left : Left start (before.map fun file => (file.path,file.node.nodeType)) s) :
      Ends start (files.map (fun file => (file.path,file.node.nodeType)) ++ later) s := by
    refine ⟨left.1,?_⟩
    rw [left.2,split,List.map_append,List.append_assoc]
    exact List.prefix_append ..
  refine leads_mono (put_back_tracked (standalone_appends file.chunks) file.path file.node renamed)
    (fun _ here => here) ?_ ends ends
  intro _ s here
  rw [List.map_append]
  exact here

theorem packed_tracked (files : List PackedFile) (renamed : List String) :
    Leads (At start puts) (files.foldlM (reinsertPacked env) ([],renamed))
      (fun _ => At start (puts ++ files.map fun file => (file.path,file.node.nodeType)))
      (Ends start (puts ++ files.map fun file => (file.path,file.node.nodeType)))
      (Ends start (puts ++ files.map fun file => (file.path,file.node.nodeType))) := by
  have loop := leads_fold (σ := Reconciling) (ε := IpcError) (reinsertPacked env)
    (I := fun before => At start (puts ++ before.map fun file => (file.path,file.node.nodeType)))
    (E := Ends start (puts ++ files.map fun file => (file.path,file.node.nodeType)))
    (S := Ends start (puts ++ files.map fun file => (file.path,file.node.nodeType))) files ?_ ([],renamed)
  · refine leads_from loop fun s here => ?_
    rw [List.map_nil,List.append_nil]
    exact here
  · intro before file rest sofar split
    have ends (s : Reconciling) (left : Left start (puts ++ before.map fun file => (file.path,file.node.nodeType)) s) :
        Ends start (puts ++ files.map fun file => (file.path,file.node.nodeType)) s := by
      refine ⟨left.1,?_⟩
      rw [left.2,split,List.map_append,← List.append_assoc]
      exact List.prefix_append ..
    refine leads_bind (leads_mono (put_back_tracked packed_appends file.path file.node sofar.2) (fun _ here => here)
      (fun _ _ here => here) ends ends) fun _ => leads_pure _ fun s here => ?_
    rw [List.map_append,← List.append_assoc]
    exact here

theorem epoch_tracked (renamed : List String) (entry : PendingEpochBlob) :
    Leads (At start puts) (reinsertEpoch env renamed entry)
      (fun _ => At start (puts ++ entry.files.map fun file => (file.path,file.node.nodeType)))
      (Ends start (puts ++ entry.files.map fun file => (file.path,file.node.nodeType)))
      (Ends start (puts ++ entry.files.map fun file => (file.path,file.node.nodeType))) := by
  refine leads_bind (packed_tracked entry.files renamed) fun packed => leads_inspect fun w here => ?_
  have ends (s : Reconciling) (at_end : At start (puts ++ entry.files.map fun file => (file.path,file.node.nodeType)) s) :
      Ends start (puts ++ entry.files.map fun file => (file.path,file.node.nodeType)) s :=
    ⟨tracked_agreed at_end.1,at_end.2 ▸ List.prefix_rfl⟩
  refine leads_bind (R := fun _ => At start (puts ++ entry.files.map fun file => (file.path,file.node.nodeType)))
    (leads_execute ?_ ?_ ?_) fun _ => leads_pure _ fun s holds => holds
  · rintro s rfl
    exact ends s here
  · rintro s rfl
    exact ends s.tick ⟨⟨here.1.valid,here.1.tracks⟩,here.2⟩
  · rintro s m rfl wrote
    have effect := reinsert_epoch_blob wrote
    obtain ⟨⟨valid,tracks⟩,same⟩ := here
    refine ⟨⟨register_valid valid effect,?_⟩,same⟩
    have nodes : m.nodes = s.manifest.nodes := by rw [effect.result]
    have siblings : Siblings m ↔ Siblings s.manifest := by rw [Siblings,nodes,Siblings]
    change (Siblings m ∧ Follows start s.puts (treeOf m)) ∨ (¬ Siblings m ∧ hasRoom start s.puts = false)
    rw [tree_congr nodes (by rw [effect.result]),siblings]
    exact tracks

theorem reinsert_tracked (env : Env) (pending : PendingLocalState) :
    Leads (At start []) (reinsertPendingState env pending) (fun _ => At start pending.captured)
      (Ends start pending.captured) (Ends start pending.captured) := by
  refine leads_bind (standalone_tracked pending.standalone _) fun renamed => ?_
  have loop := leads_fold (σ := Reconciling) (ε := IpcError) (reinsertEpoch env)
    (I := fun before => At start ((pending.standalone.map fun file => (file.path,file.node.nodeType)) ++
      before.flatMap fun entry => entry.files.map fun file => (file.path,file.node.nodeType)))
    (E := Ends start pending.captured) (S := Ends start pending.captured) pending.epochBlobs ?_ renamed
  · refine leads_from loop fun s here => ?_
    rw [List.flatMap_nil,List.append_nil]
    exact here
  · intro before entry rest names split
    have ends (s : Reconciling) (left : Ends start (((pending.standalone.map fun file => (file.path,file.node.nodeType)) ++
        before.flatMap fun entry => entry.files.map fun file => (file.path,file.node.nodeType)) ++
          entry.files.map fun file => (file.path,file.node.nodeType)) s) : Ends start pending.captured s := by
      refine ⟨left.1,left.2.trans ?_⟩
      rw [PendingLocalState.captured,split,List.flatMap_append,List.flatMap_cons,← List.append_assoc,← List.append_assoc]
      exact List.prefix_append ..
    refine leads_mono (epoch_tracked names entry) (fun _ here => here) ?_ ends ends
    intro _ s here
    rw [List.flatMap_append,List.flatMap_singleton,← List.append_assoc]
    exact here

end Steps
def replaced (m : Manifest) : Reconciling := ⟨m,0,[]⟩

def UnderDirectories (m : Manifest) : Prop :=
  ∀ node ∈ m.nodes, ∀ p, node.parentId = some p → ∀ other ∈ m.nodes, other.nodeId = p → other.nodeType = .directory

theorem valid_under {m : Manifest} (valid : Valid m) : UnderDirectories m := by
  intro node member p named other there same
  obtain ⟨dir,inside,same',kind⟩ := valid.parents node member p named
  rw [List.inj_on_of_nodup_map valid.nodeIds there inside (same.trans same'.symm)]
  exact kind

theorem room_front {start : Tree} {files : List (List String × NodeType)} (front : puts <+: files)
    (room : hasRoom start files = true) : hasRoom start puts = true := by
  obtain ⟨more,rfl⟩ := front
  cases here : hasRoom start puts with
  | true => rfl
  | false =>
    rw [crowded_append here] at room
    cases room

-- However the function ends, the names are distinct where there is room for the
-- captured files, and where all of them are put back only there.
theorem siblings_distinct_iff (env : Env) (pending : PendingLocalState) {m : Manifest} (valid : Valid m)
    (distinct : Siblings m) :
    (hasRoom (treeOf m) pending.captured = true →
      Siblings (reinsertPendingState env pending (replaced m)).2.manifest) ∧
    (∀ renamed, (reinsertPendingState env pending (replaced m)).1 = .done renamed →
      (Siblings (reinsertPendingState env pending (replaced m)).2.manifest ↔
        hasRoom (treeOf m) pending.captured = true)) ∧
    UnderDirectories (reinsertPendingState env pending (replaced m)).2.manifest := by
  have start : At (treeOf m) [] (replaced m) := ⟨⟨valid,.inl ⟨distinct,rfl⟩⟩,rfl⟩
  have owed := reinsert_tracked env pending (replaced m) start
  rcases ran : reinsertPendingState env pending (replaced m) with ⟨renamed | e | _,t⟩ <;> rw [ran] at owed
  · obtain ⟨tracked,same⟩ := owed
    obtain ⟨valid,agreed⟩ := tracked_agreed tracked
    rw [same] at agreed
    exact ⟨agreed.mpr,fun _ _ => agreed,valid_under valid⟩
  · obtain ⟨⟨valid,agreed⟩,front⟩ := owed
    exact ⟨fun room => agreed.mpr (room_front front room),(by rintro _ ⟨⟩),valid_under valid⟩
  · obtain ⟨⟨valid,agreed⟩,front⟩ := owed
    exact ⟨fun room => agreed.mpr (room_front front room),(by rintro _ ⟨⟩),valid_under valid⟩

def steadyEnv : Env := ⟨fun _ => .goes,fun n => 100 + n,fun n i => 1000 * n + i,fun _ => 0⟩

theorem zero_wrapped_length : (List.replicate 72 (0 : UInt8)).length = 72 := List.length_replicate

def zeroWrapped : WrappedFileKey := ⟨List.replicate 72 0,zero_wrapped_length⟩

def fileNamed (id : Uuid) (name : String) : Node := ⟨id,some 1,.file,name,0,0,1,some zeroWrapped⟩

def cloudManifest (files : List Node) : Manifest where
  nodes := ⟨1,none,.directory,"",0,0,0,none⟩ :: files
  chunks := []
  epochBlobs := []
  epochBuffer := []
  pendingDeletions := []
  manifestMeta := ⟨9,1,none,131072,true,some 1⟩

def twoFiles (first second : String) : Manifest := cloudManifest [fileNamed 2 first,fileNamed 3 second]

def capturedFile (path : List String) (id : Uuid) : PendingStandaloneFile :=
  ⟨path,fileNamed id "",[⟨6 + id,id,0,10 + id,131072,[],none,none,none⟩]⟩

theorem cloud_siblings (apart : first ≠ second) : Siblings (twoFiles first second) := by
  unfold Siblings twoFiles cloudManifest fileNamed
  simp [apart]

theorem cloud_valid (first second : String) : Valid (twoFiles first second) := by
  have root : Valid (cloudManifest []) := created_valid 1 _
  have one : NodeInserted (cloudManifest []) (fileNamed 2 first) (cloudManifest [fileNamed 2 first]) :=
    ⟨rfl,by simp [cloudManifest,fileNamed],by simp [cloudManifest,fileNamed],by simp [fileNamed]⟩
  have two : NodeInserted (cloudManifest [fileNamed 2 first]) (fileNamed 3 second) (twoFiles first second) :=
    ⟨rfl,by simp [cloudManifest,fileNamed],by simp [cloudManifest,fileNamed],by simp [fileNamed]⟩
  exact insert_node_valid (insert_node_valid root one) two

-- A file the cloud has too, and two of a directory it does not have.
def threeCaptured : PendingLocalState :=
  ⟨[capturedFile ["a.txt"] 4,capturedFile ["notes","a.txt"] 5,capturedFile ["notes","a.txt"] 6],[]⟩

theorem copies_distinct :
    Siblings (reinsertPendingState steadyEnv threeCaptured (replaced (twoFiles "a.txt" "b.txt"))).2.manifest :=
  (siblings_distinct_iff steadyEnv threeCaptured (cloud_valid _ _) (cloud_siblings (by decide))).1 (by decide +kernel)

-- The conflict name is taken as well.
theorem conflict_name_taken : Siblings (twoFiles "a.txt" "a (conflicted copy).txt") ∧
    ¬ Siblings (reinsertPendingState steadyEnv ⟨[capturedFile ["a.txt"] 4],[]⟩
      (replaced (twoFiles "a.txt" "a (conflicted copy).txt"))).2.manifest := by
  refine ⟨cloud_siblings (by decide),?_⟩
  have twice : ((reinsertPendingState steadyEnv ⟨[capturedFile ["a.txt"] 4],[]⟩
      (replaced (twoFiles "a.txt" "a (conflicted copy).txt"))).2.manifest.nodes.map fun node =>
        (node.parentId,node.name)) =
      [(none,""),(some 1,"a.txt"),(some 1,"a (conflicted copy).txt"),(some 1,"a (conflicted copy).txt")] := by
    decide +kernel
  intro distinct
  have pairs : [(none,""),(some 1,"a.txt"),(some 1,"a (conflicted copy).txt"),
      ((some 1 : Option Uuid),"a (conflicted copy).txt")].Pairwise
      fun a b => a.1 = b.1 → a.1 ≠ none → a.2 ≠ b.2 := by
    rw [← twice,List.pairwise_map]
    exact distinct
  simp at pairs

end ArxRuna.Sync.Reconcile
