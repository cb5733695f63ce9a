import ArxRuna.Library.Run
import ArxRuna.Library.Traversal
import ArxRuna.Store.Integrity
namespace ArxRuna.Store.Forest
open Library.Aead Library.Closure Library.Fallible Library.Run Library.Traversal Relation
open Crypto Store.Tables Store.Operations Store.Effects Store.Integrity
variable {m n : Manifest} {node : Node} {id : Uuid}

-- The calls that write to the node table.
inductive Call where
  | insertNode (node : Node)
  | insertFileWithChunks (node : Node) (chunks : List ChunkRecord)
  | insertFileNodeAndStageEpochEntry (node : Node) (plaintext : Bytes) (entryId : Uuid) (queuedAt : Int)
  | moveNode (nodeId : Uuid) (newParentId : Option Uuid) (modifiedAt : Int)
  | renameNode (nodeId : Uuid) (newName : String) (modifiedAt : Int)
  | deleteNode (nodeId : Uuid) (queuedAt : Int)

def Call.statements : Call → Manifest → Except StorageError Manifest
  | .insertNode node,m => insertNodeTx m node
  | .insertFileWithChunks node chunks,m => Operations.insertFileWithChunks m node chunks
  | .insertFileNodeAndStageEpochEntry node plaintext entryId queuedAt,m =>
    Operations.insertFileNodeAndStageEpochEntry m node plaintext entryId queuedAt
  | .moveNode id parent modifiedAt,m => Operations.moveNode m id parent modifiedAt
  | .renameNode id name modifiedAt,m => Operations.renameNode m id name modifiedAt
  | .deleteNode id queuedAt,m => Operations.deleteNode m id queuedAt

-- A transaction that is dropped before its commit is rolled back; the commit can
-- fail as well.
def inTransaction (commit : Except StorageError Unit) (statements : Manifest → Except StorageError Manifest)
    (m : Manifest) : Manifest × Except StorageError Unit :=
  match statements m with
  | .error refusal => (m,.error refusal)
  | .ok written =>
    match commit with
    | .error failure => (m,.error failure)
    | .ok () => (written,.ok ())

structure Request where
  call : Call
  commit : Except StorageError Unit

def perform (m : Manifest) (request : Request) : Manifest × Except StorageError Unit :=
  inTransaction request.commit request.call.statements m

def step (m : Manifest) (request : Request) : Option Manifest := some (perform m request).1

def childrenOf (m : Manifest) (id : Uuid) : List Uuid :=
  (m.nodes.filter (·.parentId = some id)).map (·.nodeId)

def subtreeRows (m : Manifest) (fuel : Nat) (id : Uuid) : Option (List Uuid) :=
  traverse (childrenOf m) fuel ((m.nodes.filter (·.nodeId = id)).map (·.nodeId))

-- The recursive query of the cycle check, which leaves the node itself out.
def descendantRows (m : Manifest) (fuel : Nat) (id : Uuid) : Option (List Uuid) :=
  traverse (childrenOf m) fuel (childrenOf m id)

def climb (m : Manifest) : Nat → Option Uuid → List String → Option (Except StorageError (List String))
  | _,none,path => some (.ok path)
  | 0,some _,_ => none
  | fuel + 1,some id,path =>
    match getNode m id with
    | .error failure => some (.error failure)
    | .ok parent =>
      -- the root's name is no component of the path
      if parent.parentId = none then some (.ok path)
      else climb m fuel parent.parentId (path ++ [parent.name])

def buildNodePath (m : Manifest) (fuel : Nat) (node : Node) : Option (Except StorageError (List String)) :=
  (climb m fuel node.parentId [node.name]).map fun path => path.map List.reverse

structure NodeForest (m : Manifest) : Prop where
  acyclic : ∀ id, ¬ TransGen (Child (childrenOf m)) id id
  parents : ∀ node ∈ m.nodes, ∀ p, node.parentId = some p →
    ∃ dir ∈ m.nodes, dir.nodeId = p ∧ dir.nodeType = .directory
  rejected : ∀ request refusal, (perform m request).2 = .error refusal → (perform m request).1 = m
  cycleCheck : ∀ id, ∃ fuel rows, descendantRows m fuel id = some rows ∧
    ((m.node? id).isSome → ∀ parent ≠ id, parent ∈ rows ↔ parent ∈ subtree m id)
  enumeration : ∀ id, ∃ fuel rows, subtreeRows m fuel id = some rows ∧ ∀ x, x ∈ rows ↔ x ∈ subtree m id
  path : ∀ node ∈ m.nodes, ∃ fuel path, buildNodePath m fuel node = some (.ok path)

theorem child_iff : Child (childrenOf m) p x ↔ ∃ node ∈ m.nodes, node.parentId = some p ∧ node.nodeId = x := by
  simp only [Child,childrenOf,List.mem_map,List.mem_filter,decide_eq_true_eq]
  tauto

theorem child_linked : Child (childrenOf m) p x ↔ Linked (parentEdges m) p x :=
  child_iff.trans linked_iff.symm

theorem paths_linked : ReflTransGen (Child (childrenOf m)) p x ↔ ReflTransGen (Linked (parentEdges m)) p x := by
  constructor
  · exact ReflTransGen.mono (fun _ _ => child_linked.mp) _ _
  · exact ReflTransGen.mono (fun _ _ => child_linked.mpr) _ _

theorem ranks (valid : Valid m) : ∃ (rank : Uuid → Nat) (bound : Nat), ∀ above below, below ∈ childrenOf m above →
    rank above < rank below ∧ rank below ≤ bound := by
  obtain ⟨rank,ranked⟩ := valid.forest
  refine ⟨rank,(m.nodes.map fun node => rank node.nodeId).sum,fun above below member => ?_⟩
  obtain ⟨node,there,named,rfl⟩ := child_iff.mp member
  refine ⟨ranked node there above named,?_⟩
  exact List.single_le_sum (fun _ _ => Nat.zero_le _) _ (List.mem_map_of_mem there)

theorem no_cycle (valid : Valid m) (id : Uuid) : ¬ TransGen (Child (childrenOf m)) id id := by
  obtain ⟨rank,_,ranked⟩ := ranks valid
  have higher {x : Uuid} (path : TransGen (Child (childrenOf m)) id x) : rank id < rank x := by
    induction path with
    | single child => exact (ranked _ _ child).1
    | tail _ child ih => exact ih.trans (ranked _ _ child).1
  exact fun cycle => lt_irrefl _ (higher cycle)

theorem subtree_rows (valid : Valid m) (id : Uuid) :
    ∃ fuel rows, subtreeRows m fuel id = some rows ∧ ∀ x, x ∈ rows ↔ x ∈ subtree m id := by
  obtain ⟨rank,bound,ranked⟩ := ranks valid
  obtain ⟨fuel,rows,ended⟩ := traverse_ends ranked ((m.nodes.filter (·.nodeId = id)).map (·.nodeId))
  refine ⟨fuel,rows,ended,fun x => ?_⟩
  rw [mem_traverse ended,mem_subtree,node?_isSome]
  simp only [paths_linked,List.mem_map,List.mem_filter,decide_eq_true_eq]
  constructor
  · rintro ⟨_,⟨node,⟨member,rfl⟩,rfl⟩,path⟩
    exact ⟨⟨node,member,rfl⟩,path⟩
  · rintro ⟨⟨node,member,rfl⟩,path⟩
    exact ⟨_,⟨node,⟨member,rfl⟩,rfl⟩,path⟩

theorem descendant_rows (valid : Valid m) (id : Uuid) : ∃ fuel rows, descendantRows m fuel id = some rows ∧
    ((m.node? id).isSome → ∀ parent ≠ id, parent ∈ rows ↔ parent ∈ subtree m id) := by
  obtain ⟨rank,bound,ranked⟩ := ranks valid
  obtain ⟨fuel,rows,ended⟩ := traverse_ends ranked (childrenOf m id)
  refine ⟨fuel,rows,ended,fun found parent other => ?_⟩
  rw [mem_traverse ended,mem_subtree,← paths_linked]
  constructor
  · rintro ⟨child,below,path⟩
    exact ⟨found,path.head below⟩
  · rintro ⟨_,path⟩
    rcases path.cases_head with same | ⟨child,below,onward⟩
    · exact absurd same.symm other
    · exact ⟨child,below,onward⟩

-- The induction is on the rank of the node whose parent is looked up.
theorem climb_ends (valid : Valid m) (member : node ∈ m.nodes) (path : List String) :
    ∃ fuel found, climb m fuel node.parentId path = some (.ok found) := by
  obtain ⟨rank,ranked⟩ := valid.forest
  generalize height : rank node.nodeId = level
  induction level using Nat.strong_induction_on generalizing node path with
  | _ level ih =>
    cases above : node.parentId with
    | none => exact ⟨0,path,rfl⟩
    | some p =>
      obtain ⟨dir,there,named,_⟩ := valid.parents node member p above
      have got : getNode m p = .ok dir := by
        rw [getNode,valid.node?.mpr ⟨there,named⟩]
      cases top : dir.parentId with
      | none =>
        refine ⟨1,path,?_⟩
        simp only [climb,got,top,if_pos]
      | some q =>
        have lower : rank dir.nodeId < level := by
          rw [named,← height]
          exact ranked node member p above
        obtain ⟨fuel,found,ended⟩ := ih _ lower there (path ++ [dir.name]) rfl
        refine ⟨fuel + 1,found,?_⟩
        rw [top] at ended
        simp only [climb,got,top,reduceCtorEq,if_false]
        exact ended

theorem build_node_path (valid : Valid m) (member : node ∈ m.nodes) :
    ∃ fuel path, buildNodePath m fuel node = some (.ok path) := by
  obtain ⟨fuel,found,ended⟩ := climb_ends valid member [node.name]
  exact ⟨fuel,found.reverse,by rw [buildNodePath,ended]; rfl⟩

theorem rejected_unchanged (refused : (perform m request).2 = .error refusal) : (perform m request).1 = m := by
  unfold perform inTransaction at refused ⊢
  cases ran : request.call.statements m with
  | error failure => rfl
  | ok written =>
    cases commits : request.commit with
    | error failure => rfl
    | ok _ =>
      rw [ran,commits] at refused
      cases refused

theorem valid_forest (valid : Valid m) : NodeForest m :=
  ⟨no_cycle valid,valid.parents,fun _ _ => rejected_unchanged,descendant_rows valid,subtree_rows valid,
    fun _ => build_node_path valid⟩

theorem statements_valid (valid : Valid m) (accepted : Call.statements call m = .ok n) : Valid n := by
  cases call with
  | insertNode node => exact insert_node_valid valid (insert_node_tx accepted)
  | insertFileWithChunks node chunks => exact insert_file_valid valid (insert_file_with_chunks accepted)
  | insertFileNodeAndStageEpochEntry node plaintext entryId queuedAt =>
    exact stage_valid valid (insert_file_node_and_stage accepted) rfl
  | moveNode id parent modifiedAt => exact move_valid valid (move_node accepted)
  | renameNode id name modifiedAt => exact rename_valid valid accepted
  | deleteNode id queuedAt => exact delete_valid valid (delete_node accepted)

theorem perform_valid (valid : Valid m) (request : Request) : Valid (perform m request).1 := by
  unfold perform inTransaction
  cases accepted : request.call.statements m with
  | error failure => exact valid
  | ok written =>
    cases request.commit with
    | error failure => exact valid
    | ok _ => exact statements_valid valid accepted

-- Whatever is called on a new vault, with whatever arguments, its nodes stay a
-- forest and every walk over them ends.
theorem nodes_stay_a_forest (root : Uuid) (values : ManifestMeta) (requests : List Request) :
    Along step NodeForest (createdManifest root values) requests := by
  apply along_mono (fun _ => valid_forest)
  refine along_invariant (fun m request next valid taken => ?_) (created_valid root values)
  cases taken
  exact perform_valid valid request

end ArxRuna.Store.Forest
