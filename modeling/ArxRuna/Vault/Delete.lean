import ArxRuna.Store.Reached
import ArxRuna.Store.Removal
import ArxRuna.Store.Staging
namespace ArxRuna.Vault.Delete
open Library.Aead Library.Closure Library.Fallible Crypto Store.Tables Store.Operations Store.Effects
open Store.Integrity Store.Removal Store.Reached Store.Staging

-- `stuck` tells which removals the file system refuses: the code only logs them.
-- It is read per deleted node, since a later node may try the same name again.
abbrev Stuck := Uuid → Place → BlobName → Bool

def removeBlobs (stuck : Place → BlobName → Bool) (names : List BlobName) (files : Files) : Files :=
  fun place name => if name ∈ names ∧ stuck place name = false then none else files place name

-- Names that are not version 4 identifiers are refused before anything changes;
-- here `BlobName` holds no others.
def deleteFile (now : Int) (stuck : Stuck) (m : Manifest) (files : Files) (id : Uuid) :
    Except StorageError (Manifest × Files) := do
  let node ← getNode m id
  ensure (node.nodeType ≠ .directory) (.constraintViolation "target is a directory")
  let chunks ← getChunks m id
  let n ← deleteNode m id now
  pure (n,removeBlobs (stuck id) (chunks.map (·.blobName)) files)

-- An error of the store, or the fuel of the model's recursion (`none`).
abbrev Deep := Except (Option StorageError)

def deleteSubtree (now : Int) (stuck : Stuck) : Nat → Manifest × Files → Uuid → Deep (Manifest × Files)
  | 0, _, _ => .error none
  | fuel + 1, s, id => do
    let s ← (listChildren s.1 id).foldlM (fun s child =>
      if child.nodeType = .directory then deleteSubtree now stuck fuel s child.nodeId
      else (deleteFile now stuck s.1 s.2 child.nodeId).mapError some) s
    let n ← (deleteNode s.1 id now).mapError some
    pure (n,s.2)

-- One level of recursion per node is always enough (`delete_directory_fuel`).
def deleteDirectory (now : Int) (stuck : Stuck) (m : Manifest) (files : Files) (id : Uuid) :
    Deep (Manifest × Files) := do
  let node ← (getNode m id).mapError some
  ensure (node.nodeType = .directory) (some (.constraintViolation "target is not a directory"))
  deleteSubtree now stuck (m.nodes.length + 1) (m,files) id

-- A file of the deleted set has a chunk with this blob name, and the file system
-- let the copy in this place go.
def Removed (m : Manifest) (gone : List Uuid) (stuck : Stuck) (place : Place) (name : BlobName) : Prop :=
  ∃ node ∈ m.nodes, node.nodeType = .file ∧ node.nodeId ∈ gone ∧ Uses m node.nodeId name ∧
    stuck node.nodeId place name = false

-- What a deletion does, as one statement for files and directories.
structure Deleted (m : Manifest) (files : Files) (gone : List Uuid) (stuck : Stuck) (n : Manifest)
    (files' : Files) : Prop where
  after : Valid n
  without : Without m gone n
  removed : ∀ place name, Removed m gone stuck place name → files' place name = none
  kept : ∀ place name, ¬ Removed m gone stuck place name → files' place name = files place name

variable {m n : Manifest} {files files' : Files} {id : Uuid} {now : Int} {stuck : Stuck} {gone : List Uuid}

theorem map_error_ok {ε δ α : Type} {result : Except ε α} {f : ε → δ} {value : α} :
    result.mapError f = .ok value ↔ result = .ok value := by
  cases result <;> simp [Except.mapError]

theorem get_node (found : getNode m id = .ok node) : node ∈ m.nodes ∧ node.nodeId = id := by
  unfold getNode at found
  cases here : m.node? id with
  | none => simp [here] at found
  | some other =>
    simp only [here,Except.ok.injEq] at found
    cases found
    exact node?_mem here

theorem mem_listChildren : child ∈ listChildren m id ↔ child ∈ m.nodes ∧ child.parentId = some id := by
  rw [listChildren,(List.perm_insertionSort _ _).mem_iff,List.mem_filter,decide_eq_true_eq]

theorem subtree_alone (childless : ∀ node ∈ m.nodes, node.parentId ≠ some id) (member : x ∈ subtree m id) :
    x = id := by
  obtain ⟨_,path⟩ := mem_subtree.mp member
  rcases Relation.ReflTransGen.cases_head path with rfl | ⟨_,link,_⟩
  · rfl
  · obtain ⟨node,there,named,_⟩ := linked_iff.mp link
    exact absurd named (childless node there)

theorem file_childless (valid : Valid m) (member : node ∈ m.nodes) (kind : node.nodeType ≠ .directory) :
    ∀ other ∈ m.nodes, other.parentId ≠ some node.nodeId := by
  intro other there named
  obtain ⟨dir,known,same,directory⟩ := valid.parents other there node.nodeId named
  cases List.inj_on_of_nodup_map valid.nodeIds known member same
  exact kind directory

theorem Deleted.refl (valid : Valid m) : Deleted m files [] stuck m files := by
  refine ⟨valid,.refl m,?_,fun _ _ _ => rfl⟩
  rintro _ _ ⟨_,_,_,inside,_⟩
  cases inside

theorem Deleted.trans (before : Valid m) (first : Deleted m files left stuck middle between)
    (second : Deleted middle between right stuck n files') : Deleted m files (left ++ right) stuck n files' := by
  have uses {node : Node} {name : BlobName} (member : node ∈ middle.nodes) :
      Uses middle node.nodeId name ↔ Uses m node.nodeId name :=
    first.without.uses before first.after (first.without.mem_nodes.mp member).2
  refine ⟨second.after,first.without.trans second.without,fun place name gone => ?_,fun place name stays => ?_⟩
  · by_cases later : Removed middle right stuck place name
    · exact second.removed place name later
    · rw [second.kept place name later]
      obtain ⟨node,there,kind,inside,used,free⟩ := gone
      refine first.removed place name ⟨node,there,kind,?_,used,free⟩
      rcases List.mem_append.mp inside with early | late
      · exact early
      · by_contra outside
        have survived := first.without.mem_nodes.mpr ⟨there,outside⟩
        exact later ⟨node,survived,kind,late,(uses survived).mpr used,free⟩
  · have notLater : ¬ Removed middle right stuck place name := by
      rintro ⟨node,there,kind,inside,used,free⟩
      exact stays ⟨node,(first.without.mem_nodes.mp there).1,kind,List.mem_append_right _ inside,
        (uses there).mp used,free⟩
    have notEarlier : ¬ Removed m left stuck place name := by
      rintro ⟨node,there,kind,inside,rest⟩
      exact stays ⟨node,there,kind,List.mem_append_left _ inside,rest⟩
    rw [second.kept place name notLater,first.kept place name notEarlier]

theorem Deleted.congr (deleted : Deleted m files left stuck n files') (same : ∀ x, x ∈ left ↔ x ∈ right) :
    Deleted m files right stuck n files' := by
  have moved (place : Place) (name : BlobName) : Removed m right stuck place name ↔ Removed m left stuck place name := by
    simp only [Removed,same]
  exact ⟨deleted.after,deleted.without.congr same,
    fun place name gone => deleted.removed place name ((moved place name).mp gone),
    fun place name stays => deleted.kept place name fun gone => stays ((moved place name).mpr gone)⟩

theorem delete_file_deleted (valid : Valid m) (accepted : deleteFile now stuck m files id = .ok (n,files')) :
    Deleted m files (subtree m id) stuck n files' := by
  simp only [deleteFile,bind_ok,ensure_ok,pure_ok,Prod.mk.injEq] at accepted
  obtain ⟨node,found,_,kind,chunks,listed,result,dropped,rfl,rfl⟩ := accepted
  obtain ⟨member,rfl⟩ := get_node found
  have effect := delete_node dropped
  have alone : ∀ x ∈ subtree m node.nodeId, x = node.nodeId :=
    fun x => subtree_alone (file_childless valid member kind)
  have file : node.nodeType = .file := by cases h : node.nodeType <;> simp_all
  have removed (place : Place) (name : BlobName) : Removed m (subtree m node.nodeId) stuck place name ↔
      name ∈ chunks.map (·.blobName) ∧ stuck node.nodeId place name = false := by
    constructor
    · rintro ⟨other,there,_,inside,⟨chunks',listed',chunk,found,named⟩,free⟩
      have same := alone _ inside
      rw [same] at listed' free
      cases Except.ok.inj (listed.symm.trans listed')
      exact ⟨List.mem_map.mpr ⟨chunk,found,named⟩,free⟩
    · rintro ⟨used,free⟩
      obtain ⟨chunk,found,named⟩ := List.mem_map.mp used
      exact ⟨node,member,file,subtree_root effect.found,⟨chunks,listed,chunk,found,named⟩,free⟩
  refine ⟨delete_valid valid effect,delete_without effect,fun place name gone => ?_,fun place name stays => ?_⟩
  · rw [removeBlobs,if_pos ((removed place name).mp gone)]
  · rw [removeBlobs,if_neg fun gone => stays ((removed place name).mpr gone)]

-- Deleting a node without children takes out that node alone; a directory has no
-- blobs, so no file of the staging directory changes.
theorem delete_directory_node (valid : Valid m) (dir : node ∈ m.nodes) (named : node.nodeId = id)
    (kind : node.nodeType = .directory) (childless : ∀ node ∈ m.nodes, node.parentId ≠ some id)
    (dropped : deleteNode m id now = .ok n) : Deleted m files (subtree m id) stuck n files := by
  have effect := delete_node dropped
  refine ⟨delete_valid valid effect,delete_without effect,fun place name gone => ?_,fun _ _ _ => rfl⟩
  obtain ⟨other,there,file,inside,_⟩ := gone
  have same := (subtree_alone childless inside).trans named.symm
  cases List.inj_on_of_nodup_map valid.nodeIds there dir same
  cases file.symm.trans kind

-- The loop over the children of `id`: each is deleted with its subtree, and
-- nothing outside the subtree of `id` is.
theorem delete_children (stuck : Stuck) {remove : Manifest × Files → Node → Deep (Manifest × Files)}
    {children : List Node} (each : ∀ k files n files' child, Valid k → (∃ gone, Without m gone k) → child ∈ m.nodes →
      child.parentId = some id → remove (k,files) child = .ok (n,files') →
      (k.node? child.nodeId).isSome ∧ Deleted k files (subtree k child.nodeId) stuck n files')
    (valid : Valid m) (root : (m.node? id).isSome)
    (inside : ∀ child ∈ children, child ∈ m.nodes ∧ child.parentId = some id)
    (done : Deleted m start gone stuck k files) (below : ∀ x ∈ gone, x ∈ subtree m id)
    (folded : children.foldlM remove (k,files) = .ok (n,files')) :
    ∃ all, Deleted m start all stuck n files' ∧ (∀ x ∈ all, x ∈ subtree m id) ∧
      (∀ x ∈ gone, x ∈ all) ∧ ∀ child ∈ children, child.nodeId ∈ all := by
  induction children generalizing k files gone with
  | nil =>
    cases folded
    exact ⟨gone,done,below,fun _ member => member,by simp⟩
  | cons child rest ih =>
    rw [List.foldlM_cons,bind_ok] at folded
    obtain ⟨⟨middle,between⟩,first,later⟩ := folded
    obtain ⟨member,named⟩ := inside child List.mem_cons_self
    obtain ⟨present,one⟩ := each k files middle between child done.after ⟨gone,done.without⟩ member named first
    have belowBoth : ∀ x ∈ gone ++ subtree k child.nodeId, x ∈ subtree m id := by
      intro x there
      rcases List.mem_append.mp there with early | late
      · exact below x early
      · obtain ⟨_,path⟩ := mem_subtree.mp (done.without.subtree_mono x late)
        exact mem_subtree.mpr ⟨root,.head (linked_iff.mpr ⟨child,member,named,rfl⟩) path⟩
    obtain ⟨all,deleted,inAll,kept,others⟩ :=
      ih (fun child there => inside child (List.mem_cons_of_mem _ there)) (done.trans valid one) belowBoth later
    refine ⟨all,deleted,inAll,fun x early => kept x (List.mem_append_left _ early),?_⟩
    intro other there
    rcases List.mem_cons.mp there with rfl | tail
    · exact kept _ (List.mem_append_right _ (subtree_root present))
    · exact others other tail

-- A node that is not there has no children either, so the last call fails.
theorem delete_subtree_present (valid : Valid m) (accepted : deleteSubtree now stuck fuel (m,files) id = .ok r) :
    (m.node? id).isSome := by
  cases fuel with
  | zero => cases accepted
  | succ fuel =>
    by_contra missing
    have empty : listChildren m id = [] := List.eq_nil_iff_forall_not_mem.mpr fun child member => by
      obtain ⟨there,named⟩ := mem_listChildren.mp member
      obtain ⟨dir,known,same,_⟩ := valid.parents child there id named
      exact missing (node?_isSome.mpr ⟨dir,known,same⟩)
    simp only [deleteSubtree,empty,List.foldlM_nil,bind_ok,pure_ok,map_error_ok] at accepted
    obtain ⟨_,rfl,_,dropped,_⟩ := accepted
    exact missing (delete_node dropped).found

theorem delete_subtree_deleted (valid : Valid m) (member : dir ∈ m.nodes) (named : dir.nodeId = id)
    (kind : dir.nodeType = .directory)
    (accepted : deleteSubtree now stuck fuel (m,files) id = .ok (n,files')) :
    Deleted m files (subtree m id) stuck n files' := by
  induction fuel generalizing m files n files' id dir with
  | zero => cases accepted
  | succ fuel ih =>
    simp only [deleteSubtree,bind_ok,map_error_ok,pure_ok,Prod.mk.injEq] at accepted
    obtain ⟨⟨middle,between⟩,folded,last,dropped,rfl,rfl⟩ := accepted
    have found : (m.node? id).isSome := node?_isSome.mpr ⟨dir,member,named⟩
    obtain ⟨all,deleted,below,_,children⟩ := delete_children stuck (fun k files n files' child
        validK taken there _ removed => by
      obtain ⟨gone,without⟩ := taken
      dsimp only at removed
      split at removed
      · rename_i directory
        have present := delete_subtree_present validK removed
        obtain ⟨other,here,same⟩ := node?_isSome.mp present
        cases List.inj_on_of_nodup_map valid.nodeIds (without.mem_nodes.mp here).1 there same
        exact ⟨present,ih validK here rfl directory removed⟩
      · have one := map_error_ok.mp removed
        refine ⟨?_,delete_file_deleted validK one⟩
        simp only [deleteFile,bind_ok] at one
        obtain ⟨node,got,_⟩ := one
        exact node?_isSome.mpr ⟨node,get_node got⟩)
      valid found (fun child there => mem_listChildren.mp there) (.refl valid) (by simp) folded
    -- every child is gone, so the last call takes out the directory alone
    have childless : ∀ node ∈ middle.nodes, node.parentId ≠ some id := fun node there above => by
      obtain ⟨old,stays⟩ := deleted.without.mem_nodes.mp there
      exact stays (children node (mem_listChildren.mpr ⟨old,above⟩))
    obtain ⟨other,here,same⟩ := node?_isSome.mp (delete_node dropped).found
    cases List.inj_on_of_nodup_map valid.nodeIds (deleted.without.mem_nodes.mp here).1 member (same.trans named.symm)
    have final := deleted.trans valid (delete_directory_node deleted.after here named kind childless dropped)
    refine final.congr fun x => ⟨fun inside => ?_,final.without.subtree_inside final.after ?_ x⟩
    · rcases List.mem_append.mp inside with early | late
      · exact below x early
      · exact deleted.without.subtree_mono x late
    · exact List.mem_append_right _ (subtree_root (delete_node dropped).found)

theorem delete_directory_deleted (valid : Valid m)
    (accepted : deleteDirectory now stuck m files id = .ok (n,files')) :
    Deleted m files (subtree m id) stuck n files' := by
  simp only [deleteDirectory,bind_ok,ensure_ok,map_error_ok] at accepted
  obtain ⟨dir,found,_,kind,removed⟩ := accepted
  obtain ⟨member,named⟩ := get_node found
  exact delete_subtree_deleted valid member named kind removed

-- Every change of the manifest is one of `delete_node`: what that keeps, a whole
-- deletion keeps, and the last change is such a step too.
theorem delete_file_keeps {Inv : Manifest → Prop} (kept : ∀ k x n, Inv k → deleteNode k x now = .ok n → Inv n)
    (holds : Inv m) (accepted : deleteFile now stuck m files id = .ok (n,files')) :
    Inv n ∧ ∃ k x, Inv k ∧ deleteNode k x now = .ok n := by
  simp only [deleteFile,bind_ok,pure_ok,Prod.mk.injEq] at accepted
  obtain ⟨_,_,_,_,_,_,_,dropped,rfl,_⟩ := accepted
  exact ⟨kept _ _ _ holds dropped,_,_,holds,dropped⟩

theorem delete_subtree_keeps {Inv : Manifest → Prop} (kept : ∀ k x n, Inv k → deleteNode k x now = .ok n → Inv n)
    (holds : Inv m) (accepted : deleteSubtree now stuck fuel (m,files) id = .ok (n,files')) :
    Inv n ∧ ∃ k x, Inv k ∧ deleteNode k x now = .ok n := by
  induction fuel generalizing m files n files' id with
  | zero => cases accepted
  | succ fuel ih =>
    simp only [deleteSubtree,bind_ok,map_error_ok,pure_ok,Prod.mk.injEq] at accepted
    obtain ⟨⟨middle,between⟩,folded,last,dropped,rfl,rfl⟩ := accepted
    let Keeps (s t : Manifest × Files) : Prop := Inv s.1 → Inv t.1
    have refl : ∀ s, Keeps s s := fun _ same => same
    have trans : ∀ a b c, Keeps a b → Keeps b c → Keeps a c := fun _ _ _ first second early =>
      second (first early)
    have children : Keeps (m,files) (middle,between) := by
      refine foldlM_keeps refl trans (fun s child next _ removed early => ?_) folded
      split at removed
      · exact (ih early removed).1
      · exact (delete_file_keeps kept early (map_error_ok.mp removed)).1
    exact ⟨kept _ _ _ (children holds) dropped,_,_,children holds,dropped⟩

theorem delete_directory_keeps {Inv : Manifest → Prop} (kept : ∀ k x n, Inv k → deleteNode k x now = .ok n → Inv n)
    (holds : Inv m) (accepted : deleteDirectory now stuck m files id = .ok (n,files')) :
    Inv n ∧ ∃ k x, Inv k ∧ deleteNode k x now = .ok n := by
  simp only [deleteDirectory,bind_ok] at accepted
  obtain ⟨_,_,_,_,removed⟩ := accepted
  exact delete_subtree_keeps kept holds removed

def below (m : Manifest) (id : Uuid) : List Node := m.nodes.filter fun node => node.nodeId ∈ subtree m id

theorem below_mono (without : Without m gone n) (id : Uuid) : (below n id).length ≤ (below m id).length := by
  have sub : (below n id).Sublist (below m id) := by
    unfold below
    rw [without.nodes,List.filter_filter]
    refine List.monotone_filter_right _ fun node both => ?_
    simp only [Bool.and_eq_true,decide_eq_true_eq] at both ⊢
    exact without.subtree_mono _ both.1
  exact sub.length_le

theorem below_child (valid : Valid m) (member : child ∈ m.nodes) (named : child.parentId = some id) :
    (below m child.nodeId).length < (below m id).length := by
  obtain ⟨dir,there,same,_⟩ := valid.parents child member id named
  have found : (m.node? id).isSome := node?_isSome.mpr ⟨dir,there,same⟩
  obtain ⟨rank,ranked⟩ := valid.forest
  have higher : ∀ x ∈ subtree m child.nodeId, rank id < rank x := by
    intro x inside
    obtain ⟨_,path⟩ := mem_subtree.mp inside
    induction path with
    | refl => exact ranked child member id named
    | tail _ link ih =>
      obtain ⟨node,known,above,rfl⟩ := linked_iff.mp link
      have := ih (mem_subtree.mpr ⟨(mem_subtree.mp inside).1,‹_›⟩)
      exact this.trans (ranked node known _ above)
  have nested : below m child.nodeId = (below m id).filter fun node => node.nodeId ∈ subtree m child.nodeId := by
    unfold below
    rw [List.filter_filter]
    refine List.filter_congr fun node _ => ?_
    have inside : node.nodeId ∈ subtree m child.nodeId → node.nodeId ∈ subtree m id := fun inside => by
      obtain ⟨_,path⟩ := mem_subtree.mp inside
      exact mem_subtree.mpr ⟨found,.head (linked_iff.mpr ⟨child,member,named,rfl⟩) path⟩
    simpa using inside
  rw [nested,List.length_filter_lt_length_iff_exists]
  refine ⟨dir,List.mem_filter.mpr ⟨there,by simpa [same] using subtree_root found⟩,?_⟩
  simp only [decide_eq_true_eq,same]
  exact fun inside => absurd (higher id inside) (Nat.lt_irrefl _)

theorem delete_subtree_fuel (valid : Valid m) (enough : (below m id).length < fuel) :
    deleteSubtree now stuck fuel (m,files) id ≠ .error none := by
  induction fuel generalizing m files id with
  | zero => cases enough
  | succ fuel ih =>
    intro failed
    have loop : (listChildren m id).foldlM (fun s child =>
        if child.nodeType = .directory then deleteSubtree now stuck fuel s child.nodeId
        else (deleteFile now stuck s.1 s.2 child.nodeId).mapError some) (m,files) ≠ .error none :=
      foldlM_never (fun s => Valid s.1 ∧ ∃ gone, Without m gone s.1) ?_ ?_ ⟨valid,[],.refl m⟩
    · simp only [deleteSubtree] at failed
      cases folded : (listChildren m id).foldlM (fun s child =>
          if child.nodeType = .directory then deleteSubtree now stuck fuel s child.nodeId
          else (deleteFile now stuck s.1 s.2 child.nodeId).mapError some) (m,files) with
      | error failure =>
        rw [folded] at failed loop
        cases failed
        exact loop rfl
      | ok s =>
        rw [folded] at failed
        cases dropped : deleteNode s.1 id now <;> simp [dropped,bind,Except.bind,Except.mapError,pure,Except.pure] at failed
    · rintro ⟨k,files⟩ child ⟨n,files'⟩ member ⟨validK,gone,without⟩ removed
      have deleted : Deleted k files (subtree k child.nodeId) stuck n files' := by
        dsimp only at removed
        split at removed
        · rename_i directory
          obtain ⟨other,here,same⟩ := node?_isSome.mp (delete_subtree_present validK removed)
          cases List.inj_on_of_nodup_map valid.nodeIds (without.mem_nodes.mp here).1
            (mem_listChildren.mp member).1 same
          exact delete_subtree_deleted validK here rfl directory removed
        · exact delete_file_deleted validK (map_error_ok.mp removed)
      exact ⟨deleted.after,_,without.trans deleted.without⟩
    · rintro ⟨k,files⟩ child member ⟨validK,gone,without⟩
      obtain ⟨there,named⟩ := mem_listChildren.mp member
      dsimp only
      split
      · refine ih validK ?_
        have shrinks : (below k child.nodeId).length ≤ (below m child.nodeId).length :=
          below_mono without child.nodeId
        have descends := below_child valid there named
        omega
      · cases deleteFile now stuck k files child.nodeId <;> simp [Except.mapError]

theorem delete_directory_fuel (valid : Valid m) : deleteDirectory now stuck m files id ≠ .error none := by
  intro failed
  simp only [deleteDirectory] at failed
  cases got : getNode m id with
  | error failure => simp [got,Except.mapError,bind,Except.bind] at failed
  | ok node =>
    have enough : (below m id).length < m.nodes.length + 1 := Nat.lt_succ_of_le (List.length_filter_le _ _)
    by_cases kind : node.nodeType = .directory
    · simp only [got,Except.mapError,bind,Except.bind,ensure,if_pos kind] at failed
      exact delete_subtree_fuel valid enough failed
    · simp [got,Except.mapError,bind,Except.bind,ensure,if_neg kind] at failed

-- The frame of a deletion: every file outside the deleted subtree keeps its
-- node, its chunk list, the epoch blobs behind it, and every local copy of its
-- blobs, so that a read finds the same bytes.
structure Harmless (m : Manifest) (files : Files) (gone : List Uuid) (n : Manifest) (files' : Files) : Prop where
  metadata : ∀ node ∈ m.nodes, node.nodeType = .file → node.nodeId ∉ gone →
    getNode n node.nodeId = getNode m node.nodeId ∧ getChunks n node.nodeId = getChunks m node.nodeId
  records : ∀ node ∈ m.nodes, node.nodeType = .file → node.nodeId ∉ gone →
    ∀ row ∈ m.chunks, row.nodeId = node.nodeId → ∀ blob, epochIdOf row = some blob →
    getEpochBlob n blob = getEpochBlob m blob
  copies : ∀ node ∈ m.nodes, node.nodeType = .file → node.nodeId ∉ gone → ∀ name, Uses m node.nodeId name →
    (∀ place bytes, files place name = some bytes → files' place name = some bytes) ∧
    readBlob files' name = readBlob files name

-- The condition: no copy of a blob that a surviving file uses is removed on
-- behalf of a deleted file.
def Unshared (m : Manifest) (files : Files) (gone : List Uuid) (stuck : Stuck) : Prop :=
  ∀ node ∈ m.nodes, node.nodeType = .file → node.nodeId ∉ gone → ∀ name, Uses m node.nodeId name →
    ∀ place, Removed m gone stuck place name → files place name = none

theorem Deleted.harmless_iff (before : Valid m) (deleted : Deleted m files gone stuck n files') :
    Harmless m files gone n files' ↔ Unshared m files gone stuck := by
  constructor
  · intro harmless node member kind outside name used place removed
    by_contra present
    obtain ⟨bytes,found⟩ := Option.ne_none_iff_exists'.mp present
    have kept := (harmless.copies node member kind outside name used).1 place bytes found
    rw [deleted.removed place name removed] at kept
    cases kept
  · intro unshared
    refine ⟨fun node member _ outside => ?_,fun node member _ outside row there own blob points => ?_,
      fun node member kind outside name used => ?_⟩
    · have here := deleted.without.mem_nodes.mpr ⟨member,outside⟩
      refine ⟨?_,deleted.without.getChunks before deleted.after outside⟩
      rw [getNode,getNode,deleted.after.node?.mpr ⟨here,rfl⟩,before.node?.mpr ⟨member,rfl⟩]
    · have here := deleted.without.mem_chunks.mpr ⟨there,by rw [own]; exact outside⟩
      rw [getEpochBlob,getEpochBlob,deleted.without.epochBlob? before deleted.after here points]
    · have same (place : Place) : files' place name = files place name := by
        by_cases removed : Removed m gone stuck place name
        · rw [deleted.removed place name removed,unshared node member kind outside name used place removed]
        · exact deleted.kept place name removed
      exact ⟨fun place bytes found => (same place).trans found,by simp only [readBlob,resolveBlobPath,same]⟩

-- A successful deletion harms no other file iff nothing a surviving file uses is
-- removed for a deleted one.
theorem deletion_harmless_iff (reachable : Reachable m)
    (succeeded : deleteFile now stuck m files id = .ok (n,files') ∨
      deleteDirectory now stuck m files id = .ok (n,files')) :
    Harmless m files (subtree m id) n files' ↔ Unshared m files (subtree m id) stuck := by
  have valid := reachable_valid reachable
  rcases succeeded with file | directory
  · exact (delete_file_deleted valid file).harmless_iff valid
  · exact (delete_directory_deleted valid directory).harmless_iff valid

-- Two small files share one epoch blob that has not been uploaded yet.
def sharingFile (id : Uuid) (name : String) : Node := ⟨id,some 1,.file,name,0,0,2,some (byteKey 7)⟩

def sharedRecord : EpochBlobRecord := ⟨30,30,List.replicate 72 7,131112,List.replicate 32 9⟩

def sharingManifest : Manifest :=
  ⟨[⟨1,none,.directory,"",0,0,0,none⟩,sharingFile 2 "a.txt",sharingFile 3 "b.txt"],
    [⟨40,2,0,.epoch 30 0 2,131112,List.replicate 32 9⟩,⟨41,3,0,.epoch 30 2 2,131112,List.replicate 32 9⟩],
    [sharedRecord],[],[],⟨9,0,none,131072,true,some 1⟩⟩

def sharingFiles : Files := noFiles.write .pending 30 (some [10,11,12,13])

def nothingStuck : Stuck := fun _ _ _ => false

theorem sharing_reachable : Reachable sharingManifest := by
  have created := Reachable.created 1 ⟨9,0,none,131072,true,some 1⟩
  obtain ⟨m,first⟩ : ∃ m, insertFileNodeAndStageEpochEntry
      (createdManifest 1 ⟨9,0,none,131072,true,some 1⟩) (sharingFile 2 "a.txt") [10,11] 20 0 = .ok m := ⟨_,rfl⟩
  obtain ⟨n,second⟩ : ∃ n, insertFileNodeAndStageEpochEntry m (sharingFile 3 "b.txt") [12,13] 21 1 = .ok n := by
    cases first
    exact ⟨_,rfl⟩
  have packed : commitEpochFlush n sharedRecord [⟨2,0,0,2⟩,⟨3,0,2,2⟩] (fun i => 40 + i) =
      .ok sharingManifest := by
    cases first
    cases second
    rfl
  exact ((created.stage first).stage second).commitEpochFlush packed

theorem sharing_deletion : ∃ n files', deleteFile 0 nothingStuck sharingManifest sharingFiles 2 = .ok (n,files') ∧
    files' .pending 30 = none :=
  ⟨_,_,rfl,rfl⟩

-- Deleting the first file removes the only copy of the blob of the second.
theorem sharing_deletion_harms : ∃ n files', Reachable sharingManifest ∧
    deleteFile 0 nothingStuck sharingManifest sharingFiles 2 = .ok (n,files') ∧
    ¬ Harmless sharingManifest sharingFiles (subtree sharingManifest 2) n files' := by
  obtain ⟨n,files',succeeded,lost⟩ := sharing_deletion
  refine ⟨n,files',sharing_reachable,succeeded,fun harmless => ?_⟩
  have used : Uses sharingManifest 3 30 := ⟨_,rfl,_,List.mem_singleton.mpr rfl,rfl⟩
  have kept := (harmless.copies (sharingFile 3 "b.txt") (by decide) rfl (by decide) 30 used).1 .pending _ rfl
  cases lost.symm.trans kept

theorem sharing_harmless_iff : ∃ n files',
    Harmless sharingManifest sharingFiles (subtree sharingManifest 2) n files' ↔
      Unshared sharingManifest sharingFiles (subtree sharingManifest 2) nothingStuck := by
  obtain ⟨n,files',succeeded,_⟩ := sharing_deletion
  exact ⟨n,files',deletion_harmless_iff sharing_reachable (.inl succeeded)⟩

end ArxRuna.Vault.Delete
