import ArxRuna.Store.Effects
namespace ArxRuna.Store.Integrity
open Library.Aead Library.Closure Library.Fallible Crypto Store.Tables Store.Operations Store.Effects
variable {m n : Manifest} {node : Node} {id : Uuid}

-- What every manifest the store can produce satisfies: primary keys, foreign
-- keys, the two partial uniqueness rules of the chunks table, and a parent
-- pointer that never cycles.
structure Valid (m : Manifest) : Prop where
  nodeIds : (m.nodes.map (·.nodeId)).Nodup
  parents : ∀ node ∈ m.nodes, ∀ p, node.parentId = some p →
    ∃ dir ∈ m.nodes, dir.nodeId = p ∧ dir.nodeType = .directory
  forest : ∃ rank : Uuid → Nat, ∀ node ∈ m.nodes, ∀ p, node.parentId = some p → rank p < rank node.nodeId
  chunkNodes : ∀ row ∈ m.chunks, ∃ node ∈ m.nodes, node.nodeId = row.nodeId
  chunkIds : m.chunks.Pairwise fun a b => a.chunkId ≠ b.chunkId
  chunkPlaces : m.chunks.Pairwise fun a b => ¬ (a.nodeId = b.nodeId ∧ a.chunkIndex = b.chunkIndex)
  flatNames : m.chunks.Pairwise fun a b => ∀ name, b.source = .flat name → a.source ≠ .flat name
  chunkBlobs : ∀ row ∈ m.chunks, ∀ blob offset length, row.source = .epoch blob offset length →
    ∃ record ∈ m.epochBlobs, record.epochBlobId = blob
  blobIds : (m.epochBlobs.map (·.epochBlobId)).Nodup
  blobNames : (m.epochBlobs.map (·.blobName)).Nodup
  bufferNodes : ∀ entry ∈ m.epochBuffer, ∃ node ∈ m.nodes, node.nodeId = entry.nodeId

theorem epochBlob?_isSome : (m.epochBlob? id).isSome ↔ ∃ record ∈ m.epochBlobs, record.epochBlobId = id := by
  simp [Manifest.epochBlob?,List.find?_isSome]

theorem Valid.epochBlob? (valid : Valid m) :
    m.epochBlob? id = some record ↔ record ∈ m.epochBlobs ∧ record.epochBlobId = id := by
  constructor
  · exact epochBlob?_mem
  · rintro ⟨member,named⟩
    obtain ⟨found,here⟩ := Option.isSome_iff_exists.mp (epochBlob?_isSome.mpr ⟨record,member,named⟩)
    obtain ⟨there,named'⟩ := epochBlob?_mem here
    rw [here,List.inj_on_of_nodup_map valid.blobIds there member (named'.trans named.symm)]

theorem Valid.node? (valid : Valid m) : m.node? id = some node ↔ node ∈ m.nodes ∧ node.nodeId = id := by
  constructor
  · exact node?_mem
  · rintro ⟨member,named⟩
    obtain ⟨found,here⟩ := Option.isSome_iff_exists.mp (node?_isSome.mpr ⟨node,member,named⟩)
    obtain ⟨there,named'⟩ := node?_mem here
    rw [here,List.inj_on_of_nodup_map valid.nodeIds there member (named'.trans named.symm)]

theorem Valid.resolve (valid : Valid m) (member : row ∈ m.chunks) : ∃ chunk, row.resolve m = .ok chunk := by
  unfold ChunkRow.resolve
  cases kind : row.source with
  | flat name => exact ⟨_,rfl⟩
  | epoch blob offset length =>
    obtain ⟨record,there,named⟩ := valid.chunkBlobs row member blob offset length kind
    simp only [valid.epochBlob?.mpr ⟨there,named⟩]
    exact ⟨_,rfl⟩

theorem Valid.getChunks (valid : Valid m) (id : Uuid) : ∃ chunks, getChunks m id = .ok chunks :=
  mapM_total fun _ member => valid.resolve (mem_chunkRowsOf.mp member).1

theorem mem_getChunks (listed : getChunks m id = .ok chunks) :
    chunk ∈ chunks ↔ ∃ row ∈ m.chunks, row.nodeId = id ∧ row.resolve m = .ok chunk := by
  rw [mem_mapM listed]
  simp only [mem_chunkRowsOf,and_assoc]

theorem nodup_snoc {α β : Type} {key : α → β} {rows : List α} {row : α} (old : (rows.map key).Nodup)
    (fresh : ∀ other ∈ rows, key other ≠ key row) : ((rows ++ [row]).map key).Nodup := by
  rw [List.map_append,List.nodup_append]
  refine ⟨old,by simp,?_⟩
  simp only [List.map_cons,List.map_nil,List.mem_singleton,List.mem_map]
  rintro _ ⟨other,member,rfl⟩ _ rfl
  exact fresh other member

theorem empty_valid (values : ManifestMeta) : Valid ⟨[],[],[],[],[],values⟩ := by
  refine ⟨by simp,by simp,⟨fun _ => 0,by simp⟩,by simp,.nil,.nil,.nil,by simp,by simp,by simp,by simp⟩

theorem insert_node_valid (valid : Valid m) (effect : NodeInserted m node n) : Valid n := by
  obtain ⟨result,fresh,parent,_⟩ := effect
  obtain ⟨rank,ranked⟩ := valid.forest
  have kept {other : Node} : other ∈ m.nodes → other ∈ m.nodes ++ [node] := List.mem_append_left _
  subst result
  refine ⟨nodup_snoc valid.nodeIds fresh,?_,?_,?_,valid.chunkIds,valid.chunkPlaces,valid.flatNames,
    valid.chunkBlobs,valid.blobIds,valid.blobNames,?_⟩
  · intro other member p named
    rcases List.mem_append.mp member with old | new
    · obtain ⟨dir,there,same⟩ := valid.parents other old p named
      exact ⟨dir,kept there,same⟩
    · rw [List.mem_singleton.mp new] at named
      obtain ⟨_,dir,there,same⟩ := parent p named
      exact ⟨dir,kept there,same⟩
  · -- the new node goes above its parent; nothing points to it yet
    refine ⟨fun x => if x = node.nodeId then (node.parentId.elim 0 rank) + 1 else rank x,?_⟩
    intro other member p named
    rcases List.mem_append.mp member with old | new
    · have here := ranked other old p named
      obtain ⟨dir,there,same,_⟩ := valid.parents other old p named
      have apart : p ≠ node.nodeId := same ▸ fresh dir there
      simp only [if_neg apart,if_neg (fresh other old)]
      exact here
    · rw [List.mem_singleton.mp new] at named ⊢
      simp only [if_neg (parent p named).1,if_pos,named,Option.elim_some]
      omega
  · intro row member
    obtain ⟨other,there,same⟩ := valid.chunkNodes row member
    exact ⟨other,kept there,same⟩
  · intro entry member
    obtain ⟨other,there,same⟩ := valid.bufferNodes entry member
    exact ⟨other,kept there,same⟩

-- One directory without a parent, and nothing else.
def createdManifest (root : Uuid) (values : ManifestMeta) : Manifest :=
  ⟨[⟨root,none,.directory,"",0,0,0,none⟩],[],[],[],[],values⟩

theorem created_valid (root : Uuid) (values : ManifestMeta) : Valid (createdManifest root values) := by
  have inserted : NodeInserted ⟨[],[],[],[],[],values⟩ ⟨root,none,.directory,"",0,0,0,none⟩
      (createdManifest root values) := ⟨rfl,by simp,by simp,by simp⟩
  exact insert_node_valid (empty_valid values) inserted

theorem insert_chunks_valid (valid : Valid m) (effect : ChunksInserted m rows n) : Valid n := by
  have appended {relation : ChunkRow → ChunkRow → Prop} (old : m.chunks.Pairwise relation)
      (new : rows.Pairwise relation) (across : ∀ row ∈ rows, ∀ other ∈ m.chunks, relation other row) :
      (m.chunks ++ rows).Pairwise relation :=
    List.pairwise_append.mpr ⟨old,new,fun other there row member => across row member other there⟩
  rw [effect.result]
  refine ⟨valid.nodeIds,valid.parents,valid.forest,?_,appended valid.chunkIds effect.rowIds effect.rowId,
    appended valid.chunkPlaces effect.distinct effect.place,
    appended valid.flatNames effect.flats fun row member other there name kind =>
      effect.flat row member name kind other there,?_,valid.blobIds,valid.blobNames,valid.bufferNodes⟩
  · intro row member
    rcases List.mem_append.mp member with old | new
    · exact valid.chunkNodes row old
    · exact node?_isSome.mp (effect.target row new)
  · intro row member blob offset length kind
    rcases List.mem_append.mp member with old | new
    · exact valid.chunkBlobs row old blob offset length kind
    · exact epochBlob?_isSome.mp (effect.epoch row new blob offset length kind).1

theorem insert_epoch_blob_valid (valid : Valid m) (effect : EpochBlobInserted m record n) : Valid n := by
  obtain ⟨result,fresh,freshName⟩ := effect
  subst result
  refine ⟨valid.nodeIds,valid.parents,valid.forest,valid.chunkNodes,valid.chunkIds,valid.chunkPlaces,
    valid.flatNames,?_,nodup_snoc valid.blobIds fresh,nodup_snoc valid.blobNames freshName,valid.bufferNodes⟩
  intro row member blob offset length kind
  obtain ⟨known,there,same⟩ := valid.chunkBlobs row member blob offset length kind
  exact ⟨known,List.mem_append_left _ there,same⟩

theorem insert_file_valid (valid : Valid m) (effect : FileInserted m node chunks n) : Valid n := by
  have rows := insert_chunks_valid (insert_node_valid valid effect.inserted) effect.rows
  rwa [effect.result]

theorem register_valid (valid : Valid m) (effect : EpochBlobRegistered m record rows n) : Valid n := by
  have registered := insert_chunks_valid (insert_epoch_blob_valid valid effect.blob) effect.rows
  rwa [effect.result]

theorem stage_valid (valid : Valid m) (effect : FileStaged m node entry n) (own : entry.nodeId = node.nodeId) :
    Valid n := by
  have inserted := insert_node_valid valid effect.inserted
  rw [effect.result]
  refine {inserted with bufferNodes := ?_}
  intro other member
  rcases List.mem_append.mp member with old | new
  · exact inserted.bufferNodes other old
  · rw [List.mem_singleton.mp new,own]
    exact ⟨node,by simp,rfl⟩

theorem clear_buffer_valid (valid : Valid m) : Valid {m with epochBuffer := []} :=
  {valid with bufferNodes := by simp}

theorem commit_valid (valid : Valid m) (accepted : commitEpochFlush m record extents newV4 = .ok n) : Valid n := by
  obtain ⟨packed,registered,rfl⟩ := commit_epoch_flush.mp accepted
  exact clear_buffer_valid (register_valid valid (reinsert_epoch_blob registered))

theorem mem_subtree : x ∈ subtree m id ↔
    (m.node? id).isSome ∧ Relation.ReflTransGen (Linked (parentEdges m)) id x := by
  unfold subtree
  split
  · rename_i found
    simp [mem_closure,found]
  · rename_i missing
    simp [missing]

theorem linked_iff : Linked (parentEdges m) p x ↔ ∃ node ∈ m.nodes, node.parentId = some p ∧ node.nodeId = x := by
  simp only [Linked,parentEdges,List.mem_filterMap,Option.map_eq_some_iff,Prod.mk.injEq]
  constructor
  · rintro ⟨node,member,_,named,rfl,rfl⟩
    exact ⟨node,member,named,rfl⟩
  · rintro ⟨node,member,named,rfl⟩
    exact ⟨node,member,p,named,rfl,rfl⟩

theorem subtree_root (found : (m.node? id).isSome) : id ∈ subtree m id :=
  mem_subtree.mpr ⟨found,.refl⟩

theorem subtree_child (above : p ∈ subtree m id) (member : node ∈ m.nodes) (named : node.parentId = some p) :
    node.nodeId ∈ subtree m id := by
  obtain ⟨found,path⟩ := mem_subtree.mp above
  exact mem_subtree.mpr ⟨found,path.tail (linked_iff.mpr ⟨node,member,named,rfl⟩)⟩

theorem update_nodes_valid (valid : Valid m) {change : Node → Node}
    (sameId : ∀ node, (change node).nodeId = node.nodeId)
    (sameKind : ∀ node, (change node).nodeType = node.nodeType)
    (parents : ∀ node ∈ m.nodes, ∀ p, (change node).parentId = some p →
      ∃ dir ∈ m.nodes, dir.nodeId = p ∧ dir.nodeType = .directory)
    (forest : ∃ rank : Uuid → Nat, ∀ node ∈ m.nodes, ∀ p, (change node).parentId = some p →
      rank p < rank node.nodeId) : Valid {m with nodes := m.nodes.map change} := by
  have moved {x : Uuid} (kind : Node → Prop) (keeps : ∀ node, kind node → kind (change node)) :
      (∃ node ∈ m.nodes, node.nodeId = x ∧ kind node) →
      ∃ node ∈ m.nodes.map change, node.nodeId = x ∧ kind node := by
    rintro ⟨node,member,same,held⟩
    exact ⟨change node,List.mem_map_of_mem member,(sameId node).trans same,keeps node held⟩
  have present {x : Uuid} (found : ∃ node ∈ m.nodes, node.nodeId = x) :
      ∃ node ∈ m.nodes.map change, node.nodeId = x := by
    obtain ⟨node,member,same,_⟩ := moved (fun _ => True) (fun _ _ => trivial)
      (let ⟨node,member,same⟩ := found; ⟨node,member,same,trivial⟩)
    exact ⟨node,member,same⟩
  refine ⟨?_,?_,?_,fun row member => present (valid.chunkNodes row member),valid.chunkIds,valid.chunkPlaces,
    valid.flatNames,valid.chunkBlobs,valid.blobIds,valid.blobNames,
    fun entry member => present (valid.bufferNodes entry member)⟩
  · have same : (m.nodes.map change).map (·.nodeId) = m.nodes.map (·.nodeId) := by
      rw [List.map_map]
      exact List.map_congr_left fun node _ => sameId node
    rw [same]
    exact valid.nodeIds
  · intro node member p named
    obtain ⟨old,there,rfl⟩ := List.mem_map.mp member
    exact moved (fun dir => dir.nodeType = .directory)
      (fun dir kind => (sameKind dir).trans kind) (parents old there p named)
  · obtain ⟨rank,ranked⟩ := forest
    refine ⟨rank,fun node member p named => ?_⟩
    obtain ⟨old,there,rfl⟩ := List.mem_map.mp member
    rw [sameId]
    exact ranked old there p named

theorem rename_valid (valid : Valid m) (accepted : renameNode m id name modifiedAt = .ok n) : Valid n := by
  rw [rename_node accepted]
  have same (node : Node) : (if node.nodeId = id then
      {node with name := name,modifiedAt := modifiedAt} else node).parentId = node.parentId := by
    split <;> rfl
  refine update_nodes_valid valid (fun node => by split <;> rfl) (fun node => by split <;> rfl) ?_ ?_
  · intro node member p named
    exact valid.parents node member p (same node ▸ named)
  · obtain ⟨rank,ranked⟩ := valid.forest
    exact ⟨rank,fun node member p named => ranked node member p (same node ▸ named)⟩

theorem move_valid (valid : Valid m) (effect : NodeMoved m id parent modifiedAt n) : Valid n := by
  obtain ⟨result,found,target⟩ := effect
  rw [result]
  refine update_nodes_valid valid (fun node => by split <;> rfl) (fun node => by split <;> rfl) ?_ ?_
  · intro node member p named
    split at named
    · exact (target p named).1
    · exact valid.parents node member p named
  · obtain ⟨rank,ranked⟩ := valid.forest
    let lift := (parent.elim 0 rank) + 1
    refine ⟨fun x => if x ∈ subtree m id then rank x + lift else rank x,?_⟩
    intro node member p named
    split at named
    · rename_i same
      have here : parent = some p := named
      obtain ⟨_,outside⟩ := target p here
      have inside : node.nodeId ∈ subtree m id := by rw [same]; exact subtree_root found
      simp only [if_pos inside,if_neg outside,lift,here,Option.elim_some]
      omega
    · have below := ranked node member p named
      by_cases inside : p ∈ subtree m id
      · simp only [if_pos inside,if_pos (subtree_child inside member named)]
        omega
      · simp only [if_neg inside]
        split <;> omega

theorem delete_valid (valid : Valid m) (effect : NodeDeleted m id now n) : Valid n := by
  have outside {x : Uuid} (found : ∃ node ∈ m.nodes, node.nodeId = x) (kept : x ∉ subtree m id) :
      ∃ node ∈ n.nodes, node.nodeId = x := by
    obtain ⟨node,member,same⟩ := found
    rw [effect.nodes]
    exact ⟨node,List.mem_filter.mpr ⟨member,by simpa [same] using kept⟩,same⟩
  have nodesSub : n.nodes.Sublist m.nodes := effect.nodes ▸ List.filter_sublist
  have chunksSub : n.chunks.Sublist m.chunks := effect.chunks ▸ List.filter_sublist
  have blobsSub : n.epochBlobs.Sublist m.epochBlobs := effect.epochBlobs ▸ List.filter_sublist
  refine ⟨valid.nodeIds.sublist (nodesSub.map _),?_,?_,?_,valid.chunkIds.sublist chunksSub,
    valid.chunkPlaces.sublist chunksSub,valid.flatNames.sublist chunksSub,?_,
    valid.blobIds.sublist (blobsSub.map _),valid.blobNames.sublist (blobsSub.map _),?_⟩
  · intro node member p named
    obtain ⟨old,kept⟩ := List.mem_filter.mp (effect.nodes ▸ member)
    obtain ⟨dir,there,same,kind⟩ := valid.parents node old p named
    -- a surviving child has a surviving parent, or the cascade had taken it
    have above : p ∉ subtree m id := fun gone => by
      have := subtree_child gone old named
      simp_all
    rw [effect.nodes]
    exact ⟨dir,List.mem_filter.mpr ⟨there,by simpa [same] using above⟩,same,kind⟩
  · obtain ⟨rank,ranked⟩ := valid.forest
    exact ⟨rank,fun node member => ranked node (nodesSub.subset member)⟩
  · intro row member
    obtain ⟨old,kept⟩ := List.mem_filter.mp (effect.chunks ▸ member)
    exact outside (valid.chunkNodes row old) (by simpa using kept)
  · intro row member blob offset length kind
    obtain ⟨record,there,same⟩ := valid.chunkBlobs row (chunksSub.subset member) blob offset length kind
    rw [effect.epochBlobs]
    refine ⟨record,List.mem_filter.mpr ⟨there,?_⟩,same⟩
    simp only [decide_eq_true_eq]
    exact ⟨row,member,by simp [epochIdOf,kind,same]⟩
  · intro entry member
    obtain ⟨old,kept⟩ := List.mem_filter.mp (effect.epochBuffer ▸ member)
    exact outside (valid.bufferNodes entry old) (by simpa using kept)

end ArxRuna.Store.Integrity
