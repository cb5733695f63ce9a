import ArxRuna.Store.Integrity
namespace ArxRuna.Store.Removal
open Library.Aead Library.Closure Library.Fallible Crypto Store.Tables Store.Operations Store.Effects Store.Integrity
variable {m n : Manifest} {node : Node} {row : ChunkRow} {id : Uuid} {gone : List Uuid}

-- `n` is `m` with the nodes of `gone` and everything that hangs on them taken
-- out. Epoch blobs that no remaining chunk needs may be gone too.
structure Without (m : Manifest) (gone : List Uuid) (n : Manifest) : Prop where
  nodes : n.nodes = m.nodes.filter fun node => node.nodeId ∉ gone
  chunks : n.chunks = m.chunks.filter fun row => row.nodeId ∉ gone
  blobs : ∀ record ∈ n.epochBlobs, record ∈ m.epochBlobs
  needed : ∀ record ∈ m.epochBlobs, (∃ row ∈ n.chunks, epochIdOf row = some record.epochBlobId) →
    record ∈ n.epochBlobs

theorem Without.refl (m : Manifest) : Without m [] m :=
  ⟨by simp,by simp,fun _ member => member,fun _ member _ => member⟩

theorem Without.trans (first : Without m left middle) (second : Without middle right n) :
    Without m (left ++ right) n := by
  have both (x : Uuid) : (decide (x ∉ right) && decide (x ∉ left)) = decide (x ∉ left ++ right) := by
    simp only [List.mem_append,not_or,Bool.decide_and,Bool.and_comm]
  refine ⟨?_,?_,fun record member => first.blobs record (second.blobs record member),fun record member found => ?_⟩
  · rw [second.nodes,first.nodes,List.filter_filter]
    exact List.filter_congr fun node _ => both node.nodeId
  · rw [second.chunks,first.chunks,List.filter_filter]
    exact List.filter_congr fun row _ => both row.nodeId
  · obtain ⟨row,there,points⟩ := found
    have earlier : row ∈ middle.chunks := List.mem_of_mem_filter (second.chunks ▸ there)
    exact second.needed record (first.needed record member ⟨row,earlier,points⟩) ⟨row,there,points⟩

theorem Without.congr (without : Without m left n) (same : ∀ x, x ∈ left ↔ x ∈ right) : Without m right n := by
  refine ⟨?_,?_,without.blobs,without.needed⟩
  · rw [without.nodes]
    exact List.filter_congr fun node _ => by simp only [same]
  · rw [without.chunks]
    exact List.filter_congr fun row _ => by simp only [same]

theorem delete_without (effect : NodeDeleted m id now n) : Without m (subtree m id) n := by
  refine ⟨effect.nodes,effect.chunks,fun record member => ?_,fun record member found => ?_⟩
  · exact List.mem_of_mem_filter (effect.epochBlobs ▸ member)
  · rw [effect.epochBlobs]
    exact List.mem_filter.mpr ⟨member,by simpa using found⟩

theorem Without.mem_nodes (without : Without m gone n) : node ∈ n.nodes ↔ node ∈ m.nodes ∧ node.nodeId ∉ gone := by
  rw [without.nodes,List.mem_filter,decide_eq_true_eq]

theorem Without.mem_chunks (without : Without m gone n) : row ∈ n.chunks ↔ row ∈ m.chunks ∧ row.nodeId ∉ gone := by
  rw [without.chunks,List.mem_filter,decide_eq_true_eq]

-- A set that can be taken out of a valid manifest is closed downwards.
theorem Without.child (without : Without m gone n) (after : Valid n) (member : node ∈ m.nodes)
    (named : node.parentId = some p) (above : p ∈ gone) : node.nodeId ∈ gone := by
  by_contra kept
  obtain ⟨dir,there,same,_⟩ := after.parents node (without.mem_nodes.mpr ⟨member,kept⟩) p named
  exact (without.mem_nodes.mp there).2 (same ▸ above)

theorem Without.subtree_inside (without : Without m gone n) (after : Valid n) (top : id ∈ gone) :
    ∀ x ∈ subtree m id, x ∈ gone := by
  intro x member
  obtain ⟨_,path⟩ := mem_subtree.mp member
  induction path with
  | refl => exact top
  | tail _ link ih =>
    obtain ⟨node,there,named,rfl⟩ := linked_iff.mp link
    exact without.child after there named (ih (mem_subtree.mpr ⟨(mem_subtree.mp member).1,‹_›⟩))

theorem Without.subtree_mono (without : Without m gone n) : ∀ x ∈ subtree n id, x ∈ subtree m id := by
  intro x member
  obtain ⟨found,path⟩ := mem_subtree.mp member
  refine mem_subtree.mpr ⟨?_,Relation.ReflTransGen.mono (fun a b link => ?_) _ _ path⟩
  · obtain ⟨node,there,named⟩ := node?_isSome.mp found
    exact node?_isSome.mpr ⟨node,(without.mem_nodes.mp there).1,named⟩
  · obtain ⟨node,there,named,same⟩ := linked_iff.mp link
    exact linked_iff.mpr ⟨node,(without.mem_nodes.mp there).1,named,same⟩

theorem Without.epochBlob? (without : Without m gone n) (before : Valid m) (after : Valid n)
    (member : row ∈ n.chunks) (points : epochIdOf row = some blob) : n.epochBlob? blob = m.epochBlob? blob := by
  cases found : n.epochBlob? blob with
  | some record =>
    obtain ⟨there,named⟩ := after.epochBlob?.mp found
    exact (before.epochBlob?.mpr ⟨without.blobs record there,named⟩).symm
  | none =>
    refine (epochBlob?_none.mpr fun record there named => ?_).symm
    exact epochBlob?_none.mp found record (without.needed record there ⟨row,member,named ▸ points⟩) named

theorem Without.resolve (without : Without m gone n) (before : Valid m) (after : Valid n)
    (member : row ∈ n.chunks) : row.resolve n = row.resolve m := by
  unfold ChunkRow.resolve
  cases kind : row.source with
  | flat name => rfl
  | epoch blob offset length =>
    simp only [without.epochBlob? before after member (by simp [epochIdOf,kind] : epochIdOf row = some blob)]

theorem Without.rowsOf (without : Without m gone n) (outside : id ∉ gone) : chunkRowsOf n id = chunkRowsOf m id := by
  unfold chunkRowsOf
  rw [without.chunks,List.filter_filter]
  congr 1
  refine List.filter_congr fun row _ => ?_
  by_cases same : row.nodeId = id
  · simp [same,outside]
  · simp [same]

theorem Without.getChunks (without : Without m gone n) (before : Valid m) (after : Valid n)
    (outside : id ∉ gone) : getChunks n id = getChunks m id := by
  unfold Tables.getChunks
  rw [← without.rowsOf outside]
  refine mapM_congr fun row member => ?_
  exact without.resolve before after (mem_chunkRowsOf.mp member).1

def Uses (m : Manifest) (id : Uuid) (name : BlobName) : Prop :=
  ∃ chunks, Tables.getChunks m id = .ok chunks ∧ ∃ chunk ∈ chunks, chunk.blobName = name

theorem Without.uses (without : Without m gone n) (before : Valid m) (after : Valid n) (outside : id ∉ gone) :
    Uses n id name ↔ Uses m id name := by
  rw [Uses,Uses,without.getChunks before after outside]

end ArxRuna.Store.Removal
