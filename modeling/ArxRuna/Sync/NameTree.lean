import ArxRuna.Store.Integrity
import Mathlib.Data.List.Pairwise
namespace ArxRuna.Sync.NameTree
open Crypto Store.Tables Store.Operations Store.Effects Store.Integrity

-- What stands under a directory, by the names on the way to it and its own.
abbrev Tree := List String → String → Option NodeType

def Tree.put (tree : Tree) (dir : List String) (name : String) (kind : NodeType) : Tree := fun d n =>
  if d = dir ∧ n = name then some kind else tree d n

-- The directories of a path, made where they are missing; a file may be in the way.
def Tree.makeParents (tree : Tree) (dir : List String) : List String → Option Tree
  | [] => some tree
  | component :: rest =>
    match tree dir component with
    | some .directory => Tree.makeParents tree (dir ++ [component]) rest
    | some .file => none
    | none => Tree.makeParents (tree.put dir component .directory) (dir ++ [component]) rest

def childAt (m : Manifest) (parent : Uuid) (name : String) : Option Node :=
  m.nodes.find? fun node => node.parentId = some parent ∧ node.name = name

def idAt (m : Manifest) (current : Uuid) : List String → Option Uuid
  | [] => some current
  | component :: rest => (childAt m current component).bind fun child => idAt m child.nodeId rest

def dirAt (m : Manifest) (dir : List String) : Option Uuid := m.manifestMeta.rootId.bind (idAt m · dir)

def treeOf (m : Manifest) : Tree := fun dir name =>
  (dirAt m dir).bind fun parent => (childAt m parent name).map (·.nodeType)

def Siblings (m : Manifest) : Prop :=
  m.nodes.Pairwise fun a b => a.parentId = b.parentId → a.parentId ≠ none → a.name ≠ b.name

def Named (m : Manifest) (parent : Uuid) (name : String) : Prop :=
  ∃ node ∈ m.nodes, node.parentId = some parent ∧ node.name = name

variable {m n : Manifest} {node child : Node} {root parent current p : Uuid} {name : String} {dir d e : List String}

theorem tree_at (m : Manifest) (d : List String) (name : String) :
    treeOf m d name = (dirAt m d).bind fun parent => (childAt m parent name).map (·.nodeType) := rfl

theorem put_at (tree : Tree) (kind : NodeType) (d dir : List String) (name other : String) :
    tree.put dir name kind d other = if d = dir ∧ other = name then some kind else tree d other := rfl

theorem parents_cons (tree : Tree) (dir : List String) (component : String) (rest : List String) :
    tree.makeParents dir (component :: rest) = match tree dir component with
      | some .directory => tree.makeParents (dir ++ [component]) rest
      | some .file => none
      | none => (tree.put dir component .directory).makeParents (dir ++ [component]) rest := rfl

theorem id_congr (nodes : n.nodes = m.nodes) (d : List String) (current : Uuid) : idAt n current d = idAt m current d := by
  induction d generalizing current with
  | nil => rfl
  | cons component rest ih =>
    rw [idAt,idAt,childAt,childAt,nodes]
    cases m.nodes.find? fun node => node.parentId = some current ∧ node.name = component with
    | none => rfl
    | some child => exact ih child.nodeId

theorem tree_congr (nodes : n.nodes = m.nodes) (values : n.manifestMeta = m.manifestMeta) : treeOf n = treeOf m := by
  funext d name
  have dirs : dirAt n d = dirAt m d := by
    unfold dirAt
    rw [values]
    simp only [id_congr nodes]
  rw [tree_at,tree_at,dirs]
  unfold childAt
  rw [nodes]

theorem child_some (found : childAt m parent name = some child) :
    child ∈ m.nodes ∧ child.parentId = some parent ∧ child.name = name := by
  have holds := List.find?_some found
  exact ⟨List.mem_of_find?_eq_some found,of_decide_eq_true holds⟩

theorem child_none : childAt m parent name = none ↔ ¬ Named m parent name := by
  simp [childAt,Named,List.find?_eq_none]

theorem children_named : (listChildren m parent).any (·.name = name) = true ↔ Named m parent name := by
  simp only [List.any_eq_true,decide_eq_true_eq,Named,listChildren,(List.perm_insertionSort _ _).mem_iff,
    List.mem_filter,and_assoc]

theorem siblings_apart (distinct : Siblings m) (member : node ∈ m.nodes) (other : child ∈ m.nodes)
    (under : node.parentId = some parent) (under' : child.parentId = some parent) (called : node.name = child.name) :
    node = child := by
  by_contra differ
  have symmetric : Std.Symm fun a b : Node => a.parentId = b.parentId → a.parentId ≠ none → a.name ≠ b.name :=
    ⟨fun _ _ apart same under called => apart same.symm (same ▸ under) called.symm⟩
  exact List.Pairwise.forall distinct member other differ (under.trans under'.symm) (by rw [under]; simp) called

theorem child_listed (distinct : Siblings m) :
    (listChildren m parent).find? (·.name = name) = childAt m parent name := by
  cases found : (listChildren m parent).find? (·.name = name) with
  | none =>
    symm
    rw [child_none]
    intro named
    obtain ⟨child,member,called⟩ := List.any_eq_true.mp (children_named.mpr named)
    exact List.find?_eq_none.mp found child member called
  | some child =>
    have called : child.name = name := by simpa using List.find?_some found
    have member := List.mem_of_find?_eq_some found
    simp only [listChildren,(List.perm_insertionSort _ _).mem_iff,List.mem_filter,decide_eq_true_eq] at member
    cases here : childAt m parent name with
    | none => exact absurd ⟨child,member.1,member.2,called⟩ (child_none.mp here)
    | some other =>
      obtain ⟨there,under,called'⟩ := child_some here
      rw [siblings_apart distinct member.1 there member.2 under (called.trans called'.symm)]

theorem id_snoc (name : String) : ∀ (d : List String) (current : Uuid),
    idAt m current (d ++ [name]) = (idAt m current d).bind fun p => (childAt m p name).map (·.nodeId)
  | [],current => by
    simp only [List.nil_append,idAt,Option.bind_some]
    cases childAt m current name <;> rfl
  | component :: rest,current => by
    simp only [List.cons_append,idAt]
    cases childAt m current component with
    | none => rfl
    | some child => exact id_snoc name rest child.nodeId

theorem dir_root (m : Manifest) : dirAt m [] = m.manifestMeta.rootId := by
  unfold dirAt
  cases m.manifestMeta.rootId <;> rfl

theorem dir_snoc : dirAt m (d ++ [name]) = (dirAt m d).bind fun p => (childAt m p name).map (·.nodeId) := by
  unfold dirAt
  cases m.manifestMeta.rootId with
  | none => rfl
  | some root => exact id_snoc name d root

theorem dir_step (found : dirAt m (d ++ [name]) = some p) : ∃ q child, dirAt m d = some q ∧
    childAt m q name = some child ∧ child.nodeId = p := by
  rw [dir_snoc] at found
  obtain ⟨q,here,found⟩ := Option.bind_eq_some_iff.mp found
  obtain ⟨child,there,same⟩ := Option.map_eq_some_iff.mp found
  exact ⟨q,child,here,there,same⟩

theorem root_above {rank : Uuid → Nat}
    (ranked : ∀ node ∈ m.nodes, ∀ p, node.parentId = some p → rank p < rank node.nodeId)
    (start : dirAt m [] = some root) (found : dirAt m d = some p) : rank root ≤ rank p ∧ (d ≠ [] → rank root < rank p) := by
  induction d using List.reverseRecOn generalizing p with
  | nil =>
    cases start.symm.trans found
    exact ⟨Nat.le_refl _,fun impossible => absurd rfl impossible⟩
  | append_singleton d name ih =>
    obtain ⟨q,child,here,there,rfl⟩ := dir_step found
    obtain ⟨member,under,_⟩ := child_some there
    have lower := ranked child member q under
    have := (ih here).1
    exact ⟨by omega,fun _ => by omega⟩

theorem root_there (found : dirAt m d = some p) : ∃ root, dirAt m [] = some root := by
  unfold dirAt at found ⊢
  obtain ⟨root,there,_⟩ := Option.bind_eq_some_iff.mp found
  rw [there]
  exact ⟨root,rfl⟩

theorem paths_apart (valid : Valid m) (one : dirAt m d = some p) (two : dirAt m e = some p) : d = e := by
  obtain ⟨rank,ranked⟩ := valid.forest
  obtain ⟨root,start⟩ := root_there one
  induction d using List.reverseRecOn generalizing e p with
  | nil =>
    cases start.symm.trans one
    by_contra differ
    exact Nat.lt_irrefl _ ((root_above ranked start two).2 (Ne.symm differ))
  | append_singleton d name ih =>
    obtain ⟨q,child,here,there,rfl⟩ := dir_step one
    obtain ⟨member,under,called⟩ := child_some there
    rcases List.eq_nil_or_concat' e with rfl | ⟨e,name',rfl⟩
    · cases start.symm.trans two
      exact absurd ((root_above ranked start one).2 (by simp)) (Nat.lt_irrefl _)
    · obtain ⟨q',child',here',there',same⟩ := dir_step two
      obtain ⟨member',under',called'⟩ := child_some there'
      obtain rfl := List.inj_on_of_nodup_map valid.nodeIds member' member same
      cases under.symm.trans under'
      rw [ih here here',← called,called']

section Inserted
variable (valid : Valid m) (after : Valid n) (nodes : n.nodes = m.nodes ++ [node])
  (values : n.manifestMeta = m.manifestMeta) (under : node.parentId = some parent) (here : dirAt m dir = some parent)
  (free : ¬ Named m parent node.name)
include nodes under free

theorem child_inserted : childAt n p name = if p = parent ∧ name = node.name then some node else childAt m p name := by
  have old : childAt n p name = (childAt m p name).or (if p = parent ∧ name = node.name then some node else none) := by
    rw [childAt,nodes,List.find?_append,childAt]
    congr 1
    by_cases same : p = parent ∧ name = node.name
    · rw [if_pos same]
      simp [under,same.1,same.2]
    · rw [if_neg same]
      have apart : ¬ (node.parentId = some p ∧ node.name = name) := by
        rw [under]
        rintro ⟨child,called⟩
        exact same ⟨(Option.some.inj child).symm,called.symm⟩
      simp [apart]
  rw [old]
  split
  · rename_i same
    rw [same.1,same.2,child_none.mpr free,Option.none_or]
  · rw [Option.or_none]

omit under free
include valid after

theorem new_childless (name : String) : childAt n node.nodeId name = none := by
  rw [child_none]
  rintro ⟨other,member,child,_⟩
  rw [nodes,List.mem_append,List.mem_singleton] at member
  rcases member with old | rfl
  · obtain ⟨found,there,same,_⟩ := valid.parents other old _ child
    have unique := after.nodeIds
    rw [nodes,List.map_append,List.nodup_append] at unique
    exact unique.2.2 _ (List.mem_map_of_mem there) _ (by simp) same
  · obtain ⟨rank,ranked⟩ := after.forest
    exact Nat.lt_irrefl _ (ranked other (by rw [nodes]; simp) _ child)

include values under here free

theorem dirs_inserted (d : List String) : (d ≠ dir ++ [node.name] ∧ dirAt n d = dirAt m d) ∨
    (d = dir ++ [node.name] ∧ dirAt n d = some node.nodeId ∧ dirAt m d = none) := by
  induction d using List.reverseRecOn with
  | nil =>
    refine .inl ⟨by simp,?_⟩
    unfold dirAt
    rw [values]
    rfl
  | append_singleton d name ih =>
    rcases ih with ⟨_,same⟩ | ⟨rfl,new,none⟩
    · rw [dir_snoc,dir_snoc,same]
      cases found : dirAt m d with
      | none =>
        refine .inl ⟨?_,rfl⟩
        intro equal
        rw [(List.append_inj' equal rfl).1,here] at found
        cases found
      | some p =>
        rw [Option.bind_some,Option.bind_some,child_inserted nodes under free]
        by_cases inserted : p = parent ∧ name = node.name
        · obtain ⟨rfl,rfl⟩ := inserted
          rw [if_pos ⟨rfl,rfl⟩,child_none.mpr free,paths_apart valid found here]
          exact .inr ⟨rfl,rfl,rfl⟩
        · rw [if_neg inserted]
          refine .inl ⟨fun equal => inserted ?_,rfl⟩
          obtain ⟨rfl,last⟩ := List.append_inj' equal rfl
          exact ⟨Option.some.inj (found.symm.trans here),List.singleton_inj.mp last⟩
    · refine .inl ⟨by simp,?_⟩
      rw [(dir_snoc : dirAt n (dir ++ [node.name] ++ [name]) = _),(dir_snoc : dirAt m (dir ++ [node.name] ++ [name]) = _),
        new,none,Option.bind_some,new_childless valid after nodes]
      rfl

theorem tree_inserted : treeOf n = (treeOf m).put dir node.name node.nodeType := by
  funext d name
  rw [put_at,tree_at,tree_at]
  rcases dirs_inserted valid after nodes values under here free d with ⟨_,same⟩ | ⟨rfl,new,none⟩
  · rw [same]
    cases found : dirAt m d with
    | none =>
      have apart : ¬ (d = dir ∧ name = node.name) := by
        rintro ⟨rfl,_⟩
        rw [here] at found
        cases found
      rw [if_neg apart]
      rfl
    | some p =>
      rw [Option.bind_some,Option.bind_some,child_inserted nodes under free]
      by_cases inserted : p = parent ∧ name = node.name
      · obtain ⟨rfl,rfl⟩ := inserted
        rw [if_pos ⟨rfl,rfl⟩,if_pos ⟨paths_apart valid found here,rfl⟩]
        rfl
      · rw [if_neg inserted,if_neg]
        rintro ⟨rfl,last⟩
        exact inserted ⟨Option.some.inj (found.symm.trans here),last⟩
  · rw [new,none,Option.bind_some,new_childless valid after nodes,if_neg (by simp)]
    rfl

theorem dir_made : dirAt n (dir ++ [node.name]) = some node.nodeId := by
  rcases dirs_inserted valid after nodes values under here free (dir ++ [node.name]) with ⟨other,_⟩ | ⟨_,made,_⟩
  · exact absurd rfl other
  · exact made

end Inserted

end ArxRuna.Sync.NameTree
