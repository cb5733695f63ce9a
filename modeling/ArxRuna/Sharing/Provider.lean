import ArxRuna.Cloud.Locations
import ArxRuna.Sharing.SessionConf
namespace ArxRuna.Sharing.Provider
open Library.Texts Library.Fallible RemotePath

-- A path below the root of a provider, as the names on the way.
structure Location where
  pieces : List Text
  proper : ∀ piece ∈ pieces, piece ≠ [] ∧ '/' ∉ piece
  deriving DecidableEq

def Location.top : Location := ⟨[],by simp⟩

def Location.within (base : Location) (path : Text) : Location := by
  refine ⟨base.pieces ++ segments '/' path,?_⟩
  intro piece member
  rcases List.mem_append.mp member with above | below
  · exact base.proper piece above
  · exact segments_proper path piece below

-- A B2 object lies in the bucket named first; a Drive object in folders below the
-- root of the drive.
inductive Object where
  | b2 (place : Location)
  | drive (place : Location)
  deriving DecidableEq

-- Folders of a drive by id.
structure Drive where
  folders : List (Text × Location)
  ids_distinct : (folders.map (·.1)).Nodup

def Drive.pathOf (drive : Drive) (id : Text) : Option Location := (drive.folders.find? (·.1 = id)).map (·.2)

def Drive.findDriveFolder (drive : Drive) (parentId name : Text) : Option Text := do
  let parent ← drive.pathOf parentId
  let found ← drive.folders.find? (·.2.pieces = parent.pieces ++ [name])
  pure found.1

-- The id of the root folder.
def rootAlias : Text := ['r','o','o','t']

def descend (drive : Drive) (pathPrefix parentId component : Text) : Except String Text :=
  match drive.findDriveFolder parentId component with
  | some found => .ok found
  | none => .error (String.ofList pathPrefix ++ " (component '" ++ String.ofList component ++
      "' not found under parent '" ++ String.ofList parentId ++ "')")

-- The second look after two seconds sees the same drive here.
def gdriveResolveFolderId (drive : Drive) (rootFolderId : Option Text) (pathPrefix : Text) : Except String Text :=
  let components := segments '/' pathPrefix
  if components = [] then .error (String.ofList pathPrefix)
  else components.foldlM (descend drive pathPrefix) (rootFolderId.getD rootAlias)

-- What a stanza of an rclone configuration gives access to.
inductive Remote where
  | b2 (account key : Text)
  | drive (rootFolderId : Option Text)
  deriving DecidableEq

def Remote.base (drive : Drive) : Remote → Option Location
  | .b2 .. => some .top
  | .drive rootFolderId => drive.pathOf (rootFolderId.getD rootAlias)

def Remote.wrap : Remote → Location → Object
  | .b2 .. => .b2
  | .drive _ => .drive

-- `remote:path` names the object at `path` below the root of the remote.
def Remote.object (drive : Drive) (path : Text) (remote : Remote) : Option Object :=
  (remote.base drive).map fun base => remote.wrap (base.within path)

structure RcloneTransport where
  remoteRoot : Text
  remote : Remote

def RcloneTransport.remoteTarget (t : RcloneTransport) (remotePath : Text) : Text :=
  Cloud.Locations.remoteTarget t.remoteRoot remotePath

def RcloneTransport.resolve (t : RcloneTransport) (drive : Drive) (target : Text) : Option Object :=
  (splitOnce ':' target).bind fun halves => t.remote.object drive halves.2

-- The object that upload, download and delete of this path work on.
def RcloneTransport.objectAt (t : RcloneTransport) (drive : Drive) (remotePath : Text) : Option Object :=
  match validateRemotePath remotePath with
  | .error _ => none
  | .ok path => t.resolve drive (t.remoteTarget path)

abbrev Objects := List Object

def Objects.put (objects : Objects) (object : Object) : Objects :=
  if object ∈ objects then objects else object :: objects

-- The path of an object below a directory, as `lsjson --recursive` prints it.
def relative (directory object : Object) : Option (List Text) :=
  match directory,object with
  | .b2 above,.b2 place | .drive above,.drive place =>
    if above.pieces.isPrefixOf place.pieces ∧ above ≠ place then some (place.pieces.drop above.pieces.length)
    else none
  | _,_ => none

def listedName (remotePrefix entry : Text) : Text :=
  if remotePrefix = [] ∨ remotePrefix.isPrefixOf entry then entry
  else trimEnd '/' remotePrefix ++ '/' :: trimStart '/' entry

-- A prefix that cannot be listed gives no names.
def RcloneTransport.listBlobs (t : RcloneTransport) (drive : Drive) (objects : Objects) (remotePrefix : Text) :
    List Text :=
  match validateRemotePrefix remotePrefix with
  | .error _ => []
  | .ok accepted =>
    match t.resolve drive (if accepted = [] then t.remoteRoot else t.remoteTarget accepted) with
    | none => []
    | some directory =>
      (((objects.filterMap (relative directory)).map fun entry => listedName accepted (join '/' entry))
        ).insertionSort (· ≤ ·)

variable {drive : Drive} {folder : Text}

@[ext] theorem location_ext {a b : Location} (same : a.pieces = b.pieces) : a = b := by
  cases a
  cases b
  cases same
  rfl

@[simp] theorem within_pieces (base : Location) (path : Text) :
    (base.within path).pieces = base.pieces ++ segments '/' path := rfl

theorem wrap_injective {remote : Remote} (same : remote.wrap a = remote.wrap b) : a = b := by
  cases remote <;> cases same <;> rfl

theorem relative_wrap {remote : Remote} : relative (remote.wrap above) object = some entry ↔
    ∃ place, object = remote.wrap place ∧ place.pieces = above.pieces ++ entry ∧ entry ≠ [] := by
  have within : ∀ place : Location, (if above.pieces.isPrefixOf place.pieces ∧ above ≠ place then
      some (place.pieces.drop above.pieces.length) else none) = some entry ↔
      place.pieces = above.pieces ++ entry ∧ entry ≠ [] := by
    intro place
    split
    · rename_i below
      obtain ⟨rest,shape⟩ := List.isPrefixOf_iff_prefix.mp below.1
      rw [← shape,List.drop_left,Option.some.injEq,List.append_cancel_left_eq]
      constructor
      · intro same
        refine ⟨same,?_⟩
        rintro rfl
        apply below.2
        apply location_ext
        rw [← shape,same,List.append_nil]
      · exact fun found => found.1
    · rename_i outside
      simp only [reduceCtorEq,false_iff,not_and,ne_eq]
      intro shape filled
      apply outside
      refine ⟨List.isPrefixOf_iff_prefix.mpr ⟨entry,shape.symm⟩,?_⟩
      rintro rfl
      exact filled (by simpa using shape)
  cases remote with
  | b2 account key =>
    cases object with
    | b2 place => exact (within place).trans (by simp [Remote.wrap])
    | drive place => simp [Remote.wrap,relative]
  | drive rootFolderId =>
    cases object with
    | b2 place => simp [Remote.wrap,relative]
    | drive place => exact (within place).trans (by simp [Remote.wrap])

theorem member_pathOf (member : (folder,place) ∈ drive.folders) : drive.pathOf folder = some place := by
  obtain ⟨folders,distinct⟩ := drive
  simp only [Drive.pathOf] at member ⊢
  induction folders with
  | nil => cases member
  | cons head rest ih =>
    obtain ⟨fresh,tail⟩ := List.nodup_cons.mp distinct
    rcases List.mem_cons.mp member with rfl | later
    · simp
    · have other : head.1 ≠ folder := by
        intro same
        exact fresh (List.mem_map.mpr ⟨_,later,same.symm⟩)
      rw [List.find?_cons_of_neg (by simpa using other)]
      exact ih tail later

theorem find_child (above : drive.pathOf parentId = some parent)
    (found : drive.findDriveFolder parentId name = some folder) :
    ∃ place, drive.pathOf folder = some place ∧ place.pieces = parent.pieces ++ [name] := by
  simp only [Drive.findDriveFolder,above,Option.bind_eq_bind,Option.bind_some,Option.bind_eq_some_iff] at found
  obtain ⟨⟨other,place⟩,here,same⟩ := found
  cases same
  exact ⟨place,member_pathOf (List.mem_of_find?_eq_some here),by simpa using List.find?_some here⟩

theorem descend_found (found : descend drive pathPrefix parentId name = .ok folder) :
    drive.findDriveFolder parentId name = some folder := by
  unfold descend at found
  split at found
  · rename_i here
    cases found
    exact here
  · cases found

theorem walk_path {components : List Text} (above : drive.pathOf start = some base)
    (walked : components.foldlM (descend drive pathPrefix) start = .ok folder) :
    ∃ place, drive.pathOf folder = some place ∧ place.pieces = base.pieces ++ components := by
  induction components generalizing start base with
  | nil =>
    cases walked
    exact ⟨base,above,by simp⟩
  | cons name rest ih =>
    rw [List.foldlM_cons,bind_ok] at walked
    obtain ⟨next,found,later⟩ := walked
    obtain ⟨middle,known,pieces⟩ := find_child above (descend_found found)
    obtain ⟨place,here,path⟩ := ih known later
    exact ⟨place,here,by rw [path,pieces,List.append_assoc]; rfl⟩

theorem walk_starts {components : List Text} (named : components ≠ [])
    (walked : components.foldlM (descend drive pathPrefix) start = .ok folder) :
    ∃ base, drive.pathOf start = some base := by
  obtain ⟨first,rest,rfl⟩ := List.exists_cons_of_ne_nil named
  rw [List.foldlM_cons,bind_ok] at walked
  obtain ⟨_,found,_⟩ := walked
  have here := descend_found found
  simp only [Drive.findDriveFolder,Option.bind_eq_bind,Option.bind_eq_some_iff] at here
  obtain ⟨base,known,_⟩ := here
  exact ⟨base,known⟩

-- A resolved folder is the one the path names below the root folder.
theorem resolved_folder (resolved : gdriveResolveFolderId drive rootFolderId pathPrefix = .ok folder) :
    ∃ base, drive.pathOf (rootFolderId.getD rootAlias) = some base ∧
      drive.pathOf folder = some (base.within pathPrefix) := by
  unfold gdriveResolveFolderId at resolved
  dsimp only at resolved
  split at resolved
  · cases resolved
  · rename_i named
    obtain ⟨base,above⟩ := walk_starts named resolved
    obtain ⟨place,here,pieces⟩ := walk_path above resolved
    refine ⟨base,above,?_⟩
    rw [here,location_ext (pieces.trans (within_pieces base pathPrefix).symm)]

end ArxRuna.Sharing.Provider
