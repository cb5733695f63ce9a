import ArxRuna.Sharing.Endpoint
namespace ArxRuna.Sharing.Address
open Library.Texts Library.JsonText Library.Fallible Crypto RemotePath SessionConf Provider Rows Endpoint

theorem hyphenated_allowed (id : Uuid) : ∀ c ∈ hyphenated id, allowed c = true := by
  intro c member
  unfold allowed
  rcases hyphenated_digits id c member with digit | rfl
  · simp [digit]
  · decide

theorem hyphenated_dots (id : Uuid) : (hyphenated id).count '.' = 0 := by
  rw [List.count_eq_zero]
  intro member
  rcases hyphenated_digits id _ member with digit | same
  · revert digit
    decide
  · revert same
    decide

-- What stands below the prefix of a share is accepted if it has plain characters
-- and at most one dot.
theorem below_share (fileShareId : Uuid) {rest : Text} (dots : rest.count '.' ≤ 1) (fine : ∀ c ∈ rest, allowed c = true) :
    validateRemotePath (sharePrefix fileShareId ++ rest) = .ok (sharePrefix fileShareId ++ rest) := by
  apply validated
  · simp [sharePrefix]
  · rfl
  · have none := hyphenated_dots fileShareId
    simpa [sharePrefix,sharedFolder,none] using dots
  · intro c member
    simp only [sharePrefix,List.mem_append,List.mem_cons] at member
    rcases member with (shared | rfl | digits | rfl | none) | below
    · have all : sharedFolder.all allowed = true := by decide
      exact List.all_eq_true.mp all c shared
    · decide
    · exact hyphenated_allowed _ c digits
    · decide
    · cases none
    · exact fine c below

theorem share_segments (fileShareId : Uuid) (rest : Text) : segments '/' (sharePrefix fileShareId ++ rest) =
    sharedFolder :: hyphenated fileShareId :: segments '/' rest := by
  have shape : sharePrefix fileShareId ++ rest = sharedFolder ++ '/' :: (hyphenated fileShareId ++ '/' :: rest) := by
    simp [sharePrefix]
  rw [shape,segments_append,segments_append,segments_piece (by decide) (by decide),
    segments_piece (hyphenated_whole _) (hyphenated_filled _)]
  rfl

-- A file name in a share's folders.
structure Leaf (name : Text) : Prop where
  filled : name ≠ []
  whole : '/' ∉ name
  dots : name.count '.' ≤ 1
  fine : ∀ c ∈ name, allowed c = true

theorem blobFile_leaf (name : Uuid) : Leaf (blobFile name) where
  filled := by simp [blobFile]
  whole := by
    simp only [blobFile,List.mem_append,not_or]
    exact ⟨hyphenated_whole _,by decide⟩
  dots := by
    rw [blobFile,List.count_append,hyphenated_dots]
    decide
  fine := by
    intro c member
    rcases List.mem_append.mp member with digits | rest
    · exact hyphenated_allowed _ c digits
    · have all : ['.','b','l','o','b'].all allowed = true := by decide
      exact List.all_eq_true.mp all c rest

theorem receiptBlobName_leaf : Leaf receiptBlobName :=
  ⟨by decide,by decide,by decide,List.all_eq_true.mp (by decide)⟩

theorem Leaf.segments {name : Text} (leaf : Leaf name) : segments '/' name = [name] :=
  segments_piece leaf.whole leaf.filled

theorem Leaf.valid {name : Text} (leaf : Leaf name) : validateRemotePath name = .ok name := by
  apply validated leaf.filled
  · cases name with
    | nil => rfl
    | cons c rest =>
      have other : ¬ '/' = c := fun same => leaf.whole (same ▸ List.mem_cons_self)
      simp [List.isPrefixOf,other]
  · exact leaf.dots
  · exact leaf.fine

theorem splitOnce_tail {text front back : Text} (split : splitOnce ':' text = some (front,back)) (tail : Text) :
    splitOnce ':' (text ++ tail) = some (front,back ++ tail) := by
  induction text generalizing front with
  | nil => cases split
  | cons c rest ih =>
    by_cases colon : c = ':'
    · simp only [splitOnce,if_pos colon,Option.some.injEq,Prod.mk.injEq] at split
      obtain ⟨rfl,rfl⟩ := split
      simp [splitOnce,colon]
    · simp only [splitOnce,if_neg colon,Option.map_eq_some_iff] at split
      obtain ⟨halves,here,same⟩ := split
      cases same
      simp [splitOnce,colon,ih here]

theorem resolve_target {t : RcloneTransport} {drive : Drive} (split : splitOnce ':' t.remoteRoot = some (name,path))
    (remotePath : Text) :
    t.resolve drive (t.remoteTarget remotePath) = t.remote.object drive (path ++ '/' :: trimStart '/' remotePath) := by
  rw [RcloneTransport.resolve,RcloneTransport.remoteTarget,Cloud.Locations.remoteTarget,splitOnce_tail split]
  rfl

theorem objectAt_valid {t : RcloneTransport} {drive : Drive} (split : splitOnce ':' t.remoteRoot = some (name,path))
    (valid : validateRemotePath remotePath = .ok remotePath) :
    t.objectAt drive remotePath = t.remote.object drive (path ++ '/' :: trimStart '/' remotePath) := by
  rw [RcloneTransport.objectAt,valid]
  exact resolve_target split remotePath

theorem joined_segments (path remotePath : Text) :
    segments '/' (path ++ '/' :: trimStart '/' remotePath) = segments '/' path ++ segments '/' remotePath := by
  rw [segments_append,segments_trimStart]

theorem get_setField (other : name' ≠ name) (marked : setField name value endpoint = some endpoint') :
    jsonGet name' endpoint' = jsonGet name' endpoint := by
  have skip : ∀ fields : Fields, (fields.filter (·.1 ≠ name)).find? (·.1 = name') = fields.find? (·.1 = name') := by
    intro fields
    rw [List.find?_filter]
    congr
    funext entry
    by_cases here : entry.1 = name'
    · simp [here,other]
    · simp [here]
  cases endpoint with
  | object fields =>
    cases marked
    have last : ¬ (name = name') := Ne.symm other
    simp only [jsonGet,List.reverse_append,List.reverse_cons,List.reverse_nil,List.nil_append,List.cons_append,
      ← List.filter_reverse]
    rw [List.find?_cons_of_neg (by simpa using last),skip]
  | null =>
    cases marked
    simp [jsonGet,Ne.symm other]
  | _ => cases marked

-- An endpoint that a B2 credential came with, and one for a Drive folder.
structure B2Endpoint (bucketName pathPrefix : Text) (endpoint : Json) : Prop where
  provider : jsonGet "provider" endpoint = some (.text "b2")
  bucket : jsonGet "bucket" endpoint = some (json bucketName)
  within : jsonGet "path_prefix" endpoint = some (json pathPrefix)
  keyId : ∃ keyId, jsonGet "key_id" endpoint = some (.text keyId)
  appKey : ∃ appKey, jsonGet "application_key" endpoint = some (.text appKey)

structure DriveEndpoint (folderId account : Text) (endpoint : Json) : Prop where
  provider : jsonGet "provider" endpoint = some (.text "drive")
  folder : jsonGet "folder_id" endpoint = some (json folderId)
  granted : jsonGet "sa_credentials_json" endpoint = some (json account)

def endpointFields : List String :=
  ["provider","bucket","path_prefix","key_id","application_key","folder_id","sa_credentials_json"]

theorem B2Endpoint.congr (same : ∀ name ∈ endpointFields, jsonGet name endpoint' = jsonGet name endpoint)
    (known : B2Endpoint bucketName pathPrefix endpoint) : B2Endpoint bucketName pathPrefix endpoint' where
  provider := (same _ (by decide)).trans known.provider
  bucket := (same _ (by decide)).trans known.bucket
  within := (same _ (by decide)).trans known.within
  keyId := by rw [same _ (by decide)]; exact known.keyId
  appKey := by rw [same _ (by decide)]; exact known.appKey

theorem DriveEndpoint.congr (same : ∀ name ∈ endpointFields, jsonGet name endpoint' = jsonGet name endpoint)
    (known : DriveEndpoint folderId account endpoint) : DriveEndpoint folderId account endpoint' where
  provider := (same _ (by decide)).trans known.provider
  folder := (same _ (by decide)).trans known.folder
  granted := (same _ (by decide)).trans known.granted

theorem setField_object (fields : Fields) (name : String) (value : Json) :
    ∃ fields', setField name value (.object fields) = some (.object fields') := ⟨_,rfl⟩

theorem received_endpoint (fields : Fields) (fileSize : Nat) :
    ∃ endpoint, receivedEndpoint (.object fields) fileSize = some endpoint ∧
      ∀ name ∈ endpointFields, jsonGet name endpoint = jsonGet name (.object fields) := by
  obtain ⟨marked,first⟩ := setField_object fields "receipt_requested" (.bool true)
  have kept : ∀ name ∈ endpointFields, jsonGet name (.object marked) = jsonGet name (.object fields) := by
    intro name member
    apply get_setField _ first
    rintro rfl
    revert member
    decide
  by_cases empty : fileSize = 0
  · exact ⟨.object marked,by simp [receivedEndpoint,first,empty],kept⟩
  · obtain ⟨sized,second⟩ := setField_object marked "_file_size" (.number fileSize)
    refine ⟨.object sized,by simp [receivedEndpoint,first,second,empty],?_⟩
    intro name member
    rw [← kept name member]
    apply get_setField _ second
    rintro rfl
    revert member
    decide

theorem b2_issued {services : Services}
    (issued : generateB2ShareCredentials services sender pathPrefix ttl keyId appKey = .ok (some creds)) :
    ∃ bucketName fields, b2BucketName sender = some bucketName ∧ creds = .object fields ∧
      B2Endpoint bucketName pathPrefix creds := by
  simp only [generateB2ShareCredentials,bind_ok,pure_ok,given_ok] at issued
  obtain ⟨bucketName,named,url,_,bucketId,_,appKey,_,same⟩ := issued
  cases same
  exact ⟨bucketName,_,named,rfl,rfl,rfl,rfl,⟨_,rfl⟩,⟨_,rfl⟩⟩

theorem drive_issued {services : Services} {drive : Drive}
    (issued : generateGdriveShareCredentials services drive sender conf pathPrefix oauth = .ok (some creds)) :
    ∃ account folderId fields, sender.sharingConfig = some account ∧
      gdriveResolveFolderId drive oauth.rootFolderId (fullDrivePath sender pathPrefix) = .ok folderId ∧
      creds = .object fields ∧ DriveEndpoint folderId (services.writeJson account) creds := by
  simp only [generateGdriveShareCredentials,bind_ok,pure_ok,given_ok,mapError_ok] at issued
  obtain ⟨account,stored,email,_,token,_,folderId,resolved,permission,_,same⟩ := issued
  cases same
  exact ⟨account,folderId,_,stored,resolved,rfl,rfl,rfl,rfl⟩

def receiptPath (fileShareId : Uuid) (kind : ReceiptKind) (leaf : Text) : Text :=
  sharePrefix fileShareId ++ (kind.folder ++ '/' :: leaf)

def namesBefore (drive : Drive) (t : RcloneTransport) (objects : Objects) (share : ShareRecord) (kind : ReceiptKind)
    (name : Text) : Nat := ((receiptNames drive t objects share kind).filter (· < name)).length

section Listing
variable {t : RcloneTransport} {drive : Drive} {fileShareId : Uuid} {kind : ReceiptKind} {leaf : Text}

theorem folder_leaf (kind : ReceiptKind) : Leaf kind.folder := by
  cases kind <;> exact ⟨by decide,by decide,by decide,List.all_eq_true.mp (by decide)⟩

theorem folder_dots (kind : ReceiptKind) : kind.folder.count '.' = 0 := by
  cases kind <;> decide

theorem receiptPath_valid (plain : Leaf leaf) :
    validateRemotePath (receiptPath fileShareId kind leaf) = .ok (receiptPath fileShareId kind leaf) := by
  apply below_share
  · have one := plain.dots
    simpa [folder_dots] using one
  · intro c member
    simp only [List.mem_append,List.mem_cons] at member
    rcases member with front | rfl | back
    · exact (folder_leaf kind).fine c front
    · decide
    · exact plain.fine c back

theorem receiptPath_segments (plain : Leaf leaf) : segments '/' (receiptPath fileShareId kind leaf) =
    [sharedFolder,hyphenated fileShareId,kind.folder,leaf] := by
  rw [receiptPath,share_segments,segments_append,(folder_leaf kind).segments,plain.segments]
  rfl

theorem receiptPath_join : join '/' [sharedFolder,hyphenated fileShareId,kind.folder,leaf] =
    receiptPath fileShareId kind leaf := by
  simp [join,List.intercalate,receiptPath,sharePrefix]

def receiptsPrefix (fileShareId : Uuid) (kind : ReceiptKind) : Text := sharePrefix fileShareId ++ kind.folder ++ ['/']

theorem receiptsPrefix_valid : validateRemotePrefix (receiptsPrefix fileShareId kind) =
    .ok (receiptsPrefix fileShareId kind) := by
  have filled : receiptsPrefix fileShareId kind ≠ [] := by simp [receiptsPrefix]
  rw [validateRemotePrefix,if_neg filled,receiptsPrefix,List.append_assoc]
  apply below_share
  · simp [folder_dots]
  · intro c member
    rcases List.mem_append.mp member with front | slash
    · exact (folder_leaf kind).fine c front
    · rw [List.mem_singleton.mp slash]
      decide

theorem receiptsPrefix_segments : segments '/' (receiptsPrefix fileShareId kind) =
    [sharedFolder,hyphenated fileShareId,kind.folder] := by
  rw [receiptsPrefix,segments_trail,share_segments,(folder_leaf kind).segments]

theorem receiptsPrefix_trimmed : trimEnd '/' (receiptsPrefix fileShareId kind) = sharePrefix fileShareId ++ kind.folder := by
  rw [receiptsPrefix,trimEnd_trail,trimEnd_piece _ (folder_leaf kind).whole (folder_leaf kind).filled]

-- The receipt's own entry is listed under the receipt's name, and no other entry of
-- the folder has a name that leads to the receipt.
theorem listed_leaf (fileShareId : Uuid) (kind : ReceiptKind) (plain : Leaf leaf) : listedName (receiptsPrefix fileShareId kind) (join '/' [leaf]) =
    receiptPath fileShareId kind leaf := by
  have other : ¬ (receiptsPrefix fileShareId kind = [] ∨ (receiptsPrefix fileShareId kind).isPrefixOf leaf) := by
    intro either
    rcases either with empty | front
    · simp [receiptsPrefix] at empty
    · have slash : '/' ∈ receiptsPrefix fileShareId kind := by simp [receiptsPrefix]
      exact plain.whole ((List.isPrefixOf_iff_prefix.mp front).subset slash)
  rw [join_piece,listedName,if_neg other,receiptsPrefix_trimmed,trimStart_piece plain.whole,receiptPath,List.append_assoc]

theorem listed_unique {entry : List Text} (plain : Leaf leaf) (proper : ∀ piece ∈ entry, piece ≠ [] ∧ '/' ∉ piece)
    (leads : segments '/' (listedName (receiptsPrefix fileShareId kind) (join '/' entry)) =
      [sharedFolder,hyphenated fileShareId,kind.folder,leaf]) :
    listedName (receiptsPrefix fileShareId kind) (join '/' entry) = receiptPath fileShareId kind leaf := by
  unfold listedName at leads ⊢
  split at leads
  · rename_i whole
    rw [if_pos whole]
    rw [segments_join proper] at leads
    rw [leads,receiptPath_join]
  · rename_i short
    rw [if_neg short]
    rw [segments_append,segments_trimEnd,segments_trimStart,receiptsPrefix_segments,segments_join proper] at leads
    have single : entry = [leaf] := by simpa using leads
    have listed := listed_leaf fileShareId kind plain
    rw [listedName,if_neg (single ▸ short)] at listed
    rw [single,listed]

theorem objectAt_some (split : splitOnce ':' t.remoteRoot = some (name,path)) (based : t.remote.base drive = some base)
    (valid : validateRemotePath remotePath = .ok remotePath) :
    t.objectAt drive remotePath = some (t.remote.wrap (base.within (path ++ '/' :: trimStart '/' remotePath))) := by
  rw [objectAt_valid split valid,Remote.object,based]
  rfl

theorem objectAt_pieces (split : splitOnce ':' t.remoteRoot = some (name,path)) (based : t.remote.base drive = some base)
    (found : t.objectAt drive remotePath = some (t.remote.wrap place)) :
    place.pieces = base.pieces ++ segments '/' path ++ segments '/' remotePath := by
  cases accepted : validateRemotePath remotePath with
  | error failure => rw [RcloneTransport.objectAt,accepted] at found; cases found
  | ok checked =>
    cases validateRemotePath_ok accepted
    rw [objectAt_some split based accepted,Option.some.injEq] at found
    rw [← wrap_injective found,within_pieces,joined_segments,List.append_assoc]

def entries (directory : Object) (remotePrefix : Text) (objects : Objects) : List Text :=
  (objects.filterMap (relative directory)).map fun entry => listedName remotePrefix (join '/' entry)

theorem mem_entries {directory : Object} : name ∈ entries directory remotePrefix objects ↔
    ∃ object ∈ objects, ∃ entry, relative directory object = some entry ∧
      listedName remotePrefix (join '/' entry) = name := by
  simp only [entries,List.mem_map,List.mem_filterMap]
  constructor
  · rintro ⟨entry,⟨object,member,below⟩,same⟩
    exact ⟨object,member,entry,below,same⟩
  · rintro ⟨object,member,entry,below,same⟩
    exact ⟨entry,⟨object,member,below⟩,same⟩

theorem receiptNames_eq (split : splitOnce ':' t.remoteRoot = some (name,path)) (based : t.remote.base drive = some base)
    (placed : share.cloudPath = sharePrefix fileShareId) (kind : ReceiptKind) (objects : Objects) :
    receiptNames drive t objects share kind = (entries
      (t.remote.wrap (base.within (path ++ '/' :: trimStart '/' (receiptsPrefix fileShareId kind))))
      (receiptsPrefix fileShareId kind) objects).insertionSort (· ≤ ·) := by
  have filled : receiptsPrefix fileShareId kind ≠ [] := by simp [receiptsPrefix]
  have shape : share.cloudPath ++ kind.folder ++ ['/'] = receiptsPrefix fileShareId kind := by
    rw [placed,receiptsPrefix]
  rw [receiptNames,RcloneTransport.listBlobs,shape,receiptsPrefix_valid]
  dsimp only
  rw [if_neg filled,resolve_target split,Remote.object,based]
  rfl

theorem before_put {name : Text} (directory object : Object) (objects : Objects)
    (own : ∀ entry, relative directory object = some entry → ¬ listedName remotePrefix (join '/' entry) < name) :
    (((entries directory remotePrefix (objects.put object)).insertionSort (· ≤ ·)).filter (· < name)).length =
    (((entries directory remotePrefix objects).insertionSort (· ≤ ·)).filter (· < name)).length := by
  have unsorted : ∀ names : List Text, ((names.insertionSort (· ≤ ·)).filter (· < name)).length =
      (names.filter (· < name)).length :=
    fun names => ((List.perm_insertionSort (· ≤ ·) names).filter _).length_eq
  rw [unsorted,unsorted]
  unfold Objects.put
  split
  · rfl
  · cases entry : relative directory object with
    | none => rw [entries,List.filterMap_cons_none entry,entries]
    | some found =>
      rw [entries,List.filterMap_cons_some entry,List.map_cons,
        List.filter_cons_of_neg (by simpa using own found entry),entries]

-- A receipt in the folder that the sender lists is read exactly if fewer than fifty
-- listed names come before its own.
theorem checked_receipt (split : splitOnce ':' t.remoteRoot = some (name,path)) (plain : Leaf leaf)
    (here : t.remote.object drive (path ++ '/' :: receiptPath fileShareId kind leaf) = some receipt)
    (placed : share.cloudPath = sharePrefix fileShareId) (awaited : ShareRecord.awaits share kind = true)
    (objects : Objects) : receipt ∈ checkedObjects drive t (objects.put receipt) share kind ↔
      namesBefore drive t objects share kind (receiptPath fileShareId kind leaf) < 50 := by
  obtain ⟨base,based,same⟩ := Option.map_eq_some_iff.mp here
  have listing := receiptNames_eq split based placed kind
  have own : relative (t.remote.wrap (base.within (path ++ '/' :: trimStart '/' (receiptsPrefix fileShareId kind))))
      receipt = some [leaf] := by
    rw [relative_wrap]
    refine ⟨_,same.symm,?_,by simp⟩
    rw [within_pieces,within_pieces,joined_segments,segments_append,receiptPath_segments plain,receiptsPrefix_segments]
    simp
  have leads : t.objectAt drive (receiptPath fileShareId kind leaf) = some receipt := by
    rw [objectAt_some split based (receiptPath_valid plain),← same]
    rfl
  have unique : ∀ listed ∈ receiptNames drive t (objects.put receipt) share kind,
      t.objectAt drive listed = some receipt → listed = receiptPath fileShareId kind leaf := by
    intro listed member found
    rw [listing,List.mem_insertionSort,mem_entries] at member
    obtain ⟨object,_,entry,below,rfl⟩ := member
    obtain ⟨place,rfl,pieces,_⟩ := relative_wrap.mp below
    apply listed_unique plain
    · intro piece inside
      exact place.proper piece (by rw [pieces]; exact List.mem_append_right _ inside)
    · rw [← same] at found
      have reached := objectAt_pieces split based found
      rw [within_pieces,segments_append,receiptPath_segments plain,← List.append_assoc,
        List.append_cancel_left_eq] at reached
      exact reached.symm
  have present : receiptPath fileShareId kind leaf ∈ receiptNames drive t (objects.put receipt) share kind := by
    rw [listing,List.mem_insertionSort,mem_entries]
    refine ⟨receipt,?_,_,own,listed_leaf fileShareId kind plain⟩
    unfold Objects.put
    split <;> simp [*]
  have read : receipt ∈ checkedObjects drive t (objects.put receipt) share kind ↔
      receiptPath fileShareId kind leaf ∈ (receiptNames drive t (objects.put receipt) share kind).take 50 := by
    have considered : ¬ (ShareRecord.awaits share kind = false ∨ share.cloudPath = []) := by
      rw [awaited,placed]
      simp [sharePrefix]
    rw [checkedObjects,if_neg considered,List.mem_filterMap]
    constructor
    · rintro ⟨listed,member,found⟩
      rw [← unique listed (List.mem_of_mem_take member) found]
      exact member
    · intro member
      exact ⟨_,member,leads⟩
  have sorted : (receiptNames drive t (objects.put receipt) share kind).Pairwise (· ≤ ·) := by
    rw [listing]
    exact List.pairwise_insertionSort _ _
  have counted : namesBefore drive t (objects.put receipt) share kind (receiptPath fileShareId kind leaf) =
      namesBefore drive t objects share kind (receiptPath fileShareId kind leaf) := by
    unfold namesBefore
    rw [listing,listing]
    apply before_put
    intro entry below
    cases own.symm.trans below
    rw [listed_leaf fileShareId kind plain]
    exact Std.lt_irrefl
  rw [read,mem_take_sorted sorted present,← counted,namesBefore]

end Listing

-- The two halves of the law: a chunk's object is one for both sides and lies in the
-- credential's scope, and a receipt's object is among those the sender reads.
def SameChunk (services : Services) (drive : Drive) (sender : Sender) (creds : Json) (fileSize : Nat)
    (fileShareId blobName : Uuid) : Prop :=
  ∃ endpoint object scope, receivedEndpoint creds fileSize = some endpoint ∧
    uploadedObject drive services.readJson sender fileShareId blobName = some object ∧
    fetchedObject drive services.readJson endpoint blobName = some object ∧
    credentialScope creds = some scope ∧ scope.covers drive object = true

def ReceiptFound (services : Services) (drive : Drive) (sender : Sender) (creds : Json) (fileSize : Nat)
    (kind : ReceiptKind) (receiptUuid : Uuid) (objects : Objects) (share : ShareRecord) : Prop :=
  ∃ endpoint t receipt, receivedEndpoint creds fileSize = some endpoint ∧
    sender.transport services.readJson = some t ∧
    receiptObject drive services.readJson endpoint kind receiptUuid = some receipt ∧
    receipt ∈ checkedObjects drive t (objects.put receipt) share kind

-- B2 writes every receipt under a fresh name, Drive overwrites one placeholder.
def receiptLeaf (receiptUuid : Uuid) : Remote → Text
  | .b2 .. => blobFile receiptUuid
  | .drive _ => receiptBlobName

section Law
variable {services : Services} {drive : Drive} {sender : Sender} {creds : Json} {fileShareId blobName receiptUuid : Uuid}
  {share : ShareRecord} {objects : Objects} {kind : ReceiptKind} {path : Text} {fileSize : Nat}

theorem sharePath_valid (fileShareId blobName : Uuid) : validateRemotePath (sharePrefix fileShareId ++ blobFile blobName) =
    .ok (sharePrefix fileShareId ++ blobFile blobName) :=
  below_share fileShareId (blobFile_leaf blobName).dots (blobFile_leaf blobName).fine

theorem sharePath_segments (fileShareId blobName : Uuid) : segments '/' (sharePrefix fileShareId ++ blobFile blobName) =
    [sharedFolder,hyphenated fileShareId,blobFile blobName] := by
  rw [share_segments,(blobFile_leaf blobName).segments]

theorem sharePrefix_segments (fileShareId : Uuid) : segments '/' (sharePrefix fileShareId) =
    [sharedFolder,hyphenated fileShareId] := by
  simpa using share_segments fileShareId []

theorem b2_bucket (named : b2BucketName sender = some bucketName) :
    ∃ more, segments '/' sender.rootPath = bucketName :: more ∧ bucketName ≠ [] ∧ '/' ∉ bucketName := by
  obtain ⟨first,filled⟩ := Option.filter_eq_some_iff.mp named
  obtain ⟨rest,shape⟩ := List.head?_eq_some_iff.mp first
  have whole : '/' ∉ bucketName := splitOn_whole sender.rootPath bucketName (by rw [shape]; exact List.mem_cons_self)
  refine ⟨rest.filter (· ≠ []),?_,by simpa using filled,whole⟩
  rw [segments,shape,List.filter_cons_of_pos (by simpa using filled)]

-- The object that the sender's transport takes for a path below the share's prefix.
theorem sender_object {remote : Remote} (split : splitOnce ':' sender.remoteRoot = some (name,path))
    (based : remote.base drive = some base) (valid : validateRemotePath remotePath = .ok remotePath) :
    RcloneTransport.objectAt ⟨sender.remoteRoot,remote⟩ drive remotePath =
      some (remote.wrap (base.within (path ++ '/' :: trimStart '/' remotePath))) :=
  objectAt_some (t := ⟨sender.remoteRoot,remote⟩) split based valid

theorem text_of (known : jsonGet name endpoint = some (json text)) : textField name endpoint = some text := by
  simp [textField,stringField,known,json,Json.text?]

theorem string_of (known : jsonGet name endpoint = some (.text text)) : textField name endpoint = some text.toList := by
  simp [textField,stringField,known,Json.text?]

theorem provider_of (known : jsonGet "provider" endpoint = some (.text text)) :
    stringField "provider" endpoint = some text := by
  simp [stringField,known,Json.text?]

theorem b2_transport (readJson : ReadJson) (known : B2Endpoint bucketName pathPrefix endpoint) :
    ∃ keyId appKey, shareTransport readJson endpoint =
      some ⟨shareDownload ++ ':' :: (bucketName ++ '/' :: trimEnd '/' pathPrefix),.b2 keyId appKey⟩ := by
  obtain ⟨keyId,first⟩ := known.keyId
  obtain ⟨appKey,second⟩ := known.appKey
  refine ⟨keyId.toList,appKey.toList,?_⟩
  simp [shareTransport,provider_of known.provider,buildB2ShareTransport,text_of known.bucket,text_of known.within,
    string_of first,string_of second]

theorem b2_fetched (drive : Drive) (readJson : ReadJson) (known : B2Endpoint bucketName (sharePrefix fileShareId) endpoint)
    (v4 : versionNumber blobName = 4) (whole : '/' ∉ bucketName) (filled : bucketName ≠ []) :
    ∃ place, fetchedObject drive readJson endpoint blobName = some (.b2 place) ∧
      place.pieces = [bucketName,sharedFolder,hyphenated fileShareId,blobFile blobName] := by
  obtain ⟨keyId,appKey,built⟩ := b2_transport readJson known
  rw [fetchedObject,if_pos v4,built,Option.bind_some,
    objectAt_some (splitOnce_first (by decide)) rfl (blobFile_leaf blobName).valid]
  refine ⟨_,rfl,?_⟩
  rw [within_pieces,joined_segments,segments_append,segments_trimEnd,sharePrefix_segments,
    segments_piece whole filled,(blobFile_leaf blobName).segments]
  rfl

theorem b2_uploaded (drive : Drive) (fileShareId blobName : Uuid) {readJson : ReadJson} (split : splitOnce ':' sender.remoteRoot = some (name,path))
    (kind : sender.remote readJson = some (.b2 account key)) :
    ∃ place, uploadedObject drive readJson sender fileShareId blobName = some (.b2 place) ∧
      place.pieces = segments '/' path ++ [sharedFolder,hyphenated fileShareId,blobFile blobName] := by
  rw [uploadedObject,Sender.transport,kind,Option.map_some,Option.bind_some,
    sender_object split rfl (sharePath_valid fileShareId blobName)]
  refine ⟨_,rfl,?_⟩
  rw [within_pieces,joined_segments,sharePath_segments]
  rfl

theorem b2_scope (known : B2Endpoint bucketName (sharePrefix fileShareId) creds) :
    credentialScope creds = some (.b2 bucketName (sharePrefix fileShareId)) := by
  simp [credentialScope,provider_of known.provider,text_of known.bucket,text_of known.within]

theorem b2_covers (pieces : place.pieces = [bucketName,sharedFolder,hyphenated fileShareId,blobFile blobName]) :
    (Scope.b2 bucketName (sharePrefix fileShareId)).covers drive (.b2 place) = true := by
  have inside : sharePrefix fileShareId <+: join '/' [sharedFolder,hyphenated fileShareId,blobFile blobName] := by
    refine ⟨blobFile blobName,?_⟩
    simp [sharePrefix,join,List.intercalate]
  simp only [Scope.covers,pieces]
  simpa using List.isPrefixOf_iff_prefix.mpr inside

-- On B2 both sides meet exactly if the sender's root is the bucket and nothing more.
theorem b2_same_chunk_iff (split : splitOnce ':' sender.remoteRoot = some (name,path))
    (kind : sender.remote services.readJson = some (.b2 account key)) (v4 : versionNumber blobName = 4)
    (issued : generateB2ShareCredentials services sender (sharePrefix fileShareId) ttl keyId appKey = .ok (some creds)) :
    SameChunk services drive sender creds fileSize fileShareId blobName ↔ (segments '/' path).length = 1 := by
  obtain ⟨bucketName,fields,named,rfl,known⟩ := b2_issued issued
  obtain ⟨more,shape,filled,whole⟩ := b2_bucket named
  have rooted : sender.rootPath = path := by simp [Sender.rootPath,split]
  rw [rooted] at shape
  obtain ⟨endpoint,received,same⟩ := received_endpoint fields fileSize
  obtain ⟨up,uploaded,upPieces⟩ := b2_uploaded drive fileShareId blobName split kind
  obtain ⟨down,fetched,downPieces⟩ := b2_fetched drive services.readJson (known.congr same) v4 whole filled
  rw [shape] at upPieces ⊢
  constructor
  · rintro ⟨endpoint',object,scope,received',uploaded',fetched',_⟩
    cases received.symm.trans received'
    cases uploaded.symm.trans uploaded'
    cases fetched.symm.trans fetched'
    rw [upPieces] at downPieces
    have none_more : more = [] := by simpa using downPieces
    rw [none_more]
    rfl
  · intro single
    have none_more : more = [] := by simpa using single
    have one : up = down := location_ext (by rw [upPieces,downPieces,none_more]; rfl)
    exact ⟨endpoint,_,_,received,uploaded,by rw [fetched,one],b2_scope known,by rw [one]; exact b2_covers downPieces⟩

theorem b2_receipt (drive : Drive) (readJson : ReadJson) (kind : ReceiptKind) (receiptUuid : Uuid) (known : B2Endpoint bucketName (sharePrefix fileShareId) endpoint)
    (whole : '/' ∉ bucketName) (filled : bucketName ≠ []) :
    ∃ place, receiptObject drive readJson endpoint kind receiptUuid = some (.b2 place) ∧ place.pieces =
      bucketName :: segments '/' (receiptPath fileShareId kind (blobFile receiptUuid)) := by
  obtain ⟨keyId,first⟩ := known.keyId
  obtain ⟨appKey,second⟩ := known.appKey
  have target : receiptConfB2 endpoint kind.folder receiptUuid =
      some (⟨shareReceipt ++ ':' :: (bucketName ++ '/' :: (sharePrefix fileShareId ++ kind.folder)),
        .b2 keyId.toList appKey.toList⟩,blobFile receiptUuid) := by
    simp [receiptConfB2,text_of known.bucket,text_of known.within,string_of first,string_of second]
  have unfolded : receiptObject drive readJson endpoint kind receiptUuid = RcloneTransport.objectAt
      ⟨shareReceipt ++ ':' :: (bucketName ++ '/' :: (sharePrefix fileShareId ++ kind.folder)),
        .b2 keyId.toList appKey.toList⟩ drive (blobFile receiptUuid) := by
    simp [receiptObject,provider_of known.provider,target]
  rw [unfolded,objectAt_some (splitOnce_first (by decide)) rfl (blobFile_leaf receiptUuid).valid]
  refine ⟨_,rfl,?_⟩
  rw [within_pieces,joined_segments,segments_append,share_segments,(folder_leaf kind).segments,
    segments_piece whole filled,(blobFile_leaf receiptUuid).segments,receiptPath_segments (blobFile_leaf receiptUuid)]
  rfl

theorem b2_receipt_iff (split : splitOnce ':' sender.remoteRoot = some (name,path))
    (kindOf : sender.remote services.readJson = some (.b2 account key))
    (issued : generateB2ShareCredentials services sender (sharePrefix fileShareId) ttl keyId appKey = .ok (some creds))
    (placed : share.cloudPath = sharePrefix fileShareId) (awaited : ShareRecord.awaits share kind = true)
    (single : (segments '/' path).length = 1) :
    ReceiptFound services drive sender creds fileSize kind receiptUuid objects share ↔
      namesBefore drive ⟨sender.remoteRoot,.b2 account key⟩ objects share kind
        (receiptPath fileShareId kind (blobFile receiptUuid)) < 50 := by
  obtain ⟨bucketName,fields,named,rfl,known⟩ := b2_issued issued
  obtain ⟨more,shape,filled,whole⟩ := b2_bucket named
  have rooted : sender.rootPath = path := by simp [Sender.rootPath,split]
  rw [rooted] at shape
  have none_more : more = [] := by simpa [shape] using single
  obtain ⟨endpoint,received,same⟩ := received_endpoint fields fileSize
  obtain ⟨place,written,pieces⟩ := b2_receipt drive services.readJson kind receiptUuid (known.congr same)
    whole filled
  have connected : sender.transport services.readJson = some ⟨sender.remoteRoot,.b2 account key⟩ := by
    rw [Sender.transport,kindOf]
    rfl
  have here : Remote.object drive (path ++ '/' :: receiptPath fileShareId kind (blobFile receiptUuid)) (.b2 account key) =
      some (.b2 place) := by
    have one : Location.top.within (path ++ '/' :: receiptPath fileShareId kind (blobFile receiptUuid)) = place := by
      apply location_ext
      rw [within_pieces,segments_append,shape,none_more,pieces]
      rfl
    rw [← one]
    rfl
  have read := checked_receipt (t := ⟨sender.remoteRoot,.b2 account key⟩) split (blobFile_leaf receiptUuid) here placed
    awaited objects
  constructor
  · rintro ⟨endpoint',t',receipt',received',connected',written',member⟩
    cases received.symm.trans received'
    cases connected.symm.trans connected'
    cases written.symm.trans written'
    exact read.mp member
  · intro room
    exact ⟨endpoint,_,_,received,connected,written,read.mpr room⟩

theorem fullDrivePath_segments (pathPrefix : Text) : segments '/' (fullDrivePath sender pathPrefix) =
    segments '/' sender.rootPath ++ segments '/' pathPrefix := by
  have trimmed : segments '/' (trimSlashes sender.rootPath) = segments '/' sender.rootPath := by
    rw [trimSlashes,segments_trimEnd,segments_trimStart]
  unfold fullDrivePath
  split
  · rename_i empty
    rw [← trimmed,empty,segments_nil,List.nil_append]
  · rw [segments_append,trimmed,segments_trimStart]

theorem drive_transport {readJson : ReadJson} (known : DriveEndpoint folderId account endpoint)
    (readable : (readJson account).isSome) :
    shareTransport readJson endpoint = some ⟨shareDriveDownload ++ [':'],.drive (some folderId)⟩ := by
  obtain ⟨value,read⟩ := Option.isSome_iff_exists.mp readable
  simp [shareTransport,provider_of known.provider,buildGdriveShareTransport,text_of known.folder,text_of known.granted,
    read]

theorem drive_fetched {readJson : ReadJson} (known : DriveEndpoint folderId account endpoint)
    (readable : (readJson account).isSome) (folder : drive.pathOf folderId = some base) (v4 : versionNumber blobName = 4) :
    ∃ place, fetchedObject drive readJson endpoint blobName = some (.drive place) ∧
      place.pieces = base.pieces ++ [blobFile blobName] := by
  rw [fetchedObject,if_pos v4,drive_transport known readable,Option.bind_some,
    objectAt_some (t := ⟨shareDriveDownload ++ [':'],.drive (some folderId)⟩) (splitOnce_first (by decide)) folder
      (blobFile_leaf blobName).valid]
  refine ⟨_,rfl,?_⟩
  rw [within_pieces,joined_segments,(blobFile_leaf blobName).segments,segments_nil]
  rfl

theorem drive_receipt (kind : ReceiptKind) (receiptUuid : Uuid) {readJson : ReadJson} (known : DriveEndpoint folderId account endpoint)
    (readable : (readJson account).isSome) (folder : drive.pathOf folderId = some base) :
    ∃ place, receiptObject drive readJson endpoint kind receiptUuid = some (.drive place) ∧
      place.pieces = base.pieces ++ [kind.folder,receiptBlobName] := by
  obtain ⟨value,read⟩ := Option.isSome_iff_exists.mp readable
  have unfolded : receiptObject drive readJson endpoint kind receiptUuid = RcloneTransport.objectAt
      ⟨shareReceipt ++ [':'],.drive (some folderId)⟩ drive (kind.folder ++ '/' :: receiptBlobName) := by
    simp [receiptObject,provider_of known.provider,receiptConfGdrive,text_of known.folder,text_of known.granted,read]
  have valid : validateRemotePath (kind.folder ++ '/' :: receiptBlobName) = .ok (kind.folder ++ '/' :: receiptBlobName) := by
    cases kind <;> rfl
  rw [unfolded,objectAt_some (t := ⟨shareReceipt ++ [':'],.drive (some folderId)⟩) (splitOnce_first (by decide)) folder
    valid]
  refine ⟨_,rfl,?_⟩
  rw [within_pieces,joined_segments,segments_append,(folder_leaf kind).segments,receiptBlobName_leaf.segments,segments_nil]
  rfl

-- The folder that a Drive credential is for lies at the share's prefix below the
-- sender's root.
theorem drive_folder (split : splitOnce ':' sender.remoteRoot = some (name,path))
    (resolved : gdriveResolveFolderId drive rootFolderId (fullDrivePath sender (sharePrefix fileShareId)) = .ok folderId) :
    ∃ base folder, Remote.base drive (.drive rootFolderId) = some base ∧ drive.pathOf folderId = some folder ∧
      folder.pieces = base.pieces ++ segments '/' path ++ [sharedFolder,hyphenated fileShareId] := by
  obtain ⟨base,above,here⟩ := resolved_folder resolved
  have rooted : sender.rootPath = path := by simp [Sender.rootPath,split]
  refine ⟨base,_,above,here,?_⟩
  rw [within_pieces,fullDrivePath_segments,rooted,sharePrefix_segments,List.append_assoc]

theorem drive_same_chunk (split : splitOnce ':' sender.remoteRoot = some (name,path))
    (kindOf : sender.remote services.readJson = some (.drive oauth.rootFolderId)) (v4 : versionNumber blobName = 4)
    (issued : generateGdriveShareCredentials services drive sender conf (sharePrefix fileShareId) oauth = .ok (some creds))
    (readable : ∀ account, sender.sharingConfig = some account → (services.readJson (services.writeJson account)).isSome) :
    SameChunk services drive sender creds fileSize fileShareId blobName := by
  obtain ⟨account,folderId,fields,stored,resolved,rfl,known⟩ := drive_issued issued
  obtain ⟨base,folder,based,here,pieces⟩ := drive_folder split resolved
  obtain ⟨endpoint,received,same⟩ := received_endpoint fields fileSize
  obtain ⟨down,fetched,downPieces⟩ := drive_fetched (known.congr same) (readable account stored) here v4
  have uploaded : uploadedObject drive services.readJson sender fileShareId blobName = some (.drive down) := by
    rw [uploadedObject,Sender.transport,kindOf,Option.map_some,Option.bind_some,
      sender_object split based (sharePath_valid fileShareId blobName)]
    have one : base.within (path ++ '/' :: trimStart '/' (sharePrefix fileShareId ++ blobFile blobName)) = down := by
      apply location_ext
      rw [within_pieces,joined_segments,sharePath_segments,downPieces,pieces]
      simp
    rw [one]
    rfl
  have scope : credentialScope (.object fields) = some (.drive folderId) := by
    simp [credentialScope,provider_of known.provider,text_of known.folder]
  refine ⟨endpoint,_,_,received,uploaded,fetched,scope,?_⟩
  simp only [Scope.covers,here]
  exact List.isPrefixOf_iff_prefix.mpr ⟨_,downPieces.symm⟩

theorem drive_receipt_iff (split : splitOnce ':' sender.remoteRoot = some (name,path))
    (kindOf : sender.remote services.readJson = some (.drive oauth.rootFolderId))
    (issued : generateGdriveShareCredentials services drive sender conf (sharePrefix fileShareId) oauth = .ok (some creds))
    (readable : ∀ account, sender.sharingConfig = some account → (services.readJson (services.writeJson account)).isSome)
    (placed : share.cloudPath = sharePrefix fileShareId) (awaited : ShareRecord.awaits share kind = true) :
    ReceiptFound services drive sender creds fileSize kind receiptUuid objects share ↔
      namesBefore drive ⟨sender.remoteRoot,.drive oauth.rootFolderId⟩ objects share kind
        (receiptPath fileShareId kind receiptBlobName) < 50 := by
  obtain ⟨account,folderId,fields,stored,resolved,rfl,known⟩ := drive_issued issued
  obtain ⟨base,folder,based,found,pieces⟩ := drive_folder split resolved
  obtain ⟨endpoint,received,same⟩ := received_endpoint fields fileSize
  obtain ⟨place,written,placePieces⟩ := drive_receipt kind receiptUuid (known.congr same)
    (readable account stored) found
  have connected : sender.transport services.readJson = some ⟨sender.remoteRoot,.drive oauth.rootFolderId⟩ := by
    rw [Sender.transport,kindOf]
    rfl
  have here : Remote.object drive (path ++ '/' :: receiptPath fileShareId kind receiptBlobName)
      (.drive oauth.rootFolderId) = some (.drive place) := by
    have one : base.within (path ++ '/' :: receiptPath fileShareId kind receiptBlobName) = place := by
      apply location_ext
      rw [within_pieces,segments_append,receiptPath_segments receiptBlobName_leaf,placePieces,pieces]
      simp
    rw [Remote.object,based,← one]
    rfl
  have read := checked_receipt (t := ⟨sender.remoteRoot,.drive oauth.rootFolderId⟩) split receiptBlobName_leaf here
    placed awaited objects
  constructor
  · rintro ⟨endpoint',t',receipt',received',connected',written',member⟩
    cases received.symm.trans received'
    cases connected.symm.trans connected'
    cases written.symm.trans written'
    exact read.mp member
  · intro room
    exact ⟨endpoint,_,_,received,connected,written,read.mpr room⟩

end Law

-- Where one account's objects lie in a bucket, the destination must be the bucket itself.
def BucketOnly (remote : Remote) (bucket pathPrefix : Text) : Prop :=
  match remote with
  | .b2 .. => (segments '/' bucket ++ segments '/' pathPrefix).length = 1
  | .drive _ => True

-- Sender and recipient address the same objects exactly if the destination is on
-- Drive or its B2 root is one path piece, and fewer than fifty listed receipt names
-- come before the one that is written.
theorem same_objects_iff (services : Services) (drive : Drive) (sender : Sender) (remoteName bucket pathPrefix : Text)
    (remote : Remote) (request : CreateShareRequest) (shareId fileShareId : Uuid) (ttlSeconds fileSize : Nat)
    (creds : Json) (keyId folderId : Option String) (blobName : Uuid) (kind : ReceiptKind) (receiptUuid : Uuid)
    (objects : Objects) (composed : composeRemoteRoot remoteName bucket pathPrefix = .ok sender.remoteRoot)
    (connected : sender.remote services.readJson = some remote)
    (issued : generateShareCredentials services drive sender (sharePrefix fileShareId) ttlSeconds = .ok (some creds))
    (v4 : versionNumber blobName = 4)
    (readable : ∀ account, sender.sharingConfig = some account → (services.readJson (services.writeJson account)).isSome) :
    (SameChunk services drive sender creds fileSize fileShareId blobName ∧
      ReceiptFound services drive sender creds fileSize kind receiptUuid objects
        (shareRecord request shareId fileShareId keyId folderId)) ↔
    (BucketOnly remote bucket pathPrefix ∧ namesBefore drive ⟨sender.remoteRoot,remote⟩ objects
      (shareRecord request shareId fileShareId keyId folderId) kind
      (receiptPath fileShareId kind (receiptLeaf receiptUuid remote)) < 50) := by
  obtain ⟨_,split⟩ := composed_root composed
  have awaited : ShareRecord.awaits (shareRecord request shareId fileShareId keyId folderId) kind = true := by
    cases kind <;> rfl
  unfold generateShareCredentials at issued
  cases configured : sender.sessionConfig with
  | none => rw [configured] at issued; cases issued
  | some conf =>
    rw [configured] at issued
    dsimp only at issued
    cases keys : parseB2ApiKeysForRemote conf sender.remoteName with
    | some pair =>
      rw [keys] at issued
      have kindOf : sender.remote services.readJson = some (.b2 pair.1 pair.2) := by
        simp [Sender.remote,configured,keys]
      cases connected.symm.trans kindOf
      rw [b2_same_chunk_iff split kindOf v4 issued,segments_root]
      apply and_congr_right
      intro single
      rw [← segments_root] at single
      exact b2_receipt_iff split kindOf issued rfl awaited single
    | none =>
      cases parsed : parseGdriveOauthFromConf services.readJson conf sender.remoteName with
      | none => rw [keys,parsed] at issued; cases issued
      | some oauth =>
        simp only [keys,parsed] at issued
        have kindOf : sender.remote services.readJson = some (.drive oauth.rootFolderId) := by
          simp [Sender.remote,configured,keys,parsed]
        cases connected.symm.trans kindOf
        apply and_congr
        · exact iff_of_true (drive_same_chunk split kindOf v4 issued readable) trivial
        · exact drive_receipt_iff split kindOf issued readable rfl awaited

def plainServices : Services :=
  {readJson := fun _ => none,writeJson := fun _ => [],b2AuthorizeAccount := fun _ _ => .ok "url",
   b2GetBucketId := fun _ => .ok ['i'],b2CreateApplicationKey := fun _ _ _ _ => .ok ("key","secret"),
   gdriveRefreshToken := fun _ => .error "unused",gdriveCreatePermission := fun _ _ _ => .error "unused"}

def emptyDrive : Drive := ⟨[],by decide⟩

def b2Conf : Conf := [['[','b',']'],['t','y','p','e',' ','=',' ','b','2'],['a','c','c','o','u','n','t',' ','=',' ','A'],
  ['k','e','y',' ','=',' ','K']]

-- The destination `b:vault` and the destination `b:vault/docs`.
def bucketSender : Sender := ⟨['b',':','v','a','u','l','t'],some b2Conf,none⟩

def prefixSender : Sender := ⟨['b',':','v','a','u','l','t','/','d','o','c','s'],some b2Conf,none⟩

def firstUuid : Uuid := 0x11111111111141118111111111111111

def secondUuid : Uuid := 0x22222222222242228222222222222222

def b2Credentials : Json :=
  .object [("provider",.text "b2"),("bucket",json ['v','a','u','l','t']),("download_url",.text "url"),
    ("key_id",.text "key"),("application_key",.text "secret"),("path_prefix",json (sharePrefix firstUuid)),
    ("receipt_requested",.bool true)]

def firstRequest : CreateShareRequest := ⟨1,2,none,1000⟩

theorem bucket_same_objects_iff :
    (SameChunk plainServices emptyDrive bucketSender b2Credentials 5 firstUuid secondUuid ∧
      ReceiptFound plainServices emptyDrive bucketSender b2Credentials 5 .download secondUuid []
        (shareRecord firstRequest 3 firstUuid (some "key") none)) ↔
    (BucketOnly (.b2 ['A'] ['K']) ['v','a','u','l','t'] [] ∧ namesBefore emptyDrive
      ⟨bucketSender.remoteRoot,.b2 ['A'] ['K']⟩ [] (shareRecord firstRequest 3 firstUuid (some "key") none) .download
      (receiptPath firstUuid .download (receiptLeaf secondUuid (.b2 ['A'] ['K']))) < 50) :=
  same_objects_iff plainServices emptyDrive bucketSender ['b'] ['v','a','u','l','t'] [] (.b2 ['A'] ['K']) firstRequest 3
    firstUuid 60 5 b2Credentials (some "key") none secondUuid .download secondUuid [] rfl rfl rfl (by decide)
    (fun account stored => nomatch stored)

-- With a path prefix the chunk goes to `vault/docs/shared/..` and is looked for at
-- `vault/shared/..`.
theorem prefix_separates_objects :
    composeRemoteRoot ['b'] ['v','a','u','l','t'] ['d','o','c','s'] = .ok prefixSender.remoteRoot ∧
    generateShareCredentials plainServices emptyDrive prefixSender (sharePrefix firstUuid) 60 = .ok (some b2Credentials) ∧
    versionNumber secondUuid = 4 ∧
    ¬ SameChunk plainServices emptyDrive prefixSender b2Credentials 5 firstUuid secondUuid := by
  refine ⟨rfl,rfl,by decide,?_⟩
  have split : splitOnce ':' prefixSender.remoteRoot = some (['b'],['v','a','u','l','t','/','d','o','c','s']) := rfl
  have kind : prefixSender.remote plainServices.readJson = some (.b2 ['A'] ['K']) := rfl
  have issued : generateB2ShareCredentials plainServices prefixSender (sharePrefix firstUuid) 60 ['A'] ['K'] =
    .ok (some b2Credentials) := rfl
  rw [b2_same_chunk_iff split kind (by decide) issued]
  decide

end ArxRuna.Sharing.Address
