import ArxRuna.Library.Loops
import ArxRuna.Library.Paths
import ArxRuna.Sharing.Endpoint
import ArxRuna.Vault.Restore
import Mathlib.Data.List.AList
namespace ArxRuna.Vault.Startup
open Library.Aead Library.Interrupt Library.Loops Library.Paths Crypto Store.Tables
open Sharing.RemotePath (Text hyphenated hexText hexText_same)
open Sharing.Endpoint (blobFile versionNumber)
open Vault.Restore (hexText_hex hexValue hyphenatedUuid hyphenated_documented)

-- The name of an entry: a text, or bytes that are none.
inductive OsName where
  | text (name : Text)
  | raw (bytes : List UInt8)
  deriving DecidableEq

inductive Entry where
  | file (content : Bytes)
  | directory
  | other
  deriving DecidableEq

abbrev Dir := AList fun _ : OsName => Entry

def look (dir : Dir) (name : OsName) : Option Entry := dir.lookup name

inductive Subdir where
  | pending
  | cache
  deriving DecidableEq, Repr

def Subdir.name : Subdir → OsName
  | .pending => .text ['p','e','n','d','i','n','g']
  | .cache => .text ['c','a','c','h','e']

def mirrorTemp : OsName := .text ['m','i','r','r','o','r','-','t','e','m','p']

-- The staging directory, by its own entries and those of the two subdirectories.
structure Staging where
  standing : Bool
  flat : Dir
  pending : Dir
  cache : Dir

def Staging.dir (s : Staging) : Subdir → Dir
  | .pending => s.pending
  | .cache => s.cache

def Staging.setDir (s : Staging) (dir : Dir) : Subdir → Staging
  | .pending => {s with pending := dir}
  | .cache => {s with cache := dir}

-- A removal that finds nothing has been forestalled by another process.
inductive Removal where
  | goes
  | gone
  | fails (error : StorageError)
  | stops

-- What each call does, and the order in which a directory gives its entries.
structure Io where
  makeRoot : Fate StorageError
  makeSubdir : Subdir → Fate StorageError
  openFlat : Fate StorageError
  nextFlat : OsName → Fate StorageError
  typeFlat : OsName → Fate StorageError
  rename : OsName → Fate StorageError
  endFlat : Fate StorageError
  seesMirrorTemp : Bool
  removeMirrorTemp : Fate StorageError
  listNames : Fate StorageError
  tryExists : Subdir → Fate StorageError
  openDir : Subdir → Fate StorageError
  next : Subdir → OsName → Fate StorageError
  fileType : Subdir → OsName → Fate StorageError
  remove : Subdir → OsName → Removal
  endDir : Subdir → Fate StorageError
  order : List OsName → List OsName
  order_all : ∀ names name, name ∈ names → name ∈ order names

def fileExtension (name : Text) : Option Text :=
  if ((name.reverse.dropWhile (· ≠ '.')).drop 1).reverse = [] then none
  else some (name.reverse.takeWhile (· ≠ '.')).reverse

variable (parseStr : Text → Option Uuid)

def blobUuid : OsName → Option Uuid
  | .raw _ => none
  | .text name =>
    if fileExtension name = some ['b','l','o','b'] then (parseStr (fileStem name)).filter (versionNumber · = 4)
    else none

variable (io : Io)

def Staging.made (s : Staging) (sub : Subdir) : Staging :=
  if (look s.flat sub.name).isSome then s else {s with flat := s.flat.insert sub.name .directory}

def Entry.isFile : Entry → Bool
  | .file _ => true
  | _ => false

def makeSubdir (sub : Subdir) : Command Staging StorageError Unit := do
  let s ← inspect
  require ((look s.flat sub.name).any Entry.isFile = false) (.io "File exists")
  meet (io.makeSubdir sub)
  change fun s => s.made sub

def ensureStagingDirectory : Command Staging StorageError Unit := do
  meet io.makeRoot
  change fun s => {s with standing := true}
  makeSubdir io .pending
  makeSubdir io .cache

-- A rename replaces any file of that name.
def Staging.moved (s : Staging) (name : OsName) (content : Bytes) : Staging :=
  {s with flat := s.flat.erase name,pending := s.pending.insert name (.file content)}

def migrating (s : Staging) (name : OsName) : Option Bytes :=
  match look s.flat name,blobUuid parseStr name with
  | some (.file content),some _ => some content
  | _,_ => none

def migrateEntry (_ : Unit) (name : OsName) : Command Staging StorageError Unit := do
  meet (io.nextFlat name)
  meet (io.typeFlat name)
  let s ← inspect
  match migrating parseStr s name with
  | some content => do
    require (look s.pending name ≠ some .directory) (.io "Is a directory")
    meet (io.rename name)
    change fun s => s.moved name content
  | none => pure ()

def migrateFlatStagingBlobs : Command Staging StorageError Unit := do
  let s ← inspect
  whenever s.standing (do
    meet io.openFlat
    (io.order s.flat.keys).foldlM (migrateEntry parseStr io) ()
    meet io.endFlat)

def Staging.dropped (s : Staging) (sub : Subdir) (name : OsName) : Staging := s.setDir ((s.dir sub).erase name) sub

def removeFile (sub : Subdir) (count : Nat) (name : OsName) : Command Staging StorageError Nat :=
  match io.remove sub name with
  | .goes => do
    change fun s => s.dropped sub name
    pure (count + 1)
  | .gone => do
    change fun s => s.dropped sub name
    pure count
  | .fails e => fail e
  | .stops => stop

def orphaned (known : List Text) (dir : Dir) (name : OsName) : Bool :=
  match look dir name,blobUuid parseStr name with
  | some (.file _),some id => known.all (· ≠ hyphenated id)
  | _,_ => false

def cleanupEntry (known : List Text) (sub : Subdir) (count : Nat) (name : OsName) :
    Command Staging StorageError Nat := do
  meet (io.next sub name)
  meet (io.fileType sub name)
  let s ← inspect
  if orphaned parseStr known (s.dir sub) name then removeFile io sub count name else pure count

def cleanupOrphanedBlobsInDir (known : List Text) (sub : Subdir) : Command Staging StorageError Nat := do
  meet (io.openDir sub)
  let s ← inspect
  let count ← (io.order (s.dir sub).keys).foldlM (cleanupEntry parseStr io known sub) 0
  meet (io.endDir sub)
  pure count

def cleanupSubdir (known : List Text) (sub : Subdir) : Command Staging StorageError Nat := do
  meet (io.tryExists sub)
  let s ← inspect
  if (look s.flat sub.name).isSome then cleanupOrphanedBlobsInDir parseStr io known sub else pure 0

def blobTexts (m : Manifest) : List Text := (listAllBlobNames m).map hyphenated

def cleanupOrphanedBlobs (m : Manifest) : Command Staging StorageError Nat := do
  meet io.listNames
  let pending ← cleanupSubdir parseStr io (blobTexts m) .pending
  let cache ← cleanupSubdir parseStr io (blobTexts m) .cache
  pure (pending + cache)

-- A file of that name is no directory, and stays.
def Staging.unmirrored (s : Staging) : Staging :=
  if (look s.flat mirrorTemp).any Entry.isFile then s else {s with flat := s.flat.erase mirrorTemp}

def removeMirrorTemp : Command Staging StorageError Unit := do
  let s ← inspect
  whenever (io.seesMirrorTemp && (look s.flat mirrorTemp).isSome) (ignoring (do
    meet io.removeMirrorTemp
    change Staging.unmirrored))

def prepareVaultStorage (m : Manifest) : Command Staging StorageError Nat := do
  ensureStagingDirectory io
  migrateFlatStagingBlobs parseStr io
  removeMirrorTemp io
  cleanupOrphanedBlobs parseStr io m

-- Where a name leads after some steps: its cached copy stays, and so do the others
-- unless the flat one has moved onto `pending/`.
structure Spared (name : OsName) (s t : Staging) : Prop where
  cache : look t.cache name = look s.cache name
  others : (look t.flat name = look s.flat name ∧ look t.pending name = look s.pending name) ∨
    ∃ id content, blobUuid parseStr name = some id ∧ look s.flat name = some (.file content) ∧
      look t.flat name = none ∧ look t.pending name = some (.file content)

section Looks
variable {parseStr} {s : Staging} {known : List Text}
variable {dir : Dir} {name other : OsName} {entry : Entry}

theorem look_insert : look (dir.insert name entry) name = some entry := AList.lookup_insert dir

theorem look_insert_other (apart : other ≠ name) : look (dir.insert name entry) other = look dir other :=
  AList.lookup_insert_ne apart

theorem look_erase : look (dir.erase name) name = none := AList.lookup_erase name dir

theorem look_erase_other (apart : other ≠ name) : look (dir.erase name) other = look dir other :=
  AList.lookup_erase_ne apart

theorem look_absent (absent : name ∉ dir.keys) : look dir name = none :=
  AList.lookup_eq_none.mpr absent

theorem migrating_some : migrating parseStr s name = some content ↔
    look s.flat name = some (.file content) ∧ ∃ id, blobUuid parseStr name = some id := by
  unfold migrating
  rcases look s.flat name with _ | (_ | _ | _) <;> cases blobUuid parseStr name <;> simp

theorem orphaned_true : orphaned parseStr known dir name = true ↔
    (∃ content, look dir name = some (.file content)) ∧ ∃ id, blobUuid parseStr name = some id ∧
      hyphenated id ∉ known := by
  unfold orphaned
  rcases look dir name with _ | (_ | _ | _) <;> cases blobUuid parseStr name <;> simp
  constructor
  · intro all member
    exact all _ member rfl
  · intro absent text member same
    exact absent (same ▸ member)

end Looks

section Frames
variable {parseStr} {io} {name other : OsName} {known : List Text} {sub : Subdir} {s t : Staging} {id : Uuid}

theorem spared_refl (s : Staging) : Spared parseStr name s s := ⟨rfl,.inl ⟨rfl,rfl⟩⟩

theorem spared_trans (a b c : Staging) (first : Spared parseStr name a b) (second : Spared parseStr name b c) :
    Spared parseStr name a c := by
  refine ⟨second.cache.trans first.cache,?_⟩
  rcases second.others with ⟨flat,pending⟩ | ⟨id,content,named,there,gone,moved⟩
  · rcases first.others with ⟨flat',pending'⟩ | ⟨id,content,named,there,gone,moved⟩
    · exact .inl ⟨flat.trans flat',pending.trans pending'⟩
    · exact .inr ⟨id,content,named,there,flat.trans gone,pending.trans moved⟩
  · rcases first.others with ⟨flat',pending'⟩ | ⟨_,_,_,_,gone',_⟩
    · exact .inr ⟨id,content,named,flat'.symm.trans there,gone,moved⟩
    · rw [gone'] at there
      cases there

theorem spared_subdir (other : name ≠ sub.name) : Keeps (Spared parseStr name) (makeSubdir io sub) := by
  have made (s : Staging) : Spared parseStr name s (s.made sub) := by
    unfold Staging.made
    split
    · exact spared_refl s
    · exact ⟨rfl,.inl ⟨look_insert_other other,rfl⟩⟩
  refine keeps_bind spared_trans (keeps_inspect spared_refl) fun _ => ?_
  refine keeps_bind spared_trans (keeps_require spared_refl _ _) fun _ => ?_
  exact keeps_bind spared_trans (keeps_meet spared_refl _) fun _ => keeps_change made

theorem spared_ensure (other : ∀ sub : Subdir, name ≠ sub.name) :
    Keeps (Spared parseStr name) (ensureStagingDirectory io) := by
  refine keeps_bind spared_trans (keeps_meet spared_refl _) fun _ => ?_
  refine keeps_bind spared_trans (keeps_change fun s => ⟨rfl,.inl ⟨rfl,rfl⟩⟩) fun _ => ?_
  exact keeps_bind spared_trans (spared_subdir (other .pending)) fun _ => spared_subdir (other .cache)

theorem spared_moved (there : migrating parseStr s other = some content) :
    Spared parseStr name s (s.moved other content) := by
  obtain ⟨there,id,named⟩ := migrating_some.mp there
  refine ⟨rfl,?_⟩
  by_cases same : name = other
  · subst same
    exact .inr ⟨id,content,named,there,look_erase,look_insert⟩
  · exact .inl ⟨look_erase_other same,look_insert_other same⟩

theorem spared_migrate_entry (acc : Unit) (other : OsName) :
    Keeps (Spared parseStr name) (migrateEntry parseStr io acc other) := by
  intro s
  apply lands_meet (spared_refl s)
  intro _
  apply lands_meet (spared_refl s)
  intro _
  rw [bind_inspect]
  cases there : migrating parseStr s other with
  | some content =>
    apply lands_require (spared_refl s)
    intro _
    apply lands_meet (spared_refl s)
    intro _
    exact spared_moved there
  | none => exact spared_refl s

theorem spared_migrate : Keeps (Spared parseStr name) (migrateFlatStagingBlobs parseStr io) := by
  refine keeps_bind spared_trans (keeps_inspect spared_refl) fun s => keeps_whenever spared_refl ?_
  refine keeps_bind spared_trans (keeps_meet spared_refl _) fun _ => ?_
  refine keeps_bind spared_trans ?_ fun _ => keeps_meet spared_refl _
  exact keeps_fold spared_refl spared_trans _ (fun acc other _ => spared_migrate_entry acc other) _

theorem spared_mirror (other : name ≠ mirrorTemp) : Keeps (Spared parseStr name) (removeMirrorTemp io) := by
  refine keeps_bind spared_trans (keeps_inspect spared_refl) fun s => keeps_whenever spared_refl (keeps_ignoring ?_)
  refine keeps_bind spared_trans (keeps_meet spared_refl _) fun _ => keeps_change fun s => ?_
  unfold Staging.unmirrored
  split
  · exact spared_refl s
  · exact ⟨rfl,.inl ⟨look_erase_other other,rfl⟩⟩

-- A removal takes a name away that is not the given one.
theorem removed_lands {P : Staging → Prop} (count : Nat) (name : OsName) (here : P s) (dropped : P (s.dropped sub name)) :
    P (removeFile io sub count name s).2 := by
  unfold removeFile
  cases io.remove sub name with
  | goes => exact dropped
  | gone => exact dropped
  | fails e => exact here
  | stops => exact here

theorem cleanup_entry_lands {P : Staging → Prop} (count : Nat) (name : OsName) (here : P s)
    (dropped : orphaned parseStr known (s.dir sub) name = true → P (s.dropped sub name)) :
    P (cleanupEntry parseStr io known sub count name s).2 := by
  apply lands_meet here
  intro _
  apply lands_meet here
  intro _
  rw [bind_inspect]
  split
  · rename_i orphan
    exact removed_lands count name here (dropped orphan)
  · exact here

theorem keeps_swept {R : Staging → Staging → Prop} (refl : ∀ s, R s s) (trans : ∀ a b c, R a b → R b c → R a c)
    (dropped : ∀ s name, orphaned parseStr known (s.dir sub) name = true → R s (s.dropped sub name)) :
    Keeps R (cleanupSubdir parseStr io known sub) := by
  refine keeps_bind trans (keeps_meet refl _) fun _ => keeps_bind trans (keeps_inspect refl) fun s => ?_
  split
  · refine keeps_bind trans (keeps_meet refl _) fun _ => keeps_bind trans (keeps_inspect refl) fun s => ?_
    refine keeps_bind trans ?_ fun count => keeps_bind trans (keeps_meet refl _) fun _ => keeps_pure refl count
    apply keeps_fold refl trans
    intro count name _ s
    exact cleanup_entry_lands count name (refl s) (dropped s name)
  · exact keeps_pure refl 0

theorem keeps_cleanup {R : Staging → Staging → Prop} (refl : ∀ s, R s s) (trans : ∀ a b c, R a b → R b c → R a c)
    (dropped : ∀ sub s name, orphaned parseStr (blobTexts m) (s.dir sub) name = true → R s (s.dropped sub name)) :
    Keeps R (cleanupOrphanedBlobs parseStr io m) := by
  refine keeps_bind trans (keeps_meet refl _) fun _ => ?_
  refine keeps_bind trans (keeps_swept refl trans (dropped .pending)) fun pending => ?_
  exact keeps_bind trans (keeps_swept refl trans (dropped .cache)) fun cache => keeps_pure refl _

theorem spared_dropped (apart : name ≠ other) : Spared parseStr name s (s.dropped sub other) := by
  cases sub with
  | pending => exact ⟨rfl,.inl ⟨rfl,look_erase_other apart⟩⟩
  | cache => exact ⟨look_erase_other apart,.inl ⟨rfl,rfl⟩⟩

theorem spared_cleanup (named : ∀ id, blobUuid parseStr name = some id → hyphenated id ∈ blobTexts m) :
    Keeps (Spared parseStr name) (cleanupOrphanedBlobs parseStr io m) := by
  apply keeps_cleanup spared_refl spared_trans
  intro sub s other orphan
  apply spared_dropped
  rintro rfl
  obtain ⟨_,id,parsed,absent⟩ := orphaned_true.mp orphan
  exact absent (named id parsed)

theorem spared_prepare (named : ∀ id, blobUuid parseStr name = some id → hyphenated id ∈ blobTexts m)
    (apart : name ≠ mirrorTemp) (outside : ∀ sub : Subdir, name ≠ sub.name) :
    Keeps (Spared parseStr name) (prepareVaultStorage parseStr io m) := by
  refine keeps_bind spared_trans (spared_ensure outside) fun _ => ?_
  refine keeps_bind spared_trans spared_migrate fun _ => ?_
  exact keeps_bind spared_trans (spared_mirror apart) fun _ => spared_cleanup named

end Frames

def Migrated (name : OsName) (s : Staging) : Prop :=
  ∀ id, blobUuid parseStr name = some id → (look s.flat name).any Entry.isFile = false

def Swept (known : List Text) (sub : Subdir) (name : OsName) (s : Staging) : Prop :=
  orphaned parseStr known (s.dir sub) name = false

section Endings
variable {parseStr} {io} {name other : OsName} {known : List Text} {sub : Subdir} {s t : Staging} {id : Uuid}

theorem migrated_moved (other : OsName) (migrated : Migrated parseStr name s) :
    Migrated parseStr name (s.moved other content) := by
  intro id named
  change (look (s.flat.erase other) name).any Entry.isFile = false
  by_cases same : name = other
  · rw [same,look_erase]
    rfl
  · rw [look_erase_other same]
    exact migrated id named

theorem migrated_stays (acc : Unit) (other : OsName) :
    Keeps (Carries (Migrated parseStr)) (migrateEntry parseStr io acc other) := by
  intro s name migrated
  apply lands_meet migrated
  intro _
  apply lands_meet migrated
  intro _
  rw [bind_inspect]
  cases migrating parseStr s other with
  | some content =>
    apply lands_require migrated
    intro _
    apply lands_meet migrated
    intro _
    exact migrated_moved other migrated
  | none => exact migrated

theorem migrate_entry_done {acc next : Unit} (ran : migrateEntry parseStr io acc name s = (.done next,t)) :
    Migrated parseStr name t := by
  simp only [migrateEntry,done_bind,done_meet,done_inspect] at ran
  obtain ⟨_,_,⟨_,rfl⟩,_,_,⟨_,rfl⟩,_,_,⟨rfl,rfl⟩,ran⟩ := ran
  intro id named
  cases there : migrating parseStr s name with
  | some content =>
    rw [there] at ran
    simp only [done_bind,done_require,done_meet,done_change] at ran
    obtain ⟨_,_,⟨_,rfl⟩,_,_,⟨_,rfl⟩,rfl⟩ := ran
    change (look (s.flat.erase name) name).any Entry.isFile = false
    rw [look_erase]
    rfl
  | none =>
    rw [there,done_pure] at ran
    obtain ⟨_,rfl⟩ := ran
    rcases found : look s.flat name with _ | (content | _ | _)
    · rfl
    · rw [migrating_some.mpr ⟨found,id,named⟩] at there
      cases there
    · rfl
    · rfl

theorem migrate_done (standing : s.standing = true) (ran : migrateFlatStagingBlobs parseStr io s = (.done (),t)) :
    ∀ name, Migrated parseStr name t := by
  simp only [migrateFlatStagingBlobs,done_bind,done_inspect,done_whenever,done_meet] at ran
  obtain ⟨_,_,⟨rfl,rfl⟩,ran,_⟩ := ran
  obtain ⟨_,_,⟨_,rfl⟩,_,u,looped,_,rfl⟩ := ran standing
  intro name
  apply fold_settles migrated_stays (fun acc name s next t => migrate_entry_done) looped name
  by_cases member : name ∈ s.flat.keys
  · exact .inl (io.order_all _ _ member)
  · refine .inr fun id _ => ?_
    rw [look_absent member]
    rfl

theorem dropped_dir (same : sub = sub') : (s.dropped sub' name).dir sub = (s.dir sub).erase name := by
  subst same
  cases sub <;> rfl

theorem dropped_other (apart : sub ≠ sub') : (s.dropped sub' name).dir sub = s.dir sub := by
  cases sub <;> cases sub' <;> first | rfl | exact absurd rfl apart

theorem orphaned_erase (swept : orphaned parseStr known dir name = false) :
    orphaned parseStr known (dir.erase other) name = false := by
  by_cases same : name = other
  · rw [orphaned,same,look_erase]
  · rw [orphaned,look_erase_other same]
    exact swept

theorem swept_dropped (sub' : Subdir) (other : OsName) (swept : Swept parseStr known sub name s) :
    Swept parseStr known sub name (s.dropped sub' other) := by
  unfold Swept at swept ⊢
  by_cases same : sub = sub'
  · rw [dropped_dir same]
    exact orphaned_erase swept
  · rw [dropped_other same]
    exact swept

theorem cleanup_entry_stays (count : Nat) (other : OsName) :
    Keeps (Carries (Swept parseStr known sub)) (cleanupEntry parseStr io known sub count other) := by
  intro s name swept
  exact cleanup_entry_lands count other swept fun _ => swept_dropped sub other swept

theorem remove_done {count next : Nat} (ran : removeFile io sub count name s = (.done next,t)) : t = s.dropped sub name := by
  unfold removeFile at ran
  cases fate : io.remove sub name <;> rw [fate] at ran <;> cases ran <;> rfl

theorem cleanup_entry_done {count next : Nat} (ran : cleanupEntry parseStr io known sub count name s = (.done next,t)) :
    Swept parseStr known sub name t := by
  simp only [cleanupEntry,done_bind,done_meet,done_inspect] at ran
  obtain ⟨_,_,⟨_,rfl⟩,_,_,⟨_,rfl⟩,_,_,⟨rfl,rfl⟩,ran⟩ := ran
  split at ran
  · rw [remove_done ran,Swept,dropped_dir rfl,orphaned,look_erase]
  · rename_i swept
    obtain ⟨_,rfl⟩ := done_pure.mp ran
    simpa [Swept] using swept

theorem cleanup_subdir_done {count : Nat} (made : (look s.flat sub.name).isSome = true)
    (ran : cleanupSubdir parseStr io known sub s = (.done count,t)) : ∀ name, Swept parseStr known sub name t := by
  simp only [cleanupSubdir,done_bind,done_meet,done_inspect] at ran
  obtain ⟨_,_,⟨_,rfl⟩,_,_,⟨rfl,rfl⟩,ran⟩ := ran
  rw [if_pos made] at ran
  simp only [cleanupOrphanedBlobsInDir,done_bind,done_meet,done_inspect,done_pure] at ran
  obtain ⟨_,_,⟨_,rfl⟩,_,_,⟨rfl,rfl⟩,_,u,ran,_,_,⟨_,rfl⟩,_,rfl⟩ := ran
  intro name
  apply fold_settles cleanup_entry_stays (fun count name s next t => cleanup_entry_done) ran name
  by_cases member : name ∈ (s.dir sub).keys
  · exact .inl (io.order_all _ _ member)
  · refine .inr ?_
    rw [Swept,orphaned,look_absent member]

theorem subdir_plain (sub : Subdir) : blobUuid parseStr sub.name = none := by
  cases sub <;> rfl

theorem made_there (sub : Subdir) : (look (s.made sub).flat sub.name).isSome = true := by
  unfold Staging.made
  split
  · assumption
  · rw [look_insert]
    rfl

theorem made_stays (sub : Subdir) (there : (look s.flat name).isSome = true) :
    (look (s.made sub).flat name).isSome = true := by
  by_cases same : name = sub.name
  · rw [same]
    exact made_there sub
  · unfold Staging.made
    split
    · exact there
    · rw [look_insert_other same]
      exact there

theorem made_standing (sub : Subdir) : (s.made sub).standing = s.standing := by
  unfold Staging.made
  split <;> rfl

theorem ensure_done (ran : ensureStagingDirectory io s = (.done (),t)) :
    t.standing = true ∧ ∀ sub : Subdir, (look t.flat sub.name).isSome = true := by
  simp only [ensureStagingDirectory,makeSubdir,done_bind,done_meet,done_change,done_inspect,done_require] at ran
  obtain ⟨_,_,⟨_,rfl⟩,_,u,rfl,_,_,⟨_,_,⟨rfl,rfl⟩,_,_,⟨_,rfl⟩,_,_,⟨_,rfl⟩,rfl⟩,_,_,⟨rfl,rfl⟩,_,_,⟨_,rfl⟩,_,_,⟨_,rfl⟩,rfl⟩ := ran
  refine ⟨?_,fun sub => ?_⟩
  · rw [made_standing,made_standing]
  · cases sub with
    | pending => exact made_stays .cache (made_there .pending)
    | cache => exact made_there .cache

theorem spared_subdir_name (spared : Spared parseStr sub.name s t) : look t.flat sub.name = look s.flat sub.name := by
  rcases spared.others with ⟨same,_⟩ | ⟨id,_,named,_⟩
  · exact same
  · rw [subdir_plain] at named
    cases named

theorem mirror_stays : Keeps (Carries (Migrated parseStr)) (removeMirrorTemp io) := by
  refine keeps_bind carries_trans (keeps_inspect carries_refl) fun s => keeps_whenever carries_refl (keeps_ignoring ?_)
  refine keeps_bind carries_trans (keeps_meet carries_refl _) fun _ => keeps_change fun s name migrated => ?_
  unfold Staging.unmirrored
  split
  · exact migrated
  · intro id named
    by_cases same : name = mirrorTemp
    · rw [same,look_erase]
      rfl
    · rw [look_erase_other same]
      exact migrated id named

theorem dropped_flat : (s.dropped sub name).flat = s.flat := by
  cases sub <;> rfl

theorem cleanup_migrated : Keeps (Carries (Migrated parseStr)) (cleanupOrphanedBlobs parseStr io m) := by
  refine keeps_cleanup carries_refl carries_trans fun sub s name _ other migrated => ?_
  unfold Migrated at migrated ⊢
  rw [dropped_flat]
  exact migrated

theorem swept_stays (sub' : Subdir) :
    Keeps (Carries (Swept parseStr known sub)) (cleanupSubdir parseStr io known sub') := by
  refine keeps_swept carries_refl carries_trans fun s other _ name swept => ?_
  exact swept_dropped sub' other swept

theorem flat_stays : Keeps (fun s t => t.flat = s.flat) (cleanupSubdir parseStr io known sub) :=
  keeps_swept (fun _ => rfl) (fun _ _ _ first second => second.trans first) fun _ _ _ => dropped_flat

theorem cleanup_done {count : Nat} (made : ∀ sub : Subdir, (look s.flat sub.name).isSome = true)
    (ran : cleanupOrphanedBlobs parseStr io m s = (.done count,t)) :
    ∀ sub name, Swept parseStr (blobTexts m) sub name t := by
  simp only [cleanupOrphanedBlobs,done_bind,done_meet,done_pure] at ran
  obtain ⟨_,_,⟨_,rfl⟩,_,u,first,_,v,second,_,rfl⟩ := ran
  have still : u.flat = s.flat := by
    have kept := keeps_done flat_stays first
    exact kept
  intro sub name
  cases sub with
  | pending => exact keeps_done (swept_stays .cache) second name (cleanup_subdir_done (made .pending) first name)
  | cache =>
    refine cleanup_subdir_done ?_ second name
    rw [still]
    exact made .cache

theorem prepare_done {count : Nat} (ran : prepareVaultStorage parseStr io m s = (.done count,t)) :
    (∀ name, Migrated parseStr name t) ∧ ∀ sub name, Swept parseStr (blobTexts m) sub name t := by
  simp only [prepareVaultStorage,done_bind] at ran
  obtain ⟨_,u,ensured,_,v,migrated,_,w,mirrored,cleaned⟩ := ran
  obtain ⟨standing,made⟩ := ensure_done ensured
  have there (sub : Subdir) : (look w.flat sub.name).isSome = true := by
    have first : Spared parseStr sub.name u v := keeps_done spared_migrate migrated
    have second : Spared parseStr sub.name v w := keeps_done (spared_mirror (by cases sub <;> decide)) mirrored
    rw [spared_subdir_name second,spared_subdir_name first]
    exact made sub
  refine ⟨fun name => ?_,cleanup_done there cleaned⟩
  apply keeps_done cleanup_migrated cleaned
  apply keeps_done mirror_stays mirrored
  exact migrate_done standing migrated name

end Endings

section Names
variable {parseStr} {id : Uuid}

theorem hexText_mod (width more value : Nat) : hexText width (value % 16 ^ (width + more)) = hexText width value :=
  hexText_same (Nat.mod_mod_of_dvd value (Nat.pow_dvd_pow 16 (Nat.le_add_right width more)))

theorem hyphenated_mod (id : Uuid) : hyphenated (id % 2 ^ 128) = hyphenated id := by
  have part (width more low : Nat) (fits : width + more + low = 32) :
      hexText width (id % 2 ^ 128 / 16 ^ low) = hexText width (id / 16 ^ low) := by
    have whole : 2 ^ 128 = 16 ^ low * 16 ^ (width + more) := by
      rw [← Nat.pow_add,show low + (width + more) = 32 by omega]
      rfl
    rw [whole,Nat.mod_mul_right_div_self,hexText_mod]
  delta hyphenated
  rw [part 8 0 24 rfl,part 4 8 20 rfl,part 4 12 16 rfl,part 4 16 12 rfl]
  have last := part 12 20 0 rfl
  simp only [Nat.pow_zero,Nat.div_one] at last
  rw [last]

theorem versionNumber_mod (id : Uuid) : versionNumber (id % 2 ^ 128) = versionNumber id := by
  unfold versionNumber
  omega

theorem dotless_parts {front back : Text} (filled : front ≠ []) (whole : '.' ∉ back) :
    fileStem (front ++ '.' :: back) = front ∧ fileExtension (front ++ '.' :: back) = some back := by
  have dropped : (front ++ '.' :: back).reverse.dropWhile (· ≠ '.') = '.' :: front.reverse := by
    rw [List.reverse_append,List.reverse_cons,List.append_assoc,List.dropWhile_append_of_pos]
    · rfl
    · intro c member
      have apart : c ≠ '.' := by
        rintro rfl
        exact whole (List.mem_reverse.mp member)
      simpa using apart
  have taken : (front ++ '.' :: back).reverse.takeWhile (· ≠ '.') = back.reverse := by
    rw [List.reverse_append,List.reverse_cons,List.append_assoc,List.takeWhile_append_of_pos]
    · simp
    · intro c member
      have apart : c ≠ '.' := by
        rintro rfl
        exact whole (List.mem_reverse.mp member)
      simpa using apart
  unfold fileStem fileExtension
  rw [dropped,taken]
  simp [filled]

theorem blob_parts (id : Uuid) : fileStem (blobFile id) = hyphenated id ∧
    fileExtension (blobFile id) = some ['b','l','o','b'] :=
  dotless_parts (Sharing.RemotePath.hyphenated_filled id) (by decide)

end Names

-- The file of a blob, as `push_vault` looks for it.
def blobName (id : Uuid) : OsName := .text (blobFile id)

-- Nothing the manifest names is removed, and nothing takes its place but a flat file
-- of the same name.
def Preserved (m : Manifest) (s t : Staging) : Prop :=
  ∀ id ∈ listAllBlobNames m, ∀ content,
    (look s.cache (blobName id) = some (.file content) → look t.cache (blobName id) = some (.file content)) ∧
    (look s.flat (blobName id) = some (.file content) →
      look t.flat (blobName id) = some (.file content) ∨ look t.pending (blobName id) = some (.file content)) ∧
    (look s.pending (blobName id) = some (.file content) → (look s.flat (blobName id)).any Entry.isFile = false →
      look t.pending (blobName id) = some (.file content))

def Found (m : Manifest) (s t : Staging) : Prop :=
  ∀ id ∈ listAllBlobNames m, versionNumber id = 4 → ∀ content,
    look s.flat (blobName id) = some (.file content) → look t.pending (blobName id) = some (.file content)

-- What is left in the subdirectories under the name of a blob is referenced.
def Clean (m : Manifest) (t : Staging) : Prop :=
  ∀ sub name id content, look (t.dir sub) name = some (.file content) → blobUuid parseStr name = some id →
    hyphenated id ∈ blobTexts m

section Blobs
variable {parseStr} {io} {m : Manifest} {s t : Staging} {id : Uuid}

theorem blob_apart (id : Uuid) : blobName id ≠ mirrorTemp ∧ ∀ sub : Subdir, blobName id ≠ sub.name := by
  have apart (name : Text) (plain : fileExtension name = none) : blobName id ≠ .text name := by
    intro same
    have parts := (blob_parts id).2
    rw [OsName.text.inj same,plain] at parts
    cases parts
  refine ⟨apart _ rfl,fun sub => ?_⟩
  cases sub with
  | pending => exact apart _ rfl
  | cache => exact apart _ rfl

def Entry.content : Entry → Option Bytes
  | .file content => some content
  | _ => none

-- The blobs of the staging directory as the sync model keeps them.
def Staging.files (s : Staging) : Store.Staging.Files := fun place id =>
  match place with
  | .pending => (look s.pending (blobName id)).bind Entry.content
  | .cache => (look s.cache (blobName id)).bind Entry.content
  | .flat => (look s.flat (blobName id)).bind Entry.content

theorem migrated_shown (spared : ∀ id, Spared parseStr (blobName id) s t) :
    ∃ moved, t.files = Store.Staging.migrateFlatStagingBlobs moved s.files := by
  refine ⟨fun id => look t.flat (blobName id) ≠ look s.flat (blobName id),?_⟩
  funext place id
  have kept := spared id
  rcases kept.others with ⟨flat,pending⟩ | ⟨_,content,_,there,gone,arrived⟩
  · rw [Store.Staging.migrateFlatStagingBlobs,if_neg (by simp [flat])]
    cases place <;> simp only [Staging.files,flat,pending,kept.cache]
  · have found : s.files .flat id = some content := by
      simp only [Staging.files,there]
      rfl
    rw [Store.Staging.migrateFlatStagingBlobs,if_pos ⟨by simp [there,gone],by rw [found]; rfl⟩]
    cases place with
    | pending => simp only [Staging.files,Store.Staging.renamed,arrived,there]
    | cache => simp only [Staging.files,Store.Staging.renamed,kept.cache]
    | flat =>
      simp only [Staging.files,Store.Staging.renamed,gone]
      rfl

-- What a cleanup leaves under a name: what was there, or nothing where no row names it.
def Thinned (m : Manifest) (id : Uuid) (s t : Staging) : Prop :=
  look t.flat (blobName id) = look s.flat (blobName id) ∧
    ∀ sub, look (t.dir sub) (blobName id) = look (s.dir sub) (blobName id) ∨
      look (t.dir sub) (blobName id) = none ∧ id ∉ listAllBlobNames m

theorem thinned_refl (s : Staging) : Thinned m id s s := ⟨rfl,fun _ => .inl rfl⟩

theorem thinned_trans (a b c : Staging) (first : Thinned m id a b) (second : Thinned m id b c) : Thinned m id a c := by
  refine ⟨second.1.trans first.1,fun sub => ?_⟩
  rcases second.2 sub with same | gone
  · rcases first.2 sub with same' | gone
    · exact .inl (same.trans same')
    · exact .inr ⟨same.trans gone.1,gone.2⟩
  · exact .inr gone

theorem cleaned_shown (thinned : ∀ id, Thinned m id s t) :
    ∃ swept, t.files = Store.Staging.cleanupOrphanedBlobs (listAllBlobNames m) swept s.files := by
  refine ⟨fun place id => t.files place id ≠ s.files place id,?_⟩
  funext place id
  obtain ⟨flat,subs⟩ := thinned id
  have kept : t.files place id = s.files place id ∨
      t.files place id = none ∧ place ≠ .flat ∧ id ∉ listAllBlobNames m := by
    cases place with
    | pending =>
      rcases subs .pending with same | ⟨gone,absent⟩
      · exact .inl (congrArg (Option.bind · Entry.content) same)
      · exact .inr ⟨congrArg (Option.bind · Entry.content) gone,by decide,absent⟩
    | cache =>
      rcases subs .cache with same | ⟨gone,absent⟩
      · exact .inl (congrArg (Option.bind · Entry.content) same)
      · exact .inr ⟨congrArg (Option.bind · Entry.content) gone,by decide,absent⟩
    | flat => exact .inl (congrArg (Option.bind · Entry.content) flat)
  unfold Store.Staging.cleanupOrphanedBlobs
  split
  · rename_i removed
    rcases kept with same | ⟨gone,_⟩
    · exact absurd same (by simpa using removed.2.2)
    · exact gone
  · rename_i stays
    rcases kept with same | ⟨gone,inside,absent⟩
    · exact same
    · by_contra changed
      exact stays ⟨inside,absent,by simpa using changed⟩

variable (printed : ∀ id, parseStr (hyphenated id) = some (id % 2 ^ 128))
include printed

theorem blob_uuid : blobUuid parseStr (blobName id) = some other ↔ versionNumber id = 4 ∧ id % 2 ^ 128 = other := by
  unfold blobUuid blobName
  obtain ⟨stem,extension⟩ := blob_parts id
  simp only [stem,extension,printed,if_true,Option.filter_some,decide_eq_true_eq,versionNumber_mod]
  split <;> simp_all

theorem blob_spared (named : id ∈ listAllBlobNames m) :
    Spared parseStr (blobName id) s (prepareVaultStorage parseStr io m s).2 := by
  refine spared_prepare ?_ (blob_apart id).1 (blob_apart id).2 s
  intro other parsed
  rw [← ((blob_uuid printed).mp parsed).2,hyphenated_mod]
  exact List.mem_map_of_mem named

theorem prepare_preserves : Preserved m s (prepareVaultStorage parseStr io m s).2 := by
  intro id named content
  have spared : Spared parseStr (blobName id) s (prepareVaultStorage parseStr io m s).2 := blob_spared printed named
  refine ⟨fun there => spared.cache.trans there,fun there => ?_,fun there alone => ?_⟩
  · rcases spared.others with ⟨same,_⟩ | ⟨_,moved,_,found,_,arrived⟩
    · exact .inl (same.trans there)
    · cases found.symm.trans there
      exact .inr arrived
  · rcases spared.others with ⟨_,same⟩ | ⟨_,moved,_,found,_,_⟩
    · exact same.trans there
    · rw [found] at alone
      cases alone

-- However startup ends, it keeps what the manifest references; where it goes
-- through, the flat blobs wait in `pending/` and the subdirectories hold no orphan.
theorem startup_keeps_blobs (m : Manifest) (s : Staging) : Preserved m s (prepareVaultStorage parseStr io m s).2 ∧
    ∀ count, (prepareVaultStorage parseStr io m s).1 = .done count →
      Found m s (prepareVaultStorage parseStr io m s).2 ∧ Clean parseStr m (prepareVaultStorage parseStr io m s).2 := by
  refine ⟨prepare_preserves printed,fun count ended => ?_⟩
  obtain ⟨migrated,swept⟩ := prepare_done (Prod.ext ended rfl)
  refine ⟨?_,?_⟩
  · intro id named version content there
    have gone := migrated (blobName id) _ ((blob_uuid printed).mpr ⟨version,rfl⟩)
    rcases ((prepare_preserves printed) id named content).2.1 there with still | moved
    · rw [still] at gone
      cases gone
    · exact moved
  · intro sub name id content there parsed
    by_contra absent
    have orphan := orphaned_true.mpr ⟨⟨content,there⟩,id,parsed,absent⟩
    rw [swept sub name] at orphan
    cases orphan

theorem thinned_dropped (name : OsName) (orphan : orphaned parseStr (blobTexts m) (s.dir sub) name = true) :
    Thinned m id s (s.dropped sub name) := by
  refine ⟨by rw [dropped_flat],fun sub' => ?_⟩
  by_cases same : sub' = sub
  · rw [dropped_dir same,same]
    by_cases here : blobName id = name
    · obtain ⟨_,other,parsed,absent⟩ := orphaned_true.mp orphan
      rw [← here,blob_uuid printed] at parsed
      rw [← parsed.2,hyphenated_mod] at absent
      exact .inr ⟨by rw [here,look_erase],fun member => absent (List.mem_map_of_mem member)⟩
    · exact .inl (look_erase_other here)
  · exact .inl (by rw [dropped_other same])

theorem prepare_phases : ∃ u, (∀ id, Spared parseStr (blobName id) s u) ∧
    ∀ id, Thinned m id u (prepareVaultStorage parseStr io m s).2 := by
  have first : Keeps (fun s u => ∀ id, Spared parseStr (blobName id) s u)
      (do ensureStagingDirectory io; migrateFlatStagingBlobs parseStr io; removeMirrorTemp io) := by
    intro s id
    refine keeps_bind spared_trans (spared_ensure (blob_apart id).2) (fun _ => ?_) s
    exact keeps_bind spared_trans spared_migrate fun _ => spared_mirror (blob_apart id).1
  have later : Keeps (fun u t => ∀ id, Thinned m id u t) (cleanupOrphanedBlobs parseStr io m) := by
    intro s id
    exact keeps_cleanup thinned_refl thinned_trans (fun sub s name orphan => thinned_dropped printed name orphan) s
  have merged : prepareVaultStorage parseStr io m = (do
      (do ensureStagingDirectory io; migrateFlatStagingBlobs parseStr io; removeMirrorTemp io)
      cleanupOrphanedBlobs parseStr io m) := by
    simp only [bind_assoc,prepareVaultStorage]
  rw [merged]
  exact keeps_phases (fun t id => thinned_refl t) first (fun _ => later) s

-- However startup ends, the sync model's reading of it leaves the same blobs.
theorem prepare_shown : ∃ moved swept, (prepareVaultStorage parseStr io m s).2.files =
    Store.Staging.prepareVaultStorage m moved swept s.files := by
  obtain ⟨u,spared,thinned⟩ := @prepare_phases parseStr io m s printed
  obtain ⟨moved,migrated⟩ := migrated_shown spared
  obtain ⟨swept,cleaned⟩ := cleaned_shown thinned
  exact ⟨moved,swept,by rw [cleaned,migrated]; rfl⟩

end Blobs

theorem hexText_value (width value acc : Nat) :
    (hexText width value).foldl (fun total c => 16 * total + hexValue c) acc = acc * 16 ^ width + value % 16 ^ width := by
  induction width generalizing value with
  | zero =>
    rw [hexText,Nat.pow_zero,Nat.mod_one]
    simp
  | succ width ih =>
    have digit : ∀ n < 16, hexValue (Nat.digitChar n) = n := by decide
    rw [hexText,List.foldl_append,ih]
    simp only [List.foldl_cons,List.foldl_nil]
    rw [digit _ (Nat.mod_lt _ (by decide)),Nat.pow_succ,Nat.mul_comm (16 ^ width) 16,Nat.mod_mul,Nat.mul_add,
      Nat.mul_left_comm acc]
    omega

theorem hexText_plain (width value : Nat) : (hexText width value).filter (· ≠ '-') = hexText width value := by
  rw [List.filter_eq_self]
  intro c member
  simpa using (hexText_hex width value c member).2

theorem hyphenated_digits (id : Uuid) : (hyphenated id).filter (· ≠ '-') = hexText 8 (id / 16 ^ 24) ++
    (hexText 4 (id / 16 ^ 20) ++ (hexText 4 (id / 16 ^ 16) ++ (hexText 4 (id / 16 ^ 12) ++ hexText 12 id))) := by
  have skip (rest : Text) : ('-' :: rest).filter (· ≠ '-') = rest.filter (· ≠ '-') := rfl
  delta hyphenated
  simp only [List.filter_append,skip,hexText_plain]

theorem word_parts (n : Nat) : ((((0 * 16 ^ 8 + n / 16 ^ 24 % 16 ^ 8) * 16 ^ 4 + n / 16 ^ 20 % 16 ^ 4) * 16 ^ 4 +
    n / 16 ^ 16 % 16 ^ 4) * 16 ^ 4 + n / 16 ^ 12 % 16 ^ 4) * 16 ^ 12 + n % 16 ^ 12 = n % 2 ^ 128 := by
  omega

theorem hyphenated_printed (id : Uuid) : hyphenatedUuid (hyphenated id) = some (id % 2 ^ 128) := by
  obtain ⟨other,parsed⟩ := Option.isSome_iff_exists.mp (hyphenated_documented.printed id)
  rw [parsed]
  unfold hyphenatedUuid at parsed
  split at parsed
  · rw [hyphenated_digits] at parsed
    simp only [List.foldl_append,hexText_value,word_parts] at parsed
    exact parsed.symm
  · cases parsed

def steadyIo : Io where
  makeRoot := .goes
  makeSubdir := fun _ => .goes
  openFlat := .goes
  nextFlat := fun _ => .goes
  typeFlat := fun _ => .goes
  rename := fun _ => .goes
  endFlat := .goes
  seesMirrorTemp := true
  removeMirrorTemp := .goes
  listNames := .goes
  tryExists := fun _ => .goes
  openDir := fun _ => .goes
  next := fun _ _ => .goes
  fileType := fun _ _ => .goes
  remove := fun _ _ => .goes
  endDir := fun _ => .goes
  order := fun names => names
  order_all := fun _ _ member => member

def tracked : Uuid := 0xbbbbbbbbbbbb4bbb8bbbbbbbbbbbbbbb

-- Version 1.
def timed : Uuid := 0xf81d4fae7dec11d0a76500a0c91e6bf6

def trackingManifest : Manifest where
  nodes := []
  chunks := [⟨1,2,0,.flat tracked,4,[]⟩]
  epochBlobs := []
  epochBuffer := []
  pendingDeletions := []
  manifestMeta := ⟨9,0,none,4,false,none⟩

-- A flat blob with a namesake in `pending/`, and a cached file of version 1.
def namesakes : Staging where
  standing := true
  flat := (AList.insert Subdir.pending.name .directory (AList.insert Subdir.cache.name .directory
    (AList.insert (blobName tracked) (.file [2]) ∅)))
  pending := AList.insert (blobName tracked) (.file [1]) ∅
  cache := AList.insert (blobName timed) (.file [3]) ∅

def started : Ending StorageError Nat × Staging :=
  prepareVaultStorage hyphenatedUuid steadyIo trackingManifest namesakes

theorem startup_keeps_tracked : Preserved trackingManifest namesakes started.2 ∧
    ∀ count, started.1 = .done count →
      Found trackingManifest namesakes started.2 ∧ Clean hyphenatedUuid trackingManifest started.2 :=
  startup_keeps_blobs hyphenated_printed trackingManifest namesakes

theorem namesake_replaced_version_kept : started.1 = .done 0 ∧
    tracked ∈ listAllBlobNames trackingManifest ∧ look namesakes.pending (blobName tracked) = some (.file [1]) ∧
    look started.2.pending (blobName tracked) = some (.file [2]) ∧
    hyphenatedUuid (hyphenated timed) = some timed ∧ timed ∉ listAllBlobNames trackingManifest ∧
    look started.2.cache (blobName timed) = some (.file [3]) := by
  decide +kernel

end ArxRuna.Vault.Startup
