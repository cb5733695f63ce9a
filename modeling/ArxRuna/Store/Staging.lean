import ArxRuna.Store.Tables
namespace ArxRuna.Store.Staging
open Library.Aead Library.Fallible Crypto Store.Tables

-- The staging directory: `pending/`, `cache/` and the flat root that older
-- installations used. Files are keyed by the stem of `<name>.blob`.
inductive Place where
  | pending
  | cache
  | flat
  deriving DecidableEq, Repr

abbrev Files := Place → BlobName → Option Bytes

def noFiles : Files := fun _ _ => none

def Files.write (files : Files) (place : Place) (name : BlobName) (content : Option Bytes) : Files :=
  fun place' name' => if place' = place ∧ name' = name then content else files place' name'

def Files.remove (files : Files) (place : Place) (name : BlobName) : Files := files.write place name none

def resolveBlobPath (files : Files) (name : BlobName) : Place :=
  if (files .pending name).isSome then .pending
  else if (files .cache name).isSome then .cache
  else .flat

def readBlob (files : Files) (name : BlobName) : Except StorageError Bytes :=
  match files (resolveBlobPath files name) name with
  | none => .error (.io "No such file or directory")
  | some bytes => .ok bytes

-- One rename from the flat root onto `pending/`, replacing what is there.
def renamed (files : Files) (name : BlobName) : Place → Option Bytes
  | .pending => files .flat name
  | .cache => files .cache name
  | .flat => none

-- A rename that fails ends the migration, so any part of it may have happened:
-- `moved` tells for which files it did.
def migrateFlatStagingBlobs (moved : BlobName → Bool) (files : Files) : Files := fun place name =>
  if moved name ∧ (files .flat name).isSome then renamed files name place else files place name

def cleanupOrphanedBlobs (known : List BlobName) (swept : Place → BlobName → Bool) (files : Files) : Files :=
  fun place name => if place ≠ .flat ∧ name ∉ known ∧ swept place name then none else files place name

def prepareVaultStorage (m : Manifest) (moved : BlobName → Bool) (swept : Place → BlobName → Bool)
    (files : Files) : Files :=
  cleanupOrphanedBlobs (listAllBlobNames m) swept (migrateFlatStagingBlobs moved files)

-- A name has this content: some copy exists, and no copy differs.
structure Intact (files : Files) (name : BlobName) (content : Bytes) : Prop where
  present : ∃ place, files place name = some content
  same : ∀ place other, files place name = some other → other = content

variable {files : Files} {name : BlobName} {content : Bytes}

@[simp] theorem write_same : files.write place name value place name = value := by
  simp [Files.write]

theorem write_other (other : name' ≠ name) : files.write place name value place' name' = files place' name' := by
  simp [Files.write,other]

theorem write_fresh_intact (fresh : ∀ place, files place name = none) :
    Intact (files.write place name (some content)) name content := by
  refine ⟨⟨place,by simp⟩,fun place' other found => ?_⟩
  unfold Files.write at found
  split at found
  · exact (Option.some.inj found).symm
  · rw [fresh place'] at found
    cases found

theorem Intact.write_other (intact : Intact files name content) (other : name ≠ name') :
    Intact (files.write place name' value) name content := by
  obtain ⟨⟨there,found⟩,same⟩ := intact
  refine ⟨⟨there,?_⟩,fun place' other' found' => ?_⟩
  · rw [Staging.write_other other]
    exact found
  · rw [Staging.write_other other] at found'
    exact same place' other' found'

theorem Intact.congr (intact : Intact files name content) (same : ∀ place, files' place name = files place name) :
    Intact files' name content := by
  obtain ⟨⟨place,there⟩,copies⟩ := intact
  exact ⟨⟨place,by rw [same,there]⟩,fun place' other found => copies place' other (by rwa [same] at found)⟩

theorem resolve_present (there : files place name = some value) :
    ∃ found, files (resolveBlobPath files name) name = some found := by
  unfold resolveBlobPath
  split
  · rename_i pending
    exact Option.isSome_iff_exists.mp pending
  · rename_i pending
    split
    · rename_i cache
      exact Option.isSome_iff_exists.mp cache
    · rename_i cache
      cases place with
      | pending => simp [there] at pending
      | cache => simp [there] at cache
      | flat => exact ⟨value,there⟩

theorem Intact.read (intact : Intact files name content) : readBlob files name = .ok content := by
  obtain ⟨⟨place,there⟩,same⟩ := intact
  obtain ⟨found,resolved⟩ := resolve_present there
  simp only [readBlob,resolved,same _ found resolved]

theorem Intact.migrate (intact : Intact files name content) :
    Intact (migrateFlatStagingBlobs moved files) name content := by
  obtain ⟨⟨place,there⟩,same⟩ := intact
  by_cases applies : moved name ∧ (files .flat name).isSome
  · obtain ⟨flat,found⟩ := Option.isSome_iff_exists.mp applies.2
    refine ⟨⟨.pending,?_⟩,fun place' other copy => ?_⟩
    · rw [migrateFlatStagingBlobs,if_pos applies]
      exact found.trans (congrArg some (same _ flat found))
    · rw [migrateFlatStagingBlobs,if_pos applies] at copy
      cases place' with
      | pending => exact same _ other copy
      | cache => exact same _ other copy
      | flat => cases copy
  · have unmoved (place : Place) : migrateFlatStagingBlobs moved files place name = files place name := by
      rw [migrateFlatStagingBlobs,if_neg applies]
    exact ⟨⟨place,by rw [unmoved,there]⟩,fun place' other copy => same place' other (by rwa [unmoved] at copy)⟩

theorem Intact.cleanup (intact : Intact files name content) (listed : name ∈ known) :
    Intact (cleanupOrphanedBlobs known swept files) name content := by
  obtain ⟨⟨place,there⟩,same⟩ := intact
  have kept (place : Place) : cleanupOrphanedBlobs known swept files place name = files place name := by
    simp [cleanupOrphanedBlobs,listed]
  exact ⟨⟨place,by rw [kept,there]⟩,fun place' other found => same place' other (by rwa [kept] at found)⟩

theorem Intact.prepare (intact : Intact files name content) (listed : name ∈ listAllBlobNames m) :
    Intact (prepareVaultStorage m moved swept files) name content :=
  (intact.migrate).cleanup listed

end ArxRuna.Store.Staging
