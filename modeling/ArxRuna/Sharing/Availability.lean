import ArxRuna.Sharing.Lifecycle
namespace ArxRuna.Sharing.Availability
open Library.Run Library.Fallible Crypto Cloud.Transport Rows Revocation Lifecycle
variable {s s' next : Shop} {t : Nat} {task : Task} {share : ShareRecord} {snapshot : FileShareSnapshot}
  {fileShareId blobName : Uuid}

-- Every share that is not revoked and that no revocation has taken up has its
-- snapshot and all blobs the snapshot names.
def Downloadable (s : Shop) : Prop :=
  ∀ row ∈ s.tables.shares, row.active = true → row.shareId ∉ s.attempted →
    ∃ snapshot, s.tables.getFileShare row.fileShareId = some snapshot ∧
      ∀ name ∈ snapshot.chunkUuids, (row.fileShareId,name) ∈ s.blobs

def Unheld (s : Shop) (fileShareId : Uuid) : Prop :=
  ∀ row ∈ s.tables.shares, row.active = true → row.shareId ∉ s.attempted → row.fileShareId ≠ fileShareId

-- A revocation removes a blob or the snapshot only of a file share that no untouched
-- active share uses, and a row is only inserted for a file share of which no
-- revocation has removed anything.
def Allowed (s : Shop) (task : Option Task) (act : Action) : Prop :=
  match task,act with
  | some (.revoking (.deleting share (blobName :: _)) _),.delete _ fate =>
    fate.removes = true → (share.fileShareId,blobName) ∈ s.blobs → Unheld s share.fileShareId
  | some (.revoking (.dropping share) _),.drop _ true => Unheld s share.fileShareId
  | some (.ready _ fileShareId),.insertRow _ shareId _ _ true =>
    shareId ∉ s.tables.shares.map (·.shareId) → fileShareId ∉ s.damaged
  | _,_ => True

def Orderly (s : Shop) (act : Action) : Prop := Allowed s (s.tasks act.task) act

def Published (s : Shop) (fileShareId : Uuid) : Prop := ∃ snapshot ∈ s.published, snapshot.fileShareId = fileShareId

def Private (s : Shop) (fileShareId : Uuid) : Prop := fileShareId ∈ s.drawn ∧ ¬ Published s fileShareId

def privateOf : Task → Option Uuid
  | .building _ fileShareId _ _ | .cleaning fileShareId _ => some fileShareId
  | .built _ snapshot => some snapshot.fileShareId
  | _ => none

def Fits (s : Shop) : Task → Prop
  | .reuse _ fileShareId | .ready _ fileShareId => Published s fileShareId
  | .building _ fileShareId uploaded _ =>
    Private s fileShareId ∧ ∀ name, (fileShareId,name) ∈ s.blobs ↔ name ∈ uploaded
  | .cleaning fileShareId _ => Private s fileShareId
  | .built _ snapshot =>
    Private s snapshot.fileShareId ∧ ∀ name, (snapshot.fileShareId,name) ∈ s.blobs ↔ name ∈ snapshot.chunkUuids
  | .revoking stage _ => Published s stage.share.fileShareId
  | .sweeping _ => True

def Whole (s : Shop) (snapshot : FileShareSnapshot) : Prop :=
  s.tables.getFileShare snapshot.fileShareId = some snapshot ∧
    ∀ name ∈ snapshot.chunkUuids, (snapshot.fileShareId,name) ∈ s.blobs

-- How rows, snapshots, blobs and history hang together, whatever order the steps
-- are taken in. The history tells exactly which snapshots are whole.
structure Core (s : Shop) : Prop where
  rows : ∀ row ∈ s.tables.shares, Published s row.fileShareId
  stored : ∀ snapshot ∈ s.tables.fileShares, snapshot ∈ s.published
  one : ∀ a ∈ s.published, ∀ b ∈ s.published, a.fileShareId = b.fileShareId → a = b
  known : ∀ snapshot ∈ s.published, snapshot.fileShareId ∈ s.drawn
  placed : ∀ blob ∈ s.blobs, blob.1 ∈ s.drawn
  named : ∀ snapshot ∈ s.published, ∀ name, (snapshot.fileShareId,name) ∈ s.blobs → name ∈ snapshot.chunkUuids
  whole : ∀ snapshot ∈ s.published, snapshot.fileShareId ∉ s.damaged ↔ Whole s snapshot
  taken : ∀ id ∈ s.attempted, id ∈ s.tables.shares.map (·.shareId)
  harmed : ∀ fileShareId ∈ s.damaged, Published s fileShareId

structure Sound (s : Shop) : Prop extends Core s where
  fits : ∀ t task, s.tasks t = some task → Fits s task
  apart : ∀ t t' task task' fileShareId, s.tasks t = some task → s.tasks t' = some task' →
    privateOf task = some fileShareId → privateOf task' = some fileShareId → t = t'

-- The property in terms of the history.
def Undamaged (s : Shop) : Prop :=
  ∀ row ∈ s.tables.shares, row.active = true → row.shareId ∉ s.attempted → row.fileShareId ∉ s.damaged

theorem found_file_share {tables : SharingTables} (found : tables.getFileShare fileShareId = some snapshot) :
    snapshot ∈ tables.fileShares ∧ snapshot.fileShareId = fileShareId :=
  ⟨List.mem_of_find?_eq_some found,by simpa using List.find?_some found⟩

theorem downloadable_iff (core : Core s) : Downloadable s ↔ Undamaged s := by
  constructor
  · intro law row member active untouched
    obtain ⟨snapshot,found,blobs⟩ := law row member active untouched
    obtain ⟨stored,same⟩ := found_file_share found
    rw [← same]
    apply (core.whole snapshot (core.stored snapshot stored)).mpr
    rw [Whole,same]
    exact ⟨found,blobs⟩
  · intro law row member active untouched
    obtain ⟨snapshot,published,same⟩ := core.rows row member
    have undamaged := law row member active untouched
    rw [← same] at undamaged ⊢
    exact ⟨snapshot,(core.whole snapshot published).mp undamaged⟩

-- What a step does to the file shares it does not own.
structure Calm (s s' : Shop) (own : Uuid → Prop) : Prop where
  drawn : ∀ fileShareId ∈ s.drawn, fileShareId ∈ s'.drawn
  published : ∀ snapshot ∈ s.published, snapshot ∈ s'.published
  fresh : ∀ snapshot ∈ s'.published, snapshot ∈ s.published ∨ own snapshot.fileShareId
  blobs : ∀ fileShareId name, ¬ own fileShareId → ((fileShareId,name) ∈ s'.blobs ↔ (fileShareId,name) ∈ s.blobs)

theorem Calm.published_still {own : Uuid → Prop} (calm : Calm s s' own) (published : Published s fileShareId) :
    Published s' fileShareId := by
  obtain ⟨snapshot,member,same⟩ := published
  exact ⟨snapshot,calm.published snapshot member,same⟩

theorem Calm.private_still {own : Uuid → Prop} (calm : Calm s s' own) (other : ¬ own fileShareId)
    (hidden : Private s fileShareId) : Private s' fileShareId := by
  refine ⟨calm.drawn _ hidden.1,?_⟩
  rintro ⟨snapshot,member,same⟩
  rcases calm.fresh snapshot member with old | mine
  · exact hidden.2 ⟨snapshot,old,same⟩
  · exact other (same ▸ mine)

theorem fits_calm {own : Uuid → Prop} (calm : Calm s s' own) (other : ∀ mine, privateOf task = some mine → ¬ own mine)
    (fits : Fits s task) : Fits s' task := by
  cases task with
  | reuse | ready | revoking => exact calm.published_still fits
  | building request mine uploaded left =>
    have away := other mine rfl
    refine ⟨calm.private_still away fits.1,?_⟩
    intro name
    rw [calm.blobs mine name away]
    exact fits.2 name
  | cleaning mine left => exact calm.private_still (other mine rfl) fits
  | built request snapshot =>
    have away := other snapshot.fileShareId rfl
    refine ⟨calm.private_still away fits.1,?_⟩
    intro name
    rw [calm.blobs _ name away]
    exact fits.2 name
  | sweeping => trivial

-- One call takes a step: the other calls keep what they rely on.
theorem sound_step (own : Uuid → Prop) (sound : Sound s) (core : Core s') (calm : Calm s s' own)
    (others : ∀ t', t' ≠ t → s'.tasks t' = s.tasks t')
    (away : ∀ t' task mine, t' ≠ t → s.tasks t' = some task → privateOf task = some mine → ¬ own mine)
    (fits : ∀ task, s'.tasks t = some task → Fits s' task)
    (apart : ∀ task mine, s'.tasks t = some task → privateOf task = some mine →
      ∀ t' task', t' ≠ t → s.tasks t' = some task' → privateOf task' ≠ some mine) : Sound s' := by
  refine ⟨core,?_,?_⟩
  · intro t' task running
    by_cases same : t' = t
    · subst same
      exact fits task running
    · rw [others t' same] at running
      exact fits_calm calm (fun mine hidden => away t' task mine same running hidden) (sound.fits t' task running)
  · intro a b task task' mine first second hidden hidden'
    by_cases left : a = t
    · by_cases right : b = t
      · rw [left,right]
      · subst left
        rw [others b right] at second
        exact absurd hidden' (apart task mine first hidden b task' right second)
    · rw [others a left] at first
      by_cases right : b = t
      · subst right
        exact absurd hidden (apart task' mine second hidden' a task left first)
      · rw [others b right] at second
        exact sound.apart a b task task' mine first second hidden hidden'

theorem calm_same {s' : Shop} (drawn : s'.drawn = s.drawn) (published : s'.published = s.published)
    (blobs : s'.blobs = s.blobs) : Calm s s' (fun _ => False) := by
  refine ⟨?_,?_,?_,?_⟩
  · rw [drawn]
    exact fun _ member => member
  · rw [published]
    exact fun _ member => member
  · rw [published]
    exact fun _ member => .inl member
  · rw [blobs]
    exact fun _ _ _ => Iff.rfl

theorem core_retask (core : Core s) (task : Option Task) : Core (s.setTask t task) :=
  ⟨core.rows,core.stored,core.one,core.known,core.placed,core.named,core.whole,core.taken,core.harmed⟩

theorem setTask_same (s : Shop) (t : Nat) (task : Option Task) : (s.setTask t task).tasks t = task := by
  simp [Shop.setTask]

theorem setTask_other (s : Shop) (task : Option Task) (other : t' ≠ t) : (s.setTask t task).tasks t' = s.tasks t' := by
  simp [Shop.setTask,other]

theorem retask_sound (sound : Sound s) {new : Option Task} (fits : ∀ task, new = some task → Fits s task)
    (hidden : ∀ task mine, new = some task → privateOf task = some mine →
      ∃ old, s.tasks t = some old ∧ privateOf old = some mine) : Sound (s.setTask t new) := by
  apply sound_step (t := t) (fun _ => False) sound (core_retask sound.toCore new) (calm_same rfl rfl rfl)
  · intro t' other
    exact setTask_other s new other
  · intro _ _ _ _ _ _ never
    exact never
  · intro task running
    rw [setTask_same] at running
    exact fits task running
  · intro task mine running secret t' task' other running' secret'
    rw [setTask_same] at running
    obtain ⟨old,before,same⟩ := hidden task mine running secret
    exact other (sound.apart t' t task' old mine running' before secret' same)

theorem stop_sound (sound : Sound s) : Sound (s.setTask t none) :=
  retask_sound sound (by rintro _ ⟨⟩) (by rintro _ _ ⟨⟩)

theorem ended_sound (sound : Sound s) (rest : List Uuid) : Sound (s.setTask t (ended rest)) := by
  cases rest with
  | nil => exact stop_sound sound
  | cons id rest =>
    apply retask_sound sound
    · intro task same
      cases same
      trivial
    · intro task mine same secret
      cases same
      cases secret

theorem revoking_sound (sound : Sound s) {stage : RevokeStage} (published : Published s stage.share.fileShareId)
    (rest : List Uuid) : Sound (s.setTask t (some (.revoking stage rest))) := by
  apply retask_sound sound
  · intro task same
    cases same
    exact published
  · intro task mine same secret
    cases same
    cases secret

@[simp] theorem afterDelete_share (share : ShareRecord) (left : List Uuid) : (afterDelete share left).share = share := by
  cases left <;> rfl

theorem begin_revoke_sound (sound : Sound s) (shareId : Uuid) (rest : List Uuid) :
    Sound (beginRevoke s t shareId rest) := by
  unfold beginRevoke
  cases found : s.tables.getShare shareId with
  | error failure => exact ended_sound sound rest
  | ok share =>
    dsimp only
    split
    · obtain ⟨member,same⟩ := found_share found
      have moved : Sound (s.setTask t (some (.revoking (.found share) rest))) := by
        apply revoking_sound sound _ rest
        exact sound.rows share member
      refine ⟨⟨moved.rows,moved.stored,moved.one,moved.known,moved.placed,moved.named,moved.whole,?_,moved.harmed⟩,moved.fits,moved.apart⟩
      intro id taken
      rcases List.mem_cons.mp taken with rfl | old
      · exact List.mem_map.mpr ⟨share,member,same⟩
      · exact sound.taken id old
    · exact ended_sound sound rest

theorem private_away (sound : Sound s) (running : s.tasks t = some task) (mine : privateOf task = some fileShareId) :
    ∀ t' task' other, t' ≠ t → s.tasks t' = some task' → privateOf task' = some other → ¬ other = fileShareId := by
  intro t' task' other away running' secret same
  subst same
  exact away (sound.apart t' t task' task other running' running secret mine)

theorem private_fits (fits : Fits s task) (mine : privateOf task = some fileShareId) : Private s fileShareId := by
  cases task with
  | building | built => cases mine; exact fits.1
  | cleaning => cases mine; exact fits
  | reuse | ready | revoking | sweeping => cases mine

theorem published_away (sound : Sound s) (published : Published s fileShareId) :
    ∀ t' task' other, t' ≠ t → s.tasks t' = some task' → privateOf task' = some other → ¬ other = fileShareId := by
  intro t' task' other _ running secret same
  subst same
  exact (private_fits (sound.fits t' task' running) secret).2 published

theorem whole_blobs (same : ∀ name, (snapshot.fileShareId,name) ∈ s'.blobs ↔ (snapshot.fileShareId,name) ∈ s.blobs)
    (tables : s'.tables = s.tables) : Whole s' snapshot ↔ Whole s snapshot := by
  simp only [Whole,tables,same]

theorem core_blobs (core : Core s) (hidden : Private s fileShareId) {s' : Shop} (tables : s'.tables = s.tables)
    (drawn : s'.drawn = s.drawn) (published : s'.published = s.published) (attempted : s'.attempted = s.attempted)
    (damaged : s'.damaged = s.damaged)
    (blobs : ∀ other name, other ≠ fileShareId → ((other,name) ∈ s'.blobs ↔ (other,name) ∈ s.blobs)) : Core s' := by
  have apart : ∀ snapshot ∈ s.published, snapshot.fileShareId ≠ fileShareId :=
    fun snapshot member same => hidden.2 ⟨snapshot,member,same⟩
  refine ⟨?_,?_,?_,?_,?_,?_,?_,?_,?_⟩
  · rw [tables]
    intro row member
    rw [Published,published]
    exact core.rows row member
  · rw [tables,published]
    exact core.stored
  · rw [published]
    exact core.one
  · rw [published,drawn]
    exact core.known
  · intro blob member
    rw [drawn]
    by_cases same : blob.1 = fileShareId
    · rw [same]
      exact hidden.1
    · exact core.placed blob ((blobs blob.1 blob.2 same).mp member)
  · rw [published]
    intro snapshot member name there
    exact core.named snapshot member name ((blobs _ name (apart snapshot member)).mp there)
  · rw [published,damaged]
    intro snapshot member
    rw [whole_blobs (fun name => blobs _ name (apart snapshot member)) tables]
    exact core.whole snapshot member
  · rw [tables,attempted]
    exact core.taken
  · rw [damaged]
    intro other harm
    rw [Published,published]
    exact core.harmed other harm

theorem calm_blobs {s' : Shop} (drawn : s'.drawn = s.drawn) (published : s'.published = s.published)
    (blobs : ∀ other name, other ≠ fileShareId → ((other,name) ∈ s'.blobs ↔ (other,name) ∈ s.blobs)) :
    Calm s s' (fun other => other = fileShareId) := by
  refine ⟨?_,?_,?_,blobs⟩
  · rw [drawn]
    exact fun _ member => member
  · rw [published]
    exact fun _ member => member
  · rw [published]
    exact fun _ member => .inl member

theorem putBlob_blobs (other : fileShareId' ≠ fileShareId) :
    (fileShareId',name) ∈ (s.putBlob fileShareId blobName).blobs ↔ (fileShareId',name) ∈ s.blobs := by
  simp [Shop.putBlob,other]

theorem dropBlob_blobs (other : fileShareId' ≠ fileShareId) :
    (fileShareId',name) ∈ (s.dropBlob fileShareId blobName).blobs ↔ (fileShareId',name) ∈ s.blobs := by
  simp [Shop.dropBlob,other]

theorem private_step (sound : Sound s) (running : s.tasks t = some task) (mine : privateOf task = some fileShareId)
    (s' : Shop) (new : Task) (tables : s'.tables = s.tables) (tasks : s'.tasks = s.tasks)
    (drawn : s'.drawn = s.drawn) (published : s'.published = s.published) (attempted : s'.attempted = s.attempted)
    (damaged : s'.damaged = s.damaged)
    (blobs : ∀ other name, other ≠ fileShareId → ((other,name) ∈ s'.blobs ↔ (other,name) ∈ s.blobs))
    (still : privateOf new = some fileShareId) (fits : Private s' fileShareId → Fits s' new) :
    Sound (s'.setTask t (some new)) := by
  have hidden := private_fits (sound.fits t task running) mine
  have calm := calm_blobs drawn published blobs
  have hidden' : Private s' fileShareId := by
    rw [Private,Published,drawn,published]
    exact hidden
  apply sound_step (t := t) (fun other => other = fileShareId) sound
    (core_retask (core_blobs sound.toCore hidden tables drawn published attempted damaged blobs) (some new))
  · exact ⟨calm.drawn,calm.published,calm.fresh,calm.blobs⟩
  · intro t' other
    rw [setTask_other _ _ other,tasks]
  · exact private_away sound running mine
  · intro task' same
    rw [setTask_same] at same
    cases same
    exact fits hidden'
  · intro task' other same secret t' task'' away running' secret'
    rw [setTask_same] at same
    cases same
    cases still.symm.trans secret
    exact away (sound.apart t' t task'' task fileShareId running' running secret' mine)

theorem upload_sound (sound : Sound s) (running : s.tasks t = some (.building request fileShareId uploaded (left + 1)))
    (attempt : Attempt) : Sound (uploadChunk s t request fileShareId uploaded left blobName attempt) := by
  obtain ⟨hidden,exact_blobs⟩ := sound.fits t _ running
  unfold uploadChunk
  cases report : attempt.report with
  | ok value =>
    have stored := attempt.honest report
    rw [stored,if_pos rfl]
    dsimp only
    apply private_step sound running rfl (s.putBlob fileShareId blobName)
      (.building request fileShareId (uploaded ++ [blobName]) left) rfl rfl rfl rfl rfl rfl
      (fun _ _ other => putBlob_blobs other) rfl
    intro hidden'
    refine ⟨hidden',?_⟩
    intro name
    have before := exact_blobs name
    simp only [Shop.putBlob,List.mem_cons,Prod.mk.injEq,true_and,before,List.mem_append,List.mem_nil_iff,or_false]
    exact or_comm
  | error failure =>
    dsimp only
    split
    · exact private_step sound running rfl (s.putBlob fileShareId blobName) (.cleaning fileShareId uploaded)
        rfl rfl rfl rfl rfl rfl (fun _ _ other => putBlob_blobs other) rfl (fun hidden' => hidden')
    · exact private_step sound running rfl s (.cleaning fileShareId uploaded) rfl rfl rfl rfl rfl rfl
        (fun _ _ _ => Iff.rfl) rfl (fun hidden' => hidden')

theorem clean_sound (sound : Sound s) (running : s.tasks t = some (.cleaning fileShareId left)) (removed : Bool) :
    Sound (cleanChunk s t fileShareId removed left) := by
  cases left with
  | nil => exact stop_sound sound
  | cons name left =>
    cases removed
    · exact private_step sound running rfl s (.cleaning fileShareId left) rfl rfl rfl rfl rfl rfl
        (fun _ _ _ => Iff.rfl) rfl (fun hidden' => hidden')
    · exact private_step sound running rfl (s.dropBlob fileShareId name) (.cleaning fileShareId left) rfl rfl rfl rfl
        rfl rfl (fun _ _ other => dropBlob_blobs other) rfl (fun hidden' => hidden')

theorem finish_sound (sound : Sound s) (running : s.tasks t = some (.building request fileShareId uploaded left))
    (same : snapshot.fileShareId = fileShareId) (names : snapshot.chunkUuids = uploaded) :
    Sound (s.setTask t (some (.built request snapshot))) := by
  have fits := sound.fits t _ running
  apply private_step sound running rfl s (.built request snapshot) rfl rfl rfl rfl rfl rfl (fun _ _ _ => Iff.rfl)
  · rw [privateOf,same]
  · intro _
    subst same
    subst names
    exact fits

theorem read_snapshot_sound (sound : Sound s) (running : s.tasks t = some (.reuse request fileShareId)) :
    Sound (readSnapshot s t request fileShareId) := by
  unfold readSnapshot
  split
  · exact stop_sound sound
  · apply retask_sound sound
    · intro task same
      have fits := sound.fits t _ running
      cases same
      exact fits
    · intro task mine same secret
      cases same
      cases secret

theorem insert_file_share {tables tables' : SharingTables} (inserted : tables.insertFileShare snapshot = .ok tables') :
    tables' = {tables with fileShares := tables.fileShares ++ [snapshot]} ∧
      ∀ other, tables'.getFileShare other =
        if other = snapshot.fileShareId then some snapshot else tables.getFileShare other := by
  unfold SharingTables.insertFileShare at inserted
  split at inserted
  · cases inserted
  · rename_i fresh
    cases inserted
    refine ⟨rfl,?_⟩
    intro other
    simp only [SharingTables.getFileShare,List.find?_append]
    split
    · rename_i same
      have none_before : tables.fileShares.find? (·.fileShareId = other) = none := by
        rw [List.find?_eq_none]
        intro row member
        simp only [decide_eq_true_eq]
        rintro rfl
        exact fresh (List.mem_map.mpr ⟨row,member,same⟩)
      rw [none_before]
      simp [same]
    · rename_i different
      cases tables.fileShares.find? (·.fileShareId = other) with
      | some row => rfl
      | none => simp [Ne.symm different]

def publish (s : Shop) (snapshot : FileShareSnapshot) : Shop :=
  {s with
    tables := {s.tables with fileShares := s.tables.fileShares ++ [snapshot]}
    published := snapshot :: s.published}

theorem publish_core (core : Core s) (hidden : Private s snapshot.fileShareId)
    (exact_blobs : ∀ name, (snapshot.fileShareId,name) ∈ s.blobs ↔ name ∈ snapshot.chunkUuids)
    (lookup : ∀ other, (publish s snapshot).tables.getFileShare other =
      if other = snapshot.fileShareId then some snapshot else s.tables.getFileShare other) : Core (publish s snapshot) := by
  have new_apart : ∀ old ∈ s.published, old.fileShareId ≠ snapshot.fileShareId :=
    fun old member same => hidden.2 ⟨old,member,same⟩
  have still : ∀ other, Published s other → Published (publish s snapshot) other := by
    intro other published
    obtain ⟨old,member,same⟩ := published
    exact ⟨old,List.mem_cons_of_mem _ member,same⟩
  refine ⟨?_,?_,?_,?_,core.placed,?_,?_,core.taken,?_⟩
  · intro row member
    exact still _ (core.rows row member)
  · intro row member
    rcases List.mem_append.mp member with old | new
    · exact List.mem_cons_of_mem _ (core.stored row old)
    · rw [List.mem_singleton.mp new]
      exact List.mem_cons_self
  · intro a first b second same
    rcases List.mem_cons.mp first with rfl | old
    · rcases List.mem_cons.mp second with rfl | old'
      · rfl
      · exact absurd same.symm (new_apart b old')
    · rcases List.mem_cons.mp second with rfl | old'
      · exact absurd same (new_apart a old)
      · exact core.one a old b old' same
  · intro row member
    rcases List.mem_cons.mp member with rfl | old
    · exact hidden.1
    · exact core.known row old
  · intro row member name there
    rcases List.mem_cons.mp member with rfl | old
    · exact (exact_blobs name).mp there
    · exact core.named row old name there
  · intro row member
    unfold Whole
    rcases List.mem_cons.mp member with rfl | old
    · apply iff_of_true
      · exact fun harm => hidden.2 (core.harmed _ harm)
      · exact ⟨by rw [lookup,if_pos rfl],fun name there => (exact_blobs name).mpr there⟩
    · rw [lookup,if_neg (new_apart row old)]
      exact core.whole row old
  · intro other harm
    exact still _ (core.harmed other harm)

theorem store_snapshot_sound (sound : Sound s) (running : s.tasks t = some (.built request snapshot)) (goes : Bool) :
    Sound (storeSnapshot s t request snapshot goes) := by
  obtain ⟨hidden,exact_blobs⟩ := sound.fits t _ running
  unfold storeSnapshot
  cases inserted : s.tables.insertFileShare snapshot with
  | error failure => exact stop_sound sound
  | ok tables =>
    cases goes with
    | false => exact stop_sound sound
    | true =>
      obtain ⟨rfl,lookup⟩ := insert_file_share inserted
      have core := publish_core sound.toCore hidden exact_blobs lookup
      change Sound ((publish s snapshot).setTask t (some (.ready request snapshot.fileShareId)))
      apply sound_step (t := t) (fun other => other = snapshot.fileShareId) sound (core_retask core _)
      · refine ⟨fun _ member => member,fun _ member => List.mem_cons_of_mem _ member,?_,fun _ _ _ => Iff.rfl⟩
        intro row member
        rcases List.mem_cons.mp member with rfl | old
        · exact .inr rfl
        · exact .inl old
      · intro t' other
        exact setTask_other (publish s snapshot) _ other
      · exact private_away sound running rfl
      · intro task same
        rw [setTask_same] at same
        cases same
        exact ⟨snapshot,List.mem_cons_self,rfl⟩
      · intro task mine same secret
        rw [setTask_same] at same
        cases same
        cases secret

theorem moved_sound {own : Uuid → Prop} (sound : Sound s) (s' : Shop) (core : Core s') (tasks : s'.tasks = s.tasks)
    (calm : Calm s s' own) (known : ∀ fileShareId, own fileShareId → Published s fileShareId) {new : Option Task}
    (fits : ∀ task, new = some task → Fits s' task) (nothing : ∀ task, new = some task → privateOf task = none) :
    Sound (s'.setTask t new) := by
  apply sound_step (t := t) own sound (core_retask core new) ⟨calm.drawn,calm.published,calm.fresh,calm.blobs⟩
  · intro t' other
    rw [setTask_other _ _ other,tasks]
  · intro t' task mine other running secret owned
    exact published_away sound (known mine owned) t' task mine other running secret rfl
  · intro task same
    rw [setTask_same] at same
    exact fits task same
  · intro task mine same secret
    rw [setTask_same] at same
    rw [nothing task same] at secret
    cases secret

theorem ended_fits (rest : List Uuid) : ∀ task, ended rest = some task → Fits s task := by
  intro task same
  cases rest with
  | nil => cases same
  | cons => cases same; trivial

theorem ended_nothing (rest : List Uuid) : ∀ task, ended rest = some task → privateOf task = none := by
  intro task same
  cases rest with
  | nil => cases same
  | cons => cases same; rfl

theorem insert_share {tables tables' : SharingTables} (inserted : tables.insertShare row = .ok tables') :
    tables' = {tables with shares := tables.shares ++ [row]} ∧ row.shareId ∉ tables.shares.map (·.shareId) := by
  unfold SharingTables.insertShare at inserted
  split at inserted
  · cases inserted
  · rename_i fresh
    cases inserted
    exact ⟨rfl,fresh⟩

def addRow (s : Shop) (row : ShareRecord) : Shop := {s with tables := {s.tables with shares := s.tables.shares ++ [row]}}

theorem addRow_core (core : Core s) (published : Published s row.fileShareId) : Core (addRow s row) := by
  refine ⟨?_,core.stored,core.one,core.known,core.placed,core.named,core.whole,?_,core.harmed⟩
  · intro other member
    rcases List.mem_append.mp member with old | new
    · exact core.rows other old
    · rw [List.mem_singleton.mp new]
      exact published
  · intro id member
    rw [addRow,List.map_append]
    exact List.mem_append_left _ (core.taken id member)

theorem store_row_sound (sound : Sound s) (published : Published s row.fileShareId) (goes : Bool) :
    Sound (storeRow s t row goes) := by
  unfold storeRow
  cases inserted : s.tables.insertShare row with
  | error failure => exact stop_sound sound
  | ok tables =>
    cases goes with
    | false => exact stop_sound sound
    | true =>
      obtain ⟨rfl,_⟩ := insert_share inserted
      have calm : Calm s (addRow s row) (fun _ => False) := calm_same rfl rfl rfl
      exact moved_sound sound (addRow s row) (addRow_core sound.toCore published) rfl calm (fun _ never => never.elim)
        (by rintro _ ⟨⟩) (by rintro _ ⟨⟩)

theorem set_revoked {tables tables' : SharingTables} (marked : tables.setShareRevokedAt shareId now = .ok tables') :
    tables' = {tables with shares := tables.shares.map fun row =>
      if row.shareId = shareId then {row with revokedAt := some now} else row} := by
  simp only [SharingTables.setShareRevokedAt,bind_ok,ensure_ok,pure_ok] at marked
  obtain ⟨_,_,_,_,rfl⟩ := marked
  rfl

def markShare (s : Shop) (shareId : Uuid) (now : Int) : Shop :=
  {s with tables := {s.tables with shares := s.tables.shares.map fun row =>
    if row.shareId = shareId then {row with revokedAt := some now} else row}}

theorem markShare_rows (member : row ∈ (markShare s shareId now).tables.shares) :
    ∃ old ∈ s.tables.shares, row.fileShareId = old.fileShareId ∧ row.shareId = old.shareId ∧
      (row.active = true → row = old) := by
  obtain ⟨old,before,same⟩ := List.mem_map.mp member
  refine ⟨old,before,?_⟩
  split at same
  · subst same
    exact ⟨rfl,rfl,by rintro ⟨⟩⟩
  · subst same
    exact ⟨rfl,rfl,fun _ => rfl⟩

theorem markShare_ids (s : Shop) (shareId : Uuid) (now : Int) :
    (markShare s shareId now).tables.shares.map (·.shareId) = s.tables.shares.map (·.shareId) := by
  simp only [markShare,List.map_map]
  apply List.map_congr_left
  intro row _
  simp only [Function.comp_apply]
  split <;> rfl

theorem markShare_core (core : Core s) (shareId : Uuid) (now : Int) : Core (markShare s shareId now) := by
  refine ⟨?_,core.stored,core.one,core.known,core.placed,core.named,core.whole,?_,core.harmed⟩
  · intro row member
    obtain ⟨old,before,same,_⟩ := markShare_rows member
    rw [same]
    exact core.rows old before
  · rw [markShare_ids]
    exact core.taken

theorem mark_sound (sound : Sound s) (published : Published s share.fileShareId) (last : Bool) (rest : List Uuid)
    (now : Int) (goes : Bool) : Sound (markRow s t share last rest now goes) := by
  unfold markRow
  cases marked : s.tables.setShareRevokedAt share.shareId now with
  | error failure => exact ended_sound sound rest
  | ok tables =>
    cases goes with
    | false => exact ended_sound sound rest
    | true =>
      cases set_revoked marked
      have calm : Calm s (markShare s share.shareId now) (fun _ => False) := calm_same rfl rfl rfl
      have core := markShare_core sound.toCore share.shareId now
      cases last with
      | false =>
        exact moved_sound sound (markShare s share.shareId now) core rfl calm (fun _ never => never.elim)
          (ended_fits rest) (ended_nothing rest)
      | true =>
        apply moved_sound sound (markShare s share.shareId now) core rfl calm (fun _ never => never.elim)
        · intro task same
          cases same
          exact published
        · intro task same
          cases same
          rfl

theorem delete_file_share (tables : SharingTables) (gone other : Uuid) : (tables.deleteFileShare gone).getFileShare other =
    if other = gone then none else tables.getFileShare other := by
  simp only [SharingTables.deleteFileShare,SharingTables.getFileShare,List.find?_filter]
  split
  · rename_i same
    rw [List.find?_eq_none]
    intro row _
    simp [same]
  · rename_i different
    congr
    funext row
    by_cases here : row.fileShareId = other
    · simp [here,different]
    · simp [here]

def dropShare (s : Shop) (fileShareId : Uuid) : Shop :=
  {s.damage fileShareId with tables := s.tables.deleteFileShare fileShareId}

theorem dropShare_core (core : Core s) (published : Published s fileShareId) : Core (dropShare s fileShareId) := by
  refine ⟨core.rows,?_,core.one,core.known,core.placed,core.named,?_,core.taken,?_⟩
  · intro row member
    exact core.stored row (List.mem_filter.mp member).1
  · intro row member
    have looked := delete_file_share s.tables fileShareId row.fileShareId
    unfold Whole
    change row.fileShareId ∉ fileShareId :: s.damaged ↔ (s.tables.deleteFileShare fileShareId).getFileShare _ = _ ∧ _
    rw [looked,List.mem_cons,not_or]
    split
    · rename_i same
      exact iff_of_false (fun both => both.1 same) (by rintro ⟨⟨⟩,_⟩)
    · rename_i different
      rw [and_iff_right different]
      exact core.whole row member
  · intro other harm
    rcases List.mem_cons.mp harm with rfl | old
    · exact published
    · exact core.harmed other old

theorem drop_sound (sound : Sound s) (published : Published s share.fileShareId) (rest : List Uuid) (goes : Bool) :
    Sound (dropSnapshot s t share rest goes) := by
  unfold dropSnapshot
  cases goes with
  | false => exact ended_sound sound rest
  | true =>
    have calm : Calm s (dropShare s share.fileShareId) (fun _ => False) := calm_same rfl rfl rfl
    exact moved_sound sound (dropShare s share.fileShareId) (dropShare_core sound.toCore published) rfl calm
      (fun _ never => never.elim) (ended_fits rest) (ended_nothing rest)

-- A deleted blob was named by its snapshot, so the snapshot is not whole any more.
theorem delete_core (core : Core s) (published : Published s fileShareId) (there : (fileShareId,blobName) ∈ s.blobs) :
    Core ((s.dropBlob fileShareId blobName).damage fileShareId) := by
  refine ⟨core.rows,core.stored,core.one,core.known,?_,?_,?_,core.taken,?_⟩
  · intro blob member
    exact core.placed blob (List.mem_filter.mp member).1
  · intro row member name still
    exact core.named row member name (List.mem_filter.mp still).1
  · intro row member
    change row.fileShareId ∉ fileShareId :: s.damaged ↔ _
    rw [List.mem_cons,not_or]
    by_cases same : row.fileShareId = fileShareId
    · have name_there := core.named row member blobName (by rw [same]; exact there)
      apply iff_of_false (fun both => both.1 same)
      intro whole
      have still := whole.2 blobName name_there
      rw [same] at still
      exact absurd rfl (of_decide_eq_true (List.mem_filter.mp still).2)
    · rw [and_iff_right same,core.whole row member]
      unfold Whole
      have blobs : ∀ name, (row.fileShareId,name) ∈ ((s.dropBlob fileShareId blobName).damage fileShareId).blobs ↔
          (row.fileShareId,name) ∈ s.blobs := fun name => dropBlob_blobs same
      simp only [blobs]
      rfl
  · intro other harm
    rcases List.mem_cons.mp harm with rfl | old
    · exact published
    · exact core.harmed other old

theorem delete_sound (sound : Sound s) (published : Published s share.fileShareId) (rest : List Uuid) (blobName : Uuid)
    (left : List Uuid) (fate : DeleteFate) : Sound (deleteNext s t share rest blobName left fate) := by
  have on : Sound (s.setTask t (some (.revoking (afterDelete share left) rest))) :=
    revoking_sound sound (by rw [afterDelete_share]; exact published) rest
  unfold deleteNext
  split
  · rename_i there
    have core := delete_core sound.toCore published there
    have calm : Calm s ((s.dropBlob share.fileShareId blobName).damage share.fileShareId)
        (fun other => other = share.fileShareId) :=
      calm_blobs rfl rfl (fun _ _ other => dropBlob_blobs other)
    have known : ∀ other, other = share.fileShareId → Published s other := by
      rintro other rfl
      exact published
    cases fate with
    | fails text => exact ended_sound sound rest
    | goes =>
      apply moved_sound sound _ core rfl calm known
      · intro task same
        cases same
        change Published _ (afterDelete share left).share.fileShareId
        rw [afterDelete_share]
        exact published
      · intro task same
        cases same
        rfl
    | loses text => exact moved_sound sound _ core rfl calm known (ended_fits rest) (ended_nothing rest)
  · exact on

theorem draw_sound (sound : Sound s) (fresh : fileShareId ∉ s.drawn)
    (request : CreateShareRequest) (chunkCount : Nat) :
    Sound {s.setTask t (some (.building request fileShareId [] chunkCount)) with drawn := fileShareId :: s.drawn} := by
  have unpublished : ¬ Published s fileShareId := by
    rintro ⟨snapshot,member,same⟩
    exact fresh (same ▸ sound.known snapshot member)
  have here := setTask_same s t (some (.building request fileShareId [] chunkCount))
  apply sound_step (t := t) (fun _ => False) sound
  · refine ⟨sound.rows,sound.stored,sound.one,?_,?_,sound.named,sound.whole,sound.taken,sound.harmed⟩
    · intro snapshot member
      exact List.mem_cons_of_mem _ (sound.known snapshot member)
    · intro blob member
      exact List.mem_cons_of_mem _ (sound.placed blob member)
  · exact ⟨fun _ member => List.mem_cons_of_mem _ member,fun _ member => member,fun _ member => .inl member,
      fun _ _ _ => Iff.rfl⟩
  · intro t' other
    exact setTask_other s _ other
  · intro _ _ _ _ _ _ never
    exact never
  · intro task same
    cases here.symm.trans same
    refine ⟨⟨List.mem_cons_self,unpublished⟩,?_⟩
    intro name
    exact iff_of_false (fun there => fresh (sound.placed _ there)) (by simp)
  · intro task mine same secret t' task' _ running' secret'
    cases here.symm.trans same
    cases secret
    exact fresh (private_fits (sound.fits t' task' running') secret').1

-- What one step does to the law: nothing, unless it is one of the three steps that
-- the condition speaks of.
def Decides (s next : Shop) (act : Action) : Prop := Undamaged s → (Undamaged next ↔ Orderly s act)

theorem quiet {act : Action} (shares : next.tables.shares = s.tables.shares) (damaged : next.damaged = s.damaged)
    (attempted : ∀ id ∈ s.attempted, id ∈ next.attempted) (free : Orderly s act) : Decides s next act := by
  intro law
  refine iff_of_true ?_ free
  intro row member active untouched
  rw [shares] at member
  rw [damaged]
  exact law row member active (fun taken => untouched (attempted _ taken))

theorem begin_revoke_quiet {act : Action} (shareId : Uuid) (rest : List Uuid) (free : Orderly s act) :
    Decides s (beginRevoke s t shareId rest) act := by
  unfold beginRevoke
  split
  · exact quiet rfl rfl (fun _ member => member) free
  · split
    · exact quiet rfl rfl (fun _ member => List.mem_cons_of_mem _ member) free
    · exact quiet rfl rfl (fun _ member => member) free

theorem begin_result {act : Action} (sound : Sound s) (free : s.tasks act.task = none) (taken : begin s act = some next) :
    Sound next ∧ Decides s next act := by
  have orderly : Orderly s act := by
    rw [Orderly,free]
    trivial
  unfold begin at taken
  split at taken
  · rename_i request fileShareId chunkCount
    split at taken
    · rename_i first rest active
      cases taken
      have member : first ∈ s.tables.listActiveSharesByFile request.fileId := by
        rw [active]
        exact List.mem_cons_self
      refine ⟨?_,quiet rfl rfl (fun _ member => member) orderly⟩
      apply retask_sound sound
      · intro task same
        cases same
        exact sound.rows first (mem_active_by_file.mp member).1
      · intro task mine same secret
        cases same
        cases secret
    · split at taken
      · cases taken
      · rename_i fresh
        cases taken
        exact ⟨draw_sound sound fresh request chunkCount,quiet rfl rfl (fun _ member => member) orderly⟩
  · cases taken
    exact ⟨begin_revoke_sound sound _ [],begin_revoke_quiet _ [] orderly⟩
  · cases taken
    exact ⟨ended_sound sound _,quiet rfl rfl (fun _ member => member) orderly⟩
  · cases taken

theorem store_row_decides {row : ShareRecord} {act : Action} (sound : Sound s) (goes : Bool)
    (active : row.active = true) (orderly : Orderly s act ↔
      (goes = true → row.shareId ∉ s.tables.shares.map (·.shareId) → row.fileShareId ∉ s.damaged)) :
    Decides s (storeRow s t row goes) act := by
  unfold storeRow
  cases inserted : s.tables.insertShare row with
  | error failure =>
    apply quiet rfl rfl (fun _ member => member)
    rw [orderly]
    intro _ fresh
    rw [SharingTables.insertShare,if_neg fresh] at inserted
    cases inserted
  | ok tables =>
    obtain ⟨rfl,fresh⟩ := insert_share inserted
    cases goes with
    | false =>
      apply quiet rfl rfl (fun _ member => member)
      rw [orderly]
      rintro ⟨⟩
    | true =>
      intro law
      rw [orderly]
      constructor
      · intro after _ _
        have untouched : row.shareId ∉ s.attempted := fun taken => fresh (sound.taken _ taken)
        exact after row (List.mem_append_right _ List.mem_cons_self) active untouched
      · intro undamaged other member live untouched
        rcases List.mem_append.mp member with old | new
        · exact law other old live untouched
        · rw [List.mem_singleton.mp new]
          exact undamaged rfl fresh

theorem still_decides {act : Action} (shares : next.tables.shares = s.tables.shares) (damaged : next.damaged = s.damaged)
    (attempted : next.attempted = s.attempted) (free : Orderly s act) : Decides s next act := by
  apply quiet shares damaged _ free
  rw [attempted]
  exact fun _ member => member

theorem read_snapshot_decides {act : Action} (free : Orderly s act) :
    Decides s (readSnapshot s t request fileShareId) act := by
  unfold readSnapshot
  split <;> exact still_decides rfl rfl rfl free

theorem upload_decides {act : Action} (attempt : Attempt) (free : Orderly s act) :
    Decides s (uploadChunk s t request fileShareId uploaded left blobName attempt) act := by
  unfold uploadChunk
  dsimp only
  cases attempt.stored <;> cases attempt.report <;> exact still_decides rfl rfl rfl free

theorem clean_decides {act : Action} (removed : Bool) (left : List Uuid) (free : Orderly s act) :
    Decides s (cleanChunk s t fileShareId removed left) act := by
  cases left with
  | nil => exact still_decides rfl rfl rfl free
  | cons => cases removed <;> exact still_decides rfl rfl rfl free

theorem store_snapshot_decides {act : Action} (goes : Bool) (free : Orderly s act) :
    Decides s (storeSnapshot s t request snapshot goes) act := by
  unfold storeSnapshot
  cases inserted : s.tables.insertFileShare snapshot with
  | error => exact still_decides rfl rfl rfl free
  | ok tables =>
    obtain ⟨rfl,_⟩ := insert_file_share inserted
    cases goes <;> exact still_decides rfl rfl rfl free

theorem create_result {act : Action} (sound : Sound s) (running : s.tasks act.task = some task)
    (taken : stepCreate s act.task task act = some next) : Sound next ∧ Decides s next act := by
  have condition : Orderly s act ↔ Allowed s (some task) act := by rw [Orderly,running]
  cases task with
  | reuse request fileShareId =>
    have free : Orderly s act := condition.mpr trivial
    cases act with
    | readSnapshot =>
      cases taken
      exact ⟨read_snapshot_sound sound running,read_snapshot_decides free⟩
    | giveUp =>
      cases taken
      exact ⟨stop_sound sound,still_decides rfl rfl rfl free⟩
    | _ => cases taken
  | building request fileShareId uploaded left =>
    have free : Orderly s act := condition.mpr trivial
    cases left with
    | zero =>
      cases act with
      | finishBuild =>
        cases taken
        exact ⟨finish_sound sound running rfl rfl,still_decides rfl rfl rfl free⟩
      | giveUp =>
        cases taken
        exact ⟨stop_sound sound,still_decides rfl rfl rfl free⟩
      | _ => cases taken
    | succ left =>
      cases act with
      | upload t blobName attempt =>
        cases taken
        exact ⟨upload_sound sound running attempt,upload_decides attempt free⟩
      | giveUp =>
        cases taken
        exact ⟨stop_sound sound,still_decides rfl rfl rfl free⟩
      | _ => cases taken
  | cleaning fileShareId left =>
    have free : Orderly s act := condition.mpr trivial
    cases act with
    | clean t removed =>
      cases taken
      exact ⟨clean_sound sound running removed,clean_decides removed left free⟩
    | _ => cases taken
  | built request snapshot =>
    have free : Orderly s act := condition.mpr trivial
    cases act with
    | insertSnapshot t goes =>
      cases taken
      exact ⟨store_snapshot_sound sound running goes,store_snapshot_decides goes free⟩
    | giveUp =>
      cases taken
      exact ⟨stop_sound sound,still_decides rfl rfl rfl free⟩
    | _ => cases taken
  | ready request fileShareId =>
    cases act with
    | insertRow t shareId downloadKeyId downloadFolderId goes =>
      cases taken
      have published : Published s fileShareId := sound.fits _ _ running
      refine ⟨store_row_sound sound published goes,store_row_decides sound goes rfl ?_⟩
      apply condition.trans
      cases goes with
      | false => exact iff_of_true trivial (by rintro ⟨⟩)
      | true => exact ⟨fun law _ => law,fun law => law rfl⟩
    | giveUp =>
      cases taken
      exact ⟨stop_sound sound,still_decides rfl rfl rfl (condition.mpr trivial)⟩
    | _ => cases taken
  | revoking => cases taken
  | sweeping => cases taken

-- A blob or a snapshot is gone: the law holds on exactly when no untouched share
-- needs it.
theorem damage_decides {act : Action} (shares : next.tables.shares = s.tables.shares)
    (damaged : next.damaged = fileShareId :: s.damaged) (attempted : next.attempted = s.attempted)
    (orderly : Orderly s act ↔ Unheld s fileShareId) : Decides s next act := by
  intro law
  rw [orderly,Undamaged,shares,damaged,attempted]
  constructor
  · intro after row member active untouched same
    exact after row member active untouched (same ▸ List.mem_cons_self)
  · intro unheld row member active untouched harm
    rcases List.mem_cons.mp harm with same | old
    · exact unheld row member active untouched same
    · exact law row member active untouched old

theorem delete_decides {act : Action} (rest : List Uuid) (blobName : Uuid) (left : List Uuid) (fate : DeleteFate)
    (orderly : Orderly s act ↔ (fate.removes = true → (share.fileShareId,blobName) ∈ s.blobs → Unheld s share.fileShareId)) :
    Decides s (deleteNext s t share rest blobName left fate) act := by
  unfold deleteNext
  split
  · rename_i there
    have removed (removes : fate.removes = true) : Orderly s act ↔ Unheld s share.fileShareId :=
      orderly.trans ⟨fun law => law removes there,fun law _ _ => law⟩
    cases fate with
    | goes => exact damage_decides rfl rfl rfl (removed rfl)
    | loses text => exact damage_decides rfl rfl rfl (removed rfl)
    | fails text =>
      apply still_decides rfl rfl rfl
      exact orderly.mpr (by rintro ⟨⟩)
  · rename_i missing
    apply still_decides rfl rfl rfl
    exact orderly.mpr (fun _ there => absurd there missing)

theorem mark_decides {act : Action} (last : Bool) (rest : List Uuid) (now : Int) (goes : Bool) (free : Orderly s act) :
    Decides s (markRow s t share last rest now goes) act := by
  unfold markRow
  cases marked : s.tables.setShareRevokedAt share.shareId now with
  | error => exact still_decides rfl rfl rfl free
  | ok tables =>
    cases goes with
    | false => exact still_decides rfl rfl rfl free
    | true =>
      cases set_revoked marked
      intro law
      refine iff_of_true ?_ free
      intro row member active untouched
      obtain ⟨old,before,_,_,same⟩ := markShare_rows (s := s) member
      cases same active
      exact law row before active untouched

theorem drop_decides {act : Action} (rest : List Uuid) (goes : Bool)
    (orderly : Orderly s act ↔ (goes = true → Unheld s share.fileShareId)) :
    Decides s (dropSnapshot s t share rest goes) act := by
  cases goes with
  | false =>
    apply still_decides rfl rfl rfl
    exact orderly.mpr (by rintro ⟨⟩)
  | true =>
    refine damage_decides rfl rfl rfl (orderly.trans ?_)
    exact ⟨fun law => law rfl,fun law _ => law⟩

theorem revoke_result {act : Action} {stage : RevokeStage} {rest : List Uuid} (sound : Sound s)
    (running : s.tasks act.task = some (.revoking stage rest))
    (taken : stepRevoke s act.task rest stage act = some next) : Sound next ∧ Decides s next act := by
  have condition : Orderly s act ↔ Allowed s (some (.revoking stage rest)) act := by rw [Orderly,running]
  have published : Published s stage.share.fileShareId := sound.fits _ _ running
  cases stage with
  | found share =>
    cases act with
    | count =>
      cases taken
      refine ⟨revoking_sound sound ?_ rest,still_decides rfl rfl rfl (condition.mpr trivial)⟩
      exact published
    | _ => cases taken
  | counted share last =>
    cases act with
    | list t answered =>
      have free : Orderly s (.list t answered) := condition.mpr trivial
      cases last with
      | false =>
        cases taken
        refine ⟨revoking_sound sound ?_ rest,still_decides rfl rfl rfl free⟩
        exact published
      | true =>
        cases answered with
        | false =>
          cases taken
          exact ⟨ended_sound sound rest,still_decides rfl rfl rfl free⟩
        | true =>
          cases taken
          refine ⟨revoking_sound sound ?_ rest,still_decides rfl rfl rfl free⟩
          rw [afterDelete_share]
          exact published
    | _ => cases taken
  | deleting share left =>
    cases left with
    | nil => cases act <;> cases taken
    | cons blobName left =>
      cases act with
      | delete t fate =>
        cases taken
        exact ⟨delete_sound sound published rest blobName left fate,delete_decides rest blobName left fate condition⟩
      | _ => cases taken
  | marking share last =>
    cases act with
    | mark t now goes =>
      cases taken
      exact ⟨mark_sound sound published last rest now goes,mark_decides last rest now goes (condition.mpr trivial)⟩
    | _ => cases taken
  | dropping share =>
    cases act with
    | drop t goes =>
      cases taken
      refine ⟨drop_sound sound published rest goes,drop_decides rest goes ?_⟩
      apply condition.trans
      cases goes with
      | false => exact iff_of_true trivial (by rintro ⟨⟩)
      | true => exact ⟨fun law _ => law,fun law => law rfl⟩
    | _ => cases taken

theorem step_result {act : Action} (sound : Sound s) (taken : step s act = some next) : Sound next ∧ Decides s next act := by
  unfold step at taken
  cases running : s.tasks act.task with
  | none =>
    rw [running] at taken
    exact begin_result sound running taken
  | some task =>
    rw [running] at taken
    cases task with
    | revoking stage rest => exact revoke_result sound running taken
    | sweeping ids =>
      have free : Orderly s act := by
        rw [Orderly,running]
        trivial
      cases ids with
      | nil => cases taken
      | cons shareId rest =>
        cases act with
        | sweepNext t =>
          cases taken
          exact ⟨begin_revoke_sound sound shareId rest,begin_revoke_quiet shareId rest free⟩
        | _ => cases taken
    | _ => exact create_result sound running taken

theorem start_sound : Sound Shop.start := by
  refine ⟨⟨?_,?_,?_,?_,?_,?_,?_,?_,?_⟩,?_,?_⟩ <;> intros <;> contradiction

theorem start_undamaged : Undamaged Shop.start := by
  intro row member
  cases member

-- In a run of any calls in any order, every active share that no revocation has taken
-- up is downloadable at every point if and only if the run takes no damaging step
-- under such a share and inserts no row over a damaged file share.
theorem shares_downloadable_iff (ran : run step Shop.start acts = some last) :
    Along step Downloadable Shop.start acts ↔ Guarded step Orderly Shop.start acts := by
  have implies : ∀ s, Sound s ∧ Undamaged s → Downloadable s := by
    intro s inv
    exact (downloadable_iff inv.1.toCore).mpr inv.2
  apply along_iff_guarded implies _ _ ⟨start_sound,start_undamaged⟩ ran
  · intro s act next inv orderly taken
    obtain ⟨sound,decides⟩ := step_result inv.1 taken
    exact ⟨sound,(decides inv.2).mpr orderly⟩
  · intro s act next inv disorderly taken downloadable
    obtain ⟨sound,decides⟩ := step_result inv.1 taken
    exact disorderly ((decides inv.2).mp ((downloadable_iff sound.toCore).mp downloadable))

def firstRequest : CreateShareRequest := ⟨5,11,none,1000⟩

def zeroKey : WrappedFileKey := ⟨List.replicate 72 0,List.length_replicate⟩

def sharing : List Action :=
  [.create 0 firstRequest 7 2,.upload 0 100 Attempt.succeeds,.upload 0 101 Attempt.succeeds,
   .finishBuild 0 8 zeroKey 4 6 "a",.insertSnapshot 0 true,.insertRow 0 1 none none true]

-- A second contact gets the file and the first share is revoked. The revocation of
-- the second, which is the last, removes the blobs and the snapshot.
def sharedTwice : List Action :=
  sharing ++ [.create 0 ⟨5,12,none,2000⟩ 9 2,.readSnapshot 0,.insertRow 0 2 none none true,
    .revoke 1 1,.count 1,.list 1 true,.mark 1 3000 true,
    .revoke 0 2,.count 0,.list 0 true,.delete 0 .goes,.delete 0 .goes,.mark 0 4000 true,.drop 0 true]

theorem held_by_none (rows : ∀ row ∈ s.tables.shares, row.shareId ∈ s.attempted) : Unheld s fileShareId :=
  fun row member _ untouched => absurd (rows row member) untouched

theorem sharing_downloadable : (∃ last, run step Shop.start sharedTwice = some last ∧ last.tables.fileShares = []) ∧
    Along step Downloadable Shop.start sharedTwice := by
  have ran : ∃ last, run step Shop.start sharedTwice = some last ∧ last.tables.fileShares = [] := ⟨_,rfl,rfl⟩
  refine ⟨ran,?_⟩
  obtain ⟨last,ran,_⟩ := ran
  refine (shares_downloadable_iff ran).mpr ?_
  have undamaged : ∀ fileShareId : Uuid, fileShareId ∉ ([] : List Uuid) := fun _ => List.not_mem_nil
  exact ⟨trivial,trivial,trivial,trivial,trivial,fun _ => undamaged 7,
    trivial,trivial,fun _ => undamaged 7,trivial,trivial,trivial,trivial,
    trivial,trivial,trivial,fun _ _ => held_by_none (by decide),fun _ _ => held_by_none (by decide),trivial,
    held_by_none (by decide),trivial⟩

-- The revocation of that share deletes the first blob and fails at the second. The
-- row stays active, and the next share of the file is built on it.
def partlyRevoked : List Action :=
  sharing ++ [.revoke 0 1,.count 0,.list 0 true,.delete 0 .goes,.delete 0 (.fails "timeout"),
    .create 0 ⟨5,12,none,2000⟩ 9 2,.readSnapshot 0,.insertRow 0 2 none none true]

theorem reused_share_lacks_blob : ∃ last, run step Shop.start partlyRevoked = some last ∧ ¬ Downloadable last := by
  refine ⟨_,rfl,?_⟩
  intro law
  obtain ⟨snapshot,found,blobs⟩ := law (shareRecord ⟨5,12,none,2000⟩ 2 7 none none) (List.mem_cons_of_mem _ List.mem_cons_self)
    rfl (by decide)
  cases found
  exact absurd (blobs 100 List.mem_cons_self) (by decide)

end ArxRuna.Sharing.Availability
