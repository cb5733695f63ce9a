import ArxRuna.Cloud.Stanza
import ArxRuna.Library.Paths
import ArxRuna.Library.Pool
import ArxRuna.Library.Run
namespace ArxRuna.Cloud.Destinations
open Library.Fallible Library.Paths Library.Pool Library.Run Library.Texts Store.Tables
open Cloud.Stanza (validateSingleRemoteStanza)
open Sharing.RemotePath (Text isControl)

inductive DestinationType where
  | cloud
  | externalDrive
  | localPath
  deriving DecidableEq, Repr

inductive BackupSyncMode where
  | mirror
  | accumulating
  deriving DecidableEq, Repr

-- A row of `destination_sessions`.
structure DestinationSessionRow where
  destinationId : Text
  label : Text
  destinationType : DestinationType
  rcloneRemoteName : Text
  rcloneConfigBlob : Text
  bucket : Text
  pathPrefix : Text
  isPrimary : Bool
  backupMode : Option BackupSyncMode
  createdAt : Int
  deviceId : Option Text
  deriving DecidableEq, Repr

abbrev Rows := List DestinationSessionRow

inductive IpcError where
  | vaultLocked (text : String)
  | invalidInput (text : String)
  | notFound (text : String)
  | alreadyExists (text : String)
  | dataDesync (text : String)
  | internalError (text : String)
  deriving DecidableEq, Repr

def IpcError.fromStorage : StorageError → IpcError
  | .notFound => .notFound "File or directory not found"
  | .checksumMismatch => .internalError "Data integrity error"
  | .constraintViolation _ => .alreadyExists "A record with this identifier already exists"
  | .decryptionFailed => .dataDesync ("This file couldn't be decrypted — your vault may be out of sync after " ++
      "recovery. Sync with your cloud, then reopen the file.")
  | .database _ => .internalError "Storage engine error"
  | .io _ => .internalError "File system error"

def getPrimaryDestination (rows : Rows) : Option DestinationSessionRow := rows.find? (·.isPrimary)

def insertDestinationSession (row : DestinationSessionRow) (rows : Rows) : Except StorageError Rows := do
  ensure (row.isPrimary = true → (getPrimaryDestination rows).all (·.destinationId = row.destinationId) = true)
    (.constraintViolation "only one primary destination is allowed")
  ensure (rows.all (·.destinationId ≠ row.destinationId) = true)
    (.constraintViolation "UNIQUE constraint failed: destination_sessions.destination_id")
  pure (rows ++ [row])

def deleteDestinationSession (destinationId : Text) (rows : Rows) : Rows :=
  rows.filter (·.destinationId ≠ destinationId)

-- The three statements of the transaction; an unknown id rolls them back.
def keepMirror (row : DestinationSessionRow) : DestinationSessionRow :=
  if row.isPrimary && row.backupMode.isNone then {row with backupMode := some .mirror} else row

def demote (row : DestinationSessionRow) : DestinationSessionRow := {row with isPrimary := false}

def promote (newPrimaryId : Text) (row : DestinationSessionRow) : DestinationSessionRow :=
  if row.destinationId = newPrimaryId then {row with isPrimary := true} else row

def swapPrimaryDestination (newPrimaryId : Text) (rows : Rows) : Except StorageError Rows := do
  let demoted := (rows.map keepMirror).map demote
  ensure (demoted.any (·.destinationId = newPrimaryId) = true) .notFound
  pure (demoted.map (promote newPrimaryId))

-- What the frontend sends.
structure DestinationSessionConfig where
  label : Text
  destinationType : String
  bucket : Text
  pathPrefix : Text
  rcloneConfigBlob : Text
  isPrimary : Bool
  backupMode : Option String

-- What a call of `add_destination` finds and draws.
structure AddFate where
  unlocked : Bool
  home : Option Path
  destinationId : Text
  deviceId : Except StorageError Text
  createdAt : Int

def trimSlashes (text : Text) : Text := (text.reverse.dropWhile fun c => c = '/' || c = '\\').reverse

def isRoot (pathPrefix : Text) : Bool :=
  rooted pathPrefix && components pathPrefix = [] ||
    (match trimSlashes pathPrefix with
    | [] => true
    | [drive,colon] => drive.toNat < 128 && colon = ':'
    | _ => false)

-- The rules for Unix; managed folders are looked for on other systems only.
def validateLocalPath (home : Option Path) (pathPrefix : Text) : Except IpcError Unit := do
  ensure (pathPrefix ≠ []) (.invalidInput "Path must not be empty")
  ensure (isRoot pathPrefix = false)
    (.invalidInput "Path must be a specific folder, not a drive root or filesystem root")
  ensure (pathPrefix.any isControl = false) (.invalidInput "Path must not contain control characters")
  ensure (['.','.'] ∉ components pathPrefix) (.invalidInput "Path must not contain '..' components")
  ensure (home ≠ some ⟨rooted pathPrefix,components pathPrefix⟩)
    (.invalidInput "Path must not be your home folder. Choose a dedicated subfolder instead.")

def parseType : String → Except IpcError DestinationType
  | "cloud" => .ok .cloud
  | "external_drive" => .ok .externalDrive
  | "local_path" => .ok .localPath
  | _ => .error (.invalidInput "Unknown destination type")

def parseMode : Option String → Except IpcError (Option BackupSyncMode)
  | some "mirror" => .ok (some .mirror)
  | some "accumulating" => .ok (some .accumulating)
  | none => .ok none
  | some _ => .error (.invalidInput "Unknown backup mode")

def localStanza (rcloneRemoteName : Text) : Text :=
  '[' :: (rcloneRemoteName ++ "]\ntype = local\nnounc = true\n".toList)

-- The row as it is stored: the stanza of a cloud destination is normalised first.
def sessionFor (fate : AddFate) (config : DestinationSessionConfig) : Except IpcError DestinationSessionRow := do
  ensure (fate.unlocked = true) (.vaultLocked "Vault is locked")
  ensure (config.label ≠ []) (.invalidInput "Destination label must not be empty")
  let destinationType ← parseType config.destinationType
  let backupMode ← parseMode config.backupMode
  let rcloneRemoteName := "arx_".toList ++ fate.destinationId.take 8
  let stored ← (if destinationType = .cloud then do
    let blob ← (validateSingleRemoteStanza config.rcloneConfigBlob rcloneRemoteName).mapError .fromStorage
    pure (blob,none)
  else do
    validateLocalPath fate.home config.pathPrefix
    let deviceId ← fate.deviceId.mapError .fromStorage
    pure (localStanza rcloneRemoteName,some deviceId))
  pure ⟨fate.destinationId,config.label,destinationType,rcloneRemoteName,stored.1,config.bucket,config.pathPrefix,
    config.isPrimary,backupMode,fate.createdAt,stored.2⟩

-- A command by the call it makes next.
inductive Task where
  | inserting (session : DestinationSessionRow)
  | seeding (destinationId : Text)
  | swapping (destinationId : Text)
  | reading
  | connecting
  | checking (destinationId : Text)
  | deleting (destinationId : Text)
  | clearing (destinationId : Text)
  | ended (result : Except IpcError Unit)

def Task.begin (result : Except IpcError Task) : Task :=
  match result with
  | .ok task => task
  | .error error => .ended (.error error)

def addDestination (fate : AddFate) (config : DestinationSessionConfig) : Task :=
  .begin ((sessionFor fate config).map .inserting)

def named (unlocked : Bool) (destinationId : Text) : Except IpcError Text := do
  ensure (unlocked = true) (.vaultLocked "Vault is locked")
  ensure (destinationId ≠ []) (.invalidInput "Destination ID must not be empty")
  pure destinationId

def deleteDestination (unlocked : Bool) (destinationId : Text) : Task :=
  .begin ((named unlocked destinationId).map .checking)

def setPrimaryDestination (unlocked : Bool) (destinationId : Text) : Task :=
  .begin ((named unlocked destinationId).map .swapping)

-- One call to the store that goes through. Each holds the connection to its end.
def Task.proceed (rows : Rows) : Task → Option (Task × Rows)
  | .inserting session =>
    match insertDestinationSession session rows with
    | .ok rows => some (if session.backupMode.isSome then .seeding session.destinationId else .ended (.ok ()),rows)
    | .error error => some (.ended (.error (.fromStorage error)),rows)
  | .seeding _ => some (.ended (.ok ()),rows)
  | .swapping destinationId =>
    match swapPrimaryDestination destinationId rows with
    | .ok rows => some (.reading,rows)
    | .error error => some (.ended (.error (.fromStorage error)),rows)
  | .reading =>
    match getPrimaryDestination rows with
    | some _ => some (.connecting,rows)
    | none => some (.ended (.error (.internalError "Primary destination missing after swap")),rows)
  | .connecting => some (.ended (.ok ()),rows)
  | .checking destinationId =>
    if (getPrimaryDestination rows).any (·.destinationId = destinationId) then
      some (.ended (.error (.invalidInput
        "Cannot delete the primary destination — promote another destination to primary first.")),rows)
    else some (.deleting destinationId,rows)
  | .deleting destinationId => some (.clearing destinationId,deleteDestinationSession destinationId rows)
  | .clearing _ => some (.ended (.ok ()),rows)
  | .ended _ => none

-- One that fails. The queue of a deleted destination is cleared best effort.
def Task.abandon (error : IpcError) : Task → Option Task
  | .clearing _ => some (.ended (.ok ()))
  | .ended _ => none
  | _ => some (.ended (.error error))

-- `hadPrimary` is history: the commands do not read it.
structure State where
  rows : Rows
  tasks : List Task
  hadPrimary : Bool

def hasPrimary (rows : Rows) : Bool := rows.any (·.isPrimary)

inductive Action where
  | addDestination (fate : AddFate) (config : DestinationSessionConfig)
  | setPrimaryDestination (unlocked : Bool) (destinationId : Text)
  | deleteDestination (unlocked : Bool) (destinationId : Text)
  | call (t : Nat) (failure : Option IpcError)

def State.move (s : State) (t : Nat) (task : Task) (rows : Rows) : State :=
  ⟨rows,s.tasks.set t task,s.hadPrimary || hasPrimary rows⟩

def step (s : State) : Action → Option State
  | .addDestination fate config => some {s with tasks := s.tasks ++ [addDestination fate config]}
  | .setPrimaryDestination unlocked destinationId =>
    some {s with tasks := s.tasks ++ [setPrimaryDestination unlocked destinationId]}
  | .deleteDestination unlocked destinationId =>
    some {s with tasks := s.tasks ++ [deleteDestination unlocked destinationId]}
  | .call t none => do
    let task ← s.tasks[t]?
    let moved ← task.proceed s.rows
    some (s.move t moved.1 moved.2)
  | .call t (some failure) => do
    let task ← s.tasks[t]?
    let abandoned ← task.abandon failure
    some (s.move t abandoned s.rows)

-- Ids are the primary key; at most one row is primary.
structure Sole (rows : Rows) : Prop where
  keyed : (rows.map (·.destinationId)).Nodup
  primary : rows.countP (·.isPrimary) ≤ 1

variable {rows rows' : Rows} {row : DestinationSessionRow} {destinationId : Text}

theorem has_primary : hasPrimary rows = true ↔ ∃ row ∈ rows, row.isPrimary = true := by
  simp [hasPrimary]

theorem primary_unique (sole : Sole rows) (first : row ∈ rows) (here : row.isPrimary = true) (second : other ∈ rows)
    (there : other.isPrimary = true) : row = other := by
  by_contra apart
  have both : [row,other].Subperm (rows.filter (·.isPrimary)) := by
    refine (List.subperm_of_subset (by simpa using apart) ?_)
    intro item member
    rcases List.mem_cons.mp member with rfl | member
    · exact List.mem_filter.mpr ⟨first,here⟩
    · rw [List.mem_singleton.mp member]
      exact List.mem_filter.mpr ⟨second,there⟩
  have size := both.length_le
  rw [← List.countP_eq_length_filter] at size
  have one := sole.primary
  simp only [List.length_cons,List.length_nil] at size
  omega

theorem found_primary (found : getPrimaryDestination rows = some row) : row ∈ rows ∧ row.isPrimary = true :=
  ⟨List.mem_of_find?_eq_some found,by simpa using List.find?_some found⟩

theorem no_primary (absent : getPrimaryDestination rows = none) : rows.countP (·.isPrimary) = 0 := by
  rw [List.countP_eq_zero]
  intro row member primary
  exact List.find?_eq_none.mp absent row member primary

theorem insert_sole (sole : Sole rows) (inserted : insertDestinationSession row rows = .ok rows') :
    Sole rows' ∧ (hasPrimary rows = true → hasPrimary rows' = true) := by
  simp only [insertDestinationSession,bind_ok,ensure_ok,pure_ok] at inserted
  obtain ⟨_,alone,_,fresh,rfl⟩ := inserted
  have fresh : ∀ old ∈ rows, old.destinationId ≠ row.destinationId := by
    simpa using fresh
  refine ⟨⟨?_,?_⟩,fun there => ?_⟩
  · rw [List.map_append,List.nodup_append']
    refine ⟨sole.keyed,List.nodup_singleton _,?_⟩
    rintro key member single
    obtain ⟨old,there,rfl⟩ := List.mem_map.mp member
    exact fresh old there (List.mem_singleton.mp single)
  · rw [List.countP_append,List.countP_singleton]
    split
    · rename_i primary
      cases found : getPrimaryDestination rows with
      | none => rw [no_primary found]
      | some existing =>
        have same := alone primary
        rw [found] at same
        exact absurd (by simpa using same) (fresh existing (found_primary found).1)
    · exact sole.primary
  · obtain ⟨old,member,primary⟩ := has_primary.mp there
    exact has_primary.mpr ⟨old,List.mem_append_left _ member,primary⟩

theorem delete_sole (sole : Sole rows) : Sole (deleteDestinationSession destinationId rows) := by
  have part : (deleteDestinationSession destinationId rows).Sublist rows := List.filter_sublist
  exact ⟨sole.keyed.sublist (part.map _),(part.countP_le).trans sole.primary⟩

-- What a swap is to do: the target is primary and nothing else is, the demoted
-- destination has a backup mode, and no other row changes.
structure Swapped (newPrimaryId : Text) (rows rows' : Rows) : Prop where
  target : ∀ row ∈ rows', row.isPrimary = true ↔ row.destinationId = newPrimaryId
  present : ∃ row ∈ rows', row.destinationId = newPrimaryId
  keys : rows'.map (·.destinationId) = rows.map (·.destinationId)
  others : ∀ row ∈ rows, row.isPrimary = false → row.destinationId ≠ newPrimaryId → row ∈ rows'
  promoted : ∀ row ∈ rows, row.isPrimary = false → row.destinationId = newPrimaryId →
    {row with isPrimary := true} ∈ rows'
  demoted : ∀ row ∈ rows, row.isPrimary = true → row.destinationId ≠ newPrimaryId →
    {row with isPrimary := false,backupMode := some (row.backupMode.getD .mirror)} ∈ rows'

def swapRow (newPrimaryId : Text) (row : DestinationSessionRow) : DestinationSessionRow :=
  promote newPrimaryId (demote (keepMirror row))

@[simp] theorem swap_row_key : (swapRow newPrimaryId row).destinationId = row.destinationId := by
  unfold swapRow promote demote keepMirror
  split <;> split <;> rfl

theorem swap_row_primary : (swapRow newPrimaryId row).isPrimary = true ↔ row.destinationId = newPrimaryId := by
  unfold swapRow promote demote keepMirror
  split <;> split <;> simp_all

theorem swap_rows : swapPrimaryDestination newPrimaryId rows = .ok rows' ↔
    (∃ row ∈ rows, row.destinationId = newPrimaryId) ∧ rows' = rows.map (swapRow newPrimaryId) := by
  have same : ((rows.map keepMirror).map demote).map (promote newPrimaryId) = rows.map (swapRow newPrimaryId) := by
    simp [swapRow,Function.comp_def]
  have known : ((rows.map keepMirror).map demote).any (·.destinationId = newPrimaryId) = true ↔
      ∃ row ∈ rows, row.destinationId = newPrimaryId := by
    have key : ∀ row, (demote (keepMirror row)).destinationId = row.destinationId := by
      intro row
      unfold demote keepMirror
      split <;> rfl
    simp [key]
  simp only [swapPrimaryDestination,bind_ok,ensure_ok,pure_ok,known,same]
  constructor
  · rintro ⟨_,there,rfl⟩
    exact ⟨there,rfl⟩
  · rintro ⟨there,rfl⟩
    exact ⟨(),there,rfl⟩

theorem swapped (there : ∃ row ∈ rows, row.destinationId = newPrimaryId) :
    Swapped newPrimaryId rows (rows.map (swapRow newPrimaryId)) := by
  refine ⟨?_,?_,?_,?_,?_,?_⟩
  · intro row member
    obtain ⟨old,_,rfl⟩ := List.mem_map.mp member
    rw [swap_row_primary,swap_row_key]
  · obtain ⟨row,member,same⟩ := there
    exact ⟨_,List.mem_map_of_mem member,by rw [swap_row_key,same]⟩
  · simp [Function.comp_def]
  · intro row member plain other
    have kept : swapRow newPrimaryId row = row := by
      cases row
      simp_all [swapRow,promote,demote,keepMirror]
    exact List.mem_map.mpr ⟨row,member,kept⟩
  · intro row member plain same
    exact List.mem_map.mpr ⟨row,member,by simp [swapRow,promote,demote,keepMirror,plain,same]⟩
  · intro row member primary other
    refine List.mem_map.mpr ⟨row,member,?_⟩
    cases mode : row.backupMode <;> simp [swapRow,promote,demote,keepMirror,primary,other,mode]

theorem swap_sole (sole : Sole rows) (done : swapPrimaryDestination newPrimaryId rows = .ok rows') :
    Sole rows' ∧ hasPrimary rows' = true := by
  obtain ⟨there,rfl⟩ := swap_rows.mp done
  have swap := swapped there
  refine ⟨⟨swap.keys ▸ sole.keyed,?_⟩,?_⟩
  · have counted : (rows.map (swapRow newPrimaryId)).countP (·.isPrimary) =
        (rows.map (·.destinationId)).count newPrimaryId := by
      rw [List.count,List.countP_map,List.countP_map]
      refine List.countP_congr fun row _ => ?_
      simp [swap_row_primary]
    rw [counted]
    exact List.nodup_iff_count_le_one.mp sole.keyed newPrimaryId
  · obtain ⟨row,member,same⟩ := swap.present
    exact has_primary.mpr ⟨row,member,(swap.target row member).mpr same⟩

def sparing (rows : Rows) : Task → Prop
  | .deleting destinationId => ∀ row ∈ rows, row.isPrimary = true → row.destinationId ≠ destinationId
  | _ => True

theorem delete_primary_iff (sole : Sole rows) (there : hasPrimary rows = true) :
    hasPrimary (deleteDestinationSession destinationId rows) = true ↔
      ∀ row ∈ rows, row.isPrimary = true → row.destinationId ≠ destinationId := by
  constructor
  · intro stays row member primary
    obtain ⟨left,still,primary'⟩ := has_primary.mp stays
    obtain ⟨before,other⟩ := List.mem_filter.mp still
    rw [primary_unique sole member primary before primary']
    simpa using other
  · intro spared
    obtain ⟨row,member,primary⟩ := has_primary.mp there
    exact has_primary.mpr ⟨row,List.mem_filter.mpr ⟨member,by simpa using spared row member primary⟩,primary⟩

theorem proceed_sole {task task' : Task} (sole : Sole rows) (moved : task.proceed rows = some (task',rows')) :
    Sole rows' ∧ (hasPrimary rows = true → (hasPrimary rows' = true ↔ sparing rows task)) := by
  have same : Sole rows ∧ (hasPrimary rows = true → (hasPrimary rows = true ↔ True)) :=
    ⟨sole,fun there => iff_true_intro there⟩
  cases task with
  | inserting session =>
    simp only [Task.proceed] at moved
    split at moved
    · rename_i inserted
      cases moved
      obtain ⟨kept,still⟩ := insert_sole sole inserted
      exact ⟨kept,fun there => iff_true_intro (still there)⟩
    · cases moved
      exact same
  | swapping target =>
    simp only [Task.proceed] at moved
    split at moved
    · rename_i done
      cases moved
      obtain ⟨kept,there⟩ := swap_sole sole done
      exact ⟨kept,fun _ => iff_true_intro there⟩
    · cases moved
      exact same
  | deleting target =>
    cases moved
    exact ⟨delete_sole sole,fun there => delete_primary_iff sole there⟩
  | reading =>
    simp only [Task.proceed] at moved
    split at moved <;> cases moved <;> exact same
  | checking target =>
    simp only [Task.proceed] at moved
    split at moved <;> cases moved <;> exact same
  | seeding _ | connecting | clearing _ =>
    cases moved
    exact same
  | ended _ => cases moved

def Settled (s : State) : Prop := Sole s.rows ∧ (hasPrimary s.rows = true → s.hadPrimary = true)

def PrimaryStays (s : State) : Prop := s.hadPrimary = true → hasPrimary s.rows = true

def AtMostOne (s : State) : Prop := s.rows.countP (·.isPrimary) ≤ 1

-- No deletion goes through whose target has become primary since its check.
def Spares (s : State) : Action → Prop
  | .call t none => ∀ task, s.tasks[t]? = some task → sparing s.rows task
  | _ => True

-- A swap that goes through does what it is to do, one that names no destination
-- changes nothing.
def SwapsRight (s : State) : Action → Prop
  | .call t none => ∀ newPrimaryId next, s.tasks[t]? = some (.swapping newPrimaryId) → step s (.call t none) = some next →
    ((∃ row ∈ s.rows, row.destinationId = newPrimaryId) ∧ Swapped newPrimaryId s.rows next.rows) ∨
      ((∀ row ∈ s.rows, row.destinationId ≠ newPrimaryId) ∧ next.rows = s.rows)
  | _ => True

variable {s next : State} {act : Action}

theorem call_moved (taken : step s (.call t none) = some next) : ∃ task task' rows', s.tasks[t]? = some task ∧
    task.proceed s.rows = some (task',rows') ∧ next = s.move t task' rows' := by
  simp only [step,Option.bind_eq_bind,Option.bind_eq_some_iff] at taken
  obtain ⟨task,here,⟨task',rows'⟩,moved,same⟩ := taken
  cases same
  exact ⟨task,task',rows',here,moved,rfl⟩

theorem still_rows (taken : step s act = some next) (other : ∀ t, act ≠ .call t none) :
    next.rows = s.rows ∧ next.hadPrimary = (s.hadPrimary || hasPrimary s.rows) ∨
      next.rows = s.rows ∧ next.hadPrimary = s.hadPrimary := by
  cases act with
  | addDestination fate config =>
    cases taken
    exact .inr ⟨rfl,rfl⟩
  | setPrimaryDestination unlocked destinationId =>
    cases taken
    exact .inr ⟨rfl,rfl⟩
  | deleteDestination unlocked destinationId =>
    cases taken
    exact .inr ⟨rfl,rfl⟩
  | call t failure =>
    cases failure with
    | none => exact absurd rfl (other t)
    | some error =>
      simp only [step,Option.bind_eq_bind,Option.bind_eq_some_iff] at taken
      obtain ⟨task,_,_,_,same⟩ := taken
      cases same
      exact .inl ⟨rfl,rfl⟩

theorem step_settled (settled : Settled s) (taken : step s act = some next) : Settled next := by
  obtain ⟨sole,known⟩ := settled
  by_cases call : ∃ t, act = .call t none
  · obtain ⟨t,rfl⟩ := call
    obtain ⟨task,task',rows',_,moved,rfl⟩ := call_moved taken
    refine ⟨(proceed_sole sole moved).1,?_⟩
    intro there
    simp [State.move] at there ⊢
    exact .inr there
  · obtain ⟨same,history⟩ | ⟨same,history⟩ := still_rows taken (by simpa using call)
    · rw [Settled,same,history]
      refine ⟨sole,?_⟩
      intro there
      simp [there]
    · rw [Settled,same,history]
      exact ⟨sole,known⟩

theorem step_stays (settled : Settled s) (stays : PrimaryStays s) (spared : Spares s act)
    (taken : step s act = some next) : PrimaryStays next := by
  intro had
  by_cases call : ∃ t, act = .call t none
  · obtain ⟨t,rfl⟩ := call
    obtain ⟨task,task',rows',here,moved,rfl⟩ := call_moved taken
    simp only [State.move,Bool.or_eq_true] at had ⊢
    cases had with
    | inl before =>
      have there := stays before
      exact ((proceed_sole settled.1 moved).2 there).mpr (spared task here)
    | inr now => exact now
  · obtain ⟨same,history⟩ | ⟨same,history⟩ := still_rows taken (by simpa using call)
    · rw [history,Bool.or_eq_true] at had
      rw [same]
      exact had.elim stays fun there => there
    · rw [history] at had
      rw [same]
      exact stays had

theorem step_loses (settled : Settled s) (struck : ¬ Spares s act) (taken : step s act = some next) :
    ¬ PrimaryStays next := by
  intro stays
  by_cases call : ∃ t, act = .call t none
  · obtain ⟨t,rfl⟩ := call
    obtain ⟨task,task',rows',here,moved,rfl⟩ := call_moved taken
    have fatal : ¬ sparing s.rows task := by
      intro spared
      apply struck
      intro task₂ here₂
      rw [here] at here₂
      cases here₂
      exact spared
    have there : hasPrimary s.rows = true := by
      cases task with
      | deleting destinationId =>
        simp only [sparing,not_forall] at fatal
        obtain ⟨row,member,primary,_⟩ := fatal
        exact has_primary.mpr ⟨row,member,primary⟩
      | _ => exact absurd trivial fatal
    apply fatal
    apply ((proceed_sole settled.1 moved).2 there).mp
    apply stays
    simp [State.move,settled.2 there]
  · apply struck
    cases act with
    | call t failure =>
      cases failure with
      | none => exact absurd ⟨t,rfl⟩ call
      | some error => trivial
    | _ => trivial

theorem swaps_right : SwapsRight s act := by
  cases act with
  | call t failure =>
    cases failure with
    | some error => trivial
    | none =>
      intro newPrimaryId next here taken
      obtain ⟨task,task',rows',here₂,moved,rfl⟩ := call_moved taken
      rw [here] at here₂
      cases here₂
      simp only [Task.proceed] at moved
      split at moved
      · rename_i done
        cases moved
        obtain ⟨there,rfl⟩ := swap_rows.mp done
        exact .inl ⟨there,swapped there⟩
      · rename_i refused
        cases moved
        refine .inr ⟨?_,rfl⟩
        intro row member same
        have done := swap_rows.mpr ⟨⟨row,member,same⟩,rfl⟩
        rw [done] at refused
        cases refused
  | _ => trivial

structure Held (s : State) : Prop where
  settled : Settled s
  stays : PrimaryStays s

def opened (rows : Rows) : State := ⟨rows,[],hasPrimary rows⟩

theorem primary_kept_iff (sole : Sole rows) (ran : run step (opened rows) acts = some last) :
    Along step AtMostOne (opened rows) acts ∧ Guarded step SwapsRight (opened rows) acts ∧
      (Along step PrimaryStays (opened rows) acts ↔ Guarded step Spares (opened rows) acts) := by
  have start : Settled (opened rows) := ⟨sole,fun there => there⟩
  refine ⟨?_,?_,?_⟩
  · apply along_mono (P := Settled)
    · intro s settled
      exact settled.1.primary
    · exact along_invariant (fun s act next settled taken => step_settled settled taken) start
  · exact guarded_of_actions fun act _ s => swaps_right
  · apply along_iff_guarded (fun s (held : Held s) => held.stays) _ _ ⟨start,fun there => there⟩ ran
    · intro s act next held spared taken
      exact ⟨step_settled held.settled taken,step_stays held.settled held.stays spared taken⟩
    · intro s act next held struck taken
      exact step_loses held.settled struck taken

-- Two cloud destinations; the second is promoted between the check and the
-- deletion of its own removal.
def cloudConfig (isPrimary : Bool) : DestinationSessionConfig :=
  ⟨['B','2'],"cloud",['b'],[],['[','r',']'],isPrimary,none⟩

def drawn (destinationId : Text) : AddFate := ⟨true,none,destinationId,.ok ['d'],0⟩

def twoAdded : List Action :=
  [.addDestination (drawn ['a']) (cloudConfig true),.call 0 none,
    .addDestination (drawn ['b']) (cloudConfig false),.call 1 none]

def promotedMeanwhile : List Action :=
  twoAdded ++ [.deleteDestination true ['b'],.call 2 none,.setPrimaryDestination true ['b'],.call 3 none,.call 2 none]

theorem primary_lost : ¬ Along step PrimaryStays (opened []) promotedMeanwhile := by
  intro along
  obtain ⟨last,ran,had,gone⟩ : ∃ last, run step (opened []) promotedMeanwhile = some last ∧ last.hadPrimary = true ∧
      hasPrimary last.rows = false := ⟨_,rfl,rfl,rfl⟩
  have there := along_last along ran had
  rw [gone] at there
  cases there

def promotedAfter : List Action :=
  twoAdded ++ [.setPrimaryDestination true ['b'],.call 2 none,.deleteDestination true ['a'],.call 3 none,.call 3 none]

theorem primary_kept_promoted : Along step AtMostOne (opened []) promotedAfter ∧
    Guarded step SwapsRight (opened []) promotedAfter ∧
      (Along step PrimaryStays (opened []) promotedAfter ↔ Guarded step Spares (opened []) promotedAfter) :=
  primary_kept_iff ⟨List.nodup_nil,by decide⟩ (Option.some_get (rfl : (run step (opened []) promotedAfter).isSome)).symm

end ArxRuna.Cloud.Destinations
