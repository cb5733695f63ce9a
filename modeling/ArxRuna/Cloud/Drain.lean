import ArxRuna.Cloud.Push
import ArxRuna.Library.Batches
import ArxRuna.Library.Interrupt
import ArxRuna.Sharing.Endpoint
namespace ArxRuna.Cloud.Drain
open Library.Batches Library.Fallible Library.Interrupt Crypto Store.Tables Cloud.Transport Cloud.Push
open Sharing.RemotePath (Text hyphenated hyphenated_inj hyphenated_le validateRemotePath)
open Sharing.Endpoint (versionNumber)

-- A row of `pending_deletions`. The name is the primary key; SQLite lets such a key
-- be NULL.
structure PendingRow where
  blobName : Option Text
  queuedAt : Int
  deriving DecidableEq, Repr

deriving instance DecidableEq for SyncError

abbrev PendingRow.name (row : PendingRow) : Text := row.blobName.getD []

-- `ORDER BY queued_at ASC, blob_name ASC`
def Before (a b : PendingRow) : Prop := a.queuedAt < b.queuedAt ∨ a.queuedAt = b.queuedAt ∧ a.name ≤ b.name

instance : DecidableRel Before := fun a b =>
  inferInstanceAs (Decidable (a.queuedAt < b.queuedAt ∨ a.queuedAt = b.queuedAt ∧ a.name ≤ b.name))

def queue (rows : List PendingRow) : List PendingRow :=
  (rows.filter fun row => row.blobName.isSome).insertionSort Before

def listPendingDeletions (limit : Nat) (rows : List PendingRow) : List Text := ((queue rows).take limit).map (·.name)

def markDeletionComplete (blobName : Text) (rows : List PendingRow) : List PendingRow :=
  rows.filter (·.blobName ≠ some blobName)

def pendingDeletionsBatchLimit : Nat := 128

-- An answer of the provider.
structure Answer where
  blobName : Text
  result : Except CloudTransportError Unit

structure World where
  rows : List PendingRow
  answers : List Answer

-- `parseStr` is `Uuid::parse_str`. What the provider answers and how the calls of the
-- store end may depend on everything the provider has answered before.
structure DrainEnv where
  parseStr : Text → Option Uuid
  deleteBlob : List Answer → Text → Except CloudTransportError Unit
  lists : List Answer → Fate SyncError
  marks : List Answer → Fate SyncError

variable (env : DrainEnv)

def validateBlobNameUuidV4 (blobName : Text) : Except SyncError Unit :=
  match env.parseStr blobName with
  | none => .error (.storage (.constraintViolation "invalid blob_name: expected canonical UUID v4"))
  | some parsed =>
    if versionNumber parsed ≠ 4 ∨ hyphenated parsed ≠ blobName then
      .error (.storage (.constraintViolation "invalid blob_name: expected canonical UUID v4"))
    else .ok ()

def vaultPrefix : Text := ['v','a','u','l','t','/']

def blobSuffix : Text := ['.','b','l','o','b']

-- A name with a slash is a whole path, queued where a share is revoked.
def buildBlobRemotePath (blobName : Text) : Except SyncError Text :=
  if '/' ∈ blobName then (validateRemotePath blobName).mapError .transport
  else do
    validateBlobNameUuidV4 env blobName
    (validateRemotePath (vaultPrefix ++ blobName ++ blobSuffix)).mapError .transport

def gone : Except CloudTransportError Unit → Bool
  | .ok _ => true
  | .error .notFound => true
  | .error _ => false

def completeDeletion (blobName : Text) : Command World SyncError Bool := do
  let w ← inspect
  meet (env.marks w.answers)
  change fun w => {w with rows := markDeletionComplete blobName w.rows}
  pure true

def World.answered (w : World) (blobName remotePath : Text) : World :=
  {w with answers := w.answers ++ [⟨blobName,env.deleteBlob w.answers remotePath⟩]}

def drainOne (blobName : Text) : Command World SyncError Bool :=
  match buildBlobRemotePath env blobName with
  | .error _ => pure false
  | .ok remotePath => do
    let w ← inspect
    change fun w => w.answered env blobName remotePath
    if gone (env.deleteBlob w.answers remotePath) then completeDeletion env blobName else pure false

def drainBatch : List Text → Command World SyncError Nat
  | [] => pure 0
  | blobName :: rest => do
    let completed ← drainOne env blobName
    let later ← drainBatch rest
    pure (completed.toNat + later)

-- `none` says that the rounds ran out before the loop had ended.
def drainPendingDeletions : Nat → Command World SyncError (Option Nat)
  | 0 => pure none
  | rounds + 1 => do
    let w ← inspect
    meet (env.lists w.answers)
    let pending := listPendingDeletions pendingDeletionsBatchLimit w.rows
    if pending = [] then pure (some 0)
    else
      let batchCompleted ← drainBatch env pending
      if batchCompleted = 0 then pure (some 0)
      else
        let completed ← drainPendingDeletions rounds
        pure (completed.map (batchCompleted + ·))

variable {env : DrainEnv} {v w : World} {rows : List PendingRow}

-- However a call ends, what left the table was reported deleted or not there.
structure Reported (v w : World) : Prop where
  fewer : ∀ row ∈ w.rows, row ∈ v.rows
  told : ∃ later, w.answers = v.answers ++ later ∧
    ∀ row ∈ v.rows, row ∉ w.rows → ∃ answer ∈ later, row.blobName = some answer.blobName ∧ gone answer.result = true

theorem reported_refl (v : World) : Reported v v :=
  ⟨fun _ member => member,[],(List.append_nil _).symm,fun _ member absent => absurd member absent⟩

theorem reported_trans (a b c : World) (first : Reported a b) (second : Reported b c) : Reported a c := by
  obtain ⟨answers,same,told⟩ := first.told
  obtain ⟨answers',same',told'⟩ := second.told
  refine ⟨fun row member => first.fewer row (second.fewer row member),answers ++ answers',?_,fun row member absent => ?_⟩
  · rw [same',same,List.append_assoc]
  · by_cases between : row ∈ b.rows
    · obtain ⟨answer,there,facts⟩ := told' row between absent
      exact ⟨answer,List.mem_append_right _ there,facts⟩
    · obtain ⟨answer,there,facts⟩ := told row member between
      exact ⟨answer,List.mem_append_left _ there,facts⟩

theorem mark_reported {answer : Answer} (holds : gone answer.result = true) :
    Reported v ⟨markDeletionComplete answer.blobName v.rows,v.answers ++ [answer]⟩ := by
  refine ⟨fun row member => (List.mem_filter.mp member).1,[answer],rfl,fun row member absent => ?_⟩
  refine ⟨answer,List.mem_singleton_self _,?_,holds⟩
  by_contra other
  exact absent (List.mem_filter.mpr ⟨member,by simpa using other⟩)

theorem answer_reported (v : World) (answer : Answer) : Reported v ⟨v.rows,v.answers ++ [answer]⟩ :=
  ⟨fun _ member => member,[answer],rfl,fun _ member absent => absurd member absent⟩

theorem one_unbuilt (refused : buildBlobRemotePath env blobName = .error e) : drainOne env blobName v = (.done false,v) := by
  unfold drainOne
  rw [refused]
  rfl

theorem one_answered (built : buildBlobRemotePath env blobName = .ok remotePath) : drainOne env blobName v =
    (if gone (env.deleteBlob v.answers remotePath) then completeDeletion env blobName else pure false)
      (v.answered env blobName remotePath) := by
  unfold drainOne
  rw [built]
  rfl

theorem keeps_one (blobName : Text) : Keeps Reported (drainOne env blobName) := by
  intro v
  cases built : buildBlobRemotePath env blobName with
  | error e =>
    rw [one_unbuilt built]
    exact reported_refl v
  | ok remotePath =>
    rw [one_answered built]
    split
    · rename_i holds
      rw [completeDeletion,bind_inspect]
      cases env.marks (v.answered env blobName remotePath).answers with
      | goes => exact @mark_reported _ ⟨blobName,_⟩ holds
      | fails e => exact answer_reported v _
      | stops => exact answer_reported v _
    · exact answer_reported v _

theorem keeps_batch (names : List Text) : Keeps Reported (drainBatch env names) := by
  induction names with
  | nil => exact keeps_pure reported_refl _
  | cons blobName rest ih =>
    refine keeps_bind reported_trans (keeps_one blobName) fun completed => ?_
    exact keeps_bind reported_trans ih fun later => keeps_pure reported_refl _

theorem keeps_drain (rounds : Nat) : Keeps Reported (drainPendingDeletions env rounds) := by
  induction rounds with
  | zero => exact keeps_pure reported_refl _
  | succ rounds ih =>
    refine keeps_bind reported_trans (keeps_inspect reported_refl) fun w => ?_
    refine keeps_bind reported_trans (keeps_meet reported_refl _) fun _ => ?_
    dsimp only
    split
    · exact keeps_pure reported_refl _
    · refine keeps_bind reported_trans (keeps_batch _) fun batchCompleted => ?_
      split
      · exact keeps_pure reported_refl _
      · exact keeps_bind reported_trans ih fun completed => keeps_pure reported_refl _

-- A provider whose answer for a blob does not change.
def Steady (env : DrainEnv) (answer : Text → Except CloudTransportError Unit) : Prop :=
  ∀ answers remotePath, env.deleteBlob answers remotePath = answer remotePath

def deletable (env : DrainEnv) (answer : Text → Except CloudTransportError Unit) (blobName : Text) : Bool :=
  match buildBlobRemotePath env blobName with
  | .error _ => false
  | .ok remotePath => gone (answer remotePath)

def without (completed : List Text) (rows : List PendingRow) : List PendingRow :=
  rows.filter fun row => ∀ name ∈ completed, row.blobName ≠ some name

theorem one_done (ended : drainOne env blobName v = (.done completed,w)) :
    w.rows = (if completed then markDeletionComplete blobName v.rows else v.rows) ∧
      ∀ answer, Steady env answer → completed = deletable env answer blobName := by
  cases built : buildBlobRemotePath env blobName with
  | error e =>
    rw [one_unbuilt built] at ended
    cases ended
    exact ⟨rfl,fun answer _ => by rw [deletable,built]⟩
  | ok remotePath =>
    have same (answer : Text → Except CloudTransportError Unit) (steady : Steady env answer) :
        deletable env answer blobName = gone (env.deleteBlob v.answers remotePath) := by
      rw [deletable,built,steady]
    rw [one_answered built] at ended
    cases holds : gone (env.deleteBlob v.answers remotePath) with
    | false =>
      rw [holds,if_neg (by decide)] at ended
      cases ended
      exact ⟨rfl,fun answer steady => by rw [same answer steady,holds]⟩
    | true =>
      rw [holds,if_pos rfl] at ended
      simp only [completeDeletion,done_bind,done_inspect,done_meet,done_change,done_pure] at ended
      obtain ⟨_,_,⟨rfl,rfl⟩,_,_,⟨_,rfl⟩,_,_,rfl,rfl,rfl⟩ := ended
      exact ⟨rfl,fun answer steady => by rw [same answer steady,holds]⟩

theorem batch_done {names : List Text} (ended : drainBatch env names v = (.done n,w)) :
    ∃ completed, completed.Sublist names ∧ n = completed.length ∧ w.rows = without completed v.rows ∧
      ∀ answer, Steady env answer → completed = names.filter (deletable env answer) := by
  induction names generalizing v n with
  | nil =>
    obtain ⟨rfl,rfl⟩ := done_pure.mp ended
    exact ⟨[],List.Sublist.refl [],rfl,by simp [without],fun _ _ => rfl⟩
  | cons blobName rest ih =>
    simp only [drainBatch,done_bind,done_pure] at ended
    obtain ⟨taken,u,first,later,_,second,rfl,rfl⟩ := ended
    obtain ⟨rows,steady⟩ := one_done first
    obtain ⟨completed,sub,rfl,rows',steady'⟩ := ih second
    cases taken with
    | false =>
      rw [if_neg (by decide)] at rows
      refine ⟨completed,sub.cons _,by simp,by rw [rows',rows],fun answer holds => ?_⟩
      rw [List.filter_cons_of_neg (by simp [← steady answer holds]),steady' answer holds]
    | true =>
      rw [if_pos rfl] at rows
      refine ⟨blobName :: completed,sub.cons_cons _,by simp; omega,?_,fun answer holds => ?_⟩
      · rw [rows',rows,without,markDeletionComplete,List.filter_filter,without]
        apply List.filter_congr
        intro row _
        rw [Bool.eq_iff_iff]
        simp
        tauto
      · rw [List.filter_cons_of_pos (by simp [← steady answer holds]),steady' answer holds]

instance : Std.Total Before where
  total a b := by
    unfold Before
    rcases lt_trichotomy a.queuedAt b.queuedAt with below | same | above
    · exact .inl (.inl below)
    · rcases le_total a.name b.name with first | second
      · exact .inl (.inr ⟨same,first⟩)
      · exact .inr (.inr ⟨same.symm,second⟩)
    · exact .inr (.inl above)

instance : IsTrans PendingRow Before where
  trans a b c := by
    unfold Before
    intro first second
    rcases first with below | ⟨same,first⟩
    · rcases second with below' | ⟨same',_⟩
      · exact .inl (below.trans below')
      · exact .inl (same' ▸ below)
    · rcases second with below' | ⟨same',second⟩
      · exact .inl (same ▸ below')
      · exact .inr ⟨same.trans same',first.trans second⟩

theorem before_antisymm (named : a.blobName.isSome) (named' : b.blobName.isSome) (first : Before a b)
    (second : Before b a) : a = b := by
  obtain ⟨name,queuedAt⟩ := a
  obtain ⟨name',queuedAt'⟩ := b
  obtain ⟨text,rfl⟩ := Option.isSome_iff_exists.mp named
  obtain ⟨text',rfl⟩ := Option.isSome_iff_exists.mp named'
  unfold Before at first second
  dsimp only [PendingRow.name,Option.getD_some] at first second
  rcases first with below | ⟨rfl,under⟩
  · omega
  · rcases second with below | ⟨_,above⟩
    · omega
    · rw [le_antisymm under above]

theorem queue_sorted (rows : List PendingRow) : (queue rows).Pairwise Before := List.pairwise_insertionSort _ _

theorem mem_queue {row : PendingRow} : row ∈ queue rows ↔ row ∈ rows ∧ row.blobName.isSome := by
  rw [queue,List.mem_insertionSort,List.mem_filter]

theorem queue_perm (rows : List PendingRow) : (queue rows).Perm (rows.filter fun row => row.blobName.isSome) :=
  List.perm_insertionSort _ _

theorem queue_filter (p : PendingRow → Bool) (rows : List PendingRow) : queue (rows.filter p) = (queue rows).filter p := by
  have perm : (queue (rows.filter p)).Perm ((queue rows).filter p) := by
    refine (queue_perm _).trans ?_
    rw [List.filter_comm]
    exact ((queue_perm rows).filter p).symm
  refine List.Perm.eq_of_pairwise (fun a b left right first second => ?_) (queue_sorted _)
    ((queue_sorted rows).filter p) perm
  have right' : b ∈ queue rows := (List.mem_filter.mp right).1
  exact before_antisymm (mem_queue.mp left).2 (mem_queue.mp right').2 first second

-- `blob_name` is the primary key; a row without a name is never in the way of it.
def Keyed (rows : List PendingRow) : Prop := (rows.filterMap (·.blobName)).Nodup

theorem queue_names (rows : List PendingRow) : ((queue rows).map (·.name)).Perm (rows.filterMap (·.blobName)) := by
  refine ((queue_perm rows).map _).trans (List.Perm.of_eq ?_)
  induction rows with
  | nil => rfl
  | cons row rest ih =>
    cases named : row.blobName with
    | none => simp [named,ih]
    | some name => simp [named,ih,PendingRow.name]

theorem keyed_names (keyed : Keyed rows) : ((queue rows).map (·.name)).Nodup := (queue_names rows).nodup_iff.mpr keyed

theorem keyed_filter (keyed : Keyed rows) (p : PendingRow → Bool) : Keyed (rows.filter p) :=
  List.Nodup.sublist ((List.filter_sublist).filterMap _) keyed

variable {answer : Text → Except CloudTransportError Unit}

def goodRow (env : DrainEnv) (answer : Text → Except CloudTransportError Unit) (row : PendingRow) : Bool :=
  deletable env answer row.name

theorem queue_some {row : PendingRow} (member : row ∈ queue rows) : row.blobName = some row.name := by
  obtain ⟨name,named⟩ := Option.isSome_iff_exists.mp (mem_queue.mp member).2
  rw [PendingRow.name,named]
  rfl

theorem queue_round (keyed : Keyed rows) :
    queue (without ((listPendingDeletions limit rows).filter (deletable env answer)) rows) =
      Library.Batches.round (goodRow env answer) limit (queue rows) := by
  have names := keyed_names keyed
  rw [← List.take_append_drop limit (queue rows),List.map_append,List.nodup_append] at names
  obtain ⟨_,_,across⟩ := names
  rw [without,queue_filter]
  conv_lhs => rw [← List.take_append_drop limit (queue rows)]
  rw [List.filter_append,Library.Batches.round]
  congr 1
  · apply List.filter_congr
    intro row member
    have named := queue_some (List.mem_of_mem_take member)
    rw [Bool.eq_iff_iff]
    simp only [decide_eq_true_eq,Bool.not_eq_true',goodRow]
    constructor
    · intro kept
      by_contra holds
      refine kept row.name ?_ named
      rw [Bool.not_eq_false] at holds
      exact List.mem_filter.mpr ⟨List.mem_map_of_mem member,holds⟩
    · intro fails name listed same
      rw [named] at same
      cases same
      rw [(List.mem_filter.mp listed).2] at fails
      cases fails
  · rw [List.filter_eq_self]
    intro row member
    have named := queue_some (List.mem_of_mem_drop member)
    rw [decide_eq_true_eq]
    intro name listed same
    rw [named] at same
    cases same
    exact across _ (List.mem_filter.mp listed).1 _ (List.mem_map_of_mem member) rfl

theorem batch_shorter (ended : drainBatch env (listPendingDeletions limit v.rows) v = (.done n,w)) :
    (n = 0 → w.rows = v.rows) ∧ (n ≠ 0 → w.rows.length < v.rows.length) := by
  obtain ⟨completed,sub,rfl,rows,_⟩ := batch_done ended
  rw [rows]
  constructor
  · intro none
    rw [List.length_eq_zero_iff.mp none]
    simp [without]
  · intro some
    obtain ⟨name,member⟩ := List.exists_mem_of_ne_nil completed (by simpa using some)
    obtain ⟨row,inside,same⟩ := List.mem_map.mp (sub.subset member)
    have there := List.mem_of_mem_take inside
    have named := queue_some there
    apply List.length_filter_lt_length_iff_exists.mpr
    refine ⟨row,(mem_queue.mp there).1,?_⟩
    rw [decide_eq_true_eq]
    intro kept
    refine kept name member ?_
    rw [named,same]

-- The measure is the length of the table.
theorem drain_ends (enough : v.rows.length < rounds) : drainPendingDeletions env rounds v ≠ (.done none,w) := by
  induction rounds generalizing v with
  | zero => omega
  | succ rounds ih =>
    intro ended
    simp only [drainPendingDeletions,done_bind,done_inspect,done_meet] at ended
    obtain ⟨_,_,⟨rfl,rfl⟩,_,_,⟨_,rfl⟩,ended⟩ := ended
    split at ended
    · cases ended
    · rw [done_bind] at ended
      obtain ⟨batchCompleted,u,batch,ended⟩ := ended
      split at ended
      · cases ended
      · rename_i progress
        rw [done_bind] at ended
        obtain ⟨completed,t,later,ended⟩ := ended
        obtain ⟨none,rfl⟩ := done_pure.mp ended
        rw [Option.map_eq_none_iff.mp none] at later
        have := (batch_shorter batch).2 progress
        exact ih (by omega) later

theorem drain_done (steady : Steady env answer) (keyed : Keyed v.rows)
    (ended : drainPendingDeletions env rounds v = (.done (some total),w)) :
    queue w.rows = settled (goodRow env answer) pendingDeletionsBatchLimit (queue v.rows) ∧
      ∀ row ∈ v.rows, row.blobName = none → row ∈ w.rows := by
  induction rounds generalizing v total with
  | zero => cases ended
  | succ rounds ih =>
    simp only [drainPendingDeletions,done_bind,done_inspect,done_meet] at ended
    obtain ⟨_,_,⟨rfl,rfl⟩,_,_,⟨_,rfl⟩,ended⟩ := ended
    split at ended
    · rename_i nothing
      obtain ⟨_,rfl⟩ := done_pure.mp ended
      rw [listPendingDeletions,List.map_eq_nil_iff] at nothing
      refine ⟨(settled_stuck fun row member => ?_).symm,fun _ member _ => member⟩
      rw [nothing] at member
      cases member
    · rw [done_bind] at ended
      obtain ⟨batchCompleted,u,batch,ended⟩ := ended
      obtain ⟨completed,_,count,rows,same⟩ := batch_done batch
      have filtered := same answer steady
      split at ended
      · rename_i nothing
        obtain ⟨_,rfl⟩ := done_pure.mp ended
        have unchanged := (batch_shorter batch).1 nothing
        rw [unchanged]
        refine ⟨(settled_stuck fun row member => ?_).symm,fun _ member _ => member⟩
        rw [nothing,filtered,eq_comm,List.length_eq_zero_iff,List.filter_eq_nil_iff] at count
        simpa [goodRow] using count row.name (List.mem_map_of_mem member)
      · rw [done_bind] at ended
        obtain ⟨later,t,again,ended⟩ := ended
        obtain ⟨some,rfl⟩ := done_pure.mp ended
        obtain ⟨rest,rfl,_⟩ := Option.map_eq_some_iff.mp some
        have keyed' : Keyed u.rows := by
          rw [rows]
          exact keyed_filter keyed _
        obtain ⟨left,unnamed⟩ := ih keyed' again
        refine ⟨?_,fun row member none => unnamed row ?_ none⟩
        · rw [left,rows,filtered,queue_round keyed,settled_round (Nat.le_refl _)]
        · rw [rows]
          refine List.mem_filter.mpr ⟨member,?_⟩
          rw [decide_eq_true_eq,none]
          intro name _ same
          cases same

def stuckAhead (env : DrainEnv) (answer : Text → Except CloudTransportError Unit) (rows : List PendingRow)
    (row : PendingRow) : List PendingRow :=
  rows.filter fun other => other.blobName.isSome ∧ Before other row ∧ other ≠ row ∧ goodRow env answer other = false

theorem stuck_ahead_length {row : PendingRow} : (stuckAhead env answer rows row).length =
    ((queue rows).filter fun other => Before other row ∧ other ≠ row ∧ goodRow env answer other = false).length := by
  rw [((queue_perm rows).filter _).length_eq,List.filter_filter]
  congr 1
  apply List.filter_congr
  intro other _
  rw [Bool.eq_iff_iff]
  simp
  tauto

theorem drain_left {row : PendingRow} (steady : Steady env answer) (keyed : Keyed v.rows)
    (ended : drainPendingDeletions env rounds v = (.done (some total),w)) :
    row ∈ w.rows ↔ row ∈ v.rows ∧ (row.blobName = none ∨ goodRow env answer row = false ∨
      pendingDeletionsBatchLimit ≤ (stuckAhead env answer v.rows row).length) := by
  obtain ⟨left,unnamed⟩ := drain_done steady keyed ended
  have reported : Reported v (drainPendingDeletions env rounds v).2 := keeps_drain rounds v
  rw [ended] at reported
  have apart : (queue v.rows).Nodup := (keyed_names keyed).of_map
  have antisymm : ∀ a ∈ queue v.rows, ∀ b ∈ queue v.rows, Before a b → Before b a → a = b :=
    fun a first b second => before_antisymm (mem_queue.mp first).2 (mem_queue.mp second).2
  rw [stuck_ahead_length]
  constructor
  · intro member
    have before := reported.fewer row member
    refine ⟨before,?_⟩
    cases named : row.blobName with
    | none => exact .inl rfl
    | some name =>
      have queued : row ∈ queue v.rows := mem_queue.mpr ⟨before,by rw [named]; rfl⟩
      refine .inr ((mem_settled (queue_sorted _) apart antisymm queued).mp ?_)
      rw [← left]
      exact mem_queue.mpr ⟨member,by rw [named]; rfl⟩
  · intro facts
    obtain ⟨before,stays⟩ := facts
    cases named : row.blobName with
    | none => exact unnamed row before named
    | some name =>
      have queued : row ∈ queue v.rows := mem_queue.mpr ⟨before,by rw [named]; rfl⟩
      have settled := (mem_settled (queue_sorted _) apart antisymm queued).mpr (stays.resolve_left (by simp [named]))
      rw [← left] at settled
      exact (mem_queue.mp settled).1

-- The loop ends, it takes nothing out that was not reported gone, and it leaves what
-- cannot be deleted and what waits behind a whole batch of that.
theorem drain_terminates_and_settles (env : DrainEnv) (v : World) :
    (∀ rounds, v.rows.length < rounds → ∀ w, drainPendingDeletions env rounds v ≠ (.done none,w)) ∧
    (∀ rounds, Reported v (drainPendingDeletions env rounds v).2) ∧
    ∀ answer, Steady env answer → Keyed v.rows → ∀ rounds total w,
      drainPendingDeletions env rounds v = (.done (some total),w) → ∀ row, row ∈ w.rows ↔ row ∈ v.rows ∧
        (row.blobName = none ∨ goodRow env answer row = false ∨
          pendingDeletionsBatchLimit ≤ (stuckAhead env answer v.rows row).length) :=
  ⟨fun _ enough _ => drain_ends enough,fun rounds => keeps_drain rounds v,
    fun _ steady keyed _ _ _ ended _ => drain_left steady keyed ended⟩

def willing : DrainEnv := ⟨fun _ => none,fun _ _ => .ok (),fun _ => .goes,fun _ => .goes⟩

def sharedRow : PendingRow := ⟨some ['a','/','b'],128⟩

-- A name without a slash that is no UUID.
def badRow : PendingRow := ⟨some ['a'],0⟩

theorem shared_row_drained : sharedRow ∉ (drainPendingDeletions willing 3 ⟨[badRow,sharedRow],[]⟩).2.rows := by
  intro member
  have keyed : Keyed [badRow,sharedRow] := by
    unfold Keyed
    decide
  have stays := (((drain_terminates_and_settles willing ⟨[badRow,sharedRow],[]⟩).2.2 (fun _ => .ok ())
    (fun _ _ => rfl) keyed 3 1 ⟨[badRow],[⟨['a','/','b'],.ok ()⟩]⟩ rfl sharedRow).mp member).2
  revert stays
  decide

def stuckRows : List PendingRow := (List.range 128).map fun i => ⟨some (Sharing.RemotePath.hexText 2 i),i⟩

-- A whole batch of bad names ahead keeps a deletable row where it is.
theorem batch_of_bad_names :
    (drainPendingDeletions willing 130 ⟨stuckRows ++ [sharedRow],[]⟩).2.rows = stuckRows ++ [sharedRow] ∧
      (drainPendingDeletions willing 130 ⟨stuckRows ++ [sharedRow],[]⟩).1 = .done (some 0) ∧
        deletable willing (fun _ => .ok ()) sharedRow.name = true := by
  decide +kernel

section Linked
variable {x : Vault}

-- The rows of the push model, with the texts of their names.
def shownRows (m : Manifest) : List PendingRow :=
  m.pendingDeletions.map fun entry => ⟨some (hyphenated entry.blobName),entry.queuedAt⟩

-- A name has 16 bytes and is queued once.
structure Queued (m : Manifest) : Prop where
  fits : ∀ entry ∈ m.pendingDeletions, entry.blobName < 2 ^ 128
  once : (m.pendingDeletions.map (·.blobName)).Nodup

structure Shown (w : World) (x : Vault) : Prop where
  rows : w.rows = shownRows x.manifest
  queued : Queued x.manifest

inductive Alike : Ending SyncError α × World → Stage → Prop where
  | done {w : World} {x : Vault} (shown : Shown w x) : Alike (.done value,w) (.ok x)
  | failed {w : World} {x : Vault} (shown : Shown w x) : Alike (.failed e,w) (.error (some e,x))
  | stopped {w : World} {x : Vault} (shown : Shown w x) : Alike (.stopped,w) (.error (none,x))

theorem listed_shown (shown : Shown w x) :
    listPendingDeletions limit w.rows = (Push.listPendingDeletions x.manifest limit).map hyphenated := by
  have named : (shownRows x.manifest).filter (fun row => row.blobName.isSome) = shownRows x.manifest := by
    rw [List.filter_eq_self]
    intro row member
    obtain ⟨entry,_,rfl⟩ := List.mem_map.mp member
    rfl
  -- The order of the texts is that of the identifiers.
  have sorted := List.map_insertionSort
    (fun a b : PendingDeletion => a.queuedAt < b.queuedAt ∨ a.queuedAt = b.queuedAt ∧ a.blobName ≤ b.blobName) Before
    (fun entry : PendingDeletion => (⟨some (hyphenated entry.blobName),entry.queuedAt⟩ : PendingRow))
    x.manifest.pendingDeletions fun a first b second => by
      unfold Before
      dsimp only [PendingRow.name,Option.getD_some]
      rw [hyphenated_le (shown.queued.fits a first) (shown.queued.fits b second)]
  rw [listPendingDeletions,queue,shown.rows,named,shownRows,← sorted,Push.listPendingDeletions,List.map_take,List.map_take,
    List.map_take,List.map_map,List.map_map]
  rfl

theorem mark_shown {m : Manifest} {name : BlobName} (queued : Queued m) (fits : name < 2 ^ 128) :
    markDeletionComplete (hyphenated name) (shownRows m) = shownRows (Store.Operations.markDeletionComplete m name) := by
  rw [shownRows,shownRows,markDeletionComplete,Store.Operations.markDeletionComplete,List.filter_map]
  congr 1
  apply List.filter_congr
  intro entry member
  have same : hyphenated entry.blobName = hyphenated name ↔ entry.blobName = name :=
    ⟨fun same => hyphenated_inj (queued.fits entry member) fits same,fun same => congrArg hyphenated same⟩
  rw [Bool.eq_iff_iff]
  simpa using not_congr same

theorem mark_queued {m : Manifest} (queued : Queued m) (name : BlobName) :
    Queued (Store.Operations.markDeletionComplete m name) :=
  ⟨fun entry member => queued.fits entry (List.mem_filter.mp member).1,
    queued.once.sublist (List.filter_sublist.map _)⟩

-- Here the store only fails with an error of the database.
def StoreTold (env : DrainEnv) : Prop :=
  (∀ answers, env.lists answers = .goes) ∧
    ∀ answers failure, env.marks answers = .fails failure → ∃ text, failure = .storage (.database text)

theorem complete_shown {name : BlobName} (told : StoreTold env) (shown : Shown w x) (fits : name < 2 ^ 128) :
    ∃ marked, Alike (completeDeletion env (hyphenated name) w)
      (storeStep marked x (.ok (Store.Operations.markDeletionComplete x.manifest name))) := by
  rw [completeDeletion,bind_inspect]
  cases met : env.marks w.answers with
  | goes =>
    refine ⟨.goes,.done ⟨?_,mark_queued shown.queued name⟩⟩
    rw [← mark_shown shown.queued fits,← shown.rows]
  | fails e =>
    obtain ⟨text,rfl⟩ := told.2 _ _ met
    exact ⟨.fails text,.failed shown⟩
  | stops => exact ⟨.stops,.stopped shown⟩

def dropped (x : Vault) (name : BlobName) : Vault :=
  {x with cloud := {x.cloud with objects := fun other => if other = name then none else x.cloud.objects other}}

-- Here the object goes exactly where the provider reports it gone.
def deletion (report : Except CloudTransportError Unit) (marked : Push.Fate) : DeletionFate :=
  ⟨gone report,report,marked⟩

theorem push_one {fate : BlobName → DeletionFate} {name : BlobName} (ends : fate name = deletion report marked) :
    Push.drainOne fate x name = if gone report then
      storeStep marked (dropped x name) (.ok (Store.Operations.markDeletionComplete x.manifest name)) else .ok x := by
  unfold Push.drainOne
  rw [ends]
  cases report with
  | ok _ => rfl
  | error e => cases e <;> rfl

theorem one_shown {name : BlobName} (told : StoreTold env) (shown : Shown w x) (fits : name < 2 ^ 128) :
    ∃ report marked, ∀ fate : BlobName → DeletionFate, fate name = deletion report marked →
      Alike (drainOne env (hyphenated name) w) (Push.drainOne fate x name) := by
  cases built : buildBlobRemotePath env (hyphenated name) with
  | error e =>
    refine ⟨.error .timeout,.goes,fun fate ends => ?_⟩
    rw [one_unbuilt built,push_one ends]
    exact .done shown
  | ok remotePath =>
    have shown' : Shown (w.answered env (hyphenated name) remotePath) (dropped x name) := ⟨shown.rows,shown.queued⟩
    obtain ⟨marked,alike⟩ := complete_shown told shown' fits
    refine ⟨env.deleteBlob w.answers remotePath,marked,fun fate ends => ?_⟩
    rw [one_answered built,push_one ends]
    split
    · exact alike
    · exact .done ⟨shown.rows,shown.queued⟩

theorem push_batch {names : List BlobName} {fate fate' : BlobName → DeletionFate}
    (same : ∀ name ∈ names, fate name = fate' name) :
    names.foldlM (Push.drainOne fate) x = names.foldlM (Push.drainOne fate') x := by
  induction names generalizing x with
  | nil => rfl
  | cons name rest ih =>
    have one : Push.drainOne fate x name = Push.drainOne fate' x name := by
      unfold Push.drainOne
      rw [same name List.mem_cons_self]
    rw [List.foldlM_cons,List.foldlM_cons,one]
    exact bind_congr fun y => ih fun name member => same name (List.mem_cons_of_mem _ member)

theorem alike_done {c : Command World SyncError α} (alike : Alike (c w) (.ok y)) :
    ∃ value u, c w = (.done value,u) ∧ Shown u y := by
  cases ended : c w with
  | mk ending u =>
    rw [ended] at alike
    cases alike with
    | done shown => exact ⟨_,u,rfl,shown⟩

theorem alike_early {c : Command World SyncError α} (alike : Alike (c w) (.error early))
    (k : α → Command World SyncError β) : Alike ((c >>= k) w) (.error early) := by
  cases ended : c w with
  | mk ending u =>
    rw [ended] at alike
    cases alike with
    | failed shown =>
      rw [bind_failed ended]
      exact .failed shown
    | stopped shown =>
      rw [bind_stopped ended]
      exact .stopped shown

theorem alike_pure {c : Command World SyncError α} (alike : Alike (c w) stage) (f : α → β) :
    Alike ((c >>= fun a => pure (f a)) w) stage := by
  cases stage with
  | error early => exact alike_early alike _
  | ok y =>
    obtain ⟨value,u,ended,shown⟩ := alike_done alike
    rw [bind_done ended]
    exact .done shown

theorem batch_shown {names : List BlobName} (told : StoreTold env) (shown : Shown w x)
    (fits : ∀ name ∈ names, name < 2 ^ 128) (once : names.Nodup) :
    ∃ fate, Alike (drainBatch env (names.map hyphenated) w) (names.foldlM (Push.drainOne fate) x) := by
  induction names generalizing w x with
  | nil => exact ⟨fun _ => deletion (.ok ()) .goes,.done shown⟩
  | cons name rest ih =>
    obtain ⟨report,marked,one⟩ := one_shown told shown (fits name List.mem_cons_self)
    obtain ⟨apart,once⟩ := List.nodup_cons.mp once
    have first := one (fun _ => deletion report marked) rfl
    rw [List.map_cons,drainBatch]
    cases drained : Push.drainOne (fun _ => deletion report marked) x name with
    | error early =>
      rw [drained] at first
      refine ⟨fun _ => deletion report marked,?_⟩
      rw [List.foldlM_cons,drained]
      exact alike_early first _
    | ok y =>
      rw [drained] at first
      obtain ⟨completed,u,ended,shown⟩ := alike_done first
      obtain ⟨fate,later⟩ := ih shown (fun other member => fits other (List.mem_cons_of_mem _ member)) once
      let both (other : BlobName) : DeletionFate := if other = name then deletion report marked else fate other
      have rest' : rest.foldlM (Push.drainOne both) y = rest.foldlM (Push.drainOne fate) y :=
        push_batch fun other member => if_neg (by rintro rfl; exact apart member)
      have one' : Push.drainOne both x name = .ok y := by
        rw [push_one (if_pos rfl),← drained,push_one rfl]
      refine ⟨both,?_⟩
      rw [List.foldlM_cons,one',bind_done ended]
      change Alike _ (rest.foldlM (Push.drainOne both) y)
      rw [rest']
      exact alike_pure later _

theorem push_rounds {fate fate' : Nat → BlobName → DeletionFate} (same : ∀ round < n, fate round = fate' round) :
    drainRounds fate n x = drainRounds fate' n x := by
  induction n generalizing x with
  | zero => rfl
  | succ n ih =>
    rw [drainRounds,drainRounds,same n (Nat.lt_succ_self n)]
    refine bind_congr fun y => ?_
    rw [ih fun round below => same round (Nat.lt_succ_of_lt below)]

theorem listed_fits {m : Manifest} (queued : Queued m) : (∀ name ∈ Push.listPendingDeletions m limit, name < 2 ^ 128) ∧
    (Push.listPendingDeletions m limit).Nodup := by
  constructor
  · intro name member
    obtain ⟨entry,there,rfl⟩ := List.mem_map.mp member
    exact queued.fits entry ((List.mem_insertionSort _).mp (List.mem_of_mem_take there))
  · refine List.Nodup.sublist ((List.take_sublist _ _).map _) ?_
    exact ((List.perm_insertionSort _ _).map _).nodup_iff.mpr queued.once

theorem shown_length (shown : Shown w x) : w.rows.length = x.manifest.pendingDeletions.length := by
  rw [shown.rows,shownRows,List.length_map]

theorem drain_nothing (told : StoreTold env) (nothing : listPendingDeletions pendingDeletionsBatchLimit w.rows = []) :
    drainPendingDeletions env (rounds + 1) w = (.done (some 0),w) := by
  rw [drainPendingDeletions,bind_inspect,told.1,bind_goes,if_pos nothing]
  rfl

theorem drain_round (told : StoreTold env) (some : listPendingDeletions pendingDeletionsBatchLimit w.rows ≠ []) :
    drainPendingDeletions env (rounds + 1) w =
      (drainBatch env (listPendingDeletions pendingDeletionsBatchLimit w.rows) >>= fun batchCompleted =>
        if batchCompleted = 0 then pure (Option.some 0)
        else drainPendingDeletions env rounds >>= fun completed => pure (completed.map (batchCompleted + ·))) w := by
  rw [drainPendingDeletions,bind_inspect,told.1,bind_goes,if_neg some]

theorem push_round {fate : Nat → BlobName → DeletionFate}
    (drained : (Push.listPendingDeletions x.manifest pendingDeletionsBatchLimit).foldlM (Push.drainOne (fate n)) x = stage) :
    drainRounds fate (n + 1) x = stage.bind fun y =>
      if y.manifest.pendingDeletions.length < x.manifest.pendingDeletions.length then drainRounds fate n y else .ok y := by
  rw [← drained]
  rfl

theorem rounds_shown (told : StoreTold env) (shown : Shown w x) (few : x.manifest.pendingDeletions.length ≤ n)
    (enough : n < rounds) : ∃ fate, Alike (drainPendingDeletions env rounds w) (drainRounds fate n x) := by
  induction n generalizing rounds w x with
  | zero =>
    obtain ⟨rounds,rfl⟩ := Nat.exists_eq_succ_of_ne_zero (Nat.ne_of_gt enough)
    have nothing : w.rows = [] := List.length_eq_zero_iff.mp ((shown_length shown).trans (Nat.le_zero.mp few))
    refine ⟨fun _ _ => deletion (.ok ()) .goes,?_⟩
    rw [drain_nothing told (by rw [nothing]; rfl)]
    exact .done shown
  | succ n ih =>
    obtain ⟨rounds,rfl⟩ := Nat.exists_eq_succ_of_ne_zero (show rounds ≠ 0 by omega)
    have listed := @listed_shown w x pendingDeletionsBatchLimit shown
    by_cases nothing : listPendingDeletions pendingDeletionsBatchLimit w.rows = []
    · refine ⟨fun _ _ => deletion (.ok ()) .goes,?_⟩
      rw [nothing,eq_comm,List.map_eq_nil_iff] at listed
      have idle : (Push.listPendingDeletions x.manifest pendingDeletionsBatchLimit).foldlM
          (Push.drainOne fun _ => deletion (.ok ()) .goes) x = .ok x := by rw [listed]; rfl
      rw [drain_nothing told nothing,push_round idle,Except.bind,if_neg (Nat.lt_irrefl _)]
      exact .done shown
    obtain ⟨fits,once⟩ := @listed_fits pendingDeletionsBatchLimit _ shown.queued
    obtain ⟨fate,batch⟩ := batch_shown told shown fits once
    rw [drain_round told nothing]
    rw [← listed] at batch
    cases drained : (Push.listPendingDeletions x.manifest pendingDeletionsBatchLimit).foldlM (Push.drainOne fate) x with
    | error early =>
      rw [drained] at batch
      refine ⟨fun _ => fate,?_⟩
      rw [push_round drained]
      exact alike_early batch _
    | ok y =>
      rw [drained] at batch
      obtain ⟨batchCompleted,u,ended,shown'⟩ := alike_done batch
      obtain ⟨same,shorter⟩ := batch_shorter ended
      rw [shown_length shown,shown_length shown'] at shorter
      rw [bind_done ended]
      by_cases stuck : batchCompleted = 0
      · have long : y.manifest.pendingDeletions.length = x.manifest.pendingDeletions.length := by
          rw [← shown_length shown,← shown_length shown',same stuck]
        refine ⟨fun _ => fate,?_⟩
        rw [push_round drained,Except.bind,if_pos stuck,if_neg (by omega)]
        exact .done shown'
      · have less := shorter stuck
        obtain ⟨fate',later⟩ := ih shown' (by omega) (Nat.lt_of_succ_lt_succ enough)
        let both (round : Nat) : BlobName → DeletionFate := if round = n then fate else fate' round
        have first : both n = fate := if_pos rfl
        have others : drainRounds both n y = drainRounds fate' n y :=
          push_rounds fun round below => if_neg (Nat.ne_of_lt below)
        refine ⟨both,?_⟩
        rw [push_round (first.symm ▸ drained),Except.bind,if_neg stuck,if_pos less,others]
        exact alike_pure later _

-- However the drain ends, that of the push model has an outcome which leaves the same rows.
theorem drain_shown (told : StoreTold env) (shown : Shown w x) (enough : w.rows.length < rounds) :
    ∃ fate, Alike (drainPendingDeletions env rounds w) (Push.drainPendingDeletions fate x) :=
  rounds_shown told shown (Nat.le_refl _) (shown_length shown ▸ enough)

end Linked

end ArxRuna.Cloud.Drain
