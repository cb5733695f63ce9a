import ArxRuna.Store.Integrity
import ArxRuna.Sync.Devices
namespace ArxRuna.Sync.Conflict
open Library.Run Crypto Store.Tables Store.Operations Store.Integrity Store.Staging Cloud.Transport Cloud.Push Sync.Devices
variable {n : Nat} {s next : State n} {d : Fin n} {dev dev' : Device} {backup : Option CloudManifest}
variable {base slot slot' call : Nat}

-- A push replaces only what its device had pushed or pulled, and it reports Ok
-- only if it has replaced the backup.
def Incorporated : Event n → Prop
  | .pushReplaced _ seen => seen = true
  | .pushEnded _ report stored => report = .ok → stored = true
  | .ceremonyReplaced _ _ _ => True

def NothingLost (s : State n) : Prop := ∀ event ∈ s.history, Incorporated event

def ahead : PushStage → Bool
  | .bumped | .exported _ | .refused => true
  | .begun | .uploading _ | .landed _ => false

-- The cloud counter has been read and the manifest has not been uploaded.
def window : PushStage → Bool
  | .uploading _ | .bumped | .exported _ => true
  | .begun | .landed _ | .refused => false

def Ahead (dev : Device) : Prop := ∃ call run, dev.pushes call = some run ∧ ahead run.stage = true

def Window (dev : Device) : Prop := ∃ call run, dev.pushes call = some run ∧ window run.stage = true

-- A push whose manifest upload has been confirmed has only the header and the
-- queue left to do.
def Finished (dev : Device) : Prop := ∀ call run, dev.pushes call = some run → run.stage = .landed true

-- When the counters tell the truth. A device begins a push only when its earlier
-- ones are through with the counter. A push reads a backup that decrypts under its
-- key and was left by a push or is known to it, or one that it knows and that is
-- not ahead of it. No other device is between its read and its upload when a
-- manifest lands, and a ceremony does not turn the cloud counter back. Nothing
-- ends a run between the bump of the counter and the upload, and the local
-- database is not replaced under a running push.
def Orderly (s : State n) : Action n → Prop
  | .beginPush d _ => Finished (s.devices d)
  | .readCloud d call _ => ∀ run, (s.devices d).pushes call = some run → ∀ c, s.manifestBackup = some c →
      c.version ∈ (s.devices d).known ∧ counter c.manifest ≤ run.localCounter ∨
      c.key = run.key ∧ (c.byPush = true ∨ c.version ∈ (s.devices d).known)
  | .uploadManifest d _ attempt => attempt.stored = true → ∀ e, e ≠ d → ¬ Window (s.devices e)
  | .ceremonyUpload d attempt => attempt.stored = true → (∀ e, ¬ Window (s.devices e)) ∧
      ∀ m, (s.devices d).ceremony = some m → ∀ c, s.manifestBackup = some c → counter c.manifest ≤ counter m
  | .stampSync _ _ _ fate => fate = .goes
  | .rollBackCounter d call fate => ∀ run, (s.devices d).pushes call = some run → ahead run.stage = true → fate = .goes
  | .stop d => ¬ Ahead (s.devices d)
  | .replaceLocal d | .recoverVault d => Finished (s.devices d)
  | _ => True

-- The counter a device stands at, a bump by the push in `slot` left out if it has
-- not been published.
def level (slot : Nat) (dev : Device) : Nat :=
  match dev.pushes slot with
  | none => counter dev.manifest
  | some run => if ahead run.stage then run.localCounter else counter dev.manifest

-- How the counters of a run stand to the local manifest.
structure Counted (backup : Option CloudManifest) (dev : Device) (run : PushRun) : Prop where
  before : run.stage = .begun ∨ (∃ remaining, run.stage = .uploading remaining) →
    counter dev.manifest = run.localCounter
  after : ahead run.stage = true ∨ run.stage = .landed false →
    counter dev.manifest = run.localCounter + 1 ∧ run.localCounter + 1 < 2 ^ 64
  exported : ∀ m, run.stage = .exported m → counter m = run.localCounter + 1
  landed : run.stage = .landed false → backup.isSome

-- At most one push of a device, the one in `slot`, still moves the counter.
structure DeviceOk (base : Nat) (backup : Option CloudManifest) (slot : Nat) (dev : Device) : Prop where
  others : ∀ call run, call ≠ slot → dev.pushes call = some run → run.stage = .landed true
  counted : ∀ run, dev.pushes slot = some run → Counted backup dev run
  seen : ∀ run, dev.pushes slot = some run → window run.stage = true → ∀ c, backup = some c →
    c.version ∈ dev.known ∧ counter c.manifest ≤ run.localCounter
  ceiling : ∀ c, backup = some c → level slot dev ≤ counter c.manifest
  unseen : ∀ c, backup = some c → c.byPush = true → c.version ∈ dev.known ∨ level slot dev < counter c.manifest
  download : ∀ pull, dev.pull = some pull → ∃ c, backup = some c ∧
    counter pull.download.manifest ≤ counter c.manifest ∧
    (c.byPush = true → pull.download.version = c.version ∨ counter pull.download.manifest < counter c.manifest)
  unpublished : backup = none → level slot dev = base ∧ ∀ m, dev.ceremony = some m → base ≤ counter m

structure Invariant (s : State n) : Prop where
  lossless : NothingLost s
  devices : ∃ (base : Nat) (slots : Fin n → Nat), ∀ d, DeviceOk base s.manifestBackup (slots d) (s.devices d)

theorem level_idle (idle : dev.pushes slot = none) : level slot dev = counter dev.manifest := by
  simp only [level,idle]

theorem level_run {task : PushRun} (active : dev.pushes slot = some task) :
    level slot dev = if ahead task.stage then task.localCounter else counter dev.manifest := by
  simp only [level,active]

theorem finished_level (finished : Finished dev) : level slot dev = counter dev.manifest := by
  cases active : dev.pushes slot with
  | none => exact level_idle active
  | some task =>
    rw [level_run active,finished slot task active]
    rfl

theorem DeviceOk.live {task : PushRun} (ok : DeviceOk base backup slot dev) (active : dev.pushes call = some task)
    (running : task.stage ≠ .landed true) : call = slot := by
  by_contra apart
  exact running (ok.others call task apart active)

-- A device that keeps its level and its history keeps the rest, up to its runs.
theorem DeviceOk.restage (ok : DeviceOk base backup slot dev) (known : dev'.known = dev.known)
    (pull : dev'.pull = dev.pull) (ceremony : dev'.ceremony = dev.ceremony)
    (same : level slot' dev' = level slot dev)
    (others : ∀ call run, call ≠ slot' → dev'.pushes call = some run → run.stage = .landed true)
    (counted : ∀ run, dev'.pushes slot' = some run → Counted backup dev' run)
    (seen : ∀ run, dev'.pushes slot' = some run → window run.stage = true → ∀ c, backup = some c →
      c.version ∈ dev'.known ∧ counter c.manifest ≤ run.localCounter) : DeviceOk base backup slot' dev' := by
  refine ⟨others,counted,seen,?_,?_,?_,?_⟩
  · rw [same]
    exact ok.ceiling
  · rw [same,known]
    exact ok.unseen
  · rw [pull]
    exact ok.download
  · rw [same,ceremony]
    exact ok.unpublished

theorem DeviceOk.rest (ok : DeviceOk base backup slot dev) (known : dev'.known = dev.known)
    (pull : dev'.pull = dev.pull) (ceremony : dev'.ceremony = dev.ceremony)
    (push : dev'.pushes = (dev.setPush slot none).pushes) (lower : counter dev'.manifest ≤ level slot dev)
    (same : backup = none → counter dev'.manifest = level slot dev) : DeviceOk base backup slot dev' := by
  have idle : dev'.pushes slot = none := by rw [push,setPush_same]
  have stands := level_idle idle
  refine ⟨fun call run apart active => ?_,fun run active => ?_,fun run active => ?_,fun c there => ?_,
    fun c there pushed => ?_,?_,fun none => ?_⟩
  · rw [push,setPush_other dev _ apart] at active
    exact ok.others call run apart active
  · rw [idle] at active
    cases active
  · rw [idle] at active
    cases active
  · rw [stands]
    exact lower.trans (ok.ceiling c there)
  · rw [stands,known]
    exact (ok.unseen c there pushed).imp_right lower.trans_lt
  · rw [pull]
    exact ok.download
  · rw [stands,same none,ceremony]
    exact ok.unpublished none

theorem put_preserves (inv : Invariant s)
    (ok : ∀ base slot, DeviceOk base s.manifestBackup slot (s.devices d) →
      ∃ slot, DeviceOk base s.manifestBackup slot dev) : Invariant (s.put d dev) := by
  obtain ⟨lossless,base,slots,devices⟩ := inv
  obtain ⟨slot,here⟩ := ok base (slots d) (devices d)
  refine ⟨lossless,base,fun e => if e = d then slot else slots e,fun e => ?_⟩
  by_cases same : e = d
  · simp only [same,put_same,if_pos]
    exact here
  · simp only [put_other s dev same,if_neg same]
    exact devices e

theorem end_push_preserves (inv : Invariant s)
    (ok : ∀ base slot, DeviceOk base s.manifestBackup slot (s.devices d) →
      ∃ slot, DeviceOk base s.manifestBackup slot (dev.setPush call none))
    (honest : report = .ok → stored = true) : Invariant (s.endPush d call dev report stored) := by
  have put := put_preserves inv ok
  refine ⟨?_,put.devices⟩
  intro event member
  rcases List.mem_cons.mp member with rfl | old
  · exact honest
  · exact inv.lossless event old

-- A manifest lands under a counter at least as high as any level, and above them
-- all if a push has put it there.
theorem store_preserves (lossless : NothingLost s) {slots : Fin n → Nat}
    (devices : ∀ e, DeviceOk base s.manifestBackup (slots e) (s.devices e)) {m : Manifest} {key : ManifestKey}
    {byPush : Bool} {event : Event n} (history : Incorporated event)
    (idle : ∀ e, e ≠ d → ¬ Window (s.devices e))
    (others : ∀ call run, call ≠ slots d → dev.pushes call = some run → run.stage = .landed true)
    (own : ∀ run, dev.pushes (slots d) = some run → window run.stage = false)
    (counted : ∀ backup, ∀ run, dev.pushes (slots d) = some run → backup.isSome = true → Counted backup dev run)
    (reached : level (slots d) dev ≤ counter m)
    (covers : ∀ e, e ≠ d → level (slots e) (s.devices e) ≤ counter m ∧
      (byPush = true → level (slots e) (s.devices e) < counter m))
    (grows : ∀ c, s.manifestBackup = some c → counter c.manifest ≤ counter m ∧
      (byPush = true → counter c.manifest < counter m)) (pull : dev.pull = (s.devices d).pull) :
    Invariant (s.store d dev m key byPush event) := by
  refine ⟨?_,base,slots,fun e => ?_⟩
  · intro other member
    rcases List.mem_cons.mp member with rfl | old
    · exact history
    · exact lossless other old
  have earlier (e : Fin n) (run : PullRun) (active : (s.devices e).pull = some run) :
      counter run.download.manifest ≤ counter m ∧ (byPush = true → counter run.download.manifest < counter m) := by
    obtain ⟨c,there,below,_⟩ := (devices e).download run active
    exact ⟨below.trans (grows c there).1,fun pushed => below.trans_lt ((grows c there).2 pushed)⟩
  by_cases same : e = d
  · simp only [State.store,if_pos same]
    rw [same]
    refine ⟨others,fun run active => ?_,fun run active inside => ?_,?_,?_,?_,by rintro ⟨⟩⟩
    · obtain ⟨before,after,exported,landed⟩ := counted (some ⟨m,key,s.nextVersion,byPush⟩) run active rfl
      exact ⟨before,after,exported,landed⟩
    · rw [own run active] at inside
      cases inside
    · rintro c ⟨⟩
      exact reached
    · rintro c ⟨⟩ _
      exact .inl List.mem_cons_self
    · intro run active
      obtain ⟨below,strict⟩ := earlier d run (pull ▸ active)
      exact ⟨_,rfl,below,fun pushed => .inr (strict pushed)⟩
  · simp only [State.store,if_neg same]
    have old := devices e
    obtain ⟨below,strict⟩ := covers e same
    have stands : level (slots e) (s.devices e).overtaken = level (slots e) (s.devices e) := rfl
    refine ⟨old.others,fun run active => ?_,fun run active inside => ?_,?_,?_,?_,by rintro ⟨⟩⟩
    · obtain ⟨before,after,exported,_⟩ := old.counted run active
      exact ⟨before,after,exported,fun _ => rfl⟩
    · exact absurd ⟨_,run,active,inside⟩ (idle e same)
    · rintro c ⟨⟩
      rw [stands]
      exact below
    · rintro c ⟨⟩ pushed
      rw [stands]
      exact .inr (strict pushed)
    · intro run active
      obtain ⟨older,was,rfl⟩ := Option.map_eq_some_iff.mp active
      obtain ⟨below,strict⟩ := earlier e older was
      exact ⟨_,rfl,below,fun pushed => .inr (strict pushed)⟩

theorem Counted.same {task : PushRun} (counted : Counted backup dev task)
    (same : counter dev'.manifest = counter dev.manifest) : Counted backup dev' task := by
  obtain ⟨before,after,exported,landed⟩ := counted
  exact ⟨fun early => same.trans (before early),fun late => ⟨same.trans (after late).1,(after late).2⟩,
    exported,landed⟩

theorem DeviceOk.touch (ok : DeviceOk base backup slot dev) (push : dev'.pushes = dev.pushes)
    (same : counter dev'.manifest = counter dev.manifest) (known : dev'.known = dev.known)
    (pull : dev'.pull = dev.pull) (ceremony : dev'.ceremony = dev.ceremony) : DeviceOk base backup slot dev' := by
  apply ok.restage known pull ceremony
  · simp only [level,push,same]
  · rw [push]
    exact ok.others
  · intro task active
    exact (ok.counted task (push ▸ active)).same same
  · intro task active inside
    rw [known]
    exact ok.seen task (push ▸ active) inside

theorem DeviceOk.ended {task : PushRun} (ok : DeviceOk base backup slot dev) (active : dev.pushes slot = some task)
    (calm : ahead task.stage = false) : DeviceOk base backup slot (dev.setPush slot none) := by
  have stands : level slot dev = counter dev.manifest := by rw [level_run active,calm]; rfl
  exact ok.rest rfl rfl rfl rfl stands.ge fun _ => stands.symm

-- A run that goes on without passing the counter on either side.
theorem DeviceOk.advance {stage old : PushStage} (ok : DeviceOk base backup slot dev)
    (active : dev.pushes slot = some ⟨localCounter,key,old⟩) (same : ahead stage = ahead old)
    (counted : Counted backup dev ⟨localCounter,key,stage⟩)
    (seen : window stage = true → ∀ c, backup = some c →
      c.version ∈ dev.known ∧ counter c.manifest ≤ localCounter) :
    DeviceOk base backup slot (dev.atStage slot localCounter key stage) := by
  have staged : (dev.atStage slot localCounter key stage).pushes slot = some ⟨localCounter,key,stage⟩ :=
    setPush_same _ _ _
  refine ok.restage rfl rfl rfl ?_ ?_ ?_ ?_
  · rw [level_run active,level_run staged,same]
    rfl
  · intro call other apart present
    rw [Device.atStage,setPush_other dev _ apart] at present
    exact ok.others call other apart present
  · intro other present
    cases Option.some.inj (staged.symm.trans present)
    exact counted.same rfl
  · intro other present
    cases Option.some.inj (staged.symm.trans present)
    exact seen

-- The slot passes to the new run; what the others still do leaves the counter alone.
theorem begin_push_preserves (inv : Invariant s) (finished : Finished (s.devices d)) : Invariant
    (s.put d ((s.devices d).atStage call (counter (s.devices d).manifest) (s.devices d).key .begun)) := by
  refine put_preserves inv fun base slot ok => ⟨call,?_⟩
  have staged : ((s.devices d).atStage call (counter (s.devices d).manifest) (s.devices d).key .begun).pushes call =
      some ⟨counter (s.devices d).manifest,(s.devices d).key,.begun⟩ := setPush_same _ _ _
  refine ok.restage rfl rfl rfl ?_ ?_ ?_ ?_
  · rw [level_run staged,finished_level finished]
    rfl
  · intro other task apart present
    rw [Device.atStage,setPush_other _ _ apart] at present
    exact finished other task present
  · intro task present
    cases Option.some.inj (staged.symm.trans present)
    exact ⟨fun _ => rfl,by simp [ahead],by simp,by simp⟩
  · intro task present inside
    cases Option.some.inj (staged.symm.trans present)
    cases inside

-- The check lets a push through only if what it read is known: a backup of a push
-- it does not know has the higher counter.
theorem read_cloud_preserves (inv : Invariant s) (orderly : Orderly s (.readCloud d call reachable))
    (taken : readCloud s d call reachable = some next) : Invariant next := by
  unfold readCloud at taken
  dsimp only at taken
  split at taken
  · rename_i localCounter key active
    have failed (report : PushReport) (honest : report ≠ .ok) :
        Invariant (s.endPush d call (s.devices d) report false) := by
      refine end_push_preserves inv (fun base slot ok => ?_) fun ok => absurd ok honest
      obtain rfl := ok.live active (by rintro ⟨⟩)
      exact ⟨call,ok.ended active rfl⟩
    have passed (remaining : List BlobName) (checked : ∀ c, s.manifestBackup = some c →
        c.key = key → counter c.manifest ≤ localCounter) :
        Invariant (s.put d ((s.devices d).atStage call localCounter key (.uploading remaining))) := by
      refine put_preserves inv fun base slot ok => ?_
      obtain rfl := ok.live active (by rintro ⟨⟩)
      have counted := (ok.counted _ active).before (.inl rfl)
      refine ⟨call,ok.advance active rfl ?_ ?_⟩
      · exact ⟨fun _ => counted,by simp [ahead],by simp,by simp⟩
      · intro _ c there
        rcases orderly _ active c there with known | ⟨readable,rest⟩
        · exact known
        · have below := checked c there readable
          refine ⟨?_,below⟩
          rcases rest with pushed | known
          · rcases ok.unseen c there pushed with known | lower
            · exact known
            · rw [level_run active] at lower
              exact absurd (lower.trans_le below) (by simp [ahead,counted])
          · exact known
    split at taken
    · split at taken
      · rename_i absent
        cases taken
        apply passed
        intro c there readable
        simp [cloudCounter,there,readable] at absent
      · rename_i cloud read
        split at taken
        · cases taken
          exact failed .conflict (by decide)
        · rename_i lower
          cases taken
          apply passed
          intro c there readable
          simp only [cloudCounter,there,Option.bind_some,if_pos readable,Option.some.injEq] at read
          omega
    · cases taken
      exact failed .failed (by decide)
  · cases taken

theorem upload_blob_preserves (inv : Invariant s) (taken : uploadBlob s d call name fate = some next) :
    Invariant next := by
  unfold uploadBlob at taken
  dsimp only at taken
  split at taken
  · rename_i localCounter key remaining active
    split at taken
    · generalize uploadBlobTask fate name ⟨(s.devices d).files,s.objects⟩ = result at taken
      obtain ⟨answer,sides⟩ := result
      have moved (sent : List (Fin n × BlobName)) : Invariant {s with objects := sides.objects,sent := sent} :=
        ⟨inv.lossless,inv.devices⟩
      cases answer with
      | error failure =>
        cases taken
        refine end_push_preserves (moved _) (fun base slot ok => ?_) (by rintro ⟨⟩)
        obtain rfl := ok.live active (by rintro ⟨⟩)
        exact ⟨call,(ok.ended active rfl).touch rfl rfl rfl rfl rfl⟩
      | ok done =>
        cases taken
        refine put_preserves (moved _) fun base slot ok => ?_
        obtain rfl := ok.live active (by rintro ⟨⟩)
        have counted := ok.counted _ active
        refine ⟨call,DeviceOk.advance (ok.touch rfl rfl rfl rfl rfl) active rfl ?_ fun _ => ok.seen _ active rfl⟩
        exact ⟨fun _ => counted.before (.inr ⟨_,rfl⟩),by simp [ahead],by simp,by simp⟩
    · cases taken
  · cases taken

theorem increment_counter {m k : Manifest} (accepted : incrementSnapshotCounter m = .ok k) :
    counter k = counter m + 1 ∧ counter m + 1 < 2 ^ 64 := by
  unfold incrementSnapshotCounter at accepted
  split at accepted
  · rename_i small
    cases accepted
    exact ⟨rfl,small⟩
  · cases accepted

theorem increment_preserves (inv : Invariant s) (taken : incrementCounter s d call fate = some next) :
    Invariant next := by
  unfold incrementCounter at taken
  dsimp only at taken
  split at taken
  · rename_i localCounter key active
    have failed : Invariant (s.endPush d call (s.devices d) .failed false) := by
      refine end_push_preserves inv (fun base slot ok => ?_) (by rintro ⟨⟩)
      obtain rfl := ok.live active (by rintro ⟨⟩)
      exact ⟨call,ok.ended active rfl⟩
    split at taken
    · cases taken
    · cases taken
      exact failed
    · cases taken
      exact failed
    · rename_i m accepted
      cases taken
      obtain ⟨bumped,small⟩ := increment_counter accepted
      refine put_preserves inv fun base slot ok => ?_
      obtain rfl := ok.live active (by rintro ⟨⟩)
      have counted := (ok.counted _ active).before (.inr ⟨_,rfl⟩)
      have staged : ({s.devices d with manifest := m}.atStage call localCounter key .bumped).pushes call =
          some ⟨localCounter,key,.bumped⟩ := setPush_same _ _ _
      -- the level stays where it was: the bump is not published yet
      refine ⟨call,ok.restage rfl rfl rfl ?_ ?_ ?_ ?_⟩
      · rw [level_run active,level_run staged]
        exact counted.symm
      · intro other task apart present
        rw [Device.atStage,setPush_other _ _ apart] at present
        exact ok.others other task apart present
      · intro task present
        cases Option.some.inj (staged.symm.trans present)
        have one : counter m = localCounter + 1 := bumped.trans (by rw [counted])
        exact ⟨by simp,fun _ => ⟨one,by rw [counted] at small; exact small⟩,by simp,by simp⟩
      · intro task present _
        cases Option.some.inj (staged.symm.trans present)
        have known := ok.seen _ active rfl
        exact known
  · cases taken

theorem stamp_preserves (inv : Invariant s) (orderly : fate = .goes)
    (taken : stampSync s d call now fate = some next) : Invariant next := by
  subst orderly
  unfold stampSync at taken
  dsimp only at taken
  split at taken
  · cases taken
    refine put_preserves inv fun base slot ok => ⟨slot,?_⟩
    exact DeviceOk.touch ok rfl rfl rfl rfl rfl
  · rename_i failing
    cases failing
  · cases taken

theorem export_preserves (inv : Invariant s) (taken : exportManifest s d call written = some next) :
    Invariant next := by
  unfold exportManifest at taken
  dsimp only at taken
  split at taken
  · rename_i localCounter key active
    cases taken
    refine put_preserves inv fun base slot ok => ?_
    obtain rfl := ok.live active (by rintro ⟨⟩)
    have counted := (ok.counted _ active).after (.inl rfl)
    cases written with
    | true =>
      refine ⟨call,ok.advance active rfl ?_ ?_⟩
      · exact ⟨by simp,fun _ => counted,fun m same => by cases same; exact counted.1,by simp⟩
      · exact fun _ => ok.seen _ active rfl
    | false =>
      refine ⟨call,ok.advance active rfl ?_ ?_⟩
      · exact ⟨by simp,fun _ => counted,by simp,by simp⟩
      · rintro ⟨⟩
  · cases taken

theorem upload_manifest_preserves (inv : Invariant s) (orderly : Orderly s (.uploadManifest d call attempt))
    (taken : uploadManifest s d call attempt = some next) : Invariant next := by
  unfold uploadManifest at taken
  dsimp only at taken
  split at taken
  · rename_i localCounter key m active
    obtain ⟨base,slots,devices⟩ := inv.devices
    have ok := devices d
    have own : call = slots d := ok.live active (by rintro ⟨⟩)
    rw [own] at active taken
    have counted := ok.counted _ active
    have after := counted.after (.inl rfl)
    have exported := counted.exported m rfl
    have known := ok.seen _ active rfl
    split at taken
    · rename_i stored
      cases taken
      have staged (reported : Bool) : ((s.devices d).atStage (slots d) localCounter key (.landed reported)).pushes
          (slots d) = some ⟨localCounter,key,.landed reported⟩ := setPush_same _ _ _
      apply store_preserves inv.lossless devices
      · -- the window has been closed to all others since the check
        cases there : s.manifestBackup with
        | none => simp [Incorporated,seen,there]
        | some c => simpa [Incorporated,seen,there] using (known c there).1
      · exact orderly stored
      · intro other task apart present
        rw [Device.atStage,setPush_other _ _ apart] at present
        exact ok.others other task apart present
      · intro task present
        cases Option.some.inj ((staged _).symm.trans present)
        rfl
      · intro backup task present published
        cases Option.some.inj ((staged _).symm.trans present)
        exact ⟨by simp,fun _ => after,by simp,fun _ => published⟩
      · rw [exported,level_run (staged _)]
        exact after.1.le
      · intro e _
        have below : level (slots e) (s.devices e) ≤ localCounter := by
          cases there : s.manifestBackup with
          | none =>
            have own := ((devices d).unpublished there).1
            rw [level_run active] at own
            exact (((devices e).unpublished there).1.trans own.symm).le
          | some c => exact ((devices e).ceiling c there).trans (known c there).2
        exact ⟨by rw [exported]; exact Nat.le_succ_of_le below,fun _ => by rw [exported]; exact Nat.lt_succ_of_le below⟩
      · intro c there
        have below := (known c there).2
        exact ⟨by rw [exported]; exact Nat.le_succ_of_le below,fun _ => by rw [exported]; exact Nat.lt_succ_of_le below⟩
      · rfl
    · cases taken
      refine put_preserves inv fun base slot ok => ?_
      obtain same := ok.live active (by rintro ⟨⟩)
      rw [same] at active ⊢
      refine ⟨slot,ok.advance active rfl ?_ ?_⟩
      · exact ⟨by simp,fun _ => after,by simp,by simp⟩
      · rintro ⟨⟩
  · cases taken

theorem rollback_counter {m k : Manifest} (accepted : rollbackSnapshotCounter m previous = .ok k) :
    counter k = previous := by
  unfold rollbackSnapshotCounter at accepted
  split at accepted
  · split at accepted
    · cases accepted
      rfl
    · cases accepted
  · cases accepted

theorem rollback_possible {m : Manifest} (one : counter m = previous + 1) (small : previous + 1 < 2 ^ 64) :
    ∃ k, rollbackSnapshotCounter m previous = .ok k := by
  unfold counter at one
  unfold rollbackSnapshotCounter
  rw [if_pos small,if_pos one]
  exact ⟨_,rfl⟩

theorem roll_back_preserves (inv : Invariant s) (orderly : Orderly s (.rollBackCounter d call fate))
    (taken : rollBackCounter s d call fate = some next) : Invariant next := by
  unfold rollBackCounter at taken
  dsimp only at taken
  split at taken
  · cases taken
  · rename_i task active
    split at taken
    · cases taken
    · rename_i stored failed
      -- either nothing has landed and the counter is ahead, or it stands level
      have stages : ahead task.stage = true ∨ task.stage = .landed false := by
        generalize task.stage = stage at failed
        cases stage with
        | bumped | exported | refused => exact .inl rfl
        | landed reported =>
          cases reported with
          | false => exact .inr rfl
          | true => cases failed
        | begun | uploading => cases failed
      have running : task.stage ≠ .landed true := by
        intro through
        rw [through] at failed
        cases failed
      have failing (base slot : Nat) (ok : DeviceOk base s.manifestBackup slot (s.devices d))
          (stuck : ahead task.stage = false) :
          ∃ slot, DeviceOk base s.manifestBackup slot ((s.devices d).setPush call none) := by
        obtain rfl := ok.live active running
        exact ⟨call,ok.ended active stuck⟩
      obtain ⟨base,slots,devices⟩ := inv.devices
      have own : call = slots d := (devices d).live active running
      have after := ((devices d).counted task (own ▸ active)).after stages
      obtain ⟨k,possible⟩ := rollback_possible after.1 after.2
      have stranded (notGoes : fate ≠ .goes) : ahead task.stage = false := by
        cases behind : ahead task.stage with
        | false => rfl
        | true => exact absurd (orderly task active behind) notGoes
      split at taken
      · cases taken
      · cases taken
        refine end_push_preserves inv (fun base slot ok => failing base slot ok (stranded (by rintro ⟨⟩)))
          (by rintro ⟨⟩)
      · rename_i refused
        rw [possible] at refused
        cases refused
      · rename_i m accepted
        cases taken
        have back := rollback_counter accepted
        refine end_push_preserves inv (fun base slot ok => ?_) (by rintro ⟨⟩)
        obtain rfl := ok.live active running
        have stands := level_run active
        have after := (ok.counted task active).after stages
        refine ⟨call,ok.rest rfl rfl rfl rfl ?_ fun none => ?_⟩
        · rw [stands]
          show counter m ≤ _
          rw [back]
          split <;> omega
        · rcases stages with early | late
          · rw [stands,if_pos early]
            exact back
          · have landed := (ok.counted task active).landed late
            rw [none] at landed
            cases landed

-- A push that is through frees its slot, or leaves the slot to a later one.
theorem finish_preserves (inv : Invariant s) (taken : finishPush s d call clean = some next) : Invariant next := by
  unfold finishPush at taken
  dsimp only at taken
  split at taken
  · rename_i active
    cases taken
    refine end_push_preserves inv (fun base slot ok => ⟨slot,?_⟩) fun _ => rfl
    by_cases own : call = slot
    · subst own
      exact ok.ended active rfl
    · have slotted : ((s.devices d).setPush call none).pushes slot = (s.devices d).pushes slot :=
        setPush_other _ _ (Ne.symm own)
      refine ok.restage rfl rfl rfl ?_ ?_ ?_ ?_
      · simp only [level,slotted]
        rfl
      · intro other task apart present
        by_cases gone : other = call
        · rw [gone,setPush_same] at present
          cases present
        · rw [setPush_other _ _ gone] at present
          exact ok.others other task apart present
      · intro task present
        exact (ok.counted task (slotted ▸ present)).same rfl
      · intro task present
        exact ok.seen task (slotted ▸ present)
  · cases taken

theorem drain_preserves (inv : Invariant s) (taken : drainDeletion s d name removed = some next) :
    Invariant next := by
  unfold drainDeletion at taken
  dsimp only at taken
  split at taken
  · have touched (base slot : Nat) (ok : DeviceOk base s.manifestBackup slot (s.devices d)) :
        ∃ slot, DeviceOk base s.manifestBackup slot
          {s.devices d with manifest := markDeletionComplete (s.devices d).manifest name} :=
      ⟨slot,DeviceOk.touch ok rfl rfl rfl rfl rfl⟩
    cases removed with
    | false =>
      cases taken
      exact put_preserves inv touched
    | true =>
      cases taken
      exact put_preserves ⟨inv.lossless,inv.devices⟩ touched
  · cases taken

theorem download_preserves (inv : Invariant s) (taken : downloadManifest s d = some next) : Invariant next := by
  unfold downloadManifest at taken
  split at taken
  · cases taken
  · rename_i c there
    dsimp only at taken
    split at taken
    · cases taken
      refine put_preserves inv fun base slot ok => ⟨slot,?_⟩
      refine ⟨ok.others,fun task active => (ok.counted task active).same rfl,ok.seen,ok.ceiling,ok.unseen,?_,
        ok.unpublished⟩
      rintro pull ⟨⟩
      exact ⟨c,there,Nat.le_refl _,fun _ => .inl rfl⟩
    · cases taken

theorem Finished.adopt {c x : CloudManifest} (finished : Finished dev') (there : backup = some c)
    (taken : dev'.manifest = x.manifest) (known : x.version ∈ dev'.known) (pull : dev'.pull = none)
    (below : counter x.manifest ≤ counter c.manifest)
    (current : c.byPush = true → x.version = c.version ∨ counter x.manifest < counter c.manifest) :
    DeviceOk base backup slot dev' := by
  have stands : level slot dev' = counter x.manifest := by rw [finished_level finished,taken]
  refine ⟨fun other task _ active => finished other task active,fun task active => ?_,fun task active inside => ?_,
    ?_,?_,?_,fun none => ?_⟩
  · have through := finished slot task active
    exact ⟨by simp [through],by simp [through,ahead],by simp [through],by simp [through]⟩
  · rw [finished slot task active] at inside
    cases inside
  · intro other same
    cases there.symm.trans same
    exact stands.trans_le below
  · intro other same pushed
    cases there.symm.trans same
    rcases current pushed with equal | lower
    · exact .inl (equal ▸ known)
    · exact .inr (stands.trans_lt lower)
  · intro other active
    rw [pull] at active
    cases active
  · rw [there] at none
    cases none

theorem replace_preserves (inv : Invariant s) (orderly : Orderly s (.replaceLocal d))
    (taken : replaceLocal s d = some next) : Invariant next := by
  unfold replaceLocal at taken
  dsimp only at taken
  split at taken
  · cases taken
  · rename_i pull active
    cases taken
    refine put_preserves inv fun base slot ok => ⟨slot,?_⟩
    obtain ⟨c,there,below,current⟩ := ok.download pull active
    exact Finished.adopt orderly there rfl List.mem_cons_self rfl below current

theorem recover_preserves (inv : Invariant s) (orderly : Orderly s (.recoverVault d))
    (taken : recoverVault s d = some next) : Invariant next := by
  unfold recoverVault at taken
  split at taken
  · cases taken
  · rename_i c there
    dsimp only at taken
    split at taken
    · rename_i free
      cases taken
      refine put_preserves inv fun base slot _ => ⟨slot,?_⟩
      exact Finished.adopt orderly there rfl List.mem_cons_self (Option.isNone_iff_eq_none.mp free.1)
        (Nat.le_refl _) fun _ => .inl rfl
    · cases taken

theorem ceremony_export_preserves (inv : Invariant s) :
    Invariant (s.put d {s.devices d with ceremony := some (s.devices d).manifest}) := by
  refine put_preserves inv fun base slot ok => ⟨slot,?_⟩
  refine ⟨ok.others,fun task active => (ok.counted task active).same rfl,ok.seen,ok.ceiling,ok.unseen,ok.download,
    fun none => ?_⟩
  obtain ⟨same,_⟩ := ok.unpublished none
  refine ⟨same,fun m exported => ?_⟩
  cases Option.some.inj exported
  rw [← same]
  -- the local counter is never below the level
  unfold level
  split
  · exact Nat.le_refl _
  · rename_i task active
    split
    · rename_i early
      have after := ((ok.counted task active).after (.inl early)).1
      omega
    · exact Nat.le_refl _

theorem ceremony_upload_preserves (inv : Invariant s) (orderly : Orderly s (.ceremonyUpload d attempt))
    (taken : ceremonyUpload s d attempt = some next) : Invariant next := by
  unfold ceremonyUpload at taken
  dsimp only at taken
  split at taken
  · cases taken
  · rename_i m exported
    split at taken
    · rename_i stored
      cases taken
      obtain ⟨quiet,grows⟩ := orderly stored
      obtain ⟨base,slots,devices⟩ := inv.devices
      have level_below (e : Fin n) : level (slots e) (s.devices e) ≤ counter m := by
        cases there : s.manifestBackup with
        | none =>
          have own := ((devices d).unpublished there).2 m exported
          rw [((devices e).unpublished there).1]
          exact own
        | some c => exact ((devices e).ceiling c there).trans (grows m exported c there)
      apply store_preserves inv.lossless devices
      · trivial
      · exact fun e _ => quiet e
      · exact (devices d).others
      · intro task active
        cases inside : window task.stage with
        | false => rfl
        | true => exact absurd ⟨_,task,active,inside⟩ (quiet d)
      · intro backup task active published
        obtain ⟨before,after,exported,_⟩ := (devices d).counted task active
        exact ⟨before,after,exported,fun _ => published⟩
      · exact level_below d
      · exact fun e _ => ⟨level_below e,by rintro ⟨⟩⟩
      · exact fun c there => ⟨grows m exported c there,by rintro ⟨⟩⟩
      · rfl
    · cases taken
      refine put_preserves inv fun base slot ok => ⟨slot,?_⟩
      refine ⟨ok.others,fun task active => (ok.counted task active).same rfl,ok.seen,ok.ceiling,ok.unseen,
        ok.download,fun none => ?_⟩
      exact ⟨(ok.unpublished none).1,by rintro _ ⟨⟩⟩

theorem stop_preserves (inv : Invariant s) (orderly : ¬ Ahead (s.devices d)) :
    Invariant (s.put d {s.devices d with pushes := fun _ => none,pull := none,ceremony := none}) := by
  refine put_preserves inv fun base slot ok => ⟨slot,?_⟩
  have stands : level slot (s.devices d) = counter (s.devices d).manifest := by
    unfold level
    split
    · rfl
    · rename_i task active
      exact if_neg fun early => orderly ⟨slot,task,active,early⟩
  obtain ⟨_,_,_,ceiling,unseen,_,unpublished⟩ := ok
  rw [stands] at ceiling unseen unpublished
  exact ⟨by rintro _ _ _ ⟨⟩,by rintro _ ⟨⟩,by rintro _ ⟨⟩,ceiling,unseen,
    by rintro _ ⟨⟩,fun none => ⟨(unpublished none).1,by rintro _ ⟨⟩⟩⟩

theorem step_preserves (inv : Invariant s) (orderly : Orderly s act) (taken : step s act = some next) :
    Invariant next := by
  cases act with
  | edit d m files =>
    simp only [step] at taken
    split at taken
    · rename_i same
      cases taken
      exact put_preserves inv fun base slot ok => ⟨slot,ok.touch rfl same rfl rfl rfl⟩
    · cases taken
  | beginPush d call =>
    simp only [step] at taken
    split at taken
    · cases taken
    · cases taken
      exact begin_push_preserves inv orderly
  | readCloud d call reachable => exact read_cloud_preserves inv orderly taken
  | uploadBlob d call name fate => exact upload_blob_preserves inv taken
  | incrementCounter d call fate => exact increment_preserves inv taken
  | stampSync d call now fate => exact stamp_preserves inv orderly taken
  | exportManifest d call written => exact export_preserves inv taken
  | uploadManifest d call attempt => exact upload_manifest_preserves inv orderly taken
  | rollBackCounter d call fate => exact roll_back_preserves inv orderly taken
  | finishPush d call clean => exact finish_preserves inv taken
  | drainDeletion d name removed => exact drain_preserves inv taken
  | downloadManifest d => exact download_preserves inv taken
  | replaceLocal d => exact replace_preserves inv orderly taken
  | recoverVault d => exact recover_preserves inv orderly taken
  | rekey d key =>
    cases taken
    exact put_preserves inv fun base slot ok => ⟨slot,ok.touch rfl rfl rfl rfl rfl⟩
  | ceremonyExport d =>
    cases taken
    exact ceremony_export_preserves inv
  | ceremonyUpload d attempt => exact ceremony_upload_preserves inv orderly taken
  | stop d =>
    cases taken
    exact stop_preserves inv orderly

theorem shared_invariant (shared : Shared s) : Invariant s := by
  obtain ⟨empty,idle,_,published,unpublished⟩ := shared
  refine ⟨fun event member => ?_,?_⟩
  · rw [empty] at member
    cases member
  obtain ⟨base,level_base⟩ : ∃ base, s.manifestBackup = none → ∀ d, counter (s.devices d).manifest = base := by
    cases there : s.manifestBackup with
    | none =>
      obtain ⟨base,same⟩ := unpublished there
      exact ⟨base,fun _ d => (same d).2⟩
    | some c => exact ⟨0,by rintro ⟨⟩⟩
  refine ⟨base,fun _ => 0,fun d => ?_⟩
  obtain ⟨push,pull,ceremony⟩ := idle d
  have stands := level_idle (push 0)
  refine ⟨?_,?_,?_,fun c there => ?_,fun c there _ => ?_,?_,fun none => ⟨stands.trans (level_base none d),?_⟩⟩
  · intro other task _ active
    rw [push other] at active
    cases active
  · intro task active
    rw [push 0] at active
    cases active
  · intro task active
    rw [push 0] at active
    cases active
  · rw [stands]
    rcases published c there d with ⟨_,_,same⟩ | ⟨_,_,lower⟩
    · exact same.le
    · exact lower.le
  · rw [stands]
    rcases published c there d with ⟨_,known,_⟩ | ⟨_,_,lower⟩
    · exact .inl known
    · exact .inr lower
  · intro other active
    rw [pull] at active
    cases active
  · intro m active
    rw [ceremony] at active
    cases active

-- In every orderly interleaving each push that replaces the backup replaces one
-- its device had pushed or pulled, and a push that replaces none reports so.
theorem orderly_pushes_lossless (shared : Shared s) (orderly : Guarded step Orderly s acts) :
    Along step NothingLost s acts :=
  along_mono (fun _ inv => inv.lossless)
    (along_guarded (fun _ _ _ => step_preserves) (shared_invariant shared) orderly)

def pairDevice : Device :=
  ⟨createdManifest 1 ⟨9,0,none,131072,true,some 1⟩,noFiles,byteKey 1,fun _ => none,none,none,[0],false⟩

abbrev deviceOne : Fin 2 := 0

abbrev deviceTwo : Fin 2 := 1

def pairStart : State 2 :=
  ⟨fun _ => pairDevice,some ⟨pairDevice.manifest,byteKey 1,0,true⟩,fun _ => none,[],1,[]⟩

theorem pair_shared : Shared pairStart := by
  refine ⟨rfl,fun _ => ⟨fun _ => rfl,rfl,rfl⟩,⟨?_,?_⟩,?_,by rintro ⟨⟩⟩
  · intro c there
    cases there
    decide
  · intro d version member
    rw [List.mem_singleton.mp member]
    decide
  · intro c there d
    cases there
    exact .inl ⟨rfl,List.mem_singleton.mpr rfl,rfl⟩

def publishing (d : Fin 2) (call : Nat) : List (Action 2) :=
  [.incrementCounter d call .goes,.stampSync d call 100 .goes,.exportManifest d call true,
   .uploadManifest d call .succeeds]

def racingPushes : List (Action 2) :=
  [.beginPush deviceOne 0,.readCloud deviceOne 0 true,.beginPush deviceTwo 0,.readCloud deviceTwo 0 true] ++
    publishing deviceOne 0 ++ publishing deviceTwo 0

-- A second push of one device begins at the counter the first has bumped; the first
-- fails, and the second takes the manifest of the other device for its own.
def doubledPushes : List (Action 2) :=
  [.beginPush deviceOne 0,.readCloud deviceOne 0 true,.incrementCounter deviceOne 0 .goes,
   .stampSync deviceOne 0 100 .goes,.exportManifest deviceOne 0 false,.beginPush deviceOne 1,
   .beginPush deviceTwo 0,.readCloud deviceTwo 0 true] ++ publishing deviceTwo 0 ++
    [.rollBackCounter deviceOne 0 .goes,.readCloud deviceOne 1 true] ++ publishing deviceOne 1

-- The last upload replaces a manifest its device has never seen.
theorem racing_push_overwrites : ¬ Along step NothingLost pairStart racingPushes ∧
    ¬ Along step NothingLost pairStart doubledPushes := by
  obtain ⟨raced,ran,lost⟩ : ∃ last, run step pairStart racingPushes = some last ∧
      Event.pushReplaced 1 false ∈ last.history := ⟨_,rfl,List.mem_cons_self⟩
  obtain ⟨doubled,ran',lost'⟩ : ∃ last, run step pairStart doubledPushes = some last ∧
      Event.pushReplaced 0 false ∈ last.history := ⟨_,rfl,List.mem_cons_self⟩
  constructor
  · intro along
    exact absurd (along_last along ran _ lost) (by simp [Incorporated])
  · intro along
    exact absurd (along_last along ran' _ lost') (by simp [Incorporated])

-- One push after the other, with a pull in between; the first is still busy with its
-- queue when the second ends.
def alternatingPushes : List (Action 2) :=
  [.beginPush deviceOne 0,.readCloud deviceOne 0 true] ++ publishing deviceOne 0 ++
    [.downloadManifest deviceTwo,.replaceLocal deviceTwo,.beginPush deviceTwo 0,.readCloud deviceTwo 0 true] ++
    publishing deviceTwo 0 ++ [.finishPush deviceTwo 0 true,.finishPush deviceOne 0 true]

theorem alternating_pushes_lossless : Along step NothingLost pairStart alternatingPushes := by
  apply orderly_pushes_lossless pair_shared
  refine guarded_cons ?_ rfl (guarded_cons ?_ rfl (guarded_cons trivial rfl (guarded_cons rfl rfl (guarded_cons trivial
    rfl (guarded_cons ?_ rfl (guarded_cons trivial rfl (guarded_cons ?_ rfl (guarded_cons ?_ rfl (guarded_cons ?_ rfl
    (guarded_cons trivial rfl (guarded_cons rfl rfl (guarded_cons trivial rfl (guarded_cons ?_ rfl (guarded_cons trivial
    rfl (guarded_last trivial)))))))))))))))
  · rintro call task ⟨⟩
  · intro task _ c there
    cases there
    exact .inl ⟨List.mem_singleton.mpr rfl,Nat.zero_le _⟩
  · rintro _ e other ⟨call,task,active,_⟩
    have second : e = deviceTwo := Fin.eq_one_of_ne_zero e other
    subst second
    cases active
  · rintro call task ⟨⟩
  · rintro call task ⟨⟩
  · intro task active c there
    cases active
    cases there
    exact .inl ⟨List.mem_cons_self,Nat.le_refl _⟩
  · rintro _ e other ⟨call,task,active,inside⟩
    have first : e = deviceOne := by
      by_contra apart
      exact other (Fin.eq_one_of_ne_zero e apart)
    subst first
    cases call with
    | zero =>
      cases active
      cases inside
    | succ call => cases active

end ArxRuna.Sync.Conflict
