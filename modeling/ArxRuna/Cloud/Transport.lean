import ArxRuna.Store.Staging
namespace ArxRuna.Cloud.Transport
open Library.Aead Store.Tables Store.Staging

inductive CloudTransportError where
  | notFound
  | bucketNameTaken
  | authenticationFailed
  | timeout
  | ioError (text : String)
  | rcloneProcessFailed (exitCode : Int) (stderrSanitised : String)
  | other (text : String)
  deriving DecidableEq, Repr

-- One upload as the provider performs it. A provider may store the object and
-- report a failure, but a reported success has stored it.
structure Attempt where
  stored : Bool
  report : Except CloudTransportError Unit
  honest : report = .ok () → stored = true

def Attempt.succeeds : Attempt := ⟨true,.ok (),fun _ => rfl⟩

def Attempt.timesOut : Attempt := ⟨false,.error .timeout,by rintro ⟨⟩⟩

-- The objects under `vault/`, by the stem of `<name>.blob`.
abbrev Objects := BlobName → Option Bytes

structure Sides where
  files : Files
  objects : Objects

-- What awaits one blob: the first upload, the one after a timeout, and whether
-- the pending file can be removed.
structure UploadFate where
  first : Attempt
  second : Attempt
  removed : Bool

def UploadFate.smooth : UploadFate := ⟨.succeeds,.succeeds,true⟩

-- Uploading a file that is not there fails before the provider is asked.
def Sides.upload (s : Sides) (name : BlobName) (attempt : Attempt) : Except CloudTransportError Unit × Sides :=
  match s.files .pending name with
  | none => (.error (.ioError "No such file or directory"),s)
  | some bytes =>
    (attempt.report,if attempt.stored then
      {s with objects := fun other => if other = name then some bytes else s.objects other} else s)

def uploadBlobTask (fate : UploadFate) (name : BlobName) (s : Sides) :
    Except CloudTransportError BlobName × Sides :=
  let first := s.upload name fate.first
  let last := if first.1 = .error .timeout then first.2.upload name fate.second else first
  match last.1 with
  | .error failure => (.error failure,last.2)
  | .ok _ =>
    if fate.removed then (.ok name,{last.2 with files := last.2.files.remove .pending name})
    else (.error (.ioError "Permission denied"),last.2)

-- Whether the object of a file that is there arrives, whatever is reported.
def UploadFate.stores (fate : UploadFate) : Bool :=
  fate.first.stored || (fate.first.report = .error .timeout && fate.second.stored)

-- The state of `drive_blob_uploads`: names not issued, uploads in flight, and the
-- two accumulators.
structure Drive where
  pending : List BlobName
  inFlight : List BlobName
  successful : List BlobName
  firstError : Option CloudTransportError
  sides : Sides

def Drive.begin (limit : Nat) (names : List BlobName) (s : Sides) : Drive :=
  ⟨names.drop (max limit 1),names.take (max limit 1),[],none,s⟩

-- One completion. After the first error no further upload is issued.
def Drive.settle (fate : BlobName → UploadFate) (d : Drive) (name : BlobName) : Drive :=
  let others := d.inFlight.erase name
  match uploadBlobTask (fate name) name d.sides with
  | (.error failure,s) =>
    {d with inFlight := others,firstError := d.firstError.or (some failure),sides := s}
  | (.ok name,s) =>
    if d.firstError.isNone then
      ⟨d.pending.drop 1,others ++ d.pending.take 1,d.successful ++ [name],none,s⟩
    else {d with inFlight := others,successful := d.successful ++ [name],sides := s}

-- Uploads complete in any order: `pick` tells which of those in flight is next.
def Drive.complete (fate : BlobName → UploadFate) (pick : Nat → Nat) : Nat → Drive → Drive
  | 0, d => d
  | rounds + 1, d =>
    match d.inFlight[pick rounds % d.inFlight.length]? with
    | none => d
    | some name => Drive.complete fate pick rounds (d.settle fate name)

-- One completion per name empties the loop (`drive_finishes`).
def driveBlobUploads (fate : BlobName → UploadFate) (pick : Nat → Nat) (limit : Nat)
    (names : List BlobName) (s : Sides) : Except (CloudTransportError × List BlobName) (List BlobName) × Sides :=
  let d := Drive.complete fate pick names.length (.begin limit names s)
  match d.firstError with
  | some failure => (.error (failure,d.successful),d.sides)
  | none => (.ok d.successful,d.sides)

-- The process stops after some completions; of the uploads then in flight some
-- have reached the cloud.
def interruptUploads (fate : BlobName → UploadFate) (pick : Nat → Nat) (limit completed : Nat)
    (landed : BlobName → Bool) (names : List BlobName) (s : Sides) : Sides :=
  let d := Drive.complete fate pick completed (.begin limit names s)
  d.inFlight.foldl (fun s name => if landed name then (s.upload name .succeeds).2 else s) d.sides

-- What uploads can do to the two sides: objects only appear, and a pending file
-- goes only when its object is there.
structure Carried (s t : Sides) : Prop where
  elsewhere : ∀ place name, place ≠ .pending → t.files place name = s.files place name
  kept : ∀ name, (s.objects name).isSome → (t.objects name).isSome
  pending : ∀ name, t.files .pending name = s.files .pending name ∨
    t.files .pending name = none ∧ (t.objects name).isSome

theorem Carried.refl (s : Sides) : Carried s s := ⟨fun _ _ _ => rfl,fun _ there => there,fun _ => .inl rfl⟩

theorem Carried.trans (first : Carried s t) (second : Carried t u) : Carried s u := by
  refine ⟨fun place name other => ?_,fun name there => second.kept name (first.kept name there),fun name => ?_⟩
  · rw [second.elsewhere place name other,first.elsewhere place name other]
  · rcases second.pending name with same | gone
    · rcases first.pending name with same' | ⟨gone,there⟩
      · exact .inl (same.trans same')
      · exact .inr ⟨same.trans gone,second.kept name there⟩
    · exact .inr gone

theorem upload_carried (s : Sides) (name : BlobName) (attempt : Attempt) : Carried s (s.upload name attempt).2 := by
  unfold Sides.upload
  split
  · exact .refl s
  · dsimp only
    split
    · refine ⟨fun _ _ _ => rfl,fun other there => ?_,fun _ => .inl rfl⟩
      by_cases same : other = name <;> simp [same,there]
    · exact .refl s

theorem upload_present {s : Sides} {attempt : Attempt} (reported : (s.upload name attempt).1 = .ok value) :
    ((s.upload name attempt).2.objects name).isSome := by
  unfold Sides.upload at reported ⊢
  split at reported
  · cases reported
  · simp [attempt.honest reported]

theorem upload_pending {s : Sides} (there : s.files .pending name = some bytes) (attempt : Attempt) :
    s.upload name attempt = (attempt.report,if attempt.stored then
      {s with objects := fun other => if other = name then some bytes else s.objects other} else s) := by
  unfold Sides.upload
  rw [there]

theorem remove_carried (there : (s.objects name).isSome) :
    Carried s {s with files := s.files.remove .pending name} := by
  refine ⟨fun place other apart => ?_,fun _ there => there,fun other => ?_⟩
  · simp [Files.remove,Files.write,apart]
  · by_cases same : other = name
    · exact .inr ⟨by simp [Files.remove,Files.write,same],same ▸ there⟩
    · exact .inl (write_other same)

theorem upload_blob_task (fate : UploadFate) (name : BlobName) (s : Sides) :
    Carried s (uploadBlobTask fate name s).2 ∧ ∀ done, (uploadBlobTask fate name s).1 = .ok done →
      done = name ∧ ((uploadBlobTask fate name s).2.objects name).isSome := by
  obtain ⟨last,carried,present,same⟩ : ∃ last : Except CloudTransportError Unit × Sides, Carried s last.2 ∧
      (∀ value, last.1 = .ok value → (last.2.objects name).isSome) ∧ uploadBlobTask fate name s =
        match last.1 with
        | .error failure => (.error failure,last.2)
        | .ok _ =>
          if fate.removed then (.ok name,{last.2 with files := last.2.files.remove .pending name})
          else (.error (.ioError "Permission denied"),last.2) := by
    refine ⟨_,?_,?_,rfl⟩
    · split
      · exact (upload_carried s name _).trans (upload_carried _ name _)
      · exact upload_carried s name _
    · intro value
      split <;> exact upload_present
  rw [same]
  split
  · exact ⟨carried,by rintro _ ⟨⟩⟩
  · rename_i value reported
    split
    · refine ⟨carried.trans (remove_carried (present value reported)),fun done accepted => ?_⟩
      cases accepted
      exact ⟨rfl,present value reported⟩
    · exact ⟨carried,by rintro _ ⟨⟩⟩

-- The loop invariant of `drive_blob_uploads`.
structure Driving (names : List BlobName) (start : Sides) (d : Drive) : Prop where
  carried : Carried start d.sides
  uploaded : ∀ name ∈ d.successful, (d.sides.objects name).isSome
  accounted : d.firstError = none → ∀ name ∈ names, name ∈ d.pending ∨ name ∈ d.inFlight ∨ name ∈ d.successful
  busy : d.inFlight = [] → d.firstError = none → d.pending = []

theorem begin_driving (limit : Nat) (names : List BlobName) (s : Sides) :
    Driving names s (.begin limit names s) := by
  refine ⟨.refl s,by simp [Drive.begin],fun _ name member => ?_,fun idle _ => ?_⟩
  · rw [← List.take_append_drop (max limit 1) names,List.mem_append] at member
    exact member.elim (fun early => .inr (.inl early)) .inl
  · rcases List.take_eq_nil_iff.mp idle with zero | empty
    · omega
    · simp [Drive.begin,empty]

theorem settle_driving (driving : Driving names start d) (flying : name ∈ d.inFlight) :
    Driving names start (d.settle fate name) ∧
      (d.settle fate name).pending.length + (d.settle fate name).inFlight.length + 1 =
        d.pending.length + d.inFlight.length := by
  obtain ⟨carried,present⟩ := upload_blob_task (fate name) name d.sides
  have fewer : (d.inFlight.erase name).length + 1 = d.inFlight.length := by
    rw [List.length_erase_of_mem flying]
    have := List.length_pos_of_mem flying
    omega
  have still : ∀ other ∈ d.successful, ((uploadBlobTask (fate name) name d.sides).2.objects other).isSome :=
    fun other member => carried.kept other (driving.uploaded other member)
  unfold Drive.settle
  cases task : uploadBlobTask (fate name) name d.sides with
  | mk result s =>
    rw [task] at carried present still
    cases result with
    | error failure =>
      refine ⟨⟨driving.carried.trans carried,still,fun clean => ?_,fun _ clean => ?_⟩,by dsimp only; omega⟩
      · cases earlier : d.firstError <;> simp [earlier] at clean
      · cases earlier : d.firstError <;> simp [earlier] at clean
    | ok done =>
      obtain ⟨rfl,there⟩ := present done rfl
      dsimp only
      split
      · rename_i clean
        have clean : d.firstError = none := Option.isNone_iff_eq_none.mp clean
        refine ⟨⟨driving.carried.trans carried,?_,fun _ other member => ?_,fun idle _ => ?_⟩,?_⟩
        · simp only [List.forall_mem_append,List.forall_mem_singleton]
          exact ⟨still,there⟩
        · by_cases same : other = done
          · simp [same]
          · rcases driving.accounted clean other member with waiting | flight | finished
            · rw [← List.take_append_drop 1 d.pending,List.mem_append] at waiting
              rcases waiting with next | later
              · exact .inr (.inl (List.mem_append_right _ next))
              · exact .inl later
            · exact .inr (.inl (List.mem_append_left _ ((List.mem_erase_of_ne same).mpr flight)))
            · exact .inr (.inr (List.mem_append_left _ finished))
        · have none := (List.append_eq_nil_iff.mp idle).2
          rcases List.take_eq_nil_iff.mp none with zero | empty
          · cases zero
          · simp [empty]
        · simp only [List.length_append,List.length_take,List.length_drop]
          omega
      · rename_i failed
        refine ⟨⟨driving.carried.trans carried,?_,fun clean => ?_,fun _ clean => ?_⟩,by dsimp only; omega⟩
        · simp only [List.forall_mem_append,List.forall_mem_singleton]
          exact ⟨still,there⟩
        · exact absurd (Option.isNone_iff_eq_none.mpr clean) failed
        · exact absurd (Option.isNone_iff_eq_none.mpr clean) failed

theorem complete_driving (driving : Driving names start d) :
    Driving names start (d.complete fate pick rounds) := by
  induction rounds generalizing d with
  | zero => exact driving
  | succ rounds ih =>
    rw [Drive.complete]
    split
    · exact driving
    · rename_i found
      exact ih (settle_driving driving (List.mem_of_getElem? found)).1

theorem drive_finishes (driving : Driving names start d) (enough : d.pending.length + d.inFlight.length ≤ rounds) :
    (d.complete fate pick rounds).inFlight = [] := by
  induction rounds generalizing d with
  | zero => exact List.length_eq_zero_iff.mp (by omega : d.inFlight.length = 0)
  | succ rounds ih =>
    rw [Drive.complete]
    split
    · rename_i idle
      by_contra flying
      have bound := Nat.mod_lt (pick rounds) (List.length_pos_iff.mpr flying)
      exact absurd (List.getElem?_eq_none_iff.mp idle) (Nat.not_le.mpr bound)
    · rename_i found
      obtain ⟨next,fewer⟩ := settle_driving driving (List.mem_of_getElem? found)
      exact ih next (by omega)

-- A drive that reports success has put every name into the cloud.
theorem drive_blob_uploads (fate : BlobName → UploadFate) (pick : Nat → Nat) (limit : Nat)
    (names : List BlobName) (s : Sides) :
    Carried s (driveBlobUploads fate pick limit names s).2 ∧
      ∀ done, (driveBlobUploads fate pick limit names s).1 = .ok done →
        ∀ name ∈ names, ((driveBlobUploads fate pick limit names s).2.objects name).isSome := by
  have begun := begin_driving limit names s
  have driving : Driving names s (Drive.complete fate pick names.length (.begin limit names s)) :=
    complete_driving begun
  have idle : (Drive.complete fate pick names.length (.begin limit names s)).inFlight = [] :=
    drive_finishes begun (by simp only [Drive.begin,List.length_drop,List.length_take]; omega)
  unfold driveBlobUploads
  dsimp only
  split
  · exact ⟨driving.carried,by rintro _ ⟨⟩⟩
  · rename_i clean
    refine ⟨driving.carried,fun _ _ name member => ?_⟩
    rcases driving.accounted clean name member with waiting | flight | finished
    · rw [driving.busy idle clean] at waiting
      cases waiting
    · rw [idle] at flight
      cases flight
    · exact driving.uploaded name finished

theorem interrupt_uploads : Carried s (interruptUploads fate pick limit completed landed names s) := by
  have driving : Driving names s (Drive.complete fate pick completed (.begin limit names s)) :=
    complete_driving (begin_driving limit names s)
  unfold interruptUploads
  dsimp only
  generalize (Drive.begin limit names s).complete fate pick completed = d at driving
  have reached : ∀ (flying : List BlobName) (t : Sides), Carried s t → Carried s
      (flying.foldl (fun s name => if landed name then (s.upload name .succeeds).2 else s) t) := by
    intro flying
    induction flying with
    | nil => exact fun _ carried => carried
    | cons name rest ih =>
      intro t carried
      refine ih _ ?_
      dsimp only
      split
      · exact carried.trans (upload_carried t name _)
      · exact carried
  exact reached d.inFlight d.sides driving.carried

end ArxRuna.Cloud.Transport
