import ArxRuna.Pipeline.Tamper
namespace ArxRuna.Pipeline.Replace
open Library.Aead Library.Chunking Library.Fallible Library.Interrupt Crypto Store.Tables Store.Operations Store.Staging
open Epoch.Flush Vault.Disk Pipeline.Decrypt

-- Where a replacement leaves the destination, the temporary file and the backup.
inductive Outcome where
  | replaced
  | untouched
  | adrift
  | doubled
  deriving DecidableEq, Repr

def Outcome.disk (prior content : Option Bytes) : Outcome → Option Bytes × Option Bytes × Option Bytes
  | .replaced => (content,none,none)
  | .untouched => (prior,content,none)
  | .adrift => (none,content,prior)
  | .doubled => (content,none,prior)

variable {destination : String}

def outcome (io : Saving destination) (prior : Option Bytes) : Outcome :=
  if io.look ≠ .goes then .untouched
  else if prior.isSome then
    if io.moveAway ≠ .goes then .untouched
    else if io.moveIn ≠ .goes then (if io.movedBack then .untouched else .adrift)
    else if io.dropBackup ≠ .goes then .doubled
    else .replaced
  else if io.moveIn ≠ .goes then .untouched
  else .replaced

def places (io : Saving destination) (w : Workspace) : Option Bytes × Option Bytes × Option Bytes :=
  (w.disk destination,w.disk io.temporary,w.disk io.backup)

def Outcome.ends : Outcome → Ending StorageError Unit → Prop
  | .replaced,ending => ending = .done ()
  | _,ending => ∃ e, ending = .failed e

variable {io : Saving destination} {v w : Workspace} {ending : Ending StorageError Unit} {content : Bytes}

theorem rename_goes {source target : String} (there : v.disk source = some content) :
    rename source target .goes v = (.done (),(v.setFile source none).setFile target (some content)) :=
  (rename_done there).mpr ⟨rfl,rfl⟩

theorem bind_returned {c : Command Workspace StorageError Unit} {k : Unit → Command Workspace StorageError Unit}
    (ran : (c >>= k) v = (ending,w)) (returned : ending ≠ .stopped) :
    (∃ u, c v = (.done (),u) ∧ k () u = (ending,w)) ∨ ∃ e, c v = (.failed e,w) ∧ ending = .failed e := by
  rcases here : c v with ⟨value | e | _,u⟩
  · exact .inl ⟨u,rfl,(bind_done here).symm.trans ran⟩
  · cases (bind_failed here).symm.trans ran
    exact .inr ⟨e,rfl,rfl⟩
  · cases (bind_stopped here).symm.trans ran
    exact absurd rfl returned

theorem meet_returned {fate : Fate StorageError} {k : Unit → Command Workspace StorageError Unit}
    (ran : (meet fate >>= k) v = (ending,w)) (returned : ending ≠ .stopped) :
    fate = .goes ∧ k () v = (ending,w) ∨ fate ≠ .goes ∧ (∃ e, ending = .failed e) ∧ w = v := by
  cases fate with
  | goes => exact .inl ⟨rfl,ran⟩
  | fails e =>
    cases ran
    exact .inr ⟨by rintro ⟨⟩,⟨e,rfl⟩,rfl⟩
  | stops =>
    cases ran
    exact absurd rfl returned

theorem rename_returned {source target : String} {fate : Fate StorageError} (there : v.disk source = some content)
    (ran : rename source target fate v = (ending,w)) (returned : ending ≠ .stopped) :
    (fate = .goes ∧ ending = .done () ∧ w = (v.setFile source none).setFile target (some content)) ∨
      fate ≠ .goes ∧ (∃ e, ending = .failed e) ∧ w = v := by
  rcases meet_returned ran returned with ⟨rfl,_⟩ | failed
  · have went : rename source target .goes v =
        (.done (),(v.setFile source none).setFile target (some content)) := rename_goes there
    have same := went.symm.trans ran
    cases same
    exact .inl ⟨rfl,rfl,rfl⟩
  · exact .inr failed

theorem rename_failed {source target : String} {fate : Fate StorageError} (there : v.disk source = some content)
    (ran : rename source target fate v = (.failed e,w)) : fate ≠ .goes ∧ w = v := by
  rcases rename_returned there ran (by rintro ⟨⟩) with ⟨_,done,_⟩ | ⟨failed,_,same⟩
  · cases done
  · exact ⟨failed,same⟩

theorem undone_failed {c : Command Workspace StorageError Unit} {undo : Workspace → Workspace}
    (ran : undoing undo c v = (.failed e,w)) : ∃ u, c v = (.failed e,u) ∧ w = undo u := by
  unfold undoing at ran
  rcases here : c v with ⟨value | error | _,u⟩ <;> rw [here] at ran <;> cases ran
  exact ⟨u,rfl,rfl⟩

variable {old : Bytes}

theorem moved_away (there : v.disk io.temporary = some content) :
    ((v.setFile destination none).setFile io.backup (some old)).disk io.temporary = some content ∧
      places io ((v.setFile destination none).setFile io.backup (some old)) = (none,some content,some old) := by
  have still : ((v.setFile destination none).setFile io.backup (some old)).disk io.temporary = some content := by
    rw [setFile_other io.backup_temporary.symm,setFile_other io.temporary_destination,there]
  refine ⟨still,?_⟩
  rw [places,still,setFile_same,setFile_other io.backup_destination.symm,setFile_same]

theorem moved_in {backup : Option Bytes} (kept : v.disk io.backup = backup) :
    places io ((v.setFile io.temporary none).setFile destination (some content)) = (some content,none,backup) := by
  rw [places,setFile_same,setFile_other io.temporary_destination,setFile_same,setFile_other io.backup_destination,
    setFile_other io.backup_temporary,kept]

theorem moved_back (there : v.disk io.temporary = some content) (kept : v.disk io.backup = some old) :
    places io ((v.setFile io.backup none).setFile destination (v.disk io.backup)) = (some old,some content,none) := by
  rw [places,setFile_same,setFile_other io.temporary_destination,setFile_other io.backup_temporary.symm,
    setFile_other io.backup_destination,setFile_same,there,kept]

theorem replace_absent (absent : v.disk destination = none) (there : v.disk io.temporary = some content)
    (fresh : v.disk io.backup = none) (look : io.look = .goes)
    (ran : rename io.temporary destination io.moveIn v = (ending,w)) (returned : ending ≠ .stopped) :
    (outcome io none).ends ending ∧ places io w = (outcome io none).disk none (some content) := by
  rcases rename_returned there ran returned with ⟨moved,rfl,rfl⟩ | ⟨failed,ended,rfl⟩
  · have known : outcome io none = .replaced := by
      simp [outcome,look,moved]
    rw [known]
    exact ⟨rfl,moved_in fresh⟩
  · have known : outcome io none = .untouched := by
      simp [outcome,failed]
    rw [known]
    refine ⟨ended,?_⟩
    rw [places,absent,there,fresh]
    rfl

theorem replace_outcome (there : v.disk io.temporary = some content) (fresh : v.disk io.backup = none)
    (ran : replaceDestinationWithTemp destination io v = (ending,w)) (returned : ending ≠ .stopped) :
    (outcome io (v.disk destination)).ends ending ∧
      places io w = (outcome io (v.disk destination)).disk (v.disk destination) (some content) := by
  have before : places io v = (v.disk destination,some content,none) := by
    rw [places,there,fresh]
  rcases meet_returned ran returned with ⟨look,ran⟩ | ⟨failed,ended,rfl⟩
  · rw [bind_inspect] at ran
    cases found : v.disk destination with
    | none =>
      simp only [found] at ran
      exact replace_absent found there fresh look ran returned
    | some old =>
      simp only [found] at ran before
      obtain ⟨still,away⟩ : ((v.setFile destination none).setFile io.backup (some old)).disk io.temporary = some content ∧
          places io ((v.setFile destination none).setFile io.backup (some old)) = (none,some content,some old) :=
        moved_away there
      simp only [places,Prod.mk.injEq] at away
      rcases bind_returned ran returned with ⟨u,first,ran⟩ | ⟨e,first,rfl⟩
      · obtain ⟨moved,rfl⟩ := (rename_done found).mp first
        rcases bind_returned ran returned with ⟨u,second,ran⟩ | ⟨e,second,rfl⟩
        · obtain ⟨arrived,rfl⟩ := (rename_done still).mp (done_undoing.mp second)
          have held : places io ((((v.setFile destination none).setFile io.backup (some old)).setFile io.temporary
              none).setFile destination (some content)) = (some content,none,some old) := moved_in away.2.2
          rcases meet_returned ran returned with ⟨dropped,ran⟩ | ⟨failed,ended,rfl⟩
          · cases ran
            have known : outcome io (some old) = .replaced := by
              simp [outcome,look,moved,arrived,dropped]
            simp only [places,Prod.mk.injEq] at held
            rw [known]
            refine ⟨rfl,?_⟩
            rw [places,setFile_same,setFile_other io.backup_destination.symm,setFile_other io.backup_temporary.symm,
              held.1,held.2.1]
            rfl
          · have known : outcome io (some old) = .doubled := by
              simp [outcome,look,moved,arrived,failed]
            rw [known]
            exact ⟨ended,held⟩
        · obtain ⟨u,refused,rfl⟩ := undone_failed second
          obtain ⟨failed,rfl⟩ := rename_failed still refused
          have known : outcome io (some old) = if io.movedBack then .untouched else .adrift := by
            simp [outcome,look,moved,failed]
          rw [known]
          split
          · exact ⟨⟨e,rfl⟩,moved_back still setFile_same⟩
          · refine ⟨⟨e,rfl⟩,?_⟩
            simp only [places,still,away]
            rfl
      · obtain ⟨failed,rfl⟩ := rename_failed found first
        have known : outcome io (some old) = .untouched := by
          simp [outcome,failed]
        rw [known]
        exact ⟨⟨e,rfl⟩,before⟩
  · have known : outcome io (w.disk destination) = .untouched := by
      simp [outcome,failed]
    rw [known]
    exact ⟨ended,before⟩

-- What a download promises: the plaintext or the prior content at the destination,
-- and neither of the two files it makes besides.
structure Kept (io : Saving destination) (prior : Option Bytes) (plaintext : Except StorageError Bytes)
    (ending : Ending StorageError Unit) (w : Workspace) : Prop where
  temporary : w.disk io.temporary = none
  backup : w.disk io.backup = none
  destination : (ending = .done () ∧ ∃ content, plaintext = .ok content ∧ w.disk destination = some content) ∨
    (∃ e, ending = .failed e) ∧ w.disk destination = prior

-- The replacement goes through, or it leaves the prior content in place and the
-- temporary file can be removed.
def recovers (io : Saving destination) (prior : Option Bytes) : Prop :=
  outcome io prior = .replaced ∨ outcome io prior = .untouched ∧ io.dropped = true

instance (prior : Option Bytes) : Decidable (recovers io prior) := by
  unfold recovers
  infer_instance

theorem places_dropped : places io (dropTemporary io w) =
    (w.disk destination,if io.dropped then none else w.disk io.temporary,w.disk io.backup) := by
  unfold dropTemporary
  split
  · rw [places,setFile_same,setFile_other io.temporary_destination.symm,setFile_other io.backup_temporary]
  · rfl

-- A failure before the replacement keeps the promise exactly if the temporary file
-- can be removed.
theorem early_kept_iff {plaintext : Except StorageError Bytes} {prior : Option Bytes} (there : w.disk io.temporary = some content)
    (fresh : w.disk io.backup = none) (same : w.disk destination = prior) :
    Kept io prior plaintext (.failed e) (dropTemporary io w) ↔ io.dropped = true := by
  have held : places io (dropTemporary io w) = _ := places_dropped
  simp only [places,Prod.mk.injEq] at held
  constructor
  · intro kept
    have gone := kept.temporary
    rw [held.2.1,there] at gone
    by_contra stays
    rw [if_neg stays] at gone
    cases gone
  · intro dropped
    refine ⟨?_,?_,.inr ⟨⟨e,rfl⟩,?_⟩⟩
    · rw [held.2.1,if_pos dropped]
    · rw [held.2.2,fresh]
    · rw [held.1,same]

theorem outcome_absent : outcome io none = .untouched ∨ outcome io none = .replaced := by
  unfold outcome
  split
  · exact .inl rfl
  · rw [if_neg (by simp)]
    split
    · exact .inl rfl
    · exact .inr rfl

theorem stranded (known : outcome io prior = .adrift ∨ outcome io prior = .doubled) (held : w.disk io.backup = prior) :
    ¬ Kept io prior' plaintext ending w := by
  intro kept
  rw [kept.backup] at held
  subst held
  rcases known with adrift | doubled
  · rcases (outcome_absent : outcome io none = _ ∨ _) with other | other
    · cases adrift.symm.trans other
    · cases adrift.symm.trans other
  · rcases (outcome_absent : outcome io none = _ ∨ _) with other | other
    · cases doubled.symm.trans other
    · cases doubled.symm.trans other

theorem undoing_returned {c : Command Workspace StorageError Unit} {undo : Workspace → Workspace}
    (ran : undoing undo c v = (ending,w)) (returned : ending ≠ .stopped) :
    (c v = (ending,w) ∧ ending = .done ()) ∨ ∃ u e, c v = (.failed e,u) ∧ ending = .failed e ∧ w = undo u := by
  unfold undoing at ran
  rcases here : c v with ⟨value | error | _,u⟩ <;> rw [here] at ran <;> cases ran
  · exact .inl ⟨rfl,rfl⟩
  · exact .inr ⟨u,error,rfl,rfl,rfl⟩
  · exact absurd rfl returned

theorem replace_kept_iff {plaintext : Except StorageError Bytes} (there : v.disk io.temporary = some content)
    (fresh : v.disk io.backup = none) (same : plaintext = .ok content)
    (ran : undoing (dropTemporary io) (replaceDestinationWithTemp destination io) v = (ending,w))
    (returned : ending ≠ .stopped) :
    Kept io (v.disk destination) plaintext ending w ↔ recovers io (v.disk destination) := by
  rcases undoing_returned ran returned with ⟨moved,rfl⟩ | ⟨u,e,moved,rfl,rfl⟩
  · obtain ⟨ends,held⟩ := replace_outcome there fresh moved returned
    unfold recovers
    cases known : outcome io (v.disk destination) with
    | replaced =>
      rw [known] at held
      simp only [places,Outcome.disk,Prod.mk.injEq] at held
      refine ⟨fun _ => .inl rfl,fun _ => ⟨held.2.1,held.2.2,.inl ⟨rfl,content,same,held.1⟩⟩⟩
    | untouched | adrift | doubled =>
      rw [known] at ends
      obtain ⟨e,other⟩ := ends
      cases other
  · obtain ⟨ends,held⟩ := replace_outcome there fresh moved (by rintro ⟨⟩)
    have dropped : places io (dropTemporary io u) = _ := places_dropped
    unfold recovers
    cases known : outcome io (v.disk destination) with
    | replaced =>
      rw [known] at ends
      cases ends
    | untouched =>
      rw [known] at held
      simp only [places,Outcome.disk,Prod.mk.injEq] at held
      have early : Kept io (v.disk destination) plaintext (.failed e) (dropTemporary io u) ↔ io.dropped = true :=
        early_kept_iff held.2.1 held.2.2 held.1
      simpa using early
    | adrift =>
      rw [known] at held
      simp only [places,Outcome.disk,Prod.mk.injEq] at held dropped
      refine ⟨fun kept => ?_,by rintro (⟨⟨⟩⟩ | ⟨⟨⟩,_⟩)⟩
      exact absurd kept (stranded (.inl known) (dropped.2.2.trans held.2.2))
    | doubled =>
      rw [known] at held
      simp only [places,Outcome.disk,Prod.mk.injEq] at held dropped
      refine ⟨fun kept => ?_,by rintro (⟨⟨⟩⟩ | ⟨⟨⟩,_⟩)⟩
      exact absurd kept (stranded (.inr known) (dropped.2.2.trans held.2.2))

-- The loop leaves everything but the temporary file alone, and ends well exactly if
-- every part decrypts and is written.
theorem write_parts_returned {decrypt : ChunkRecord × Nat → Except StorageError Bytes} {list : List (ChunkRecord × Nat)}
    {old : Bytes} (there : v.disk io.temporary = some old) (ran : writeParts io decrypt list v = (ending,w))
    (returned : ending ≠ .stopped) :
    (∃ content, w.disk io.temporary = some content) ∧ (∀ path, path ≠ io.temporary → w.disk path = v.disk path) ∧
      ((ending = .done () ∧ (∃ parts, list.mapM decrypt = .ok parts) ∧ ∀ indexed ∈ list, io.write indexed.2 = .goes) ∨
        (∃ e, ending = .failed e) ∧
          ¬ ((∃ parts, list.mapM decrypt = .ok parts) ∧ ∀ indexed ∈ list, io.write indexed.2 = .goes)) := by
  induction list generalizing v old with
  | nil =>
    cases ran
    exact ⟨⟨old,there⟩,fun _ _ => rfl,.inl ⟨rfl,⟨[],rfl⟩,by simp⟩⟩
  | cons indexed rest ih =>
    rw [writeParts] at ran
    cases opened : decrypt indexed with
    | error e =>
      rw [opened] at ran
      cases ran
      refine ⟨⟨old,there⟩,fun _ _ => rfl,.inr ⟨⟨e,rfl⟩,?_⟩⟩
      rintro ⟨⟨parts,mapped⟩,_⟩
      simp only [List.mapM_cons,bind_ok,opened] at mapped
      obtain ⟨_,⟨⟩,_⟩ := mapped
    | ok part =>
      rw [opened] at ran
      change (writeAll io.temporary part (io.write indexed.2) >>= fun _ => writeParts io decrypt rest) v = (ending,w) at ran
      rcases bind_returned ran returned with ⟨u,wrote,later⟩ | ⟨e,refused,rfl⟩
      · obtain ⟨goes,rfl⟩ := (write_all_done there).mp wrote
        obtain ⟨held,frame,ends⟩ := ih setFile_same later
        refine ⟨held,fun path other => (frame path other).trans (setFile_other other),?_⟩
        have mapped : (∃ parts, (indexed :: rest).mapM decrypt = .ok parts) ↔ ∃ parts, rest.mapM decrypt = .ok parts := by
          simp [List.mapM_cons,opened,bind_ok]
        rw [mapped,List.forall_mem_cons]
        simpa [goes] using ends
      · obtain ⟨_,rfl⟩ : (∃ e', Ending.failed e = .failed e') ∧ w = v := by
          rcases meet_returned refused (by rintro ⟨⟩) with ⟨_,done⟩ | ⟨_,ended⟩
          · cases done
          · exact ended
        refine ⟨⟨old,there⟩,fun _ _ => rfl,.inr ⟨⟨e,rfl⟩,?_⟩⟩
        rintro ⟨_,goes⟩
        have wrote : writeAll io.temporary part (io.write indexed.2) w = (.done (),_) :=
          (write_all_done there).mpr ⟨goes indexed List.mem_cons_self,rfl⟩
        cases refused.symm.trans wrote

theorem create_failed {path : String} {fate : Fate StorageError} (refused : createFile path fate v = (.failed e,w)) :
    fate ≠ .goes ∧ w = v := by
  rcases meet_returned refused (by rintro ⟨⟩) with ⟨_,done⟩ | ⟨failed,_,same⟩
  · cases done
  · exact ⟨failed,same⟩

theorem write_failed {path : String} {text : Bytes} {fate : Fate StorageError}
    (refused : writeAll path text fate v = (.failed e,w)) : fate ≠ .goes ∧ w = v := by
  rcases meet_returned refused (by rintro ⟨⟩) with ⟨_,done⟩ | ⟨failed,_,same⟩
  · cases done
  · exact ⟨failed,same⟩

theorem undoing_done {c : Command Workspace StorageError Unit} {k : Unit → Command Workspace StorageError Unit}
    {undo : Workspace → Workspace} (here : c v = (.done (),u)) : undoing undo (c >>= k) v = undoing undo (k ()) u := by
  unfold undoing
  rw [bind_done here]

theorem undoing_early {c : Command Workspace StorageError Unit} {k : Unit → Command Workspace StorageError Unit}
    {undo : Workspace → Workspace} (here : c v = (.failed e,u)) : undoing undo (c >>= k) v = (.failed e,undo u) := by
  unfold undoing
  rw [bind_failed here]

theorem undoing_meet {fate : Fate StorageError} {k : Unit → Command Workspace StorageError Unit}
    {undo : Workspace → Workspace} (ran : undoing undo (meet fate >>= k) v = (ending,w)) (returned : ending ≠ .stopped) :
    fate = .goes ∧ undoing undo (k ()) v = (ending,w) ∨ fate ≠ .goes ∧ ∃ e, ending = .failed e ∧ w = undo v := by
  cases fate with
  | goes => exact .inl ⟨rfl,ran⟩
  | fails e =>
    cases ran
    exact .inr ⟨by rintro ⟨⟩,e,rfl,rfl⟩
  | stops =>
    cases ran
    exact absurd rfl returned

theorem persist_kept_iff {plaintext : Except StorageError Bytes} (there : v.disk io.temporary = some content)
    (fresh : v.disk io.backup = none) (same : plaintext = .ok content)
    (ran : undoing (dropTemporary io) (persistTemporary destination io) v = (ending,w)) (returned : ending ≠ .stopped) :
    Kept io (v.disk destination) plaintext ending w ↔
      if io.flush = .goes ∧ io.sync = .goes then recovers io (v.disk destination) else io.dropped = true := by
  rcases undoing_meet ran returned with ⟨flushed,ran⟩ | ⟨failed,e,rfl,rfl⟩
  · rcases undoing_meet ran returned with ⟨synced,ran⟩ | ⟨failed,e,rfl,rfl⟩
    · rw [if_pos ⟨flushed,synced⟩]
      exact replace_kept_iff there fresh same ran returned
    · rw [if_neg fun all => failed all.2]
      exact early_kept_iff there fresh rfl
  · rw [if_neg fun all => failed all.1]
    exact early_kept_iff there fresh rfl

variable {prims : Primitives} {fileId : Uuid} {fileKey : FileKey} {fileSize : Nat} {chunks : List ChunkRecord}

theorem untouched_kept {plaintext : Except StorageError Bytes} (temporary : v.disk io.temporary = none)
    (backup : v.disk io.backup = none) : Kept io (v.disk destination) plaintext (.failed e) v :=
  ⟨temporary,backup,.inr ⟨⟨e,rfl⟩,rfl⟩⟩

def parts (prims : Primitives) (v : Workspace) (fileId : Uuid) (fileKey : FileKey) (fileSize : Nat)
    (validated : List ChunkRecord × Nat) : Except StorageError (List Bytes) :=
  validated.1.zipIdx.mapM (decryptPart prims v.files fileId fileKey fileSize validated.2 validated.1.length)

def written (prims : Primitives) (io : Saving destination) (v : Workspace) (fileId : Uuid) (fileKey : FileKey)
    (fileSize : Nat) (validated : List ChunkRecord × Nat) : Prop :=
  ((parts prims v fileId fileKey fileSize validated).isOk = true ∧
    ∀ indexed ∈ validated.1.zipIdx, io.write indexed.2 = .goes) ∧ io.flush = .goes ∧ io.sync = .goes

instance (validated : List ChunkRecord × Nat) : Decidable (written prims io v fileId fileKey fileSize validated) := by
  unfold written
  infer_instance

theorem undoing_not_stopped {c : Command Workspace StorageError Unit} {k : Unit → Command Workspace StorageError Unit}
    {undo : Workspace → Workspace} (ran : undoing undo (c >>= k) v = (ending,w)) (returned : ending ≠ .stopped) :
    (c v).1 ≠ .stopped := by
  intro stopped
  rcases here : c v with ⟨value | e | _,u⟩ <;> rw [here] at stopped <;> cases stopped
  unfold undoing at ran
  rw [bind_stopped here] at ran
  cases ran
  exact returned rfl

-- The guarded body of `decrypt_file`, over the state in which the temporary file is new.
theorem body_kept_iff {decrypt : ChunkRecord × Nat → Except StorageError Bytes} {list : List (ChunkRecord × Nat)}
    {plaintext : Except StorageError Bytes} (there : v.disk io.temporary = some []) (fresh : v.disk io.backup = none)
    (same : ∀ parts, list.mapM decrypt = .ok parts → plaintext = .ok parts.flatten)
    (ran : undoing (dropTemporary io) (writeParts io decrypt list >>= fun _ => persistTemporary destination io) v =
      (ending,w)) (returned : ending ≠ .stopped) :
    Kept io (v.disk destination) plaintext ending w ↔
      if ((list.mapM decrypt).isOk = true ∧ ∀ indexed ∈ list, io.write indexed.2 = .goes) ∧ io.flush = .goes ∧
        io.sync = .goes then recovers io (v.disk destination) else io.dropped = true := by
  have okay : (list.mapM decrypt).isOk = true ↔ ∃ parts, list.mapM decrypt = .ok parts := by
    cases list.mapM decrypt <;> simp [Except.isOk,Except.toBool]
  rcases first : writeParts io decrypt list v with ⟨started,u⟩
  have unstopped := undoing_not_stopped ran returned
  rw [first] at unstopped
  obtain ⟨⟨content,held⟩,frame,ends⟩ := write_parts_returned there first unstopped
  have kept : u.disk destination = v.disk destination := frame destination io.temporary_destination.symm
  have clear : u.disk io.backup = none := (frame io.backup io.backup_temporary).trans fresh
  rcases ends with ⟨rfl,⟨parts,mapped⟩,wrote⟩ | ⟨⟨e,rfl⟩,broken⟩
  · obtain ⟨parts',mapped',collected⟩ := write_parts_done there first
    rw [undoing_done first] at ran
    have persisted := persist_kept_iff collected clear (same parts' mapped') ran returned
    rw [kept] at persisted
    rw [persisted]
    simp only [okay.mpr ⟨parts,mapped⟩,true_and,if_congr (and_iff_right wrote) rfl rfl]
  · rw [undoing_early first] at ran
    cases ran
    rw [if_neg fun all => broken ⟨okay.mp all.1.1,all.1.2⟩]
    exact early_kept_iff held clear kept

theorem decrypt_file_kept_iff (temporary : v.disk io.temporary = none) (backup : v.disk io.backup = none)
    (ran : decryptFile prims destination io fileId fileKey fileSize chunks v = (ending,w)) (returned : ending ≠ .stopped) :
    Kept io (v.disk destination) (decryptFileToMemory prims v fileId fileKey fileSize chunks) ending w ↔
      ∀ validated, readAndValidateChunks v.manifest fileSize chunks = .ok validated → io.create = .goes →
        if written prims io v fileId fileKey fileSize validated then recovers io (v.disk destination)
        else io.dropped = true := by
  rw [decryptFile,bind_inspect] at ran
  cases valid : readAndValidateChunks v.manifest fileSize chunks with
  | error e =>
    rw [valid] at ran
    cases ran
    exact iff_of_true (untouched_kept temporary backup) (by rintro _ ⟨⟩)
  | ok validated =>
    rw [valid] at ran
    change (createFile io.temporary io.create >>= fun _ => _) v = (ending,w) at ran
    rcases bind_returned ran returned with ⟨u,created,ran⟩ | ⟨e,refused,rfl⟩
    · obtain ⟨goes,rfl⟩ := create_done.mp created
      have plain : ∀ list, parts prims v fileId fileKey fileSize validated = .ok list →
          decryptFileToMemory prims v fileId fileKey fileSize chunks = .ok list.flatten := by
        intro list mapped
        simp only [decryptFileToMemory,bind_ok,pure_ok]
        exact ⟨validated,valid,list,mapped,rfl⟩
      have body := body_kept_iff setFile_same ((setFile_other io.backup_temporary).trans backup) plain ran returned
      rw [setFile_other io.temporary_destination.symm] at body
      rw [body]
      constructor
      · intro holds validated' same _
        cases same
        exact holds
      · intro holds
        exact holds validated rfl goes
    · obtain ⟨failed,rfl⟩ := create_failed refused
      exact iff_of_true (untouched_kept temporary backup) fun _ _ goes => absurd goes failed

-- Everything up to the replacement of `decrypt_epoch_file` goes; its callers clean up
-- nothing before that.
def decryptsEpochFile (prims : Primitives) (v : Workspace) (kek : KeyEncryptionKey) (chunk : ChunkRecord) : Prop :=
  (decryptEpochFileToMemory prims kek v.files v.manifest chunk).isOk = true

theorem abandoned (there : w.disk io.temporary = some content) : ¬ Kept io prior plaintext ending w := by
  intro kept
  cases there.symm.trans kept.temporary

theorem decrypt_epoch_file_kept_iff {kek : KeyEncryptionKey} {chunk : ChunkRecord} (temporary : v.disk io.temporary = none)
    (backup : v.disk io.backup = none)
    (ran : decryptEpochFile prims destination io kek chunk v = (ending,w)) (returned : ending ≠ .stopped) :
    Kept io (v.disk destination) (decryptEpochFileToMemory prims kek v.files v.manifest chunk) ending w ↔
      (decryptsEpochFile prims v kek chunk → io.create = .goes →
        io.write 0 = .goes ∧ io.flush = .goes ∧ io.sync = .goes ∧ recovers io (v.disk destination)) := by
  rw [decryptEpochFile,bind_inspect] at ran
  unfold decryptsEpochFile
  cases opened : decryptEpochFileToMemory prims kek v.files v.manifest chunk with
  | error e =>
    rw [opened] at ran
    cases ran
    exact iff_of_true (untouched_kept temporary backup) (by rintro ⟨⟩)
  | ok fileBytes =>
    rw [opened] at ran
    change (createFile io.temporary io.create >>= fun _ => _) v = (ending,w) at ran
    rcases bind_returned ran returned with ⟨u,created,ran⟩ | ⟨e,refused,rfl⟩
    · obtain ⟨goes,rfl⟩ := create_done.mp created
      simp only [goes,Except.isOk,Except.toBool,forall_const]
      rcases bind_returned ran returned with ⟨u,wrote,ran⟩ | ⟨e,refused,rfl⟩
      · obtain ⟨written,rfl⟩ := (write_all_done setFile_same).mp wrote
        simp only [written,true_and]
        rcases meet_returned ran returned with ⟨flushed,ran⟩ | ⟨failed,_,rfl⟩
        · simp only [flushed,true_and]
          rcases meet_returned ran returned with ⟨synced,ran⟩ | ⟨failed,_,rfl⟩
          · simp only [synced,true_and]
            have given : (.ok fileBytes : Except StorageError Bytes) = .ok fileBytes := rfl
            have replaced := replace_kept_iff setFile_same
              (((setFile_other io.backup_temporary).trans (setFile_other io.backup_temporary)).trans backup)
              given ran returned
            rw [setFile_other io.temporary_destination.symm,setFile_other io.temporary_destination.symm] at replaced
            exact replaced
          · exact iff_of_false (abandoned setFile_same) fun all => failed all.1
        · exact iff_of_false (abandoned setFile_same) fun all => failed all.1
      · obtain ⟨failed,rfl⟩ := write_failed refused
        exact iff_of_false (abandoned setFile_same) fun all => failed all.1
    · obtain ⟨failed,rfl⟩ := create_failed refused
      exact iff_of_true (untouched_kept temporary backup) fun _ goes => absurd goes failed

-- Names drawn for the temporary file and the backup name no file yet.
theorem download_kept_iff (prims : Primitives) (io : Saving destination) (v w : Workspace)
    (temporary : v.disk io.temporary = none) (backup : v.disk io.backup = none) (ending : Ending StorageError Unit)
    (returned : ending ≠ .stopped) :
    (∀ fileId fileKey fileSize chunks, decryptFile prims destination io fileId fileKey fileSize chunks v = (ending,w) →
      (Kept io (v.disk destination) (decryptFileToMemory prims v fileId fileKey fileSize chunks) ending w ↔
        ∀ validated, readAndValidateChunks v.manifest fileSize chunks = .ok validated → io.create = .goes →
          if written prims io v fileId fileKey fileSize validated then recovers io (v.disk destination)
          else io.dropped = true)) ∧
    ∀ kek chunk, decryptEpochFile prims destination io kek chunk v = (ending,w) →
      (Kept io (v.disk destination) (decryptEpochFileToMemory prims kek v.files v.manifest chunk) ending w ↔
        (decryptsEpochFile prims v kek chunk → io.create = .goes →
          io.write 0 = .goes ∧ io.flush = .goes ∧ io.sync = .goes ∧ recovers io (v.disk destination))) :=
  ⟨fun _ _ _ _ ran => decrypt_file_kept_iff temporary backup ran returned,
    fun _ _ ran => decrypt_epoch_file_kept_iff temporary backup ran returned⟩

def noteVault : Workspace :=
  ⟨Store.Integrity.createdManifest 1 ⟨9,0,none,131072,true,some 1⟩,noFiles,
    fun path => if path = "note" then some [7] else none⟩

theorem bak_tmp : ".bak" ≠ ".tmp" := by
  decide

theorem note_names : ".bak" ≠ "note" ∧ ".tmp" ≠ "note" := by
  decide

def noteSaving (dropBackup : Fate StorageError) : Saving "note" where
  temporary := ".tmp"
  backup := ".bak"
  create := .goes
  write := fun _ => .goes
  flush := .goes
  sync := .goes
  look := .goes
  moveAway := .goes
  moveIn := .goes
  movedBack := true
  dropBackup := dropBackup
  dropped := true
  backup_temporary := bak_tmp
  backup_destination := note_names.1
  temporary_destination := note_names.2

def noteKey : FileKey := ⟨List.replicate 32 0,List.length_replicate⟩

def noteDownload (dropBackup : Fate StorageError) : Ending StorageError Unit × Workspace :=
  decryptFile plainPrimitives "note" (noteSaving dropBackup) 2 noteKey 0 [] noteVault

theorem saved_failed (valid : readAndValidateChunks v.manifest fileSize chunks = .ok validated) (goes : io.create = .goes)
    (ran : (writeParts io (decryptPart prims v.files fileId fileKey fileSize validated.2 validated.1.length)
      validated.1.zipIdx >>= fun _ => persistTemporary destination io) (v.setFile io.temporary (some [])) = (.failed e,w)) :
    decryptFile prims destination io fileId fileKey fileSize chunks v = (.failed e,dropTemporary io w) := by
  have created : createFile io.temporary io.create v = (.done (),v.setFile io.temporary (some [])) :=
    create_done.mpr ⟨goes,rfl⟩
  rw [decryptFile,bind_inspect,valid]
  exact (bind_done created).trans (undoing_failed ran)

section Letter
open Pipeline.Tamper

-- The letter comes down upon the note, and the temporary file cannot be moved in.
def letterNote : Workspace := letterVault.setFile "note" (some [7])

def blockedSaving : Saving "note" := {noteSaving .goes with moveIn := .fails (.io "Permission denied")}

def letterParts (indexed : ChunkRecord × Nat) : Except StorageError Bytes :=
  decryptPart marking letterNote.files 1 (byteKey 3) letter.length 131072 letterRecords.length indexed

theorem letter_staged :
    Encrypt.StagedChunks marking letterNote.files 131072 1 (byteKey 3) 0 (Library.Chunking.chunks 131072 letter) letterRecords :=
  (Encrypt.inner_encrypted rfl letter_encrypted).staged (fun _ _ => rfl) (by decide)

def letterBegun : Workspace := letterNote.setFile ".tmp" (some [])

def letterWritten : Workspace :=
  (letterBegun.setFile ".tmp" (some ([] ++ filled))).setFile ".tmp" (some ([] ++ filled ++ [8,9]))

theorem letter_written : writeParts blockedSaving letterParts letterRecords.zipIdx letterBegun = (.done (),letterWritten) := by
  have pieces : letterRecords.zipIdx.mapM letterParts = .ok (Library.Chunking.chunks 131072 letter) :=
    staged_parts (by decide) letter_staged (by omega) (by decide)
  rw [letter_chunks,mapM_ok] at pieces
  change List.Forall₂ _ [_,_] _ at pieces
  rw [List.forall₂_cons,List.forall₂_cons] at pieces
  obtain ⟨first,second,_⟩ := pieces
  change writeParts blockedSaving letterParts [_,_] letterBegun = _
  simp only [writeParts,first,second,done_bind,done_demand]
  exact ⟨filled,_,⟨rfl,rfl⟩,(),_,(write_all_done setFile_same).mpr ⟨rfl,rfl⟩,
    [8,9],_,⟨rfl,rfl⟩,(),_,(write_all_done setFile_same).mpr ⟨rfl,rfl⟩,rfl⟩

theorem blocked_persist (there : v.disk "note" = some old) :
    ∃ w, persistTemporary "note" blockedSaving v = (.failed (.io "Permission denied"),w) := by
  have moved : rename "note" blockedSaving.backup .goes v =
      (.done (),(v.setFile "note" none).setFile blockedSaving.backup (some old)) := rename_goes there
  have goes : blockedSaving.flush = .goes ∧ blockedSaving.sync = .goes ∧ blockedSaving.look = .goes ∧
      blockedSaving.moveAway = .goes ∧ blockedSaving.moveIn = .fails (.io "Permission denied") := ⟨rfl,rfl,rfl,rfl,rfl⟩
  obtain ⟨flush,sync,look,away,back⟩ := goes
  rw [persistTemporary,flush,bind_goes,sync,bind_goes,replaceDestinationWithTemp,look,bind_goes,bind_inspect,there,away,back]
  exact ⟨_,(bind_done moved).trans (bind_failed (undoing_failed rfl))⟩

theorem blocked_download : ∃ w, decryptFile marking "note" blockedSaving 1 (byteKey 3) letter.length letterRecords letterNote =
    (.failed (.io "Permission denied"),w) := by
  have valid : readAndValidateChunks letterNote.manifest letter.length letterRecords = .ok (letterRecords,131072) :=
    staged_valid rfl letter_staged (by decide)
  have there : letterWritten.disk "note" = some [7] := by
    rw [letterWritten,setFile_other note_names.2.symm,setFile_other note_names.2.symm,letterBegun,
      setFile_other note_names.2.symm,letterNote,setFile_same]
  obtain ⟨w,blocked⟩ := blocked_persist there
  have body : (writeParts blockedSaving letterParts letterRecords.zipIdx >>= fun _ => persistTemporary "note" blockedSaving)
      letterBegun = (.failed (.io "Permission denied"),w) := (bind_done letter_written).trans blocked
  refine ⟨dropTemporary blockedSaving w,?_⟩
  exact saved_failed valid rfl body

theorem blocked_download_kept : ∃ w,
    decryptFile marking "note" blockedSaving 1 (byteKey 3) letter.length letterRecords letterNote =
      (.failed (.io "Permission denied"),w) ∧
    Kept blockedSaving (some [7]) (decryptFileToMemory marking letterNote 1 (byteKey 3) letter.length letterRecords)
      (.failed (.io "Permission denied")) w := by
  obtain ⟨w,ran⟩ := blocked_download
  obtain ⟨file,_⟩ := download_kept_iff marking blockedSaving letterNote w rfl rfl (.failed (.io "Permission denied"))
    (by rintro ⟨⟩)
  refine ⟨w,ran,(file 1 (byteKey 3) letter.length letterRecords ran).mpr fun _ _ _ => ?_⟩
  split
  · decide
  · rfl

end Letter

-- The backup cannot be removed: the download fails with the note replaced and the
-- backup left.
theorem failed_download_replaces :
    (noteDownload (.fails (.io "Permission denied"))).1 = .failed (.io "Permission denied") ∧
      noteVault.disk "note" = some [7] ∧
      (noteDownload (.fails (.io "Permission denied"))).2.disk "note" = some [] ∧
      (noteDownload (.fails (.io "Permission denied"))).2.disk ".bak" = some [7] := by
  decide +kernel

end ArxRuna.Pipeline.Replace
