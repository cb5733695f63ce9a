import ArxRuna.Store.Schema
namespace ArxRuna.Store.Schema
open Library.Sql Library.Fallible Store.Tables

-- The statements on the way from one version to another, and the schema there.
def statementsBetween (k j : Nat) : List ManifestStatement :=
  ((migrations.take (j - 1)).drop (k - 1)).flatMap (·.statements)

def schemaAt (k : Nat) (cascade : Bool) : Schema TableName ColumnName :=
  schemaAfter (statementsBetween 1 k) (canonicalSchema cascade)

def traceBetween (k j : Nat) (cascade : Bool) (table : TableName) : Option (Trace TableName ColumnName) :=
  tracesAfter (statementsBetween k j) (schemaAt k cascade) begun table

def keepsTable (k j : Nat) (cascade : Bool) (entry : TableName × ManifestShape) : Bool :=
  match traceBetween k j cascade entry.1 with
  | none => false
  | some trace => trace.table = entry.1 && trace.ops.all (fun op => !op.isDrop) &&
      entry.2.columns.all fun column => trace.ops.all (Op.keeps column.name)

def versions : List Nat := List.range' 1 10

section Versions
set_option maxRecDepth 4000

-- What is checked of any two versions, and of each of them.
theorem pairs_checked : ∀ k ∈ versions, ∀ j ∈ versions, ∀ cascade : Bool, k ≤ j →
    safeAll [] (statementsBetween k j) (schemaAt k cascade) = true ∧
    schemaAfter (statementsBetween k j) (schemaAt k cascade) = schemaAt j cascade ∧
    (∀ entry ∈ schemaAt k cascade, entry.1 ≠ .manifestMeta → entry.1 ≠ .pendingDeletions →
      keepsTable k j cascade entry = true) ∧
    (∀ entry ∈ schemaAt k cascade,
      entry.2.columns.all (fun column => hasColumn (schemaAt j cascade) entry.1 column.name) = true) ∧
    traceBetween k j cascade .pendingDeletions =
      some ⟨.pendingDeletions,if k < 9 ∧ 9 ≤ j then [.drop (.isNull .blobName)] else []⟩ ∧
    traceBetween k j cascade .manifestMeta = some ⟨.manifestMeta,(List.range' (k + 1) (j - k)).map fun n =>
      .assign .value (word (toString n)) (.isIn .key [word "schema_version"])⟩ := by
  decide +kernel

theorem each_checked : ∀ k ∈ versions,
    (∀ n ∈ List.range 9, ∀ migration ∈ migrations[n]?,
      migration.done.any (fun version => version.toList = (toString k).toList) = decide (n + 2 ≤ k)) ∧
    ["1","2","3","4","5","6","7","8","9","10"].any (fun version => version.toList = (toString k).toList) = true ∧
    ∀ cascade : Bool, (names (schemaAt k cascade)).contains .manifestMeta = true ∧
      (names (schemaAt k cascade)).contains .nodes = true ∧ schemaAt 10 cascade = schemaAt 10 true := by
  decide +kernel

theorem canonical_checked : safeAll [] canonicalStatements [] = true ∧
    schemaAfter canonicalStatements [] = canonicalSchema true ∧ (names (canonicalSchema true)).Nodup ∧
    (names (canonicalSchema true)).contains .manifestMeta = true ∧ .pendingDeletions ∈ names (canonicalSchema true) ∧
    ∀ entry ∈ canonicalSchema true, (entry.1 = .manifestMeta → entry.2 = manifestMeta) ∧
      (entry.1 = .pendingDeletions → entry.2 = pendingDeletions) := by
  decide +kernel

end Versions

section Checked
variable {k j : Nat} {cascade : Bool}

theorem safe_versions (before : k ∈ versions) (after : j ∈ versions) (order : k ≤ j) :
    safeAll [] (statementsBetween k j) (schemaAt k cascade) = true :=
  (pairs_checked k before j after cascade order).1

theorem schema_versions (before : k ∈ versions) (after : j ∈ versions) (order : k ≤ j) :
    schemaAfter (statementsBetween k j) (schemaAt k cascade) = schemaAt j cascade :=
  (pairs_checked k before j after cascade order).2.1

theorem kept_versions (before : k ∈ versions) (after : j ∈ versions) (order : k ≤ j) (member : entry ∈ schemaAt k cascade)
    (settings : entry.1 ≠ .manifestMeta) (deleted : entry.1 ≠ .pendingDeletions) : keepsTable k j cascade entry = true :=
  (pairs_checked k before j after cascade order).2.2.1 entry member settings deleted

theorem columns_versions (before : k ∈ versions) (after : j ∈ versions) (order : k ≤ j)
    (member : entry ∈ schemaAt k cascade) :
    entry.2.columns.all (fun column => hasColumn (schemaAt j cascade) entry.1 column.name) = true :=
  (pairs_checked k before j after cascade order).2.2.2.1 entry member

theorem deleted_versions (before : k ∈ versions) (after : j ∈ versions) (order : k ≤ j) :
    traceBetween k j cascade .pendingDeletions =
      some ⟨.pendingDeletions,if k < 9 ∧ 9 ≤ j then [.drop (.isNull .blobName)] else []⟩ :=
  (pairs_checked k before j after cascade order).2.2.2.2.1

theorem meta_versions (before : k ∈ versions) (after : j ∈ versions) (order : k ≤ j) :
    traceBetween k j cascade .manifestMeta = some ⟨.manifestMeta,(List.range' (k + 1) (j - k)).map fun n =>
      .assign .value (word (toString n)) (.isIn .key [word "schema_version"])⟩ :=
  (pairs_checked k before j after cascade order).2.2.2.2.2

theorem done_versions (known : k ∈ versions) (inside : n < 9) (found : migrations[n]? = some migration) :
    migration.done.any (fun version => version.toList = (toString k).toList) = decide (n + 2 ≤ k) :=
  (each_checked k known).1 n (List.mem_range.mpr inside) migration found

theorem listed_versions (known : k ∈ versions) :
    ["1","2","3","4","5","6","7","8","9","10"].any (fun version => version.toList = (toString k).toList) = true :=
  (each_checked k known).2.1

theorem settings_versions (known : k ∈ versions) : (names (schemaAt k cascade)).contains .manifestMeta = true :=
  ((each_checked k known).2.2 cascade).1

theorem nodes_versions (known : k ∈ versions) : (names (schemaAt k cascade)).contains .nodes = true :=
  ((each_checked k known).2.2 cascade).2.1

theorem final_schema (cascade : Bool) : schemaAt 10 cascade = schemaAt 10 true :=
  ((each_checked 10 (List.mem_range'_1.mpr ⟨by omega,by omega⟩)).2.2 cascade).2.2

end Checked

theorem versions_iff : k ∈ versions ↔ 1 ≤ k ∧ k ≤ 10 := by
  unfold versions
  rw [List.mem_range'_1]
  omega

theorem between_between (low : k ≤ j) (mid : j ≤ l) (high : l ≤ 10) :
    statementsBetween k l = statementsBetween k j ++ statementsBetween j l := by
  have count : migrations.length = 9 := rfl
  have parts := List.take_append_drop (j - 1) (migrations.take (l - 1))
  rw [List.take_take,Nat.min_eq_left (by omega)] at parts
  unfold statementsBetween
  rw [← List.flatMap_append,← parts,List.drop_append_of_le_length,parts]
  rw [List.length_take]
  omega

theorem between_self (k : Nat) : statementsBetween k k = [] := by
  unfold statementsBetween
  rw [List.drop_eq_nil_of_le]
  · rfl
  · exact List.length_take_le _ _

theorem between_next (found : migrations[n]? = some migration) :
    statementsBetween (n + 1) (n + 2) = migration.statements := by
  obtain ⟨inside,rfl⟩ := List.getElem?_eq_some_iff.mp found
  unfold statementsBetween
  rw [Nat.add_sub_cancel,show n + 2 - 1 = n + 1 from rfl,List.take_succ_eq_append_getElem inside,List.drop_append_of_le_length,
    List.drop_eq_nil_of_le (List.length_take_le _ _)]
  · simp
  · rw [List.length_take]
    omega

variable {engine : Engine} {db : Manifest} {cascade : Bool} {faults : Nat → Faults}

-- A legal manifest of a version.
structure At (engine : Engine) (k : Nat) (cascade : Bool) (db : Manifest) : Prop where
  known : k ∈ versions
  schema : db.schema = schemaAt k cascade
  legal : Legal engine.valid db
  version : manifestMetaValue engine db "schema_version" = .ok (toString k).toList

def reach (engine : Engine) (k j : Nat) (db : Manifest) : Manifest := effects engine.valid (statementsBetween k j) db

theorem reach_self (k : Nat) (db : Manifest) : reach engine k k db = db := by
  unfold reach
  rw [between_self]
  rfl

theorem reach_reach (low : k ≤ j) (mid : j ≤ l) (high : l ≤ 10) :
    reach engine j l (reach engine k j db) = reach engine k l db := by
  unfold reach effects
  rw [between_between low mid high,List.foldl_append]

theorem is_version (valid : Value → Bool) (row : ManifestRow) :
    (Condition.isIn ColumnName.key [word "schema_version"]).eval valid row = some true ↔ row .key = word "schema_version" := by
  unfold Condition.eval
  split
  · rename_i null
    rw [null]
    simp [word]
  · simp

theorem assigned (ns : List Nat) (row : ManifestRow) :
    (ns.map fun n => (Op.assign .value (word (toString n)) (.isIn .key [word "schema_version"]) : Op TableName ColumnName)).foldl
        (Op.change engine.valid) row =
      if row .key = word "schema_version" then
        (ns.getLast?.elim row fun n => Function.update row .value (word (toString n)))
      else row := by
  induction ns using List.reverseRecOn with
  | nil => simp
  | append_singleton ns n ih =>
    have key : ∀ value, Function.update row ColumnName.value value .key = row .key := fun value =>
      Function.update_of_ne (by decide) _ _
    rw [List.map_append,List.foldl_append,ih,List.getLast?_concat]
    simp only [List.map_cons,List.map_nil,List.foldl_cons,List.foldl_nil,Op.change,is_version,Option.elim_some]
    by_cases here : row .key = word "schema_version"
    · rw [if_pos here,if_pos here]
      cases ns.getLast? with
      | none => rw [Option.elim_none,if_pos here]
      | some m => rw [Option.elim_some,if_pos ((key _).trans here),Function.update_idem]
    · rw [if_neg here,if_neg here]

section Reach
variable (at' : At engine k cascade db) (later : k ≤ j) (known : j ∈ versions)
include at' later known

theorem At.safe : safeAll [] (statementsBetween k j) db.schema = true := by
  rw [at'.schema]
  exact safe_versions at'.known known later

theorem At.reach_schema : (reach engine k j db).schema = schemaAt j cascade := by
  unfold reach
  rw [effects_schema,at'.schema]
  exact schema_versions at'.known known later

theorem At.rows (table : TableName) :
    (reach engine k j db).rows table = told engine.valid db.rows (traceBetween k j cascade table) := by
  have traced : _ = fun table => told engine.valid db.rows (tracesAfter _ db.schema begun table) :=
    traced_run at'.legal (by simp) (at'.safe later known) rfl
  unfold reach traceBetween
  rw [traced,at'.schema]

theorem At.settings : (reach engine k j db).rows .manifestMeta = (db.rows .manifestMeta).map fun row =>
    if k < j ∧ row .key = word "schema_version" then Function.update row .value (word (toString j)) else row := by
  rw [at'.rows later known,meta_versions at'.known known later,told,runs_map]
  · apply List.map_congr_left
    intro row _
    rw [assigned,List.getLast?_range']
    by_cases same : k = j
    · subst same
      simp
    · have up : k < j := by omega
      have last : k + (j - k) = j := by omega
      simp [up,last,show j - k ≠ 0 by omega]
  · simp [Op.isDrop]

theorem At.setting (key : String) : manifestMetaValue engine (reach engine k j db) key =
    if word key = word "schema_version" then .ok (toString j).toList else manifestMetaValue engine db key := by
  have listed : (names (reach engine k j db).schema).contains .manifestMeta = true := by
    rw [at'.reach_schema later known]
    exact settings_versions known
  have before : (names db.schema).contains .manifestMeta = true := by
    rw [at'.schema]
    exact settings_versions at'.known
  have version := at'.version
  unfold manifestMetaValue at version ⊢
  rw [if_pos before] at version
  rw [if_pos listed,if_pos before,at'.settings later known,List.find?_map]
  have same : ((fun row : ManifestRow => decide (row .key = word key)) ∘ fun row =>
      if k < j ∧ row .key = word "schema_version" then Function.update row .value (word (toString j)) else row) =
      fun row => decide (row .key = word key) := by
    funext row
    dsimp only [Function.comp_apply]
    split
    · rw [Function.update_of_ne (by decide)]
    · rfl
  rw [same]
  by_cases own : word key = word "schema_version"
  · rw [if_pos own,own]
    cases found : (db.rows .manifestMeta).find? (fun row => row .key = word "schema_version") with
    | none =>
      rw [found] at version
      cases version
    | some row =>
      rw [found] at version
      have here : row .key = word "schema_version" := by simpa using List.find?_some found
      dsimp only [Option.map_some] at version ⊢
      by_cases up : k < j
      · rw [if_pos ⟨up,here⟩,Function.update_self]
        rfl
      · rw [if_neg fun both => up both.1,version,show k = j by omega]
  · rw [if_neg own]
    cases found : (db.rows .manifestMeta).find? (fun row => row .key = word key) with
    | none => rfl
    | some row =>
      have here : row .key = word key := by simpa using List.find?_some found
      dsimp only [Option.map_some]
      rw [if_neg]
      rintro ⟨_,version⟩
      exact own (here.symm.trans version)

theorem At.reach : At engine j cascade (reach engine k j db) where
  known := known
  schema := at'.reach_schema later known
  legal := (safe_run at'.legal (by simp) (at'.safe later known)).2
  version := (at'.setting later known "schema_version").trans (if_pos rfl)

end Reach

-- Of what was in the manifest at one version, what is in it at a later one. Only
-- deletions without a name are gone, from version 9 on.
def stays (k j : Nat) (table : TableName) (row : ManifestRow) : Bool :=
  !(k < 9 && 9 ≤ j && table = .pendingDeletions && row .blobName = .null)

structure Kept (k j : Nat) (before after : Manifest) : Prop where
  tables : ∀ entry ∈ before.schema, entry.1 ≠ .manifestMeta →
    List.Forall₂ (fun row row' => ∀ column ∈ entry.2.columns, row' column.name = row column.name)
      ((before.rows entry.1).filter (stays k j entry.1)) (after.rows entry.1)
  columns : ∀ entry ∈ before.schema, ∀ column ∈ entry.2.columns, hasColumn after.schema entry.1 column.name = true
  settings : after.rows .manifestMeta = (before.rows .manifestMeta).map fun row =>
    if k < j ∧ row .key = word "schema_version" then Function.update row .value (word (toString j)) else row

section Kept
variable (at' : At engine k cascade db) (later : k ≤ j) (known : j ∈ versions)
include at' later known

theorem At.kept : Kept k j db (Schema.reach engine k j db) := by
  refine ⟨?_,?_,at'.settings later known⟩
  · intro entry member settings
    rw [at'.rows later known]
    by_cases deleted : entry.1 = .pendingDeletions
    · rw [deleted,deleted_versions at'.known known later,told]
      by_cases crosses : k < 9 ∧ 9 ≤ j
      · have same : (fun row : ManifestRow => decide ((Condition.isNull ColumnName.blobName).eval engine.valid row ≠ some true)) =
            stays k j .pendingDeletions := by
          funext row
          simp [stays,crosses,Condition.eval]
        rw [if_pos crosses,List.foldl_cons,List.foldl_nil,Op.run,same]
        exact List.forall₂_same.mpr fun row _ column _ => rfl
      · have same : (db.rows .pendingDeletions).filter (stays k j .pendingDeletions) = db.rows .pendingDeletions := by
          rw [List.filter_eq_self]
          intro row _
          unfold stays
          by_cases low : k < 9
          · have high : ¬ 9 ≤ j := fun high => crosses ⟨low,high⟩
            simp [high]
          · simp [low]
        rw [if_neg crosses,List.foldl_nil,same]
        exact List.forall₂_same.mpr fun row _ column _ => rfl
    · have kept := kept_versions at'.known known later (at'.schema ▸ member) settings deleted
      unfold keepsTable at kept
      cases found : traceBetween k j cascade entry.1 with
      | none =>
        rw [found] at kept
        cases kept
      | some trace =>
        rw [found] at kept
        simp only [Bool.and_eq_true,decide_eq_true_eq] at kept
        obtain ⟨⟨table,whole⟩,columns⟩ := kept
        have all : (db.rows entry.1).filter (stays k j entry.1) = db.rows entry.1 := by
          rw [List.filter_eq_self]
          intro row _
          simp [stays,deleted]
        rw [told,runs_map whole,table,all,List.forall₂_map_right_iff,List.forall₂_same]
        intro row _ column inside
        exact change_keeps (List.all_eq_true.mp columns column inside) row
  · intro entry member column inside
    rw [at'.reach_schema later known]
    exact List.all_eq_true.mp (columns_versions at'.known known later (at'.schema ▸ member)) column inside

end Kept

def Outcome (faults : Faults) (result : Except StorageError Manifest) (next : Manifest) : Prop :=
  result = .ok next ∨ ∃ step error, faults step = some error ∧ result = .error error

section Bodies
variable {faults : Faults} {next : Manifest} {migration : Migration}

theorem attempt_then {rest : Unit → Except StorageError Manifest} (outcome : Outcome faults (rest ()) next) (step : Nat) :
    Outcome faults (attempt faults step >>= rest) next := by
  unfold attempt
  cases fault : faults step with
  | none => exact outcome
  | some error => exact .inr ⟨step,error,fault,rfl⟩

theorem then_attempt {first : Except StorageError Manifest} (outcome : Outcome faults first next) (step : Nat) :
    Outcome faults (do let db ← first; attempt faults step; pure db) next := by
  rcases outcome with rfl | ⟨other,error,fault,rfl⟩
  · exact attempt_then (.inl rfl) step
  · exact .inr ⟨other,error,fault,rfl⟩

theorem batch_outcome {statements : List ManifestStatement}
    (run : statements.foldlM (fun db statement => statement.exec engine.valid db) db = some next) (step : Nat) :
    Outcome faults (executeBatch engine faults step statements db) next := by
  induction statements generalizing db step with
  | nil => exact .inl (congrArg Except.ok (Option.some.inj run))
  | cons statement rest ih =>
    rw [List.foldlM_cons] at run
    obtain ⟨middle,first,later⟩ := Option.bind_eq_some_iff.mp run
    apply attempt_then
    rw [first]
    exact ih later (step + 1)

theorem At.body (at' : At engine k cascade db) (found : migrations[n]? = some migration) (reached : n + 1 ≤ k) :
    Outcome faults (migration.body engine faults db) (if n + 2 ≤ k then db else Schema.reach engine k (k + 1) db) := by
  obtain ⟨inside,_⟩ := List.getElem?_eq_some_iff.mp found
  have inside : n < 9 := inside
  have done := done_versions at'.known inside found
  unfold Migration.body
  apply attempt_then
  apply attempt_then
  rw [at'.version]
  change Outcome faults (if (migration.done.any fun version => version.toList = (toString k).toList) = true then _ else _) _
  rw [done]
  by_cases passed : n + 2 ≤ k
  · rw [if_pos (decide_eq_true passed),if_pos passed]
    exact attempt_then (.inl rfl) 2
  · have now : k = n + 1 := by omega
    subst now
    rw [if_neg (by simp),if_neg passed]
    apply then_attempt
    apply batch_outcome
    have safe := at'.safe (Nat.le_succ (n + 1)) (versions_iff.mpr ⟨by omega,by omega⟩)
    rw [between_next found] at safe
    unfold Schema.reach
    rw [between_next found]
    exact (safe_run at'.legal (by simp) safe).1

end Bodies

-- Whatever fails, the manifest is at a version from which the rest can be done.
theorem At.migrate (at' : At engine k cascade db) (faults : Nat → Faults) (n number : Nat) (high : n ≤ 9) (reached : n + 1 ≤ k) :
    ∃ j, k ≤ j ∧ j ∈ versions ∧
      (Schema.migrate engine faults number (migrations.drop n) db = (Schema.reach engine k j db,.ok ()) ∧ j = 10 ∨
        ∃ i step error, faults i step = some error ∧
          Schema.migrate engine faults number (migrations.drop n) db = (Schema.reach engine k j db,.error error)) := by
  have count : migrations.length = 9 := rfl
  generalize left : 9 - n = m
  induction m generalizing n k db number with
  | zero =>
    have all : n = 9 := by omega
    have last : k = 10 := by
      have bound := versions_iff.mp at'.known
      omega
    subst all last
    refine ⟨10,Nat.le_refl 10,at'.known,.inl ⟨?_,rfl⟩⟩
    rw [reach_self]
    rfl
  | succ m ih =>
    have inside : n < migrations.length := by omega
    have found : migrations[n]? = some migrations[n] := List.getElem?_eq_getElem inside
    rw [List.drop_eq_getElem_cons inside,Schema.migrate]
    have body : Outcome (faults number) _ _ := at'.body found reached
    rcases body with ok | ⟨step,error,fault,failed⟩
    · unfold Migration.apply
      rw [ok]
      dsimp only
      by_cases passed : n + 2 ≤ k
      · rw [if_pos passed]
        exact ih at' (n + 1) (number + 1) (by omega) passed (by omega)
      · rw [if_neg passed]
        have bound := versions_iff.mp at'.known
        have next := at'.reach (Nat.le_succ k) (versions_iff.mpr ⟨by omega,by omega⟩)
        obtain ⟨j,later,known,result⟩ := ih next (n + 1) (number + 1) (by omega) (by omega) (by omega)
        have same : _ = Schema.reach engine k j db := reach_reach (Nat.le_succ k) later (versions_iff.mp known).2
        rw [same] at result
        exact ⟨j,by omega,known,result⟩
    · unfold Migration.apply
      rw [failed]
      refine ⟨k,Nat.le_refl k,at'.known,.inr ⟨number,step,error,fault,?_⟩⟩
      rw [reach_self]

def noFaults : Nat → Faults := fun _ _ => none

theorem At.opened (at' : At engine k cascade db) (faults : Nat → Faults) :
    ∃ j, k ≤ j ∧ j ∈ versions ∧ (openStore engine faults db).1 = Schema.reach engine k j db ∧
      ((openStore engine faults db).2 = .ok () → j = 10) := by
  unfold openStore attempt
  cases fault : faults 0 0 with
  | some error =>
    refine ⟨k,Nat.le_refl k,at'.known,(reach_self k db).symm,?_⟩
    rintro ⟨⟩
  | none =>
    have low := (versions_iff.mp at'.known).1
    obtain ⟨j,later,known,result⟩ := at'.migrate faults 0 1 (Nat.zero_le 9) low
    rw [List.drop_zero] at result
    refine ⟨j,later,known,?_⟩
    rcases result with ⟨ok,rfl⟩ | ⟨_,_,error,_,failed⟩
    · unfold andThen
      dsimp only
      rw [ok]
      exact ⟨rfl,fun _ => rfl⟩
    · unfold andThen
      dsimp only
      rw [failed]
      exact ⟨rfl,by rintro ⟨⟩⟩

theorem integrity_ok (legal : Legal engine.valid db) : validateSchemaIntegrity engine db = .ok () := by
  unfold validateSchemaIntegrity ensure
  rw [if_pos,if_pos]
  · rfl
  · intro entry member
    exact (legal.fits entry member).refers
  · intro entry member
    exact ⟨(legal.fits entry member).each,(legal.fits entry member).unique⟩

theorem At.meta (at' : At engine k cascade db) (later : k ≤ j) (known : j ∈ versions) :
    validateManifestMeta engine (Schema.reach engine k j db) = validateManifestMeta engine db := by
  have other (key : String) (apart : word key ≠ word "schema_version") :
      manifestMetaValue engine (Schema.reach engine k j db) key = manifestMetaValue engine db key :=
    (at'.setting later known key).trans (if_neg apart)
  have listed (n : Nat) (known : n ∈ versions) := listed_versions known
  unfold validateManifestMeta
  rw [(at'.reach later known).version,at'.version,other "vault_id" (by decide),other "snapshot_counter" (by decide),
    other "chunk_size_bytes" (by decide),other "epoch_buffer_enabled" (by decide)]
  simp only [Bind.bind,Except.bind,ensure,listed j known,listed k at'.known,if_true]

theorem At.opens (at' : At engine k cascade db) :
    openStore engine noFaults db = (Schema.reach engine k 10 db,validateManifestMeta engine db) := by
  have known : (10 : Nat) ∈ versions := versions_iff.mpr ⟨by omega,Nat.le_refl 10⟩
  have bound := versions_iff.mp at'.known
  obtain ⟨j,_,_,result⟩ := at'.migrate noFaults 0 1 (Nat.zero_le 9) bound.1
  rw [List.drop_zero] at result
  rcases result with ⟨ok,rfl⟩ | ⟨_,_,error,fault,_⟩
  · have legal := (at'.reach bound.2 known).legal
    unfold openStore andThen attempt noFaults
    dsimp only
    unfold noFaults at ok
    rw [ok]
    dsimp only
    rw [integrity_ok legal,at'.meta bound.2 known]
    rfl
  · cases fault

def openings (engine : Engine) (attempts : List (Nat → Faults)) (db : Manifest) : Manifest :=
  attempts.foldl (fun db faults => (openStore engine faults db).1) db

theorem At.attempts (at' : At engine k cascade db) (attempts : List (Nat → Faults)) :
    ∃ j, k ≤ j ∧ j ∈ versions ∧ openings engine attempts db = Schema.reach engine k j db := by
  induction attempts generalizing k db with
  | nil => exact ⟨k,Nat.le_refl k,at'.known,(reach_self k db).symm⟩
  | cons faults rest ih =>
    obtain ⟨j,later,known,opened,_⟩ := at'.opened faults
    obtain ⟨l,after,last,result⟩ := ih (at'.reach later known)
    refine ⟨l,Nat.le_trans later after,last,?_⟩
    have same : _ = Schema.reach engine k l db := reach_reach later after (versions_iff.mp last).2
    rw [← same,← result,← opened]
    rfl

section Create
variable {vault : Vault}

def noTables : Manifest := ⟨[],fun _ => []⟩

def seeded (vault : Vault) : Manifest :=
  ⟨canonicalSchema true,Function.update (fun _ => []) .manifestMeta (vault.seeds.map fun seed => metaRow seed.1 seed.2)⟩

theorem autocommit_run {statements : List ManifestStatement}
    (run : statements.foldlM (fun db statement => statement.exec engine.valid db) db = some next) (step : Nat) :
    autocommit engine (fun _ => none) step statements db = (next,.ok ()) := by
  induction statements generalizing db step with
  | nil => exact congrArg (·,Except.ok ()) (Option.some.inj run)
  | cons statement rest ih =>
    rw [List.foldlM_cons] at run
    obtain ⟨middle,first,later⟩ := Option.bind_eq_some_iff.mp run
    rw [autocommit,first]
    exact ih later (step + 1)

theorem created_rows (entries : Schema TableName ColumnName) (db : Manifest) :
    (effects engine.valid (entries.map fun entry => .createTable entry.1 entry.2 false) db).rows = db.rows := by
  induction entries generalizing db with
  | nil => rfl
  | cons entry rest ih => exact ih _

theorem canonical_run : autocommit engine (fun _ => none) 0 canonicalStatements noTables =
    (⟨canonicalSchema true,fun _ => []⟩,.ok ()) := by
  obtain ⟨safe,shape,_⟩ := canonical_checked
  have legal : Legal engine.valid noTables := ⟨List.nodup_nil,fun _ _ => rfl,by simp [noTables]⟩
  have schema : (effects engine.valid canonicalStatements noTables).schema = canonicalSchema true := by
    rw [effects_schema]
    exact shape
  have rows : (effects engine.valid canonicalStatements noTables).rows = fun _ => [] := created_rows _ noTables
  have run := autocommit_run (safe_run legal (by simp) safe).1 0
  generalize effects engine.valid canonicalStatements noTables = result at schema rows run
  obtain ⟨tables,own⟩ := result
  subst schema rows
  exact run

theorem insert_new (absent : (db.rows .manifestMeta).any (fun row => decide (row .key = word key)) = false) (content : Text) :
    insertOrIgnore key content db =
      ⟨db.schema,Function.update db.rows .manifestMeta (db.rows .manifestMeta ++ [metaRow key content])⟩ := by
  apply if_neg
  rw [absent]
  exact Bool.false_ne_true

theorem seed_run {seeds : List (String × Text)} (distinct : seeds.Pairwise fun a b => word a.1 ≠ word b.1)
    (schema : Schema TableName ColumnName) (rows : TableName → List ManifestRow) (own : List ManifestRow)
    (absent : ∀ seed ∈ seeds, ∀ row ∈ own, row .key ≠ word seed.1) (step : Nat) :
    seedManifestMeta (fun _ => none) step seeds ⟨schema,Function.update rows .manifestMeta own⟩ =
      (⟨schema,Function.update rows .manifestMeta (own ++ seeds.map fun seed => metaRow seed.1 seed.2)⟩,.ok ()) := by
  induction seeds generalizing own step with
  | nil => rw [List.map_nil,List.append_nil]; rfl
  | cons seed rest ih =>
    obtain ⟨elsewhere,distinct⟩ := List.pairwise_cons.mp distinct
    rw [List.forall_mem_cons] at absent
    have new : own.any (fun row => decide (row .key = word seed.1)) = false := by
      rw [List.any_eq_false]
      intro row member
      simpa using absent.1 row member
    have inserted : insertOrIgnore seed.1 seed.2 ⟨schema,Function.update rows .manifestMeta own⟩ =
        ⟨schema,Function.update rows .manifestMeta (own ++ [metaRow seed.1 seed.2])⟩ := by
      rw [insert_new]
      · dsimp only
        rw [Function.update_self,Function.update_idem]
      · dsimp only
        rw [Function.update_self]
        exact new
    have later := ih distinct (own ++ [metaRow seed.1 seed.2])
      (by
        intro other there row member
        rcases List.mem_append.mp member with old | last
        · exact absent.2 other there row old
        · rw [List.mem_singleton.mp last]
          exact elsewhere other there)
      (step + 1)
    rw [List.append_assoc] at later
    rw [seedManifestMeta,attempt]
    dsimp only
    rw [inserted]
    exact later

theorem seeds_apart (vault : Vault) : vault.seeds.Pairwise fun a b => word a.1 ≠ word b.1 := by
  have keys : ["schema_version","snapshot_counter","vault_id","chunk_size_bytes","epoch_buffer_enabled"].Pairwise
      fun a b => word a ≠ word b := by decide
  have named : vault.seeds.map Prod.fst =
      ["schema_version","snapshot_counter","vault_id","chunk_size_bytes","epoch_buffer_enabled"] := rfl
  rw [← named,List.pairwise_map] at keys
  exact keys

theorem canonical_names : (names (canonicalSchema true)).Nodup ∧ (names (canonicalSchema true)).contains .manifestMeta = true ∧
    ∀ entry ∈ canonicalSchema true, entry.1 = .manifestMeta → entry.2 = manifestMeta := by
  obtain ⟨_,_,distinct,settings,_,shapes⟩ := canonical_checked
  exact ⟨distinct,settings,fun entry member => (shapes entry member).1⟩

theorem seeded_settings (vault : Vault) :
    (seeded vault).rows .manifestMeta = vault.seeds.map fun seed => metaRow seed.1 seed.2 := by
  unfold seeded
  dsimp only
  rw [Function.update_self]

theorem seeded_empty (vault : Vault) (other : table ≠ .manifestMeta) : (seeded vault).rows table = [] := by
  unfold seeded
  dsimp only
  rw [Function.update_of_ne other]

theorem seeds_fit (vault : Vault) : manifestMeta.Fits engine.valid (seeded vault).rows
    (vault.seeds.map fun seed => metaRow seed.1 seed.2) := by
  refine ⟨?_,by simp [manifestMeta],?_⟩
  · rw [List.forall_mem_map]
    intro seed _
    rfl
  · intro unique there
    rw [List.mem_singleton.mp there,Unique.Holds,List.pairwise_map]
    apply (seeds_apart vault).imp
    intro a b other
    have clear : decide (metaRow a.1 a.2 .key = metaRow b.1 b.2 .key) = false := decide_eq_false other
    simp [Unique.clash,primaryKey,clear]

theorem seeded_at (vault : Vault) : At engine 1 true (seeded vault) where
  known := versions_iff.mpr ⟨Nat.le_refl 1,by omega⟩
  schema := by
    unfold schemaAt
    rw [between_self]
    rfl
  legal := by
    refine ⟨canonical_names.1,?_,?_⟩
    · intro table absent
      apply seeded_empty
      rintro rfl
      exact absent (List.contains_iff_mem.mp canonical_names.2.1)
    · intro entry member
      by_cases settings : entry.1 = .manifestMeta
      · rw [canonical_names.2.2 entry member settings,settings,seeded_settings]
        exact seeds_fit vault
      · rw [seeded_empty vault settings]
        exact fits_empty _ _
  version := by
    have listed : (names (seeded vault).schema).contains .manifestMeta = true := canonical_names.2.1
    unfold manifestMetaValue
    rw [if_pos listed]
    rfl

theorem created (vault : Vault) : createStore engine noFaults vault noTables =
    (Schema.reach engine 1 10 (seeded vault),do
      validateManifestMeta engine (seeded vault)
      validateCreateImmutableMetaMatches engine vault (Schema.reach engine 1 10 (seeded vault))) := by
  have known : (10 : Nat) ∈ versions := versions_iff.mpr ⟨by omega,Nat.le_refl 10⟩
  have start : At engine 1 true (seeded vault) := seeded_at vault
  obtain ⟨j,_,_,result⟩ := start.migrate noFaults 0 1 (Nat.zero_le 9) (Nat.le_refl 1)
  rw [List.drop_zero] at result
  rcases result with ⟨ok,rfl⟩ | ⟨_,_,error,fault,_⟩
  · have legal := (start.reach (by omega) known).legal
    have seeds := seed_run (seeds_apart vault) (canonicalSchema true) (fun _ => []) [] (by simp) 0
    rw [List.nil_append,Function.update_eq_self_iff.mpr rfl] at seeds
    unfold createStore andThen attempt noFaults
    dsimp only
    rw [canonical_run]
    dsimp only
    rw [seeds]
    unfold noFaults seeded at ok
    dsimp only
    rw [ok]
    dsimp only
    change (_,_) = (_,_)
    rw [← seeded,integrity_ok legal,start.meta (by omega) known]
    rfl
  · cases fault

theorem create_existing (at' : At engine k cascade db) (vault : Vault) (faults : Nat → Faults) :
    ∃ error, createStore engine faults vault db = (db,.error error) := by
  unfold createStore andThen attempt
  have refused : (Statement.createTable TableName.nodes nodes false).exec engine.valid db = none := by
    have known : (names (schemaAt k cascade)).contains .nodes = true := nodes_versions at'.known
    rw [← at'.schema] at known
    unfold Statement.exec
    rw [if_neg]
    rintro ⟨formed,_⟩
    have formed : (if (names db.schema).contains .nodes then false else !taken db.schema .nodes) = true := formed
    rw [if_pos known] at formed
    cases formed
  have first : canonicalStatements = .createTable .nodes nodes false :: canonicalStatements.tail := rfl
  dsimp only
  cases fault : faults 0 0 with
  | some error => exact ⟨error,rfl⟩
  | none =>
    dsimp only
    rw [first,autocommit,refused]
    unfold attempt
    cases other : faults 11 0 with
    | some error => exact ⟨error,rfl⟩
    | none => exact ⟨_,rfl⟩

theorem trace_other (table : TableName) (other : table ≠ .manifestMeta) :
    (traceBetween 1 10 true table).all (fun trace => decide (trace.table ≠ .manifestMeta)) = true := by
  revert other
  cases table <;> decide +kernel

theorem created_empty (vault : Vault) (other : table ≠ .manifestMeta) :
    (Schema.reach engine 1 10 (seeded vault)).rows table = [] := by
  have start : At engine 1 true (seeded vault) := seeded_at vault
  rw [start.rows (by omega) (versions_iff.mpr ⟨by omega,Nat.le_refl 10⟩)]
  have elsewhere := trace_other table other
  cases found : traceBetween 1 10 true table with
  | none => rfl
  | some trace =>
    rw [found] at elsewhere
    rw [told,seeded_empty vault (of_decide_eq_true elsewhere)]
    generalize trace.ops = ops
    induction ops with
    | nil => rfl
    | cons op rest ih =>
      have still : op.run engine.valid ([] : List ManifestRow) = [] := by cases op <;> rfl
      rw [List.foldl_cons,still]
      exact ih

theorem find_seed {seeds : List (String × Text)} (distinct : seeds.Pairwise fun a b => word a.1 ≠ word b.1)
    (member : (key,content) ∈ seeds) : (seeds.map fun seed => metaRow seed.1 seed.2).find? (fun row => row .key = word key) =
      some (metaRow key content) := by
  induction seeds with
  | nil => cases member
  | cons seed rest ih =>
    obtain ⟨elsewhere,distinct⟩ := List.pairwise_cons.mp distinct
    rw [List.map_cons]
    rcases List.mem_cons.mp member with rfl | later
    · exact List.find?_cons_of_pos (decide_eq_true rfl)
    · have other : decide (metaRow seed.1 seed.2 .key = word key) = false := decide_eq_false (elsewhere _ later)
      rw [List.find?_cons,other]
      exact ih distinct later

theorem seeded_value (engine : Engine) (vault : Vault) (member : (key,content) ∈ vault.seeds) :
    manifestMetaValue engine (seeded vault) key = .ok content := by
  have listed : (names (seeded vault).schema).contains .manifestMeta = true := canonical_names.2.1
  unfold manifestMetaValue
  rw [if_pos listed,seeded_settings,find_seed (seeds_apart vault) member]
  rfl

theorem seeded_valid (vault : Vault) : validateManifestMeta engine (seeded vault) = .ok () ↔
    engine.parsesUuid vault.vaultId = true ∧ ∃ chunkSize, parseChunkSizeBytes vault.chunkSizeBytes = .ok chunkSize := by
  have value {key : String} {content : Text} (member : (key,content) ∈ vault.seeds) := seeded_value engine vault member
  have vaultId : manifestMetaValue engine (seeded vault) "vault_id" = .ok vault.vaultId := value (by simp [Vault.seeds])
  have snapshotCounter : manifestMetaValue engine (seeded vault) "snapshot_counter" = .ok ['0'] :=
    value (by simp [Vault.seeds])
  have chunkSize : manifestMetaValue engine (seeded vault) "chunk_size_bytes" = .ok vault.chunkSizeBytes :=
    value (by simp [Vault.seeds])
  have epochBufferEnabled : manifestMetaValue engine (seeded vault) "epoch_buffer_enabled" = .ok vault.flag :=
    value (by simp [Vault.seeds])
  have start : At engine 1 true (seeded vault) := seeded_at vault
  have version := start.version
  have listed := listed_versions (versions_iff.mpr ⟨Nat.le_refl 1,by omega⟩)
  have counter : (Library.Template.parseUsize ['0']).isSome = true := by decide
  have flag : "true".toList = vault.flag ∨ "false".toList = vault.flag := by
    unfold Vault.flag
    cases vault.epochBufferEnabled
    · exact .inr rfl
    · exact .inl rfl
  unfold validateManifestMeta
  rw [version,vaultId,snapshotCounter,chunkSize,epochBufferEnabled]
  simp only [Bind.bind,Except.bind,ensure,listed,counter,flag,if_true]
  by_cases uuid : engine.parsesUuid vault.vaultId = true
  · cases parseChunkSizeBytes vault.chunkSizeBytes <;> simp [uuid]
  · simp [uuid]

end Create

def plainEngine : Engine where
  valid := fun _ => true
  refusal := fun _ => .database "SQL logic error"
  unreadable := .database "no such table: manifest_meta"
  parsesUuid := fun _ => true
  report := fun _ => "ok"

def plainVault : Vault := ⟨"6e".toList,"4194304".toList,false⟩

theorem attempt_refused {rest : Unit → Except StorageError Manifest} {faults : Faults}
    (refused : ∃ error, rest () = .error error) (step : Nat) : ∃ error, (attempt faults step >>= rest) = .error error := by
  unfold attempt
  cases faults step with
  | none => exact refused
  | some error => exact ⟨error,rfl⟩

-- A version that no migration knows, on tables of version 2 or later: the first
-- migration is refused, and nothing changes.
theorem open_unknown (later : (names db.schema).contains .epochBlobs = true)
    (version : manifestMetaValue engine db "schema_version" = .ok found)
    (unknown : applyEpochV2Migration.done.any (fun known => known.toList = found) = false) (faults : Nat → Faults) :
    ∃ error, openStore engine faults db = (db,.error error) := by
  have refused : (Statement.createTable TableName.epochBlobs epochBlobs false).exec engine.valid db = none := by
    unfold Statement.exec
    rw [if_neg]
    rintro ⟨formed,_⟩
    have formed : (if (names db.schema).contains .epochBlobs then false else !taken db.schema .epochBlobs) = true := formed
    rw [if_pos later] at formed
    cases formed
  have first : applyEpochV2Migration.statements =
      .createTable .epochBlobs epochBlobs false :: applyEpochV2Migration.statements.tail := rfl
  have batch : ∃ error, executeBatch engine (faults 1) 2 applyEpochV2Migration.statements db = .error error := by
    rw [first,executeBatch,refused]
    exact attempt_refused ⟨_,rfl⟩ 2
  have stops : ∃ error, applyEpochV2Migration.body engine (faults 1) db = .error error := by
    unfold Migration.body
    apply attempt_refused
    apply attempt_refused
    rw [version]
    change ∃ error, (if (applyEpochV2Migration.done.any fun known => known.toList = found) = true then _ else _) = _
    rw [unknown,if_neg Bool.false_ne_true]
    obtain ⟨error,failed⟩ := batch
    rw [failed]
    exact ⟨error,rfl⟩
  obtain ⟨error,failed⟩ := stops
  have chain : migrations = applyEpochV2Migration :: migrations.tail := rfl
  unfold openStore andThen attempt
  dsimp only
  cases faults 0 0 with
  | some error => exact ⟨error,rfl⟩
  | none =>
    dsimp only
    rw [chain,migrate,Migration.apply,failed]
    exact ⟨error,rfl⟩

def eleven : Manifest :=
  ⟨schemaAt 10 true,Function.update (fun _ => []) .manifestMeta [metaRow "schema_version" ['1','1']]⟩

theorem open_eleven : ∃ error, openStore plainEngine noFaults eleven = (eleven,.error error) :=
  open_unknown (by decide +kernel) rfl (by decide) noFaults

-- A vault is created once: it holds its settings and nothing else, opening it changes
-- nothing, and creating it again is refused.
theorem create_once (engine : Engine) (vault : Vault) : ∃ final,
    (createStore engine noFaults vault noTables).1 = final ∧ At engine 10 true final ∧
      ((createStore engine noFaults vault noTables).2 = .ok () ↔ engine.parsesUuid vault.vaultId = true ∧
        ∃ chunkSize, parseChunkSizeBytes vault.chunkSizeBytes = .ok chunkSize) ∧
      (∀ table ≠ .manifestMeta, final.rows table = []) ∧
      (∀ seed ∈ vault.seeds.tail, manifestMetaValue engine final seed.1 = .ok seed.2) ∧
      (∀ faults, (openStore engine faults final).1 = final) ∧
      ∀ other faults, ∃ error, createStore engine faults other final = (final,.error error) := by
  have known : (10 : Nat) ∈ versions := versions_iff.mpr ⟨by omega,Nat.le_refl 10⟩
  have start : At engine 1 true (seeded vault) := seeded_at vault
  have last := start.reach (by omega) known
  have settings : ∀ seed ∈ vault.seeds.tail, manifestMetaValue engine (Schema.reach engine 1 10 (seeded vault)) seed.1 =
      .ok seed.2 := by
    intro seed member
    have apart := (List.pairwise_cons.mp (seeds_apart vault)).1 seed member
    rw [start.setting (by omega) known,if_neg (Ne.symm apart)]
    exact seeded_value engine vault (List.mem_of_mem_tail member)
  have matches' : validateCreateImmutableMetaMatches engine vault (Schema.reach engine 1 10 (seeded vault)) = .ok () := by
    have vaultId := settings ("vault_id",vault.vaultId) (by simp [Vault.seeds])
    have chunkSize := settings ("chunk_size_bytes",vault.chunkSizeBytes) (by simp [Vault.seeds])
    have flag := settings ("epoch_buffer_enabled",vault.flag) (by simp [Vault.seeds])
    dsimp only at vaultId chunkSize flag
    unfold validateCreateImmutableMetaMatches validateImmutableMeta ensure
    rw [vaultId,chunkSize,flag]
    simp [Bind.bind,Except.bind]
  refine ⟨_,rfl,?_⟩
  rw [created]
  refine ⟨last,?_,?_,settings,?_,create_existing last⟩
  · rw [← seeded_valid,matches']
    cases validateManifestMeta engine (seeded vault) <;> simp [Bind.bind,Except.bind]
  · exact fun table other => created_empty vault other
  · intro faults
    obtain ⟨j,later,among,result,_⟩ := last.opened faults
    have same : j = 10 := Nat.le_antisymm (versions_iff.mp among).2 later
    rw [result,same,reach_self]

-- What is opened keeps its rows, comes to the schema of a new vault, and can be opened
-- again however often opening failed before.
theorem open_migrates (at' : At engine k cascade db) :
    (∃ final, openStore engine noFaults db = (final,validateManifestMeta engine db) ∧ At engine 10 cascade final ∧
      Kept k 10 db final ∧ (∀ vault, final.schema = (createStore engine noFaults vault noTables).1.schema) ∧
      ∀ attempts, ∃ j, k ≤ j ∧ j ≤ 10 ∧ At engine j cascade (openings engine attempts db) ∧
        Kept k j db (openings engine attempts db) ∧
        openStore engine noFaults (openings engine attempts db) = (final,validateManifestMeta engine db)) ∧
    (k = 10 → ∀ faults, (openStore engine faults db).1 = db) := by
  have known : (10 : Nat) ∈ versions := versions_iff.mpr ⟨by omega,Nat.le_refl 10⟩
  have bound := versions_iff.mp at'.known
  refine ⟨⟨Schema.reach engine k 10 db,at'.opens,at'.reach bound.2 known,at'.kept bound.2 known,?_,?_⟩,?_⟩
  · intro vault
    have new : At engine 10 true (Schema.reach engine 1 10 (seeded vault)) := (seeded_at vault).reach (by omega) known
    rw [created,(at'.reach bound.2 known).schema,new.schema]
    exact final_schema cascade
  · intro attempts
    obtain ⟨j,later,among,result⟩ := at'.attempts attempts
    have there := at'.reach later among
    rw [result]
    refine ⟨j,later,(versions_iff.mp among).2,there,at'.kept later among,?_⟩
    rw [there.opens,reach_reach later (versions_iff.mp among).2 (Nat.le_refl 10),at'.meta later among]
  · rintro rfl faults
    obtain ⟨j,later,among,result,_⟩ := at'.opened faults
    have same : j = 10 := Nat.le_antisymm (versions_iff.mp among).2 later
    rw [result,same,reach_self]

theorem seeded_plain : At plainEngine 1 true (seeded plainVault) := seeded_at plainVault

def ownRow (cells : List (ColumnName × Value)) : ManifestRow :=
  fun column => ((cells.find? (·.1 = column)).map Prod.snd).getD .null

-- A vault at version 4: a file with a chunk, shared with a contact, and two deletions
-- queued.
def lived : Manifest := ⟨schemaAt 4 false,fun
  | .manifestMeta => metaRow "schema_version" ['4'] :: plainVault.seeds.tail.map fun seed => metaRow seed.1 seed.2
  | .nodes =>
    [ownRow [(.nodeId,word "r"),(.nodeType,word "directory"),(.name,word "/"),(.createdAt,.integer 0),
      (.modifiedAt,.integer 0),(.sizeBytes,.integer 0)],
     ownRow [(.nodeId,word "f"),(.parentId,word "r"),(.nodeType,word "file"),(.name,word "a"),(.createdAt,.integer 1),
      (.modifiedAt,.integer 1),(.sizeBytes,.integer 5),(.fileKeyWrapped,.blob [7])]]
  | .chunks => [ownRow [(.chunkId,word "c"),(.nodeId,word "f"),(.chunkIndex,.integer 0),(.blobName,word "b"),
      (.sizePadded,.integer 131072),(.blake3Checksum,.blob [1])]]
  | .contacts => [ownRow [(.contactId,word "k"),(.displayName,word "K"),(.publicKey,.blob [2]),(.createdAt,.integer 2)]]
  | .shares => [ownRow [(.shareId,word "s"),(.fileId,word "f"),(.contactId,word "k"),(.fileShareId,word "g"),
      (.cloudPath,word "shared/g"),(.createdAt,.integer 3),(.receiptRequested,.integer 0)]]
  | .pendingDeletions =>
    [ownRow [(.blobName,word "x"),(.queuedAt,.integer 4)],ownRow [(.blobName,word "y"),(.queuedAt,.integer 4)]]
  | _ => []⟩

theorem lived_at : At plainEngine 4 false lived where
  known := versions_iff.mpr ⟨by omega,by omega⟩
  schema := rfl
  legal := by
    refine ⟨by decide +kernel,?_,by decide +kernel⟩
    intro table
    cases table <;> decide +kernel
  version := by decide +kernel

theorem open_migrates_lived : ∃ final, openStore plainEngine noFaults lived = (final,.ok ()) ∧ At plainEngine 10 false final ∧
    Kept 4 10 lived final := by
  obtain ⟨⟨final,opened,last,kept,_⟩,_⟩ := open_migrates lived_at
  have valid : validateManifestMeta plainEngine lived = .ok () := by decide +kernel
  rw [valid] at opened
  exact ⟨final,opened,last,kept⟩

def namelessRow : ManifestRow
  | .queuedAt => .integer 0
  | _ => .null

def nameless : Manifest :=
  ⟨canonicalSchema true,Function.update (seeded plainVault).rows .pendingDeletions [namelessRow]⟩

theorem nameless_at : At plainEngine 1 true nameless where
  known := versions_iff.mpr ⟨Nat.le_refl 1,by omega⟩
  schema := seeded_plain.schema
  legal := by
    have start := seeded_plain.legal
    have others : ∀ table ≠ .pendingDeletions, nameless.rows table = (seeded plainVault).rows table :=
      fun table other => Function.update_of_ne other _ _
    obtain ⟨_,_,_,_,queue,shapes⟩ := canonical_checked
    refine ⟨start.distinct,?_,?_⟩
    · intro table absent
      rw [others table]
      · exact start.absent table absent
      · rintro rfl
        exact absent queue
    · intro entry member
      by_cases deleted : entry.1 = .pendingDeletions
      · have rows : nameless.rows .pendingDeletions = [namelessRow] := rfl
        rw [(shapes entry member).2 deleted,deleted,rows]
        refine ⟨?_,by simp [pendingDeletions],fun _ _ => List.pairwise_singleton _ _⟩
        rw [List.forall_mem_singleton]
        rfl
      · rw [others entry.1 deleted]
        apply fits_mono _ (start.fits entry member)
        intro reference _ row inside
        by_cases parent : reference.parent = .pendingDeletions
        · rw [parent,seeded_empty plainVault (by decide)] at inside
          cases inside
        · rwa [others reference.parent parent]
  version := seeded_plain.version

theorem nameless_lost : At plainEngine 1 true nameless ∧ (nameless.rows .pendingDeletions).length = 1 ∧
    (openStore plainEngine noFaults nameless).1.rows .pendingDeletions = [] := by
  refine ⟨nameless_at,rfl,?_⟩
  have known : (10 : Nat) ∈ versions := versions_iff.mpr ⟨by omega,Nat.le_refl 10⟩
  rw [nameless_at.opens]
  dsimp only
  rw [nameless_at.rows (by omega) known,deleted_versions nameless_at.known known (by omega),if_pos (by omega)]
  rfl

end ArxRuna.Store.Schema
