import ArxRuna.Library.Sql
namespace ArxRuna.Library.Sql
variable {T C : Type} {valid : Value → Bool}

-- What is known of a column without looking at the rows.
inductive Known where
  | value (v : Value)
  | filled
  | unknown
  deriving DecidableEq

def Known.Describes : Known → Value → Prop
  | .value v,found => found = v
  | .filled,found => found ≠ .null
  | .unknown,_ => True

def Condition.proved (known : C → Known) : Condition C → Bool
  | .isNull column => known column = .value .null
  | .notNull column => match known column with
    | .value v => v ≠ .null
    | .filled => true
    | .unknown => false
  | .isIn column values => match known column with
    | .value v => v ≠ .null && values.any (v = ·)
    | .filled => false
    | .unknown => false
  | .valid _ => false
  | .both a b => a.proved known && b.proved known
  | .either a b => a.proved known || b.proved known

theorem either_left (other : Option Bool) : either3 (some true) other = some true := by
  cases other with
  | none => rfl
  | some b => cases b <;> rfl

theorem either_right (other : Option Bool) : either3 other (some true) = some true := by
  cases other with
  | none => rfl
  | some b => cases b <;> rfl

theorem proved_eval {known : C → Known} {row : Row C} (describes : ∀ column, (known column).Describes (row column))
    {condition : Condition C} (proved : condition.proved known = true) : condition.eval valid row = some true := by
  induction condition with
  | isNull column =>
    have here := describes column
    rw [of_decide_eq_true proved] at here
    simpa [Condition.eval,Known.Describes] using here
  | notNull column =>
    have here := describes column
    cases found : known column with
    | value v => simp_all [Condition.eval,Condition.proved,Known.Describes]
    | filled => simp_all [Condition.eval,Known.Describes]
    | unknown => simp [Condition.proved,found] at proved
  | isIn column values =>
    have here := describes column
    cases found : known column with
    | value v => simp_all [Condition.eval,Condition.proved,Known.Describes]
    | filled => simp [Condition.proved,found] at proved
    | unknown => simp [Condition.proved,found] at proved
  | valid column => cases proved
  | both a b first second =>
    obtain ⟨left,right⟩ := Bool.and_eq_true_iff.mp proved
    rw [Condition.eval,first left,second right]
    rfl
  | either a b first second =>
    rw [Condition.eval]
    rcases Bool.or_eq_true_iff.mp proved with left | right
    · rw [first left,either_left]
    · rw [second right,either_right]

theorem eval_congr {row row' : Row C} {condition : Condition C} (same : ∀ column ∈ condition.columns, row column = row' column) :
    condition.eval valid row = condition.eval valid row' := by
  induction condition with
  | both a b first second =>
    rw [Condition.eval,Condition.eval,first fun column member => same column (List.mem_append_left _ member),
      second fun column member => same column (List.mem_append_right _ member)]
  | either a b first second =>
    rw [Condition.eval,Condition.eval,first fun column member => same column (List.mem_append_left _ member),
      second fun column member => same column (List.mem_append_right _ member)]
  | _ column => simp_all [Condition.eval,Condition.columns]

theorem holds_mono {rows rows' : T → List (Row C)} {reference : Reference T C} {row : Row C}
    (more : ∀ parent ∈ rows reference.parent, ∃ other ∈ rows' reference.parent, other reference.key = parent reference.key)
    (holds : reference.holds rows row = true) : reference.holds rows' row = true := by
  unfold Reference.holds at holds ⊢
  rw [Bool.or_eq_true_iff] at holds ⊢
  apply holds.imp_right
  intro found
  obtain ⟨parent,there,key⟩ := List.any_eq_true.mp found
  obtain ⟨other,here,same⟩ := more parent there
  rw [List.any_eq_true]
  exact ⟨other,here,by rw [same]; exact key⟩

theorem fits_mono {rows rows' : T → List (Row C)} {shape : Shape T C} {own : List (Row C)}
    (more : ∀ reference ∈ shape.references, rows reference.parent ⊆ rows' reference.parent)
    (fits : shape.Fits valid rows own) : shape.Fits valid rows' own := by
  refine ⟨fits.each,?_,fits.unique⟩
  intro row member reference there
  apply holds_mono _ (fits.refers row member reference there)
  intro parent inside
  exact ⟨parent,more reference there inside,rfl⟩

theorem fits_empty (rows : T → List (Row C)) (shape : Shape T C) : shape.Fits valid rows [] :=
  ⟨by simp,by simp,fun _ _ => List.Pairwise.nil⟩

section Changes
variable [DecidableEq C]

def Shape.free (shape : Shape T C) (column : C) : Bool :=
  shape.checks.all (fun check => !check.columns.contains column) &&
    shape.uniques.all (fun unique => !unique.columns.contains column &&
      unique.among.all fun condition => !condition.columns.contains column) &&
    shape.references.all fun reference => reference.column ≠ column

def keyed [DecidableEq T] (schema : Schema T C) (table : T) (column : C) : Bool :=
  schema.any fun entry => entry.2.references.any fun reference => reference.parent = table && reference.key = column

variable {change : Row C → Row C} {column : C} (apart : ∀ row, ∀ other ≠ column, change row other = row other)
  {shape : Shape T C} {rows : T → List (Row C)}
include apart

theorem eval_change {condition : Condition C} (clear : condition.columns.contains column = false) (row : Row C) :
    condition.eval valid (change row) = condition.eval valid row := by
  apply eval_congr
  intro other member
  apply apart
  rintro rfl
  simp [member] at clear

theorem clash_change {unique : Unique T C} (clear : unique.columns.contains column = false)
    (among : unique.among.all (fun condition => !condition.columns.contains column) = true) (a b : Row C) :
    unique.clash valid (change a) (change b) = unique.clash valid a b := by
  have chosen : ∀ row, unique.chosen valid (change row) = unique.chosen valid row := by
    intro row
    unfold Unique.chosen
    cases partial' : unique.among with
    | none => rfl
    | some condition =>
      rw [partial'] at among
      have clear : condition.columns.contains column = false := by simpa using among
      simp [eval_change apart clear]
  have columns : unique.columns.all (fun other => change a other ≠ .null && change a other = change b other) =
      unique.columns.all (fun other => a other ≠ .null && a other = b other) := by
    rw [Bool.eq_iff_iff,List.all_eq_true,List.all_eq_true]
    apply forall₂_congr
    intro other member
    have named : other ≠ column := by
      rintro rfl
      simp [member] at clear
    rw [apart a other named,apart b other named]
  unfold Unique.clash
  rw [columns,chosen,chosen]

-- A change in a column that nothing names keeps a table legal.
theorem fits_change {shape' : Shape T C} (free : shape.free column = true) (uniques' : shape'.uniques = shape.uniques)
    (references' : shape'.references = shape.references)
    (kept : ∀ row, shape.rowFits valid row = true → shape'.rowFits valid (change row) = true) {own : List (Row C)}
    (fits : shape.Fits valid rows own) : shape'.Fits valid rows (own.map change) := by
  unfold Shape.free at free
  simp only [Bool.and_eq_true,List.all_eq_true] at free
  obtain ⟨⟨_,uniques⟩,references⟩ := free
  refine ⟨?_,?_,?_⟩
  · rw [List.forall_mem_map]
    intro row member
    exact kept row (fits.each row member)
  · rw [List.forall_mem_map,references']
    intro row member reference there
    have named := of_decide_eq_true (references reference there)
    have same := fits.refers row member reference there
    unfold Reference.holds at same ⊢
    rwa [apart row reference.column named]
  · rw [uniques']
    intro unique there
    unfold Unique.Holds
    rw [List.pairwise_map]
    obtain ⟨clear,among⟩ := uniques unique there
    have clear : unique.columns.contains column = false := by simpa using clear
    apply (fits.unique unique there).imp
    intro a b apart'
    rwa [clash_change apart clear among]

omit apart in
theorem eval_update {condition : Condition C} (clear : condition.columns.contains column = false) (row : Row C) (value : Value) :
    condition.eval valid (Function.update row column value) = condition.eval valid row := by
  apply eval_congr
  intro other member
  apply Function.update_of_ne
  rintro rfl
  simp [member] at clear

omit [DecidableEq C] in
theorem holds_change [DecidableEq T] {table : T} {reference : Reference T C} {row : Row C}
    (other : reference.parent = table → reference.key ≠ column) (holds : reference.holds rows row = true) :
    reference.holds (Function.update rows table ((rows table).map change)) row = true := by
  apply holds_mono _ holds
  intro parent inside
  by_cases same : reference.parent = table
  · refine ⟨change parent,?_,apart parent reference.key (other same)⟩
    rw [same,Function.update_self]
    exact List.mem_map_of_mem (same ▸ inside)
  · refine ⟨parent,?_,rfl⟩
    rwa [Function.update_of_ne same]

end Changes

section Copies
variable [DecidableEq C] {source target : Shape T C} {pairs : List (C × C)}

def knownOf (source target : Shape T C) (pairs : List (C × C)) (column : C) : Known :=
  match origin pairs column with
  | some from' => if source.columns.any (fun other => other.name = from' && other.notNull) then .filled else .unknown
  | none => .value (standard target column)

-- What makes every legal row of one table a legal row of another: what is asked of
-- a column is known of it, or is asked of the column it is copied from.
def carries [DecidableEq T] (source target : Shape T C) (pairs : List (C × C)) : Bool :=
  target.columns.all (fun column =>
      !column.notNull || (Condition.notNull column.name).proved (knownOf source target pairs)) &&
    target.checks.all (fun check => check.proved (knownOf source target pairs) ||
      source.checks.contains check && check.columns.all fun column => origin pairs column = some column) &&
    target.uniques.all (fun unique => unique.columns.all (fun column => origin pairs column = some column) &&
      source.uniques.any fun other => other.among = none && other.columns.all unique.columns.contains) &&
    target.references.all fun reference => match origin pairs reference.column with
      | none => standard target reference.column = .null
      | some from' => from' = reference.column && source.references.any fun other =>
        other.column = reference.column && other.parent = reference.parent && other.key = reference.key

theorem image_copied (copied : origin pairs column = some from') (row : Row C) :
    image target pairs row column = row from' := by
  unfold image
  rw [copied]

theorem image_standard (absent : origin pairs column = none) (row : Row C) :
    image target pairs row column = standard target column := by
  unfold image
  rw [absent]

theorem known_describes {row : Row C} (fits : source.rowFits valid row = true) (column : C) :
    (knownOf source target pairs column).Describes (image target pairs row column) := by
  unfold knownOf
  cases copied : origin pairs column with
  | none => exact image_standard copied row
  | some from' =>
    rw [image_copied copied]
    dsimp only
    split
    · rename_i some'
      obtain ⟨other,there,named⟩ := List.any_eq_true.mp some'
      obtain ⟨name,filled⟩ := Bool.and_eq_true_iff.mp named
      have each := List.all_eq_true.mp (Bool.and_eq_true_iff.mp fits).1 other there
      rw [filled,of_decide_eq_true name] at each
      simpa [Known.Describes] using each
    · trivial

variable [DecidableEq T]

theorem image_fits {row : Row C} (carried : carries source target pairs = true) (fits : source.rowFits valid row = true) :
    target.rowFits valid (image target pairs row) = true := by
  unfold carries at carried
  simp only [Bool.and_eq_true,List.all_eq_true] at carried
  obtain ⟨⟨⟨columns,checks⟩,_⟩,_⟩ := carried
  have describes : ∀ column, (knownOf source target pairs column).Describes _ := known_describes fits
  unfold Shape.rowFits
  rw [Bool.and_eq_true_iff,List.all_eq_true,List.all_eq_true]
  constructor
  · intro column member
    rcases Bool.or_eq_true_iff.mp (columns column member) with free | filled
    · rw [free]
      rfl
    · have stays : (Condition.notNull column.name).eval valid (image target pairs row) = some true :=
        proved_eval describes filled
      rw [Bool.or_eq_true_iff]
      exact .inr (Option.some.inj stays)
  · intro check member
    rcases Bool.or_eq_true_iff.mp (checks check member) with proved | copied
    · rw [proved_eval describes proved]
      rfl
    · obtain ⟨asked,same⟩ := Bool.and_eq_true_iff.mp copied
      have before := List.all_eq_true.mp (Bool.and_eq_true_iff.mp fits).2 check (List.contains_iff_mem.mp asked)
      have equal : check.eval valid (image target pairs row) = check.eval valid row := by
        apply eval_congr
        intro column inside
        exact image_copied (of_decide_eq_true (List.all_eq_true.mp same column inside)) row
      rwa [equal]

theorem image_refers {rows : T → List (Row C)} {row : Row C} (carried : carries source target pairs = true)
    (refers : ∀ reference ∈ source.references, reference.holds rows row = true) :
    ∀ reference ∈ target.references, reference.holds rows (image target pairs row) = true := by
  unfold carries at carried
  simp only [Bool.and_eq_true,List.all_eq_true] at carried
  intro reference there
  have asked := carried.2 reference there
  unfold Reference.holds
  cases copied : origin pairs reference.column with
  | none =>
    rw [copied] at asked
    rw [image_standard copied,of_decide_eq_true asked]
    rfl
  | some from' =>
    rw [copied] at asked
    obtain ⟨same,found⟩ := Bool.and_eq_true_iff.mp asked
    obtain ⟨other,inside,equal⟩ := List.any_eq_true.mp found
    simp only [Bool.and_eq_true,decide_eq_true_eq] at equal same
    obtain ⟨⟨column,parent⟩,key⟩ := equal
    have before := refers other inside
    unfold Reference.holds at before
    rw [column,parent,key] at before
    rw [image_copied copied,same]
    exact before

theorem image_unique {own : List (Row C)} (carried : carries source target pairs = true)
    (uniques : ∀ unique ∈ source.uniques, unique.Holds valid own) :
    ∀ unique ∈ target.uniques, unique.Holds valid (own.map (image target pairs)) := by
  unfold carries at carried
  simp only [Bool.and_eq_true,List.all_eq_true] at carried
  intro unique there
  obtain ⟨copied,found⟩ := carried.1.2 unique there
  obtain ⟨other,inside,whole⟩ := List.any_eq_true.mp found
  simp only [Bool.and_eq_true,decide_eq_true_eq,List.all_eq_true] at whole
  unfold Unique.Holds
  rw [List.pairwise_map]
  apply (uniques other inside).imp
  intro a b apart
  rw [← Bool.not_eq_true] at apart ⊢
  intro clash
  apply apart
  unfold Unique.clash Unique.chosen at clash ⊢
  rw [Bool.and_eq_true_iff,List.all_eq_true] at clash ⊢
  refine ⟨?_,?_⟩
  · intro column member
    have key := List.contains_iff_mem.mp (whole.2 column member)
    have equal := clash.1 column key
    rwa [image_copied (of_decide_eq_true (copied column key)),image_copied (of_decide_eq_true (copied column key))] at equal
  · rw [whole.1]
    rfl

theorem carries_fits {rows : T → List (Row C)} {own : List (Row C)} (carried : carries source target pairs = true)
    (fits : source.Fits valid rows own) : target.Fits valid rows (own.map (image target pairs)) := by
  refine ⟨?_,?_,image_unique carried fits.unique⟩
  · rw [List.forall_mem_map]
    intro row member
    exact image_fits carried (fits.each row member)
  · rw [List.forall_mem_map]
    intro row member
    exact image_refers carried (fits.refers row member)

end Copies

section Steps
variable [DecidableEq T] [DecidableEq C] {db : Database T C} {table name : T}

-- A statement that a legal database cannot refuse. The fresh tables are empty.
def Statement.safe (schema : Schema T C) (fresh : List T) (statement : Statement T C) : Bool :=
  statement.wellFormed schema && match statement with
    | .createTable _ _ _ => true
    | .createUniqueIndex _ table _ _ => fresh.contains table
    | .insertSelect target into selected source => fresh.contains target &&
      carries (shapeOf schema source) (shapeOf schema target) (pairsOf (shapeOf schema target) into selected)
    | .dropTable _ => true
    | .renameTable table name => !referenced schema table && !referenced schema name
    | .addColumn table column => (shapeOf schema table).free column.name && !keyed schema table column.name
    | .deleteWhere _ _ => true
    | .updateWhere table column value _ => (shapeOf schema table).free column &&
      (shapeOf schema table).columns.all fun other => other.name ≠ column || !other.notNull || value ≠ .null

def Statement.freshAfter (schema : Schema T C) (fresh : List T) : Statement T C → List T
  | .createTable table _ _ => if (names schema).contains table then fresh else table :: fresh
  | .insertSelect target _ _ _ => fresh.filter (· ≠ target)
  | .renameTable _ name => fresh.filter (· ≠ name)
  | _ => fresh

omit [DecidableEq C] in
theorem shape_of {schema : Schema T C} (distinct : (names schema).Nodup) {entry : T × Shape T C} (member : entry ∈ schema) :
    shapeOf schema entry.1 = entry.2 := by
  have found : schema.find? (·.1 = entry.1) = some entry := by
    induction schema with
    | nil => cases member
    | cons first rest ih =>
      obtain ⟨elsewhere,distinct⟩ := List.nodup_cons.mp distinct
      rcases List.mem_cons.mp member with rfl | later
      · simp
      · have other : first.1 ≠ entry.1 := by
          intro same
          apply elsewhere
          rw [same]
          exact List.mem_map_of_mem later
        rw [List.find?_cons_of_neg (by simpa using other)]
        exact ih distinct later
  unfold shapeOf
  rw [found]
  rfl

omit [DecidableEq C] in
theorem shape_member {schema : Schema T C} (listed : (names schema).contains table = true) :
    (table,shapeOf schema table) ∈ schema := by
  have listed := List.contains_iff_mem.mp listed
  obtain ⟨entry,member,rfl⟩ := List.mem_map.mp listed
  cases found : schema.find? (·.1 = entry.1) with
  | none => simpa using List.find?_eq_none.mp found entry member
  | some other =>
    have there := List.mem_of_find?_eq_some found
    have same : other.1 = entry.1 := by simpa using List.find?_some found
    unfold shapeOf
    rw [found,← same]
    exact there

omit [DecidableEq C] in
theorem names_alter (schema : Schema T C) (change : Shape T C → Shape T C) : names (alter schema table change) = names schema := by
  unfold names alter
  rw [List.map_map]
  apply List.map_congr_left
  intro entry _
  dsimp only [Function.comp_apply]
  split <;> rfl

theorem create_legal (legal : Legal valid db) {shape : Shape T C} {ifNotExists : Bool} :
    Legal valid ((Statement.createTable table shape ifNotExists).effect valid db) := by
  unfold Statement.effect Statement.schemaAfter Statement.rowsAfter
  dsimp only
  by_cases exists' : (names db.schema).contains table = true
  · rw [if_pos exists']
    exact ⟨legal.distinct,legal.absent,legal.fits⟩
  · have missing : table ∉ names db.schema := fun member => exists' (List.contains_iff_mem.mpr member)
    rw [if_neg exists']
    refine ⟨?_,?_,?_⟩
    · unfold names
      rw [List.map_append,List.nodup_append]
      refine ⟨legal.distinct,by simp,?_⟩
      intro other there last found same
      rw [same,List.mem_singleton.mp found] at there
      exact missing there
    · intro other absent
      apply legal.absent
      intro member
      apply absent
      unfold names
      rw [List.map_append]
      exact List.mem_append_left _ member
    · intro entry member
      rcases List.mem_append.mp member with old | new
      · exact legal.fits entry old
      · rw [List.mem_singleton.mp new]
        dsimp only
        rw [legal.absent table missing]
        exact fits_empty _ _

theorem index_legal (legal : Legal valid db) (empty : db.rows table = []) {columns : List C} {among : Option (Condition C)} :
    Legal valid ((Statement.createUniqueIndex index table columns among).effect valid db) := by
  unfold Statement.effect Statement.schemaAfter Statement.rowsAfter
  dsimp only
  refine ⟨?_,?_,?_⟩
  · rw [names_alter]
    exact legal.distinct
  · intro other
    rw [names_alter]
    exact legal.absent other
  · intro entry member
    obtain ⟨old,there,rfl⟩ := List.mem_map.mp member
    by_cases same : old.1 = table
    · rw [if_pos same]
      dsimp only
      rw [same,empty]
      exact fits_empty _ _
    · rw [if_neg same]
      exact legal.fits old there

theorem insert_legal (legal : Legal valid db) {target source : T} {into : Option (List C)} {selected : List C}
    (empty : db.rows target = []) (listed : (names db.schema).contains target = true)
    (from' : (names db.schema).contains source = true)
    (carried : carries (shapeOf db.schema source) (shapeOf db.schema target)
      (pairsOf (shapeOf db.schema target) into selected) = true) :
    Legal valid ((Statement.insertSelect target into selected source).effect valid db) := by
  unfold Statement.effect Statement.schemaAfter Statement.rowsAfter
  dsimp only
  rw [empty,List.nil_append]
  have more : ∀ parent, db.rows parent ⊆ Function.update db.rows target ((db.rows source).map
      (image (shapeOf db.schema target) (pairsOf (shapeOf db.schema target) into selected))) parent := by
    intro parent
    by_cases same : parent = target
    · rw [same,empty]
      exact List.nil_subset _
    · rw [Function.update_of_ne same]
      exact List.Subset.refl _
  refine ⟨legal.distinct,?_,?_⟩
  · intro other absent
    have apart : other ≠ target := by
      rintro rfl
      exact absent (List.contains_iff_mem.mp listed)
    dsimp only
    rw [Function.update_of_ne apart]
    exact legal.absent other absent
  · intro entry member
    dsimp only at member ⊢
    apply fits_mono fun reference _ => more reference.parent
    by_cases same : entry.1 = target
    · rw [same,Function.update_self,← shape_of legal.distinct member,same]
      exact carries_fits carried (legal.fits _ (shape_member from'))
    · rw [Function.update_of_ne same]
      exact legal.fits entry member

omit [DecidableEq C] in
theorem not_referenced {schema : Schema T C} (free : referenced schema table = false) {entry : T × Shape T C} (member : entry ∈ schema) :
    ∀ reference ∈ entry.2.references, reference.parent ≠ table := by
  intro reference there same
  have some' : referenced schema table = true := by
    unfold referenced
    rw [List.any_eq_true]
    refine ⟨entry,member,?_⟩
    rw [List.any_eq_true]
    exact ⟨reference,there,decide_eq_true same⟩
  rw [free] at some'
  cases some'

theorem drop_legal (legal : Legal valid db) (free : referenced db.schema table = false) :
    Legal valid ((Statement.dropTable table).effect valid db) := by
  unfold Statement.effect Statement.schemaAfter Statement.rowsAfter
  dsimp only
  refine ⟨?_,?_,?_⟩
  · exact legal.distinct.sublist (List.filter_sublist.map Prod.fst)
  · intro other absent
    dsimp only at absent ⊢
    by_cases same : other = table
    · rw [same,Function.update_self]
    · rw [Function.update_of_ne same]
      apply legal.absent
      intro member
      obtain ⟨entry,there,rfl⟩ := List.mem_map.mp member
      exact absent (List.mem_map_of_mem (List.mem_filter.mpr ⟨there,decide_eq_true same⟩))
  · intro entry member
    dsimp only at member ⊢
    obtain ⟨there,apart⟩ := List.mem_filter.mp member
    rw [Function.update_of_ne (of_decide_eq_true apart)]
    apply fits_mono _ (legal.fits entry there)
    intro reference inside
    rw [Function.update_of_ne (not_referenced free there reference inside)]
    exact List.Subset.refl _

theorem delete_legal (legal : Legal valid db) (free : referenced db.schema table = false) (condition : Condition C) :
    Legal valid ((Statement.deleteWhere table condition).effect valid db) := by
  unfold Statement.effect Statement.schemaAfter Statement.rowsAfter
  dsimp only
  refine ⟨legal.distinct,?_,?_⟩
  · intro other absent
    have none := legal.absent other absent
    by_cases same : other = table
    · subst same
      dsimp only
      rw [Function.update_self,none]
      rfl
    · dsimp only
      rw [Function.update_of_ne same,none]
  · intro entry member
    dsimp only at member ⊢
    have before := legal.fits entry member
    refine fits_mono (?_ : ∀ reference ∈ entry.2.references, db.rows reference.parent ⊆ _) ?_
    · intro reference inside
      rw [Function.update_of_ne (not_referenced free member reference inside)]
      exact List.Subset.refl _
    · by_cases same : entry.1 = table
      · rw [same] at before ⊢
        rw [Function.update_self]
        have fewer := List.filter_sublist (p := fun row => decide (condition.eval valid row ≠ some true)) (l := db.rows table)
        refine ⟨?_,?_,?_⟩
        · intro row there
          exact before.each row (fewer.subset there)
        · intro row there
          exact before.refers row (fewer.subset there)
        · intro unique there
          exact (before.unique unique there).sublist fewer
      · rw [Function.update_of_ne same]
        exact before

omit [DecidableEq C] in
theorem rename_same {shape : Shape T C} (apart : ∀ reference ∈ shape.references, reference.parent ≠ table) :
    shape.rename table name = shape := by
  have kept : shape.references.map (fun reference => {reference with parent := renamed table name reference.parent}) =
      shape.references := by
    rw [List.map_congr_left (g := id)]
    · exact List.map_id _
    · intro reference member
      have other : renamed table name reference.parent = reference.parent := if_neg (apart reference member)
      rw [other]
      rfl
  unfold Shape.rename
  rw [kept]

omit [DecidableEq C] in
theorem names_rename (schema : Schema T C) :
    names (schema.map fun entry => (renamed table name entry.1,entry.2.rename table name)) = (names schema).map (renamed table name) := by
  unfold names
  rw [List.map_map,List.map_map]
  rfl

theorem rename_legal (legal : Legal valid db) (listed : (names db.schema).contains table = true)
    (untaken : taken db.schema name = false) (free : referenced db.schema table = false)
    (unnamed : referenced db.schema name = false) : Legal valid ((Statement.renameTable table name).effect valid db) := by
  have missing : name ∉ names db.schema := by
    intro member
    have found := (Bool.or_eq_false_iff.mp untaken).1
    rw [List.contains_iff_mem.mpr member] at found
    cases found
  have apart : name ≠ table := by
    rintro rfl
    exact missing (List.contains_iff_mem.mp listed)
  have moved : ∀ other ∈ names db.schema, Function.update (Function.update db.rows name (db.rows table)) table []
      (renamed table name other) = db.rows other := by
    intro other member
    unfold renamed
    by_cases same : other = table
    · rw [if_pos same,Function.update_of_ne apart,Function.update_self,same]
    · have elsewhere : other ≠ name := by
        rintro rfl
        exact missing member
      rw [if_neg same,Function.update_of_ne same,Function.update_of_ne elsewhere]
  unfold Statement.effect Statement.schemaAfter Statement.rowsAfter
  dsimp only
  refine ⟨?_,?_,?_⟩
  · dsimp only
    rw [names_rename]
    apply List.Nodup.map_on _ legal.distinct
    intro a there b here same
    unfold renamed at same
    split at same
    · split at same
      · simp_all
      · exact absurd (same ▸ here) missing
    · split at same
      · exact absurd (same ▸ there) missing
      · exact same
  · intro other absent
    dsimp only at absent ⊢
    rw [names_rename] at absent
    by_cases old : other = table
    · rw [old,Function.update_self]
    · have fresh : other ≠ name := by
        rintro rfl
        apply absent
        rw [List.mem_map]
        exact ⟨table,List.contains_iff_mem.mp listed,if_pos rfl⟩
      rw [Function.update_of_ne old,Function.update_of_ne fresh]
      apply legal.absent
      intro member
      apply absent
      rw [List.mem_map]
      exact ⟨other,member,if_neg old⟩
  · intro entry member
    dsimp only at member ⊢
    obtain ⟨before,there,rfl⟩ := List.mem_map.mp member
    dsimp only
    rw [moved before.1 (List.mem_map_of_mem there),rename_same (not_referenced free there)]
    apply fits_mono _ (legal.fits before there)
    intro reference inside
    rw [Function.update_of_ne (not_referenced free there reference inside),
      Function.update_of_ne (not_referenced unnamed there reference inside)]
    exact List.Subset.refl _

theorem changed_fits (legal : Legal valid db) {change : Row C → Row C} {column : C}
    (apart : ∀ row, ∀ other ≠ column, change row other = row other) (unkeyed : keyed db.schema table column = false)
    {entry : T × Shape T C} (member : entry ∈ db.schema) {shape' : Shape T C} (uniques : shape'.uniques = entry.2.uniques)
    (references : shape'.references = entry.2.references) (elsewhere : entry.1 ≠ table → shape' = entry.2)
    (here : entry.1 = table → entry.2.free column = true ∧
      ∀ row, entry.2.rowFits valid row = true → shape'.rowFits valid (change row) = true) :
    shape'.Fits valid (Function.update db.rows table ((db.rows table).map change))
      (Function.update db.rows table ((db.rows table).map change) entry.1) := by
  have before := legal.fits entry member
  have own : shape'.Fits valid db.rows (Function.update db.rows table ((db.rows table).map change) entry.1) := by
    by_cases same : entry.1 = table
    · rw [same] at before ⊢
      rw [Function.update_self]
      exact fits_change apart (here same).1 uniques references (here same).2 before
    · rw [Function.update_of_ne same,elsewhere same]
      exact before
  refine ⟨own.each,?_,own.unique⟩
  intro row there reference inside
  apply holds_change apart _ (own.refers row there reference inside)
  intro parent key
  have some' : keyed db.schema table column = true := by
    unfold keyed
    rw [List.any_eq_true]
    refine ⟨entry,member,?_⟩
    rw [List.any_eq_true]
    rw [references] at inside
    exact ⟨reference,inside,by simp [parent,key]⟩
  rw [unkeyed] at some'
  cases some'

omit [DecidableEq C] in
theorem changed_absent (legal : Legal valid db) (change : Row C → Row C) : ∀ other ∉ names db.schema,
    Function.update db.rows table ((db.rows table).map change) other = [] := by
  intro other absent
  have none := legal.absent other absent
  by_cases same : other = table
  · subst same
    rw [Function.update_self,none]
    rfl
  · rw [Function.update_of_ne same,none]

theorem add_legal (legal : Legal valid db) {column : Column C} (filled : (!column.notNull || column.default ≠ .null) = true)
    (absent : hasColumn db.schema table column.name = false) (free : (shapeOf db.schema table).free column.name = true)
    (unkeyed : keyed db.schema table column.name = false) :
    Legal valid ((Statement.addColumn table column).effect valid db) := by
  unfold Statement.effect Statement.schemaAfter Statement.rowsAfter
  dsimp only
  have apart : ∀ (row : Row C), ∀ other ≠ column.name, Function.update row column.name column.default other = row other :=
    fun row other different => Function.update_of_ne different _ _
  refine ⟨?_,?_,?_⟩
  · rw [names_alter]
    exact legal.distinct
  · intro other
    rw [names_alter]
    exact changed_absent legal _ other
  · intro entry member
    dsimp only at member ⊢
    obtain ⟨old,there,rfl⟩ := List.mem_map.mp member
    have first : (if old.1 = table then (old.1,{old.2 with columns := old.2.columns ++ [column]}) else old).1 = old.1 := by
      split <;> rfl
    rw [first]
    apply changed_fits legal apart unkeyed there
    · split <;> rfl
    · split <;> rfl
    · intro other
      rw [if_neg other]
    · intro same
      have shape := shape_of legal.distinct there
      rw [same] at shape
      rw [shape] at free
      refine ⟨free,?_⟩
      intro row fits
      rw [if_pos same]
      unfold Shape.rowFits at fits ⊢
      rw [Bool.and_eq_true_iff,List.all_eq_true,List.all_eq_true] at fits ⊢
      refine ⟨?_,?_⟩
      · intro other inside
        rcases List.mem_append.mp inside with before | last
        · have named : other.name ≠ column.name := by
            intro equal
            unfold hasColumn at absent
            rw [shape,List.any_eq_false] at absent
            exact absent other before (decide_eq_true equal)
          rw [apart row other.name named]
          exact fits.1 other before
        · rw [List.mem_singleton.mp last,Function.update_self]
          exact filled
      · intro check inside
        unfold Shape.free at free
        simp only [Bool.and_eq_true,List.all_eq_true] at free
        have clear : check.columns.contains column.name = false := by simpa using free.1.1 check inside
        rw [eval_update clear]
        exact fits.2 check inside

theorem update_legal (legal : Legal valid db) {column : C} {value : Value} {condition : Condition C}
    (unreferenced : referenced db.schema table = false) (free : (shapeOf db.schema table).free column = true)
    (filled : ∀ other ∈ (shapeOf db.schema table).columns,
      (other.name ≠ column || !other.notNull || value ≠ .null) = true) :
    Legal valid ((Statement.updateWhere table column value condition).effect valid db) := by
  unfold Statement.effect Statement.schemaAfter Statement.rowsAfter
  dsimp only
  have apart : ∀ (row : Row C), ∀ other ≠ column,
      (if condition.eval valid row = some true then Function.update row column value else row) other = row other := by
    intro row other different
    split
    · exact Function.update_of_ne different _ _
    · rfl
  have unkeyed : keyed db.schema table column = false := by
    unfold keyed
    rw [List.any_eq_false]
    intro entry member
    rw [List.any_eq_true]
    rintro ⟨reference,inside,both⟩
    rw [Bool.and_eq_true_iff] at both
    exact not_referenced unreferenced member reference inside (of_decide_eq_true both.1)
  refine ⟨legal.distinct,changed_absent legal _,?_⟩
  intro entry member
  apply changed_fits legal apart unkeyed member rfl rfl fun _ => rfl
  intro same
  have shape := shape_of legal.distinct member
  rw [same] at shape
  rw [shape] at free filled
  refine ⟨free,?_⟩
  intro row fits
  split
  · unfold Shape.rowFits at fits ⊢
    rw [Bool.and_eq_true_iff,List.all_eq_true,List.all_eq_true] at fits ⊢
    refine ⟨?_,?_⟩
    · intro other inside
      by_cases named : other.name = column
      · have known := filled other inside
        rw [named,Function.update_self]
        simpa [named] using known
      · rw [Function.update_of_ne named]
        exact fits.1 other inside
    · intro check inside
      unfold Shape.free at free
      simp only [Bool.and_eq_true,List.all_eq_true] at free
      have clear : check.columns.contains column = false := by simpa using free.1.1 check inside
      rw [eval_update clear]
      exact fits.2 check inside
  · exact fits

theorem safe_legal (legal : Legal valid db) {fresh : List T} (empty : ∀ table ∈ fresh, db.rows table = [])
    {statement : Statement T C} (safe : statement.safe db.schema fresh = true) :
    Legal valid (statement.effect valid db) := by
  obtain ⟨formed,safe⟩ := Bool.and_eq_true_iff.mp safe
  cases statement with
  | createTable table shape ifNotExists => exact create_legal legal
  | createUniqueIndex index table columns among => exact index_legal legal (empty table (List.contains_iff_mem.mp safe))
  | insertSelect target into selected source =>
    obtain ⟨new,carried⟩ := Bool.and_eq_true_iff.mp safe
    simp only [Statement.wellFormed,Bool.and_eq_true] at formed
    exact insert_legal legal (empty target (List.contains_iff_mem.mp new)) formed.1.1.1.1 formed.1.1.1.2 carried
  | dropTable table =>
    exact drop_legal legal (Bool.not_eq_true' _ ▸ (Bool.and_eq_true_iff.mp formed).2)
  | renameTable table name =>
    simp only [Statement.wellFormed,Bool.and_eq_true,Bool.not_eq_true'] at formed safe
    exact rename_legal legal formed.1 formed.2 safe.1 safe.2
  | addColumn table column =>
    simp only [Statement.wellFormed,Bool.and_eq_true,Bool.not_eq_true'] at formed safe
    exact add_legal legal formed.2 formed.1.2 safe.1 safe.2
  | deleteWhere table condition =>
    exact delete_legal legal (Bool.not_eq_true' _ ▸ (Bool.and_eq_true_iff.mp formed).2) condition
  | updateWhere table column value condition =>
    simp only [Statement.wellFormed,Bool.and_eq_true,Bool.not_eq_true',List.all_eq_true] at formed safe
    exact update_legal legal formed.2 safe.1 safe.2

-- A safe statement goes through on every legal database, and leaves a legal one.
theorem safe_exec (legal : Legal valid db) {fresh : List T} (empty : ∀ table ∈ fresh, db.rows table = [])
    {statement : Statement T C} (safe : statement.safe db.schema fresh = true) :
    statement.exec valid db = some (statement.effect valid db) := by
  have after := safe_legal legal empty safe
  unfold Statement.exec
  rw [if_pos]
  exact ⟨(Bool.and_eq_true_iff.mp safe).1,fun entry member _ => after.fits entry member⟩

theorem fresh_empty (legal : Legal valid db) {fresh : List T} (empty : ∀ table ∈ fresh, db.rows table = [])
    (statement : Statement T C) : ∀ table ∈ statement.freshAfter db.schema fresh, (statement.effect valid db).rows table = [] := by
  have changed (table : T) (change : List (Row C) → List (Row C)) (none : change [] = []) (other : T)
      (here : db.rows other = []) : Function.update db.rows table (change (db.rows table)) other = [] := by
    by_cases same : other = table
    · subst same
      rw [Function.update_self,here,none]
    · rw [Function.update_of_ne same,here]
  intro other member
  cases statement with
  | createTable table shape ifNotExists =>
    have member : other ∈ if (names db.schema).contains table then fresh else table :: fresh := member
    split at member
    · exact empty other member
    · rename_i missing
      rcases List.mem_cons.mp member with rfl | old
      · exact legal.absent other fun there => missing (List.contains_iff_mem.mpr there)
      · exact empty other old
  | createUniqueIndex index table columns among => exact empty other member
  | insertSelect target into selected source =>
    obtain ⟨old,apart⟩ := List.mem_filter.mp member
    exact (Function.update_of_ne (of_decide_eq_true apart) _ _).trans (empty other old)
  | dropTable table => exact changed table (fun _ => []) rfl other (empty other member)
  | renameTable table name =>
    obtain ⟨old,apart⟩ := List.mem_filter.mp member
    by_cases same : other = table
    · subst same
      exact Function.update_self _ _ _
    · exact ((Function.update_of_ne same _ _).trans (Function.update_of_ne (of_decide_eq_true apart) _ _)).trans (empty other old)
  | addColumn table column => exact changed table (List.map _) rfl other (empty other member)
  | deleteWhere table condition => exact changed table (List.filter _) rfl other (empty other member)
  | updateWhere table column value condition => exact changed table (List.map _) rfl other (empty other member)

end Steps

section Traces
variable [DecidableEq C] {db : Database T C}

-- What became of the rows of a table on their way to another.
inductive Op (T C : Type) where
  | copy (shape : Shape T C) (pairs : List (C × C))
  | pad (column : C) (value : Value)
  | assign (column : C) (value : Value) (condition : Condition C)
  | drop (condition : Condition C)
  deriving DecidableEq

def Op.run (valid : Value → Bool) (own : List (Row C)) : Op T C → List (Row C)
  | .copy shape pairs => own.map (image shape pairs)
  | .pad column value => own.map fun row => Function.update row column value
  | .assign column value condition =>
    own.map fun row => if condition.eval valid row = some true then Function.update row column value else row
  | .drop condition => own.filter fun row => condition.eval valid row ≠ some true

structure Trace (T C : Type) where
  table : T
  ops : List (Op T C)
  deriving DecidableEq

def Trace.then (op : Op T C) (trace : Trace T C) : Trace T C := ⟨trace.table,trace.ops ++ [op]⟩

def told (valid : Value → Bool) (start : T → List (Row C)) : Option (Trace T C) → List (Row C)
  | some trace => trace.ops.foldl (Op.run valid) (start trace.table)
  | none => []

theorem told_then (start : T → List (Row C)) (op : Op T C) (trace : Option (Trace T C)) :
    told valid start (trace.map (Trace.then op)) = op.run valid (told valid start trace) := by
  cases trace with
  | none => cases op <;> rfl
  | some trace =>
    change (trace.ops ++ [op]).foldl (Op.run valid) (start trace.table) = _
    rw [List.foldl_append]
    rfl

def Op.keeps (column : C) : Op T C → Bool
  | .copy _ pairs => origin pairs column = some column
  | .pad other _ => other ≠ column
  | .assign other _ _ => other ≠ column
  | .drop _ => false

def Op.change (valid : Value → Bool) (row : Row C) : Op T C → Row C
  | .copy shape pairs => image shape pairs row
  | .pad column value => Function.update row column value
  | .assign column value condition =>
    if condition.eval valid row = some true then Function.update row column value else row
  | .drop _ => row

def Op.isDrop : Op T C → Bool
  | .drop _ => true
  | _ => false

theorem runs_map {ops : List (Op T C)} (none : ops.all (fun op => !op.isDrop) = true) (own : List (Row C)) :
    ops.foldl (Op.run valid) own = own.map fun row => ops.foldl (Op.change valid) row := by
  induction ops generalizing own with
  | nil => simp
  | cons op rest ih =>
    rw [List.all_cons,Bool.and_eq_true_iff] at none
    have here : op.run valid own = own.map fun row => op.change valid row := by
      cases op with
      | drop condition => cases none.1
      | _ => rfl
    rw [List.foldl_cons,here,ih none.2,List.map_map]
    rfl

theorem change_keeps {ops : List (Op T C)} {column : C} (keeps : ops.all (Op.keeps column) = true) (row : Row C) :
    ops.foldl (Op.change valid) row column = row column := by
  induction ops generalizing row with
  | nil => rfl
  | cons op rest ih =>
    rw [List.all_cons,Bool.and_eq_true_iff] at keeps
    rw [List.foldl_cons,ih keeps.2]
    cases op with
    | copy shape pairs => exact image_copied (of_decide_eq_true keeps.1) row
    | pad other value => exact Function.update_of_ne (Ne.symm (of_decide_eq_true keeps.1)) _ _
    | assign other value condition =>
      rw [Op.change]
      split
      · exact Function.update_of_ne (Ne.symm (of_decide_eq_true keeps.1)) _ _
      · rfl
    | drop condition => rfl

variable [DecidableEq T]

def Statement.traceAfter (schema : Schema T C) (traces : T → Option (Trace T C)) : Statement T C → T → Option (Trace T C)
  | .insertSelect target into selected source =>
    Function.update traces target ((traces source).map
      (Trace.then (.copy (shapeOf schema target) (pairsOf (shapeOf schema target) into selected))))
  | .dropTable table => Function.update traces table none
  | .renameTable table name => Function.update (Function.update traces name (traces table)) table none
  | .addColumn table column =>
    Function.update traces table ((traces table).map (Trace.then (.pad column.name column.default)))
  | .deleteWhere table condition => Function.update traces table ((traces table).map (Trace.then (.drop condition)))
  | .updateWhere table column value condition =>
    Function.update traces table ((traces table).map (Trace.then (.assign column value condition)))
  | .createTable _ _ _ => traces
  | .createUniqueIndex _ _ _ _ => traces

def begun (table : T) : Option (Trace T C) := some ⟨table,[]⟩

theorem told_update (start : T → List (Row C)) (traces : T → Option (Trace T C)) (table : T) (trace : Option (Trace T C)) :
    (fun other => told valid start (Function.update traces table trace other)) =
      Function.update (fun other => told valid start (traces other)) table (told valid start trace) := by
  funext other
  by_cases same : other = table
  · subst same
    rw [Function.update_self,Function.update_self]
  · rw [Function.update_of_ne same,Function.update_of_ne same]

theorem traced_step {start : T → List (Row C)} {traces : T → Option (Trace T C)} {fresh : List T}
    (empty : ∀ table ∈ fresh, db.rows table = []) {statement : Statement T C}
    (safe : statement.safe db.schema fresh = true) (tells : db.rows = fun table => told valid start (traces table)) :
    (statement.effect valid db).rows = fun table => told valid start (statement.traceAfter db.schema traces table) := by
  have at' : ∀ table, told valid start (traces table) = db.rows table := fun table => (congrFun tells table).symm
  unfold Statement.effect Statement.rowsAfter Statement.traceAfter
  cases statement with
  | createTable table shape ifNotExists => exact tells
  | createUniqueIndex index table columns among => exact tells
  | insertSelect target into selected source =>
    have new := (Bool.and_eq_true_iff.mp (Bool.and_eq_true_iff.mp safe).2).1
    dsimp only
    rw [told_update,told_then,at',← tells,empty target (List.contains_iff_mem.mp new)]
    rfl
  | dropTable table =>
    dsimp only
    rw [told_update,← tells]
    rfl
  | renameTable table name =>
    dsimp only
    rw [told_update,told_update,at',← tells]
    rfl
  | addColumn table column =>
    dsimp only
    rw [told_update,told_then,at',← tells]
    rfl
  | deleteWhere table condition =>
    dsimp only
    rw [told_update,told_then,at',← tells]
    rfl
  | updateWhere table column value condition =>
    dsimp only
    rw [told_update,told_then,at',← tells]
    rfl

end Traces

section Runs
variable [DecidableEq T] [DecidableEq C] {db : Database T C}

def effects (valid : Value → Bool) (statements : List (Statement T C)) (db : Database T C) : Database T C :=
  statements.foldl (fun db statement => statement.effect valid db) db

def schemaAfter (statements : List (Statement T C)) (schema : Schema T C) : Schema T C :=
  statements.foldl (fun schema statement => statement.schemaAfter schema) schema

def safeAll : List T → List (Statement T C) → Schema T C → Bool
  | _,[],_ => true
  | fresh,statement :: rest,schema =>
    statement.safe schema fresh && safeAll (statement.freshAfter schema fresh) rest (statement.schemaAfter schema)

def tracesAfter : List (Statement T C) → Schema T C → (T → Option (Trace T C)) → T → Option (Trace T C)
  | [],_,traces => traces
  | statement :: rest,schema,traces => tracesAfter rest (statement.schemaAfter schema) (statement.traceAfter schema traces)

theorem effects_schema (statements : List (Statement T C)) (db : Database T C) :
    (effects valid statements db).schema = schemaAfter statements db.schema := by
  induction statements generalizing db with
  | nil => rfl
  | cons statement rest ih => exact ih (statement.effect valid db)

theorem safe_run (legal : Legal valid db) {fresh : List T} (empty : ∀ table ∈ fresh, db.rows table = [])
    {statements : List (Statement T C)} (safe : safeAll fresh statements db.schema = true) :
    statements.foldlM (fun db statement => statement.exec valid db) db = some (effects valid statements db) ∧
      Legal valid (effects valid statements db) := by
  induction statements generalizing db fresh with
  | nil => exact ⟨rfl,legal⟩
  | cons statement rest ih =>
    obtain ⟨first,later⟩ := Bool.and_eq_true_iff.mp safe
    have next := ih (safe_legal legal empty first) (fresh_empty legal empty statement) later
    rw [List.foldlM_cons,safe_exec legal empty first]
    exact next

theorem traced_run (legal : Legal valid db) {fresh : List T} (empty : ∀ table ∈ fresh, db.rows table = [])
    {statements : List (Statement T C)} (safe : safeAll fresh statements db.schema = true) {start : T → List (Row C)}
    {traces : T → Option (Trace T C)} (tells : db.rows = fun table => told valid start (traces table)) :
    (effects valid statements db).rows = fun table => told valid start (tracesAfter statements db.schema traces table) := by
  induction statements generalizing db fresh traces with
  | nil => exact tells
  | cons statement rest ih =>
    obtain ⟨first,later⟩ := Bool.and_eq_true_iff.mp safe
    exact ih (safe_legal legal empty first) (fresh_empty legal empty statement) later (traced_step empty first tells)

end Runs

end ArxRuna.Library.Sql
