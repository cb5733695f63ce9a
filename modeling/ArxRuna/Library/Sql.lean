import Mathlib.Data.List.Nodup
import Mathlib.Logic.Function.Basic
namespace ArxRuna.Library.Sql

inductive Value where
  | null
  | integer (n : Int)
  | text (content : List Char)
  | blob (content : List UInt8)
  deriving DecidableEq, Repr

inductive Affinity where
  | text
  | integer
  | blob
  deriving DecidableEq, Repr

-- Tables and indexes share their names; columns have theirs.
abbrev Row (C : Type) := C → Value

-- `none` is SQL's unknown.
inductive Condition (C : Type) where
  | isNull (column : C)
  | notNull (column : C)
  | isIn (column : C) (values : List Value)
  | valid (column : C)
  | both (a b : Condition C)
  | either (a b : Condition C)
  deriving DecidableEq

structure Column (C : Type) where
  name : C
  affinity : Affinity
  notNull : Bool := false
  default : Value := .null
  deriving DecidableEq

structure Unique (T C : Type) where
  primary : Bool := false
  index : Option T := none
  columns : List C
  among : Option (Condition C) := none
  deriving DecidableEq

structure Reference (T C : Type) where
  column : C
  parent : T
  key : C
  cascade : Bool := false
  deriving DecidableEq

structure Shape (T C : Type) where
  columns : List (Column C)
  uniques : List (Unique T C)
  checks : List (Condition C) := []
  references : List (Reference T C) := []
  deriving DecidableEq

abbrev Schema (T C : Type) := List (T × Shape T C)

structure Database (T C : Type) where
  schema : Schema T C
  rows : T → List (Row C)

inductive Statement (T C : Type) where
  | createTable (table : T) (shape : Shape T C) (ifNotExists : Bool)
  | createUniqueIndex (index table : T) (columns : List C) (among : Option (Condition C))
  | insertSelect (target : T) (into : Option (List C)) (selected : List C) (source : T)
  | dropTable (table : T)
  | renameTable (table name : T)
  | addColumn (table : T) (column : Column C)
  | deleteWhere (table : T) (condition : Condition C)
  | updateWhere (table : T) (column : C) (value : Value) (condition : Condition C)

def both3 : Option Bool → Option Bool → Option Bool
  | some false,_ => some false
  | _,some false => some false
  | some true,some true => some true
  | _,_ => none

def either3 : Option Bool → Option Bool → Option Bool
  | some true,_ => some true
  | _,some true => some true
  | some false,some false => some false
  | _,_ => none

section Semantics
variable {T C : Type} [DecidableEq T] [DecidableEq C] (valid : Value → Bool)

-- `valid` is the reader behind `json_valid`.
def Condition.eval (row : Row C) : Condition C → Option Bool
  | .isNull column => some (row column = .null)
  | .notNull column => some (row column ≠ .null)
  | .isIn column values => if row column = .null then none else some (values.any (row column = ·))
  | .valid column => if row column = .null then none else some (valid (row column))
  | .both a b => both3 (a.eval row) (b.eval row)
  | .either a b => either3 (a.eval row) (b.eval row)

def Condition.columns : Condition C → List C
  | .isNull column => [column]
  | .notNull column => [column]
  | .isIn column _ => [column]
  | .valid column => [column]
  | .both a b => a.columns ++ b.columns
  | .either a b => a.columns ++ b.columns

-- A check fails only where it is false, and nulls are never equal.
def Shape.rowFits (shape : Shape T C) (row : Row C) : Bool :=
  shape.columns.all (fun column => !column.notNull || row column.name ≠ .null) &&
    shape.checks.all fun check => check.eval valid row ≠ some false

def Unique.chosen (unique : Unique T C) (row : Row C) : Bool :=
  unique.among.all fun condition => condition.eval valid row = some true

def Unique.clash (unique : Unique T C) (a b : Row C) : Bool :=
  unique.columns.all (fun column => a column ≠ .null && a column = b column) &&
    (unique.chosen valid a && unique.chosen valid b)

def Unique.Holds (unique : Unique T C) (own : List (Row C)) : Prop :=
  own.Pairwise fun a b => unique.clash valid a b = false

def Reference.holds (rows : T → List (Row C)) (reference : Reference T C) (row : Row C) : Bool :=
  row reference.column = .null || (rows reference.parent).any fun parent => parent reference.key = row reference.column

structure Shape.Fits (rows : T → List (Row C)) (shape : Shape T C) (own : List (Row C)) : Prop where
  each : ∀ row ∈ own, shape.rowFits valid row = true
  refers : ∀ row ∈ own, ∀ reference ∈ shape.references, reference.holds rows row = true
  unique : ∀ unique ∈ shape.uniques, unique.Holds valid own

instance (unique : Unique T C) (own : List (Row C)) : Decidable (unique.Holds valid own) := by
  unfold Unique.Holds; infer_instance

instance (rows : T → List (Row C)) (shape : Shape T C) (own : List (Row C)) : Decidable (shape.Fits valid rows own) :=
  decidable_of_iff ((∀ row ∈ own, shape.rowFits valid row = true) ∧
    (∀ row ∈ own, ∀ reference ∈ shape.references, reference.holds rows row = true) ∧
      ∀ unique ∈ shape.uniques, unique.Holds valid own)
    ⟨fun all => ⟨all.1,all.2.1,all.2.2⟩,fun fits => ⟨fits.each,fits.refers,fits.unique⟩⟩

def names (schema : Schema T C) : List T := schema.map Prod.fst

def indexes (schema : Schema T C) : List T := schema.flatMap fun entry => entry.2.uniques.filterMap (·.index)

def taken (schema : Schema T C) (name : T) : Bool := (names schema).contains name || (indexes schema).contains name

def shapeOf (schema : Schema T C) (table : T) : Shape T C := ((schema.find? (·.1 = table)).map (·.2)).getD ⟨[],[],[],[]⟩

def referenced (schema : Schema T C) (table : T) : Bool := schema.any fun entry => entry.2.references.any (·.parent = table)

structure Legal (db : Database T C) : Prop where
  distinct : (names db.schema).Nodup
  absent : ∀ table, table ∉ names db.schema → db.rows table = []
  fits : ∀ entry ∈ db.schema, entry.2.Fits valid db.rows (db.rows entry.1)

-- The row an `INSERT … SELECT` makes: what is not inserted has its default.
def pairsOf (shape : Shape T C) (into : Option (List C)) (selected : List C) : List (C × C) :=
  (into.getD (shape.columns.map Column.name)).zip selected

def origin (pairs : List (C × C)) (column : C) : Option C := (pairs.find? (·.1 = column)).map (·.2)

def standard (shape : Shape T C) (column : C) : Value :=
  ((shape.columns.find? (·.name = column)).map Column.default).getD .null

def image (shape : Shape T C) (pairs : List (C × C)) (row : Row C) : Row C := fun column =>
  match origin pairs column with
  | some source => row source
  | none => standard shape column

def alter (schema : Schema T C) (table : T) (change : Shape T C → Shape T C) : Schema T C :=
  schema.map fun entry => if entry.1 = table then (entry.1,change entry.2) else entry

def renamed (table name other : T) : T := if other = table then name else other

def Shape.rename (table name : T) (shape : Shape T C) : Shape T C :=
  {shape with references := shape.references.map fun reference => {reference with parent := renamed table name reference.parent}}

def Statement.schemaAfter (statement : Statement T C) (schema : Schema T C) : Schema T C :=
  match statement with
  | .createTable table shape _ => if (names schema).contains table then schema else schema ++ [(table,shape)]
  | .createUniqueIndex index table columns among =>
    alter schema table fun shape =>
      {shape with uniques := shape.uniques ++ [⟨false,some index,columns,among⟩]}
  | .insertSelect _ _ _ _ => schema
  | .dropTable table => schema.filter (·.1 ≠ table)
  | .renameTable table name => schema.map fun entry => (renamed table name entry.1,entry.2.rename table name)
  | .addColumn table column => alter schema table fun shape => {shape with columns := shape.columns ++ [column]}
  | .deleteWhere _ _ => schema
  | .updateWhere _ _ _ _ => schema

def Statement.rowsAfter (statement : Statement T C) (db : Database T C) : T → List (Row C) :=
  match statement with
  | .createTable _ _ _ => db.rows
  | .createUniqueIndex _ _ _ _ => db.rows
  | .insertSelect target into selected source =>
    let shape := shapeOf db.schema target
    Function.update db.rows target (db.rows target ++ (db.rows source).map (image shape (pairsOf shape into selected)))
  | .dropTable table => Function.update db.rows table []
  | .renameTable table name => Function.update (Function.update db.rows name (db.rows table)) table []
  | .addColumn table column =>
    Function.update db.rows table ((db.rows table).map fun row => Function.update row column.name column.default)
  | .deleteWhere table condition =>
    Function.update db.rows table ((db.rows table).filter fun row => condition.eval valid row ≠ some true)
  | .updateWhere table column value condition =>
    Function.update db.rows table ((db.rows table).map fun row =>
      if condition.eval valid row = some true then Function.update row column value else row)

def Statement.effect (statement : Statement T C) (db : Database T C) : Database T C :=
  ⟨statement.schemaAfter db.schema,statement.rowsAfter valid db⟩

def hasColumn (schema : Schema T C) (table : T) (column : C) : Bool :=
  (shapeOf schema table).columns.any (·.name = column)

-- What a statement asks of the schema. Rows of a table that others refer to are
-- neither dropped nor changed here.
def Statement.wellFormed (statement : Statement T C) (schema : Schema T C) : Bool :=
  match statement with
  | .createTable table _ ifNotExists => if (names schema).contains table then ifNotExists else !taken schema table
  | .createUniqueIndex index table columns _ =>
    !taken schema index && (names schema).contains table && columns.all (hasColumn schema table)
  | .insertSelect target into selected source =>
    (names schema).contains target && (names schema).contains source &&
      ((into.getD ((shapeOf schema target).columns.map Column.name)).length = selected.length) &&
      (into.getD []).all (hasColumn schema target) && selected.all (hasColumn schema source)
  | .dropTable table => (names schema).contains table && !referenced schema table
  | .renameTable table name => (names schema).contains table && !taken schema name
  | .addColumn table column =>
    (names schema).contains table && !hasColumn schema table column.name && (!column.notNull || column.default ≠ .null)
  | .deleteWhere table _ => (names schema).contains table && !referenced schema table
  | .updateWhere table column _ _ =>
    (names schema).contains table && hasColumn schema table column && !referenced schema table

def Statement.touched : Statement T C → Option T
  | .createUniqueIndex _ table _ _ => some table
  | .insertSelect target _ _ _ => some target
  | .updateWhere table _ _ _ => some table
  | _ => none

def Statement.exec (statement : Statement T C) (db : Database T C) : Option (Database T C) :=
  if statement.wellFormed db.schema = true ∧ ∀ entry ∈ (statement.effect valid db).schema,
      statement.touched = some entry.1 →
        entry.2.Fits valid (statement.effect valid db).rows ((statement.effect valid db).rows entry.1) then
    some (statement.effect valid db)
  else none

end Semantics

end ArxRuna.Library.Sql
