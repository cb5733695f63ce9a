import ArxRuna.Library.Texts
namespace ArxRuna.Library.Paths
open Library.Texts

-- A path as its components: empty ones and `.` name nothing, `..` stays and is
-- resolved by whoever opens the path.
structure Path where
  absolute : Bool
  parts : List (List Char)
  deriving DecidableEq, Repr

def components (text : List Char) : List (List Char) := (segments '/' text).filter (· ≠ ['.'])

def rooted (text : List Char) : Bool := text.head? = some '/'

-- An absolute text replaces the base, any other is appended.
def Path.join (base : Path) (text : List Char) : Path :=
  if rooted text then ⟨true,components text⟩ else ⟨base.absolute,base.parts ++ components text⟩

def Path.parent (path : Path) : Path := {path with parts := path.parts.dropLast}

-- The last component, unless it is `..`.
def Path.fileName (path : Path) : Option (List Char) := path.parts.getLast?.filter (· ≠ ['.','.'])

-- A name up to its last dot; a dot that leads the name ends no stem.
def fileStem (name : List Char) : List Char :=
  let before := ((name.reverse.dropWhile (· ≠ '.')).drop 1).reverse
  if before = [] then name else before

def Path.withExtension (path : Path) (ext : List Char) : Path :=
  match path.fileName with
  | none => path
  | some name => {path with parts := path.parts.dropLast ++ [fileStem name ++ '.' :: ext]}

def Path.startsWith (path base : Path) : Bool := path.absolute = base.absolute && base.parts.isPrefixOf path.parts

-- The name of one entry of a directory.
structure Plain (text : List Char) : Prop where
  whole : '/' ∉ text
  filled : text ≠ []
  here : text ≠ ['.']
  up : text ≠ ['.','.']

instance (text : List Char) : Decidable (Plain text) :=
  decidable_of_iff ('/' ∉ text ∧ text ≠ [] ∧ text ≠ ['.'] ∧ text ≠ ['.','.'])
    ⟨fun all => ⟨all.1,all.2.1,all.2.2.1,all.2.2.2⟩,fun plain => ⟨plain.whole,plain.filled,plain.here,plain.up⟩⟩

structure Name where
  text : List Char
  plain : Plain text

-- Strictly inside the base, below an entry whose name is of the kind.
structure Below (base : Path) (named : List Char → Prop) (path : Path) : Prop where
  absolute : path.absolute = base.absolute
  entry : ∃ name rest, named name ∧ ['.','.'] ∉ rest ∧ path.parts = base.parts ++ name :: rest

variable {base path : Path} {text : List Char} {named : List Char → Prop}

theorem plain_components (plain : Plain text) : components text = [text] := by
  unfold components
  rw [segments_piece plain.whole plain.filled]
  simp [plain.here]

theorem plain_unrooted (whole : '/' ∉ text) : rooted text = false := by
  unfold rooted
  cases text with
  | nil => rfl
  | cons first rest =>
    refine decide_eq_false fun same => whole ?_
    rw [Option.some.inj same]
    exact List.mem_cons_self

theorem join_plain (base : Path) (plain : Plain text) : base.join text = ⟨base.absolute,base.parts ++ [text]⟩ := by
  rw [Path.join,plain_unrooted plain.whole,plain_components plain]
  rfl

theorem join_parent (base : Path) (plain : Plain text) : (base.join text).parent = base := by
  rw [join_plain base plain,Path.parent]
  dsimp only
  rw [List.dropLast_concat]

theorem below_named (plain : Plain text) (kind : named text) : Below base named (base.join text) := by
  rw [join_plain base plain]
  exact ⟨rfl,text,[],kind,List.not_mem_nil,rfl⟩

theorem below_whole (whole : '/' ∉ text) (below : Below base named (base.join text)) : named text := by
  obtain ⟨name,rest,kind,_,parts⟩ := below.entry
  rw [Path.join,plain_unrooted whole] at parts
  change base.parts ++ components text = base.parts ++ name :: rest at parts
  have only := List.append_cancel_left parts
  by_cases empty : text = []
  · subst empty
    rw [components,segments_nil] at only
    cases only
  · rw [components,segments_piece whole empty] at only
    by_cases here : text = ['.']
    · subst here
      cases only
    · rw [List.filter_cons_of_pos (by simpa using here)] at only
      cases only
      exact kind

theorem join_starts (base : Path) (plain : Plain text) : (base.join text).startsWith base = true := by
  rw [join_plain base plain]
  simp [Path.startsWith]

-- At the base or inside it.
structure Within (base path : Path) : Prop where
  absolute : path.absolute = base.absolute
  rest : ∃ rest, ['.','.'] ∉ rest ∧ path.parts = base.parts ++ rest

theorem within_refl (base : Path) : Within base base := ⟨rfl,[],List.not_mem_nil,(List.append_nil _).symm⟩

theorem within_join (within : Within base path) (plain : Plain text) : Within base (path.join text) := by
  obtain ⟨rest,inside,parts⟩ := within.rest
  rw [join_plain path plain]
  refine ⟨within.absolute,rest ++ [text],?_,?_⟩
  · rw [List.mem_append,List.mem_singleton]
    rintro (member | same)
    · exact inside member
    · exact plain.up same.symm
  · rw [parts]
    exact List.append_assoc ..

theorem within_trans {dir : Path} (first : Within base dir) (second : Within dir path) : Within base path := by
  obtain ⟨rest,inside,parts⟩ := first.rest
  obtain ⟨more,outside,further⟩ := second.rest
  refine ⟨second.absolute.trans first.absolute,rest ++ more,?_,?_⟩
  · rw [List.mem_append]
    rintro (member | member)
    · exact inside member
    · exact outside member
  · rw [further,parts]
    exact List.append_assoc ..

theorem below_within {dir : Path} (below : Below base named dir) (within : Within dir path) :
    Below base named path := by
  obtain ⟨name,rest,kind,inside,parts⟩ := below.entry
  obtain ⟨more,outside,further⟩ := within.rest
  refine ⟨within.absolute.trans below.absolute,name,rest ++ more,kind,?_,?_⟩
  · rw [List.mem_append]
    rintro (member | member)
    · exact inside member
    · exact outside member
  · rw [further,parts]
    exact List.append_assoc ..

end ArxRuna.Library.Paths
