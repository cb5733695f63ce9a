import ArxRuna.Library.Ini
import ArxRuna.Library.Lines
namespace ArxRuna.Library.Blocks
open Library.Ini Library.Lines

section Read
variable {blank : Char → Bool} {line : List Char} {rest above below : List (List Char)}

def entryOf (blank : Char → Bool) (line : List Char) : Option Entry :=
  match readLine blank line with
  | .entry found => some found
  | _ => none

def entriesOf (blank : Char → Bool) (shown : List (List Char)) : List Entry := shown.filterMap (entryOf blank)

def isSection (blank : Char → Bool) (line : List Char) : Bool :=
  match readLine blank line with
  | .header _ => true
  | _ => false

-- Above the header nothing is read, below it no other section begins.
structure OneSection (blank : Char → Bool) (above below : List (List Char)) : Prop where
  silent : ∀ line ∈ above, readLine blank line = .other
  headless : ∀ line ∈ below, ∀ name, readLine blank line ≠ .header name

theorem read_cons_header (shown : readLine blank line = .header name) :
    readLines blank (line :: rest) = ([],⟨name,(readLines blank rest).1⟩ :: (readLines blank rest).2) := by
  simp [readLines,shown]

theorem read_cons_entry (shown : readLine blank line = .entry found) :
    readLines blank (line :: rest) = (found :: (readLines blank rest).1,(readLines blank rest).2) := by
  simp [readLines,shown]

theorem read_cons_other (shown : readLine blank line = .other) : readLines blank (line :: rest) = readLines blank rest := by
  simp [readLines,shown]

theorem entries_append : entriesOf blank (above ++ below) = entriesOf blank above ++ entriesOf blank below :=
  List.filterMap_append

theorem entries_read (shown : List (List Char)) :
    (readLines blank shown).1 ++ (readLines blank shown).2.flatMap Stanza.entries = entriesOf blank shown := by
  induction shown with
  | nil => rfl
  | cons line rest ih =>
    cases found : readLine blank line with
    | header name => simp [read_cons_header found,entriesOf,entryOf,found,ih]
    | entry entry =>
      rw [read_cons_entry found,List.cons_append,ih]
      simp [entriesOf,entryOf,found]
    | other =>
      rw [read_cons_other found,ih]
      simp [entriesOf,entryOf,found]

theorem read_append (closed : (readLines blank below).1 = []) : readLines blank (above ++ below) =
    ((readLines blank above).1,(readLines blank above).2 ++ (readLines blank below).2) := by
  induction above with
  | nil => simp [readLines,← closed]
  | cons line rest ih =>
    rw [List.cons_append]
    cases found : readLine blank line with
    | header name => simp [read_cons_header found,ih]
    | entry entry => simp [read_cons_entry found,ih]
    | other => simp [read_cons_other found,ih]

theorem read_count : (readLines blank (above ++ below)).2.length =
    (readLines blank above).2.length + (readLines blank below).2.length := by
  induction above with
  | nil => simp [readLines]
  | cons line rest ih =>
    rw [List.cons_append]
    cases found : readLine blank line with
    | header name =>
      simp only [read_cons_header found,List.length_cons,ih]
      omega
    | entry entry => simp [read_cons_entry found,ih]
    | other => simp [read_cons_other found,ih]

theorem read_leading (clear : (readLines blank above).2 = []) : readLines blank (above ++ below) =
    ((readLines blank above).1 ++ (readLines blank below).1,(readLines blank below).2) := by
  induction above with
  | nil => simp [readLines]
  | cons line rest ih =>
    rw [List.cons_append]
    cases found : readLine blank line with
    | header name => simp [read_cons_header found] at clear
    | entry entry =>
      rw [read_cons_entry found] at clear
      simp [read_cons_entry found,ih clear]
    | other =>
      rw [read_cons_other found] at clear
      simp [read_cons_other found,ih clear]

theorem read_one (only : (readLines blank above).2 = [stanza]) : readLines blank (above ++ below) =
    ((readLines blank above).1,
      ⟨stanza.name,stanza.entries ++ (readLines blank below).1⟩ :: (readLines blank below).2) := by
  induction above with
  | nil => simp [readLines] at only
  | cons line rest ih =>
    rw [List.cons_append]
    cases found : readLine blank line with
    | header name =>
      rw [read_cons_header found] at only
      obtain ⟨rfl,none⟩ := List.cons.inj only
      rw [read_cons_header found,read_cons_header found]
      rw [read_leading none]
    | entry entry =>
      rw [read_cons_entry found] at only
      simp [read_cons_entry found,ih only]
    | other =>
      rw [read_cons_other found] at only
      simp [read_cons_other found,ih only]

theorem section_count (shown : List (List Char)) : (readLines blank shown).2.length = shown.countP (isSection blank) := by
  induction shown with
  | nil => rfl
  | cons line rest ih =>
    cases found : readLine blank line with
    | header name =>
      have here : isSection blank line = true := by simp [isSection,found]
      simp [read_cons_header found,here,ih]
    | entry entry =>
      have here : isSection blank line = false := by simp [isSection,found]
      simp [read_cons_entry found,here,ih]
    | other =>
      have here : isSection blank line = false := by simp [isSection,found]
      simp [read_cons_other found,here,ih]

theorem read_silent : readLines blank above = ([],[]) ↔ ∀ line ∈ above, readLine blank line = .other := by
  induction above with
  | nil => simp [readLines]
  | cons line rest ih =>
    rw [List.forall_mem_cons]
    cases found : readLine blank line with
    | header name => simp [read_cons_header found]
    | entry entry => simp [read_cons_entry found]
    | other => simp [read_cons_other found,ih]

theorem read_headless : (readLines blank below).2 = [] ↔ ∀ line ∈ below, ∀ name, readLine blank line ≠ .header name := by
  induction below with
  | nil => simp [readLines]
  | cons line rest ih =>
    rw [List.forall_mem_cons]
    cases found : readLine blank line with
    | header name => simp [read_cons_header found]
    | entry entry => simp [read_cons_entry found,ih]
    | other => simp [read_cons_other found,ih]

theorem section_iff (header : readLine blank line = .header name) :
    readLines blank (above ++ line :: below) = ([],[⟨name,entriesOf blank (above ++ below)⟩]) ↔
      OneSection blank above below := by
  have here : readLines blank (line :: below) = _ := read_cons_header header
  have closed : (readLines blank (line :: below)).1 = [] := by rw [here]
  rw [read_append closed,here]
  constructor
  · intro same
    obtain ⟨first,second⟩ := Prod.mk.inj same
    have lengths := congrArg List.length second
    simp only [List.length_append,List.length_cons,List.length_nil] at lengths
    have upper : (readLines blank above).2 = [] := List.eq_nil_of_length_eq_zero (by omega)
    have lower : (readLines blank below).2 = [] := List.eq_nil_of_length_eq_zero (by omega)
    exact ⟨read_silent.mp (Prod.ext first upper),read_headless.mp lower⟩
  · rintro ⟨silent,headless⟩
    have upper := read_silent.mpr silent
    have lower := read_headless.mpr headless
    have none : entriesOf blank above = [] := by rw [← entries_read above,upper]; rfl
    have all : entriesOf blank below = (readLines blank below).1 := by rw [← entries_read below,lower]; simp
    rw [upper,lower,entries_append,none,all]
    rfl

theorem read_names (whole : Whole shown) : ∀ stanza ∈ (readLines blank shown).2, '\n' ∉ stanza.name := by
  induction shown with
  | nil => simp [readLines]
  | cons line rest ih =>
    rw [Whole,List.forall_mem_cons] at whole
    cases found : readLine blank line with
    | header name =>
      rw [read_cons_header found,List.forall_mem_cons]
      refine ⟨?_,ih whole.2⟩
      intro member
      apply whole.1
      unfold readLine at found
      dsimp only at found
      split at found
      · cases found
        exact mem_trim (List.mem_of_mem_drop ((List.dropLast_prefix _).subset member))
      · split at found <;> cases found
    | entry entry =>
      rw [read_cons_entry found]
      exact ih whole.2
    | other =>
      rw [read_cons_other found]
      exact ih whole.2

theorem stanza_eq {a b : Stanza} (name : a.name = b.name) (entries : a.entries = b.entries) : a = b := by
  cases a
  cases b
  simp_all

section Parts
variable {α : Type} {items : List α} {block : α → List (List Char)} {stanza : α → Stanza}

theorem read_parts (each : ∀ a ∈ items, readLines blank (block a) = ([],[stanza a])) :
    readLines blank (items.flatMap block) = ([],items.map stanza) := by
  induction items with
  | nil => rfl
  | cons a rest ih =>
    rw [List.forall_mem_cons] at each
    have later := ih each.2
    rw [List.flatMap_cons,read_append (by rw [later]),each.1,later]
    rfl

theorem parts_count (headed : ∀ a ∈ items, (readLines blank (block a)).2 ≠ []) :
    items.length ≤ (readLines blank (items.flatMap block)).2.length := by
  induction items with
  | nil => exact Nat.zero_le _
  | cons a rest ih =>
    rw [List.forall_mem_cons] at headed
    have here := List.length_pos_of_ne_nil headed.1
    have later := ih headed.2
    rw [List.flatMap_cons,read_count,List.length_cons]
    omega

-- Parts that each begin a section read as their sections only if each part is one section.
theorem read_parts_iff (headed : ∀ a ∈ items, (readLines blank (block a)).2 ≠ [])
    (entries : ∀ a ∈ items, entriesOf blank (block a) = (stanza a).entries) :
    readLines blank (items.flatMap block) = ([],items.map stanza) ↔
      ∀ a ∈ items, readLines blank (block a) = ([],[stanza a]) := by
  refine ⟨?_,read_parts⟩
  intro all
  induction items with
  | nil => simp
  | cons a rest ih =>
    rw [List.forall_mem_cons] at headed entries
    have counted : _ = (readLines blank (block a)).2.length + (readLines blank (rest.flatMap block)).2.length := read_count
    have fewer := parts_count headed.2
    have here := List.length_pos_of_ne_nil headed.1
    rw [← List.flatMap_cons,all] at counted
    simp only [List.map_cons,List.length_cons,List.length_map] at counted
    obtain ⟨first,only⟩ := List.length_eq_one_iff.mp (by omega : (readLines blank (block a)).2.length = 1)
    rw [List.flatMap_cons,read_one only] at all
    obtain ⟨leading,sections⟩ := Prod.mk.inj all
    obtain ⟨same,later⟩ := List.cons.inj sections
    have whole : _ = entriesOf blank (block a) := entries_read (block a)
    rw [leading,only,entries.1] at whole
    have own : first.entries = (stanza a).entries := by simpa using whole
    have split := congrArg Stanza.entries same
    dsimp only at split
    rw [own] at split
    have closed : (readLines blank (rest.flatMap block)).1 = [] := List.append_right_eq_self.mp split
    rw [List.forall_mem_cons]
    refine ⟨?_,ih headed.2 entries.2 (Prod.ext closed later)⟩
    have named := congrArg Stanza.name same
    dsimp only at named
    rw [← stanza_eq named own,← only]
    exact Prod.ext leading rfl

end Parts

end Read

section Blank
variable {blank : Char → Bool} {line : List Char} {rest above below : List (List Char)}

theorem trim_append_white (text : List Char) (clear : white blank spaces = true) :
    trim blank (text ++ spaces) = trim blank text := by
  induction spaces using List.reverseRecOn with
  | nil => rw [List.append_nil]
  | append_singleton spaces c ih =>
    rw [white_iff] at clear
    rw [← List.append_assoc,trim_append_blank _ (clear c (by simp))]
    apply ih
    rw [white_iff]
    intro d member
    exact clear d (List.mem_append_left _ member)

theorem trim_white_append (clear : white blank spaces = true) (text : List Char) :
    trim blank (spaces ++ text) = trim blank text := by
  induction spaces with
  | nil => rfl
  | cons c rest ih =>
    rw [white_iff,List.forall_mem_cons] at clear
    rw [List.cons_append,trim_cons_blank _ clear.1]
    exact ih (white_iff.mpr clear.2)

theorem read_around (front : white blank spaces = true) (behind : white blank tail = true) (line : List Char) :
    readLine blank (spaces ++ line ++ tail) = readLine blank line := by
  unfold readLine
  rw [trim_append_white _ behind,trim_white_append front]

theorem trim_trimEnd (line : List Char) : trim blank (trimEnd blank line) = trim blank line := by
  have parts : line.rdropWhile blank ++ line.rtakeWhile blank = line := List.rdropWhile_append_rtakeWhile
  have clear : white blank (line.rtakeWhile blank) = true := by
    rw [white_iff]
    intro c member
    exact List.mem_rtakeWhile_imp member
  have all := trim_append_white (line.rdropWhile blank) clear
  rw [parts] at all
  exact all.symm

theorem read_trimEnd (line : List Char) : readLine blank (trimEnd blank line) = readLine blank line := by
  unfold readLine
  rw [trim_trimEnd]

theorem read_strip (cr : blank '\r' = true) (line : List Char) : readLine blank (stripCr line) = readLine blank line := by
  rcases strip_cases line with same | same
  · rw [same]
  · have kept : trim blank (stripCr line ++ ['\r']) = trim blank (stripCr line) := trim_append_blank _ cr
    unfold readLine
    conv => rhs; rw [same]
    rw [kept]

theorem read_white (clear : white blank line = true) : readLine blank line = .other := by
  have empty : trim blank line = [] := trim_append_white [] clear
  unfold readLine
  rw [empty]
  rfl

theorem read_strips (cr : blank '\r' = true) (shown : List (List Char)) :
    readLines blank (shown.map stripCr) = readLines blank shown := by
  induction shown with
  | nil => rfl
  | cons line rest ih => rw [List.map_cons,readLines,readLines,ih,read_strip cr]

theorem read_linesOf (cr : blank '\r' = true) (shown : List (List Char)) :
    readLines blank (linesOf shown) = readLines blank shown := by
  induction shown with
  | nil => rfl
  | cons line rest ih =>
    cases rest with
    | nil =>
      rw [linesOf]
      split
      · rename_i empty
        rw [empty,read_cons_other (read_white rfl)]
      · rfl
    | cons next rest => rw [linesOf,readLines,ih,read_strip cr,← readLines]

theorem entries_strips (cr : blank '\r' = true) (shown : List (List Char)) :
    entriesOf blank (shown.map stripCr) = entriesOf blank shown := by
  rw [← entries_read,← entries_read,read_strips cr]

theorem entries_linesOf (cr : blank '\r' = true) (shown : List (List Char)) :
    entriesOf blank (linesOf shown) = entriesOf blank shown := by
  rw [← entries_read,← entries_read,read_linesOf cr]

theorem read_lines (cr : blank '\r' = true) (text : List Char) : readLines blank (lines text) = read blank text :=
  read_linesOf cr (text.splitOn '\n')

theorem read_ended (whole : Whole shown) : read blank (ended shown) = readLines blank shown := by
  have parts := split_ended whole []
  rw [List.append_nil] at parts
  have last : (readLines blank (([] : List Char).splitOn '\n')) = ([],[]) :=
    read_cons_other (read_white rfl)
  unfold Library.Ini.read
  rw [parts,read_append (by rw [last]),last,List.append_nil]

theorem read_settle (shown : List (List Char)) : readLines blank (settle blank shown) = readLines blank shown := by
  induction shown with
  | nil => rfl
  | cons line rest ih =>
    rw [settle]
    by_cases none : settle blank rest = []
    · have later : readLines blank rest = ([],[]) := by rw [← ih,none]; rfl
      rw [if_pos none]
      split
      · rename_i clear
        rw [read_cons_other (read_white clear),later]
        rfl
      · conv => rhs; rw [readLines,later]
        rw [readLines,read_trimEnd]
        rfl
    · rw [if_neg none,readLines,readLines,ih]

theorem read_dropWhile (shown : List (List Char)) :
    readLines blank (shown.dropWhile (white blank)) = readLines blank shown := by
  induction shown with
  | nil => rfl
  | cons line rest ih =>
    by_cases clear : white blank line = true
    · rw [List.dropWhile_cons_of_pos clear,ih,read_cons_other (read_white clear)]
    · rw [List.dropWhile_cons_of_neg clear]

theorem read_above (shown : List (List Char)) (closed : (readLines blank below).1 = []) :
    readLines blank (shown.rdropWhile (white blank) ++ below) = readLines blank (shown ++ below) := by
  have parts : shown.rdropWhile (white blank) ++ shown.rtakeWhile (white blank) = shown := List.rdropWhile_append_rtakeWhile
  have clear : readLines blank (shown.rtakeWhile (white blank)) = ([],[]) := by
    rw [read_silent]
    intro line member
    exact read_white (List.mem_rtakeWhile_imp member)
  have both : readLines blank (shown.rtakeWhile (white blank) ++ below) = _ := read_append closed
  rw [clear,List.nil_append] at both
  have same : readLines blank (shown.rtakeWhile (white blank) ++ below) = readLines blank below :=
    both.trans (Prod.ext closed.symm rfl)
  conv => rhs; rw [← parts,List.append_assoc]
  rw [read_append closed,read_append (by rw [same,closed]),same]

end Blank

end ArxRuna.Library.Blocks
