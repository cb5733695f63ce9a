import ArxRuna.Library.Texts
import Mathlib.Data.List.DropRight
namespace ArxRuna.Library.Ini
open Library.Texts

structure Entry where
  key : List Char
  value : List Char
  deriving DecidableEq

structure Stanza where
  name : List Char
  entries : List Entry
  deriving DecidableEq

-- `[name]`, then one line for each entry.
def Entry.line (entry : Entry) : List Char := entry.key ++ [' ','=',' '] ++ entry.value

def renderEntries : List Entry → List Char
  | [] => []
  | entry :: rest => entry.line ++ '\n' :: renderEntries rest

def Stanza.render (stanza : Stanza) : List Char := ('[' :: stanza.name ++ [']']) ++ '\n' :: renderEntries stanza.entries

-- Which characters count as white space is the reader's choice.
variable (blank : Char → Bool)

def trim (text : List Char) : List Char := (text.dropWhile blank).rdropWhile blank

inductive Line where
  | header (name : List Char)
  | entry (found : Entry)
  | other

def readLine (line : List Char) : Line :=
  let trimmed := trim blank line
  if ['['].isPrefixOf trimmed && [']'].isSuffixOf trimmed then .header (trimmed.drop 1).dropLast
  else match splitOnce '=' trimmed with
    | some halves => .entry ⟨trim blank halves.1,trim blank halves.2⟩
    | none => .other

def readLines : List (List Char) → List Entry × List Stanza
  | [] => ([],[])
  | line :: rest =>
    let (leading,stanzas) := readLines rest
    match readLine blank line with
    | .header name => ([],⟨name,leading⟩ :: stanzas)
    | .entry found => (found :: leading,stanzas)
    | .other => (leading,stanzas)

def read (text : List Char) : List Entry × List Stanza := readLines blank (text.splitOn '\n')

-- What one line can carry as a value.
def OneLine (value : List Char) : Prop := '\n' ∉ value ∧ trim blank value = value

instance (value : List Char) : Decidable (OneLine blank value) := by unfold OneLine; infer_instance

structure PlainKey (key : List Char) : Prop where
  filled : key ≠ []
  free : '\n' ∉ key ∧ '=' ∉ key ∧ '[' ∉ key
  trimmed : trim blank key = key

variable {blank}

theorem trim_ends (front : ∀ filled : text ≠ [], blank (text.head filled) = false)
    (back : ∀ filled : text ≠ [], blank (text.getLast filled) = false) : trim blank text = text := by
  cases text with
  | nil => rfl
  | cons c rest =>
    have dropped : (c :: rest).dropWhile blank = c :: rest := by
      have first := front (List.cons_ne_nil c rest)
      simp only [List.head_cons] at first
      simp [first]
    rw [trim,dropped,List.rdropWhile_eq_self_iff]
    intro filled
    simpa using back filled

theorem trim_back (filled : trim blank text ≠ []) : blank ((trim blank text).getLast filled) = false := by
  simpa [trim] using List.rdropWhile_last_not blank (text.dropWhile blank) filled

theorem trim_front (filled : trim blank text ≠ []) : blank ((trim blank text).head filled) = false := by
  have first : (trim blank text).head filled = (text.dropWhile blank).head
      ((List.rdropWhile_prefix blank (text.dropWhile blank)).ne_nil filled) :=
    (List.rdropWhile_prefix blank (text.dropWhile blank)).head filled
  rw [first]
  exact List.head_dropWhile_not blank _

theorem trim_trim (text : List Char) : trim blank (trim blank text) = trim blank text := by
  apply trim_ends
  · exact trim_front
  · exact trim_back

theorem mem_trim (member : c ∈ trim blank text) : c ∈ text :=
  (List.dropWhile_suffix blank).subset ((List.rdropWhile_prefix blank (text.dropWhile blank)).subset member)

theorem read_line_value (line : List Char) (found : Entry) (read : readLine blank line = .entry found) (free : '\n' ∉ line) :
    OneLine blank found.value := by
  unfold readLine at read
  dsimp only at read
  split at read
  · cases read
  · split at read
    · rename_i halves split
      cases read
      refine ⟨fun member => ?_,trim_trim _⟩
      obtain ⟨whole,_⟩ := splitOnce_parts split
      have there : '\n' ∈ trim blank line := by
        rw [whole]
        exact List.mem_append_right _ (List.mem_cons_of_mem _ (mem_trim member))
      exact free (mem_trim there)
    · cases read

theorem read_lines_values (lines : List (List Char)) (free : ∀ line ∈ lines, '\n' ∉ line) :
    (∀ found ∈ (readLines blank lines).1, OneLine blank found.value) ∧
      ∀ stanza ∈ (readLines blank lines).2, ∀ found ∈ stanza.entries, OneLine blank found.value := by
  induction lines with
  | nil => simp [readLines]
  | cons line rest ih =>
    obtain ⟨leading,stanzas⟩ := ih fun other member => free other (List.mem_cons_of_mem _ member)
    rw [readLines]
    dsimp only
    cases found : readLine blank line with
    | header name =>
      refine ⟨by simp,?_⟩
      rw [List.forall_mem_cons]
      exact ⟨leading,stanzas⟩
    | entry entry =>
      refine ⟨?_,stanzas⟩
      rw [List.forall_mem_cons]
      exact ⟨read_line_value line entry found (free line List.mem_cons_self),leading⟩
    | other => exact ⟨leading,stanzas⟩

theorem read_values (text : List Char) :
    ∀ stanza ∈ (read blank text).2, ∀ found ∈ stanza.entries, OneLine blank found.value :=
  (read_lines_values (text.splitOn '\n') (splitOn_whole text)).2

theorem lines_cons (whole : '\n' ∉ line) (rest : List Char) :
    (line ++ '\n' :: rest).splitOn '\n' = line :: rest.splitOn '\n' := by
  rw [List.splitOn_append_cons_self,List.splitOn_eq_singleton whole]
  rfl

theorem trim_append_blank (text : List Char) (space : blank c = true) : trim blank (text ++ [c]) = trim blank text := by
  by_cases empty : text.dropWhile blank = []
  · have all : ∀ d ∈ text, blank d = true := List.dropWhile_eq_nil_iff.mp empty
    have all' : (text ++ [c]).dropWhile blank = [] := by
      rw [List.dropWhile_eq_nil_iff]
      intro d member
      rcases List.mem_append.mp member with early | last
      · exact all d early
      · rw [List.mem_singleton.mp last]
        exact space
    rw [trim,trim,all',empty]
  · have front : (text ++ [c]).dropWhile blank = text.dropWhile blank ++ [c] := by
      rw [List.dropWhile_append]
      simp [empty]
    rw [trim,front,List.rdropWhile_concat_pos _ _ _ space]
    rfl

theorem trim_cons_blank (text : List Char) (space : blank c = true) : trim blank (c :: text) = trim blank text := by
  simp [trim,space]

section Spelling
variable (space : blank ' ' = true) (equals : blank '=' = false) (opens : blank '[' = false) (closes : blank ']' = false)
include opens closes

theorem read_header_line (name : List Char) : readLine blank ('[' :: name ++ [']']) = .header name := by
  have whole : trim blank ('[' :: name ++ [']']) = '[' :: name ++ [']'] := by
    apply trim_ends
    · intro filled
      simpa using opens
    · intro filled
      simpa using closes
  have brackets : (['['].isPrefixOf ('[' :: name ++ [']']) && [']'].isSuffixOf ('[' :: name ++ [']'])) = true := by
    simp [List.isSuffixOf]
  unfold readLine
  dsimp only
  rw [whole,if_pos brackets]
  simp

omit opens closes
include space equals

theorem read_entry_line (plain : PlainKey blank entry.key) (fits : trim blank entry.value = entry.value) :
    readLine blank entry.line = .entry entry := by
  obtain ⟨k,v⟩ := entry
  obtain ⟨filled,⟨_,noEquals,noBracket⟩,trimmed⟩ := plain
  dsimp only at filled noEquals noBracket trimmed fits
  have front : blank (k.head filled) = false := by
    have still : trim blank k ≠ [] := by rwa [trimmed]
    have first := trim_front still
    simpa only [trimmed] using first
  have split : ∃ after, trim blank (Entry.line ⟨k,v⟩) = (k ++ [' ']) ++ '=' :: after ∧ trim blank after = v := by
    by_cases empty : v = []
    · subst empty
      refine ⟨[],?_,rfl⟩
      have short : trim blank ((k ++ [' ','=']) ++ [' ']) = trim blank (k ++ [' ','=']) := trim_append_blank _ space
      have ends : trim blank (k ++ [' ','=']) = k ++ [' ','='] := by
        apply trim_ends
        · intro some
          simpa [List.head_append_of_ne_nil filled] using front
        · intro some
          simpa using equals
      simpa [Entry.line] using short.trans ends
    · refine ⟨' ' :: v,?_,(trim_cons_blank v space).trans fits⟩
      have whole : trim blank (Entry.line ⟨k,v⟩) = Entry.line ⟨k,v⟩ := by
        apply trim_ends
        · intro some
          simpa [Entry.line,List.head_append_of_ne_nil filled] using front
        · intro some
          have still : trim blank v ≠ [] := by rwa [fits]
          have back := trim_back still
          simpa [Entry.line,fits,List.getLast_append_of_ne_nil,empty] using back
      rw [whole]
      simp [Entry.line]
  obtain ⟨after,line,value⟩ := split
  have noHeader : (['['].isPrefixOf ((k ++ [' ']) ++ '=' :: after)) = false := by
    cases k with
    | nil => exact absurd rfl filled
    | cons c rest =>
      rw [List.mem_cons,not_or] at noBracket
      have apart : ('[' == c) = false := by simpa using noBracket.1
      change ('[' == c && List.isPrefixOf [] _) = false
      rw [apart,Bool.false_and]
  have first : '=' ∉ k ++ [' '] := by simp [noEquals]
  unfold readLine
  dsimp only
  rw [line,noHeader,Bool.false_and,if_neg Bool.false_ne_true,splitOnce_first first]
  dsimp only
  rw [value,trim_append_blank k space,trimmed]

theorem read_entries (plain : ∀ entry ∈ entries, PlainKey blank entry.key)
    (fits : ∀ entry ∈ entries, OneLine blank entry.value) : read blank (renderEntries entries) = (entries,[]) := by
  induction entries with
  | nil => simp [read,renderEntries,readLines,readLine,trim,splitOnce]
  | cons entry rest ih =>
    rw [List.forall_mem_cons] at plain fits
    have free : '\n' ∉ entry.line := by
      simp [Entry.line,plain.1.free.1,fits.1.1]
    have later := ih plain.2 fits.2
    unfold read at later ⊢
    rw [renderEntries,lines_cons free,readLines,later]
    dsimp only
    rw [read_entry_line space equals plain.1 fits.1.2]

include opens closes

-- A rendered stanza reads back as itself exactly when each value fits one line.
theorem read_render (named : '\n' ∉ stanza.name) (plain : ∀ entry ∈ stanza.entries, PlainKey blank entry.key) :
    read blank stanza.render = ([],[stanza]) ↔ ∀ entry ∈ stanza.entries, OneLine blank entry.value := by
  constructor
  · intro back entry member
    apply read_values stanza.render stanza
    · rw [back]
      exact List.mem_singleton_self stanza
    · exact member
  · intro fits
    have free : '\n' ∉ '[' :: stanza.name ++ [']'] := by simp [named]
    have later := read_entries space equals plain fits
    unfold read at later ⊢
    rw [Stanza.render,lines_cons free,readLines,later]
    dsimp only
    rw [read_header_line opens closes]

end Spelling

end ArxRuna.Library.Ini
