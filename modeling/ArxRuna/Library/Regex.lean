import ArxRuna.Library.Template
namespace ArxRuna.Library.Regex
open Lines

-- A place in a text: what lies before it, the nearest first, and what is left.
structure Place where
  read : List Char
  left : List Char

-- The places where a pattern can end, the preferred one first.
abbrev Pattern := Place → List Place

-- `^` and `$` at every line.
def lineStart : Pattern := fun place => if place.read.head?.all (· = '\n') then [place] else []

def lineEnd : Pattern := fun place => if place.left.head?.all (· = '\n') then [place] else []

def one (p : Char → Bool) : Pattern
  | ⟨_,[]⟩ => []
  | ⟨read,c :: rest⟩ => if p c then [⟨c :: read,rest⟩] else []

-- As many as there are, then one less, and so on.
def manyFrom (p : Char → Bool) : List Char → List Char → List Place
  | read,[] => [⟨read,[]⟩]
  | read,c :: rest => if p c then manyFrom p (c :: read) rest ++ [⟨read,c :: rest⟩] else [⟨read,c :: rest⟩]

def many (p : Char → Bool) : Pattern := fun place => manyFrom p place.read place.left

def chain (first second : Pattern) : Pattern := fun place => (first place).flatMap second

-- A pattern with one group.
structure Grouped where
  front : Pattern
  group : Pattern
  back : Pattern

structure Match where
  start : Place
  opened : Place
  closed : Place
  stop : Place

def Grouped.matchesAt (regex : Grouped) (start : Place) : List Match :=
  (regex.front start).flatMap fun opened =>
    (regex.group opened).flatMap fun closed => (regex.back closed).map fun stop => ⟨start,opened,closed,stop⟩

-- The first place where the pattern matches, and its preferred match there.
def Grouped.findFrom (regex : Grouped) : List Char → List Char → Option Match
  | read,[] => (regex.matchesAt ⟨read,[]⟩).head?
  | read,c :: rest =>
    match (regex.matchesAt ⟨read,c :: rest⟩).head? with
    | some found => some found
    | none => regex.findFrom (c :: read) rest

def Grouped.find (regex : Grouped) (text : List Char) : Option Match := regex.findFrom [] text

def Grouped.next (regex : Grouped) (found : Match) : Option Match := regex.findFrom found.stop.read found.stop.left

def between (first last : Place) : List Char := first.left.take (first.left.length - last.left.length)

def Match.capture (found : Match) : Nat → List Char
  | 0 => between found.start found.stop
  | 1 => between found.opened found.closed
  | _ => []

def Grouped.replaceFirst (regex : Grouped) (template text : List Char) : List Char :=
  match regex.find text with
  | none => text
  | some found => found.start.read.reverse ++ Template.expand found.capture template ++ found.stop.left

theorem between_append (read read' front back : List Char) : between ⟨read,front ++ back⟩ ⟨read',back⟩ = front := by
  simp [between]

-- What follows cannot begin with a repeated character, so only the longest run counts.
theorem many_then {β : Type} (next : Place → List β)
    (stuck : ∀ read c rest, p c = true → next ⟨read,c :: rest⟩ = []) (read left : List Char) :
    (manyFrom p read left).flatMap next = next ⟨(left.takeWhile p).reverse ++ read,left.dropWhile p⟩ := by
  induction left generalizing read with
  | nil => simp [manyFrom]
  | cons c rest ih =>
    by_cases repeated : p c = true
    · have later := ih (c :: read)
      simp [manyFrom,repeated,stuck read c rest repeated,later]
    · simp [manyFrom,repeated]

-- Where `p*$` ends: at the last line end within the run.
def lastEnd (p : Char → Bool) : List Char → Option (List Char)
  | [] => some []
  | c :: rest =>
    match if p c then lastEnd p rest else none with
    | some left => some left
    | none => if c = '\n' then some (c :: rest) else none

theorem many_end (read left : List Char) :
    ((manyFrom p read left).flatMap lineEnd).head?.map Place.left = lastEnd p left := by
  induction left generalizing read with
  | nil => simp [manyFrom,lineEnd,lastEnd]
  | cons c rest ih =>
    have here : (lineEnd ⟨read,c :: rest⟩).head?.map Place.left = if c = '\n' then some (c :: rest) else none := by
      unfold lineEnd
      by_cases ends : c = '\n'
      · simp [ends]
      · simp [ends]
    rw [manyFrom,lastEnd]
    by_cases repeated : p c = true
    · have later := ih (c :: read)
      rw [if_pos repeated,if_pos repeated,← later,List.flatMap_append,List.flatMap_singleton,List.head?_append]
      cases first : ((manyFrom p (c :: read) rest).flatMap lineEnd).head? with
      | none => simpa using here
      | some place => simp
    · rw [if_neg repeated,if_neg repeated,List.flatMap_singleton]
      exact here

theorem last_end_append (free : '\n' ∉ front) (back : List Char) :
    lastEnd p (front ++ back) = if white p front then lastEnd p back else none := by
  induction front with
  | nil => simp [white]
  | cons c rest ih =>
    rw [List.mem_cons,not_or] at free
    rw [List.cons_append,lastEnd,ih free.2]
    by_cases repeated : p c = true
    · by_cases all : white p rest = true
      · have whole : white p (c :: rest) = true := by simpa [white,repeated] using all
        rw [if_pos repeated,if_pos all,if_pos whole,if_neg (Ne.symm free.1)]
        cases lastEnd p back with
        | none => rfl
        | some left => rfl
      · have part : ¬ white p (c :: rest) = true := by simpa [white,repeated] using all
        rw [if_pos repeated,if_neg all,if_neg part,if_neg (Ne.symm free.1)]
    · have part : ¬ white p (c :: rest) = true := by simp [white,repeated]
      rw [if_neg repeated,if_neg part,if_neg (Ne.symm free.1)]

-- White lines are part of the run; the last line end before another line is not.
theorem last_end_tails (newline : p '\n' = true) (whole : Whole rest) :
    lastEnd p (tails rest) = some (tails (rest.dropWhile (white p))) := by
  induction rest with
  | nil => rfl
  | cons line rest ih =>
    rw [Whole,List.forall_mem_cons] at whole
    rw [tails_cons,List.cons_append,lastEnd,if_pos newline,last_end_append whole.1,ih whole.2]
    by_cases all : white p line = true
    · simp [all]
    · simp [all]

end ArxRuna.Library.Regex
