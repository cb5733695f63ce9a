import ArxRuna.Library.Texts
import Mathlib.Data.List.DropRight
namespace ArxRuna.Library.Lines
open Library.Texts (splitOn_whole)

-- A text as lines that are ended, or as the lines below a first one.
def ended (lines : List (List Char)) : List Char := lines.flatMap (· ++ ['\n'])

def tails (lines : List (List Char)) : List Char := lines.flatMap ('\n' :: ·)

def Whole (lines : List (List Char)) : Prop := ∀ line ∈ lines, '\n' ∉ line

-- A line is ended by `\n` or `\r\n`; what follows the last end is a line unless it is empty.
def stripCr (line : List Char) : List Char := if line.getLast? = some '\r' then line.dropLast else line

def linesOf : List (List Char) → List (List Char)
  | [] => []
  | [last] => if last = [] then [] else [last]
  | line :: next :: rest => stripCr line :: linesOf (next :: rest)

def lines (text : List Char) : List (List Char) := linesOf (text.splitOn '\n')

@[simp] theorem ended_nil : ended [] = [] := rfl

@[simp] theorem ended_cons (line : List Char) (rest : List (List Char)) :
    ended (line :: rest) = line ++ '\n' :: ended rest := by
  simp [ended]

@[simp] theorem ended_append (a b : List (List Char)) : ended (a ++ b) = ended a ++ ended b := by
  simp [ended]

@[simp] theorem tails_nil : tails [] = [] := rfl

@[simp] theorem tails_cons (line : List Char) (rest : List (List Char)) :
    tails (line :: rest) = '\n' :: line ++ tails rest := by
  simp [tails]

@[simp] theorem tails_append (a b : List (List Char)) : tails (a ++ b) = tails a ++ tails b := by
  simp [tails]

theorem ended_tails (line : List Char) (rest : List (List Char)) : ended (line :: rest) = line ++ tails rest ++ ['\n'] := by
  induction rest generalizing line with
  | nil => simp
  | cons next rest ih =>
    rw [ended_cons,ih next]
    simp

theorem split_tails (free : '\n' ∉ line) (whole : Whole rest) : (line ++ tails rest).splitOn '\n' = line :: rest := by
  induction rest generalizing line with
  | nil =>
    rw [tails_nil,List.append_nil]
    exact List.splitOn_eq_singleton free
  | cons next rest ih =>
    rw [Whole,List.forall_mem_cons] at whole
    have later := ih whole.1 whole.2
    rw [tails_cons,List.cons_append,List.splitOn_append_cons_self,List.splitOn_eq_singleton free,later]
    rfl

theorem split_ended (whole : Whole before) (text : List Char) :
    (ended before ++ text).splitOn '\n' = before ++ text.splitOn '\n' := by
  induction before with
  | nil => rfl
  | cons line rest ih =>
    rw [Whole,List.forall_mem_cons] at whole
    rw [ended_cons,List.append_assoc,List.cons_append,List.splitOn_append_cons_self,List.splitOn_eq_singleton whole.1,
      ih whole.2]
    rfl

theorem text_tails (text : List Char) : ∃ line rest, text = line ++ tails rest ∧ '\n' ∉ line ∧ Whole rest := by
  induction text with
  | nil => exact ⟨[],[],rfl,List.not_mem_nil,by simp [Whole]⟩
  | cons c text ih =>
    obtain ⟨line,rest,rfl,free,whole⟩ := ih
    by_cases ends : c = '\n'
    · subst ends
      refine ⟨[],line :: rest,by simp,List.not_mem_nil,?_⟩
      rw [Whole,List.forall_mem_cons]
      exact ⟨free,whole⟩
    · refine ⟨c :: line,rest,rfl,?_,whole⟩
      rw [List.mem_cons,not_or]
      exact ⟨Ne.symm ends,free⟩

theorem around_tails {first line : List Char} {rest before after : List (List Char)}
    (split : first :: rest = before ++ line :: after) : first ++ tails rest = ended before ++ line ++ tails after := by
  induction before generalizing first rest with
  | nil =>
    cases split
    rfl
  | cons other before ih =>
    obtain ⟨rfl,later⟩ := List.cons.inj split
    cases rest with
    | nil => simp at later
    | cons next rest =>
      have below := ih later
      rw [tails_cons,ended_cons]
      simp only [List.cons_append,List.append_assoc] at below ⊢
      rw [below]

theorem text_around (split : text.splitOn '\n' = before ++ line :: after) :
    text = ended before ++ line ++ tails after := by
  obtain ⟨first,rest,rfl,free,whole⟩ := text_tails text
  rw [split_tails free whole] at split
  exact around_tails split

theorem split_whole (text : List Char) : Whole (text.splitOn '\n') := splitOn_whole text

theorem linesOf_append (before : List (List Char)) (filled : after ≠ []) :
    linesOf (before ++ after) = before.map stripCr ++ linesOf after := by
  induction before with
  | nil => rfl
  | cons line rest ih =>
    obtain ⟨next,later,split⟩ := List.exists_cons_of_ne_nil (List.append_ne_nil_of_right_ne_nil rest filled)
    rw [List.cons_append,split,linesOf,← split,ih]
    rfl

theorem lines_ended (whole : Whole before) (text : List Char) :
    lines (ended before ++ text) = before.map stripCr ++ lines text := by
  unfold lines
  rw [split_ended whole]
  exact linesOf_append before (List.splitOn_ne_nil '\n' text)

theorem lines_whole (whole : Whole before) : lines (ended before) = before.map stripCr := by
  have all := lines_ended whole []
  simpa [lines,linesOf] using all

theorem strip_append (line : List Char) (other : c ≠ '\r') : stripCr (line ++ [c]) = line ++ [c] := by
  simp [stripCr,other]

theorem strip_cases (line : List Char) : stripCr line = line ∨ line = stripCr line ++ ['\r'] := by
  unfold stripCr
  split
  · rename_i last
    right
    exact (List.dropLast_append_getLast? _ last).symm
  · left
    rfl

section Blank
variable (blank : Char → Bool)

def white (line : List Char) : Bool := line.all blank

def trimEnd (text : List Char) : List Char := text.rdropWhile blank

def settle : List (List Char) → List (List Char)
  | [] => []
  | line :: rest =>
    if settle rest = [] then (if white blank line then [] else [trimEnd blank line])
    else line :: settle rest

def visible (text : List Char) : Nat := text.countP (! blank ·)

variable {blank}

theorem white_iff : white blank line = true ↔ ∀ c ∈ line, blank c = true := List.all_eq_true

theorem trim_white : trimEnd blank text = [] ↔ white blank text = true := by
  unfold trimEnd
  rw [List.rdropWhile_eq_nil_iff,white_iff]

theorem trim_append (front back : List Char) :
    trimEnd blank (front ++ back) = if white blank back then trimEnd blank front else front ++ trimEnd blank back := by
  unfold trimEnd List.rdropWhile white
  rw [List.reverse_append,List.dropWhile_append]
  by_cases seen : back.all blank = true
  · have gone : back.reverse.dropWhile blank = [] := by
      rw [List.dropWhile_eq_nil_iff]
      intro c member
      exact List.all_eq_true.mp seen c (List.mem_reverse.mp member)
    simp [gone,seen]
  · have stays : back.reverse.dropWhile blank ≠ [] := by
      intro gone
      apply seen
      rw [List.all_eq_true]
      intro c member
      exact List.dropWhile_eq_nil_iff.mp gone c (List.mem_reverse.mpr member)
    simp [stays,seen]

theorem trim_closed (text : List Char) (closed : blank c = false) : trimEnd blank (text ++ [c]) = text ++ [c] := by
  apply List.rdropWhile_concat_neg
  simp [closed]

theorem trim_trim (text : List Char) : trimEnd blank (trimEnd blank text) = trimEnd blank text :=
  List.rdropWhile_idempotent blank text

theorem trim_begins (text : List Char) : trimEnd blank text <+: text := List.rdropWhile_prefix blank text

theorem settle_nil : settle blank rest = [] ↔ ∀ line ∈ rest, white blank line = true := by
  induction rest with
  | nil => simp [settle]
  | cons line rest ih =>
    rw [List.forall_mem_cons,← ih,settle]
    by_cases later : settle blank rest = []
    · by_cases seen : white blank line = true
      · simp [later,seen]
      · simp [later,seen]
    · simp [later]

theorem settle_append_empty (rest : List (List Char)) : settle blank (rest ++ [[]]) = settle blank rest := by
  induction rest with
  | nil => simp [settle,white]
  | cons line rest ih => rw [List.cons_append,settle,settle,ih]

theorem settle_settle (rest : List (List Char)) : settle blank (settle blank rest) = settle blank rest := by
  induction rest with
  | nil => rfl
  | cons line rest ih =>
    rw [settle]
    by_cases later : settle blank rest = []
    · by_cases seen : white blank line = true
      · simp [later,seen,settle]
      · have stays : white blank (trimEnd blank line) ≠ true := by
          rw [Ne,← trim_white,trim_trim,trim_white]
          exact seen
        simp [later,seen,settle,stays,trim_trim]
    · rw [if_neg later,settle,ih,if_neg later]

theorem settle_members (rest : List (List Char)) : ∀ line ∈ settle blank rest, ∃ other ∈ rest, line <+: other := by
  induction rest with
  | nil => simp [settle]
  | cons first rest ih =>
    rw [settle]
    split
    · split
      · simp
      · intro line member
        rw [List.mem_singleton.mp member]
        exact ⟨first,List.mem_cons_self,trim_begins first⟩
    · intro line member
      rcases List.mem_cons.mp member with rfl | later
      · exact ⟨line,List.mem_cons_self,List.prefix_refl line⟩
      · obtain ⟨other,there,begins⟩ := ih line later
        exact ⟨other,List.mem_cons_of_mem first there,begins⟩

theorem settle_whole (whole : Whole rest) : Whole (settle blank rest) := by
  intro line member ends
  obtain ⟨other,there,begins⟩ := settle_members rest line member
  exact whole other there (begins.subset ends)

variable (newline : blank '\n' = true) (cr : blank '\r' = true)
include newline

theorem white_tails : white blank (tails rest) = true ↔ ∀ line ∈ rest, white blank line = true := by
  induction rest with
  | nil => simp [white]
  | cons line rest ih =>
    rw [List.forall_mem_cons,← ih,tails_cons]
    simp [white,newline,Bool.and_eq_true]

theorem trim_tails (rest : List (List Char)) : trimEnd blank (tails rest) = tails (settle blank rest) := by
  induction rest with
  | nil => rfl
  | cons line rest ih =>
    have here : white blank ['\n'] = true := by simp [white,newline]
    have first : trimEnd blank ('\n' :: line) = if white blank line then [] else '\n' :: trimEnd blank line := by
      have both : trimEnd blank (['\n'] ++ line) = _ := trim_append ['\n'] line
      rw [trim_white.mpr here] at both
      exact both
    rw [tails_cons,trim_append,settle,ih,first]
    by_cases gone : settle blank rest = []
    · rw [if_pos ((white_tails newline).mpr (settle_nil.mp gone)),if_pos gone]
      split
      · rfl
      · simp
    · rw [if_neg fun seen => gone (settle_nil.mpr ((white_tails newline).mp seen)),if_neg gone,tails_cons]

theorem visible_ended (lines : List (List Char)) : visible blank (ended lines) = (lines.map (visible blank)).sum := by
  induction lines with
  | nil => rfl
  | cons line rest ih =>
    unfold visible at ih ⊢
    rw [ended_cons,List.countP_append,List.countP_cons,ih]
    simp [newline]

theorem visible_tails (lines : List (List Char)) : visible blank (tails lines) = (lines.map (visible blank)).sum := by
  induction lines with
  | nil => rfl
  | cons line rest ih =>
    unfold visible at ih ⊢
    rw [tails_cons,List.countP_append,List.countP_cons,ih]
    simp [newline]

end Blank

end ArxRuna.Library.Lines
