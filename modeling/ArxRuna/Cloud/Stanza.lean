import ArxRuna.Library.Regex
import ArxRuna.Sharing.SessionConf
import ArxRuna.Store.Tables
namespace ArxRuna.Cloud.Stanza
open Library.Lines Library.Regex Library.Template Store.Tables
open Sharing.RemotePath (Text)
open Sharing.SessionConf (isWhitespace)

def notClosing (c : Char) : Bool := c ≠ ']' && c ≠ '\r' && c ≠ '\n'

-- `(?m)^\s*\[([^\]\r\n]+)\]\s*$`
def stanzaHeaderRegex : Grouped where
  front := chain lineStart (chain (many isWhitespace) (one (· = '[')))
  group := chain (one notClosing) (many notClosing)
  back := chain (one (· = ']')) (chain (many isWhitespace) lineEnd)

def header (name : Text) : Text := '[' :: name ++ [']']

def validateSingleRemoteStanza (rcloneConfigBlob expectedRemoteName : Text) : Except StorageError Text :=
  if white isWhitespace rcloneConfigBlob then
    .error (.constraintViolation "rclone_config_blob must contain exactly one remote stanza")
  else match stanzaHeaderRegex.find rcloneConfigBlob with
    | none => .error (.constraintViolation "rclone_config_blob must contain exactly one remote stanza header")
    | some first =>
      if (stanzaHeaderRegex.next first).isSome then
        .error (.constraintViolation "rclone_config_blob must not contain multiple remote stanzas")
      else
        let rewritten := stanzaHeaderRegex.replaceFirst (header expectedRemoteName) rcloneConfigBlob
        .ok (trimEnd isWhitespace rewritten ++ ['\n'])

-- A bracketed name after white space, and what stands behind it.
def opening (left : Text) : Option (Text × Text) :=
  match left.dropWhile isWhitespace with
  | '[' :: inside =>
    match inside.dropWhile notClosing with
    | ']' :: behind => if inside.takeWhile notClosing ≠ [] then some (inside.takeWhile notClosing,behind) else none
    | _ => none
  | _ => none

-- The name on a line that the pattern takes for a header.
def headerName (line : Text) : Option Text :=
  (opening line).bind fun found => if white isWhitespace found.2 then some found.1 else none

def isHeader (line : Text) : Bool := (headerName line).isSome

def headerAt (left : Text) : Option (Text × Text) :=
  (opening left).bind fun found => (lastEnd isWhitespace found.2).map (found.1,·)

variable {read left line name behind spaces blob old out : Text} {rest before after : List Text}

theorem newline_white : isWhitespace '\n' = true := rfl

theorem opens_seen : isWhitespace '[' = false := rfl

theorem closes_seen : isWhitespace ']' = false := rfl

theorem closing_stops : notClosing ']' = false := rfl

theorem front_at (start : lineStart ⟨read,left⟩ = [⟨read,left⟩]) :
    stanzaHeaderRegex.front ⟨read,left⟩ =
      one (· = '[') ⟨(left.takeWhile isWhitespace).reverse ++ read,left.dropWhile isWhitespace⟩ := by
  have stuck : ∀ before c rest, isWhitespace c = true → one (· = '[') ⟨before,c :: rest⟩ = [] := by
    intro before c rest space
    have other : c ≠ '[' := by
      rintro rfl
      cases space
    simp [one,other]
  change (lineStart ⟨read,left⟩).flatMap _ = _
  rw [start,List.flatMap_singleton]
  exact many_then _ stuck read left

theorem group_then {β : Type} (next : Place → List β)
    (stuck : ∀ read c rest, notClosing c = true → next ⟨read,c :: rest⟩ = []) (read inside : Text) :
    (stanzaHeaderRegex.group ⟨read,inside⟩).flatMap next =
      if inside.takeWhile notClosing ≠ [] then
        next ⟨(inside.takeWhile notClosing).reverse ++ read,inside.dropWhile notClosing⟩
      else [] := by
  cases inside with
  | nil => rfl
  | cons c rest =>
    change ((one notClosing ⟨read,c :: rest⟩).flatMap (many notClosing)).flatMap next = _
    by_cases goes : notClosing c = true
    · have run := many_then next stuck (c :: read) rest
      simpa [one,goes,many] using run
    · simp [one,goes]

theorem back_at (read behind : Text) :
    ((stanzaHeaderRegex.back ⟨read,']' :: behind⟩).head?).map Place.left = lastEnd isWhitespace behind := by
  change (((one (· = ']') ⟨read,']' :: behind⟩).flatMap _).head?).map Place.left = _
  simp only [one,decide_true,if_true,List.flatMap_singleton]
  exact many_end (']' :: read) behind

theorem back_stuck (read : Text) (c : Char) (rest : Text) (goes : c ≠ ']') :
    stanzaHeaderRegex.back ⟨read,c :: rest⟩ = [] := by
  change (one (· = ']') ⟨read,c :: rest⟩).flatMap _ = _
  simp [one,goes]

theorem matches_at (start : lineStart ⟨read,left⟩ = [⟨read,left⟩]) :
    ((stanzaHeaderRegex.matchesAt ⟨read,left⟩).head?).map (fun found => (found.capture 1,found.stop.left)) =
      headerAt left := by
  unfold Grouped.matchesAt headerAt opening
  rw [front_at start]
  cases seen : left.dropWhile isWhitespace with
  | nil => rfl
  | cons c inside =>
    by_cases opens : c = '['
    · subst opens
      simp only [one,decide_true,if_true,List.flatMap_singleton]
      rw [group_then _ fun read c rest goes => by
        rw [back_stuck read c rest]
        · rfl
        · rintro rfl
          cases goes]
      have parts := List.takeWhile_append_dropWhile (p := notClosing) (l := inside)
      generalize inside.takeWhile notClosing = name at parts ⊢
      generalize inside.dropWhile notClosing = behind at parts ⊢
      subst parts
      by_cases named : name = []
      · subst named
        simp only [ne_eq,not_true_eq_false,if_false,List.head?_nil,Option.map_none]
        split
        · rfl
        · rfl
      · rw [if_pos named]
        cases behind with
        | nil => rfl
        | cons d behind =>
          by_cases closes : d = ']'
          · subst closes
            simp only [ne_eq,named,not_false_eq_true,if_true,Option.bind_some]
            rw [← back_at,List.head?_map,Option.map_map,Option.map_map]
            congr 1
            funext stop
            change (between _ _,stop.left) = (name,stop.left)
            rw [between_append]
          · rw [back_stuck _ _ _ closes]
            split
            · rename_i same
              exact absurd (List.cons.inj same).1 closes
            · rfl
    · have none : one (· = '[') ⟨(left.takeWhile isWhitespace).reverse ++ read,c :: inside⟩ = [] := by
        simp [one,opens]
      rw [none]
      split
      · rename_i same
        exact absurd (List.cons.inj same).1 opens
      · rfl

theorem drop_white (seen : ¬ white isWhitespace line = true) : line.dropWhile isWhitespace ≠ [] := by
  intro gone
  exact seen (white_iff.mpr (List.dropWhile_eq_nil_iff.mp gone))

theorem opening_append (seen : ¬ white isWhitespace line = true)
    (below : ∀ c ∈ left.head?, notClosing c = false ∧ c ≠ ']') :
    opening (line ++ left) = (opening line).map fun found => (found.1,found.2 ++ left) := by
  have front : (line ++ left).dropWhile isWhitespace = line.dropWhile isWhitespace ++ left := by
    rw [List.dropWhile_append,if_neg (mt List.isEmpty_iff.mp (drop_white seen))]
  have stops : left.takeWhile notClosing = [] ∧ left.dropWhile notClosing = left := by
    cases left with
    | nil => exact ⟨rfl,rfl⟩
    | cons c rest => simp [(below c rfl).1]
  unfold opening
  rw [front]
  cases begins : line.dropWhile isWhitespace with
  | nil => exact absurd begins (drop_white seen)
  | cons c inside =>
    by_cases opens : c = '['
    · subst opens
      have take : (inside ++ left).takeWhile notClosing = inside.takeWhile notClosing := by
        rw [List.takeWhile_append]
        split
        · rename_i all
          rw [stops.1,List.append_nil]
          exact ((List.takeWhile_prefix notClosing).eq_of_length all).symm
        · rfl
      simp only [List.cons_append]
      rw [take,List.dropWhile_append]
      cases ends : inside.dropWhile notClosing with
      | nil =>
        simp only [List.isEmpty_nil,if_true]
        rw [stops.2]
        cases left with
        | nil => rfl
        | cons c rest =>
          split
          · rename_i same
            exact absurd (List.cons.inj same).1 (below c rfl).2
          · rfl
      | cons d behind =>
        rw [if_neg (by simp)]
        by_cases closes : d = ']'
        · subst closes
          by_cases named : inside.takeWhile notClosing = []
          · simp [named]
          · simp [named]
        · simp only [List.cons_append]
          split
          · rename_i same
            exact absurd (List.cons.inj same).1 closes
          · split
            · rename_i same
              exact absurd (List.cons.inj same).1 closes
            · rfl
    · simp only [List.cons_append]
      split
      · rename_i same
        exact absurd (List.cons.inj same).1 opens
      · split
        · rename_i same
          exact absurd (List.cons.inj same).1 opens
        · rfl

theorem opening_white (blank : white isWhitespace line = true) (left : Text) : opening (line ++ left) = opening left := by
  unfold opening
  rw [List.dropWhile_append_of_pos (white_iff.mp blank)]

theorem opening_behind (found : opening line = some (name,behind)) :
    ∃ spaces, white isWhitespace spaces = true ∧ line = spaces ++ '[' :: name ++ ']' :: behind ∧ name ≠ [] ∧
      ∀ c ∈ name, notClosing c = true := by
  unfold opening at found
  split at found
  · rename_i inside begins
    split at found
    · rename_i after ends
      split at found
      · rename_i named
        cases found
        refine ⟨line.takeWhile isWhitespace,?_,?_,named,?_⟩
        · rw [white_iff]
          intro c member
          exact List.mem_takeWhile_imp member
        · have whole := List.takeWhile_append_dropWhile (p := isWhitespace) (l := line)
          have inner := List.takeWhile_append_dropWhile (p := notClosing) (l := inside)
          rw [ends] at inner
          rw [begins,← inner] at whole
          simpa using whole.symm
        · intro c member
          exact List.mem_takeWhile_imp member
      · cases found
    · cases found
  · cases found

theorem opening_header (named : name ≠ []) (plain : ∀ c ∈ name, notClosing c = true) (blank : white isWhitespace spaces = true)
    (behind : Text) : opening (spaces ++ '[' :: name ++ ']' :: behind) = some (name,behind) := by
  rw [List.append_assoc,opening_white blank]
  have start : ('[' :: name ++ ']' :: behind).dropWhile isWhitespace = '[' :: (name ++ ']' :: behind) := rfl
  have take : (name ++ ']' :: behind).takeWhile notClosing = name := by
    rw [List.takeWhile_append_of_pos plain]
    simp [closing_stops]
  have drop : (name ++ ']' :: behind).dropWhile notClosing = ']' :: behind := by
    rw [List.dropWhile_append_of_pos plain]
    rfl
  unfold opening
  rw [start]
  simp only [take,drop]
  exact if_pos named

theorem header_at_seen (free : '\n' ∉ line) (seen : ¬ white isWhitespace line = true) (whole : Whole rest) :
    headerAt (line ++ tails rest) = (headerName line).map (·,tails (rest.dropWhile (white isWhitespace))) := by
  have below : ∀ c ∈ (tails rest).head?, notClosing c = false ∧ c ≠ ']' := by
    cases rest with
    | nil => simp
    | cons next rest =>
      rintro c ⟨⟩
      exact ⟨rfl,by decide⟩
  rw [headerAt,opening_append seen below,headerName]
  cases shown : opening line with
  | none => rfl
  | some found =>
    obtain ⟨name,behind⟩ := found
    obtain ⟨spaces,_,rfl,_⟩ := opening_behind shown
    have inner : '\n' ∉ behind := by
      intro member
      apply free
      simp [member]
    simp only [Option.map_some,Option.bind_some]
    rw [last_end_append inner,last_end_tails newline_white whole]
    split
    · rfl
    · rfl

theorem header_at_lines (free : '\n' ∉ line) (whole : Whole rest) :
    headerAt (line ++ tails rest) =
      match (line :: rest).dropWhile (white isWhitespace) with
      | [] => none
      | first :: after => (headerName first).map (·,tails (after.dropWhile (white isWhitespace))) := by
  induction rest generalizing line with
  | nil =>
    by_cases blank : white isWhitespace line = true
    · rw [headerAt,opening_white blank]
      simp [blank,opening]
    · rw [header_at_seen free blank whole]
      simp [blank]
  | cons next rest ih =>
    by_cases blank : white isWhitespace line = true
    · have both := whole
      rw [Whole,List.forall_mem_cons] at both
      have below := ih both.1 both.2
      have ends : white isWhitespace ['\n'] = true := rfl
      rw [headerAt,opening_white blank,tails_cons]
      have again : opening ('\n' :: next ++ tails rest) = opening (next ++ tails rest) := opening_white ends _
      rw [again]
      rw [headerAt] at below
      rw [below,List.dropWhile_cons_of_pos blank]
    · rw [header_at_seen free blank whole]
      simp [blank]

theorem line_start (place : Place) (start : place.read.head?.all (· = '\n') = true) : lineStart place = [place] :=
  if_pos start

theorem matches_inside {place : Place} (inside : ¬ place.read.head?.all (· = '\n') = true) :
    stanzaHeaderRegex.matchesAt place = [] := by
  have none : lineStart place = [] := if_neg inside
  change ((lineStart place).flatMap _).flatMap _ = []
  rw [none]
  rfl

theorem find_skip (inside : ¬ read.head?.all (· = '\n') = true) (free : '\n' ∉ line) :
    stanzaHeaderRegex.findFrom read (line ++ tails rest) =
      match rest with
      | [] => none
      | next :: later => stanzaHeaderRegex.findFrom ('\n' :: line.reverse ++ read) (next ++ tails later) := by
  induction line generalizing read with
  | nil =>
    cases rest with
    | nil =>
      rw [List.nil_append,tails_nil,Grouped.findFrom,matches_inside inside]
      rfl
    | cons next later =>
      rw [List.nil_append,tails_cons,List.cons_append,Grouped.findFrom,matches_inside inside]
      rfl
  | cons c line ih =>
    rw [List.mem_cons,not_or] at free
    have still : ¬ (c :: read).head?.all (· = '\n') = true := by
      simpa using Ne.symm free.1
    rw [List.cons_append,Grouped.findFrom,matches_inside inside]
    simp only [List.head?_nil]
    rw [ih still free.2]
    simp

theorem find_line (free : '\n' ∉ line) :
    stanzaHeaderRegex.findFrom read (line ++ tails rest) =
      match (stanzaHeaderRegex.matchesAt ⟨read,line ++ tails rest⟩).head? with
      | some found => some found
      | none => match rest with
        | [] => none
        | next :: later => stanzaHeaderRegex.findFrom ('\n' :: line.reverse ++ read) (next ++ tails later) := by
  cases line with
  | nil =>
    cases rest with
    | nil =>
      rw [List.nil_append,tails_nil,Grouped.findFrom]
      cases (stanzaHeaderRegex.matchesAt ⟨read,[]⟩).head? <;> rfl
    | cons next later =>
      rw [List.nil_append,tails_cons,List.cons_append,Grouped.findFrom]
      cases (stanzaHeaderRegex.matchesAt ⟨read,'\n' :: (next ++ tails later)⟩).head? <;> rfl
  | cons c line =>
    rw [List.mem_cons,not_or] at free
    have still : ¬ (c :: read).head?.all (· = '\n') = true := by
      simpa using Ne.symm free.1
    rw [List.cons_append,Grouped.findFrom]
    cases (stanzaHeaderRegex.matchesAt ⟨read,c :: (line ++ tails rest)⟩).head? with
    | some found => rfl
    | none =>
      simp only []
      rw [find_skip still free.2]
      simp

theorem matches_none (start : read.head?.all (· = '\n') = true) (none : headerAt left = none) :
    (stanzaHeaderRegex.matchesAt ⟨read,left⟩).head? = .none := by
  have found := matches_at (line_start ⟨read,left⟩ start)
  rw [none] at found
  exact Option.map_eq_none_iff.mp found

theorem header_none (free : '\n' ∉ line) (whole : Whole rest)
    (plain : ∀ other, other ∈ ((line :: rest).dropWhile (white isWhitespace)).head? → headerName other = none) :
    headerAt (line ++ tails rest) = none := by
  rw [header_at_lines free whole]
  cases shown : (line :: rest).dropWhile (white isWhitespace) with
  | nil => rfl
  | cons first after =>
    rw [shown] at plain
    dsimp only
    rw [plain first rfl]
    rfl

theorem find_none (start : read.head?.all (· = '\n') = true) (free : '\n' ∉ line) (whole : Whole rest)
    (plain : ∀ other ∈ line :: rest, headerName other = none) :
    stanzaHeaderRegex.findFrom read (line ++ tails rest) = none := by
  have none : headerAt (line ++ tails rest) = none := by
    apply header_none free whole
    intro other member
    exact plain other ((List.dropWhile_suffix _).subset (List.mem_of_mem_head? member))
  rw [find_line free,matches_none start none]
  induction rest generalizing read line with
  | nil => rfl
  | cons next rest ih =>
    rw [Whole,List.forall_mem_cons] at whole
    rw [List.forall_mem_cons] at plain
    have below : headerAt (next ++ tails rest) = .none := by
      apply header_none whole.1 whole.2
      intro other member
      exact plain.2 other ((List.dropWhile_suffix _).subset (List.mem_of_mem_head? member))
    dsimp only
    rw [find_line whole.1,matches_none rfl below]
    exact ih rfl whole.1 whole.2 plain.2 below

theorem name_seen (named : headerName line = some name) : ¬ white isWhitespace line = true := by
  intro blank
  have none : opening (line ++ []) = opening [] := opening_white blank []
  rw [List.append_nil] at none
  rw [headerName,none] at named
  cases named

theorem drop_all {p : Text → Bool} {lines : List Text} (all : ∀ other ∈ lines, p other = true) :
    lines.rdropWhile p = [] ∧ lines.rtakeWhile p = lines := by
  constructor
  · exact List.rdropWhile_eq_nil_iff.mpr all
  · rw [List.rtakeWhile_eq_self_iff]
    exact all

theorem drop_cons {p : Text → Bool} (first : Text) (seen : ¬ ∀ other ∈ first :: rest, p other = true) :
    (first :: rest).rdropWhile p = first :: rest.rdropWhile p ∧ (first :: rest).rtakeWhile p = rest.rtakeWhile p := by
  unfold List.rdropWhile List.rtakeWhile
  rw [List.reverse_cons,List.dropWhile_append,List.takeWhile_append]
  by_cases gone : rest.reverse.dropWhile p = []
  · have all : ∀ other ∈ rest, p other = true := by
      intro other member
      exact List.dropWhile_eq_nil_iff.mp gone other (List.mem_reverse.mpr member)
    have stays : ¬ p first = true := by
      intro blank
      exact seen (List.forall_mem_cons.mpr ⟨blank,all⟩)
    have whole : rest.reverse.takeWhile p = rest.reverse :=
      List.takeWhile_eq_self_iff.mpr fun other member => all other (List.mem_reverse.mp member)
    simp [gone,whole,stays]
  · have part : (rest.reverse.takeWhile p).length ≠ rest.reverse.length := by
      intro same
      apply gone
      have whole := (List.takeWhile_prefix p).eq_of_length same
      exact List.dropWhile_eq_nil_iff.mpr (List.takeWhile_eq_self_iff.mp whole)
    rw [if_neg (mt List.isEmpty_iff.mp gone),if_neg part]
    simp

theorem matches_start (member : found ∈ stanzaHeaderRegex.matchesAt place) : found.start = place := by
  obtain ⟨opened,_,member⟩ := List.mem_flatMap.mp member
  obtain ⟨closed,_,member⟩ := List.mem_flatMap.mp member
  obtain ⟨stop,_,rfl⟩ := List.mem_map.mp member
  rfl

theorem find_here (start : read.head?.all (· = '\n') = true) (whole : Whole (before ++ line :: after))
    (blank : ∀ other ∈ before, white isWhitespace other = true) (named : headerName line = some name)
    (split : first :: rest = before ++ line :: after) :
    ∃ found, stanzaHeaderRegex.findFrom read (first ++ tails rest) = some found ∧ found.start.read = read ∧
      found.capture 0 = ended before ++ line ++ tails (after.takeWhile (white isWhitespace)) ∧
      found.capture 1 = name ∧ found.stop.left = tails (after.dropWhile (white isWhitespace)) := by
  rw [← split,Whole,List.forall_mem_cons] at whole
  have shown := header_at_lines whole.1 whole.2
  have skipped : (first :: rest).dropWhile (white isWhitespace) = line :: after := by
    rw [split,List.dropWhile_append_of_pos blank]
    simp [name_seen named]
  rw [skipped] at shown
  simp only [named,Option.map_some] at shown
  rw [← matches_at (line_start ⟨read,first ++ tails rest⟩ start)] at shown
  obtain ⟨found,there,same⟩ := Option.map_eq_some_iff.mp shown
  obtain ⟨group,left⟩ := Prod.mk.inj same
  have here : found.start = ⟨read,first ++ tails rest⟩ := matches_start (List.mem_of_mem_head? there)
  rw [find_line whole.1,there]
  refine ⟨found,rfl,by rw [here],?_,group,left⟩
  have parts := List.takeWhile_append_dropWhile (p := white isWhitespace) (l := after)
  have text : first ++ tails rest = ended before ++ line ++ tails (after.takeWhile (white isWhitespace)) ++
      tails (after.dropWhile (white isWhitespace)) := by
    rw [around_tails split,List.append_assoc (ended before ++ line),← tails_append,parts]
  have ends : found.stop = ⟨found.stop.read,tails (after.dropWhile (white isWhitespace))⟩ := by
    rw [← left]
  change between found.start found.stop = _
  rw [here,ends,text]
  exact between_append read found.stop.read _ _

theorem find_first (start : read.head?.all (· = '\n') = true) (whole : Whole (before ++ line :: after))
    (plain : ∀ other ∈ before, headerName other = none) (named : headerName line = some name)
    (split : first :: rest = before ++ line :: after) :
    ∃ found, stanzaHeaderRegex.findFrom read (first ++ tails rest) = some found ∧
      found.start.read = (ended (before.rdropWhile (white isWhitespace))).reverse ++ read ∧
      found.capture 0 = ended (before.rtakeWhile (white isWhitespace)) ++ line ++
        tails (after.takeWhile (white isWhitespace)) ∧
      found.capture 1 = name ∧ found.stop.left = tails (after.dropWhile (white isWhitespace)) := by
  induction before generalizing read first rest with
  | nil => exact find_here start whole (by simp) named split
  | cons other before ih =>
    by_cases blank : ∀ line ∈ other :: before, white isWhitespace line = true
    · obtain ⟨dropped,taken⟩ := drop_all blank
      rw [dropped,taken]
      exact find_here start whole blank named split
    · have later : rest = before ++ line :: after := (List.cons.inj split).2
      obtain rfl := (List.cons.inj split).1
      obtain ⟨dropped,taken⟩ := drop_cons first blank
      rw [List.cons_append,Whole,List.forall_mem_cons] at whole
      have none : headerAt (first ++ tails rest) = .none := by
        apply header_none whole.1 (later ▸ whole.2)
        intro other member
        rw [later,← List.cons_append,List.dropWhile_append] at member
        split at member
        · rename_i gone
          exact absurd (List.dropWhile_eq_nil_iff.mp (List.isEmpty_iff.mp gone)) blank
        · rename_i stays
          rw [List.head?_append_of_ne_nil _ (mt List.isEmpty_iff.mpr stays)] at member
          exact plain other ((List.dropWhile_suffix _).subset (List.mem_of_mem_head? member))
      rw [find_line whole.1,matches_none start none,dropped,taken]
      cases rest with
      | nil => simp at later
      | cons next rest =>
        obtain ⟨found,there,front,both⟩ := @ih ('\n' :: first.reverse ++ read) rest next rfl whole.2
          (fun other member => plain other (List.mem_cons_of_mem first member)) later
        refine ⟨found,there,?_,both⟩
        rw [front]
        simp

theorem first_header {shown : List Text} (any : shown.any isHeader = true) :
    ∃ before line after name, shown = before ++ line :: after ∧ (∀ other ∈ before, headerName other = none) ∧
      headerName line = some name := by
  induction shown with
  | nil => cases any
  | cons line rest ih =>
    cases named : headerName line with
    | some name => exact ⟨[],line,rest,name,rfl,by simp,named⟩
    | none =>
      have below : rest.any isHeader = true := by
        simpa [isHeader,named] using any
      obtain ⟨before,other,after,name,rfl,plain,found⟩ := ih below
      refine ⟨line :: before,other,after,name,rfl,?_,found⟩
      exact List.forall_mem_cons.mpr ⟨named,plain⟩

theorem no_header {shown : List Text} (none : shown.any isHeader = false) : ∀ other ∈ shown, headerName other = .none := by
  intro other member
  have plain := List.any_eq_false.mp none other member
  simpa [isHeader] using plain

theorem find_some (start : read.head?.all (· = '\n') = true) (free : '\n' ∉ line) (whole : Whole rest) :
    (stanzaHeaderRegex.findFrom read (line ++ tails rest)).isSome = (line :: rest).any isHeader := by
  cases any : (line :: rest).any isHeader with
  | false =>
    rw [find_none start free whole (no_header any)]
    rfl
  | true =>
    obtain ⟨before,header,after,name,split,plain,named⟩ := first_header any
    have lines : Whole (before ++ header :: after) := by
      rw [← split,Whole,List.forall_mem_cons]
      exact ⟨free,whole⟩
    obtain ⟨found,there,_⟩ := find_first start lines plain named split
    rw [there]
    rfl

theorem find_below (read : Text) (whole : Whole rest) :
    (stanzaHeaderRegex.findFrom read (tails rest)).isSome = rest.any isHeader := by
  have empty : isHeader [] = false := rfl
  by_cases start : read.head?.all (· = '\n') = true
  · have all := find_some start List.not_mem_nil whole
    simpa [empty] using all
  · have skipped := @find_skip read [] rest start List.not_mem_nil
    rw [List.nil_append] at skipped
    rw [skipped]
    cases rest with
    | nil => rfl
    | cons next later =>
      rw [Whole,List.forall_mem_cons] at whole
      exact find_some rfl whole.1 whole.2

-- A text with one header line, by its pieces between line feeds.
structure OneHeader (blob : Text) (before : List Text) (line : Text) (after : List Text) (old : Text) : Prop where
  split : blob.splitOn '\n' = before ++ line :: after
  above : ∀ other ∈ before, headerName other = none
  named : headerName line = some old
  below : ∀ other ∈ after, headerName other = none

def groupsOf (before : List Text) (line : Text) (after : List Text) (old : Text) : Nat → Text
  | 0 => ended (before.rtakeWhile (white isWhitespace)) ++ line ++ tails (after.takeWhile (white isWhitespace))
  | 1 => old
  | _ => []

def laid (before after : List Text) (header : Text) : Text :=
  ended (before.rdropWhile (white isWhitespace)) ++ header ++
    tails (settle isWhitespace (after.dropWhile (white isWhitespace))) ++ ['\n']

theorem expand_header (groups : Nat → Text) (name : Text) :
    expand groups (header name) = header (expand groups name) := by
  unfold header
  rw [expand_close groups ('[' :: name) (by decide) (by decide) (by decide) (by decide),
    expand_letter groups (by decide)]

theorem trim_laid (front : Text) (name : Text) (below : List Text) :
    trimEnd isWhitespace (front ++ header name ++ tails below) = front ++ header name ++ tails (settle isWhitespace below) := by
  rw [trim_append]
  split
  · rename_i gone
    rw [settle_nil.mpr ((white_tails newline_white).mp gone),tails_nil,List.append_nil,header,← List.append_assoc,
      trim_closed _ closes_seen]
  · rw [trim_tails newline_white]

theorem OneHeader.text (one : OneHeader blob before line after old) : blob = ended before ++ line ++ tails after :=
  text_around one.split

theorem OneHeader.whole (one : OneHeader blob before line after old) : Whole (before ++ line :: after) :=
  one.split ▸ split_whole blob

theorem validate_one (one : OneHeader blob before line after old) (name : Text) :
    validateSingleRemoteStanza blob name =
      .ok (laid before after (header (expand (groupsOf before line after old) name))) := by
  have seen : ¬ white isWhitespace blob = true := by
    intro blank
    apply name_seen one.named
    rw [white_iff] at blank ⊢
    intro c member
    apply blank c
    rw [one.text]
    simp [member]
  obtain ⟨first,rest,same,free,whole⟩ := text_tails blob
  have split : first :: rest = before ++ line :: after := by
    rw [← one.split,same,split_tails free whole]
  have start : ([] : Text).head?.all (· = '\n') = true := rfl
  obtain ⟨found,there,read,zero,one',left⟩ := find_first start one.whole one.above one.named split
  rw [← same] at there
  have find : stanzaHeaderRegex.find blob = some found := there
  have only : (stanzaHeaderRegex.next found).isSome = false := by
    unfold Grouped.next
    rw [left,find_below found.stop.read]
    · rw [List.any_eq_false]
      intro other member
      simpa [isHeader] using one.below other ((List.dropWhile_suffix _).subset member)
    · intro other member
      exact one.whole other (by simp [(List.dropWhile_suffix _).subset member])
  have captures : found.capture = groupsOf before line after old := by
    funext n
    match n with
    | 0 => exact zero
    | 1 => exact one'
    | n + 2 => rfl
  unfold validateSingleRemoteStanza Grouped.replaceFirst
  rw [if_neg seen,find]
  simp only [only,Bool.false_eq_true,if_false]
  rw [captures,expand_header,read,left,List.append_nil,List.reverse_reverse,trim_laid]
  rfl

theorem validate_header (ok : validateSingleRemoteStanza blob name = .ok out) :
    ∃ before line after old, OneHeader blob before line after old := by
  obtain ⟨first,rest,same,free,whole⟩ := text_tails blob
  have start : ([] : Text).head?.all (· = '\n') = true := rfl
  have some_iff : (stanzaHeaderRegex.find blob).isSome = (first :: rest).any isHeader := by
    rw [same]
    exact find_some start free whole
  cases any : (first :: rest).any isHeader with
  | false =>
    rw [any] at some_iff
    unfold validateSingleRemoteStanza at ok
    rw [Option.isSome_eq_false_iff.mp some_iff |> Option.isNone_iff_eq_none.mp] at ok
    split at ok <;> cases ok
  | true =>
    obtain ⟨before,line,after,old,split,above,named⟩ := first_header any
    have lines : Whole (before ++ line :: after) := by
      rw [← split,Whole,List.forall_mem_cons]
      exact ⟨free,whole⟩
    obtain ⟨found,there,_,_,_,left⟩ := find_first start lines above named split
    rw [← same] at there
    have find : stanzaHeaderRegex.find blob = some found := there
    refine ⟨before,line,after,old,?_,above,named,?_⟩
    · rw [same,split_tails free whole,split]
    · unfold validateSingleRemoteStanza at ok
      rw [find] at ok
      dsimp only at ok
      split at ok
      · cases ok
      · split at ok
        · cases ok
        · rename_i only
          unfold Grouped.next at only
          rw [left,find_below found.stop.read] at only
          · intro other member
            have parts := List.takeWhile_append_dropWhile (p := white isWhitespace) (l := after)
            rw [← parts,List.mem_append] at member
            rcases member with skipped | stays
            · cases shown : headerName other with
              | none => rfl
              | some name => exact absurd (List.mem_takeWhile_imp skipped) (name_seen shown)
            · exact no_header (eq_false_of_ne_true only) other stays
          · intro other member
            exact lines other (by simp [(List.dropWhile_suffix _).subset member])

-- The result as the normaliser's own pattern sees it.
structure Matched (blob name out : Text) : Prop where
  one_header : (lines out).filter isHeader = [header name]
  others : (lines out).filter (! isHeader ·) = (lines blob).filter (! isHeader ·)
  settled : validateSingleRemoteStanza out name = .ok out

-- No white line beside the header, and nothing after the end of the last line.
structure Tidy (above below : List Text) : Prop where
  above_seen : ∀ other ∈ above.getLast?, ¬ white isWhitespace other = true
  below_seen : ∀ other ∈ below.head?, ¬ white isWhitespace other = true
  last_whole : ∀ other ∈ below.getLast?, other ≠ [] ∧ trimEnd isWhitespace other = other

structure Named (name : Text) : Prop where
  filled : name ≠ []
  plain : ∀ c ∈ name, notClosing c = true

structure Pinnable (before after : List Text) (old name : Text) : Prop where
  named : Named name
  verbatim : Plain name ∨ Echo name ∧ old = name
  tidy : Tidy (before.map stripCr) (linesOf after)

theorem header_name (named : Named name) : headerName (header name) = some name := by
  have found : opening ([] ++ '[' :: name ++ ']' :: []) = some (name,[]) := opening_header named.filled named.plain rfl []
  have found : opening (header name) = some (name,[]) := found
  rw [headerName,found]
  rfl

theorem header_named (shown : headerName (header name) = some old) : Named name ∧ old = name := by
  unfold headerName at shown
  obtain ⟨⟨first,behind⟩,found,blank⟩ := Option.bind_eq_some_iff.mp shown
  obtain ⟨spaces,space,text,filled,plain⟩ := opening_behind found
  have blank : white isWhitespace behind = true ∧ first = old := by
    dsimp only at blank
    split at blank
    · rename_i clear
      exact ⟨clear,Option.some.inj blank⟩
    · cases blank
  have none : spaces = [] := by
    cases spaces with
    | nil => rfl
    | cons c rest =>
      obtain ⟨same,_⟩ := List.cons.inj text
      have opens := white_iff.mp space c List.mem_cons_self
      rw [← same] at opens
      cases opens
  subst none
  have inner : name ++ [']'] = first ++ ']' :: behind := (List.cons.inj text).2
  cases behind using List.reverseRecOn with
  | nil =>
    obtain ⟨same,_⟩ := List.append_inj' inner rfl
    rw [same]
    exact ⟨⟨filled,plain⟩,blank.2.symm⟩
  | append_singleton behind c =>
    have both : name ++ [']'] = (first ++ ']' :: behind) ++ [c] := by simpa using inner
    have ends : ']' = c := List.singleton_inj.mp (List.append_inj' both rfl).2
    have closes := white_iff.mp blank.1 c (by simp)
    rw [← ends] at closes
    cases closes

theorem named_whole (named : Named name) : '\n' ∉ header name := by
  intro member
  unfold header at member
  rw [List.cons_append,List.mem_cons,List.mem_append] at member
  rcases member with opens | inner | closes
  · cases opens
  · cases named.plain '\n' inner
  · cases List.mem_singleton.mp closes

theorem white_strip (line : Text) : white isWhitespace (stripCr line) = white isWhitespace line := by
  have ends := strip_cases line
  generalize stripCr line = short at ends ⊢
  rcases ends with rfl | rfl
  · rfl
  · have cr : isWhitespace '\r' = true := rfl
    simp [white,cr]

theorem name_iff : headerName line = some name ↔ Named name ∧
    ∃ spaces behind, white isWhitespace spaces = true ∧ white isWhitespace behind = true ∧
      line = spaces ++ header name ++ behind := by
  constructor
  · intro shown
    unfold headerName at shown
    obtain ⟨⟨first,behind⟩,found,blank⟩ := Option.bind_eq_some_iff.mp shown
    obtain ⟨spaces,space,text,filled,plain⟩ := opening_behind found
    dsimp only at blank
    split at blank
    · rename_i clear
      cases blank
      refine ⟨⟨filled,plain⟩,spaces,behind,space,clear,?_⟩
      rw [text,header]
      simp
    · cases blank
  · rintro ⟨named,spaces,behind,space,clear,rfl⟩
    have text : spaces ++ header name ++ behind = spaces ++ '[' :: name ++ ']' :: behind := by simp [header]
    rw [headerName,text,opening_header named.filled named.plain space behind]
    exact if_pos clear

theorem name_white (line : Text) (blank : white isWhitespace spaces = true) :
    headerName (line ++ spaces) = headerName line := by
  rw [Option.ext_iff]
  intro name
  rw [name_iff,name_iff]
  constructor
  · rintro ⟨named,front,behind,space,clear,text⟩
    refine ⟨named,front,?_⟩
    rcases List.append_eq_append_iff.mp text with ⟨rest,whole,same⟩ | ⟨rest,whole,same⟩
    · cases rest using List.reverseRecOn with
      | nil =>
        refine ⟨[],space,rfl,?_⟩
        simpa using whole.symm
      | append_singleton rest c =>
        have ends : front ++ '[' :: name ++ [']'] = (line ++ rest) ++ [c] := by simpa [header] using whole
        have closes : [']'] = [c] := (List.append_inj' ends rfl).2
        have seen := white_iff.mp blank c (by rw [same]; simp)
        rw [← List.singleton_inj.mp closes] at seen
        cases seen
    · refine ⟨rest,space,?_,whole⟩
      rw [same] at clear
      rw [white_iff] at clear ⊢
      intro c member
      exact clear c (List.mem_append_left _ member)
  · rintro ⟨named,front,behind,space,clear,rfl⟩
    refine ⟨named,front,behind ++ spaces,space,?_,by simp⟩
    rw [white_iff] at clear blank ⊢
    intro c member
    rcases List.mem_append.mp member with early | late
    · exact clear c early
    · exact blank c late

theorem name_strip (line : Text) : headerName (stripCr line) = headerName line := by
  have ends := strip_cases line
  generalize stripCr line = short at ends ⊢
  rcases ends with rfl | rfl
  · rfl
  · exact (name_white short (by rfl)).symm

theorem name_trim (line : Text) : headerName (trimEnd isWhitespace line) = headerName line := by
  have parts : trimEnd isWhitespace line ++ line.rtakeWhile isWhitespace = line :=
    List.rdropWhile_append_rtakeWhile
  have blank : white isWhitespace (line.rtakeWhile isWhitespace) = true := by
    rw [white_iff]
    intro c member
    exact List.mem_rtakeWhile_imp member
  have same := name_white (trimEnd isWhitespace line) blank
  rw [parts] at same
  exact same.symm

theorem header_strip (line : Text) : isHeader (stripCr line) = isHeader line := by
  unfold isHeader
  rw [name_strip]

theorem header_line (named : Named name) : isHeader (header name) = true := by
  rw [isHeader,header_name named]
  rfl

theorem header_whole_line (name : Text) : stripCr (header name) = header name := strip_append ('[' :: name) (by decide)

theorem OneHeader.around (one : OneHeader blob before line after old) : ∃ shown, isHeader shown = true ∧
    headerName shown = some old ∧ lines blob = before.map stripCr ++ shown :: linesOf after := by
  have filled : line ≠ [] := by
    rintro rfl
    exact name_seen one.named rfl
  have named : isHeader line = true := by
    rw [isHeader,one.named]
    rfl
  rw [lines,one.split,linesOf_append _ (List.cons_ne_nil line after)]
  cases after with
  | nil => exact ⟨line,named,one.named,by simp [linesOf,filled]⟩
  | cons next rest => exact ⟨stripCr line,(header_strip line).trans named,(name_strip line).trans one.named,rfl⟩

theorem linesOf_plain (plain : ∀ other ∈ after, headerName other = none) :
    ∀ other ∈ linesOf after, headerName other = none := by
  induction after with
  | nil => simp [linesOf]
  | cons line rest ih =>
    rw [List.forall_mem_cons] at plain
    cases rest with
    | nil =>
      rw [linesOf]
      split
      · simp
      · simpa using plain.1
    | cons next rest =>
      rw [linesOf,List.forall_mem_cons]
      exact ⟨(name_strip line).trans plain.1,ih plain.2⟩

theorem map_plain (plain : ∀ other ∈ before, headerName other = none) :
    ∀ other ∈ before.map stripCr, headerName other = none := by
  rw [List.forall_mem_map]
  intro other member
  exact (name_strip other).trans (plain other member)

theorem filter_plain {shown : List Text} (plain : ∀ other ∈ shown, headerName other = none) :
    shown.filter isHeader = [] ∧ shown.filter (! isHeader ·) = shown := by
  constructor
  · rw [List.filter_eq_nil_iff]
    intro other member
    simp [isHeader,plain other member]
  · rw [List.filter_eq_self]
    intro other member
    simp [isHeader,plain other member]

theorem filter_around {above below : List Text} {shown : Text} (upper : ∀ other ∈ above, headerName other = none)
    (named : isHeader shown = true) (lower : ∀ other ∈ below, headerName other = none) :
    (above ++ shown :: below).filter isHeader = [shown] ∧
      (above ++ shown :: below).filter (! isHeader ·) = above ++ below := by
  constructor
  · rw [List.filter_append,List.filter_cons_of_pos named,(filter_plain upper).1,(filter_plain lower).1]
    rfl
  · have gone : ¬ (! isHeader shown) = true := by simp [named]
    rw [List.filter_append,List.filter_cons,if_neg gone,(filter_plain upper).2,(filter_plain lower).2]

theorem laid_ended (before after : List Text) (header : Text) :
    laid before after header = ended (before.rdropWhile (white isWhitespace) ++
      header :: settle isWhitespace (after.dropWhile (white isWhitespace))) := by
  rw [laid,ended_append,ended_tails]
  simp

theorem settle_plain {below : List Text} (plain : ∀ other ∈ below, headerName other = none) :
    ∀ other ∈ settle isWhitespace below, headerName other = none := by
  induction below with
  | nil => simp [settle]
  | cons line rest ih =>
    rw [List.forall_mem_cons] at plain
    rw [settle]
    split
    · split
      · simp
      · rw [List.forall_mem_singleton,name_trim]
        exact plain.1
    · rw [List.forall_mem_cons]
      exact ⟨plain.1,ih plain.2⟩

section Layout
variable {below : List Text}

theorem lines_length (below : List Text) : (settle isWhitespace below).length ≤ (linesOf below).length := by
  induction below with
  | nil => exact Nat.le_refl _
  | cons line rest ih =>
    cases rest with
    | nil =>
      by_cases empty : line = []
      · subst empty
        exact Nat.le_refl _
      · rw [linesOf,if_neg empty,settle]
        split
        · split <;> simp
        · simp [settle]
    | cons next rest =>
      rw [linesOf,settle]
      split
      · split <;> simp
      · exact Nat.succ_le_succ ih

theorem drop_length (below : List Text) :
    (settle isWhitespace (below.dropWhile (white isWhitespace))).length ≤ (linesOf below).length := by
  induction below with
  | nil => exact Nat.le_refl _
  | cons line rest ih =>
    by_cases blank : white isWhitespace line = true
    · rw [List.dropWhile_cons_of_pos blank]
      apply Nat.le_trans ih
      cases rest with
      | nil => exact Nat.zero_le _
      | cons next rest =>
        rw [linesOf,List.length_cons]
        exact Nat.le_succ _
    · rw [List.dropWhile_cons_of_neg blank]
      exact lines_length (line :: rest)

theorem strip_trimmed (trimmed : trimEnd isWhitespace line = line) : stripCr line = line := by
  cases line using List.reverseRecOn with
  | nil => rfl
  | append_singleton rest c =>
    apply strip_append
    rintro rfl
    have gone := trim_append rest ['\r'] |>.symm.trans trimmed
    have blank : white isWhitespace ['\r'] = true := rfl
    rw [if_pos blank] at gone
    have begins : trimEnd isWhitespace rest <+: rest := trim_begins rest
    rw [gone] at begins
    simpa using begins.length_le

theorem settle_last (below : List Text) : ∀ other ∈ (settle isWhitespace below).getLast?,
    other ≠ [] ∧ trimEnd isWhitespace other = other := by
  induction below with
  | nil => simp [settle]
  | cons line rest ih =>
    rw [settle]
    split
    · split
      · simp
      · rename_i seen
        rintro other ⟨⟩
        exact ⟨mt trim_white.mp seen,trim_trim line⟩
    · rename_i filled
      rw [List.getLast?_cons_of_ne_nil filled]
      exact ih

theorem settle_lines (last : ∀ other ∈ (linesOf below).getLast?, other ≠ [] ∧ trimEnd isWhitespace other = other) :
    (settle isWhitespace below).map stripCr = linesOf below := by
  induction below with
  | nil => rfl
  | cons line rest ih =>
    cases rest with
    | nil =>
      by_cases empty : line = []
      · subst empty
        rfl
      · rw [linesOf,if_neg empty] at last ⊢
        obtain ⟨_,trimmed⟩ := last line rfl
        have seen : ¬ white isWhitespace line = true := by
          rw [← trim_white,trimmed]
          exact empty
        simp [settle,seen,trimmed,strip_trimmed trimmed]
    | cons next rest =>
      rw [linesOf] at last ⊢
      by_cases ends : linesOf (next :: rest) = []
      · rw [ends] at last ⊢
        obtain ⟨filled,trimmed⟩ := last (stripCr line) rfl
        have gone : settle isWhitespace (next :: rest) = [] := by
          have fewer := lines_length (next :: rest)
          rw [ends] at fewer
          exact List.eq_nil_of_length_eq_zero (Nat.le_zero.mp fewer)
        have seen : ¬ white isWhitespace line = true := by
          rw [← white_strip,← trim_white,trimmed]
          exact filled
        have same : trimEnd isWhitespace line = stripCr line := by
          have cases := strip_cases line
          generalize stripCr line = short at cases trimmed ⊢
          rcases cases with rfl | rfl
          · exact trimmed
          · rw [trim_append]
            exact (if_pos rfl).trans trimmed
        rw [settle,if_pos gone,if_neg seen,List.map_singleton,same,strip_trimmed trimmed]
      · have later : ∀ other ∈ (linesOf (next :: rest)).getLast?, other ≠ [] ∧ trimEnd isWhitespace other = other := by
          rw [← List.getLast?_cons_of_ne_nil ends]
          exact last
        have stays : settle isWhitespace (next :: rest) ≠ [] := by
          intro gone
          apply ends
          rw [← ih later,gone]
          rfl
        rw [settle,if_neg stays,List.map_cons,ih later]

theorem settled_head (after : List Text) : ∀ other ∈ (settle isWhitespace (after.dropWhile (white isWhitespace))).head?,
    ¬ white isWhitespace other = true := by
  intro first there
  cases shown : after.dropWhile (white isWhitespace) with
  | nil =>
    rw [shown] at there
    cases there
  | cons line rest =>
    have seen : ¬ white isWhitespace line = true := by
      have stops := List.head_dropWhile_not (white isWhitespace) (l := after) (by rw [shown]; simp)
      simpa [shown] using stops
    rw [shown,settle] at there
    split at there
    · cases there
      rw [← trim_white,trim_trim,trim_white]
      exact seen
    · cases there
      exact seen

theorem layout_iff (before after : List Text) :
    (before.rdropWhile (white isWhitespace)).map stripCr ++
        (settle isWhitespace (after.dropWhile (white isWhitespace))).map stripCr =
      before.map stripCr ++ linesOf after ↔ Tidy (before.map stripCr) (linesOf after) := by
  constructor
  · intro same
    have shorter : (before.rdropWhile (white isWhitespace)).length ≤ before.length :=
      (List.rdropWhile_prefix _ before).length_le
    have fewer := drop_length after
    have lengths := congrArg List.length same
    simp only [List.length_append,List.length_map] at lengths
    have upper : before.rdropWhile (white isWhitespace) = before :=
      (List.rdropWhile_prefix _ before).eq_of_length (by omega)
    rw [upper] at same
    have lower := List.append_cancel_left same
    refine ⟨?_,?_,?_⟩
    · intro other member
      rw [List.getLast?_map,Option.mem_map] at member
      obtain ⟨last,there,rfl⟩ := member
      obtain ⟨filled,rfl⟩ := List.mem_getLast?_eq_getLast there
      rw [white_strip]
      exact List.rdropWhile_eq_self_iff.mp upper filled
    · rw [← lower]
      intro other member
      rw [List.head?_map,Option.mem_map] at member
      obtain ⟨first,there,rfl⟩ := member
      rw [white_strip]
      exact settled_head after first there
    · rw [← lower]
      intro other member
      rw [List.getLast?_map,Option.mem_map] at member
      obtain ⟨last,there,rfl⟩ := member
      obtain ⟨filled,trimmed⟩ := settle_last _ last there
      rw [strip_trimmed trimmed]
      exact ⟨filled,trimmed⟩
  · rintro ⟨above,first,last⟩
    have upper : before.rdropWhile (white isWhitespace) = before := by
      rw [List.rdropWhile_eq_self_iff]
      intro filled blank
      apply above (stripCr (before.getLast filled))
      · rw [List.getLast?_map,List.getLast?_eq_some_getLast filled]
        rfl
      · rw [white_strip]
        exact blank
    rw [upper,← settle_lines last]
    congr 2
    cases after with
    | nil => rfl
    | cons line rest =>
      by_cases blank : white isWhitespace line = true
      · cases rest with
        | nil =>
          simp [settle,blank]
        | cons next rest =>
          rw [linesOf] at first
          exact absurd ((white_strip line).trans blank) (first _ rfl)
      · rw [List.dropWhile_cons_of_neg blank]

end Layout

section Weight

theorem visible_white (blank : white isWhitespace line = true) : visible isWhitespace line = 0 := by
  unfold visible
  rw [List.countP_eq_zero]
  intro c member
  simp [white_iff.mp blank c member]

theorem visible_whites {shown : List Text} (blank : ∀ other ∈ shown, white isWhitespace other = true) :
    (shown.map (visible isWhitespace)).sum = 0 := by
  induction shown with
  | nil => rfl
  | cons line rest ih =>
    rw [List.forall_mem_cons] at blank
    rw [List.map_cons,List.sum_cons,visible_white blank.1,ih blank.2]

theorem visible_trim (line : Text) : visible isWhitespace (trimEnd isWhitespace line) = visible isWhitespace line := by
  have parts : trimEnd isWhitespace line ++ line.rtakeWhile isWhitespace = line := List.rdropWhile_append_rtakeWhile
  have blank : white isWhitespace (line.rtakeWhile isWhitespace) = true := by
    rw [white_iff]
    intro c member
    exact List.mem_rtakeWhile_imp member
  have sum : visible isWhitespace (trimEnd isWhitespace line ++ line.rtakeWhile isWhitespace) = _ := visible_append _ _
  rw [parts,visible_white blank] at sum
  exact sum.symm

theorem visible_above (before : List Text) :
    ((before.rdropWhile (white isWhitespace)).map (visible isWhitespace)).sum = (before.map (visible isWhitespace)).sum := by
  have parts : before.rdropWhile (white isWhitespace) ++ before.rtakeWhile (white isWhitespace) = before :=
    List.rdropWhile_append_rtakeWhile
  have none : ((before.rtakeWhile (white isWhitespace)).map (visible isWhitespace)).sum = 0 :=
    visible_whites fun other member => List.mem_rtakeWhile_imp member
  have sum := congrArg (fun lines => (List.map (visible isWhitespace) lines).sum) parts
  simp only [List.map_append,List.sum_append] at sum
  omega

theorem visible_below (after : List Text) :
    ((after.dropWhile (white isWhitespace)).map (visible isWhitespace)).sum = (after.map (visible isWhitespace)).sum := by
  induction after with
  | nil => rfl
  | cons line rest ih =>
    by_cases blank : white isWhitespace line = true
    · rw [List.dropWhile_cons_of_pos blank,ih,List.map_cons,List.sum_cons,visible_white blank]
      omega
    · rw [List.dropWhile_cons_of_neg blank]

theorem visible_settle (below : List Text) :
    ((settle isWhitespace below).map (visible isWhitespace)).sum = (below.map (visible isWhitespace)).sum := by
  induction below with
  | nil => rfl
  | cons line rest ih =>
    rw [settle,List.map_cons,List.sum_cons,← ih]
    split
    · rename_i gone
      rw [gone]
      split
      · rename_i blank
        rw [visible_white blank]
        rfl
      · rw [List.map_singleton,visible_trim]
        rfl
    · rw [List.map_cons,List.sum_cons]

theorem visible_header (name : Text) : visible isWhitespace (header name) = visible isWhitespace name + 2 := by
  have opens : isWhitespace '[' = false := rfl
  have closes : isWhitespace ']' = false := rfl
  simp [visible,header,opens,closes]

theorem OneHeader.weight (one : OneHeader blob before line after old) : visible isWhitespace blob =
    (before.map (visible isWhitespace)).sum + visible isWhitespace line + (after.map (visible isWhitespace)).sum := by
  rw [one.text,visible_append,visible_append,visible_ended newline_white,visible_tails newline_white]

theorem visible_laid (before after : List Text) (shown : Text) : visible isWhitespace (laid before after shown) =
    (before.map (visible isWhitespace)).sum + visible isWhitespace shown + (after.map (visible isWhitespace)).sum := by
  have ends : visible isWhitespace ['\n'] = 0 := rfl
  rw [laid,visible_append,visible_append,visible_append,visible_ended newline_white,visible_tails newline_white,
    visible_above,visible_settle,visible_below,ends]
  omega

end Weight

theorem OneHeader.laid_whole (one : OneHeader blob before line after old) (free : '\n' ∉ header name) :
    Whole (before.rdropWhile (white isWhitespace) ++
      header name :: settle isWhitespace (after.dropWhile (white isWhitespace))) := by
  have whole := one.whole
  intro other member
  rcases List.mem_append.mp member with upper | lower
  · exact whole other (List.mem_append_left _ ((List.rdropWhile_prefix _ before).subset upper))
  · rcases List.mem_cons.mp lower with rfl | lower
    · exact free
    · refine settle_whole ?_ other lower
      intro other member
      exact whole other (by simp [(List.dropWhile_suffix _).subset member])

theorem OneHeader.lines_laid (one : OneHeader blob before line after old) (free : '\n' ∉ header name) :
    lines (laid before after (header name)) =
      (before.rdropWhile (white isWhitespace)).map stripCr ++
        header name :: (settle isWhitespace (after.dropWhile (white isWhitespace))).map stripCr := by
  rw [laid_ended,lines_whole (one.laid_whole free),List.map_append,List.map_cons,header_whole_line]

theorem OneHeader.laid_parts (one : OneHeader blob before line after old) (named : Named name) :
    (lines (laid before after (header name))).filter isHeader = [header name] ∧
      (lines (laid before after (header name))).filter (! isHeader ·) =
        (before.rdropWhile (white isWhitespace)).map stripCr ++
          (settle isWhitespace (after.dropWhile (white isWhitespace))).map stripCr := by
  rw [one.lines_laid (named_whole named)]
  apply filter_around _ (header_line named)
  · apply map_plain
    apply settle_plain
    intro other member
    exact one.below other ((List.dropWhile_suffix _).subset member)
  · apply map_plain
    intro other member
    exact one.above other ((List.rdropWhile_prefix _ before).subset member)

theorem settle_again (after : List Text) :
    settle isWhitespace ((settle isWhitespace (after.dropWhile (white isWhitespace)) ++ [[]]).dropWhile (white isWhitespace)) =
      settle isWhitespace (after.dropWhile (white isWhitespace)) := by
  have first := settled_head after
  cases shown : settle isWhitespace (after.dropWhile (white isWhitespace)) with
  | nil => rfl
  | cons line rest =>
    rw [shown] at first
    rw [List.cons_append,List.dropWhile_cons_of_neg (first line rfl),← List.cons_append,settle_append_empty,← shown,
      settle_settle]

theorem few_groups : ∀ n, 2 ≤ n → groupsOf before line after old n = [] := by
  intro n few
  match n with
  | n + 2 => rfl

theorem OneHeader.again (one : OneHeader blob before line after old) (named : Named name) :
    OneHeader (laid before after (header name)) (before.rdropWhile (white isWhitespace)) (header name)
      (settle isWhitespace (after.dropWhile (white isWhitespace)) ++ [[]]) name := by
  refine ⟨?_,?_,header_name named,?_⟩
  · have free := named_whole named
    have all := split_ended (one.laid_whole free) []
    rw [List.append_nil,← laid_ended] at all
    rw [all]
    simp
  · intro other member
    exact one.above other ((List.rdropWhile_prefix _ before).subset member)
  · intro other member
    rcases List.mem_append.mp member with kept | empty
    · apply settle_plain _ other kept
      intro other member
      exact one.below other ((List.dropWhile_suffix _).subset member)
    · rw [List.mem_singleton.mp empty]
      rfl

theorem laid_again (before after : List Text) (shown : Text) :
    laid (before.rdropWhile (white isWhitespace)) (settle isWhitespace (after.dropWhile (white isWhitespace)) ++ [[]]) shown =
      laid before after shown := by
  rw [laid,laid,List.rdropWhile_idempotent,settle_again]

theorem OneHeader.written (one : OneHeader blob before line after old) (verbatim : Plain name ∨ Echo name ∧ old = name) :
    validateSingleRemoteStanza blob name = .ok (laid before after (header name)) := by
  rw [validate_one one]
  rcases verbatim with plain | ⟨echo,rfl⟩
  · rw [expand_plain _ plain]
  · rw [expand_echo few_groups echo]
    rfl

theorem matched_of (one : OneHeader blob before line after old) (fits : Pinnable before after old name)
    (ok : validateSingleRemoteStanza blob name = .ok out) : Matched blob name out := by
  obtain ⟨named,verbatim,tidy⟩ := fits
  rw [one.written verbatim] at ok
  cases ok
  obtain ⟨headers,others⟩ := one.laid_parts named
  obtain ⟨shown,header,_,all⟩ := one.around
  refine ⟨headers,?_,?_⟩
  · rw [others,all,(filter_around (map_plain one.above) header (linesOf_plain one.below)).2]
    exact (layout_iff before after).mpr tidy
  · rw [(one.again named).written (verbatim.imp_right fun echo => ⟨echo.1,rfl⟩),laid_again]

theorem only_header (one : OneHeader blob before line after old) (written : Named old')
    (headed : (lines out).filter isHeader = [header name])
    (same : out = laid before after (header old')) : old' = name := by
  have headers := headed
  rw [same,(one.laid_parts written).1] at headers
  have inner : old' ++ [']'] = name ++ [']'] := (List.cons.inj (List.singleton_inj.mp headers)).2
  exact (List.append_inj' inner rfl).1

theorem headed_named (headed : (lines out).filter isHeader = [header name]) : Named name := by
  have member : header name ∈ (lines out).filter isHeader := by
    rw [headed]
    exact List.mem_singleton_self _
  have shown := (List.mem_filter.mp member).2
  obtain ⟨old,found⟩ := Option.isSome_iff_exists.mp shown
  exact (header_named found).1

theorem visible_named (found : headerName line = some name) :
    visible isWhitespace line = visible isWhitespace name + 2 := by
  obtain ⟨_,spaces,behind,space,clear,rfl⟩ := name_iff.mp found
  rw [visible_append,visible_append,visible_white space,visible_white clear,visible_header]
  omega

-- The second run tells whether the name expands to itself: what it shows is what it showed before.
theorem headed_verbatim (one : OneHeader blob before line after old)
    (ok : validateSingleRemoteStanza blob name = .ok out) (headed : (lines out).filter isHeader = [header name])
    (settled : validateSingleRemoteStanza out name = .ok out) :
    Plain name ∨ Echo name ∧ old = name := by
  have named := headed_named headed
  obtain ⟨before',line',after',old',one'⟩ := validate_header settled
  have again : out = laid before' after' (header (expand (groupsOf before' line' after' old') name)) := by
    have twice := settled
    rw [validate_one one' name] at twice
    exact (Except.ok.inj twice).symm
  have group : old' = name := by
    obtain ⟨shown,isHeader,found,all⟩ := one'.around
    have headers := headed
    rw [all,(filter_around (map_plain one'.above) isHeader (linesOf_plain one'.below)).1] at headers
    rw [List.singleton_inj.mp headers,header_name named] at found
    exact (Option.some.inj found).symm
  subst group
  have weight := visible_laid before' after' (header (expand (groupsOf before' line' after' old') old'))
  rw [← again,one'.weight,visible_header,visible_named one'.named] at weight
  have kept : visible isWhitespace (expand (groupsOf before' line' after' old') old') = visible isWhitespace old' := by
    omega
  have whole : visible isWhitespace old' < visible isWhitespace (groupsOf before' line' after' old' 0) := by
    have above : visible isWhitespace (ended (before'.rtakeWhile (white isWhitespace))) = 0 := by
      rw [visible_ended newline_white]
      exact visible_whites fun other member => List.mem_rtakeWhile_imp member
    have below : visible isWhitespace (tails (after'.takeWhile (white isWhitespace))) = 0 := by
      rw [visible_tails newline_white]
      exact visible_whites fun other member => List.mem_takeWhile_imp member
    rw [groupsOf,visible_append,visible_append,above,below,visible_named one'.named]
    omega
  rcases self_weight few_groups rfl whole rfl kept with plain | ⟨once,_⟩
  · exact .inl plain
  · obtain ⟨front,back,bare,around⟩ := expand_around once
    have inner (group : Text) (fits : Named group) : Named (front ++ group ++ back) := by
      refine ⟨by simp [fits.filled],?_⟩
      intro c member
      rw [List.append_assoc,List.mem_append,List.mem_append] at member
      rcases member with early | middle | late
      · exact named.plain c (mem_rest (bare ▸ List.mem_append_left back early))
      · exact fits.plain c middle
      · exact named.plain c (mem_rest (bare ▸ List.mem_append_right front late))
    have second := around (groupsOf before' line' after' old') few_groups
    rw [second] at again
    have same : front ++ old' ++ back = old' := only_header one' (inner old' named) headed again
    have lengths := congrArg List.length same
    simp only [List.length_append] at lengths
    have noFront : front = [] := List.eq_nil_of_length_eq_zero (by omega)
    have noBack : back = [] := List.eq_nil_of_length_eq_zero (by omega)
    subst noFront noBack
    have first : expand (groupsOf before line after old) old' = old := by
      simpa [groupsOf] using around (groupsOf before line after old) few_groups
    have fits : Named old := (name_iff.mp one.named).1
    rw [validate_one one,first] at ok
    exact .inr ⟨rest_echo once bare,only_header one fits headed (Except.ok.inj ok).symm⟩

theorem pinnable_of (one : OneHeader blob before line after old)
    (ok : validateSingleRemoteStanza blob name = .ok out) (matched : Matched blob name out) : Pinnable before after old name := by
  have named := headed_named matched.one_header
  have verbatim := headed_verbatim one ok matched.one_header matched.settled
  refine ⟨named,verbatim,?_⟩
  rw [one.written verbatim] at ok
  have others := matched.others
  obtain ⟨shown,isHeader,_,all⟩ := one.around
  rw [← Except.ok.inj ok,(one.laid_parts named).2,all,
    (filter_around (map_plain one.above) isHeader (linesOf_plain one.below)).2] at others
  exact (layout_iff before after).mp others

end ArxRuna.Cloud.Stanza
