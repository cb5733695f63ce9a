import ArxRuna.Library.Lines
import Mathlib.Algebra.Order.BigOperators.Group.List
namespace ArxRuna.Library.Template
open Texts (splitOnce splitOnce_first splitOnce_parts)
open Lines (visible)

theorem splitOnce_none {text : List Char} : splitOnce sep text = none ↔ sep ∉ text := by
  induction text with
  | nil => simp [splitOnce]
  | cons c rest ih =>
    rw [List.mem_cons,not_or,← ih,splitOnce]
    by_cases here : c = sep
    · simp [here]
    · simp [here,Ne.symm here]

-- A replacement text: `$$` is a dollar, `$name` and `${name}` stand for a group.
inductive Piece where
  | letter (c : Char)
  | dollar
  | reference (name : List Char)
  | braced (name : List Char)
  deriving DecidableEq

def isCapLetter (c : Char) : Bool := c.isAlphanum || c = '_'

def pieces : List Char → List Piece
  | [] => []
  | c :: rest =>
    if c ≠ '$' then .letter c :: pieces rest
    else match rest with
      | [] => [.letter '$']
      | d :: later =>
        if d = '$' then .dollar :: pieces later
        else if d = '{' then
          match _ended : splitOnce '}' later with
          | some halves => .braced halves.1 :: pieces halves.2
          | none => .letter '$' :: pieces (d :: later)
        else if isCapLetter d then
          .reference ((d :: later).takeWhile isCapLetter) :: pieces ((d :: later).dropWhile isCapLetter)
        else .letter '$' :: pieces (d :: later)
termination_by text => text.length
decreasing_by
  · exact Nat.lt_succ_self _
  · simp only [List.length_cons]
    omega
  · obtain ⟨whole,_⟩ := splitOnce_parts _ended
    rw [whole]
    simp only [List.length_cons,List.length_append]
    omega
  · simp only [List.length_cons]
    omega
  · have shorter := (List.dropWhile_sublist (p := isCapLetter) (l := d :: later)).length_le
    simp only [List.length_cons] at shorter ⊢
    omega
  · simp only [List.length_cons]
    omega

theorem pieces_nil : pieces [] = [] := by
  rw [pieces.eq_def]

theorem pieces_letter (plain : c ≠ '$') (rest : List Char) : pieces (c :: rest) = .letter c :: pieces rest := by
  rw [pieces.eq_def]
  exact if_pos plain

theorem pieces_dollar (rest : List Char) : pieces ('$' :: '$' :: rest) = .dollar :: pieces rest := by
  rw [pieces.eq_def]
  simp

theorem pieces_braced (ended : splitOnce '}' rest = some (name,later)) :
    pieces ('$' :: '{' :: rest) = .braced name :: pieces later := by
  rw [pieces.eq_def]
  simp only [ne_eq,not_true_eq_false,if_false,if_true]
  rw [if_neg (by decide)]
  split
  · rename_i found
    cases ended.symm.trans found
    rfl
  · rename_i found
    cases ended.symm.trans found

theorem pieces_open (ended : splitOnce '}' rest = none) :
    pieces ('$' :: '{' :: rest) = .letter '$' :: pieces ('{' :: rest) := by
  rw [pieces.eq_def]
  simp only [ne_eq,not_true_eq_false,if_false,if_true]
  rw [if_neg (by decide)]
  split
  · rename_i found
    cases ended.symm.trans found
  · rfl

theorem pieces_reference (dollar : c ≠ '$') (brace : c ≠ '{') (letter : isCapLetter c = true) (rest : List Char) :
    pieces ('$' :: c :: rest) =
      .reference ((c :: rest).takeWhile isCapLetter) :: pieces ((c :: rest).dropWhile isCapLetter) := by
  rw [pieces.eq_def]
  simp [dollar,brace,letter]

theorem pieces_other (dollar : c ≠ '$') (brace : c ≠ '{') (other : isCapLetter c = false) (rest : List Char) :
    pieces ('$' :: c :: rest) = .letter '$' :: pieces (c :: rest) := by
  rw [pieces.eq_def]
  simp [dollar,brace,other]

def Piece.source : Piece → List Char
  | .letter c => [c]
  | .dollar => ['$','$']
  | .reference name => '$' :: name
  | .braced name => '$' :: '{' :: name ++ ['}']

def maxUsize : Nat := 2 ^ 64

-- `str::parse::<usize>`
def parseUsize (text : List Char) : Option Nat :=
  let digits := match text with
    | '+' :: rest => rest
    | _ => text
  if digits ≠ [] ∧ digits.all Char.isDigit then
    let number := digits.foldl (fun n c => 10 * n + (c.toNat - '0'.toNat)) 0
    if number < maxUsize then some number else none
  else none

-- The groups have numbers only; what names no group stands for nothing.
def Piece.expand (groups : Nat → List Char) : Piece → List Char
  | .letter c => [c]
  | .dollar => ['$']
  | .reference name => (parseUsize name).elim [] groups
  | .braced name => (parseUsize name).elim [] groups

def expand (groups : Nat → List Char) (template : List Char) : List Char :=
  (pieces template).flatMap (Piece.expand groups)

def Piece.isLetter : Piece → Bool
  | .letter _ => true
  | _ => false

def Piece.isReference : Piece → Bool
  | .letter _ => false
  | .dollar => false
  | .reference _ => true
  | .braced _ => true

def Piece.names : Piece → Option Nat
  | .letter _ => none
  | .dollar => none
  | .reference name => (parseUsize name).filter (· < 2)
  | .braced name => (parseUsize name).filter (· < 2)

def Plain (text : List Char) : Prop := (pieces text).all Piece.isLetter = true

def Echo (text : List Char) : Prop := (pieces text).all Piece.isReference = true ∧ (pieces text).filterMap Piece.names = [1]

instance (text : List Char) : Decidable (Plain text) := by unfold Plain; infer_instance

instance (text : List Char) : Decidable (Echo text) := by unfold Echo; infer_instance

theorem pieces_source (text : List Char) : (pieces text).flatMap Piece.source = text := by
  fun_induction pieces text with
  | case1 => rfl
  | case2 c rest other ih => simp [Piece.source,ih]
  | case3 => simp_all [Piece.source]
  | case4 => simp_all [Piece.source]
  | case5 c dollar later halves ended other ih =>
    obtain ⟨whole,_⟩ := splitOnce_parts ended
    simp only [ne_eq,Decidable.not_not] at dollar
    simp [Piece.source,ih,dollar,whole]
  | case6 => simp_all [Piece.source]
  | case7 c dollar d later other brace letter ih =>
    simp only [ne_eq,Decidable.not_not] at dollar
    rw [List.flatMap_cons,ih,dollar,Piece.source,List.cons_append,List.takeWhile_append_dropWhile]
  | case8 => simp_all [Piece.source]

theorem pieces_close (text : List Char) (dollar : c ≠ '$') (opens : c ≠ '{') (closes : c ≠ '}')
    (other : isCapLetter c = false) : pieces (text ++ [c]) = pieces text ++ [.letter c] := by
  have single : pieces [c] = [.letter c] := by
    rw [pieces_letter dollar,pieces_nil]
  fun_induction pieces text with
  | case1 => exact single
  | case2 d rest plain ih =>
    rw [List.cons_append,pieces_letter plain,ih]
    rfl
  | case3 d special =>
    rw [of_not_not special]
    exact (pieces_other dollar opens other []).trans (congrArg (Piece.letter '$' :: ·) single)
  | case4 d special later ih =>
    rw [of_not_not special]
    exact (pieces_dollar (later ++ [c])).trans (congrArg (Piece.dollar :: ·) ih)
  | case5 d special later halves ended brace ih =>
    obtain ⟨whole,free⟩ := splitOnce_parts ended
    have still : splitOnce '}' (later ++ [c]) = some (halves.1,halves.2 ++ [c]) := by
      rw [whole,List.append_assoc]
      exact splitOnce_first free
    rw [of_not_not special]
    exact (pieces_braced still).trans (congrArg (Piece.braced halves.1 :: ·) ih)
  | case6 d special later ended brace ih =>
    have still : splitOnce '}' (later ++ [c]) = none := by
      rw [splitOnce_none] at ended ⊢
      simp [ended,Ne.symm closes]
    rw [of_not_not special]
    exact (pieces_open still).trans (congrArg (Piece.letter '$' :: ·) ih)
  | case7 d special e later dollar' brace letter ih =>
    have longer : ((e :: later) ++ [c]).takeWhile isCapLetter = (e :: later).takeWhile isCapLetter ∧
        ((e :: later) ++ [c]).dropWhile isCapLetter = (e :: later).dropWhile isCapLetter ++ [c] := by
      constructor
      · rw [List.takeWhile_append]
        split
        · rename_i all
          have whole := List.takeWhile_prefix isCapLetter (l := e :: later) |>.eq_of_length all
          simp [whole,other]
        · rfl
      · rw [List.dropWhile_append]
        split
        · rename_i all
          simp [List.isEmpty_iff.mp all,other]
        · rfl
    rw [of_not_not special]
    refine (pieces_reference dollar' brace letter (later ++ [c])).trans ?_
    rw [← List.cons_append,longer.1,longer.2,ih]
    rfl
  | case8 d special e later dollar' brace letter ih =>
    rw [of_not_not special]
    exact (pieces_other dollar' brace (eq_false_of_ne_true letter) (later ++ [c])).trans
      (congrArg (Piece.letter '$' :: ·) ih)

theorem expand_close (groups : Nat → List Char) (text : List Char) (dollar : c ≠ '$') (opens : c ≠ '{') (closes : c ≠ '}')
    (other : isCapLetter c = false) : expand groups (text ++ [c]) = expand groups text ++ [c] := by
  rw [expand,pieces_close text dollar opens closes other,List.flatMap_append]
  rfl

theorem expand_letter (groups : Nat → List Char) (plain : c ≠ '$') (rest : List Char) :
    expand groups (c :: rest) = c :: expand groups rest := by
  rw [expand,pieces_letter plain]
  rfl

theorem expand_plain (groups : Nat → List Char) (plain : Plain text) : expand groups text = text := by
  have letters : (pieces text).flatMap (Piece.expand groups) = (pieces text).flatMap Piece.source := by
    apply List.flatMap_congr
    intro piece member
    have letter := List.all_eq_true.mp plain piece member
    cases piece with
    | letter c => rfl
    | dollar => cases letter
    | reference name => cases letter
    | braced name => cases letter
  exact letters.trans (pieces_source text)

theorem expand_unnamed {groups : Nat → List Char} (few : ∀ n, 2 ≤ n → groups n = []) {piece : Piece} (unnamed : piece.names = none) : piece.expand groups = piece.expand fun _ => [] := by
  have gone (name : List Char) (unnamed : (parseUsize name).filter (· < 2) = none) :
      (parseUsize name).elim [] groups = (parseUsize name).elim [] fun _ => [] := by
    cases number : parseUsize name with
    | none => rfl
    | some n =>
      rw [number] at unnamed
      apply few n
      by_contra small
      have kept : (some n).filter (· < 2) = some n := by
        rw [Option.filter_some,if_pos (decide_eq_true (Nat.lt_of_not_le small))]
      cases kept.symm.trans unnamed
  cases piece with
  | letter c => rfl
  | dollar => rfl
  | reference name => exact gone name unnamed
  | braced name => exact gone name unnamed

theorem names_small {piece : Piece} (named : piece.names = some n) : n < 2 ∧ piece.isReference = true ∧
    piece.expand (fun _ => []) = [] := by
  cases piece with
  | letter c => cases named
  | dollar => cases named
  | reference name =>
    have found : parseUsize name = some n ∧ n < 2 := by simpa [Piece.names] using named
    exact ⟨found.2,rfl,by simp [Piece.expand,found.1]⟩
  | braced name =>
    have found : parseUsize name = some n ∧ n < 2 := by simpa [Piece.names] using named
    exact ⟨found.2,rfl,by simp [Piece.expand,found.1]⟩

theorem expand_named {groups : Nat → List Char} {piece : Piece} (named : piece.names = some n) :
    piece.expand groups = groups n := by
  cases piece with
  | letter c => cases named
  | dollar => cases named
  | reference name =>
    have found : parseUsize name = some n ∧ n < 2 := by simpa [Piece.names] using named
    simp [Piece.expand,found.1]
  | braced name =>
    have found : parseUsize name = some n ∧ n < 2 := by simpa [Piece.names] using named
    simp [Piece.expand,found.1]

def rest (text : List Char) : List Char := expand (fun _ => []) text

theorem expand_none {groups : Nat → List Char} (few : ∀ n, 2 ≤ n → groups n = []) {found : List Piece}
    (unnamed : found.filterMap Piece.names = []) :
    found.flatMap (Piece.expand groups) = found.flatMap (Piece.expand fun _ => []) := by
  apply List.flatMap_congr
  intro piece member
  exact expand_unnamed few (List.filterMap_eq_nil_iff.mp unnamed piece member)

theorem pieces_around {found : List Piece} (once : found.filterMap Piece.names = [1]) :
    ∃ front back, found.flatMap (Piece.expand fun _ => []) = front ++ back ∧
      ∀ groups : Nat → List Char, (∀ n, 2 ≤ n → groups n = []) →
        found.flatMap (Piece.expand groups) = front ++ groups 1 ++ back := by
  induction found with
  | nil => cases once
  | cons piece later ih =>
    rw [List.filterMap_cons] at once
    cases named : piece.names with
    | none =>
      rw [named] at once
      obtain ⟨front,back,bare,around⟩ := ih once
      refine ⟨piece.expand (fun _ => []) ++ front,back,?_,?_⟩
      · rw [List.flatMap_cons,bare,List.append_assoc]
      · intro groups few
        rw [List.flatMap_cons,expand_unnamed few named,around groups few]
        simp
    | some n =>
      rw [named] at once
      obtain ⟨rfl,done⟩ := List.cons.inj once
      refine ⟨[],later.flatMap (Piece.expand fun _ => []),?_,?_⟩
      · rw [List.flatMap_cons,(names_small named).2.2]
      · intro groups few
        rw [List.flatMap_cons,expand_named named,expand_none few done]
        rfl

theorem expand_around (once : (pieces text).filterMap Piece.names = [1]) :
    ∃ front back, rest text = front ++ back ∧
      ∀ groups : Nat → List Char, (∀ n, 2 ≤ n → groups n = []) → expand groups text = front ++ groups 1 ++ back :=
  pieces_around once

theorem rest_echo (once : (pieces text).filterMap Piece.names = [1]) (bare : rest text = []) : Echo text := by
  refine ⟨?_,once⟩
  rw [List.all_eq_true]
  intro piece member
  have empty := List.flatMap_eq_nil_iff.mp bare piece member
  cases piece with
  | letter c => cases empty
  | dollar => cases empty
  | reference name => rfl
  | braced name => rfl

theorem mem_rest (member : c ∈ rest text) : c ∈ text := by
  obtain ⟨piece,there,shown⟩ := List.mem_flatMap.mp member
  rw [← pieces_source text,List.mem_flatMap]
  refine ⟨piece,there,?_⟩
  cases piece with
  | letter d => exact shown
  | dollar =>
    rw [List.mem_singleton.mp shown]
    exact List.mem_cons_self
  | reference name =>
    have gone : c ∈ ((parseUsize name).elim [] fun _ => [] : List Char) := shown
    cases number : parseUsize name <;> simp [number] at gone
  | braced name =>
    have gone : c ∈ ((parseUsize name).elim [] fun _ => [] : List Char) := shown
    cases number : parseUsize name <;> simp [number] at gone

theorem expand_echo {groups : Nat → List Char} (few : ∀ n, 2 ≤ n → groups n = []) (echo : Echo text) :
    expand groups text = groups 1 := by
  obtain ⟨front,back,bare,around⟩ := expand_around echo.2
  have empty : rest text = [] := by
    rw [rest,expand,List.flatMap_eq_nil_iff]
    intro piece member
    have reference := List.all_eq_true.mp echo.1 piece member
    cases piece with
    | letter c => cases reference
    | dollar => cases reference
    | reference name =>
      rw [Piece.expand]
      cases parseUsize name <;> rfl
    | braced name =>
      rw [Piece.expand]
      cases parseUsize name <;> rfl
  obtain ⟨rfl,rfl⟩ := List.append_eq_nil_iff.mp (bare.symm.trans empty)
  simpa using around groups few

section Weight
variable {blank : Char → Bool} {groups : Nat → List Char}

theorem visible_append (a b : List Char) : visible blank (a ++ b) = visible blank a + visible blank b :=
  List.countP_append

theorem visible_expand (few : ∀ n, 2 ≤ n → groups n = []) (found : List Piece) :
    visible blank (found.flatMap (Piece.expand groups)) =
      visible blank (found.flatMap (Piece.expand fun _ => [])) +
        ((found.filterMap Piece.names).map fun n => visible blank (groups n)).sum := by
  induction found with
  | nil => rfl
  | cons piece later ih =>
    rw [List.flatMap_cons,List.flatMap_cons,visible_append,visible_append,ih,List.filterMap_cons]
    cases named : piece.names with
    | none =>
      rw [expand_unnamed few named]
      dsimp only
      omega
    | some n =>
      rw [expand_named named,(names_small named).2.2]
      simp only [List.map_cons,List.sum_cons]
      have empty : visible blank [] = 0 := rfl
      omega

theorem visible_source (dollar : blank '$' = false) (found : List Piece) :
    visible blank (found.flatMap (Piece.expand fun _ => [])) + found.countP (! ·.isLetter) ≤
      visible blank (found.flatMap Piece.source) := by
  induction found with
  | nil => exact Nat.le_refl _
  | cons piece later ih =>
    have sign (text : List Char) : visible blank ('$' :: text) = visible blank text + 1 := by
      simp [visible,dollar]
    have here : visible blank (piece.expand fun _ => []) + (if piece.isLetter then 0 else 1) ≤ visible blank piece.source := by
      have gone (name : List Char) : ((parseUsize name).elim [] fun _ => [] : List Char) = [] := by
        cases parseUsize name <;> rfl
      cases piece with
      | letter c => exact Nat.le_refl _
      | dollar => simp [Piece.expand,Piece.source,Piece.isLetter,sign]
      | reference name => simp [Piece.expand,Piece.source,Piece.isLetter,gone,visible,dollar]
      | braced name => simp [Piece.expand,Piece.source,Piece.isLetter,gone,visible,dollar]
    rw [List.flatMap_cons,List.flatMap_cons,visible_append,visible_append,List.countP_cons]
    cases letter : piece.isLetter with
    | true =>
      simp only [letter,if_true] at here
      simp only [Bool.not_true,Bool.false_eq_true,if_false]
      omega
    | false =>
      simp only [letter,Bool.false_eq_true,if_false] at here
      simp only [Bool.not_false,if_true]
      omega

-- A text that expands to as much as it shows itself, with a group that shows the
-- same and a whole match that shows more, is plain or names the group once.
theorem self_weight (few : ∀ n, 2 ≤ n → groups n = []) (dollar : blank '$' = false)
    (whole : visible blank text < visible blank (groups 0)) (group : visible blank (groups 1) = visible blank text)
    (kept : visible blank (expand groups text) = visible blank text) :
    Plain text ∨ (pieces text).filterMap Piece.names = [1] ∧ visible blank (rest text) = 0 := by
  have weight : visible blank (expand groups text) = visible blank (rest text) + _ := visible_expand few (pieces text)
  have less : visible blank (rest text) + _ ≤ _ := visible_source dollar (pieces text)
  rw [pieces_source] at less
  have ones : ∀ n ∈ (pieces text).filterMap Piece.names, n = 1 := by
    intro n member
    obtain ⟨piece,_,named⟩ := List.mem_filterMap.mp member
    have small := (names_small named).1
    have part : visible blank (groups n) ≤ (((pieces text).filterMap Piece.names).map fun n => visible blank (groups n)).sum :=
      List.single_le_sum (fun _ _ => Nat.zero_le _) _ (List.mem_map_of_mem member)
    by_cases zero : n = 0
    · subst zero
      omega
    · omega
  have sum : (((pieces text).filterMap Piece.names).map fun n => visible blank (groups n)).sum =
      ((pieces text).filterMap Piece.names).length * visible blank text := by
    rw [List.map_congr_left (g := fun _ => visible blank text)]
    · simp
    · intro n member
      rw [ones n member,group]
  have letters (few : (pieces text).countP (! ·.isLetter) = 0) : Plain text := by
    rw [Plain,List.all_eq_true]
    intro piece member
    simpa using List.countP_eq_zero.mp few piece member
  rw [weight,sum] at kept
  cases found : (pieces text).filterMap Piece.names with
  | nil =>
    left
    apply letters
    rw [found] at kept
    simp only [List.length_nil,Nat.zero_mul] at kept
    omega
  | cons n later =>
    cases later with
    | nil =>
      right
      rw [found] at kept ones
      simp only [List.length_singleton,Nat.one_mul] at kept
      refine ⟨by rw [ones n List.mem_cons_self],?_⟩
      omega
    | cons m later =>
      left
      apply letters
      rw [found] at kept
      simp only [List.length_cons,Nat.add_mul,Nat.one_mul] at kept
      omega

end Weight

end ArxRuna.Library.Template
