import Mathlib.Algebra.BigOperators.Group.List.Basic
import Mathlib.Algebra.Order.Ring.Nat
import Mathlib.Data.List.Induction
import Mathlib.Data.List.Sort
import Mathlib.Tactic.Tauto
namespace ArxRuna.Library.JsonCompact

def numberChars : List Char := ['0','1','2','3','4','5','6','7','8','9','-','+','.','e','E']

-- A number keeps the digits it is written with.
structure NumberText where
  text : List Char
  filled : text ≠ []
  plain : ∀ c ∈ text, c ∈ numberChars

inductive Value where
  | null
  | bool (value : Bool)
  | number (value : NumberText)
  | text (value : List Char)
  | array (items : List Value)
  | object (fields : List (List Char × Value))

def hexDigit (n : Nat) : Char := if n < 10 then Char.ofNat (48 + n) else Char.ofNat (87 + n)

-- The quote, the backslash and the control characters are escaped, five of them
-- by a letter.
def escape (c : Char) : List Char :=
  if c.toNat = 34 then ['\\','\x22']
  else if c.toNat = 92 then ['\\','\\']
  else if c.toNat = 8 then ['\\','b']
  else if c.toNat = 9 then ['\\','t']
  else if c.toNat = 10 then ['\\','n']
  else if c.toNat = 12 then ['\\','f']
  else if c.toNat = 13 then ['\\','r']
  else if c.toNat < 32 then ['\\','u','0','0',hexDigit (c.toNat / 16),hexDigit (c.toNat % 16)]
  else [c]

def quoted (text : List Char) : List Char := '\x22' :: text.flatMap escape ++ ['\x22']

-- No white space between the tokens. A sequence is printed with a comma before each
-- item, and the first comma is dropped.
mutual

def Value.print : Value → List Char
  | .null => ['n','u','l','l']
  | .bool true => ['t','r','u','e']
  | .bool false => ['f','a','l','s','e']
  | .number value => value.text
  | .text value => quoted value
  | .array items => '[' :: (printItems items).drop 1 ++ [']']
  | .object fields => '\x7b' :: (printFields fields).drop 1 ++ ['\x7d']

def printItems : List Value → List Char
  | [] => []
  | item :: rest => ',' :: item.print ++ printItems rest

def printFields : List (List Char × Value) → List Char
  | [] => []
  | (name,value) :: rest => ',' :: quoted name ++ ':' :: value.print ++ printFields rest

end

def Printable (text : List Char) : Prop := ∀ c ∈ text, 32 ≤ c.toNat

instance (text : List Char) : Decidable (Printable text) :=
  decidable_of_iff (text.all fun c => 32 ≤ c.toNat) (by simp [Printable])

theorem printable_nil : Printable [] := List.forall_mem_nil _

theorem printable_append : Printable (a ++ b) ↔ Printable a ∧ Printable b := List.forall_mem_append

theorem printable_cons : Printable (c :: rest) ↔ 32 ≤ c.toNat ∧ Printable rest := List.forall_mem_cons

theorem printable_drop (n : Nat) (printable : Printable text) : Printable (text.drop n) :=
  fun c member => printable c (List.mem_of_mem_drop member)

theorem hexDigit_printable (small : n < 16) : 32 ≤ (hexDigit n).toNat := by
  have all : ∀ n < 16, 32 ≤ (hexDigit n).toNat := by decide
  exact all n small

theorem escape_printable (c : Char) : Printable (escape c) := by
  unfold escape
  split
  · decide
  · split
    · decide
    · split
      · decide
      · split
        · decide
        · split
          · decide
          · split
            · decide
            · split
              · decide
              · split
                · have high := hexDigit_printable (n := c.toNat / 16) (by omega)
                  have low := hexDigit_printable (n := c.toNat % 16) (by omega)
                  simp only [printable_cons]
                  exact ⟨by decide,by decide,by decide,by decide,high,low,printable_nil⟩
                · rw [printable_cons]
                  exact ⟨by omega,printable_nil⟩

theorem quoted_printable (text : List Char) : Printable (quoted text) := by
  rw [quoted,List.cons_append,printable_cons,printable_append]
  refine ⟨by decide,?_,by decide⟩
  intro c member
  obtain ⟨d,_,escaped⟩ := List.mem_flatMap.mp member
  exact escape_printable d c escaped

theorem number_printable (value : NumberText) : Printable value.text := by
  have all : Printable numberChars := by decide
  exact fun c member => all c (value.plain c member)

mutual

theorem print_printable (value : Value) : Printable value.print := by
  cases value with
  | null => rw [Value.print]; decide
  | bool value => cases value <;> rw [Value.print] <;> decide
  | number value =>
    rw [Value.print]
    exact number_printable value
  | text value =>
    rw [Value.print]
    exact quoted_printable value
  | array items =>
    rw [Value.print,List.cons_append,printable_cons,printable_append]
    exact ⟨by decide,printable_drop 1 (items_printable items),by decide⟩
  | object fields =>
    rw [Value.print,List.cons_append,printable_cons,printable_append]
    exact ⟨by decide,printable_drop 1 (fields_printable fields),by decide⟩

theorem items_printable (items : List Value) : Printable (printItems items) := by
  cases items with
  | nil => rw [printItems]; exact printable_nil
  | cons item rest =>
    rw [printItems,List.cons_append,printable_cons,printable_append]
    exact ⟨by decide,print_printable item,items_printable rest⟩

theorem fields_printable (fields : List (List Char × Value)) : Printable (printFields fields) := by
  cases fields with
  | nil => rw [printFields]; exact printable_nil
  | cons field rest =>
    cases field with
    | mk name value =>
      rw [printFields]
      simp only [List.cons_append,List.append_assoc,printable_cons,printable_append]
      exact ⟨by decide,quoted_printable name,by decide,print_printable value,fields_printable rest⟩

end

def edgeChars : List Char := numberChars ++ ['n','l','t','f','\x22','[',']','\x7b','\x7d']

theorem number_edge (value : NumberText) (member : c ∈ value.text) : c ∈ edgeChars :=
  List.mem_append_left _ (value.plain c member)

theorem print_filled (value : Value) : value.print ≠ [] := by
  cases value with
  | null => rw [Value.print]; exact List.cons_ne_nil _ _
  | bool value => cases value <;> rw [Value.print] <;> exact List.cons_ne_nil _ _
  | number value =>
    rw [Value.print]
    exact value.filled
  | text value => rw [Value.print]; exact List.cons_ne_nil _ _
  | array items => rw [Value.print]; exact List.cons_ne_nil _ _
  | object fields => rw [Value.print]; exact List.cons_ne_nil _ _

theorem print_head (value : Value) : value.print.head (print_filled value) ∈ edgeChars := by
  cases value with
  | null => simp only [Value.print]; decide
  | bool value => cases value <;> simp only [Value.print] <;> decide
  | number value =>
    simp only [Value.print]
    exact number_edge value (List.head_mem _)
  | text value => simp only [Value.print,quoted,List.cons_append,List.head_cons]; decide
  | array items => simp only [Value.print,List.cons_append,List.head_cons]; decide
  | object fields => simp only [Value.print,List.cons_append,List.head_cons]; decide

theorem print_last (value : Value) : value.print.getLast (print_filled value) ∈ edgeChars := by
  cases value with
  | null => simp only [Value.print]; decide
  | bool value => cases value <;> simp only [Value.print] <;> decide
  | number value =>
    simp only [Value.print]
    exact number_edge value (List.getLast_mem _)
  | text value => simp only [Value.print,quoted,List.getLast_append_singleton]; decide
  | array items => simp only [Value.print,List.getLast_append_singleton]; decide
  | object fields => simp only [Value.print,List.getLast_append_singleton]; decide

end ArxRuna.Library.JsonCompact
