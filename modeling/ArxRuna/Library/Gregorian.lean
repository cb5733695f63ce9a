import Mathlib.Algebra.BigOperators.Group.List.Basic
import Mathlib.Algebra.Order.Ring.Nat
import Mathlib.Data.List.Induction
import Mathlib.Data.List.Sort
import Mathlib.Tactic.Tauto
namespace ArxRuna.Library.Gregorian

-- The calendar by its rules: which years are leap years, how long a month is, and
-- which day follows which.
def leap (year : Nat) : Bool := year % 4 = 0 && (year % 100 ≠ 0 || year % 400 = 0)

def monthLength (year month : Nat) : Nat :=
  if month = 2 then if leap year then 29 else 28
  else if month = 4 ∨ month = 6 ∨ month = 9 ∨ month = 11 then 30
  else 31

def yearLength (year : Nat) : Nat := if leap year then 366 else 365

structure Date where
  year : Nat
  month : Nat
  day : Nat
  deriving DecidableEq, Repr

structure Date.Valid (date : Date) : Prop where
  month : 1 ≤ date.month ∧ date.month ≤ 12
  day : 1 ≤ date.day ∧ date.day ≤ monthLength date.year date.month

def Date.next (date : Date) : Date :=
  if date.day < monthLength date.year date.month then {date with day := date.day + 1}
  else if date.month < 12 then ⟨date.year,date.month + 1,1⟩
  else ⟨date.year + 1,1,1⟩

def Date.Before (a b : Date) : Prop :=
  a.year < b.year ∨ a.year = b.year ∧ (a.month < b.month ∨ a.month = b.month ∧ a.day < b.day)

def later (start : Date) : Nat → Date
  | 0 => start
  | days + 1 => (later start days).next

def daysToYear : Nat → Nat
  | 0 => 0
  | year + 1 => daysToYear year + yearLength year

def daysToMonth (year : Nat) : Nat → Nat
  | 0 => 0
  | 1 => 0
  | month + 2 => daysToMonth year (month + 1) + monthLength year (month + 1)

def Date.count (date : Date) : Nat := daysToYear date.year + daysToMonth date.year date.month + (date.day - 1)

variable {a b c start : Date}

theorem before_trans (first : a.Before b) (second : b.Before c) : a.Before c := by
  unfold Date.Before at first second ⊢
  omega

theorem next_before (a : Date) : a.Before a.next := by
  unfold Date.next
  split
  · exact .inr ⟨rfl,.inr ⟨rfl,Nat.lt_succ_self _⟩⟩
  · split
    · exact .inr ⟨rfl,.inl (Nat.lt_succ_self _)⟩
    · exact .inl (Nat.lt_succ_self _)

theorem month_positive (year month : Nat) : 28 ≤ monthLength year month := by
  unfold monthLength
  split
  · split <;> omega
  · split <;> omega

theorem next_valid (valid : a.Valid) : a.next.Valid := by
  obtain ⟨⟨_,_⟩,_,_⟩ := valid
  unfold Date.next
  split
  · exact ⟨⟨by assumption,by assumption⟩,by dsimp only; omega,by dsimp only; omega⟩
  · split
    · exact ⟨⟨by dsimp only; omega,by dsimp only; omega⟩,Nat.le_refl _,(by decide : 1 ≤ 28).trans (month_positive _ _)⟩
    · exact ⟨⟨Nat.le_refl _,(by decide : 1 ≤ 12)⟩,Nat.le_refl _,(by decide : 1 ≤ 28).trans (month_positive _ _)⟩

theorem later_valid (valid : start.Valid) (days : Nat) : (later start days).Valid := by
  induction days with
  | zero => exact valid
  | succ days ih => exact next_valid ih

theorem later_before (start : Date) (less : m < n) : (later start m).Before (later start n) := by
  induction n with
  | zero => omega
  | succ n ih =>
    rcases Nat.lt_succ_iff_lt_or_eq.mp less with earlier | rfl
    · exact before_trans (ih earlier) (next_before _)
    · exact next_before _

theorem days_in_year (year : Nat) : daysToMonth year 12 + monthLength year 12 = yearLength year := by
  simp only [daysToMonth,monthLength,yearLength]
  cases leap year <;> rfl

theorem days_to_month (positive : 1 ≤ month) : daysToMonth year (month + 1) = daysToMonth year month + monthLength year month := by
  obtain ⟨before,rfl⟩ := Nat.exists_eq_add_of_le' positive
  rfl

theorem next_count (valid : a.Valid) : a.next.count = a.count + 1 := by
  obtain ⟨⟨first,last⟩,low,high⟩ := valid
  unfold Date.next
  split
  · simp only [Date.count]
    omega
  · have full : a.day = monthLength a.year a.month := by omega
    split
    · simp only [Date.count,days_to_month first]
      omega
    · have december : a.month = 12 := by omega
      have year := days_in_year a.year
      rw [december] at full
      simp only [Date.count,december,daysToYear]
      change daysToYear a.year + yearLength a.year + 0 + 0 = _
      omega

theorem later_count (valid : start.Valid) (days : Nat) : (later start days).count = start.count + days := by
  induction days with
  | zero => rfl
  | succ days ih =>
    rw [later,next_count (later_valid valid days),ih]
    omega

theorem days_to_year (year : Nat) : daysToYear year = 365 * year + (year + 3) / 4 - (year + 99) / 100 + (year + 399) / 400 := by
  induction year with
  | zero => rfl
  | succ year ih =>
    rw [daysToYear,ih,yearLength]
    by_cases holds : leap year = true
    · rw [if_pos holds]
      simp only [leap,Bool.and_eq_true,Bool.or_eq_true,decide_eq_true_eq] at holds
      omega
    · rw [if_neg holds]
      simp only [leap,Bool.and_eq_true,Bool.or_eq_true,decide_eq_true_eq] at holds
      omega

theorem month_before (positive : 1 ≤ m) (less : m < n) : daysToMonth year m + monthLength year m ≤ daysToMonth year n := by
  induction n with
  | zero => omega
  | succ n ih =>
    rcases Nat.lt_succ_iff_lt_or_eq.mp less with earlier | rfl
    · have here := ih earlier
      rw [days_to_month (by omega)]
      omega
    · rw [days_to_month positive]

theorem year_before (less : m < n) : daysToYear m + yearLength m ≤ daysToYear n := by
  induction n with
  | zero => omega
  | succ n ih =>
    rcases Nat.lt_succ_iff_lt_or_eq.mp less with earlier | rfl
    · have here := ih earlier
      rw [daysToYear]
      omega
    · rfl

theorem inside_year (valid : a.Valid) : daysToMonth a.year a.month + (a.day - 1) < yearLength a.year := by
  obtain ⟨⟨first,last⟩,low,high⟩ := valid
  have whole : daysToMonth a.year 13 = yearLength a.year := days_in_year a.year
  have fits : daysToMonth a.year a.month + monthLength a.year a.month ≤ daysToMonth a.year 13 :=
    month_before first (by omega)
  omega

theorem count_before (valid : a.Valid) (low : 1 ≤ b.day) (less : a.Before b) : a.count < b.count := by
  unfold Date.count
  rcases less with years | ⟨years,months | ⟨months,days⟩⟩
  · have inside := inside_year valid
    have fits := year_before years
    omega
  · obtain ⟨⟨first,_⟩,low',high⟩ := valid
    have fits : daysToMonth a.year a.month + monthLength a.year a.month ≤ daysToMonth a.year b.month :=
      month_before first months
    rw [← years]
    omega
  · have low' := valid.day.1
    rw [← years,← months]
    omega

theorem count_inj (valid : a.Valid) (valid' : b.Valid) (same : a.count = b.count) : a = b := by
  by_contra other
  have apart : a.Before b ∨ b.Before a := by
    unfold Date.Before
    by_contra neither
    apply other
    obtain ⟨year,month,day⟩ := a
    obtain ⟨year',month',day'⟩ := b
    simp only [Date.mk.injEq]
    dsimp only at neither
    omega
  rcases apart with less | less
  · exact absurd same (Nat.ne_of_lt (count_before valid valid'.day.1 less))
  · exact absurd same.symm (Nat.ne_of_lt (count_before valid' valid.day.1 less))

end ArxRuna.Library.Gregorian
