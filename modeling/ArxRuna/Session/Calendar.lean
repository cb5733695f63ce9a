import ArxRuna.Library.Gregorian
import Mathlib.Tactic.IntervalCases
namespace ArxRuna.Session.Calendar
open Library.Gregorian

-- Arithmetic that overflows or underflows panics.
def i64 (value : Int) : Option Int := if -2 ^ 63 ≤ value ∧ value < 2 ^ 63 then some value else none

def u64 (value : Int) : Option Nat := if 0 ≤ value ∧ value < 2 ^ 64 then some value.toNat else none

-- `as` keeps the low bits.
def asI64 (value : Nat) : Int := if value < 2 ^ 63 then value else value - 2 ^ 64

def asU64 (value : Int) : Nat := (value % 2 ^ 64).toNat

def asU32 (value : Int) : Nat := (value % 2 ^ 32).toNat

def daysSinceEpochToDate (days : Nat) : Option (Nat × Nat × Nat) := do
  let z ← i64 (asI64 days + 719468)
  let shifted ← (if 0 ≤ z then some z else i64 (z - 146096))
  let era := shifted.tdiv 146097
  let eraDays ← i64 (era * 146097)
  let rest ← i64 (z - eraDays)
  let doe := asU64 rest
  let fewer ← u64 (doe - (doe / 1460 : Nat))
  let more ← u64 (fewer + (doe / 36524 : Nat))
  let whole ← u64 (more - (doe / 146096 : Nat))
  let yoe := whole / 365
  let eraYears ← i64 (era * 400)
  let y ← i64 (asI64 yoe + eraYears)
  let plain ← u64 (365 * yoe)
  let leaps ← u64 (plain + (yoe / 4 : Nat))
  let start ← u64 (leaps - (yoe / 100 : Nat))
  let doy ← u64 (doe - start)
  let fives ← u64 (5 * doy)
  let scaled ← u64 (fives + 2)
  let mp := scaled / 153
  let months ← u64 (153 * mp)
  let months ← u64 (months + 2)
  let left ← u64 (doy - (months / 5 : Nat))
  let day ← u64 (left + 1)
  let d := asU32 day
  let month ← (if mp < 10 then u64 (mp + 3) else u64 (mp - 9))
  let m := asU32 month
  let y ← (if m ≤ 2 then i64 (y + 1) else some y)
  pure (asU32 y,m,d)

-- The copy inside `now_iso8601`, which keeps its wider types.
def nowDate (days : Nat) : Option (Int × Nat × Nat) := do
  let z ← i64 (asI64 days + 719468)
  let shifted ← (if 0 ≤ z then some z else i64 (z - 146096))
  let era := shifted.tdiv 146097
  let eraDays ← i64 (era * 146097)
  let rest ← i64 (z - eraDays)
  let doe := asU64 rest
  let fewer ← u64 (doe - (doe / 1460 : Nat))
  let more ← u64 (fewer + (doe / 36524 : Nat))
  let whole ← u64 (more - (doe / 146096 : Nat))
  let yoe := whole / 365
  let eraYears ← i64 (era * 400)
  let y ← i64 (asI64 yoe + eraYears)
  let plain ← u64 (365 * yoe)
  let leaps ← u64 (plain + (yoe / 4 : Nat))
  let start ← u64 (leaps - (yoe / 100 : Nat))
  let doy ← u64 (doe - start)
  let fives ← u64 (5 * doy)
  let scaled ← u64 (fives + 2)
  let mp := scaled / 153
  let months ← u64 (153 * mp)
  let months ← u64 (months + 2)
  let left ← u64 (doy - (months / 5 : Nat))
  let day ← u64 (left + 1)
  let month ← (if mp < 10 then u64 (mp + 3) else u64 (mp - 9))
  let year ← (if month ≤ 2 then i64 (y + 1) else some y)
  pure (year,month,day)

-- The days that `unix_ts_to_iso8601` asks for: a time before the epoch counts as the
-- epoch. The copy is asked for days of the same range.
def totalDays (ts : Int64) : Nat := (if ts.toInt < 0 then 0 else ts.toInt.toNat) / 86400

def epoch : Date := ⟨1970,1,1⟩

def civil (days : Nat) : Date :=
  let z := days + 719468
  let doe := z % 146097
  let yoe := (doe - doe / 1460 + doe / 36524 - doe / 146096) / 365
  let y := yoe + z / 146097 * 400
  let doy := doe - (365 * yoe + yoe / 4 - yoe / 100)
  let mp := (5 * doy + 2) / 153
  let month := if mp < 10 then mp + 3 else mp - 9
  ⟨if month ≤ 2 then y + 1 else y,month,doy - (153 * mp + 2) / 5 + 1⟩

-- A day of an era: centuries, spans of four years, years and days. The last day of
-- a span is the leap day, which three of the four centuries lack at their end.
structure InEra (doe centuries fours ones doy : Nat) : Prop where
  centuries_lt : centuries < 4
  fours_lt : fours < 25
  ones_lt : ones < 4
  doy_lt : doy < 366
  leapDay : doy = 365 → ones = 3 ∧ (fours = 24 → centuries = 3)
  whole : doe = 36524 * centuries + 1461 * fours + 365 * ones + doy

theorem in_era (inside : doe < 146097) : ∃ centuries fours ones doy, InEra doe centuries fours ones doy := by
  by_cases last : doe = 146096
  · exact ⟨3,24,3,365,by omega,by omega,by omega,by omega,by omega,by omega⟩
  · have bound : doe / 36524 < 4 := by omega
    generalize named : doe / 36524 = centuries at bound
    have parts : doe = 36524 * centuries + doe % 36524 := by omega
    generalize doe % 36524 = rest at parts
    by_cases leapDay : rest % 1461 = 1460
    · exact ⟨centuries,rest / 1461,3,365,bound,by omega,by omega,by omega,by omega,by omega⟩
    · exact ⟨centuries,rest / 1461,rest % 1461 / 365,rest % 1461 % 365,bound,by omega,by omega,by omega,by omega,by omega⟩

theorem year_of_era (parts : InEra doe centuries fours ones doy) :
    (doe - doe / 1460 + doe / 36524 - doe / 146096) / 365 = 100 * centuries + 4 * fours + ones := by
  obtain ⟨_,_,_,_,_,whole⟩ := parts
  have last : doe / 146096 = if doe = 146096 then 1 else 0 := by split <;> omega
  have century : doe / 36524 = centuries ∨ doe / 36524 = centuries + 1 ∧ doe = 146096 := by omega
  have span : doe / 1460 = 25 * centuries + fours ∨ doe / 1460 = 25 * centuries + fours + 1 := by omega
  rcases century with century | century
  · rcases span with span | span
    · omega
    · omega
  · omega

theorem day_of_year (parts : InEra doe centuries fours ones doy) (named : yoe = 100 * centuries + 4 * fours + ones) :
    365 * yoe + yoe / 4 - yoe / 100 + doy = doe ∧ yoe / 100 ≤ 365 * yoe + yoe / 4 := by
  obtain ⟨_,_,_,_,_,whole⟩ := parts
  constructor <;> omega

def fromMarch (y doy : Nat) : Date :=
  let mp := (5 * doy + 2) / 153
  let month := if mp < 10 then mp + 3 else mp - 9
  ⟨if month ≤ 2 then y + 1 else y,month,doy - (153 * mp + 2) / 5 + 1⟩

-- The first of each month, counted from March on in the code and from January on by
-- the calendar.
theorem month_start (year : Nat) (short : mp < 10) :
    daysToMonth year (mp + 3) = 59 + (leap year).toNat + (153 * mp + 2) / 5 := by
  interval_cases mp <;> simp only [daysToMonth,monthLength] <;> cases leap year <;> rfl

theorem winter_start (year : Nat) (late : 10 ≤ mp) (inside : mp < 12) :
    daysToMonth year (mp - 9) + 306 = (153 * mp + 2) / 5 := by
  interval_cases mp <;> rfl

theorem march_lengths (year : Nat) (short : mp < 10) :
    (153 * (mp + 1) + 2) / 5 - (153 * mp + 2) / 5 = monthLength year (mp + 3) := by
  interval_cases mp <;> rfl

theorem next_year (year : Nat) : daysToYear (year + 1) = 365 * year + year / 4 - year / 100 + year / 400 + 366 := by
  rw [days_to_year]
  omega

theorem year_days (year : Nat) : yearLength year = 365 + (leap year).toNat := by
  unfold yearLength
  cases leap year <;> rfl

theorem march_count (y : Nat) (inside : doy < 366) :
    (fromMarch y doy).count = 365 * y + y / 4 - y / 100 + y / 400 + doy + 60 := by
  unfold fromMarch
  generalize named : (5 * doy + 2) / 153 = mp
  have bound : mp < 12 := by omega
  have started : (153 * mp + 2) / 5 ≤ doy := by omega
  have year := next_year y
  by_cases short : mp < 10
  · have third : ¬ mp + 3 ≤ 2 := by omega
    have start := month_start y short
    have days := year_days y
    rw [daysToYear] at year
    simp only [Date.count,if_pos short,if_neg third]
    omega
  · have second : mp - 9 ≤ 2 := by omega
    have start := winter_start (y + 1) (by omega : 10 ≤ mp) bound
    simp only [Date.count,if_neg short,if_pos second]
    omega

theorem march_valid (inside : doy < 366) (leapDay : doy = 365 → leap (y + 1) = true) : (fromMarch y doy).Valid := by
  unfold fromMarch
  generalize named : (5 * doy + 2) / 153 = mp
  have bound : mp < 12 := by omega
  have started : (153 * mp + 2) / 5 ≤ doy := by omega
  have ended : doy < (153 * (mp + 1) + 2) / 5 := by omega
  by_cases short : mp < 10
  · have third : ¬ mp + 3 ≤ 2 := by omega
    have length := march_lengths y short
    simp only [if_pos short,if_neg third]
    exact ⟨⟨by dsimp only; omega,by dsimp only; omega⟩,by dsimp only; omega,by dsimp only; omega⟩
  · have second : mp - 9 ≤ 2 := by omega
    simp only [if_neg short,if_pos second]
    refine ⟨⟨by dsimp only; omega,by dsimp only; omega⟩,by dsimp only; omega,?_⟩
    dsimp only
    rcases Nat.lt_or_eq_of_le (by omega : 10 ≤ mp) with february | january
    · have last : mp = 11 := by omega
      subst last
      change _ ≤ if leap (y + 1) then 29 else 28
      split
      · omega
      · rename_i common
        have apart : doy ≠ 365 := fun same => common (leapDay same)
        omega
    · subst january
      change _ ≤ 31
      omega

theorem civil_march (parts : InEra ((days + 719468) % 146097) centuries fours ones doy) :
    civil days = fromMarch (100 * centuries + 4 * fours + ones + (days + 719468) / 146097 * 400) doy := by
  have year := year_of_era parts
  obtain ⟨whole,_⟩ := day_of_year parts rfl
  have left : (days + 719468) % 146097 - (365 * (100 * centuries + 4 * fours + ones) +
      (100 * centuries + 4 * fours + ones) / 4 - (100 * centuries + 4 * fours + ones) / 100) = doy := by omega
  unfold civil
  simp only [year,left]
  rfl

theorem epoch_valid : epoch.Valid := ⟨by decide,by decide⟩

-- The formula gives the day that so many steps of the calendar reach.
theorem civil_later (days : Nat) : civil days = later epoch days := by
  obtain ⟨centuries,fours,ones,doy,parts⟩ := in_era (Nat.mod_lt (days + 719468) (by decide : 0 < 146097))
  have march := civil_march parts
  obtain ⟨_,_,_,inside,leapDay,whole⟩ := parts
  generalize named : 100 * centuries + 4 * fours + ones + (days + 719468) / 146097 * 400 = y at march
  have valid : (civil days).Valid := by
    rw [march]
    apply march_valid inside
    intro last
    obtain ⟨third,century⟩ := leapDay last
    simp only [leap,Bool.and_eq_true,Bool.or_eq_true,decide_eq_true_eq]
    omega
  apply count_inj valid (later_valid epoch_valid days)
  have start : epoch.count = 719528 := by
    rw [Date.count,days_to_year]
    rfl
  have split := Nat.div_add_mod (days + 719468) 146097
  generalize (days + 719468) / 146097 = era at named split
  have fourths : y / 4 = 25 * centuries + fours + 100 * era := by omega
  have hundreds : y / 100 = centuries + 4 * era := by omega
  have eras : y / 400 = era := by omega
  rw [later_count epoch_valid,start,march,march_count y inside,fourths,hundreds,eras]
  omega

def commonSteps {α : Type} (days : Nat) (k : Int → Nat → Nat → Option α) : Option α := do
  let z ← i64 (asI64 days + 719468)
  let shifted ← (if 0 ≤ z then some z else i64 (z - 146096))
  let era := shifted.tdiv 146097
  let eraDays ← i64 (era * 146097)
  let rest ← i64 (z - eraDays)
  let doe := asU64 rest
  let fewer ← u64 (doe - (doe / 1460 : Nat))
  let more ← u64 (fewer + (doe / 36524 : Nat))
  let whole ← u64 (more - (doe / 146096 : Nat))
  let yoe := whole / 365
  let eraYears ← i64 (era * 400)
  let y ← i64 (asI64 yoe + eraYears)
  let plain ← u64 (365 * yoe)
  let leaps ← u64 (plain + (yoe / 4 : Nat))
  let start ← u64 (leaps - (yoe / 100 : Nat))
  let doy ← u64 (doe - start)
  let fives ← u64 (5 * doy)
  let scaled ← u64 (fives + 2)
  let mp := scaled / 153
  let months ← u64 (153 * mp)
  let months ← u64 (months + 2)
  let left ← u64 (doy - (months / 5 : Nat))
  let day ← u64 (left + 1)
  k y mp day

theorem date_common (days : Nat) : daysSinceEpochToDate days = commonSteps days (fun y mp day => do
    let d := asU32 day
    let month ← (if mp < 10 then u64 (mp + 3) else u64 (mp - 9))
    let m := asU32 month
    let y ← (if m ≤ 2 then i64 (y + 1) else some y)
    pure (asU32 y,m,d)) := rfl

theorem now_common (days : Nat) : nowDate days = commonSteps days (fun y mp day => do
    let month ← (if mp < 10 then u64 (mp + 3) else u64 (mp - 9))
    let year ← (if month ≤ 2 then i64 (y + 1) else some y)
    pure (year,month,day)) := rfl

section Exact
variable {α β : Type} {n days era doe yoe doy : Nat} {value : Int}

theorem bind_some {k : α → Option β} (a : α) : (some a >>= k) = k a := rfl

theorem bind_i64 {k : Int → Option α} (n : Nat) (same : value = n) (fits : n < 9223372036854775808) : (i64 value >>= k) = k n := by
  rw [i64,if_pos ⟨by omega,by omega⟩,same]
  rfl

theorem bind_u64 {k : Nat → Option α} (n : Nat) (same : value = n) (fits : n < 18446744073709551616) : (u64 value >>= k) = k n := by
  rw [u64,if_pos ⟨by omega,by omega⟩,same]
  rfl

theorem as_i64 (small : n < 9223372036854775808) : asI64 n = n := if_pos small

theorem as_u64 (small : n < 18446744073709551616) : asU64 (n : Int) = n := by
  rw [asU64,Int.emod_eq_of_lt (by omega) (by omega),Int.toNat_natCast]

theorem as_u32 (small : n < 4294967296) : asU32 (n : Int) = n := by
  rw [asU32,Int.emod_eq_of_lt (by omega) (by omega),Int.toNat_natCast]

-- No step leaves its range.
theorem common_exact {k : Int → Nat → Nat → Option α} (reach : days < 4611686018427387904)
    (parts : InEra ((days + 719468) % 146097) centuries fours ones doy) :
    commonSteps days k =
      k ((100 * centuries + 4 * fours + ones + (days + 719468) / 146097 * 400 : Nat) : Int) ((5 * doy + 2) / 153)
        (doy - (153 * ((5 * doy + 2) / 153) + 2) / 5 + 1) := by
  have year := year_of_era parts
  have whole := (day_of_year parts rfl).1
  have inside := Nat.mod_lt (days + 719468) (by decide : 0 < 146097)
  have split : days + 719468 = (days + 719468) / 146097 * 146097 + (days + 719468) % 146097 := by omega
  have small : (days + 719468) / 146097 < 40000000000000 := by omega
  have few : 100 * centuries + 4 * fours + ones < 400 := by
    obtain ⟨_,_,_,_,_,_⟩ := parts
    omega
  have short := parts.doy_lt
  clear parts
  have quotient : ((days + 719468 : Nat) : Int).tdiv 146097 = ((days + 719468) / 146097 : Nat) := rfl
  have low : asU64 (((days + 719468) % 146097 : Nat) : Int) = (days + 719468) % 146097 := as_u64 (by omega)
  unfold commonSteps
  rw [as_i64 (by omega),bind_i64 (days + 719468) (by omega) (by omega),if_pos (by omega),bind_some,quotient]
  generalize (days + 719468) / 146097 = era at *
  generalize (days + 719468) % 146097 = doe at *
  rw [bind_i64 (era * 146097) (by omega) (by omega),bind_i64 doe (by omega) (by omega),low]
  rw [bind_u64 (doe - doe / 1460) (by omega) (by omega),bind_u64 (doe - doe / 1460 + doe / 36524) (by omega) (by omega),
    bind_u64 (doe - doe / 1460 + doe / 36524 - doe / 146096) (by omega) (by omega),year]
  clear year
  generalize 100 * centuries + 4 * fours + ones = yoe at *
  rw [bind_i64 (era * 400) (by omega) (by omega),as_i64 (by omega),bind_i64 (yoe + era * 400) (by omega) (by omega)]
  rw [bind_u64 (365 * yoe) (by omega) (by omega),bind_u64 (365 * yoe + yoe / 4) (by omega) (by omega),
    bind_u64 (365 * yoe + yoe / 4 - yoe / 100) (by omega) (by omega),bind_u64 doy (by omega) (by omega)]
  rw [bind_u64 (5 * doy) (by omega) (by omega),bind_u64 (5 * doy + 2) (by omega) (by omega),
    bind_u64 (153 * ((5 * doy + 2) / 153)) (by omega) (by omega),
    bind_u64 (153 * ((5 * doy + 2) / 153) + 2) (by omega) (by omega),
    bind_u64 (doy - (153 * ((5 * doy + 2) / 153) + 2) / 5) (by omega) (by omega),
    bind_u64 (doy - (153 * ((5 * doy + 2) / 153) + 2) / 5 + 1) (by omega) (by omega)]

theorem month_exact (inside : doy < 366) :
    (if (5 * doy + 2) / 153 < 10 then u64 (((5 * doy + 2) / 153 : Nat) + 3) else u64 (((5 * doy + 2) / 153 : Nat) - 9)) =
      some (fromMarch y doy).month ∧ (fromMarch y doy).month ≤ 12 := by
  unfold fromMarch
  generalize named : (5 * doy + 2) / 153 = mp
  have bound : mp < 12 := by omega
  have early : u64 ((mp : Int) + 3) = some (mp + 3) := by
    rw [u64,if_pos ⟨by omega,by omega⟩]
    rfl
  dsimp only
  split
  · exact ⟨early,by omega⟩
  · refine ⟨?_,by omega⟩
    rw [u64,if_pos ⟨by omega,by omega⟩,Option.some.injEq]
    omega

theorem year_exact {y : Nat} (small : y < 40000000000000000) (month : Nat) :
    (if month ≤ 2 then i64 ((y : Int) + 1) else some (y : Int)) = some ((if month ≤ 2 then y + 1 else y : Nat) : Int) := by
  split
  · rw [i64,if_pos ⟨by omega,by omega⟩]
    rfl
  · rfl

theorem now_exact (reach : days < 4611686018427387904) :
    nowDate days = some (((civil days).year : Int),(civil days).month,(civil days).day) := by
  obtain ⟨centuries,fours,ones,doy,parts⟩ := in_era (Nat.mod_lt (days + 719468) (by decide : 0 < 146097))
  have small : 100 * centuries + 4 * fours + ones + (days + 719468) / 146097 * 400 < 40000000000000000 := by
    obtain ⟨_,_,_,_,_,_⟩ := parts
    omega
  obtain ⟨month,_⟩ := month_exact (y := 100 * centuries + 4 * fours + ones + (days + 719468) / 146097 * 400) parts.doy_lt
  rw [now_common,common_exact reach parts,civil_march parts,month,bind_some,year_exact small,bind_some]
  rfl

theorem date_exact (reach : days < 4611686018427387904) :
    daysSinceEpochToDate days = some (asU32 (civil days).year,(civil days).month,(civil days).day) := by
  obtain ⟨centuries,fours,ones,doy,parts⟩ := in_era (Nat.mod_lt (days + 719468) (by decide : 0 < 146097))
  have small : 100 * centuries + 4 * fours + ones + (days + 719468) / 146097 * 400 < 40000000000000000 := by
    obtain ⟨_,_,_,_,_,_⟩ := parts
    omega
  have short := parts.doy_lt
  obtain ⟨month,low⟩ := month_exact (y := 100 * centuries + 4 * fours + ones + (days + 719468) / 146097 * 400) short
  rw [date_common,common_exact reach parts,civil_march parts,month,bind_some]
  have day : asU32 ((doy - (153 * ((5 * doy + 2) / 153) + 2) / 5 + 1 : Nat) : Int) =
      doy - (153 * ((5 * doy + 2) / 153) + 2) / 5 + 1 := as_u32 (by omega)
  dsimp only
  rw [as_u32 (by omega),year_exact small,bind_some,day]
  rfl

end Exact

-- The days before the first of January 4294967296, the first year that does not fit
-- in 32 bits.
def yearLimit : Nat := 1568703873082

-- What the calendar owes a day count: a date without overflow, the one that so many
-- days lead to, after those of all earlier days, and the same in the copy.
structure Right (days : Nat) : Prop where
  date : ∃ date : Date, daysSinceEpochToDate days = some (date.year,date.month,date.day) ∧ date.Valid ∧
    date = later epoch days ∧ date.count = epoch.count + days
  after : ∀ earlier, earlier < days → ∃ a b : Date, daysSinceEpochToDate earlier = some (a.year,a.month,a.day) ∧
    daysSinceEpochToDate days = some (b.year,b.month,b.day) ∧ a.Before b
  copy : ∃ date : Date, daysSinceEpochToDate days = some (date.year,date.month,date.day) ∧
    nowDate days = some ((date.year : Int),date.month,date.day)

theorem year_fits (days : Nat) : (civil days).year < 4294967296 ↔ days < yearLimit := by
  have valid : (civil days).Valid := by
    rw [civil_later]
    exact later_valid epoch_valid days
  have counted : (civil days).count = 719528 + days := by
    rw [civil_later,later_count epoch_valid,Date.count,days_to_year]
    rfl
  have limit : daysToYear 4294967296 = 719528 + yearLimit := by
    rw [days_to_year]
    rfl
  have inside := inside_year valid
  unfold Date.count at counted
  constructor
  · intro fits
    have before := year_before fits
    omega
  · intro few
    by_contra late
    have before : daysToYear 4294967296 ≤ daysToYear (civil days).year := by
      rcases Nat.lt_or_eq_of_le (Nat.le_of_not_lt late) with less | same
      · have := year_before less
        omega
      · rw [← same]
    omega

theorem total_reach (ts : Int64) : totalDays ts < 4611686018427387904 := by
  have bound := ts.toInt_lt
  unfold totalDays
  split <;> omega

theorem date_fits (reach : days < 4611686018427387904) (few : days < yearLimit) :
    daysSinceEpochToDate days = some ((civil days).year,(civil days).month,(civil days).day) := by
  rw [date_exact reach,as_u32 ((year_fits days).mpr few)]

theorem calendar_right_iff (ts : Int64) : Right (totalDays ts) ↔ totalDays ts < yearLimit := by
  have reach := total_reach ts
  generalize totalDays ts = days at reach
  constructor
  · intro right
    obtain ⟨date,found,_,same,_⟩ := right.date
    rw [date_exact reach,same,← civil_later,Option.some.injEq,Prod.mk.injEq] at found
    apply (year_fits days).mp
    have low : asU32 (civil days).year < 4294967296 := by
      unfold asU32
      omega
    omega
  · intro few
    have exact := date_fits reach few
    have counted : (civil days).count = epoch.count + days := by
      rw [civil_later,later_count epoch_valid]
    refine ⟨⟨civil days,exact,?_,civil_later days,counted⟩,?_,⟨civil days,exact,now_exact reach⟩⟩
    · rw [civil_later]
      exact later_valid epoch_valid days
    · intro earlier less
      refine ⟨civil earlier,civil days,date_fits (by omega) (by omega),exact,?_⟩
      rw [civil_later,civil_later]
      exact later_before epoch less

-- The largest time a received share can expire at: the year loses its high bits, and
-- only the copy keeps them.
theorem far_expiry_misdated : daysSinceEpochToDate (totalDays 9223372036854775807) = some (219250468,12,4) ∧
    nowDate (totalDays 9223372036854775807) = some (292277026596,12,4) ∧ ¬ Right (totalDays 9223372036854775807) := by
  have days : totalDays 9223372036854775807 = 106751991167300 := by decide +kernel
  have narrow : daysSinceEpochToDate 106751991167300 = some (219250468,12,4) := by decide +kernel
  have wide : nowDate 106751991167300 = some (292277026596,12,4) := by decide +kernel
  rw [days]
  refine ⟨narrow,wide,?_⟩
  intro right
  obtain ⟨date,found,copied⟩ := right.copy
  rw [narrow,Option.some.injEq,Prod.mk.injEq] at found
  rw [wide,Option.some.injEq,Prod.mk.injEq] at copied
  omega

end ArxRuna.Session.Calendar
