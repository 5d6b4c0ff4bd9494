import Mathlib.Algebra.BigOperators.Group.List.Basic
import Mathlib.Algebra.Ring.Nat
import Mathlib.Tactic.SplitIfs

/-!
# Silence.Lib.CivilDate

The Gregorian calendar, and times of the calendar that are counted in seconds.

Days are counted from 1970-01-01. `yearOf` finds the year of a day, `locate` the month
in it; `timegm_gmtime` says that splitting a time into the fields of the calendar loses
nothing.
-/

namespace Silence.Lib

/-! ### Years -/

def isLeap (year : Int) : Bool := year % 4 = 0 && (year % 100 ≠ 0 || year % 400 = 0)

/-- The days before the first day of a year, of which 477 are leap days before 1970. -/
def daysBeforeYear (year : Int) : Int :=
  365 * (year - 1970) + ((year - 1) / 4 - (year - 1) / 100 + (year - 1) / 400 - 477)

/-- The year of a day: a year has 146097 / 400 days on average, which is at most one year off. -/
def yearOf (day : Int) : Int :=
  let year := 1970 + day * 400 / 146097
  if day < daysBeforeYear year then year - 1
  else if daysBeforeYear (year + 1) ≤ day then year + 1
  else year

theorem daysBeforeYear_succ (year : Int) :
    daysBeforeYear (year + 1) = daysBeforeYear year + if isLeap year then 366 else 365 := by
  unfold daysBeforeYear isLeap
  split
  · rename_i hleap
    simp only [Bool.and_eq_true, Bool.or_eq_true, decide_eq_true_iff] at hleap
    omega
  · rename_i hleap
    simp only [Bool.and_eq_true, Bool.or_eq_true, decide_eq_true_iff] at hleap
    omega

/-- A day is in its year. -/
theorem yearOf_spec (day : Int) :
    daysBeforeYear (yearOf day) ≤ day ∧ day < daysBeforeYear (yearOf day + 1) := by
  unfold yearOf
  dsimp only
  split
  · rename_i hbefore
    refine ⟨?_, by rwa [Int.sub_add_cancel]⟩
    unfold daysBeforeYear
    omega
  · rename_i hbefore
    split
    · rename_i hbehind
      refine ⟨hbehind, ?_⟩
      unfold daysBeforeYear
      omega
    · rename_i hbehind
      exact ⟨Int.not_lt.mp hbefore, Int.not_le.mp hbehind⟩

/-- Years come in the order of their days. -/
theorem yearOf_bounds {day low high : Int} (hlow : daysBeforeYear low ≤ day)
    (hhigh : day < daysBeforeYear (high + 1)) : low ≤ yearOf day ∧ yearOf day ≤ high := by
  obtain ⟨hfirst, hlast⟩ := yearOf_spec day
  unfold daysBeforeYear at hlow hhigh hfirst hlast
  omega

/-! ### Months -/

def monthLengths (leap : Bool) : List Nat :=
  [31, if leap then 29 else 28, 31, 30, 31, 30, 31, 31, 30, 31, 30, 31]

/-- The block in which a position lies, and the position in it. -/
def locate : List Nat → Nat → Nat × Nat
  | [], position => (0, position)
  | length :: lengths, position =>
      if position < length then (0, position)
      else
        let (block, rest) := locate lengths (position - length)
        (block + 1, rest)

/-- A position is behind the blocks before its own, which is long enough. -/
theorem locate_spec {lengths : List Nat} {position : Nat} (h : position < lengths.sum) :
    (locate lengths position).1 < lengths.length ∧
      (lengths.take (locate lengths position).1).sum + (locate lengths position).2 = position ∧
      ∃ length ∈ lengths, (locate lengths position).2 < length := by
  induction lengths generalizing position with
  | nil => simp at h
  | cons length lengths ih =>
      unfold locate
      split
      · rename_i hfirst
        exact ⟨Nat.succ_pos _, by simp, length, List.mem_cons_self, hfirst⟩
      · rename_i hfirst
        rw [List.sum_cons] at h
        obtain ⟨hblock, hsum, long, hmem, hrest⟩ := @ih (position - length) (by omega)
        rcases hlocate : locate lengths (position - length) with ⟨block, rest⟩
        rw [hlocate] at hblock hsum hrest
        dsimp only at hblock hsum hrest ⊢
        refine ⟨Nat.succ_lt_succ hblock, ?_, long, List.mem_cons_of_mem _ hmem, hrest⟩
        rw [List.take_succ_cons, List.sum_cons]
        omega

/-! ### Dates -/

/-- A date: months are counted from 0 as in C, days from 1. -/
structure CivilDate where
  year : Int
  month : Nat
  day : Nat
  deriving DecidableEq, Repr

/-- The day of a date, also if the month or the day is out of range. -/
def daysOfCivil (year month day : Int) : Int :=
  let normalYear := year + month / 12
  daysBeforeYear normalYear +
    ((monthLengths (isLeap normalYear)).take (month % 12).toNat).sum + (day - 1)

def civilOfDays (day : Int) : CivilDate :=
  let year := yearOf day
  let place := locate (monthLengths (isLeap year)) (day - daysBeforeYear year).toNat
  ⟨year, place.1, place.2 + 1⟩

/-- The date of a day is a date, and its day is that day. -/
theorem civilOfDays_spec (day : Int) :
    (civilOfDays day).month < 12 ∧ (civilOfDays day).day ≤ 31 ∧ 1 ≤ (civilOfDays day).day ∧
      daysOfCivil (civilOfDays day).year (civilOfDays day).month (civilOfDays day).day = day := by
  obtain ⟨hfirst, hlast⟩ := yearOf_spec day
  rw [daysBeforeYear_succ] at hlast
  have hposition : (day - daysBeforeYear (yearOf day)).toNat <
      (monthLengths (isLeap (yearOf day))).sum := by
    cases hleap : isLeap (yearOf day) with
    | true =>
        rw [hleap, if_pos rfl] at hlast
        have hsum : (monthLengths true).sum = 366 := rfl
        omega
    | false =>
        rw [hleap, if_neg Bool.false_ne_true] at hlast
        have hsum : (monthLengths false).sum = 365 := rfl
        omega
  have hlengths : ∀ length ∈ monthLengths (isLeap (yearOf day)), length ≤ 31 := by
    cases isLeap (yearOf day) <;> decide
  obtain ⟨hmonth, htake, length, hmem, hrest⟩ := locate_spec hposition
  have hlong := hlengths length hmem
  have htwelve : (monthLengths (isLeap (yearOf day))).length = 12 := rfl
  unfold civilOfDays daysOfCivil
  dsimp only
  generalize locate (monthLengths (isLeap (yearOf day)))
    (day - daysBeforeYear (yearOf day)).toNat = place at *
  have hdiv : (place.1 : Int) / 12 = 0 := by omega
  have hmod : ((place.1 : Int) % 12).toNat = place.1 := by omega
  refine ⟨by omega, by omega, by omega, ?_⟩
  rw [hdiv, Int.add_zero, hmod]
  omega

/-! ### Times -/

/-- The fields of a `std::tm` that a date and a time of the day have; the year is counted from
1900. -/
structure Tm where
  year : Int
  mon : Int
  mday : Int
  hour : Int
  min : Int
  sec : Int
  deriving DecidableEq, Repr

/-- The time in seconds as a date and a time of the day, in UTC. -/
def gmtime (time : Int) : Tm :=
  let date := civilOfDays (time / 86400)
  let rest := time % 86400
  ⟨date.year - 1900, date.month, date.day, rest / 3600, rest / 60 % 60, rest % 60⟩

/-- The time in seconds of a date and a time of the day in UTC. Fields may be out of range. -/
def timegm (tm : Tm) : Int :=
  daysOfCivil (tm.year + 1900) tm.mon tm.mday * 86400 + tm.hour * 3600 + tm.min * 60 + tm.sec

/-- The fields of a time are in the ranges of a date and a time of the day. -/
structure Tm.InRange (tm : Tm) : Prop where
  mon : 0 ≤ tm.mon ∧ tm.mon < 12
  mday : 1 ≤ tm.mday ∧ tm.mday ≤ 31
  hour : 0 ≤ tm.hour ∧ tm.hour < 24
  min : 0 ≤ tm.min ∧ tm.min < 60
  sec : 0 ≤ tm.sec ∧ tm.sec < 60

theorem inRange_gmtime (time : Int) : (gmtime time).InRange := by
  obtain ⟨hmonth, hday, hpos, -⟩ := civilOfDays_spec (time / 86400)
  unfold gmtime
  constructor
  all_goals
    dsimp only
    omega

/-- The fields give the time back. -/
theorem timegm_gmtime (time : Int) : timegm (gmtime time) = time := by
  obtain ⟨-, -, -, hdays⟩ := civilOfDays_spec (time / 86400)
  unfold timegm gmtime
  dsimp only
  rw [Int.sub_add_cancel, hdays]
  omega

end Silence.Lib
