import Silence.Basic
import Silence.Lib.CivilDate
import Silence.Lib.FieldFormat
import Mathlib.Tactic.Ring

/-!
# Silence.Common.Timestamp

Timestamps, and the texts that the repositories make of them.

The repositories write a timestamp with `gmtime`, in UTC, and read it with `mktime`, in
the time zone of the machine. `parseTimestamp_formatTimestamp` says what comes back, and
`parse_format_iff_utc` that this is the timestamp itself only where the machine is in UTC.
-/

namespace Silence.Common

open Silence.Lib

/-- A `common::Timestamp`: nanoseconds since the epoch. -/
abbrev Timestamp := Int64

def nanosPerSecond : Int := 1000000000

/-- `std::chrono::system_clock::to_time_t`, which cuts off towards zero. -/
def toTimeT (timestamp : Timestamp) : Int := timestamp.toInt.tdiv nanosPerSecond

/-- `std::chrono::system_clock::from_time_t`. -/
def fromTimeT (time : Int) : Timestamp := Int64.ofInt (time * nanosPerSecond)

/-- The timestamp without its part of a second. -/
def truncateToSeconds (timestamp : Timestamp) : Timestamp :=
  Int64.ofInt (timestamp.toInt - timestamp.toInt.tmod nanosPerSecond)

/-- A fixed UTC offset of a time zone, in seconds; less than a day. -/
structure UtcOffset where
  seconds : Int
  bounded : -86400 < seconds ∧ seconds < 86400
  deriving DecidableEq, Repr

def UtcOffset.utc : UtcOffset := ⟨0, by decide⟩

/-- `std::mktime` where the local time has a fixed offset. -/
def mktime (offset : UtcOffset) (tm : Tm) : Int := timegm tm - offset.seconds

/-- The format `%Y-%m-%d %H:%M:%S`. The years of all timestamps have four digits. -/
def dateTimeFormat : List FormatItem := [
  .number 4 0 9999, .literal 0x2D, .number 2 1 12, .literal 0x2D, .number 2 1 31, .space,
  .number 2 0 23, .literal 0x3A, .number 2 0 59, .literal 0x3A, .number 2 0 60]

/-- The numbers that `std::put_time` writes. -/
def numbersOf (tm : Tm) : List Nat := [
  (tm.year + 1900).toNat, (tm.mon + 1).toNat, tm.mday.toNat, tm.hour.toNat, tm.min.toNat,
  tm.sec.toNat]

/-- A field of a `std::tm` that is read as a number, less what it is counted from; zero if the
reading ended before. -/
def fieldOf (numbers : List Nat) (i : Nat) (first : Int) : Int :=
  match numbers[i]? with
  | some n => n - first
  | none => 0

/-- The fields that `std::get_time` sets in an empty `std::tm`. -/
def tmOf (numbers : List Nat) : Tm :=
  ⟨fieldOf numbers 0 1900, fieldOf numbers 1 1, fieldOf numbers 2 0, fieldOf numbers 3 0,
    fieldOf numbers 4 0, fieldOf numbers 5 0⟩

/-- `format_timestamp` of `UserMetadataRepository`, and the formatting in
`MessageMetadataRepository`. -/
def formatTimestamp (timestamp : Timestamp) : Bytes :=
  printFields dateTimeFormat (numbersOf (gmtime (toTimeT timestamp)))

/-- `std::get_time` on a stream with the text, which skips white space first. -/
def getTime (text : Bytes) : Tm := tmOf (scanFields dateTimeFormat (text.dropWhile isWhiteSpace))

/-- `parse_timestamp` of `message_metadata_repository.cpp`. It does not ask whether the text could
be read. -/
def parseTimestamp (offset : UtcOffset) (text : Bytes) : Timestamp :=
  fromTimeT (mktime offset (getTime text))

/-- `User::parse_timestamp`, which also casts the result to its own type. -/
def userParseTimestamp (offset : UtcOffset) (text : Bytes) : Timestamp :=
  fromTimeT (mktime offset (getTime text))

/-! ### The range of the timestamps -/

theorem bounds_toTimeT (timestamp : Timestamp) :
    -9223372037 ≤ toTimeT timestamp ∧ toTimeT timestamp ≤ 9223372037 := by
  have hlow := timestamp.le_toInt
  have hhigh := timestamp.toInt_lt
  have hsum := Int.mul_tdiv_add_tmod timestamp.toInt nanosPerSecond
  have hpos : (0 : Int) < nanosPerSecond := by decide
  have hrest := Int.tmod_lt_of_pos timestamp.toInt hpos
  have hrest' : -nanosPerSecond < timestamp.toInt.tmod nanosPerSecond :=
    Int.lt_tmod_of_pos timestamp.toInt hpos
  unfold toTimeT
  unfold nanosPerSecond at *
  omega

@[simp] theorem toTimeT_zero : toTimeT 0 = 0 := rfl

/-- The years of the timestamps are 1677 to 2262. -/
theorem year_gmtime (timestamp : Timestamp) :
    1677 ≤ (gmtime (toTimeT timestamp)).year + 1900 ∧
      (gmtime (toTimeT timestamp)).year + 1900 ≤ 2262 := by
  obtain ⟨hlow, hhigh⟩ := bounds_toTimeT timestamp
  have hyear : (gmtime (toTimeT timestamp)).year + 1900 = yearOf (toTimeT timestamp / 86400) :=
    Int.sub_add_cancel ..
  have hfirst : daysBeforeYear 1677 ≤ -106752 := by decide
  have hlast : 106752 < daysBeforeYear (2262 + 1) := by decide
  rw [hyear]
  exact yearOf_bounds (by omega) (by omega)

/-! ### The round trip -/

theorem fits_numbersOf (timestamp : Timestamp) :
    Fits dateTimeFormat (numbersOf (gmtime (toTimeT timestamp))) := by
  have hyear := year_gmtime timestamp
  have hrange := inRange_gmtime (toTimeT timestamp)
  have hmon := hrange.mon
  have hmday := hrange.mday
  have hhour := hrange.hour
  have hmin := hrange.min
  have hsec := hrange.sec
  simp only [dateTimeFormat, numbersOf, Fits, Nat.reducePow, and_true]
  omega

/-- The fields that were written are read. -/
theorem getTime_formatTimestamp (timestamp : Timestamp) :
    getTime (formatTimestamp timestamp) = gmtime (toTimeT timestamp) := by
  have hyear := year_gmtime timestamp
  have hrange := inRange_gmtime (toTimeT timestamp)
  have hmon := hrange.mon
  have hmday := hrange.mday
  have hhour := hrange.hour
  have hmin := hrange.min
  have hsec := hrange.sec
  have hfront : (formatTimestamp timestamp).dropWhile isWhiteSpace = formatTimestamp timestamp :=
    dropWhile_decimal (by decide) _ _
  unfold getTime
  rw [hfront, formatTimestamp, scanFields_printFields (fits_numbersOf timestamp)]
  generalize gmtime (toTimeT timestamp) = tm at *
  obtain ⟨year, mon, mday, hour, min, sec⟩ := tm
  dsimp only at hyear hmon hmday hhour hmin hsec
  simp only [tmOf, fieldOf, numbersOf, List.getElem?_cons_zero, List.getElem?_cons_succ,
    Tm.mk.injEq]
  omega

/-- The time comes back less the offset of the time zone. -/
theorem parseTimestamp_formatTimestamp (offset : UtcOffset) (timestamp : Timestamp) :
    parseTimestamp offset (formatTimestamp timestamp) =
      fromTimeT (toTimeT timestamp - offset.seconds) := by
  rw [parseTimestamp, getTime_formatTimestamp, mktime, timegm_gmtime]

theorem truncateToSeconds_eq (timestamp : Timestamp) :
    truncateToSeconds timestamp = fromTimeT (toTimeT timestamp) := by
  have hsum := Int.mul_tdiv_add_tmod timestamp.toInt nanosPerSecond
  rw [truncateToSeconds, fromTimeT, toTimeT]
  congr 1
  rw [Int.mul_comm]
  omega

/-- Times that differ by less than a day make different timestamps. -/
theorem fromTimeT_sub_eq_iff (time : Int) (offset : UtcOffset) :
    fromTimeT (time - offset.seconds) = fromTimeT time ↔ offset.seconds = 0 := by
  obtain ⟨hlow, hhigh⟩ := offset.bounded
  constructor
  · intro h
    have hmod := congrArg Int64.toInt h
    rw [fromTimeT, fromTimeT, Int64.toInt_ofInt, Int64.toInt_ofInt,
      Int.bmod_eq_bmod_iff_bmod_sub_eq_zero, ← Int.dvd_iff_bmod_eq_zero] at hmod
    have hdiff : (time - offset.seconds) * nanosPerSecond - time * nanosPerSecond =
        -offset.seconds * nanosPerSecond := by ring
    rw [hdiff] at hmod
    -- the nanoseconds of a day are far fewer than 64 bits count
    have hday : (-offset.seconds * nanosPerSecond).natAbs < (Int64.size : Int).natAbs := by
      have hnanos : nanosPerSecond = 1000000000 := rfl
      have hsize : (Int64.size : Int).natAbs = 18446744073709551616 := rfl
      rw [hnanos, hsize]
      omega
    have hzero := Int.eq_zero_of_dvd_of_natAbs_lt_natAbs hmod hday
    have hnanos : nanosPerSecond ≠ 0 := by decide
    obtain hneg | hnone := Int.mul_eq_zero.mp hzero
    · omega
    · exact absurd hnone hnanos
  · intro h
    rw [h, Int.sub_zero]

/-- Both functions that parse a timestamp give back what was formatted, to the second, for every
timestamp alike: if and only if the machine is in UTC. -/
theorem parse_format_iff_utc (offset : UtcOffset) (timestamp : Timestamp) :
    (parseTimestamp offset (formatTimestamp timestamp) = truncateToSeconds timestamp ∧
        userParseTimestamp offset (formatTimestamp timestamp) = truncateToSeconds timestamp) ↔
      offset.seconds = 0 := by
  have huser : userParseTimestamp offset (formatTimestamp timestamp) =
      parseTimestamp offset (formatTimestamp timestamp) := rfl
  rw [huser, and_self, parseTimestamp_formatTimestamp, truncateToSeconds_eq]
  exact fromTimeT_sub_eq_iff (toTimeT timestamp) offset

/-- Central European time, and the epoch: what comes back is an hour earlier. -/
theorem parse_format_berlin :
    let offset : UtcOffset := ⟨3600, by decide⟩
    parseTimestamp offset (formatTimestamp 0) = fromTimeT (-3600) ∧
      parseTimestamp offset (formatTimestamp 0) ≠ truncateToSeconds 0 := by
  intro offset
  have hparse := parseTimestamp_formatTimestamp offset 0
  refine ⟨hparse, ?_⟩
  rw [hparse]
  decide

end Silence.Common
