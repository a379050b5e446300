import Mathlib.Data.List.TakeWhile
import PolicyLint.Decimal.Bounds
import PolicyLint.Proofs.Text.Digits
import PolicyLint.Time.Stamp

/-!
# Stamps are read back

The written form of a moment of universal time is read as the same moment, up to the nanosecond. The
milliseconds between two such moments fit into 64 bits.
-/
namespace PolicyLint.Time
open Text
set_option autoImplicit false

theorem daysIn_le (year month : Nat) : daysIn year month ≤ 31 := by
  rw [daysIn]
  split
  · split <;> decide
  · split <;> decide

theorem isDate_iff {year month day : Nat} :
    isDate year month day ↔ (1 ≤ month ∧ month ≤ 12) ∧ 1 ≤ day ∧ day ≤ daysIn year month := by
  simp only [isDate, Bool.and_eq_true, decide_eq_true_eq, and_assoc]

theorem dayNumber_le {year month day : Nat} (h : isDate year month day) :
    dayNumber year month day ≤ 366 * year + 366 + 31 * month := by
  obtain ⟨⟨hMonth, -⟩, -, hDay⟩ := isDate_iff.mp h
  have hMonths : ∀ count, (List.range count).foldl (fun n m => n + daysIn year (m + 1)) 0 ≤ 31 * count := by
    intro count
    induction count with
    | zero => exact Nat.le_refl 0
    | succ count ih =>
      have hLength := daysIn_le year (count + 1)
      rw [List.range_succ, List.foldl_append, List.foldl_cons, List.foldl_nil]
      omega
  have hEarlier := hMonths (month - 1)
  have hLength := daysIn_le year month
  rw [dayNumber, daysBeforeYear]
  omega

namespace Stamp

/-- A moment of universal time, in a year that is written with four digits. -/
structure IsUniversal (s : Stamp) : Prop where
  year : s.year ≤ 9999
  date : isDate s.year s.month s.day
  hour : s.hour ≤ 23
  minute : s.minute ≤ 59
  second : s.second ≤ 59
  nanosecond : s.nanosecond ≤ 999999999
  offset : s.offset = 0

theorem IsUniversal.outOfRange?_eq_none {s : Stamp} (h : s.IsUniversal) : s.outOfRange? = none := by
  obtain ⟨hMonth, -⟩ := isDate_iff.mp h.date
  have hHour := h.hour
  have hMinute := h.minute
  have hSecond := h.second
  rw [outOfRange?, if_neg (by omega), if_neg (by simp [h.date]), if_neg (by omega),
    if_neg (by omega), if_neg (by omega)]

theorem digits_padded (name : String) {width n : Nat} (hPos : 0 < width) (h : n < 10 ^ width) (rest : List Char) :
    digits name width (padded width n ++ rest) = .ok (n, rest) := by
  rw [digits, fixedNumber_padded hPos h]

/-- Only zeros are left out at the end of a fraction. -/
theorem exists_padded_eq (nanosecond : Nat) :
    ∃ zeros, padded 9 nanosecond = fractionDigits nanosecond ++ List.replicate zeros '0' := by
  let front := (padded 9 nanosecond).reverse.takeWhile (· == '0')
  have hZeros : front = List.replicate front.length '0' := by
    refine List.eq_replicate_of_mem fun c hc => ?_
    exact beq_iff_eq.mp (List.mem_takeWhile_imp (p := (· == '0')) hc)
  have hSplit : (padded 9 nanosecond).reverse = front ++ (fractionDigits nanosecond).reverse := by
    rw [fractionDigits, List.reverse_reverse]
    exact List.takeWhile_append_dropWhile.symm
  refine ⟨front.length, ?_⟩
  have hBack := congrArg List.reverse hSplit
  rw [List.reverse_reverse, List.reverse_append, List.reverse_reverse, hZeros, List.reverse_replicate] at hBack
  exact hBack

theorem fractionValue_fractionDigits {nanosecond : Nat} (h : nanosecond ≤ 999999999) :
    fractionValue (fractionDigits nanosecond) = nanosecond := by
  obtain ⟨zeros, hPadded⟩ := exists_padded_eq nanosecond
  have hLength := congrArg List.length hPadded
  rw [length_padded (by decide) (by omega), List.length_append, List.length_replicate] at hLength
  have hTake : (fractionDigits nanosecond).take 9 = fractionDigits nanosecond :=
    List.take_of_length_le (by omega)
  have hZeros : 9 - (fractionDigits nanosecond).length = zeros := by omega
  have hValue := ofDigitChars_padded 9 nanosecond
  rw [fractionValue, hTake, hZeros, ← hPadded]
  rw [Nat.ofDigitChars_eq_foldl] at hValue
  simpa only [Nat.mul_comm 10, Char.reduceToNat] using hValue

theorem fractionDigits_ne_nil {nanosecond : Nat} (h : nanosecond ≠ 0) : fractionDigits nanosecond ≠ [] := by
  intro hNil
  obtain ⟨zeros, hPadded⟩ := exists_padded_eq nanosecond
  rw [hNil, List.nil_append] at hPadded
  have hValue := ofDigitChars_padded 9 nanosecond
  rw [hPadded, Nat.ofDigitChars_replicate_zero, Nat.mul_zero] at hValue
  exact h hValue.symm

theorem isDigit_of_mem_fractionDigits {nanosecond : Nat} {c : Char} (h : c ∈ fractionDigits nanosecond) :
    c.isDigit := by
  obtain ⟨zeros, hPadded⟩ := exists_padded_eq nanosecond
  exact isDigit_of_mem_padded (hPadded ▸ List.mem_append_left _ h)

/-- The fraction as it is written. -/
def fractionText (nanosecond : Nat) : List Char := if nanosecond = 0 then [] else '.' :: fractionDigits nanosecond

theorem fraction_fractionText {nanosecond : Nat} (h : nanosecond ≤ 999999999) :
    fraction (fractionText nanosecond ++ ['Z']) = .ok (nanosecond, ['Z']) := by
  rw [fractionText]
  split
  · rename_i hZero
    rw [hZero, List.nil_append, fraction]
    rintro cs ⟨⟩
  · rename_i hZero
    have hDigits : ∀ c ∈ fractionDigits nanosecond, c.isDigit := fun _ => isDigit_of_mem_fractionDigits
    have hEnds : EndsDigits ['Z'] := endsDigits_cons rfl
    obtain ⟨hTake, hDrop⟩ := takeWhile_isDigit_append hDigits hEnds
    rw [List.cons_append, fraction]
    simp only [hTake, hDrop, List.isEmpty_eq_false_iff.mpr (fractionDigits_ne_nil hZero),
      fractionValue_fractionDigits h, Bool.false_eq_true, if_false]

theorem toList_render {s : Stamp} (h : s.offset = 0) :
    s.render.toList = padded 4 s.year ++ '-' :: (padded 2 s.month ++ '-' :: (padded 2 s.day ++ 'T' ::
      (padded 2 s.hour ++ ':' :: (padded 2 s.minute ++ ':' :: (padded 2 s.second ++
        (fractionText s.nanosecond ++ ['Z'])))))) := by
  rw [render, String.toList_ofList, if_pos h, fractionText]
  simp only [List.append_assoc, List.cons_append]

theorem mark_self (c : Char) (cs : List Char) : mark c (c :: cs) = .ok cs := if_pos rfl

theorem separator_letter (cs : List Char) : separator ('T' :: cs) = .ok cs := rfl

theorem scan_render {s : Stamp} (h : s.IsUniversal) : scan s.render.toList = .ok s := by
  have hYear := h.year
  obtain ⟨hMonth, -, hDay⟩ := isDate_iff.mp h.date
  have hDays := daysIn_le s.year s.month
  have hHour := h.hour
  have hMinute := h.minute
  have hSecond := h.second
  rw [toList_render h.offset, scan]
  simp only [digits_padded _ (show 0 < 4 by decide) (show s.year < 10 ^ 4 by omega),
    digits_padded _ (show 0 < 2 by decide) (show s.month < 10 ^ 2 by omega),
    digits_padded _ (show 0 < 2 by decide) (show s.day < 10 ^ 2 by omega),
    digits_padded _ (show 0 < 2 by decide) (show s.hour < 10 ^ 2 by omega),
    digits_padded _ (show 0 < 2 by decide) (show s.minute < 10 ^ 2 by omega),
    digits_padded _ (show 0 < 2 by decide) (show s.second < 10 ^ 2 by omega),
    fraction_fractionText h.nanosecond, mark_self, separator_letter, bind, Except.bind]
  have hOffset : offsetMinutes ['Z'] = .ok (s.offset, []) := by
    rw [h.offset]
    rfl
  rw [hOffset]
  rfl

theorem parse_render_of_isUniversal {s : Stamp} (h : s.IsUniversal) : parse s.render = .ok s := by
  have hSecond := h.second
  -- No leap second is written, so nothing is settled and nothing more is asked.
  have hSettled : s.settle = s := if_neg (by omega)
  simp only [parse, scan_render h, bind, Except.bind, hSettled, h.outOfRange?_eq_none]
  exact if_neg (by omega)

/-- A span of universal time is less than ten thousand years. -/
theorem IsUniversal.millisecondsTo_lt {start finish : Stamp} (hStart : start.IsUniversal)
    (hFinish : finish.IsUniversal) : start.millisecondsTo finish < Decimal.word64 := by
  have hDays := dayNumber_le hFinish.date
  obtain ⟨⟨-, hMonth⟩, -⟩ := isDate_iff.mp hFinish.date
  have hYear := hFinish.year
  have hHour := hFinish.hour
  have hMinute := hFinish.minute
  have hSecond := hFinish.second
  have hNanosecond := hFinish.nanosecond
  rw [millisecondsTo, nanoseconds, nanoseconds, hStart.offset, hFinish.offset, Decimal.word64]
  omega

theorem isUniversal_ofEpoch_zero : (ofEpoch 0 0).IsUniversal := by
  constructor <;> decide

theorem isUniversal_ofEpoch_one : (ofEpoch 1 0).IsUniversal := by
  constructor <;> decide

end Stamp

end PolicyLint.Time
