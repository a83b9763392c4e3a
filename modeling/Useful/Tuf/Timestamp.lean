/-
# Canonical instants

`parse_canonical_utc_seconds` accepts the texts `YYYY-MM-DDTHH:MM:SSZ` of the proleptic Gregorian
calendar and nothing else. Their seconds count in the order of the texts, and `now_rfc3339` writes
the text that is read back to the second it was given.
-/

import Mathlib.Tactic.IntervalCases
import Useful.Math.Calendar
import Useful.Tuf.RoleDoc

namespace Useful.Tuf

open Useful.Math

/-! ## Moments -/

def isLeapYear (year : Nat) : Bool := year % 4 = 0 ∧ (year % 100 ≠ 0 ∨ year % 400 = 0)

/-- Days of a month, from January. -/
def monthLength (year month : Nat) : Nat :=
  match month with
  | 2 => if isLeapYear year then 29 else 28
  | 4 | 6 | 9 | 11 => 30
  | _ => 31

/-- A valid date in a year of four digits and a time of day. -/
structure Moment where
  year : Nat
  month : Nat
  day : Nat
  hour : Nat
  minute : Nat
  second : Nat
  year_le : year ≤ 9999
  month_mem : 1 ≤ month ∧ month ≤ 12
  day_mem : 1 ≤ day ∧ day ≤ monthLength year month
  hour_le : hour ≤ 23
  minute_le : minute ≤ 59
  second_le : second ≤ 59

namespace Moment

/-- `YYYY-MM-DDTHH:MM:SSZ` -/
def text (m : Moment) : List Char :=
  pad 4 m.year ++ '-' :: pad 2 m.month ++ '-' :: pad 2 m.day ++ 'T' :: pad 2 m.hour ++
    ':' :: pad 2 m.minute ++ ':' :: pad 2 m.second ++ ['Z']

/-- The seconds from the Unix epoch. -/
def seconds (m : Moment) : Int :=
  daysFromCivil m.year m.month m.day * 86400 + m.hour * 3600 + m.minute * 60 + m.second

end Moment

/-- `now_rfc3339` at a second of the Unix clock. -/
def nowRfc3339 (secs : Nat) : String :=
  let days : Int := (secs / 86400 : Nat)
  let rem := secs % 86400
  let z := days + 719468
  let era := z / 146097
  let doe := z % 146097
  let yoe := (doe - doe / 1460 + doe / 36524 - doe / 146096) / 365
  let doy := doe - (365 * yoe + yoe / 4 - yoe / 100)
  let mp := (5 * doy + 2) / 153
  let d := doy - (153 * mp + 2) / 5 + 1
  let mth := if mp < 10 then mp + 3 else mp - 9
  let y := if mth ≤ 2 then yoe + era * 400 + 1 else yoe + era * 400
  String.ofList (zeroPadded 4 y ++ '-' :: zeroPadded 2 mth ++ '-' :: zeroPadded 2 d ++
    'T' :: zeroPadded 2 (rem / 3600 : Nat) ++ ':' :: zeroPadded 2 (rem % 3600 / 60 : Nat) ++
    ':' :: zeroPadded 2 (rem % 60 : Nat) ++ ['Z'])
where
  /-- A number of at least so many digits, as `{n:04}` writes it. -/
  zeroPadded (width : Nat) (n : Int) : List Char :=
    let digits := decimal n
    List.replicate (width - digits.length) '0' ++ digits

/-! ## Days -/

/-- The day of a date, without eras. -/
theorem daysFromCivil_eq (year month day : Int) : daysFromCivil year month day =
    let y := year - if month ≤ 2 then 1 else 0
    let m := month + if month > 2 then -3 else 9
    365 * y + y / 4 - y / 100 + y / 400 + (153 * m + 2) / 5 + day - 719469 := by
  unfold daysFromCivil
  dsimp only
  generalize year - (if month ≤ 2 then 1 else 0) = y
  generalize month + (if month > 2 then -3 else 9) = m
  omega

theorem isLeapYear_iff (year : Nat) :
    isLeapYear year = true ↔ year % 4 = 0 ∧ (year % 100 ≠ 0 ∨ year % 400 = 0) := by
  rw [isLeapYear, decide_eq_true_eq]

/-- The next month begins after the last day of this one. -/
theorem daysFromCivil_lt_month {year month month' day day' : Nat}
    (hday : day ≤ monthLength year month) (hday' : 1 ≤ day') (hmonth : 1 ≤ month)
    (hlt : month < month') (hmonth' : month' ≤ 12) :
    daysFromCivil year month day < daysFromCivil year month' day' := by
  have hleap := isLeapYear_iff year
  have hle : month ≤ 11 := by omega
  simp only [daysFromCivil_eq]
  rcases Nat.lt_or_ge 2 month' with hlate | hearly
  · rw [if_neg (by omega : ¬ (month' : Int) ≤ 2), if_pos (by omega : (month' : Int) > 2)]
    interval_cases month <;> simp only [monthLength, hleap] at hday <;> try split_ifs at hday
    all_goals
      norm_num
      omega
  · obtain rfl : month = 1 := by omega
    obtain rfl : month' = 2 := by omega
    simp only [monthLength] at hday
    norm_num
    omega

/-- The next year begins after the last day of this one. -/
theorem daysFromCivil_lt_year {year year' month month' day day' : Nat}
    (hmonth : 1 ≤ month ∧ month ≤ 12) (hday : day ≤ monthLength year month)
    (hmonth' : 1 ≤ month' ∧ month' ≤ 12) (hday' : 1 ≤ day') (hlt : year < year') :
    daysFromCivil year month day < daysFromCivil year' month' day' := by
  have hend : daysFromCivil year month day ≤ daysFromCivil year (12 : Nat) (31 : Nat) := by
    rcases Nat.lt_or_ge month 12 with hlast | hlast
    · exact (daysFromCivil_lt_month hday (by decide) hmonth.1 hlast (by decide)).le
    · obtain rfl : month = 12 := by omega
      simp only [monthLength] at hday
      simp only [daysFromCivil_eq]
      omega
  have hnext : daysFromCivil year (12 : Nat) (31 : Nat) < daysFromCivil year' (1 : Nat) (1 : Nat) := by
    simp only [daysFromCivil_eq]
    norm_num
    omega
  have hstart : daysFromCivil year' (1 : Nat) (1 : Nat) ≤ daysFromCivil year' month' day' := by
    rcases Nat.lt_or_ge 1 month' with hlate | hearly
    · have hlength : 1 ≤ monthLength year' 1 := show 1 ≤ 31 by decide
      exact (daysFromCivil_lt_month hlength hday' (by decide) hlate hmonth'.2).le
    · obtain rfl : month' = 1 := by omega
      simp only [daysFromCivil_eq]
      omega
  omega

/-- Days of one month count on. -/
theorem daysFromCivil_day (year month day day' : Nat) : daysFromCivil year month day' =
    daysFromCivil year month day + ((day' : Int) - day) := by
  simp only [daysFromCivil_eq]
  omega

/-! ## The order of moments -/

namespace Moment

/-- The first field in which two moments differ decides. -/
inductive Before (m n : Moment) : Prop
  | year (h : m.year < n.year)
  | month (h : m.year = n.year) (h' : m.month < n.month)
  | day (h : m.year = n.year ∧ m.month = n.month) (h' : m.day < n.day)
  | hour (h : m.year = n.year ∧ m.month = n.month ∧ m.day = n.day) (h' : m.hour < n.hour)
  | minute (h : m.year = n.year ∧ m.month = n.month ∧ m.day = n.day ∧ m.hour = n.hour)
      (h' : m.minute < n.minute)
  | second (h : m.year = n.year ∧ m.month = n.month ∧ m.day = n.day ∧ m.hour = n.hour ∧
      m.minute = n.minute) (h' : m.second < n.second)

theorem before_or_eq_or_before (m n : Moment) : m.Before n ∨ m = n ∨ n.Before m := by
  rcases Nat.lt_trichotomy m.year n.year with h | hyear | h
  · exact .inl (.year h)
  rcases Nat.lt_trichotomy m.month n.month with h | hmonth | h
  · exact .inl (.month hyear h)
  rcases Nat.lt_trichotomy m.day n.day with h | hday | h
  · exact .inl (.day ⟨hyear, hmonth⟩ h)
  rcases Nat.lt_trichotomy m.hour n.hour with h | hhour | h
  · exact .inl (.hour ⟨hyear, hmonth, hday⟩ h)
  rcases Nat.lt_trichotomy m.minute n.minute with h | hminute | h
  · exact .inl (.minute ⟨hyear, hmonth, hday, hhour⟩ h)
  rcases Nat.lt_trichotomy m.second n.second with h | hsecond | h
  · exact .inl (.second ⟨hyear, hmonth, hday, hhour, hminute⟩ h)
  · refine .inr (.inl ?_)
    cases m
    cases n
    simp_all
  · exact .inr (.inr (.second ⟨hyear.symm, hmonth.symm, hday.symm, hhour.symm, hminute.symm⟩ h))
  · exact .inr (.inr (.minute ⟨hyear.symm, hmonth.symm, hday.symm, hhour.symm⟩ h))
  · exact .inr (.inr (.hour ⟨hyear.symm, hmonth.symm, hday.symm⟩ h))
  · exact .inr (.inr (.day ⟨hyear.symm, hmonth.symm⟩ h))
  · exact .inr (.inr (.month hyear.symm h))
  · exact .inr (.inr (.year h))

theorem Before.seconds_lt {m n : Moment} (h : m.Before n) : m.seconds < n.seconds := by
  have hm := m.hour_le
  have hm' := m.minute_le
  have hm'' := m.second_le
  unfold seconds
  cases h with
  | year h =>
      have hdays := daysFromCivil_lt_year m.month_mem m.day_mem.2 n.month_mem n.day_mem.1 h
      omega
  | month h h' =>
      have hdays := daysFromCivil_lt_month m.day_mem.2 n.day_mem.1 m.month_mem.1 h' n.month_mem.2
      rw [h] at hdays ⊢
      omega
  | day h h' =>
      have hdays := daysFromCivil_day m.year m.month m.day n.day
      rw [h.1, h.2] at hdays ⊢
      omega
  | hour h h' =>
      rw [h.1, h.2.1, h.2.2]
      omega
  | minute h h' =>
      rw [h.1, h.2.1, h.2.2.1, h.2.2.2]
      omega
  | second h h' =>
      rw [h.1, h.2.1, h.2.2.1, h.2.2.2.1, h.2.2.2.2]
      omega

end Moment

/-! ## The bytes of a text -/

theorem utf8_append (front back : List Char) : utf8 (front ++ back) = utf8 front ++ utf8 back :=
  List.flatMap_append

/-- The last digits of a number, as bytes. -/
def digitBytes : Nat → Nat → List Nat
  | 0, _ => []
  | width + 1, n => digitBytes width (n / 10) ++ [48 + n % 10]

theorem utf8_pad (width n : Nat) : utf8 (pad width n) = digitBytes width n := by
  induction width generalizing n with
  | zero => rfl
  | succ width ih =>
      have hdigit : utf8 [digitChar n] = [48 + n % 10] := by
        rw [utf8_cons, utf8Char, toNat_digitChar, if_pos (by omega)]
        rfl
      rw [pad, utf8_append, ih, hdigit, digitBytes]

/-- Numerals of one width compare as their numbers. -/
theorem digitBytes_diverges {width m n : Nat} (hn : n < 10 ^ width) (h : m < n) :
    Diverges (digitBytes width m) (digitBytes width n) := by
  induction width generalizing m n with
  | zero => exact absurd hn (by simp; omega)
  | succ width ih =>
      rw [Nat.pow_succ] at hn
      rw [digitBytes, digitBytes]
      rcases Nat.lt_or_ge (m / 10) (n / 10) with hfront | hfront
      · obtain ⟨front, x, y, xs, ys, hxs, hys, hlt⟩ := ih (by omega) hfront
        exact ⟨front, x, y, xs ++ [48 + m % 10], ys ++ [48 + n % 10], by simp [hxs], by simp [hys], hlt⟩
      · have hsame : m / 10 = n / 10 := by omega
        rw [hsame]
        exact ⟨_, _, _, [], [], rfl, rfl, by omega⟩

theorem cons_lt_cons_self_iff (x : Nat) (xs ys : List Nat) : x :: xs < x :: ys ↔ xs < ys :=
  append_lt_append_iff [x] xs ys

/-- `YYYY-MM-DDTHH:MM:SSZ`, as bytes. -/
def fieldBytes (year month day hour minute second : Nat) : List Nat :=
  digitBytes 4 year ++ (45 :: (digitBytes 2 month ++ (45 :: (digitBytes 2 day ++
    (84 :: (digitBytes 2 hour ++ (58 :: (digitBytes 2 minute ++
      (58 :: (digitBytes 2 second ++ [90]))))))))))

namespace Moment

def bytes (m : Moment) : List Nat := fieldBytes m.year m.month m.day m.hour m.minute m.second

theorem utf8_text (m : Moment) : utf8 m.text = m.bytes := by
  have hseparators : utf8Char '-' = [45] ∧ utf8Char 'T' = [84] ∧ utf8Char ':' = [58] ∧
      utf8 ['Z'] = [90] := by decide
  obtain ⟨hdash, ht, hcolon, hz⟩ := hseparators
  simp only [text, bytes, fieldBytes, utf8_append, utf8_cons, utf8_pad, hdash, ht, hcolon, hz,
    List.cons_append, List.nil_append, List.append_assoc]

theorem day_le (m : Moment) : m.day ≤ 31 := by
  have hday := m.day_mem.2
  unfold monthLength at hday
  split at hday
  · split_ifs at hday <;> omega
  all_goals omega

theorem Before.bytes_lt {m n : Moment} (h : m.Before n) : m.bytes < n.bytes := by
  have hyear := n.year_le
  have hmonth := n.month_mem
  have hday := n.day_le
  have hhour := n.hour_le
  have hminute := n.minute_le
  have hsecond := n.second_le
  unfold bytes fieldBytes
  cases h with
  | year h => exact (digitBytes_diverges (by omega) h).append_lt _ _
  | month h h' =>
      rw [h]
      simp only [append_lt_append_iff, cons_lt_cons_self_iff]
      exact (digitBytes_diverges (by omega) h').append_lt _ _
  | day h h' =>
      rw [h.1, h.2]
      simp only [append_lt_append_iff, cons_lt_cons_self_iff]
      exact (digitBytes_diverges (by omega) h').append_lt _ _
  | hour h h' =>
      rw [h.1, h.2.1, h.2.2]
      simp only [append_lt_append_iff, cons_lt_cons_self_iff]
      exact (digitBytes_diverges (by omega) h').append_lt _ _
  | minute h h' =>
      rw [h.1, h.2.1, h.2.2.1, h.2.2.2]
      simp only [append_lt_append_iff, cons_lt_cons_self_iff]
      exact (digitBytes_diverges (by omega) h').append_lt _ _
  | second h h' =>
      rw [h.1, h.2.1, h.2.2.1, h.2.2.2.1, h.2.2.2.2]
      simp only [append_lt_append_iff, cons_lt_cons_self_iff]
      exact (digitBytes_diverges (by omega) h').append_lt _ _

end Moment

/-! ## What is accepted -/

/-- The texts of the right shape, with the numbers in them. -/
theorem isCanonicalShape_iff {b : List Nat} : isCanonicalShape b = true ↔
    ∃ year month day hour minute second, year < 10000 ∧ month < 100 ∧ day < 100 ∧ hour < 100 ∧
      minute < 100 ∧ second < 100 ∧ b = fieldBytes year month day hour minute second := by
  constructor
  · intro h
    unfold isCanonicalShape at h
    rw [Bool.and_eq_true, Bool.and_eq_true, beq_iff_eq] at h
    obtain ⟨⟨hlength, hseparators⟩, hdigits⟩ := h
    match b, hlength with
    | [b0, b1, b2, b3, b4, b5, b6, b7, b8, b9, b10, b11, b12, b13, b14, b15, b16, b17, b18, b19], _ =>
        simp [separators, isAsciiDigit] at hseparators hdigits
        obtain ⟨rfl, rfl, rfl, rfl, rfl, rfl⟩ := hseparators
        refine ⟨(b0 - 48) * 1000 + (b1 - 48) * 100 + (b2 - 48) * 10 + (b3 - 48),
          (b5 - 48) * 10 + (b6 - 48), (b8 - 48) * 10 + (b9 - 48), (b11 - 48) * 10 + (b12 - 48),
          (b14 - 48) * 10 + (b15 - 48), (b17 - 48) * 10 + (b18 - 48), by omega, by omega, by omega,
          by omega, by omega, by omega, ?_⟩
        simp only [fieldBytes, digitBytes, List.nil_append, List.cons_append, List.cons.injEq,
          and_true, true_and]
        omega
  · rintro ⟨year, month, day, hour, minute, second, -, -, -, -, -, -, rfl⟩
    have hdigit (n : Nat) : isAsciiDigit (48 + n % 10) = true := by
      rw [isAsciiDigit, Bool.and_eq_true, decide_eq_true_eq, decide_eq_true_eq]
      omega
    simp [isCanonicalShape, fieldBytes, digitBytes, separators, hdigit]

/-- The numbers are read back. -/
theorem number_fieldBytes {year month day hour minute second : Nat} (hyear : year < 10000)
    (hmonth : month < 100) (hday : day < 100) (hhour : hour < 100) (hminute : minute < 100)
    (hsecond : second < 100) :
    let b := fieldBytes year month day hour minute second
    number b 0 4 = year ∧ number b 5 7 = month ∧ number b 8 10 = day ∧ number b 11 13 = hour ∧
      number b 14 16 = minute ∧ number b 17 19 = second := by
  simp [number, fieldBytes, digitBytes]
  omega

/-- The table of `parse_canonical_utc_seconds` is that of the calendar. -/
theorem monthDays_eq {year month : Nat} (hmonth : 1 ≤ month ∧ month ≤ 12) :
    monthDays (decide ((year : Int) % 4 = 0 ∧ ((year : Int) % 100 ≠ 0 ∨ (year : Int) % 400 = 0)))
      month = monthLength year month := by
  have hleap : decide ((year : Int) % 4 = 0 ∧ ((year : Int) % 100 ≠ 0 ∨ (year : Int) % 400 = 0)) =
      isLeapYear year := by
    rw [isLeapYear, decide_eq_decide]
    omega
  rw [hleap]
  obtain ⟨hlow, hhigh⟩ := hmonth
  interval_cases month <;> cases hyear : isLeapYear year <;> simp [monthDays, monthLength, hyear]

/-- A text of the right shape is accepted when its numbers are in range. -/
theorem parseCanonicalUtcSeconds_fieldBytes {value : String} {year month day hour minute second : Nat}
    (hyear : year < 10000) (hmonth : month < 100) (hday : day < 100) (hhour : hour < 100)
    (hminute : minute < 100) (hsecond : second < 100)
    (hvalue : utf8 value.toList = fieldBytes year month day hour minute second) {n : Int} :
    parseCanonicalUtcSeconds value = .ok n ↔
      (1 ≤ month ∧ month ≤ 12) ∧ (1 ≤ day ∧ day ≤ monthLength year month) ∧ hour ≤ 23 ∧
        minute ≤ 59 ∧ second ≤ 59 ∧
        daysFromCivil year month day * 86400 + hour * 3600 + minute * 60 + second = n := by
  have hshape : isCanonicalShape (fieldBytes year month day hour minute second) = true :=
    isCanonicalShape_iff.mpr ⟨_, _, _, _, _, _, hyear, hmonth, hday, hhour, hminute, hsecond, rfl⟩
  obtain ⟨hyear', hmonth', hday', hhour', hminute', hsecond'⟩ :=
    number_fieldBytes hyear hmonth hday hhour hminute hsecond
  unfold parseCanonicalUtcSeconds
  simp only [hvalue, hshape, hyear', hmonth', hday', hhour', hminute', hsecond', not_true_eq_false,
    if_false]
  by_cases hrange : 1 ≤ month ∧ month ≤ 12
  · rw [monthDays_eq hrange]
    split_ifs with hbad
    · refine iff_of_false (by simp) ?_
      omega
    · rw [Except.ok.injEq]
      omega
  · rw [if_pos (by omega)]
    exact iff_of_false (by simp) fun h => hrange h.1

/-- The accepted bytes are those of a moment, and the number is that of its seconds. -/
theorem parseCanonicalUtcSeconds_eq_ok {value : String} {n : Int} :
    parseCanonicalUtcSeconds value = .ok n ↔
      ∃ m : Moment, utf8 value.toList = m.bytes ∧ m.seconds = n := by
  constructor
  · intro h
    have hshape : isCanonicalShape (utf8 value.toList) = true := by
      by_contra hno
      unfold parseCanonicalUtcSeconds at h
      simp only [hno, not_false_eq_true, if_true] at h
      cases h
    obtain ⟨year, month, day, hour, minute, second, hyear, hmonth, hday, hhour, hminute, hsecond,
      hvalue⟩ := isCanonicalShape_iff.mp hshape
    obtain ⟨hmonth', hday', hhour', hminute', hsecond', hn⟩ :=
      (parseCanonicalUtcSeconds_fieldBytes hyear hmonth hday hhour hminute hsecond hvalue).mp h
    exact ⟨⟨year, month, day, hour, minute, second, by omega, hmonth', hday', hhour', hminute',
      hsecond'⟩, hvalue, hn⟩
  · rintro ⟨m, hvalue, hn⟩
    have hday : m.day ≤ 31 := m.day_le
    have hmonth := m.month_mem
    have hhour := m.hour_le
    have hminute := m.minute_le
    have hsecond := m.second_le
    have hyear := m.year_le
    exact (parseCanonicalUtcSeconds_fieldBytes (by omega) (by omega) (by omega) (by omega)
      (by omega) (by omega) hvalue).mpr ⟨hmonth, m.day_mem, hhour, hminute, hsecond, hn⟩

/-! ## The current time -/

/-- `now_rfc3339` finds the year of an era as by centuries and spans of four years, and only a leap
year has a last day. -/
theorem yearOfEra_hinnant {doe : Int} (h : 0 ≤ doe ∧ doe < 146097) :
    (doe - doe / 1460 + doe / 36524 - doe / 146096) / 365 = yearOfEra doe ∧
      (doe - daysBefore (yearOfEra doe) = 365 → (yearOfEra doe + 1) % 4 = 0 ∧
        ((yearOfEra doe + 1) % 100 ≠ 0 ∨ (yearOfEra doe + 1) % 400 = 0)) := by
  unfold yearOfEra daysBefore
  dsimp only
  generalize hcentury : min (doe / 36524) 3 = century
  generalize hfour : (doe - century * 36524) / 1461 = four
  generalize hyear : min ((doe - century * 36524) % 1461 / 365) 3 = year
  have hquarter : (century * 100 + four * 4 + year) / 4 = century * 25 + four := by omega
  have hhundred : (century * 100 + four * 4 + year) / 100 = century := by omega
  rw [hquarter, hhundred]
  have hcases : 0 ≤ century ∧ century ≤ 3 ∧ 0 ≤ year ∧ year ≤ 3 := by omega
  obtain ⟨hc, hc', hy, hy'⟩ := hcases
  interval_cases century <;> interval_cases year <;> omega

theorem daysFromCivil_eq_dayOfDate (year month day : Int) :
    daysFromCivil year month day = dayOfDate year month day := by
  unfold daysFromCivil dayOfDate
  split_ifs <;> simp only [sub_zero, Int.sub_eq_add_neg]

theorem monthLength_cases (year month : Nat) :
    month = 2 ∧ (year % 4 = 0 ∧ (year % 100 ≠ 0 ∨ year % 400 = 0)) ∧ monthLength year month = 29 ∨
    month = 2 ∧ ¬ (year % 4 = 0 ∧ (year % 100 ≠ 0 ∨ year % 400 = 0)) ∧ monthLength year month = 28 ∨
    (month = 4 ∨ month = 6 ∨ month = 9 ∨ month = 11) ∧ monthLength year month = 30 ∨
    (month ≠ 2 ∧ month ≠ 4 ∧ month ≠ 6 ∧ month ≠ 9 ∧ month ≠ 11) ∧ monthLength year month = 31 := by
  unfold monthLength
  split
  · simp only [isLeapYear_iff]
    split_ifs with hleap
    · exact .inl ⟨trivial, hleap, rfl⟩
    · exact .inr (.inl ⟨trivial, hleap, rfl⟩)
  all_goals simp_all

/-- The date of a day is valid. -/
theorem dateOfDay_day_le {n : Int} (hyear : 0 ≤ (dateOfDay n).year) :
    (dateOfDay n).day ≤ monthLength (dateOfDay n).year.toNat (dateOfDay n).month.toNat := by
  have hera : 0 ≤ (n + 719468) % 146097 ∧ (n + 719468) % 146097 < 146097 := by omega
  obtain ⟨-, -, hlow, hhigh⟩ := yearOfEra_bounds hera
  have hlast := (yearOfEra_hinnant hera).2
  have hlength := monthLength_cases (dateOfDay n).year.toNat (dateOfDay n).month.toNat
  generalize monthLength _ _ = length at *
  unfold dateOfDay at hyear hlength ⊢
  dsimp only at hyear hlength ⊢
  generalize (n + 719468) % 146097 - daysBefore _ = doy at *
  generalize yearOfEra _ = yoe at *
  generalize (n + 719468) / 146097 = era at *
  generalize hmarch : (5 * doy + 2) / 153 = march at *
  have hmonth : 0 ≤ march ∧ march ≤ 11 := by omega
  obtain ⟨hmonth, hmonth'⟩ := hmonth
  interval_cases march <;> simp only [Int.reduceLT, if_true, if_false, Int.reduceAdd, Int.reduceSub,
    Int.reduceLE, Int.reduceToNat] at hyear hlength ⊢ <;> omega

theorem pad_zero (width : Nat) : pad width 0 = List.replicate width '0' := by
  induction width with
  | zero => rfl
  | succ width ih =>
      rw [pad, ih, List.replicate_succ']
      rfl

theorem zeroPadded_eq {width n : Nat} (hwidth : 0 < width) (h : n < 10 ^ width) :
    nowRfc3339.zeroPadded width n = pad width n := by
  have hdigit : ∀ d < 10, Nat.digitChar d = digitChar d := by decide
  have hlast (d : Nat) : digitChar (d % 10) = digitChar d := by
    rw [digitChar, digitChar, Nat.mod_mod]
  unfold nowRfc3339.zeroPadded
  show List.replicate (width - (Nat.toDigits 10 n).length) '0' ++ Nat.toDigits 10 n = pad width n
  induction width generalizing n with
  | zero => exact absurd hwidth (by decide)
  | succ width ih =>
      rw [Nat.toDigits_eq_if (by decide), pad]
      split_ifs with hlt
      · rw [List.length_singleton, Nat.add_sub_cancel, hdigit n hlt, Nat.div_eq_of_lt hlt, pad_zero]
      · have hpos : 0 < width := by
          rcases Nat.eq_zero_or_pos width with rfl | hpos
          · omega
          · exact hpos
        rw [Nat.pow_succ] at h
        rw [← ih hpos (by omega), List.length_append, List.length_singleton, Nat.add_sub_add_right,
          hdigit _ (Nat.mod_lt n (by decide)), hlast, List.append_assoc]

/-- The date that `now_rfc3339` writes is that of the day. -/
theorem nowRfc3339_eq (secs : Nat) : (nowRfc3339 secs).toList =
    let date := dateOfDay (secs / 86400 : Nat)
    let rem := secs % 86400
    nowRfc3339.zeroPadded 4 date.year ++ '-' :: nowRfc3339.zeroPadded 2 date.month ++
      '-' :: nowRfc3339.zeroPadded 2 date.day ++ 'T' :: nowRfc3339.zeroPadded 2 (rem / 3600 : Nat) ++
      ':' :: nowRfc3339.zeroPadded 2 (rem % 3600 / 60 : Nat) ++
      ':' :: nowRfc3339.zeroPadded 2 (rem % 60 : Nat) ++ ['Z'] := by
  have hera : 0 ≤ (((secs / 86400 : Nat) : Int) + 719468) % 146097 ∧
      (((secs / 86400 : Nat) : Int) + 719468) % 146097 < 146097 := by omega
  have hyoe := (yearOfEra_hinnant hera).1
  have hyear (era yoe month : Int) : (if month ≤ 2 then yoe + era * 400 + 1 else yoe + era * 400) =
      era * 400 + yoe + if month ≤ 2 then 1 else 0 := by
    split_ifs <;> omega
  have hdays (year : Int) : 365 * year + year / 4 - year / 100 = daysBefore year := by
    rw [daysBefore, Int.mul_comm]
  unfold nowRfc3339 dateOfDay
  simp only [hyoe, hdays, hyear, String.toList_ofList]

/-- The moment of a second of the Unix clock. -/
theorem exists_moment_nowRfc3339 {secs : Nat} (h : secs ≤ 253402300799) :
    ∃ m : Moment, (nowRfc3339 secs).toList = m.text ∧ m.seconds = secs := by
  have hback := dayOfDate_dateOfDay (secs / 86400 : Nat)
  rw [← daysFromCivil_eq_dayOfDate] at hback
  obtain ⟨hmonth, hmonth', hday, hday'⟩ := dateOfDay_bounds (secs / 86400 : Nat)
  have hlength := dateOfDay_day_le (n := (secs / 86400 : Nat))
  have htext := nowRfc3339_eq secs
  dsimp only at htext
  generalize dateOfDay (secs / 86400 : Nat) = date at *
  have hyear : 0 ≤ date.year ∧ date.year ≤ 9999 := by
    rw [daysFromCivil_eq] at hback
    dsimp only at hback
    split_ifs at hback <;> omega
  have hvalid := hlength hyear.1
  obtain ⟨y, mo, d⟩ := date
  dsimp only at *
  obtain ⟨year, rfl⟩ := Int.eq_ofNat_of_zero_le hyear.1
  obtain ⟨month, rfl⟩ := Int.eq_ofNat_of_zero_le (show 0 ≤ mo by omega)
  obtain ⟨day, rfl⟩ := Int.eq_ofNat_of_zero_le (show 0 ≤ d by omega)
  rw [Int.toNat_natCast, Int.toNat_natCast] at hvalid
  refine ⟨⟨year, month, day, secs % 86400 / 3600, secs % 86400 % 3600 / 60, secs % 86400 % 60,
    by omega, by omega, by omega, by omega, by omega, by omega⟩, ?_, ?_⟩
  · rw [htext, zeroPadded_eq (by decide) (by omega), zeroPadded_eq (by decide) (by omega),
      zeroPadded_eq (by decide) (by omega), zeroPadded_eq (by decide) (by omega),
      zeroPadded_eq (by decide) (by omega), zeroPadded_eq (by decide) (by omega)]
    rfl
  · unfold Moment.seconds
    dsimp only
    rw [hback]
    omega

/-! ## The codec -/

theorem utf8_eq_bytes_iff {s : List Char} {m : Moment} : utf8 s = m.bytes ↔ s = m.text := by
  rw [← m.utf8_text]
  exact utf8_injective.eq_iff

/-- Accepted are the texts of moments, the text of a second is read as that second, and instants
compare as their texts. -/
theorem canonical_instants :
    (∀ s : String, (∃ n, parseCanonicalUtcSeconds s = .ok n) ↔ ∃ m : Moment, s.toList = m.text) ∧
    (∀ n : Nat, n ≤ 253402300799 → parseCanonicalUtcSeconds (nowRfc3339 n) = .ok n) ∧
    ∀ (s t : String) (a b : Int), parseCanonicalUtcSeconds s = .ok a →
      parseCanonicalUtcSeconds t = .ok b → (a < b ↔ s < t) ∧ (a = b ↔ s = t) := by
  refine ⟨?_, ?_, ?_⟩
  · intro s
    simp only [parseCanonicalUtcSeconds_eq_ok, utf8_eq_bytes_iff]
    exact ⟨fun ⟨_, m, hm, _⟩ => ⟨m, hm⟩, fun ⟨m, hm⟩ => ⟨m.seconds, m, hm, rfl⟩⟩
  · intro n hn
    obtain ⟨m, hm, hseconds⟩ := exists_moment_nowRfc3339 hn
    exact parseCanonicalUtcSeconds_eq_ok.mpr ⟨m, utf8_eq_bytes_iff.mpr hm, hseconds⟩
  · intro s t a b ha hb
    obtain ⟨m, hm, rfl⟩ := parseCanonicalUtcSeconds_eq_ok.mp ha
    obtain ⟨n, hn, rfl⟩ := parseCanonicalUtcSeconds_eq_ok.mp hb
    rw [String.lt_iff, ← utf8_lt_iff, hm, hn, ← String.toList_inj,
      ← utf8_injective.eq_iff (a := s.toList), hm, hn]
    rcases m.before_or_eq_or_before n with h | rfl | h
    · have hseconds := h.seconds_lt
      have hbytes := h.bytes_lt
      exact ⟨iff_of_true hseconds hbytes, iff_of_false hseconds.ne hbytes.ne⟩
    · exact ⟨iff_of_false (lt_irrefl _) (lt_irrefl _), iff_of_true rfl rfl⟩
    · have hseconds := h.seconds_lt
      have hbytes := h.bytes_lt
      exact ⟨iff_of_false hseconds.asymm hbytes.asymm, iff_of_false hseconds.ne' hbytes.ne'⟩

/-- A leap day, the last second of a year of four digits, and their order. -/
theorem canonical_instants_sample :
    parseCanonicalUtcSeconds (nowRfc3339 253402300799) = .ok 253402300799 ∧
    (parseCanonicalUtcSeconds "2028-02-29T23:59:59Z" = .ok 1835481599 →
      parseCanonicalUtcSeconds "2028-03-01T00:00:00Z" = .ok 1835481600 →
      ("2028-02-29T23:59:59Z" < "2028-03-01T00:00:00Z")) := by
  refine ⟨canonical_instants.2.1 253402300799 (by decide), fun ha hb => ?_⟩
  exact (canonical_instants.2.2 _ _ _ _ ha hb).1.mp (by decide)

end Useful.Tuf
