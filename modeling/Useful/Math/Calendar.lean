/-
# Instants and their ISO 8601 text

An instant is a number of milliseconds since 1970-01-01. Its date is found by counting
days from the first of March of year zero in eras of 400 years, and its text in the format
`YYYY-MM-DDTHH:mm:ss.sssZ` is read back to the same instant.
-/

import Useful.Math.Regex

namespace Useful.Math

/-! ## Dates -/

/-- The day of a date in the Gregorian calendar. Months count from March, so that a leap
day ends its year. -/
def dayOfDate (year month day : Int) : Int :=
  let marchYear := if month ≤ 2 then year - 1 else year
  let marchMonth := if month > 2 then month - 3 else month + 9
  let era := marchYear / 400
  let yearOfEra := marchYear % 400
  let dayOfYear := (153 * marchMonth + 2) / 5 + day - 1
  era * 146097 + (yearOfEra * 365 + yearOfEra / 4 - yearOfEra / 100 + dayOfYear) - 719468

structure Date where
  year : Int
  month : Int
  day : Int
  deriving DecidableEq, Repr

/-- The year in an era of 400 years that a day falls into: by centuries of 36524 days, then
by four years of 1461 days. -/
def yearOfEra (dayOfEra : Int) : Int :=
  let century := min (dayOfEra / 36524) 3
  let dayOfCentury := dayOfEra - century * 36524
  let dayOfFour := dayOfCentury % 1461
  century * 100 + dayOfCentury / 1461 * 4 + min (dayOfFour / 365) 3

/-- The days of an era before a year of it. -/
def daysBefore (year : Int) : Int := year * 365 + year / 4 - year / 100

/-- The date of a day. -/
def dateOfDay (n : Int) : Date :=
  let era := (n + 719468) / 146097
  let dayOfEra := (n + 719468) % 146097
  let dayOfYear := dayOfEra - daysBefore (yearOfEra dayOfEra)
  let marchMonth := (5 * dayOfYear + 2) / 153
  let month := if marchMonth < 10 then marchMonth + 3 else marchMonth - 9
  { year := era * 400 + yearOfEra dayOfEra + if month ≤ 2 then 1 else 0
    month := month
    day := dayOfYear - (153 * marchMonth + 2) / 5 + 1 }

/-- The day lies in its year. -/
theorem yearOfEra_bounds {dayOfEra : Int} (h : 0 ≤ dayOfEra ∧ dayOfEra < 146097) :
    0 ≤ yearOfEra dayOfEra ∧ yearOfEra dayOfEra < 400 ∧
      0 ≤ dayOfEra - daysBefore (yearOfEra dayOfEra) ∧
      dayOfEra - daysBefore (yearOfEra dayOfEra) ≤ 365 := by
  unfold yearOfEra daysBefore
  dsimp only
  generalize hcentury : min (dayOfEra / 36524) 3 = century
  generalize hfour : (dayOfEra - century * 36524) / 1461 = four
  generalize hyear : min ((dayOfEra - century * 36524) % 1461 / 365) 3 = year
  have hquarter : (century * 100 + four * 4 + year) / 4 = century * 25 + four := by omega
  have hhundred : (century * 100 + four * 4 + year) / 100 = century := by omega
  rw [hquarter, hhundred]
  omega

theorem dateOfDay_bounds (n : Int) :
    1 ≤ (dateOfDay n).month ∧ (dateOfDay n).month ≤ 12 ∧
      1 ≤ (dateOfDay n).day ∧ (dateOfDay n).day ≤ 31 := by
  have hera : 0 ≤ (n + 719468) % 146097 ∧ (n + 719468) % 146097 < 146097 := by omega
  obtain ⟨-, -, hlow, hhigh⟩ := yearOfEra_bounds hera
  unfold dateOfDay
  dsimp only
  generalize (n + 719468) % 146097 - daysBefore _ = dayOfYear at *
  split_ifs <;> omega

/-- The day of a date whose year and month are counted from March. -/
theorem dayOfDate_march (era day : Int) {year marchMonth month : Int} (hyear : 0 ≤ year ∧ year < 400)
    (hmonth : marchMonth < 10 ∧ month = marchMonth + 3 ∧ 0 ≤ marchMonth ∨
      10 ≤ marchMonth ∧ month = marchMonth - 9 ∧ marchMonth ≤ 11) :
    dayOfDate (era * 400 + year + if month ≤ 2 then 1 else 0) month day =
      era * 146097 + (daysBefore year + ((153 * marchMonth + 2) / 5 + day - 1)) - 719468 := by
  have hlast : (era * 400 + year) / 400 = era := by omega
  have hrest : (era * 400 + year) % 400 = year := by omega
  unfold dayOfDate
  rcases hmonth with ⟨hlt, rfl, hle⟩ | ⟨hle, rfl, hlt⟩
  · have hlate : ¬ marchMonth + 3 ≤ 2 := by omega
    have hlate' : marchMonth + 3 > 2 := by omega
    simp only [hlate, hlate', if_true, if_false]
    unfold daysBefore
    omega
  · have hearly : marchMonth - 9 ≤ 2 := by omega
    have hearly' : ¬ marchMonth - 9 > 2 := by omega
    simp only [hearly, hearly', if_true, if_false]
    unfold daysBefore
    omega

/-- The date of a day is of that day. -/
theorem dayOfDate_dateOfDay (n : Int) :
    dayOfDate (dateOfDay n).year (dateOfDay n).month (dateOfDay n).day = n := by
  have hera : 0 ≤ (n + 719468) % 146097 ∧ (n + 719468) % 146097 < 146097 := by omega
  obtain ⟨hyear, hyear', hlow, hhigh⟩ := yearOfEra_bounds hera
  have hmonth : ∀ dayOfYear : Int, 0 ≤ dayOfYear → dayOfYear ≤ 365 →
      let marchMonth := (5 * dayOfYear + 2) / 153
      let month := if marchMonth < 10 then marchMonth + 3 else marchMonth - 9
      marchMonth < 10 ∧ month = marchMonth + 3 ∧ 0 ≤ marchMonth ∨
        10 ≤ marchMonth ∧ month = marchMonth - 9 ∧ marchMonth ≤ 11 := by
    intro dayOfYear hlow hhigh
    dsimp only
    split_ifs <;> omega
  unfold dateOfDay
  dsimp only
  refine (dayOfDate_march _ _ ⟨hyear, hyear'⟩ (hmonth _ hlow hhigh)).trans ?_
  omega

/-! ## Digits -/

def digitChar (n : Nat) : Char := Char.ofNat (48 + n % 10)

def isDecimal (c : Char) : Bool := '0' ≤ c && c ≤ '9'

/-- The last digits of a number. -/
@[grind =]
def pad : Nat → Nat → List Char
  | 0, _ => []
  | width + 1, n => pad width (n / 10) ++ [digitChar n]

/-- The number that digits write. -/
def numberOf (digits : List Char) : Nat :=
  digits.foldl (fun n c => n * 10 + (c.toNat - 48)) 0

/-- The number at the front of a text, and the rest. -/
def takeNumber (width : Nat) (text : List Char) : Option (Nat × List Char) :=
  if (text.take width).length = width ∧ (text.take width).all isDecimal then
    some (numberOf (text.take width), text.drop width)
  else none

/-- The text after a fixed letter. -/
def takeLetter (c : Char) : List Char → Option (List Char)
  | d :: text => if d = c then some text else none
  | [] => none

theorem toNat_digitChar (n : Nat) : (digitChar n).toNat = 48 + n % 10 := by
  have h : ∀ d < 10, (Char.ofNat (48 + d)).toNat = 48 + d := by decide
  exact h _ (Nat.mod_lt _ (by decide))

theorem isDecimal_digitChar (n : Nat) : isDecimal (digitChar n) = true := by
  have h : ∀ d < 10, isDecimal (Char.ofNat (48 + d)) = true := by decide
  exact h _ (Nat.mod_lt _ (by decide))

theorem length_pad (width n : Nat) : (pad width n).length = width := by
  induction width generalizing n with
  | zero => rfl
  | succ width ih => rw [pad, List.length_append, ih, List.length_singleton]

theorem isDecimal_of_mem_pad {width n : Nat} {c : Char} (h : c ∈ pad width n) :
    isDecimal c = true := by
  induction width generalizing n with
  | zero => cases h
  | succ width ih =>
      rcases List.mem_append.mp h with h | h
      · exact ih h
      · rw [List.mem_singleton.mp h]
        exact isDecimal_digitChar n

theorem numberOf_pad {width n : Nat} (h : n < 10 ^ width) : numberOf (pad width n) = n := by
  induction width generalizing n with
  | zero =>
      obtain rfl : n = 0 := by simpa using h
      rfl
  | succ width ih =>
      have hdiv : n / 10 < 10 ^ width := by
        rw [Nat.pow_succ] at h
        omega
      have hfront := ih hdiv
      unfold numberOf at hfront ⊢
      rw [pad, List.foldl_append, hfront, List.foldl_cons, List.foldl_nil, toNat_digitChar]
      omega

/-- Digits are read back. -/
theorem takeNumber_pad {width n : Nat} (h : n < 10 ^ width) (rest : List Char) :
    takeNumber width (pad width n ++ rest) = some (n, rest) := by
  have htake : (pad width n ++ rest).take width = pad width n :=
    List.take_left' (length_pad width n)
  have hdrop : (pad width n ++ rest).drop width = rest := List.drop_left' (length_pad width n)
  unfold takeNumber
  rw [htake, hdrop, numberOf_pad h, if_pos]
  refine ⟨length_pad width n, ?_⟩
  rw [List.all_eq_true]
  exact fun c hc => isDecimal_of_mem_pad hc

/-! ## Instants -/

def msPerDay : Int := 86400000

/-- The largest instant of an ECMAScript date. -/
def maxInstant : Int := 8640000000000000

/-- The year of an ISO text: four digits, or a sign and six. -/
def isoYear (year : Int) : List Char :=
  if 0 ≤ year ∧ year ≤ 9999 then pad 4 year.toNat
  else (if year < 0 then '-' else '+') :: pad 6 year.natAbs

/-- The text of an instant, as `Date.prototype.toISOString` writes it. -/
def isoText (ms : Int) : List Char :=
  let date := dateOfDay (ms / msPerDay)
  let time := (ms % msPerDay).toNat
  isoYear date.year ++ '-' :: pad 2 date.month.toNat ++ '-' :: pad 2 date.day.toNat ++
    'T' :: pad 2 (time / 3600000) ++ ':' :: pad 2 (time / 60000 % 60) ++
    ':' :: pad 2 (time / 1000 % 60) ++ '.' :: pad 3 (time % 1000) ++ ['Z']

/-- `new Date(ms).toISOString()`, which throws outside the range of dates. -/
def toISOString (ms : Int) : Option String :=
  if -maxInstant ≤ ms ∧ ms ≤ maxInstant then some (String.ofList (isoText ms)) else none

/-- `Date.parse` of a text in the format `YYYY-MM-DDTHH:mm:ss.sssZ`. -/
def parseIsoText (text : List Char) : Option Int := do
  let (year, text) ← takeNumber 4 text
  let (month, text) ← takeLetter '-' text >>= takeNumber 2
  let (day, text) ← takeLetter '-' text >>= takeNumber 2
  let (hour, text) ← takeLetter 'T' text >>= takeNumber 2
  let (minute, text) ← takeLetter ':' text >>= takeNumber 2
  let (second, text) ← takeLetter ':' text >>= takeNumber 2
  let (ms, text) ← takeLetter '.' text >>= takeNumber 3
  if text = ['Z'] ∧ 1 ≤ month ∧ month ≤ 12 ∧ 1 ≤ day ∧ day ≤ 31 ∧
      (hour ≤ 23 ∨ hour = 24 ∧ minute = 0 ∧ second = 0 ∧ ms = 0) ∧ minute ≤ 59 ∧ second ≤ 59 then
    some (dayOfDate year month day * msPerDay +
      ((hour * 3600000 + minute * 60000 + second * 1000 + ms : Nat) : Int))
  else none

/-- An instant in a year of four digits. -/
def FourDigitYear (ms : Int) : Prop :=
  0 ≤ (dateOfDay (ms / msPerDay)).year ∧ (dateOfDay (ms / msPerDay)).year ≤ 9999

instance (ms : Int) : Decidable (FourDigitYear ms) := inferInstanceAs (Decidable (_ ∧ _))

/-- The text of an instant in such a year is read back to the instant. -/
theorem parseIsoText_isoText {ms : Int} (h : FourDigitYear ms) :
    parseIsoText (isoText ms) = some ms := by
  obtain ⟨hmonth, hmonth', hday, hday'⟩ := dateOfDay_bounds (ms / msPerDay)
  have hback := dayOfDate_dateOfDay (ms / msPerDay)
  unfold FourDigitYear at h
  unfold parseIsoText isoText
  dsimp only
  generalize htime : (ms % msPerDay).toNat = time
  have hms : ms / msPerDay * msPerDay + time = ms ∧ time < 86400000 := by
    unfold msPerDay at *
    omega
  generalize dateOfDay (ms / msPerDay) = date at *
  rw [isoYear, if_pos h]
  simp only [List.append_assoc, List.cons_append]
  rw [takeNumber_pad (by omega)]
  simp only [Option.bind_eq_bind, Option.bind_some, takeLetter, if_true]
  rw [takeNumber_pad (by omega)]
  simp only [Option.bind_some, if_true]
  rw [takeNumber_pad (by omega)]
  simp only [Option.bind_some, if_true]
  rw [takeNumber_pad (by omega)]
  simp only [Option.bind_some, if_true]
  rw [takeNumber_pad (by omega)]
  simp only [Option.bind_some, if_true]
  rw [takeNumber_pad (by omega)]
  simp only [Option.bind_some, if_true]
  rw [takeNumber_pad (by omega)]
  simp only [Option.bind_some]
  rw [if_pos ⟨trivial, by omega⟩]
  rw [Int.toNat_of_nonneg h.1, Int.toNat_of_nonneg (show 0 ≤ date.month by omega),
    Int.toNat_of_nonneg (show 0 ≤ date.day by omega), hback]
  congr 1
  omega

theorem FourDigitYear.bounds {ms : Int} (h : FourDigitYear ms) :
    -400000000000000 ≤ ms ∧ ms ≤ 400000000000000 := by
  obtain ⟨hmonth, hmonth', hday, hday'⟩ := dateOfDay_bounds (ms / msPerDay)
  have hback := dayOfDate_dateOfDay (ms / msPerDay)
  unfold FourDigitYear at h
  generalize dateOfDay (ms / msPerDay) = date at *
  have hdays : -1000000 ≤ ms / msPerDay ∧ ms / msPerDay ≤ 4000000 := by
    rw [← hback]
    unfold dayOfDate
    dsimp only
    split_ifs <;> omega
  unfold msPerDay at hdays
  omega
theorem toISOString_of_fourDigitYear {ms : Int} (h : FourDigitYear ms) :
    toISOString ms = some (String.ofList (isoText ms)) := by
  obtain ⟨hlow, hhigh⟩ := h.bounds
  rw [toISOString, if_pos]
  unfold maxInstant
  omega

end Useful.Math
