/-
# The Luhn check digit

Validation and generation both walk over the digits from the right and double every other one.
Generation starts with doubling, because the digit it computes will come after the others.
-/

import Mathlib.Data.Nat.Bits
import Useful.Utilities.Input

namespace Useful.Utilities

open Useful.Math

/-! ## The handler -/

/-- `value.replace(/[\s-]/g, "")` -/
def luhnDigits (value : JsText) : JsText :=
  value.filter fun unit => !(JsText.isSpace unit || unit == 45)

/-- One turn of the loop, with the sum so far and whether the next digit is doubled. -/
def luhnTurn (state : Nat × Bool) (unit : Nat) : Nat × Bool :=
  let digit := unit - 48
  let digit :=
    if state.2 then
      if 9 < digit * 2 then digit * 2 - 9 else digit * 2
    else digit
  (state.1 + digit, !state.2)

def luhnValidate (value : JsText) : Bool :=
  let digits := luhnDigits value
  if 2 ≤ digits.length && digits.all JsText.isDigit then
    (digits.reverse.foldl luhnTurn (0, false)).1 % 10 == 0
  else false

def luhnDigit (value : JsText) : Except String Nat :=
  let digits := luhnDigits value
  if 1 ≤ digits.length && digits.all JsText.isDigit then
    .ok ((10 - (digits.reverse.foldl luhnTurn (0, true)).1 % 10) % 10)
  else .error "只能包含数字"

inductive LuhnOutput
  | valid (valid : Bool)
  | checkDigit (checkDigit : Nat)
  deriving DecidableEq

def luhnHandler (input : Input) : Except String LuhnOutput := do
  input.assertExactObject ["operation", "input"] []
  match (input.get "input").text?, (input.get "operation").isOneOf ["validate", "check-digit"] with
  | some value, true =>
      if (input.get "operation").is "validate" then return .valid (luhnValidate value)
      else return .checkDigit (← luhnDigit value)
  | _, _ => throw "Luhn 输入不符合契约"

/-! ## The sum as a function of positions -/

/-- What a digit adds to the sum. -/
def luhnWeight (doubled : Bool) (digit : Nat) : Nat :=
  if doubled then if 9 < digit * 2 then digit * 2 - 9 else digit * 2 else digit

/-- The sum over digits that are read from the right. -/
def luhnSum : Bool → List Nat → Nat
  | _, [] => 0
  | doubled, unit :: units => luhnWeight doubled (unit - 48) + luhnSum (!doubled) units

theorem foldl_luhnTurn (units : List Nat) (sum : Nat) (doubled : Bool) :
    (units.foldl luhnTurn (sum, doubled)).1 = sum + luhnSum doubled units := by
  induction units generalizing sum doubled with
  | nil => rfl
  | cons unit units ih =>
      have hturn : luhnTurn (sum, doubled) unit =
          (sum + luhnWeight doubled (unit - 48), !doubled) := rfl
      rw [List.foldl_cons, hturn, ih, luhnSum, Nat.add_assoc]

/-- Whether doubling starts again after some digits depends on their number. -/
theorem luhnSum_append (doubled : Bool) (front back : List Nat) :
    luhnSum doubled (front ++ back) =
      luhnSum doubled front + luhnSum (doubled ^^ front.length.bodd) back := by
  induction front generalizing doubled with
  | nil => simp [luhnSum]
  | cons unit front ih =>
      rw [List.cons_append, luhnSum, luhnSum, ih, List.length_cons, Nat.bodd_succ, Nat.add_assoc]
      cases doubled <;> cases front.length.bodd <;> rfl

theorem luhnWeight_lt (doubled : Bool) {digit : Nat} (h : digit < 10) :
    luhnWeight doubled digit < 10 := by
  unfold luhnWeight
  split_ifs <;> omega

/-- Doubling permutes the digits. -/
theorem luhnWeight_inj (doubled : Bool) {x y : Nat} (hx : x < 10) (hy : y < 10)
    (h : luhnWeight doubled x = luhnWeight doubled y) : x = y := by
  unfold luhnWeight at h
  split_ifs at h <;> omega

/-- Exchanging neighbours keeps the sum only for `0` and `9`. -/
theorem luhnWeight_swap (doubled : Bool) {x y : Nat} (hx : x < 10) (hy : y < 10)
    (h : (luhnWeight doubled x + luhnWeight (!doubled) y) % 10 =
      (luhnWeight doubled y + luhnWeight (!doubled) x) % 10) :
    x = y ∨ x = 0 ∧ y = 9 ∨ x = 9 ∧ y = 0 := by
  cases doubled <;> simp only [luhnWeight, Bool.not_true, Bool.not_false, Bool.false_eq_true,
    if_true, if_false] at h <;> split_ifs at h <;> omega

/-! ## What validation and generation compute -/

theorem luhnDigits_append (front back : JsText) :
    luhnDigits (front ++ back) = luhnDigits front ++ luhnDigits back :=
  List.filter_append ..

theorem luhnDigits_cons {unit : Nat} (h : JsText.isDigit unit = true) (units : JsText) :
    luhnDigits (unit :: units) = unit :: luhnDigits units := by
  have hunit := JsText.isDigit_iff.mp h
  have hminus : (unit == 45) = false := beq_eq_false_iff_ne.mpr (by omega)
  rw [luhnDigits, List.filter_cons_of_pos (by rw [JsText.isSpace_of_isDigit h, hminus]; rfl)]
  rfl

theorem luhnValidate_iff (value : JsText) : luhnValidate value = true ↔
    2 ≤ (luhnDigits value).length ∧ (∀ unit ∈ luhnDigits value, JsText.isDigit unit = true) ∧
      luhnSum false (luhnDigits value).reverse % 10 = 0 := by
  unfold luhnValidate
  simp only [foldl_luhnTurn, Nat.zero_add]
  split_ifs with h
  · rw [Bool.and_eq_true, decide_eq_true_eq, List.all_eq_true] at h
    rw [beq_iff_eq]
    exact ⟨fun hsum => ⟨h.1, h.2, hsum⟩, fun hvalid => hvalid.2.2⟩
  · rw [Bool.and_eq_true, decide_eq_true_eq, List.all_eq_true] at h
    exact ⟨fun hfalse => absurd hfalse (by decide), fun hvalid => absurd ⟨hvalid.1, hvalid.2.1⟩ h⟩

/-- Two valid numbers that differ in one stretch of digits give it the same sum. -/
theorem luhnSum_of_luhnValidate {front back xs ys : JsText}
    (hlength : (luhnDigits xs).length = (luhnDigits ys).length)
    (hx : luhnValidate (front ++ xs ++ back) = true)
    (hy : luhnValidate (front ++ ys ++ back) = true) :
    ∃ doubled, luhnSum doubled (luhnDigits xs).reverse % 10 =
      luhnSum doubled (luhnDigits ys).reverse % 10 := by
  have hx := ((luhnValidate_iff _).mp hx).2.2
  have hy := ((luhnValidate_iff _).mp hy).2.2
  simp only [luhnDigits_append, List.reverse_append, luhnSum_append, List.length_reverse,
    hlength] at hx hy
  exact ⟨false ^^ (luhnDigits back).length.bodd, by omega⟩

/-- The digits of one code unit and of two with something between. -/
theorem luhnDigits_pair {x y : Nat} {gap : JsText} (hx : JsText.isDigit x = true)
    (hy : JsText.isDigit y = true) (hgap : luhnDigits gap = []) :
    luhnDigits (x :: gap ++ [y]) = [x, y] := by
  rw [luhnDigits_append, luhnDigits_cons hx, hgap, luhnDigits_cons hy]
  rfl

/-- What separators and digits leave are the digits. -/
theorem isDigit_of_mem_luhnDigits {s : JsText}
    (hs : ∀ unit ∈ s, JsText.isDigit unit = true ∨ unit = 32 ∨ unit = 45) :
    ∀ unit ∈ luhnDigits s, JsText.isDigit unit = true := by
  intro unit hunit
  obtain ⟨hmem, hkept⟩ := List.mem_filter.mp hunit
  rcases hs unit hmem with hdigit | rfl | rfl
  · exact hdigit
  · exact absurd hkept (by decide)
  · exact absurd hkept (by decide)

theorem mem_luhnDigits {s : JsText} {unit : Nat} (hmem : unit ∈ s)
    (hunit : JsText.isDigit unit = true) : unit ∈ luhnDigits s := by
  have hvalue := JsText.isDigit_iff.mp hunit
  rw [luhnDigits, List.mem_filter, JsText.isSpace_of_isDigit hunit,
    beq_eq_false_iff_ne.mpr (by omega : unit ≠ 45)]
  exact ⟨hmem, rfl⟩

theorem luhnDigit_eq_ok {s : JsText} (hlength : 1 ≤ (luhnDigits s).length)
    (hdigits : ∀ unit ∈ luhnDigits s, JsText.isDigit unit = true) :
    luhnDigit s = .ok ((10 - luhnSum true (luhnDigits s).reverse % 10) % 10) := by
  have hcheck : (1 ≤ (luhnDigits s).length && (luhnDigits s).all JsText.isDigit) = true := by
    rw [Bool.and_eq_true, decide_eq_true_eq, List.all_eq_true]
    exact ⟨hlength, hdigits⟩
  unfold luhnDigit
  simp only [foldl_luhnTurn, Nat.zero_add, hcheck, if_true]

/-- One more digit is not doubled itself and turns the doubling of the others around. -/
theorem luhnValidate_append_iff {s : JsText} (hlength : 1 ≤ (luhnDigits s).length)
    (hdigits : ∀ unit ∈ luhnDigits s, JsText.isDigit unit = true) {digit : Nat}
    (hdigit : digit < 10) : luhnValidate (s ++ [48 + digit]) = true ↔
      (digit + luhnSum true (luhnDigits s).reverse) % 10 = 0 := by
  have hlast : JsText.isDigit (48 + digit) = true :=
    JsText.isDigit_iff.mpr ⟨by omega, by omega⟩
  have hall : luhnDigits (s ++ [48 + digit]) = luhnDigits s ++ [48 + digit] := by
    rw [luhnDigits_append, luhnDigits_cons hlast]
    rfl
  have hsum : luhnSum false (luhnDigits s ++ [48 + digit]).reverse =
      digit + luhnSum true (luhnDigits s).reverse := by
    rw [List.reverse_append, List.reverse_singleton, List.singleton_append, luhnSum,
      Nat.add_sub_cancel_left]
    rfl
  rw [luhnValidate_iff, hall, hsum, List.length_append, List.length_singleton]
  refine ⟨fun hvalid => hvalid.2.2, fun hzero => ⟨by omega, ?_, hzero⟩⟩
  intro unit hunit
  rcases List.mem_append.mp hunit with hunit | hunit
  · exact hdigits unit hunit
  · rwa [List.mem_singleton.mp hunit]

theorem luhnValidate_change {front back : JsText} {x y : Nat} (hx : JsText.isDigit x = true)
    (hy : JsText.isDigit y = true) (hne : x ≠ y)
    (hvalid : luhnValidate (front ++ [x] ++ back) = true) :
    luhnValidate (front ++ [y] ++ back) = false := by
  by_contra hother
  rw [Bool.not_eq_false] at hother
  obtain ⟨doubled, hsum⟩ := luhnSum_of_luhnValidate
    (by rw [luhnDigits_cons hx, luhnDigits_cons hy]; rfl) hvalid hother
  rw [luhnDigits_cons hx, luhnDigits_cons hy] at hsum
  change (luhnWeight doubled (x - 48) + 0) % 10 = (luhnWeight doubled (y - 48) + 0) % 10 at hsum
  rw [JsText.isDigit_iff] at hx hy
  have hwx := luhnWeight_lt doubled (by omega : x - 48 < 10)
  have hwy := luhnWeight_lt doubled (by omega : y - 48 < 10)
  have heq : x - 48 = y - 48 := luhnWeight_inj doubled (by omega) (by omega) (by omega)
  omega

theorem luhnValidate_swap {front gap back : JsText} {x y : Nat} (hx : JsText.isDigit x = true)
    (hy : JsText.isDigit y = true) (hgap : luhnDigits gap = []) (hne : x ≠ y)
    (hlow : ¬ (x = 48 ∧ y = 57)) (hhigh : ¬ (x = 57 ∧ y = 48))
    (hvalid : luhnValidate (front ++ (x :: gap ++ [y]) ++ back) = true) :
    luhnValidate (front ++ (y :: gap ++ [x]) ++ back) = false := by
  by_contra hother
  rw [Bool.not_eq_false] at hother
  obtain ⟨doubled, hsum⟩ := luhnSum_of_luhnValidate
    (by rw [luhnDigits_pair hx hy hgap, luhnDigits_pair hy hx hgap]; rfl) hvalid hother
  rw [luhnDigits_pair hx hy hgap, luhnDigits_pair hy hx hgap] at hsum
  change (luhnWeight doubled (y - 48) + (luhnWeight (!doubled) (x - 48) + 0)) % 10 =
    (luhnWeight doubled (x - 48) + (luhnWeight (!doubled) (y - 48) + 0)) % 10 at hsum
  rw [Nat.add_zero, Nat.add_zero] at hsum
  rw [JsText.isDigit_iff] at hx hy
  rcases luhnWeight_swap doubled (by omega) (by omega) hsum with heq | heq | heq
  · omega
  · exact hhigh ⟨by omega, by omega⟩
  · exact hlow ⟨by omega, by omega⟩

/-- The digit that is generated is the only one that makes the number valid, and a valid number
does not stay valid when one digit changes or when two neighbours, with nothing but separators
between them, change places, unless these are `0` and `9`. -/
theorem luhn_agrees :
    (∀ s : JsText, (∀ unit ∈ s, JsText.isDigit unit = true ∨ unit = 32 ∨ unit = 45) →
      (∃ unit ∈ s, JsText.isDigit unit = true) →
      ∃ digit < 10, luhnDigit s = .ok digit ∧
        ∀ other < 10, luhnValidate (s ++ [48 + other]) = true ↔ other = digit) ∧
    (∀ (front back : JsText) (x y : Nat), JsText.isDigit x = true → JsText.isDigit y = true →
      x ≠ y → luhnValidate (front ++ [x] ++ back) = true →
      luhnValidate (front ++ [y] ++ back) = false) ∧
    (∀ (front gap back : JsText) (x y : Nat), JsText.isDigit x = true → JsText.isDigit y = true →
      luhnDigits gap = [] → x ≠ y → ¬ (x = 48 ∧ y = 57) → ¬ (x = 57 ∧ y = 48) →
      luhnValidate (front ++ (x :: gap ++ [y]) ++ back) = true →
      luhnValidate (front ++ (y :: gap ++ [x]) ++ back) = false) := by
  refine ⟨?_, ?_, ?_⟩
  · intro s hs ⟨unit, hmem, hunit⟩
    have hdigits := isDigit_of_mem_luhnDigits hs
    have hlength : 1 ≤ (luhnDigits s).length :=
      List.length_pos_of_mem (mem_luhnDigits hmem hunit)
    refine ⟨_, Nat.mod_lt _ (by decide), luhnDigit_eq_ok hlength hdigits, ?_⟩
    intro other hother
    rw [luhnValidate_append_iff hlength hdigits hother]
    omega
  · intro front back x y hx hy hne hvalid
    exact luhnValidate_change hx hy hne hvalid
  · intro front gap back x y hx hy hgap hne hlow hhigh hvalid
    exact luhnValidate_swap hx hy hgap hne hlow hhigh hvalid

theorem luhn_agrees_sample :
    (∃ digit < 10, luhnDigit (JsText.ofString "7992 7398-71") = .ok digit ∧ ∀ other < 10,
      luhnValidate (JsText.ofString "7992 7398-71" ++ [48 + other]) = true ↔ other = digit) ∧
    luhnValidate (JsText.ofString "7992 7398-714") = false ∧
    luhnValidate (JsText.ofString "7992 7397-813") = false :=
  ⟨luhn_agrees.1 _ (by decide) (by decide),
    luhn_agrees.2.1 (JsText.ofString "7992 7398-71") [] 51 52 (by decide) (by decide) (by decide)
      (by decide),
    luhn_agrees.2.2 (JsText.ofString "7992 739") [45] (JsText.ofString "13") 56 55 (by decide)
      (by decide) (by decide) (by decide) (by decide) (by decide) (by decide)⟩

end Useful.Utilities
