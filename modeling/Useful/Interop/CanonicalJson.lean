/-
# Three encoders of canonical JSON

Signing inputs are written by the CLI in JavaScript, by the source server in Go
and by the client in Rust. All three sort the keys of an object, but JavaScript
compares UTF-16 code units while Go and Rust compare bytes. The encoders agree
on a value exactly when none of its objects has two keys whose first difference
is between a supplementary character and one from `U+E000` to `U+FFFF`.
-/

import Useful.Tuf.Canonical
import Mathlib.Data.Rat.Defs
import Mathlib.Algebra.Order.Field.Rat

/-! ## The CLI: `packages/useful-cli/bin/source/cjson.mjs` -/

namespace Useful.Cli

open Useful.Math

/-- A JavaScript number, as far as `JSON.parse` produces it. -/
inductive JsNumber
  | finite (value : ℚ)
  | infinite (negative : Bool)
  deriving DecidableEq

/-- `s.replace(/c/g, text)` for a single character. -/
def replaceAll (c : Char) (text : List Char) (s : List Char) : List Char :=
  s.flatMap fun d => if d = c then text else [d]

/-- `canonicalString`: backslashes first, then quotation marks. -/
def canonicalString (s : String) : List Char :=
  '"' :: (replaceAll '"' ['\\', '"'] (replaceAll '\\' ['\\', '\\'] s.toList) ++ ['"'])

/-- The default comparison of `Array.prototype.sort`: UTF-16 code units. -/
def unitLe (a b : String) : Prop := utf16 a.toList ≤ utf16 b.toList

instance : DecidableRel unitLe := fun a b =>
  inferInstanceAs (Decidable (utf16 a.toList ≤ utf16 b.toList))

instance : Std.Total unitLe := ⟨fun a b => le_total (utf16 a.toList) (utf16 b.toList)⟩

instance : IsTrans String unitLe :=
  ⟨fun a b c => le_trans (a := utf16 a.toList) (b := utf16 b.toList) (c := utf16 c.toList)⟩

instance : Std.Antisymm unitLe :=
  ⟨fun _ _ hab hba => String.toList_inj.mp (utf16_injective (le_antisymm hab hba))⟩

section

-- `String(n)` for integers from `10^21` on, where it switches to exponents.
variable (exponential : Int → List Char)

/-- The number case of `canonicalJson`. -/
def writeNumber : JsNumber → Except String (List Char)
  | .finite q =>
      if q.den = 1 then
        .ok (if q.num.natAbs < 10 ^ 21 then decimal q.num else exponential q.num)
      else .error "canonical JSON 仅允许整数"
  | .infinite _ => .error "canonical JSON 仅允许整数"

/-- `canonicalJson`. -/
def canonicalJson (value : Json JsNumber) : Except String (List Char) :=
  Json.encode unitLe canonicalString (writeNumber exponential) value

end

/-- Both replacements together escape each character once. -/
theorem canonicalString_eq_quoted : canonicalString = quoted := by
  funext s
  have hescape : ∀ text : List Char,
      replaceAll '"' ['\\', '"'] (replaceAll '\\' ['\\', '\\'] text) =
        text.flatMap escapeChar := by
    intro text
    unfold replaceAll
    rw [List.flatMap_assoc]
    refine congrArg (List.flatMap · text) (funext fun c => ?_)
    unfold escapeChar
    split_ifs with hback hmark
    · simp
    · simp [hmark]
    · simp [hmark]
  rw [canonicalString, quoted, hescape]

end Useful.Cli

/-! ## The server: `services/internal/tufmeta/tufmeta.go` -/

namespace Useful.TufMeta

open Useful.Math Useful.Tuf

/-- The dynamic types of a number that `writeCanonical` distinguishes. The cases
`int`, `int64` and `uint64` print alike. -/
inductive GoNumber
  | int (n : Int)
  | float64 (value : ℚ)
  | jsonNumber (text : String)
  deriving DecidableEq

/-- `int64(t)`: truncation, and the minimum outside the range. -/
def int64OfFloat (q : ℚ) : Int :=
  if -2 ^ 63 ≤ q ∧ q < 2 ^ 63 then q.num.tdiv q.den else -2 ^ 63

/-- The digits of `strconv.ParseInt` in base ten. -/
def parseDigits (digits : List Char) : Option Nat :=
  if digits ≠ [] ∧ digits.all Char.isDigit then some (Nat.ofDigitChars 10 digits 0) else none

/-- `json.Number.Int64`: an optional sign, digits, and the range of `int64`. -/
def parseInt64 (text : List Char) : Option Int :=
  let value : Option Int :=
    match text with
    | '-' :: digits => (parseDigits digits).map fun n => -(n : Int)
    | '+' :: digits => (parseDigits digits).map fun n => (n : Int)
    | digits => (parseDigits digits).map fun n => (n : Int)
  value.filter fun i => -2 ^ 63 ≤ i ∧ i < 2 ^ 63

/-- `writeCanonicalString`, for valid UTF-8. -/
def writeCanonicalString (s : String) : List Char :=
  '"' :: (s.toList.flatMap canonicalChar ++ ['"'])

/-- The number cases of `writeCanonical`. -/
def writeNumber : GoNumber → Except String (List Char)
  | .int n => .ok (decimal n)
  | .float64 t =>
      if t ≠ int64OfFloat t then .error "canonical JSON 仅允许整数"
      else .ok (decimal (int64OfFloat t))
  | .jsonNumber t =>
      match parseInt64 t.toList with
      | none => .error "canonical JSON 仅允许整数"
      | some _ => .ok t.toList

/-- `CanonicalJSON`, on decoded values. -/
def canonicalJSON (v : Json GoNumber) : Except String (List Char) :=
  Json.encode byteLe writeCanonicalString writeNumber v

theorem writeCanonicalString_eq_quoted : writeCanonicalString = quoted :=
  canonicalString_eq_quoted

/-- The forms in which Go may hold an integer: a machine integer, a double from
a plain decoder, or the decimal text from a decoder with `UseNumber`. -/
def GoNumber.Represents : GoNumber → Int → Prop
  | .int n, i => n = i
  | .float64 q, i => q = i
  | .jsonNumber text, i => text.toList = decimal i

theorem int64OfFloat_intCast {i : Int} (h : -2 ^ 63 ≤ i ∧ i < 2 ^ 63) :
    int64OfFloat (i : ℚ) = i := by
  have hrange : (-2 ^ 63 : ℚ) ≤ i ∧ (i : ℚ) < 2 ^ 63 := by exact_mod_cast h
  rw [int64OfFloat, if_pos hrange]
  simp

theorem parseDigits_decimalNat (n : Nat) : parseDigits (decimalNat n) = some n := by
  have hne : decimalNat n ≠ [] := Nat.toDigits_ne_nil
  have hall : (decimalNat n).all Char.isDigit = true :=
    List.all_eq_true.mpr fun _ => isDigit_of_mem_decimalNat
  rw [parseDigits, if_pos ⟨hne, hall⟩, decimalNat, Nat.ofDigitChars_ten_toDigits]

theorem parseInt64_decimal {i : Int} (h : -2 ^ 63 ≤ i ∧ i < 2 ^ 63) :
    parseInt64 (decimal i) = some i := by
  cases i with
  | ofNat n =>
      have hsign : ∀ c text, decimalNat n = c :: text → c ≠ '-' ∧ c ≠ '+' := by
        intro c text htext
        have hdigit : c.isDigit = true :=
          isDigit_of_mem_decimalNat (n := n) (by simp [htext])
        constructor <;> rintro rfl <;> exact absurd hdigit (by decide)
      have hvalue : (parseDigits (decimalNat n)).map (fun n => (n : Int)) = some (n : Int) := by
        rw [parseDigits_decimalNat]
        rfl
      unfold parseInt64
      rw [decimal]
      split
      · rename_i digits htext
        exact absurd rfl (hsign '-' digits htext).1
      · rename_i digits htext
        exact absurd rfl (hsign '+' digits htext).2
      · rw [hvalue]
        simpa using h
  | negSucc n =>
      have hvalue : (parseDigits (decimalNat (n + 1))).map (fun n => -(n : Int)) =
          some (Int.negSucc n) := by
        rw [parseDigits_decimalNat]
        rfl
      unfold parseInt64
      rw [decimal]
      simp only [hvalue]
      simpa using h

theorem writeNumber_of_represents {g : GoNumber} {i : Int} (hg : g.Represents i)
    (h : -2 ^ 63 ≤ i ∧ i < 2 ^ 63) : writeNumber g = .ok (decimal i) := by
  cases g with
  | int n => rw [writeNumber, hg]
  | float64 q =>
      rw [GoNumber.Represents] at hg
      rw [writeNumber, hg, int64OfFloat_intCast h, if_neg (by simp)]
  | jsonNumber text =>
      rw [GoNumber.Represents] at hg
      rw [writeNumber, hg, parseInt64_decimal h]

end Useful.TufMeta

/-! ## Agreement -/

namespace Useful.Interop

open Useful.Math

/-- A JSON integer of the JavaScript safe range, with the form in which Go
happens to hold it. -/
structure SafeInteger where
  value : Int
  safe : -(2 ^ 53 - 1) ≤ value ∧ value ≤ 2 ^ 53 - 1
  go : TufMeta.GoNumber
  go_represents : go.Represents value

namespace SafeInteger

/-- As `JSON.parse` reads it. -/
def toJs (n : SafeInteger) : Cli.JsNumber := .finite n.value

/-- As `serde_json` reads it. -/
def toRust (n : SafeInteger) : Tuf.Number :=
  Tuf.Number.ofInt n.value (by have := n.safe; omega)

end SafeInteger

/-- The bytes the CLI signs. -/
def cliBytes (exponential : Int → List Char) (v : Json SafeInteger) :
    Except String Tuf.Bytes :=
  (Cli.canonicalJson exponential (v.mapNum SafeInteger.toJs)).map Tuf.asBytes

/-- The bytes the server signs. -/
def serverBytes (v : Json SafeInteger) : Except String Tuf.Bytes :=
  (TufMeta.canonicalJSON (v.mapNum SafeInteger.go)).map Tuf.asBytes

/-- The bytes the client verifies. -/
def clientBytes (v : Json SafeInteger) : Except Tuf.TufError Tuf.Bytes :=
  (Tuf.canonicalJson (v.mapNum SafeInteger.toRust)).map Tuf.asBytes

/-- The text all encoders would write if they sorted keys by `le`. -/
def agreedText (le : String → String → Prop) [DecidableRel le] (v : Json SafeInteger) :
    List Char :=
  Json.render quoted decimal (Json.sortKeys le (v.mapNum SafeInteger.value))

/-- An encoder that writes every integer in decimal writes the agreed text for
its own order of keys. -/
theorem encode_safeInteger {ε : Type*} (le : String → String → Prop) [DecidableRel le]
    {number : SafeInteger → Except ε (List Char)}
    (hnumber : ∀ n, number n = .ok (decimal n.value)) (v : Json SafeInteger) :
    Json.encode le quoted number v = .ok (agreedText le v) := by
  have hdecimal : number = fun n => .ok (decimal n.value) := funext hnumber
  rw [hdecimal, ← Json.encode_mapNum le quoted (fun i => .ok (decimal i)) SafeInteger.value]
  have hok : ∀ i : Int, false = false → Except.ok (decimal i) = (.ok (decimal i) : Except ε _) :=
    fun _ _ => rfl
  exact Json.encode_eq_ok le quoted hok (Json.anyNum_false _)

theorem cliBytes_eq (exponential : Int → List Char) (v : Json SafeInteger) :
    cliBytes exponential v = .ok (Tuf.asBytes (agreedText Cli.unitLe v)) := by
  have hnumber : ∀ n : SafeInteger,
      Cli.writeNumber exponential n.toJs = .ok (decimal n.value) := by
    intro n
    have hsmall : n.value.natAbs < 10 ^ 21 := by
      have := n.safe
      omega
    rw [SafeInteger.toJs, Cli.writeNumber, if_pos (Rat.den_intCast n.value),
      Rat.num_intCast, if_pos hsmall]
  rw [cliBytes, Cli.canonicalJson, Json.encode_mapNum, Cli.canonicalString_eq_quoted,
    encode_safeInteger Cli.unitLe hnumber]
  rfl

theorem serverBytes_eq (v : Json SafeInteger) :
    serverBytes v = .ok (Tuf.asBytes (agreedText Tuf.byteLe v)) := by
  have hnumber : ∀ n : SafeInteger, TufMeta.writeNumber n.go = .ok (decimal n.value) :=
    fun n => TufMeta.writeNumber_of_represents n.go_represents (by have := n.safe; omega)
  rw [serverBytes, TufMeta.canonicalJSON, Json.encode_mapNum,
    TufMeta.writeCanonicalString_eq_quoted, encode_safeInteger Tuf.byteLe hnumber]
  rfl

theorem clientBytes_eq (v : Json SafeInteger) :
    clientBytes v = .ok (Tuf.asBytes (agreedText Tuf.byteLe v)) := by
  have hnumber : ∀ n : SafeInteger, Tuf.writeNumber n.toRust = .ok (decimal n.value) := by
    intro n
    unfold SafeInteger.toRust Tuf.Number.ofInt
    split_ifs with hneg
    · rfl
    · rw [Tuf.writeNumber, Int.toNat_of_nonneg (by omega)]
  rw [clientBytes, Tuf.canonicalJson, Json.encode_mapNum, Tuf.canonicalString_eq_quoted,
    encode_safeInteger Tuf.byteLe hnumber]
  rfl

/-- No two keys of an object first differ between a supplementary character and
one from `U+E000` to `U+FFFF`. -/
def NoOrderConflict (keys : List String) : Prop :=
  ∀ k ∈ keys, ∀ k' ∈ keys, ¬ OrderConflict k.toList k'.toList

/-- On the keys of an object the two orders agree exactly without a conflict. -/
theorem orders_agree_iff (keys : List String) :
    (∀ k ∈ keys, ∀ k' ∈ keys, Cli.unitLe k k' ↔ Tuf.byteLe k k') ↔ NoOrderConflict keys := by
  have hle : ∀ k k' : String, (Cli.unitLe k k' ↔ Tuf.byteLe k k') ↔
      (utf16 k'.toList < utf16 k.toList ↔ utf8 k'.toList < utf8 k.toList) := by
    intro k k'
    rw [Cli.unitLe, Tuf.byteLe, ← not_lt, ← not_lt, not_iff_not]
  constructor
  · intro hagree k hk k' hk' hconflict
    have hforward := (hle k' k).mp (hagree k' hk' k hk)
    rw [utf16_lt_iff_of_orderConflict hconflict] at hforward
    have hne : utf8 k.toList ≠ utf8 k'.toList := fun h => hconflict.ne (utf8_injective h)
    rcases lt_or_gt_of_ne hne with hlt | hlt
    · exact lt_asymm hlt (hforward.mpr hlt)
    · exact lt_asymm hlt (hforward.mp hlt)
  · intro hno k hk k' hk'
    exact (hle k k').mpr (utf16_lt_iff_of_not_orderConflict (hno k' hk' k hk))

/-- The three encoders give the same bytes exactly when no object of the value
has a pair of keys on which the two orders disagree. -/
theorem encoders_agree_iff (exponential : Int → List Char) (v : Json SafeInteger)
    (hv : v.DistinctKeys) :
    (∃ bytes, cliBytes exponential v = .ok bytes ∧ serverBytes v = .ok bytes ∧
      clientBytes v = .ok bytes) ↔ v.ForallObjects NoOrderConflict := by
  have hagreed : (∃ bytes, cliBytes exponential v = .ok bytes ∧ serverBytes v = .ok bytes ∧
      clientBytes v = .ok bytes) ↔ agreedText Cli.unitLe v = agreedText Tuf.byteLe v := by
    rw [cliBytes_eq, serverBytes_eq, clientBytes_eq]
    constructor
    · rintro ⟨bytes, hcli, hserver, -⟩
      exact Tuf.asBytes_injective
        ((Except.ok.inj hcli).trans (Except.ok.inj hserver).symm)
    · intro heq
      exact ⟨_, rfl, by rw [heq], by rw [heq]⟩
  have hrender : agreedText Cli.unitLe v = agreedText Tuf.byteLe v ↔
      Json.sortKeys Cli.unitLe (v.mapNum SafeInteger.value) =
        Json.sortKeys Tuf.byteLe (v.mapNum SafeInteger.value) :=
    (Json.readableParts_quoted_decimal Function.injective_id).render_injective.eq_iff
  have hdistinct : (v.mapNum SafeInteger.value).DistinctKeys :=
    (Json.forallObjects_mapNum _ _ v).mpr hv
  rw [hagreed, hrender, Json.sortKeys_eq_sortKeys_iff Cli.unitLe Tuf.byteLe hdistinct,
    Json.forallObjects_mapNum]
  exact Json.forallObjects_congr (fun keys _ => orders_agree_iff keys) hv

/-- The public part of a signing key, as its key id is computed from it. -/
def keyObject : Json SafeInteger :=
  .obj [("keytype", .str "ed25519"), ("scheme", .str "ed25519"),
    ("keyval", .obj [("public", .str "d75a980182b10ab7")])]

/-- The key object is a case of the criterion. -/
theorem encoders_agree_iff_keyObject :
    (∃ bytes, cliBytes decimal keyObject = .ok bytes ∧
      serverBytes keyObject = .ok bytes ∧ clientBytes keyObject = .ok bytes) ↔
      keyObject.ForallObjects NoOrderConflict :=
  encoders_agree_iff decimal keyObject (by simp [keyObject, Json.DistinctKeys])

/-- Two keys that the CLI sorts one way and the server and the client the other. -/
def conflictingKeys : Json SafeInteger :=
  .obj [("\uE000", .num ⟨1, by decide, .int 1, rfl⟩),
    ("𐀀", .num ⟨2, by decide, .int 2, rfl⟩)]

/-- The CLI signs other bytes than the server signs and the client verifies. -/
theorem encoders_disagree_on_conflictingKeys :
    conflictingKeys.DistinctKeys ∧
      ¬ ∃ bytes, cliBytes decimal conflictingKeys = .ok bytes ∧
        serverBytes conflictingKeys = .ok bytes ∧
        clientBytes conflictingKeys = .ok bytes := by
  refine ⟨by simp [conflictingKeys, Json.DistinctKeys], ?_⟩
  rintro ⟨bytes, hcli, hserver, -⟩
  rw [cliBytes_eq] at hcli
  rw [serverBytes_eq] at hserver
  have htext := Tuf.asBytes_injective
    ((Except.ok.inj hcli).trans (Except.ok.inj hserver).symm)
  exact absurd htext (by decide)

end Useful.Interop
