/-
# Canonical JSON on the client

`canonical_json` writes the input of every TUF signature. It sorts object keys
by their bytes, escapes only backslashes and quotation marks, and rejects
doubles. Control characters and the separators of JSON itself appear raw inside
strings; the encoding is nevertheless uniquely readable, so that a signature
over the text is a signature over the value.
-/

import Useful.Math.Text
import Useful.Tuf.Metadata

namespace Useful.Tuf

open Useful.Math

/-- The characters `canonical_string` pushes for one character of the text. -/
def canonicalChar : Char → List Char
  | '\\' => ['\\', '\\']
  | '"' => ['\\', '"']
  | c => [c]

/-- `canonical_string`. -/
def canonicalString (s : String) : List Char :=
  '"' :: (s.toList.flatMap canonicalChar ++ ['"'])

theorem canonicalChar_eq_escapeChar (c : Char) : canonicalChar c = escapeChar c := by
  unfold canonicalChar escapeChar
  split <;> simp_all

theorem canonicalString_eq_quoted : canonicalString = quoted := by
  funext s
  rw [canonicalString, quoted, funext canonicalChar_eq_escapeChar]

/-- The number case of `write_canonical`: doubles are refused, integers are
written in decimal. -/
def writeNumber : Number → Except TufError (List Char)
  | .posInt n _ => .ok (decimal n)
  | .negInt n _ => .ok (decimal n)
  | .float _ => .error (.malformed "canonical JSON 仅允许整数")

/-- `canonical_json`, through `write_canonical`. -/
def canonicalJson (v : Value) : Except TufError (List Char) :=
  Json.encode byteLe canonicalString writeNumber v

/-- The integer `writeNumber` writes. Doubles are never written; they are given
codes above the 64-bit range so that the assignment is injective. -/
def numberCode : Number → Int
  | .posInt n _ => n
  | .negInt n _ => n
  | .float bits => 2 ^ 64 + bits.toNat

theorem numberCode_injective : Function.Injective numberCode := by
  intro m n heq
  cases m <;> cases n <;> simp only [numberCode] at heq
  case posInt.posInt => simpa using heq
  case negInt.negInt => simpa using heq
  case float.float => simpa [UInt64.toNat_inj] using heq
  all_goals omega

theorem writeNumber_eq_ok {n : Number} (h : n.isF64 = false) :
    writeNumber n = .ok (decimal (numberCode n)) := by
  cases n with
  | posInt n _ => rfl
  | negInt n _ => rfl
  | float bits => cases h

theorem writeNumber_error {n : Number} (h : n.isF64 = true) :
    ∃ e, writeNumber n = .error e := by
  cases n with
  | posInt n _ => cases h
  | negInt n _ => cases h
  | float bits => exact ⟨_, rfl⟩

/-- The text of a value in the order in which it lists its members. -/
def canonicalText (v : Value) : List Char :=
  Json.render quoted (fun n => decimal (numberCode n)) v

/-- Without a double somewhere, the canonical text is that of the sorted value. -/
theorem canonicalJson_eq_ok {v : Value} (h : v.anyNum Number.isF64 = false) :
    canonicalJson v = .ok (canonicalText (Json.sortKeys byteLe v)) := by
  rw [canonicalJson, canonicalString_eq_quoted]
  exact Json.encode_eq_ok _ _ (fun _ => writeNumber_eq_ok) h

/-- A double anywhere makes the encoder fail. -/
theorem canonicalJson_error {v : Value} (h : v.anyNum Number.isF64 = true) :
    ∃ e, canonicalJson v = .error e :=
  Json.encode_error _ _ (fun _ => writeNumber_error) h

/-- The encoder fails exactly on the values that contain a double. -/
theorem canonicalJson_error_iff (v : Value) :
    (∃ e, canonicalJson v = .error e) ↔ v.anyNum Number.isF64 = true := by
  constructor
  · rintro ⟨e, he⟩
    by_contra hfloat
    rw [canonicalJson_eq_ok (by simpa using hfloat)] at he
    cases he
  · exact canonicalJson_error

theorem canonicalText_injective : Function.Injective canonicalText :=
  (Json.readableParts_quoted_decimal numberCode_injective).render_injective

/-- A success writes the text of the sorted value. -/
theorem eq_canonicalText_of_canonicalJson {v : Value} {text : List Char}
    (h : canonicalJson v = .ok text) : text = canonicalText (Json.sortKeys byteLe v) := by
  cases hfloat : v.anyNum Number.isF64 with
  | false =>
      rw [canonicalJson_eq_ok hfloat] at h
      exact (Except.ok.inj h).symm
  | true =>
      obtain ⟨e, he⟩ := canonicalJson_error hfloat
      rw [he] at h
      cases h

/-- The canonical text determines the value, control characters and separators
inside its strings included, and only doubles have no canonical text. -/
theorem canonicalJson_injective_and_fails_on_doubles :
    (∀ (a b : SerdeValue) (text : List Char), canonicalJson a.tree = .ok text →
      canonicalJson b.tree = .ok text → a = b) ∧
    ∀ v : SerdeValue, (∃ e, canonicalJson v.tree = .error e) ↔
      v.tree.anyNum Number.isF64 = true := by
  refine ⟨?_, fun v => canonicalJson_error_iff v.tree⟩
  rintro ⟨a, ha⟩ ⟨b, hb⟩ text htext htext'
  have hsame := (eq_canonicalText_of_canonicalJson htext).symm.trans
    (eq_canonicalText_of_canonicalJson htext')
  -- A B-tree map is its own sorted form, so the sorted trees are the values.
  have hself : ∀ {v : Value}, v.KeysSorted byteLt → Json.sortKeys byteLe v = v :=
    fun h => Json.sortKeys_eq_self byteLe (fun _ _ => le_of_lt) h
  rw [hself ha, hself hb] at hsame
  exact SerdeValue.mk.injEq .. ▸ canonicalText_injective hsame

end Useful.Tuf
