/-
# Base64 and hexadecimal texts

Both actions encode the UTF-8 bytes of a text, and both decode with a strict decoder that takes a
leading byte order mark away. Base64 is only decoded in the form in which it is encoded.
-/

import Useful.Math.Base64
import Useful.Math.Utf8
import Useful.Utilities.Input

namespace Useful.Utilities

open Useful.Math JsText

/-! ## The handlers -/

/-- `new TextEncoder().encode(text)` -/
def textEncode (text : JsText) : List Nat := utf8 (scalars text)

def withoutMark : List Char → List Char
  | c :: text => if c = '\uFEFF' then text else c :: text
  | [] => []

/-- `new TextDecoder("utf-8", { fatal: true }).decode(bytes)` -/
def textDecode (bytes : List Nat) : Option JsText :=
  (fromUtf8 bytes).map fun text => utf16 (withoutMark text)

/-- The loop of `encodeBase64`, over the bytes from the offset on. -/
@[grind =]
def binaryString (bytes : List Nat) : JsText :=
  if bytes = [] then []
  else bytes.take 32768 ++ binaryString (bytes.drop 32768)
termination_by bytes.length
decreasing_by
  rename_i hne
  have hpos := List.length_pos_of_ne_nil hne
  rw [List.length_drop]
  omega

def encodeBase64 (text : JsText) : Except String JsText :=
  orFail "InvalidCharacterError" (Base64.btoa (binaryString (textEncode text)))

/-- The equals signs at the end that count as padding. -/
def base64Padding (text : JsText) : Nat :=
  if [61, 61].isSuffixOf text then 2 else if [61].isSuffixOf text then 1 else 0

def isCanonicalBase64 (text : JsText) : Bool :=
  if text.length % 4 ≠ 0 then false
  else if text.length = 0 then true
  else if base64Padding text = 2 ∧ (text.length - base64Padding text) % 4 ≠ 2 ∨
      base64Padding text = 1 ∧ (text.length - base64Padding text) % 4 ≠ 3 then false
  else (text.take (text.length - base64Padding text)).all Base64.isAlphabet &&
    (text.drop (text.length - base64Padding text)).all (· == 61)

/-- What `decodeBase64` does with the trimmed text. -/
def decodeCleaned (cleaned : JsText) : Except String JsText := do
  failIf (isCanonicalBase64 cleaned = false) "不是合法的 Base64"
  let binary ← orFail "不是合法的 Base64" (Base64.atob cleaned)
  failIf (Base64.btoa binary ≠ some cleaned) "不是合法的 Base64"
  orFail "不是合法的 Base64" (textDecode binary)

def decodeBase64 (text : JsText) : Except String JsText := decodeCleaned (trim text)

def base64Handler (input : Input) : Except String JsText := do
  input.assertExactObject ["operation", "text"] []
  match (input.get "text").text?, (input.get "operation").isOneOf ["encode", "decode"] with
  | some text, true =>
      if (input.get "operation").is "encode" then encodeBase64 text else decodeBase64 text
  | _, _ => throw "Base64 action 输入不符合契约"

/-- `/0x/i`, replaced by nothing. -/
def markRule : JsText → Option (Nat × Except String JsText)
  | 48 :: unit :: _ => if unit = 120 ∨ unit = 88 then some (2, .ok []) else none
  | _ => none

/-- The numbers that each two digits write. -/
@[grind =]
def hexPairs : JsText → List Nat
  | a :: b :: rest => parseHex [a, b] :: hexPairs rest
  | _ => []

def hexEncode (separator : JsText) (bytes : List Nat) : JsText :=
  separator.intercalate (bytes.map fun byte => padStart 2 48 (toHex byte))

def hexDecode (text : JsText) : Except String JsText := do
  let marksRemoved ← replaceAll markRule text
  let cleaned := marksRemoved.filter fun unit => !(isSpace unit || unit == 44)
  failIf (cleaned.length % 2 ≠ 0 ∨ cleaned.all isHexDigit = false) "不是合法的十六进制文本"
  orFail "十六进制字节不是合法的 UTF-8" (textDecode (hexPairs cleaned))

def hexTextHandler (input : Input) : Except String JsText := do
  input.assertExactObject ["operation", "text"] ["separator"]
  let separator : Option (Option JsText) :=
    match input.get "separator" with
    | .undefined => some none
    | .str text => some (some text)
    | _ => none
  match (input.get "text").text?, (input.get "operation").isOneOf ["encode", "decode"], separator with
  | some text, true, some separator =>
      if (input.get "operation").is "encode" then
        return hexEncode (separator.getD []) (textEncode text)
      else hexDecode text
  | _, _, _ => throw "HEX text 输入不符合契约"

/-! ## Bytes of texts -/

theorem textEncode_utf16 (text : List Char) : textEncode (utf16 text) = utf8 text := by
  rw [textEncode, scalars_utf16]

theorem textDecode_utf8 (text : List Char) :
    textDecode (utf8 text) = some (utf16 (withoutMark text)) := by
  rw [textDecode, fromUtf8_utf8]
  rfl

theorem utf8_lt {text : List Char} : ∀ b ∈ utf8 text, b < 256 := by
  intro b hb
  obtain ⟨c, -, hc⟩ := List.mem_flatMap.mp hb
  exact lt_of_mem_utf8Char hc

/-- The mark is the character that the three bytes `EF BB BF` encode. -/
theorem head?_eq_mark_iff (text : List Char) :
    text.head? = some '\uFEFF' ↔ [0xEF, 0xBB, 0xBF] <+: utf8 text := by
  cases text with
  | nil => simp [utf8]
  | cons c text =>
      rw [List.head?_cons, Option.some.injEq, utf8_cons]
      constructor
      · rintro rfl
        exact List.prefix_append _ _
      · rintro ⟨back, hback⟩
        obtain ⟨b, bytes, hbytes, htake⟩ := takeChunk_utf8Char c (utf8 text)
        rw [hbytes, List.cons_append] at hback
        obtain ⟨rfl, htail⟩ := List.cons.inj hback
        change [0xBB, 0xBF] ++ back = bytes ++ utf8 text at htail
        rw [← htail] at htake
        have hmark : takeChunk 0xEF ([0xBB, 0xBF] ++ back) = (some '\uFEFF', back) := rfl
        rw [hmark] at htake
        exact (Option.some.inj (Prod.mk.inj htake).1).symm

theorem withoutMark_eq_self_iff (text : List Char) :
    withoutMark text = text ↔ text.head? ≠ some '\uFEFF' := by
  cases text with
  | nil => simp [withoutMark]
  | cons c text =>
      rw [withoutMark, List.head?_cons, ne_eq, Option.some.injEq]
      split_ifs with hc
      · exact iff_of_false (fun heq => absurd (congrArg List.length heq) (by simp)) fun h => h hc
      · exact iff_of_true rfl hc

/-! ## Base64 -/

/-- The chunks are those of the whole. -/
theorem binaryString_eq (bytes : List Nat) : binaryString bytes = bytes := by
  induction hlength : bytes.length using Nat.strongRecOn generalizing bytes with
  | ind n ih =>
      unfold binaryString
      split_ifs with hempty
      · exact hempty.symm
      · have hpos := List.length_pos_of_ne_nil hempty
        rw [ih _ (by rw [List.length_drop]; omega) _ rfl, List.take_append_drop]

theorem encodeBase64_eq (text : JsText) :
    encodeBase64 text = orFail "InvalidCharacterError" (Base64.btoa (textEncode text)) := by
  rw [encodeBase64, binaryString_eq]

theorem base64Padding_append {content : JsText} (h : ∀ code ∈ content, code ≠ 61) {count : Nat}
    (hcount : count ≤ 2) : base64Padding (content ++ List.replicate count 61) = count := by
  have hone : ¬ [61] <:+ content := fun hsuffix => h 61 (hsuffix.subset List.mem_cons_self) rfl
  have htwo : ¬ [61, 61] <:+ content := fun hsuffix => h 61 (hsuffix.subset List.mem_cons_self) rfl
  unfold base64Padding
  simp only [List.isSuffixOf_iff_suffix]
  match count, hcount with
  | 0, _ => rw [List.replicate_zero, List.append_nil, if_neg htwo, if_neg hone]
  | 1, _ =>
      have hsuffix : [61] <:+ content ++ List.replicate 1 61 := List.suffix_append _ _
      rw [if_neg, if_pos hsuffix]
      rintro ⟨front, hfront⟩
      have hcontent : front ++ [61] = content := by
        have hdrop : front ++ [61] ++ [61] = content ++ [61] := by
          rw [List.append_assoc]
          exact hfront
        exact List.append_cancel_right hdrop
      exact hone ⟨front, hcontent⟩
  | 2, _ =>
      have hsuffix : [61, 61] <:+ content ++ List.replicate 2 61 := List.suffix_append _ _
      rw [if_pos hsuffix]

/-- Encoded bytes are in canonical form. -/
theorem isCanonicalBase64_btoa {bytes text : List Nat} (h : Base64.btoa bytes = some text) :
    isCanonicalBase64 text = true := by
  have hbytes := Base64.lt_of_btoa h
  have hlength := Base64.length_btoa h
  rw [Base64.btoa_eq_some hbytes] at h
  cases h
  have halphabet := Base64.isAlphabet_of_mem_sextets hbytes
  have hpadding := base64Padding_append
    (fun code hcode => Base64.isAlphabet_ne (halphabet code hcode)) (Base64.padding_le bytes.length)
  have hcontent : ((Base64.sextets bytes).map Base64.unit).length = (4 * bytes.length + 2) / 3 := by
    rw [List.length_map, Base64.length_sextets]
  have hback : ((Base64.sextets bytes).map Base64.unit ++
      List.replicate (Base64.padding bytes.length) 61).length - Base64.padding bytes.length =
        ((Base64.sextets bytes).map Base64.unit).length := by
    rw [List.length_append, List.length_replicate, Nat.add_sub_cancel]
  unfold isCanonicalBase64
  rw [hpadding, hback, hlength, hcontent, ← hcontent, List.take_left, List.drop_left, hcontent]
  rw [if_neg (by omega)]
  split_ifs with hempty hcounts
  · rfl
  · unfold Base64.padding at hcounts
    omega
  · rw [Bool.and_eq_true, List.all_eq_true, List.all_eq_true]
    exact ⟨halphabet, fun code hcode => by rw [List.eq_of_mem_replicate hcode]; rfl⟩

/-- There is nothing to trim at encoded bytes. -/
theorem trim_btoa {bytes text : List Nat} (h : Base64.btoa bytes = some text) : trim text = text := by
  have hbytes := Base64.lt_of_btoa h
  rw [Base64.btoa_eq_some hbytes] at h
  cases h
  have hunits : ∀ n < 64, isSpace (Base64.unit n) = false := by decide
  apply trim_eq_self
  intro code hcode
  rcases List.mem_append.mp hcode with hcode | hcode
  · obtain ⟨n, hn, rfl⟩ := List.mem_map.mp hcode
    exact hunits n (Base64.sextets_lt hbytes n hn)
  · rw [List.eq_of_mem_replicate hcode]
    rfl

theorem decodeCleaned_eq_ok {cleaned decoded : JsText} : decodeCleaned cleaned = .ok decoded ↔
    isCanonicalBase64 cleaned = true ∧ ∃ binary, Base64.atob cleaned = some binary ∧
      Base64.btoa binary = some cleaned ∧ textDecode binary = some decoded := by
  unfold decodeCleaned
  simp only [bind_eq_ok, failIf_eq_ok, orFail_eq_ok, Bool.not_eq_false, ne_eq, not_not]
  constructor
  · rintro ⟨-, hcanonical, binary, hbinary, -, hsame, hdecoded⟩
    exact ⟨hcanonical, binary, hbinary, hsame, hdecoded⟩
  · rintro ⟨hcanonical, binary, hbinary, hsame, hdecoded⟩
    exact ⟨⟨⟩, hcanonical, binary, hbinary, ⟨⟩, hsame, hdecoded⟩

/-- What is encoded is decoded, but for a leading mark. -/
theorem decodeBase64_btoa {text : List Char} {encoded : JsText}
    (h : Base64.btoa (utf8 text) = some encoded) :
    decodeBase64 encoded = .ok (utf16 (withoutMark text)) := by
  have hatob : Base64.atob encoded = some (utf8 text) := by
    have hround := Base64.atob_btoa (Base64.lt_of_btoa h)
    rwa [h] at hround
  rw [decodeBase64, trim_btoa h, decodeCleaned_eq_ok]
  exact ⟨isCanonicalBase64_btoa h, utf8 text, hatob, h, textDecode_utf8 text⟩

/-- What is decoded is encoded as the trimmed text, unless a mark was taken away. -/
theorem encodeBase64_of_decodeBase64 {text decoded : JsText} (h : decodeBase64 text = .ok decoded) :
    encodeBase64 decoded = .ok (trim text) ↔ ¬ ofString "77u/" <+: trim text := by
  rw [decodeBase64, decodeCleaned_eq_ok] at h
  obtain ⟨-, binary, -, hsame, hdecoded⟩ := h
  obtain ⟨chars, hchars, rfl⟩ := Option.map_eq_some_iff.mp hdecoded
  have hbytes := utf8_of_fromUtf8 hchars
  have hprefix : ofString "77u/" <+: trim text ↔ chars.head? = some '\uFEFF' := by
    rw [head?_eq_mark_iff, hbytes,
      ← Base64.btoa_prefix_iff hsame (by decide : 0xEF < 256) (by decide) (by decide)]
    rfl
  rw [encodeBase64_eq, textEncode_utf16, orFail_eq_ok, hprefix]
  constructor
  · intro hencoded hmark
    cases chars with
    | nil => cases hmark
    | cons c chars =>
        obtain rfl : c = '\uFEFF' := Option.some.inj hmark
        have hlength := Base64.length_btoa hencoded
        rw [Base64.length_btoa hsame, ← hbytes, utf8_cons, List.length_append] at hlength
        have hthree : (utf8Char '\uFEFF').length = 3 := rfl
        rw [hthree] at hlength
        change 4 * ((3 + (utf8 chars).length + 2) / 3) = 4 * (((utf8 chars).length + 2) / 3) at hlength
        omega
  · intro hmark
    rw [(withoutMark_eq_self_iff chars).mpr hmark, hbytes, hsame]

/-! ## Hexadecimal texts -/

/-- A byte in two digits. -/
def hexPair (byte : Nat) : JsText := padStart 2 48 (toHex byte)

theorem hexPair_spec {byte : Nat} (h : byte < 256) : ∃ a b, hexPair byte = [a, b] ∧
    isHexDigit a = true ∧ isHexDigit b = true ∧ parseHex [a, b] = byte := by
  obtain ⟨hlength, hdigits, hvalue⟩ :=
    padStart_toHex (by decide : 0 < 2) (by omega : byte < 16 ^ 2)
  change (hexPair byte).length = 2 at hlength
  change ∀ unit ∈ hexPair byte, isHexDigit unit = true at hdigits
  change parseHex (hexPair byte) = byte at hvalue
  match hpair : hexPair byte, hlength with
  | [a, b], _ =>
      rw [hpair] at hdigits hvalue
      exact ⟨a, b, rfl, hdigits a (by simp), hdigits b (by simp), hvalue⟩

/-- Hexadecimal digits are kept when a text is cleaned. -/
theorem isHexDigit_kept {unit : Nat} (h : isHexDigit unit = true) :
    (!(isSpace unit || unit == 44)) = true ∧ unit ≠ 120 ∧ unit ≠ 88 := by
  have hrange : unit < 103 := by
    simp only [isHexDigit, isDigit, Bool.or_eq_true, Bool.and_eq_true, decide_eq_true_eq] at h
    omega
  have hall : ∀ u < 103, isHexDigit u = true →
      (!(isSpace u || u == 44)) = true ∧ u ≠ 120 ∧ u ≠ 88 := by
    decide
  exact hall unit hrange h

/-- A separator of spaces and commas. -/
def IsSeparator (separator : JsText) : Prop := ∀ unit ∈ separator, unit = 32 ∨ unit = 44

theorem hexEncode_cons_cons (separator : JsText) (a b : Nat) (bytes : List Nat) :
    hexEncode separator (a :: b :: bytes) =
      hexPair a ++ (separator ++ hexEncode separator (b :: bytes)) := by
  simp [hexEncode, hexPair, List.intercalate]

theorem mem_hexEncode {separator : JsText} {bytes : List Nat} (hbytes : ∀ b ∈ bytes, b < 256)
    {unit : Nat} (h : unit ∈ hexEncode separator bytes) :
    unit ∈ separator ∨ isHexDigit unit = true := by
  have hdigit {byte : Nat} (hbyte : byte < 256) (hmem : unit ∈ hexPair byte) :
      isHexDigit unit = true :=
    (padStart_toHex (by decide : 0 < 2) (by omega : byte < 16 ^ 2)).2.1 unit hmem
  induction bytes with
  | nil => simp [hexEncode] at h
  | cons byte bytes ih =>
      rw [List.forall_mem_cons] at hbytes
      cases bytes with
      | nil => exact .inr (hdigit hbytes.1 (by simpa [hexEncode, hexPair] using h))
      | cons next bytes =>
          rw [hexEncode_cons_cons, List.mem_append, List.mem_append] at h
          rcases h with h | h | h
          · exact .inr (hdigit hbytes.1 h)
          · exact .inl h
          · exact ih hbytes.2 h

/-- Cleaning leaves the pairs of digits. -/
theorem filter_hexEncode {separator : JsText} (hseparator : IsSeparator separator)
    {bytes : List Nat} (hbytes : ∀ b ∈ bytes, b < 256) :
    (hexEncode separator bytes).filter (fun unit => !(isSpace unit || unit == 44)) =
      bytes.flatMap hexPair := by
  have hpair {byte : Nat} (hbyte : byte < 256) :
      (hexPair byte).filter (fun unit => !(isSpace unit || unit == 44)) = hexPair byte := by
    rw [List.filter_eq_self]
    intro unit hunit
    exact (isHexDigit_kept ((padStart_toHex (by decide : 0 < 2)
      (by omega : byte < 16 ^ 2)).2.1 unit hunit)).1
  have hnothing : separator.filter (fun unit => !(isSpace unit || unit == 44)) = [] := by
    rw [List.filter_eq_nil_iff]
    intro unit hunit
    rcases hseparator unit hunit with rfl | rfl <;> decide
  induction bytes with
  | nil => rfl
  | cons byte bytes ih =>
      rw [List.forall_mem_cons] at hbytes
      cases bytes with
      | nil => simpa [hexEncode, hexPair] using hpair hbytes.1
      | cons next bytes =>
          rw [hexEncode_cons_cons, List.filter_append, List.filter_append, hpair hbytes.1,
            hnothing, ih hbytes.2, List.nil_append]
          rfl

theorem hexPairs_flatMap {bytes : List Nat} (hbytes : ∀ b ∈ bytes, b < 256) :
    hexPairs (bytes.flatMap hexPair) = bytes ∧ (bytes.flatMap hexPair).length % 2 = 0 ∧
      (bytes.flatMap hexPair).all isHexDigit = true := by
  induction bytes with
  | nil => exact ⟨rfl, rfl, rfl⟩
  | cons byte bytes ih =>
      rw [List.forall_mem_cons] at hbytes
      obtain ⟨a, b, hpair, ha, hb, hvalue⟩ := hexPair_spec hbytes.1
      obtain ⟨hpairs, heven, hdigits⟩ := ih hbytes.2
      rw [List.flatMap_cons, hpair]
      refine ⟨?_, ?_, ?_⟩
      · show parseHex [a, b] :: hexPairs (bytes.flatMap hexPair) = byte :: bytes
        rw [hvalue, hpairs]
      · rw [List.length_append, List.length_cons, List.length_singleton]
        omega
      · rw [List.all_append, hdigits]
        simp [ha, hb]

theorem hexDecode_hexEncode {separator : JsText} (hseparator : IsSeparator separator)
    (text : List Char) :
    hexDecode (hexEncode separator (utf8 text)) = .ok (utf16 (withoutMark text)) := by
  have hmarks : replaceAll markRule (hexEncode separator (utf8 text)) =
      .ok (hexEncode separator (utf8 text)) := by
    apply replaceAll_of_forall_none
    intro part hpart
    unfold markRule
    split
    case h_2 => rfl
    case h_1 unit back =>
      have hmem : unit ∈ hexEncode separator (utf8 text) := hpart.subset (by simp)
      rw [if_neg]
      rcases mem_hexEncode utf8_lt hmem with hmem | hdigit
      · rcases hseparator unit hmem with rfl | rfl <;> decide
      · have hkept := isHexDigit_kept hdigit
        exact not_or.mpr ⟨hkept.2.1, hkept.2.2⟩
  obtain ⟨hpairs, heven, hdigits⟩ := hexPairs_flatMap (@utf8_lt text)
  unfold hexDecode
  rw [hmarks]
  show (do failIf (_ ∨ _) _; _) = _
  rw [filter_hexEncode hseparator utf8_lt, hpairs, heven, hdigits, textDecode_utf8]
  rfl

/-! ## The round trips -/

/-- The input of an operation on a text. -/
def codecRequest (operation : String) (text : JsText) (separator : List (String × Field)) : Input :=
  .object ([("operation", .str (ofString operation)), ("text", .str text)] ++ separator)

/-- The input of a separator that may be absent. -/
def separatorField : Option JsText → List (String × Field)
  | none => []
  | some separator => [("separator", .str separator)]

theorem base64Handler_encode (text : JsText) :
    base64Handler (codecRequest "encode" text []) = encodeBase64 text := rfl

theorem base64Handler_decode (text : JsText) :
    base64Handler (codecRequest "decode" text []) = decodeBase64 text := rfl

theorem hexTextHandler_encode (text : JsText) (separator : Option JsText) :
    hexTextHandler (codecRequest "encode" text (separatorField separator)) =
      .ok (hexEncode (separator.getD []) (textEncode text)) := by
  cases separator <;> rfl

theorem hexTextHandler_decode (text : JsText) :
    hexTextHandler (codecRequest "decode" text []) = hexDecode text := rfl

/-- Both codecs decode what they have encoded, whatever separates the digits. -/
def CodecsReturn (text : JsText) : Prop :=
  (∃ encoded, base64Handler (codecRequest "encode" text []) = .ok encoded ∧
    base64Handler (codecRequest "decode" encoded []) = .ok text) ∧
  ∀ separator : Option JsText, IsSeparator (separator.getD []) → ∃ encoded,
    hexTextHandler (codecRequest "encode" text (separatorField separator)) = .ok encoded ∧
    hexTextHandler (codecRequest "decode" encoded []) = .ok text

theorem codecsReturn_iff (text : List Char) :
    CodecsReturn (utf16 text) ↔ text.head? ≠ some '\uFEFF' := by
  rw [← withoutMark_eq_self_iff]
  constructor
  · rintro ⟨⟨encoded, hencode, hdecode⟩, -⟩
    rw [base64Handler_encode, encodeBase64_eq, textEncode_utf16, orFail_eq_ok] at hencode
    rw [base64Handler_decode, decodeBase64_btoa hencode] at hdecode
    exact utf16_injective (Except.ok.inj hdecode)
  · intro hmark
    refine ⟨?_, ?_⟩
    · obtain ⟨encoded, hencode⟩ : ∃ encoded, Base64.btoa (utf8 text) = some encoded :=
        ⟨_, Base64.btoa_eq_some utf8_lt⟩
      refine ⟨encoded, ?_, ?_⟩
      · rw [base64Handler_encode, encodeBase64_eq, textEncode_utf16, orFail_eq_ok]
        exact hencode
      · rw [base64Handler_decode, decodeBase64_btoa hencode, hmark]
    · intro separator hseparator
      refine ⟨_, hexTextHandler_encode _ separator, ?_⟩
      rw [hexTextHandler_decode, textEncode_utf16, hexDecode_hexEncode hseparator, hmark]

/-- Texts come back from both codecs when they do not begin with a byte order mark, and what Base64
decodes is encoded again as it was, trimmed, unless its bytes begin with one. -/
theorem codecs_return_iff (text : List Char) (input : JsText) :
    (CodecsReturn (utf16 text) ↔ text.head? ≠ some '\uFEFF') ∧
    ∀ decoded, base64Handler (codecRequest "decode" input []) = .ok decoded →
      (base64Handler (codecRequest "encode" decoded []) = .ok (trim input) ↔
        ¬ ofString "77u/" <+: trim input) :=
  ⟨codecsReturn_iff text, fun _ hdecode => encodeBase64_of_decodeBase64 hdecode⟩

/-- A text that begins with a byte order mark comes back without it. -/
theorem codecs_lose_mark : ¬ ∀ text : List Char, CodecsReturn (utf16 text) :=
  fun h => (codecsReturn_iff ['\uFEFF', 'A']).mp (h _) rfl

end Useful.Utilities
