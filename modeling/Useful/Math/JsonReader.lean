/-
# Reading JSON texts

A text is read from its front: a value, and what follows it. An array or an object is read
item by item, on fuel that the length of the text provides. Reading what was written gives
back the value, if its strings and numbers are read back and no object repeats a key.
-/

import Useful.Math.Text
import Mathlib.Data.Rat.Defs
import Mathlib.Algebra.Order.Field.Rat

namespace Useful.Math.Json

/-! ## Strings -/

/-- The value of a hexadecimal digit. -/
def hexDigit? (c : Char) : Option Nat :=
  if '0' ≤ c ∧ c ≤ '9' then some (c.toNat - 48)
  else if 'a' ≤ c ∧ c ≤ 'f' then some (c.toNat - 87)
  else if 'A' ≤ c ∧ c ≤ 'F' then some (c.toNat - 55)
  else none

/-- The value of some hexadecimal digits. -/
def hexNumber? (digits : List Char) : Option Nat :=
  digits.foldlM (fun n c => (hexDigit? c).map fun d => n * 16 + d) 0

/-- What stands for a character after a backslash. -/
def unescaped? (c : Char) : Option Char :=
  if c = '"' ∨ c = '\\' ∨ c = '/' then some c
  else if c = 'b' then some (Char.ofNat 8)
  else if c = 'f' then some (Char.ofNat 12)
  else if c = 'n' then some '\n'
  else if c = 'r' then some '\r'
  else if c = 't' then some '\t'
  else none

/-- The character of a code unit. -/
def unitChar? (n : Nat) : Option Char := if h : n.isValidChar then some (Char.ofNatAux n h) else none

/-- The character of a pair of surrogates. -/
def pairChar? (high low : Nat) : Option Char :=
  if 0xD800 ≤ high ∧ high < 0xDC00 ∧ 0xDC00 ≤ low ∧ low < 0xE000 then
    unitChar? (0x10000 + (high - 0xD800) * 0x400 + (low - 0xDC00))
  else none

/-- The characters of a string up to its closing mark, and what follows it. A surrogate alone
is no character. -/
def readString : List Char → Option (List Char × List Char)
  | [] => none
  | '"' :: rest => some ([], rest)
  | '\\' :: 'u' :: a :: b :: c :: d :: rest =>
      match (hexNumber? [a, b, c, d]).bind unitChar?, rest with
      | some char, rest => (readString rest).map fun read => (char :: read.1, read.2)
      | none, '\\' :: 'u' :: e :: f :: g :: h :: rest => do
          let high ← hexNumber? [a, b, c, d]
          let low ← hexNumber? [e, f, g, h]
          let char ← pairChar? high low
          (readString rest).map fun read => (char :: read.1, read.2)
      | none, _ => none
  | '\\' :: c :: rest => do
      let char ← unescaped? c
      (readString rest).map fun read => (char :: read.1, read.2)
  | c :: rest =>
      if c.toNat < 32 ∨ c = '\\' then none
      else (readString rest).map fun read => (c :: read.1, read.2)

variable {rest : List Char}

theorem readString_plain {c : Char} (hcontrol : 32 ≤ c.toNat) (hquote : c ≠ '"') (hslash : c ≠ '\\') :
    readString (c :: rest) = (readString rest).map fun read => (c :: read.1, read.2) := by
  rw [readString]
  · rw [if_neg]
    rintro (h | h)
    · omega
    · exact hslash h
  · exact fun h => hquote h
  · rintro a b c d rest h rfl
    exact hslash h
  · rintro c rest h rfl
    exact hslash h

theorem readString_escape {c char : Char} (hc : unescaped? c = some char) :
    readString ('\\' :: c :: rest) = (readString rest).map fun read => (char :: read.1, read.2) := by
  rw [readString, hc]
  · rfl
  · rintro a b d e rest' rfl rfl
    rw [show unescaped? 'u' = none by decide] at hc
    cases hc

theorem readString_unit {a b c d char : Char} (h : (hexNumber? [a, b, c, d]).bind unitChar? = some char) :
    readString ('\\' :: 'u' :: a :: b :: c :: d :: rest) =
      (readString rest).map fun read => (char :: read.1, read.2) := by
  exact readString.eq_3 a b c d rest char h

/-! ## Values -/

variable {ν : Type}

/-- White space between the parts of a text. -/
def skip (text : List Char) : List Char := text.dropWhile fun c => c ∈ [' ', '\n', '\r', '\t']

/-- A later member takes the place of an earlier one with its key. -/
def putMember (members : List (String × Json ν)) (m : String × Json ν) : List (String × Json ν) :=
  if m.1 ∈ members.map Prod.fst then members.map fun m' => if m'.1 = m.1 then m else m'
  else members ++ [m]

section Reader

variable (readNumber : List Char → Option (ν × List Char))

mutual

/-- A value and what follows it. -/
@[grind =]
def readValue : Nat → List Char → Option (Json ν × List Char)
  | 0, _ => none
  | fuel + 1, text =>
      match skip text with
      | '"' :: rest => (readString rest).map fun read => (.str (String.ofList read.1), read.2)
      | '[' :: rest =>
          match skip rest with
          | ']' :: rest => some (.arr [], rest)
          | _ => (readItems fuel rest).map fun read => (.arr read.1, read.2)
      | '\x7b' :: rest =>
          match skip rest with
          | '\x7d' :: rest => some (.obj [], rest)
          | _ => (readMembers fuel rest).map fun read => (.obj (read.1.foldl putMember []), read.2)
      | 'n' :: 'u' :: 'l' :: 'l' :: rest => some (.null, rest)
      | 't' :: 'r' :: 'u' :: 'e' :: rest => some (.bool true, rest)
      | 'f' :: 'a' :: 'l' :: 's' :: 'e' :: rest => some (.bool false, rest)
      | text => (readNumber text).map fun read => (.num read.1, read.2)

/-- The items of an array up to its closing bracket. -/
@[grind =]
def readItems : Nat → List Char → Option (List (Json ν) × List Char)
  | 0, _ => none
  | fuel + 1, text => do
      let (v, rest) ← readValue fuel text
      match skip rest with
      | ',' :: rest => (readItems fuel rest).map fun read => (v :: read.1, read.2)
      | ']' :: rest => some ([v], rest)
      | _ => none

/-- The members of an object up to its closing bracket. -/
@[grind =]
def readMembers : Nat → List Char → Option (List (String × Json ν) × List Char)
  | 0, _ => none
  | fuel + 1, text =>
      match skip text with
      | '"' :: rest => do
          let (key, rest) ← readString rest
          match skip rest with
          | ':' :: rest => do
              let (v, rest) ← readValue fuel rest
              match skip rest with
              | ',' :: rest =>
                  (readMembers fuel rest).map fun read => ((String.ofList key, v) :: read.1, read.2)
              | '\x7d' :: rest => some ([(String.ofList key, v)], rest)
              | _ => none
          | _ => none
      | _ => none

end

/-- The value that a text is written for. -/
def parse (text : List Char) : Option (Json ν) := do
  let (v, rest) ← readValue readNumber (text.length + 1) text
  if skip rest = [] then some v else none

end Reader

/-! ## Reading what was written -/

theorem skip_cons {c : Char} (hc : c ∉ [' ', '\n', '\r', '\t']) (rest : List Char) :
    skip (c :: rest) = c :: rest := by
  rw [skip, List.dropWhile_cons_of_neg]
  simpa using hc

/-- Members with different keys are put one after another. -/
theorem foldl_putMember {members before : List (String × Json ν)}
    (h : ((before ++ members).map Prod.fst).Nodup) :
    members.foldl putMember before = before ++ members := by
  induction members generalizing before with
  | nil => rw [List.foldl_nil, List.append_nil]
  | cons m members ih =>
      have hnew : m.1 ∉ before.map Prod.fst := by
        rw [List.map_append, List.map_cons, List.nodup_append] at h
        exact fun hmem => h.2.2 _ hmem _ List.mem_cons_self rfl
      rw [List.foldl_cons, putMember, if_neg hnew, ih, List.append_assoc]
      · rfl
      · rwa [List.append_assoc]

/-- What may follow a value that stands in an array or an object, or alone. -/
def Stops (rest : List Char) : Prop := ∀ c, rest.head? = some c → c ∈ [',', ']', '\x7d']

section Written

variable (quote : String → List Char) (number : ν → List Char)
  (readNumber : List Char → Option (ν × List Char))

/-- Strings are read back. -/
def ReadsStrings : Prop :=
  ∀ s rest, ∃ body, quote s = '"' :: body ∧ readString (body ++ rest) = some (s.toList, rest)

/-- A number is read back. -/
def ReadsNumber (n : ν) : Prop :=
  (∃ c text, number n = c :: text ∧ (c = '-' ∨ c.isDigit = true)) ∧
    ∀ rest, Stops rest → readNumber (number n ++ rest) = some (n, rest)

variable {quote number readNumber}

theorem readValue_string (fuel : Nat) (rest : List Char) :
    readValue readNumber (fuel + 1) ('"' :: rest) =
      (readString rest).map fun read => (.str (String.ofList read.1), read.2) := by
  rw [readValue]
  rfl

theorem readValue_array (fuel : Nat) {c : Char} (hspace : c ∉ [' ', '\n', '\r', '\t'])
    (hc : c ≠ ']') (rest : List Char) :
    readValue readNumber (fuel + 1) ('[' :: c :: rest) =
      (readItems readNumber fuel (c :: rest)).map fun read => (.arr read.1, read.2) := by
  rw [readValue, skip_cons (by decide)]
  simp only
  rw [skip_cons hspace]
  split
  · rename_i heq
    exact absurd (List.cons.inj heq).1 hc
  · rfl

theorem readValue_object (fuel : Nat) (rest : List Char) :
    readValue readNumber (fuel + 1) ('\x7b' :: '"' :: rest) =
      (readMembers readNumber fuel ('"' :: rest)).map
        fun read => (.obj (read.1.foldl putMember []), read.2) := by
  rw [readValue]
  rfl

/-- The first character of a number is none of the others that a value begins with. -/
theorem ne_of_number {c d : Char} (hc : c = '-' ∨ c.isDigit = true)
    (hd : ¬ (d = '-' ∨ d.isDigit = true)) : c ≠ d := by
  rintro rfl
  exact hd hc

theorem readValue_number (fuel : Nat) {c : Char} (hc : c = '-' ∨ c.isDigit = true)
    (rest : List Char) :
    readValue readNumber (fuel + 1) (c :: rest) =
      (readNumber (c :: rest)).map fun read => (.num read.1, read.2) := by
  have hspace : c ∉ [' ', '\n', '\r', '\t'] := by
    simp only [List.mem_cons, List.not_mem_nil, or_false, not_or]
    exact ⟨ne_of_number hc (by decide), ne_of_number hc (by decide), ne_of_number hc (by decide),
      ne_of_number hc (by decide)⟩
  rw [readValue, skip_cons hspace]
  split
  -- No other way to begin a value fits.
  case h_7 => rfl
  all_goals
    rename_i heq
    exact absurd (List.cons.inj heq).1 (ne_of_number hc (by decide))

/-- A written value begins with a mark of its own. -/
theorem exists_render_eq_cons (hquote : ReadsStrings quote) {p : ν → Bool}
    (hnumber : ∀ n, p n = true → ReadsNumber number readNumber n) {v : Json ν}
    (hv : v.anyNum (fun n => !p n) = false) :
    ∃ c text, render quote number v = c :: text ∧ c ∉ [' ', '\n', '\r', '\t'] ∧ c ≠ ']' := by
  cases v with
  | null => exact ⟨_, _, rfl, by decide, by decide⟩
  | bool b => cases b <;> exact ⟨_, _, rfl, by decide, by decide⟩
  | num n =>
      rw [anyNum_num, Bool.not_eq_false'] at hv
      obtain ⟨⟨c, text, htext, hc⟩, -⟩ := hnumber n hv
      refine ⟨c, text, htext, ?_, ne_of_number hc (by decide)⟩
      simp only [List.mem_cons, List.not_mem_nil, or_false, not_or]
      exact ⟨ne_of_number hc (by decide), ne_of_number hc (by decide), ne_of_number hc (by decide),
        ne_of_number hc (by decide)⟩
  | str s =>
      obtain ⟨body, hbody, -⟩ := hquote s []
      exact ⟨'"', body, by rw [render, hbody], by decide, by decide⟩
  | arr items => exact ⟨_, _, rfl, by decide, by decide⟩
  | obj members => exact ⟨_, _, rfl, by decide, by decide⟩

/-- What stands between two items, or after the last one. -/
theorem stops_joinTail (texts : List (List Char)) {last : Char} (hlast : last ∈ [']', '\x7d'])
    (rest : List Char) : Stops (joinTail ',' texts ++ last :: rest) := by
  cases texts with
  | nil =>
      rintro c ⟨⟩
      exact List.mem_cons_of_mem _ hlast
  | cons text texts =>
      rintro c ⟨⟩
      exact List.mem_cons_self

/-- Items that are read back each are read back together. -/
theorem readItems_render {x : Json ν} {items : List (Json ν)}
    (ih : ∀ v ∈ x :: items, ∀ fuel rest, (render quote number v).length < fuel → Stops rest →
      readValue readNumber fuel (render quote number v ++ rest) = some (v, rest))
    {fuel : Nat} (rest : List Char)
    (hfuel : (render quote number x ++ joinTail ',' (items.map (render quote number))).length + 1 < fuel) :
    readItems readNumber fuel (render quote number x ++
      (joinTail ',' (items.map (render quote number)) ++ ']' :: rest)) = some (x :: items, rest) := by
  induction items generalizing x fuel with
  | nil =>
      cases fuel with
      | zero => omega
      | succ fuel =>
          rw [List.map_nil, joinTail, List.append_nil] at hfuel
          rw [readItems, ih x List.mem_cons_self fuel _ (by omega) (stops_joinTail _ (by decide) rest)]
          rfl
  | cons y items ih' =>
      cases fuel with
      | zero => omega
      | succ fuel =>
          rw [List.length_append, List.map_cons, joinTail, List.length_append, List.length_cons] at hfuel
          rw [readItems, ih x List.mem_cons_self fuel _ (by omega) (stops_joinTail _ (by decide) rest),
            List.map_cons, joinTail, List.append_assoc, List.cons_append]
          have hlength : (render quote number y ++
              joinTail ',' (items.map (render quote number))).length + 1 < fuel := by
            rw [List.length_append]
            omega
          have hrest := ih' (fun v hv => ih v (List.mem_cons_of_mem _ hv)) hlength
          show ((readItems readNumber fuel _).map _) = _
          rw [hrest]
          rfl

/-- One member is read back. -/
theorem readMembers_succ (hquote : ReadsStrings quote) {m : String × Json ν} {fuel : Nat}
    {rest : List Char}
    (hvalue : readValue readNumber fuel (render quote number m.2 ++ rest) = some (m.2, rest)) :
    readMembers readNumber (fuel + 1) (renderMember quote number m ++ rest) =
      match skip rest with
      | ',' :: rest => (readMembers readNumber fuel rest).map fun read => (m :: read.1, read.2)
      | '\x7d' :: rest => some ([m], rest)
      | _ => none := by
  obtain ⟨body, hbody, hread⟩ := hquote m.1 (':' :: (render quote number m.2 ++ rest))
  have htext : renderMember quote number m ++ rest =
      '"' :: (body ++ ':' :: (render quote number m.2 ++ rest)) := by
    rw [renderMember, hbody]
    simp
  rw [htext, readMembers, skip_cons (by decide)]
  simp only
  rw [hread]
  simp only [Option.bind_eq_bind, Option.bind_some]
  rw [skip_cons (by decide)]
  simp only
  rw [hvalue]
  simp only [Option.bind_some, String.ofList_toList]

theorem readMembers_render (hquote : ReadsStrings quote) {m : String × Json ν}
    {members : List (String × Json ν)}
    (ih : ∀ m' ∈ m :: members, ∀ fuel rest, (render quote number m'.2).length < fuel → Stops rest →
      readValue readNumber fuel (render quote number m'.2 ++ rest) = some (m'.2, rest))
    {fuel : Nat} (rest : List Char)
    (hfuel : (renderMember quote number m ++
      joinTail ',' (members.map (renderMember quote number))).length + 1 < fuel) :
    readMembers readNumber fuel (renderMember quote number m ++
      (joinTail ',' (members.map (renderMember quote number)) ++ '\x7d' :: rest)) =
        some (m :: members, rest) := by
  have hlength (m : String × Json ν) :
      (render quote number m.2).length < (renderMember quote number m).length := by
    rw [renderMember, List.length_append, List.length_cons]
    omega
  induction members generalizing m fuel with
  | nil =>
      cases fuel with
      | zero => omega
      | succ fuel =>
          have := hlength m
          rw [List.map_nil, joinTail, List.append_nil] at hfuel
          rw [readMembers_succ hquote (ih m List.mem_cons_self fuel _ (by omega)
            (stops_joinTail _ (by decide) rest))]
          rfl
  | cons next members ih' =>
      cases fuel with
      | zero => omega
      | succ fuel =>
          have := hlength m
          rw [List.length_append, List.map_cons, joinTail, List.length_append, List.length_cons] at hfuel
          rw [readMembers_succ hquote (ih m List.mem_cons_self fuel _ (by omega)
            (stops_joinTail _ (by decide) rest)), List.map_cons, joinTail, List.append_assoc,
            List.cons_append, skip_cons (by decide)]
          have hnext : (renderMember quote number next ++
              joinTail ',' (members.map (renderMember quote number))).length + 1 < fuel := by
            rw [List.length_append]
            omega
          have hrest := ih' (fun m' hm' => ih m' (List.mem_cons_of_mem _ hm')) hnext
          simp only
          rw [hrest]
          rfl

/-- A value is read back from the front of a text. -/
theorem readValue_render (hquote : ReadsStrings quote) {p : ν → Bool}
    (hnumber : ∀ n, p n = true → ReadsNumber number readNumber n) {v : Json ν}
    (hkeys : v.DistinctKeys) (hnumbers : v.anyNum (fun n => !p n) = false) {fuel : Nat}
    {rest : List Char} (hfuel : (render quote number v).length < fuel) (hrest : Stops rest) :
    readValue readNumber fuel (render quote number v ++ rest) = some (v, rest) := by
  induction v using Json.induct generalizing fuel rest with
  | null =>
      cases fuel with
      | zero => omega
      | succ fuel => rfl
  | bool b =>
      cases fuel with
      | zero => omega
      | succ fuel => cases b <;> rfl
  | num n =>
      rw [anyNum_num, Bool.not_eq_false'] at hnumbers
      obtain ⟨⟨c, text, htext, hc⟩, hread⟩ := hnumber n hnumbers
      cases fuel with
      | zero => omega
      | succ fuel =>
          rw [render, htext, List.cons_append, readValue_number fuel hc, ← List.cons_append, ← htext,
            hread rest hrest]
          rfl
  | str s =>
      obtain ⟨body, hbody, hread⟩ := hquote s rest
      cases fuel with
      | zero => omega
      | succ fuel =>
          rw [render, hbody, List.cons_append, readValue_string, hread, Option.map_some,
            String.ofList_toList]
  | arr items ih =>
      rw [render_arr] at hfuel ⊢
      rw [DistinctKeys, forallObjects_arr] at hkeys
      rw [anyNum_arr, List.any_eq_false] at hnumbers
      cases fuel with
      | zero => omega
      | succ fuel =>
          cases items with
          | nil => rfl
          | cons x items =>
              have hx : x.anyNum (fun n => !p n) = false := by
                simpa using hnumbers x List.mem_cons_self
              obtain ⟨c, text, htext, hspace, hc⟩ := exists_render_eq_cons hquote hnumber hx
              have hitems := readItems_render (fun v hv fuel rest hfuel hrest =>
                ih v hv (hkeys v hv) (by simpa using hnumbers v hv) hfuel hrest) rest
                (show (render quote number x ++
                  joinTail ',' (items.map (render quote number))).length + 1 < fuel by
                  rw [List.map_cons, joinWith_cons, List.length_cons, List.length_append,
                    List.length_singleton] at hfuel
                  omega)
              have hall : '[' :: (joinWith ',' ((x :: items).map (render quote number)) ++ [']']) ++ rest =
                  '[' :: (render quote number x ++
                    (joinTail ',' (items.map (render quote number)) ++ ']' :: rest)) := by
                rw [List.map_cons, joinWith_cons]
                simp
              rw [hall]
              rw [htext, List.cons_append] at hitems ⊢
              rw [readValue_array fuel hspace hc, hitems]
              rfl
  | obj members ih =>
      rw [render_obj] at hfuel ⊢
      rw [DistinctKeys, forallObjects_obj] at hkeys
      rw [anyNum_obj, List.any_eq_false] at hnumbers
      cases fuel with
      | zero => omega
      | succ fuel =>
          cases members with
          | nil => rfl
          | cons m members =>
              obtain ⟨body, hbody, -⟩ := hquote m.1 []
              have hmembers := readMembers_render hquote (fun m' hm' fuel rest hfuel hrest =>
                ih m' hm' (hkeys.2 m' hm') (by simpa using hnumbers m' hm') hfuel hrest) rest
                (show (renderMember quote number m ++
                  joinTail ',' (members.map (renderMember quote number))).length + 1 < fuel by
                  rw [List.map_cons, joinWith_cons, List.length_cons, List.length_append,
                    List.length_singleton] at hfuel
                  omega)
              have hall : '\x7b' :: (joinWith ',' ((m :: members).map (renderMember quote number)) ++
                  ['\x7d']) ++ rest =
                  '\x7b' :: (renderMember quote number m ++
                    (joinTail ',' (members.map (renderMember quote number)) ++ '\x7d' :: rest)) := by
                rw [List.map_cons, joinWith_cons]
                simp
              rw [hall]
              rw [renderMember, hbody] at hmembers ⊢
              rw [List.cons_append, List.cons_append] at hmembers ⊢
              rw [readValue_object, hmembers, Option.map_some, foldl_putMember (by simpa using hkeys.1),
                List.nil_append]

/-- Reading gives back what was written. -/
theorem parse_render (hquote : ReadsStrings quote) {p : ν → Bool}
    (hnumber : ∀ n, p n = true → ReadsNumber number readNumber n) {v : Json ν}
    (hkeys : v.DistinctKeys) (hnumbers : v.anyNum (fun n => !p n) = false) :
    parse readNumber (render quote number v) = some v := by
  have hread := readValue_render hquote hnumber hkeys hnumbers
    (Nat.lt_succ_self (render quote number v).length) (show Stops [] from fun _ h => nomatch h)
  rw [List.append_nil] at hread
  rw [parse, hread]
  rfl

end Written

/-! ## Numbers -/

def readDigits (text : List Char) : List Char × List Char :=
  (text.takeWhile Char.isDigit, text.dropWhile Char.isDigit)

/-- The digits after a decimal point, if there is one. -/
def readFraction (text : List Char) : Option (List Char × List Char) :=
  match text with
  | '.' :: rest => if (readDigits rest).1 = [] then none else some (readDigits rest)
  | rest => some ([], rest)

def readSign : List Char → ℤ × List Char
  | '-' :: rest => (-1, rest)
  | '+' :: rest => (1, rest)
  | rest => (1, rest)

/-- The exponent, if there is one. -/
def readExponent (text : List Char) : Option (ℤ × List Char) :=
  match text with
  | c :: rest =>
      if c = 'e' ∨ c = 'E' then
        let (sign, rest) := readSign rest
        let (digits, rest) := readDigits rest
        if digits = [] then none else some (sign * Nat.ofDigitChars 10 digits 0, rest)
      else some (0, c :: rest)
  | [] => some (0, [])

def readMinus : List Char → ℚ × List Char
  | '-' :: rest => (-1, rest)
  | rest => (1, rest)

/-- A number and what follows it. A numeral has no leading zeros. -/
def readNumeral (text : List Char) : Option (ℚ × List Char) :=
  let (sign, text) := readMinus text
  let (whole, rest) := readDigits text
  if whole = [] ∨ (whole.head? = some '0' ∧ whole ≠ ['0']) then none
  else do
    let (fraction, rest) ← readFraction rest
    let (exponent, rest) ← readExponent rest
    some (sign * Nat.ofDigitChars 10 (whole ++ fraction) 0 * 10 ^ (exponent - fraction.length), rest)

/-- What follows a value is no part of a number. -/
theorem Stops.isDigit_eq_false {rest : List Char} (h : Stops rest) :
    readDigits rest = ([], rest) ∧ readFraction rest = some ([], rest) ∧
      readExponent rest = some (0, rest) := by
  cases rest with
  | nil => exact ⟨rfl, rfl, rfl⟩
  | cons c rest =>
      have hc := h c rfl
      simp only [List.mem_cons, List.not_mem_nil, or_false] at hc
      rcases hc with rfl | rfl | rfl <;> exact ⟨rfl, rfl, rfl⟩

theorem readDigits_append {digits rest : List Char} (hdigits : ∀ c ∈ digits, c.isDigit = true)
    (hrest : readDigits rest = ([], rest)) : readDigits (digits ++ rest) = (digits, rest) := by
  obtain ⟨htake, hdrop⟩ := Prod.mk.inj hrest
  rw [readDigits, List.takeWhile_append_of_pos hdigits, List.dropWhile_append_of_pos hdigits, htake,
    hdrop, List.append_nil]

/-- The numeral of a natural number is read back. -/
theorem readNumeral_decimalNat (n : Nat) {rest : List Char} (hrest : Stops rest) :
    readNumeral (decimalNat n ++ rest) = some ((n : ℚ), rest) := by
  obtain ⟨hdigits, hfraction, hexponent⟩ := hrest.isDigit_eq_false
  have hread := readDigits_append (fun c (hc : c ∈ decimalNat n) => isDigit_of_mem_decimalNat hc) hdigits
  have hzero : ¬ (decimalNat n = [] ∨ ((decimalNat n).head? = some '0' ∧ decimalNat n ≠ ['0'])) := by
    rw [not_or, not_and, not_not]
    refine ⟨Nat.toDigits_ne_nil, fun hhead => ?_⟩
    by_cases hn : n = 0
    · rw [hn]
      rfl
    · exact absurd hhead (head?_decimalNat hn)
  have hvalue : Nat.ofDigitChars 10 (decimalNat n ++ []) 0 = n := by
    rw [List.append_nil]
    exact Nat.ofDigitChars_ten_toDigits
  have hminus : readMinus (decimalNat n ++ rest) = (1, decimalNat n ++ rest) := by
    cases hnumeral : decimalNat n with
    | nil => exact absurd hnumeral Nat.toDigits_ne_nil
    | cons c digits =>
        have hc := isDigit_of_mem_decimalNat (hnumeral ▸ List.mem_cons_self : c ∈ decimalNat n)
        rw [List.cons_append, readMinus]
        intro _ heq
        rw [(List.cons.inj heq).1] at hc
        cases hc
  unfold readNumeral
  simp only [hminus, hread]
  rw [if_neg hzero]
  simp only [hfraction, hexponent, Option.bind_eq_bind, Option.bind_some, hvalue]
  simp

end Useful.Math.Json
