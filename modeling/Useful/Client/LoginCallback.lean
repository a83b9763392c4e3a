/-
# The callback of a login

`wait_for_callback_with_timeout` reads one request line from each connection to the loopback
listener until one carries the state of the session. What a connection delivers is a list of
reads; the listener takes the connections that come before the deadline, and accepting does
not fail. Percent-decoding slices text by bytes, which panics inside a character.
-/

import Useful.Math.Checks
import Useful.Math.Text
import Useful.Math.Utf8
import Mathlib.Data.List.SplitOn

namespace Useful.Client.Callback

open Useful.Math

/-- A slice of text that does not end between characters. -/
inductive Panic
  | notCharBoundary
  deriving DecidableEq

structure PkcePair where
  verifier : String
  challenge : String
  method : String
  deriving DecidableEq

structure AuthSession where
  sourceId : String
  issuer : String
  clientId : String
  redirectUri : String
  scopes : List String
  state : String
  nonce : String
  pkce : PkcePair
  deriving DecidableEq

structure CallbackParams where
  code : Option String
  state : String
  error : Option String
  deriving DecidableEq

/-! ## Percent-encoding -/

def isUnreserved (b : Nat) : Bool :=
  (0x41 ≤ b && b ≤ 0x5A) || (0x61 ≤ b && b ≤ 0x7A) || (0x30 ≤ b && b ≤ 0x39) || b == 0x2D ||
    b == 0x5F || b == 0x2E || b == 0x7E

/-- A digit of `{:02X}`. -/
def upperHex (n : Nat) : Char := Char.ofNat (if n < 10 then 0x30 + n else 0x37 + n)

def encodeByte (b : Nat) : List Char :=
  if isUnreserved b then [Char.ofNat b] else ['%', upperHex (b / 16), upperHex (b % 16)]

def urlencode (s : String) : String := String.ofList ((utf8 s.toList).flatMap encodeByte)

def hexValue (b : Nat) : Option Nat :=
  if 0x30 ≤ b ∧ b ≤ 0x39 then some (b - 0x30)
  else if 0x41 ≤ b ∧ b ≤ 0x46 then some (b - 0x37)
  else if 0x61 ≤ b ∧ b ≤ 0x66 then some (b - 0x57)
  else none

/-- `u8::from_str_radix` on two bytes. It takes a plus sign. -/
def fromStrRadix16 (a b : Nat) : Option Nat :=
  if a = 0x2B then hexValue b
  else do
    let high ← hexValue a
    let low ← hexValue b
    return high * 16 + low

/-- The bytes begin inside a character. -/
def SplitsChar (bytes : List Nat) : Prop := ∃ b ∈ bytes.head?, IsContinuation b

instance (bytes : List Nat) : Decidable (SplitsChar bytes) :=
  match bytes with
  | [] => isFalse fun ⟨_, h, _⟩ => nomatch h
  | b :: _ => decidable_of_iff (IsContinuation b) (by simp [SplitsChar])

/-- The loop of `urldecode`. -/
def urldecodeBytes : List Nat → Except Panic (List Nat)
  | [] => .ok []
  | 0x25 :: a :: b :: rest =>
      if SplitsChar rest then .error .notCharBoundary
      else match fromStrRadix16 a b with
        | some v => (urldecodeBytes rest).map (v :: ·)
        | none => (urldecodeBytes (a :: b :: rest)).map (0x25 :: ·)
  | c :: rest => (urldecodeBytes rest).map ((if c = 0x2B then 0x20 else c) :: ·)

def urldecode (s : String) : Except Panic String :=
  (urldecodeBytes (utf8 s.toList)).map fun bytes => String.ofList (fromUtf8Lossy bytes)

/-! ## The query -/

/-- What stands before the first `=`, and what stands after it. -/
def pairName (pair : List Char) : String := String.ofList (pair.takeWhile (· ≠ '='))

def pairValue (pair : List Char) : String := String.ofList ((pair.dropWhile (· ≠ '=')).drop 1)

def setParam (cb : CallbackParams) (k v : String) : CallbackParams :=
  if k = "code" then { cb with code := some v }
  else if k = "state" then { cb with state := v }
  else if k = "error" then { cb with error := some v }
  else cb

def readPair (cb : CallbackParams) (pair : List Char) : Except Panic CallbackParams := do
  let v ← urldecode (pairValue pair)
  return setParam cb (pairName pair) v

/-- `CallbackParams::from_query` -/
def fromQuery (query : List Char) : Except Panic CallbackParams :=
  (query.splitOn '&').foldlM readPair ⟨none, "", none⟩

def verifyCallback (session : AuthSession) (cb : CallbackParams) : Except String String :=
  match cb.error with
  | some err => .error ("回调返回错误: " ++ err)
  | none =>
      if cb.state ≠ session.state then .error "state 不匹配（可能的 CSRF），已拒绝"
      else match cb.code with
        | some c => if c ≠ "" then .ok c else .error "回调缺少授权码"
        | none => .error "回调缺少授权码"

/-! ## The request line -/

def MAX_CALLBACK_REQUEST_LINE : Nat := 8 * 1024

/-- The reads of a connection, each into a chunk of 512 bytes. An empty read, or the end of
the list, is a connection that is closed or fails. -/
structure Connection where
  reads : List (List UInt8)
  short : ∀ read ∈ reads, read.length ≤ 512

/-- The bytes before the first line end. -/
def beforeCrlf : List Nat → Option (List Nat)
  | [] => none
  | 0x0D :: 0x0A :: _ => some []
  | b :: rest => (beforeCrlf rest).map (b :: ·)

/-- The loop of `read_request_line`. -/
def readLoop (line : List Nat) : List (List UInt8) → Except String (List Char)
  | [] => .error "request line incomplete"
  | chunk :: reads =>
      if chunk = [] then .error "request line incomplete"
      else if MAX_CALLBACK_REQUEST_LINE < (line ++ chunk.map UInt8.toNat).length then
        .error "request line too long"
      else match beforeCrlf (line ++ chunk.map UInt8.toNat) with
        | some bytes =>
            match fromUtf8 bytes with
            | some text => .ok text
            | none => .error "non-UTF8"
        | none => readLoop (line ++ chunk.map UInt8.toNat) reads

def readRequestLine (connection : Connection) : Except String (List Char) :=
  readLoop [] connection.reads

def splitWhitespace (text : List Char) : List (List Char) :=
  (text.splitOnP isWhitespace).filter fun part => part ≠ []

/-- The query of a request for the callback. -/
def callbackQuery (first : List Char) : Option (List Char) :=
  let parts := splitWhitespace first
  let method := parts[0]?.getD []
  let path := parts[1]?.getD []
  let protocol := parts[2]?.getD []
  if method ≠ "GET".toList ∨ ¬ "/callback?".toList <+: path ∨ ¬ "HTTP/1.".toList <+: protocol ∨
      parts[3]?.isSome then none
  else some ((path.dropWhile (· ≠ '?')).drop 1)

/-! ## The listener -/

/-- The text of `write_callback_response`. -/
def callbackResponse (status body : String) : String :=
  "HTTP/1.1 " ++ status ++
    "\r\nContent-Type: text/html; charset=utf-8\r\nContent-Length: " ++
    String.ofList (decimalNat body.utf8ByteSize) ++ "\r\nConnection: close\r\n\r\n" ++ body

inductive Outcome
  | returned (result : Except String (AuthSession × String))
  | panicked

/-- The responses and the outcome of `wait_for_callback_with_timeout`. -/
def waitForCallback (session : AuthSession) : List Connection → List String × Outcome
  | [] => ([], .returned (.error "登录超时"))
  | connection :: rest =>
      let refuse (body : String) :=
        let later := waitForCallback session rest
        (callbackResponse "400 Bad Request" body :: later.1, later.2)
      match readRequestLine connection with
      | .error _ => refuse "无效请求，请返回浏览器重试。"
      | .ok first =>
          match callbackQuery first with
          | none => refuse "无效请求，请返回浏览器重试。"
          | some query =>
              match fromQuery query with
              | .error _ => ([], .panicked)
              | .ok cb =>
                  if cb.state ≠ session.state then refuse "登录请求无效，请返回 Useful 重试。"
                  else
                    let result := verifyCallback session cb
                    let body := if result.isOk then "登录成功，请返回 Useful。"
                      else "登录失败或被拒绝，请返回 Useful 重试。"
                    ([callbackResponse "200 OK" body],
                      .returned (result.map fun code => (session, code)))

/-! ## Connections that qualify -/

/-- What a connection delivers before it ends. -/
def delivered (connection : Connection) : List Nat :=
  ((connection.reads.takeWhile (· ≠ [])).flatten).map UInt8.toNat

/-- A request line within the size limit, in UTF-8 and ended by CRLF. -/
def requestLine (connection : Connection) : Option (List Char) := do
  let line ← beforeCrlf (delivered connection)
  if line.length ≤ MAX_CALLBACK_REQUEST_LINE then fromUtf8 line else none

/-- A connection asks for the callback with the state of the session. -/
def Qualifies (session : AuthSession) (connection : Connection) (cb : CallbackParams) : Prop :=
  ∃ first query, requestLine connection = some first ∧ callbackQuery first = some query ∧
    fromQuery query = .ok cb ∧ cb.state = session.state

/-- What a qualifying request decides: its code, or an error. -/
def verdict (session : AuthSession) (cb : CallbackParams) : Except String (AuthSession × String) :=
  match cb.error, cb.code with
  | some err, _ => .error ("回调返回错误: " ++ err)
  | none, none => .error "回调缺少授权码"
  | none, some code => if code = "" then .error "回调缺少授权码" else .ok (session, code)

/-- The first connection that qualifies decides, and without one the listener times out. -/
def Undisturbed (session : AuthSession) (connections : List Connection) : Prop :=
  (∃ before connection after cb, connections = before ++ connection :: after ∧
    (∀ other ∈ before, ∀ cb', ¬ Qualifies session other cb') ∧ Qualifies session connection cb ∧
      (waitForCallback session connections).1.length = before.length + 1 ∧
      (waitForCallback session connections).2 = .returned (verdict session cb)) ∨
    (∀ connection ∈ connections, ∀ cb, ¬ Qualifies session connection cb) ∧
      (waitForCallback session connections).1.length = connections.length ∧
      (waitForCallback session connections).2 = .returned (.error "登录超时")

/-! ## Connections that do harm -/

/-- A percent sign with two bytes after it that end inside a character. -/
def BadEscape (bytes : List Nat) : Prop :=
  ∃ front a b rest, bytes = front ++ 0x25 :: a :: b :: rest ∧ SplitsChar rest

/-- What is received up to the read that completes the line. -/
def received (line : List Nat) : List (List UInt8) → Option (List Nat)
  | [] => none
  | chunk :: reads =>
      if chunk = [] then none
      else if (beforeCrlf (line ++ chunk.map UInt8.toNat)).isSome then
        some (line ++ chunk.map UInt8.toNat)
      else received (line ++ chunk.map UInt8.toNat) reads

/-- The read that completes the line goes past the limit. -/
def OverRead (connection : Connection) : Prop :=
  ∃ bytes, received [] connection.reads = some bytes ∧ MAX_CALLBACK_REQUEST_LINE < bytes.length

/-- A value of the query has a bad escape. -/
def CarriesBadEscape (connection : Connection) : Prop :=
  ∃ first query, requestLine connection = some first ∧ callbackQuery first = some query ∧
    ∃ pair ∈ query.splitOn '&', BadEscape (utf8 (pairValue pair).toList)

/-- Up to the first connection that qualifies, none that is read has a bad escape, and that one
is read. -/
def Harmless (session : AuthSession) (connections : List Connection) : Prop :=
  ∀ before connection after, connections = before ++ connection :: after →
    (∀ other ∈ before, ∀ cb, ¬ Qualifies session other cb) →
      (CarriesBadEscape connection → OverRead connection) ∧
        ∀ cb, Qualifies session connection cb → ¬ OverRead connection

/-! ## When decoding panics -/

theorem map_eq_error_iff {ε α β : Type} {f : α → β} {x : Except ε α} {e : ε} :
    x.map f = .error e ↔ x = .error e := by
  cases x <;> simp [Except.map]

theorem splitsChar_cons {b : Nat} {bytes : List Nat} : SplitsChar (b :: bytes) ↔ IsContinuation b := by
  simp [SplitsChar]

theorem BadEscape.cons {bytes : List Nat} (b : Nat) (h : BadEscape bytes) : BadEscape (b :: bytes) := by
  obtain ⟨front, x, y, rest, rfl, hsplits⟩ := h
  exact ⟨b :: front, x, y, rest, rfl, hsplits⟩

theorem badEscape_cons_iff {b : Nat} {bytes : List Nat} : BadEscape (b :: bytes) ↔
    (b = 0x25 ∧ ∃ x y rest, bytes = x :: y :: rest ∧ SplitsChar rest) ∨ BadEscape bytes := by
  constructor
  · rintro ⟨front, x, y, rest, heq, hsplits⟩
    cases front with
    | nil =>
        cases heq
        exact .inl ⟨rfl, x, y, rest, rfl, hsplits⟩
    | cons c front =>
        cases heq
        exact .inr ⟨front, x, y, rest, rfl, hsplits⟩
  · rintro (⟨rfl, x, y, rest, rfl, hsplits⟩ | h)
    · exact ⟨[], x, y, rest, rfl, hsplits⟩
    · exact h.cons b

/-- The two digits of an escape are no percent signs. -/
theorem ne_percent_of_fromStrRadix16 {a b v : Nat} (h : fromStrRadix16 a b = some v) :
    a ≠ 0x25 ∧ b ≠ 0x25 := by
  have hvalue : ∀ {d w : Nat}, hexValue d = some w → d ≠ 0x25 := by
    rintro d w hd rfl
    cases hd
  rw [fromStrRadix16] at h
  split_ifs at h with hplus
  · exact ⟨by omega, hvalue h⟩
  · obtain ⟨high, hhigh, hrest⟩ := Option.bind_eq_some_iff.mp h
    obtain ⟨low, hlow, -⟩ := Option.bind_eq_some_iff.mp hrest
    exact ⟨hvalue hhigh, hvalue hlow⟩

theorem urldecodeBytes_eq_error_iff (bytes : List Nat) :
    (∃ e, urldecodeBytes bytes = .error e) ↔ BadEscape bytes := by
  induction bytes using urldecodeBytes.induct with
  | case1 =>
      refine iff_of_false (fun ⟨_, h⟩ => nomatch h) ?_
      rintro ⟨front, x, y, rest, heq, -⟩
      exact absurd heq.symm (by simp)
  | case2 a b rest hsplits =>
      refine iff_of_true ⟨.notCharBoundary, ?_⟩ ⟨[], a, b, rest, rfl, hsplits⟩
      rw [urldecodeBytes, if_pos hsplits]
  | case3 a b rest hsplits v hv ih =>
      obtain ⟨ha, hb⟩ := ne_percent_of_fromStrRadix16 hv
      rw [urldecodeBytes, if_neg hsplits, hv]
      simp only [map_eq_error_iff]
      rw [ih, badEscape_cons_iff, badEscape_cons_iff, badEscape_cons_iff]
      constructor
      · exact fun h => .inr (.inr (.inr h))
      · rintro (⟨-, x, y, rest', heq, hsplits'⟩ | ⟨hpercent, -⟩ | ⟨hpercent, -⟩ | h)
        · cases heq
          exact absurd hsplits' hsplits
        · exact absurd hpercent ha
        · exact absurd hpercent hb
        · exact h
  | case4 a b rest hsplits hv ih =>
      rw [urldecodeBytes, if_neg hsplits, hv]
      simp only [map_eq_error_iff]
      rw [ih]
      constructor
      · exact fun h => h.cons _
      · intro h
        refine (badEscape_cons_iff.mp h).resolve_left ?_
        rintro ⟨-, x, y, rest', heq, hsplits'⟩
        cases heq
        exact hsplits hsplits'
  | case5 c rest hshort ih =>
      have hstep : urldecodeBytes (c :: rest) =
          (urldecodeBytes rest).map ((if c = 0x2B then 0x20 else c) :: ·) := by
        rw [urldecodeBytes]
        exact hshort
      rw [hstep]
      simp only [map_eq_error_iff]
      rw [ih, badEscape_cons_iff]
      constructor
      · exact .inr
      · rintro (⟨rfl, x, y, rest', rfl, -⟩ | h)
        · exact absurd rfl (hshort x y rest' rfl)
        · exact h

/-! ## Decoding inverts encoding -/

theorem utf8_append (xs ys : List Char) : utf8 (xs ++ ys) = utf8 xs ++ utf8 ys :=
  List.flatMap_append

theorem upperHex_digits : ∀ n < 16, utf8Char (upperHex n) = [(upperHex n).toNat] ∧
    hexValue (upperHex n).toNat = some n ∧ (upperHex n).toNat ≠ 0x2B := by
  decide

theorem utf8Char_ascii : ∀ b < 0x80, utf8Char (Char.ofNat b) = [b] := by
  decide

theorem isUnreserved_bounds {b : Nat} (h : isUnreserved b = true) :
    b < 0x80 ∧ b ≠ 0x25 ∧ b ≠ 0x2B := by
  simp only [isUnreserved, Bool.or_eq_true, Bool.and_eq_true, decide_eq_true_eq, beq_iff_eq] at h
  omega

/-- A byte is encoded as itself or as an escape that reads as it. -/
theorem utf8_encodeByte {b : Nat} (hb : b < 256) :
    (utf8 (encodeByte b) = [b] ∧ b < 0x80 ∧ b ≠ 0x25 ∧ b ≠ 0x2B) ∨
      ∃ x y, utf8 (encodeByte b) = [0x25, x, y] ∧ fromStrRadix16 x y = some b := by
  by_cases hunreserved : isUnreserved b = true
  · have hbounds := isUnreserved_bounds hunreserved
    refine .inl ⟨?_, hbounds⟩
    rw [encodeByte, if_pos hunreserved]
    exact (List.append_nil _).trans (utf8Char_ascii b hbounds.1)
  · obtain ⟨hhigh, hhighValue, hhighPlus⟩ := upperHex_digits (b / 16) (by omega)
    obtain ⟨hlow, hlowValue, -⟩ := upperHex_digits (b % 16) (by omega)
    refine .inr ⟨(upperHex (b / 16)).toNat, (upperHex (b % 16)).toNat, ?_, ?_⟩
    · rw [encodeByte, if_neg hunreserved, utf8_cons, utf8_cons, utf8_cons, hhigh, hlow]
      rfl
    · rw [fromStrRadix16, if_neg hhighPlus, hhighValue, hlowValue]
      exact congrArg some (by omega)

theorem not_splitsChar_encoded {bytes : List Nat} (h : ∀ b ∈ bytes, b < 256) :
    ¬ SplitsChar (utf8 (bytes.flatMap encodeByte)) := by
  cases bytes with
  | nil => exact fun ⟨_, hmem, _⟩ => nomatch hmem
  | cons b bytes =>
      rw [List.flatMap_cons, utf8_append]
      obtain ⟨heq, hascii, -⟩ | ⟨x, y, heq, -⟩ := utf8_encodeByte (h b List.mem_cons_self)
      · rw [heq, List.singleton_append, splitsChar_cons]
        exact fun hcontinuation => absurd hascii (Nat.not_lt.mpr hcontinuation.1)
      · rw [heq, List.cons_append, splitsChar_cons]
        decide

theorem urldecodeBytes_encoded {bytes : List Nat} (h : ∀ b ∈ bytes, b < 256) :
    urldecodeBytes (utf8 (bytes.flatMap encodeByte)) = .ok bytes := by
  induction bytes with
  | nil => rfl
  | cons b bytes ih =>
      rw [List.forall_mem_cons] at h
      rw [List.flatMap_cons, utf8_append]
      obtain ⟨heq, -, hpercent, hplus⟩ | ⟨x, y, heq, hvalue⟩ := utf8_encodeByte h.1
      · rw [heq, List.singleton_append, urldecodeBytes, ih h.2, if_neg hplus]
        · rfl
        · exact fun _ _ _ hb => absurd hb hpercent
      · rw [heq]
        show urldecodeBytes (0x25 :: x :: y :: utf8 (bytes.flatMap encodeByte)) = _
        rw [urldecodeBytes, if_neg (not_splitsChar_encoded h.2), hvalue, ih h.2]
        rfl

theorem lt_of_mem_utf8 {text : List Char} : ∀ b ∈ utf8 text, b < 256 := by
  intro b hb
  obtain ⟨c, -, hc⟩ := List.mem_flatMap.mp hb
  exact lt_of_mem_utf8Char hc

theorem urldecode_urlencode (s : String) : urldecode (urlencode s) = .ok s := by
  rw [urldecode, urlencode, String.toList_ofList, urldecodeBytes_encoded lt_of_mem_utf8]
  show Except.ok (String.ofList (fromUtf8Lossy (utf8 s.toList))) = _
  rw [fromUtf8Lossy_utf8, String.ofList_toList]

theorem notMem_encodeByte (b : Nat) (hb : b < 256) : '&' ∉ encodeByte b := by
  have hascii : ∀ b < 0x80, isUnreserved b = true → Char.ofNat b ≠ '&' := by decide
  have hdigit : ∀ n < 16, upperHex n ≠ '&' := by decide
  rw [encodeByte]
  split_ifs with h
  · rw [List.mem_singleton]
    exact (hascii b (isUnreserved_bounds h).1 h).symm
  · simp only [List.mem_cons, List.not_mem_nil, or_false, not_or]
    exact ⟨by decide, (hdigit _ (by omega)).symm, (hdigit _ (by omega)).symm⟩

theorem notMem_urlencode (s : String) : '&' ∉ (urlencode s).toList := by
  intro hmem
  rw [urlencode, String.toList_ofList] at hmem
  obtain ⟨b, hb, hc⟩ := List.mem_flatMap.mp hmem
  exact notMem_encodeByte b (lt_of_mem_utf8 b hb) hc

theorem pairName_append {name : List Char} (h : '=' ∉ name) (value : List Char) :
    pairName (name ++ '=' :: value) = String.ofList name := by
  have hall : ∀ c ∈ name, decide (c ≠ '=') = true :=
    fun c hc => decide_eq_true fun heq => h (heq ▸ hc)
  rw [pairName, List.takeWhile_append_of_pos hall, List.takeWhile_cons_of_neg (by decide),
    List.append_nil]

theorem pairValue_append {name : List Char} (h : '=' ∉ name) (value : List Char) :
    pairValue (name ++ '=' :: value) = String.ofList value := by
  have hall : ∀ c ∈ name, decide (c ≠ '=') = true :=
    fun c hc => decide_eq_true fun heq => h (heq ▸ hc)
  rw [pairValue, List.dropWhile_append_of_pos hall, List.dropWhile_cons_of_neg (by decide)]
  rfl

theorem readPair_echoed (cb : CallbackParams) (name : String) (h : '=' ∉ name.toList)
    (value : String) : readPair cb (name.toList ++ '=' :: (urlencode value).toList) =
      .ok (setParam cb name value) := by
  rw [readPair, pairValue_append h, pairName_append h, String.ofList_toList, String.ofList_toList,
    urldecode_urlencode]
  rfl

/-- A server that echoes a code and a state encoded is read back. -/
theorem fromQuery_echoed (code state : String) :
    fromQuery (("code".toList ++ '=' :: (urlencode code).toList) ++ '&' ::
      ("state".toList ++ '=' :: (urlencode state).toList)) = .ok ⟨some code, state, none⟩ := by
  have havoids : ∀ name : String, '&' ∉ name.toList → ∀ s,
      '&' ∉ name.toList ++ '=' :: (urlencode s).toList := by
    intro name hname s hmem
    cases List.mem_append.mp hmem with
    | inl hin => exact hname hin
    | inr hin => exact notMem_urlencode s (List.mem_of_ne_of_mem (by decide) hin)
  have hcode := readPair_echoed ⟨none, "", none⟩ "code" (by decide) code
  have hstate := readPair_echoed ⟨some code, "", none⟩ "state" (by decide) state
  rw [fromQuery, List.splitOn_append_cons_self,
    List.splitOn_eq_singleton (havoids "code" (by decide) code),
    List.splitOn_eq_singleton (havoids "state" (by decide) state), List.singleton_append,
    List.foldlM_cons, bind_of_eq_ok hcode, setParam, if_pos rfl, List.foldlM_cons,
    bind_of_eq_ok hstate, setParam, if_neg (by decide), if_pos rfl]
  rfl

/-! ## When a query panics -/

theorem urldecode_eq_error_iff {s : String} :
    (∃ e, urldecode s = .error e) ↔ BadEscape (utf8 s.toList) := by
  simp only [urldecode, map_eq_error_iff]
  exact urldecodeBytes_eq_error_iff _

theorem foldlM_readPair_eq_error_iff {pairs : List (List Char)} {cb : CallbackParams} :
    (∃ e, pairs.foldlM readPair cb = .error e) ↔
      ∃ pair ∈ pairs, BadEscape (utf8 (pairValue pair).toList) := by
  induction pairs generalizing cb with
  | nil => exact iff_of_false (fun ⟨_, h⟩ => nomatch h) (by simp)
  | cons pair pairs ih =>
      rw [List.foldlM_cons, List.exists_mem_cons_iff, ← urldecode_eq_error_iff]
      cases hvalue : urldecode (pairValue pair) with
      | error e =>
          have hpair : readPair cb pair = .error e := by
            rw [readPair, hvalue]
            rfl
          rw [hpair]
          exact iff_of_true ⟨e, rfl⟩ (.inl ⟨e, rfl⟩)
      | ok v =>
          have hpair : readPair cb pair = .ok (setParam cb (pairName pair) v) := by
            rw [readPair, hvalue]
            rfl
          rw [bind_of_eq_ok hpair, ih]
          exact ⟨.inr, fun h => h.resolve_left fun ⟨_, he⟩ => nomatch he⟩

/-! ## Which lines are read -/

theorem beforeCrlf_append {xs l : List Nat} (h : beforeCrlf xs = some l) (ys : List Nat) :
    beforeCrlf (xs ++ ys) = some l := by
  induction xs using beforeCrlf.induct generalizing l with
  | case1 => cases h
  | case2 rest =>
      cases h
      rfl
  | case3 b rest hother ih =>
      rw [beforeCrlf] at h
      · obtain ⟨tail, htail, rfl⟩ := Option.map_eq_some_iff.mp h
        rw [List.cons_append, beforeCrlf, ih htail]
        · rfl
        · intro other hb heq
          cases rest with
          | nil => cases htail
          | cons c rest =>
              cases heq
              exact hother rest hb rfl
      · exact hother

theorem length_beforeCrlf {xs l : List Nat} (h : beforeCrlf xs = some l) : l.length ≤ xs.length := by
  induction xs using beforeCrlf.induct generalizing l with
  | case1 => cases h
  | case2 rest =>
      cases h
      exact Nat.zero_le _
  | case3 b rest hother ih =>
      rw [beforeCrlf] at h
      · obtain ⟨tail, htail, rfl⟩ := Option.map_eq_some_iff.mp h
        exact Nat.succ_le_succ (ih htail)
      · exact hother

theorem length_received {line bytes : List Nat} {reads : List (List UInt8)}
    (h : received line reads = some bytes) : line.length ≤ bytes.length := by
  induction reads generalizing line with
  | nil => cases h
  | cons chunk reads ih =>
      rw [received] at h
      split_ifs at h with hempty hcrlf
      · cases h
        rw [List.length_append]
        exact Nat.le_add_right _ _
      · have hle := ih h
        rw [List.length_append] at hle
        exact Nat.le_of_add_right_le hle

/-- What is received up to the end of the line decides the line. -/
theorem beforeCrlf_delivered (line : List Nat) (reads : List (List UInt8))
    (hline : beforeCrlf line = none) :
    beforeCrlf (line ++ ((reads.takeWhile (· ≠ [])).flatten).map UInt8.toNat) =
      (received line reads).bind beforeCrlf := by
  induction reads generalizing line with
  | nil =>
      rw [received]
      exact (congrArg beforeCrlf (List.append_nil line)).trans hline
  | cons chunk reads ih =>
      rw [received]
      by_cases hempty : chunk = []
      · rw [if_pos hempty, List.takeWhile_cons_of_neg (by simp [hempty])]
        exact (congrArg beforeCrlf (List.append_nil line)).trans hline
      · rw [if_neg hempty, List.takeWhile_cons_of_pos (by simp [hempty]), List.flatten_cons,
          List.map_append, ← List.append_assoc]
        cases hcrlf : beforeCrlf (line ++ chunk.map UInt8.toNat) with
        | none =>
            rw [ih _ hcrlf]
            simp [hcrlf]
        | some l =>
            rw [beforeCrlf_append hcrlf]
            simp [hcrlf]

theorem readLoop_eq_ok_iff {line : List Nat} {reads : List (List UInt8)} {text : List Char} :
    readLoop line reads = .ok text ↔ ∃ bytes l, received line reads = some bytes ∧
      bytes.length ≤ MAX_CALLBACK_REQUEST_LINE ∧ beforeCrlf bytes = some l ∧
        fromUtf8 l = some text := by
  induction reads generalizing line with
  | nil => exact iff_of_false nofun (fun ⟨_, _, h, _⟩ => nomatch h)
  | cons chunk reads ih =>
      rw [readLoop, received]
      by_cases hempty : chunk = []
      · rw [if_pos hempty, if_pos hempty]
        exact iff_of_false nofun (fun ⟨_, _, h, _⟩ => nomatch h)
      · rw [if_neg hempty, if_neg hempty]
        by_cases hlong : MAX_CALLBACK_REQUEST_LINE < (line ++ chunk.map UInt8.toNat).length
        · rw [if_pos hlong]
          refine iff_of_false nofun ?_
          rintro ⟨bytes, l, hreceived, hle, -⟩
          refine absurd (hlong.trans_le ?_) (Nat.not_lt.mpr hle)
          split_ifs at hreceived
          · cases hreceived
            exact Nat.le_refl _
          · exact length_received hreceived
        · rw [if_neg hlong]
          cases hcrlf : beforeCrlf (line ++ chunk.map UInt8.toNat) with
          | none => exact ih
          | some l =>
              rw [Option.isSome_some, if_pos rfl]
              constructor
              · intro h
                cases htext : fromUtf8 l with
                | none =>
                    simp only [htext] at h
                    cases h
                | some text' =>
                    simp only [htext] at h
                    cases h
                    exact ⟨_, l, rfl, Nat.not_lt.mp hlong, hcrlf, htext⟩
              · rintro ⟨bytes, l', hbytes, -, hl', htext⟩
                cases hbytes
                cases hcrlf.symm.trans hl'
                simp only [htext]

/-- A request line is read unless the read that completes it goes past the limit. -/
theorem readRequestLine_eq_ok_iff {connection : Connection} {text : List Char} :
    readRequestLine connection = .ok text ↔
      requestLine connection = some text ∧ ¬ OverRead connection := by
  have hdelivered : beforeCrlf (delivered connection) =
      (received [] connection.reads).bind beforeCrlf :=
    beforeCrlf_delivered [] connection.reads rfl
  rw [readRequestLine, readLoop_eq_ok_iff, requestLine, hdelivered]
  constructor
  · rintro ⟨bytes, l, hreceived, hle, hl, htext⟩
    constructor
    · rw [hreceived, Option.bind_some, hl]
      exact (if_pos ((length_beforeCrlf hl).trans hle)).trans htext
    · rintro ⟨bytes', hreceived', hlt⟩
      cases hreceived.symm.trans hreceived'
      exact absurd hlt (Nat.not_lt.mpr hle)
  · rintro ⟨h, hfits⟩
    obtain ⟨l, hl, h⟩ := Option.bind_eq_some_iff.mp h
    obtain ⟨bytes, hreceived, hl⟩ := Option.bind_eq_some_iff.mp hl
    obtain ⟨-, htext⟩ := Option.ite_none_right_eq_some.mp h
    exact ⟨bytes, l, hreceived, Nat.not_lt.mp fun hlt => hfits ⟨bytes, hreceived, hlt⟩, hl, htext⟩

/-! ## Each connection -/

section Listening

variable {session : AuthSession} {connection : Connection} {rest : List Connection}

/-- A connection is refused and the next ones decide. -/
def Refused (session : AuthSession) (connection : Connection) (rest : List Connection) : Prop :=
  ∃ response, waitForCallback session (connection :: rest) =
    (response :: (waitForCallback session rest).1, (waitForCallback session rest).2)

theorem Qualifies.unique {cb cb' : CallbackParams} (h : Qualifies session connection cb)
    (h' : Qualifies session connection cb') : cb = cb' := by
  obtain ⟨first, query, hline, hquery, hcb, -⟩ := h
  obtain ⟨first', query', hline', hquery', hcb', -⟩ := h'
  cases hline.symm.trans hline'
  cases hquery.symm.trans hquery'
  cases hcb.symm.trans hcb'
  rfl

/-- The result of `verify_callback` on a request with the state of the session. -/
theorem verifyCallback_eq_verdict {cb : CallbackParams} (h : cb.state = session.state) :
    (verifyCallback session cb).map (fun code => (session, code)) = verdict session cb := by
  obtain ⟨code, state, error⟩ := cb
  simp only at h
  rw [verifyCallback, verdict, h]
  cases error with
  | some err => rfl
  | none =>
      rw [if_neg (not_not_intro rfl)]
      cases code with
      | none => rfl
      | some code =>
          show Except.map _ (if code ≠ "" then _ else _) = if code = "" then _ else _
          by_cases hcode : code = ""
          · rw [if_pos hcode, if_neg (not_not_intro hcode)]
            rfl
          · rw [if_neg hcode, if_pos hcode]
            rfl

/-- What one connection does: it is refused, ends the listener, or makes it panic. -/
theorem waitForCallback_cons (session : AuthSession) (connection : Connection)
    (rest : List Connection) :
    (Refused session connection rest ∧ (OverRead connection ∨ ¬ CarriesBadEscape connection) ∧
        ∀ cb, Qualifies session connection cb → OverRead connection) ∨
      (∃ cb response, Qualifies session connection cb ∧ ¬ OverRead connection ∧
        ¬ CarriesBadEscape connection ∧ waitForCallback session (connection :: rest) =
          ([response], .returned (verdict session cb))) ∨
      (CarriesBadEscape connection ∧ ¬ OverRead connection ∧
        waitForCallback session (connection :: rest) = ([], .panicked)) := by
  rw [Refused, waitForCallback]
  cases hread : readRequestLine connection with
  | error e =>
      have hover : ∀ first, requestLine connection = some first → OverRead connection := by
        intro first hline
        by_contra hfits
        have hok := readRequestLine_eq_ok_iff.mpr ⟨hline, hfits⟩
        cases hread.symm.trans hok
      refine .inl ⟨⟨_, rfl⟩, ?_, fun cb ⟨first, _, hline, _⟩ => hover first hline⟩
      by_cases hover' : OverRead connection
      · exact .inl hover'
      · exact .inr fun ⟨first, _, hline, _⟩ => hover' (hover first hline)
  | ok first =>
      obtain ⟨hline, hfits⟩ := readRequestLine_eq_ok_iff.mp hread
      simp only
      cases hquery : callbackQuery first with
      | none =>
          have hnone : ∀ {first' query}, requestLine connection = some first' →
              callbackQuery first' ≠ some query := by
            intro first' query hline' hquery'
            cases hline.symm.trans hline'
            cases hquery.symm.trans hquery'
          exact .inl ⟨⟨_, rfl⟩, .inr fun ⟨_, _, hline', hquery', _⟩ => hnone hline' hquery',
            fun cb ⟨_, _, hline', hquery', _⟩ => absurd hquery' (hnone hline')⟩
      | some query =>
          have hbad : CarriesBadEscape connection ↔ ∃ e, fromQuery query = .error e := by
            rw [fromQuery, foldlM_readPair_eq_error_iff]
            constructor
            · rintro ⟨first', query', hline', hquery', hpair⟩
              cases hline.symm.trans hline'
              cases hquery.symm.trans hquery'
              exact hpair
            · exact fun hpair => ⟨first, query, hline, hquery, hpair⟩
          simp only
          cases hcb : fromQuery query with
          | error e => exact .inr (.inr ⟨hbad.mpr ⟨e, hcb⟩, hfits, rfl⟩)
          | ok cb =>
              have hgood : ¬ CarriesBadEscape connection := by
                rw [hbad]
                rintro ⟨e, he⟩
                cases hcb.symm.trans he
              by_cases hstate : cb.state = session.state
              · refine .inr (.inl ⟨cb, callbackResponse "200 OK"
                  (if (verifyCallback session cb).isOk then "登录成功，请返回 Useful。"
                    else "登录失败或被拒绝，请返回 Useful 重试。"),
                  ⟨first, query, hline, hquery, hcb, hstate⟩, hfits, hgood, ?_⟩)
                rw [← verifyCallback_eq_verdict hstate]
                exact if_neg (not_not_intro hstate)
              · refine .inl ⟨⟨_, if_pos hstate⟩, .inr hgood, ?_⟩
                rintro cb' ⟨first', query', hline', hquery', hcb', hstate'⟩
                cases hline.symm.trans hline'
                cases hquery.symm.trans hquery'
                cases hcb.symm.trans hcb'
                exact absurd hstate' hstate


theorem harmless_cons : Harmless session (connection :: rest) ↔
    ((CarriesBadEscape connection → OverRead connection) ∧
      ∀ cb, Qualifies session connection cb → ¬ OverRead connection) ∧
      ((∀ cb, ¬ Qualifies session connection cb) → Harmless session rest) := by
  constructor
  · intro h
    refine ⟨h [] connection rest rfl nofun, fun hnone before other after heq hbefore => ?_⟩
    exact h (connection :: before) other after (by rw [heq, List.cons_append])
      (List.forall_mem_cons.mpr ⟨hnone, hbefore⟩)
  · rintro ⟨hself, hrest⟩ before other after heq hbefore
    cases before with
    | nil =>
        cases heq
        exact hself
    | cons first before =>
        cases heq
        obtain ⟨hnone, hbefore⟩ := List.forall_mem_cons.mp hbefore
        exact hrest hnone before other after rfl hbefore

/-- A refused connection that does not qualify changes nothing. -/
theorem undisturbed_cons_of_refused (hrefused : Refused session connection rest)
    (hnone : ∀ cb, ¬ Qualifies session connection cb) :
    Undisturbed session (connection :: rest) ↔ Undisturbed session rest := by
  obtain ⟨response, hwait⟩ := hrefused
  rw [Undisturbed, Undisturbed, hwait]
  refine or_congr ⟨?_, ?_⟩ ?_
  · rintro ⟨before, other, after, cb, heq, hbefore, hcb, hlength, hresult⟩
    cases before with
    | nil =>
        cases heq
        exact absurd hcb (hnone cb)
    | cons first before =>
        cases heq
        exact ⟨before, other, after, cb, rfl, (List.forall_mem_cons.mp hbefore).2, hcb,
          Nat.succ_injective hlength, hresult⟩
  · rintro ⟨before, other, after, cb, rfl, hbefore, hcb, hlength, hresult⟩
    exact ⟨connection :: before, other, after, cb, rfl, List.forall_mem_cons.mpr ⟨hnone, hbefore⟩,
      hcb, congrArg Nat.succ hlength, hresult⟩
  · rw [List.forall_mem_cons, List.length_cons, List.length_cons, Nat.succ_inj]
    exact and_congr_left fun _ => and_iff_right hnone

/-- Without a response the listener panicked or timed out. -/
theorem result_of_no_response (connections : List Connection)
    (h : (waitForCallback session connections).1 = []) :
    (waitForCallback session connections).2 = .panicked ∨
      (waitForCallback session connections).2 = .returned (.error "登录超时") := by
  cases connections with
  | nil => exact .inr rfl
  | cons connection rest =>
      obtain ⟨⟨response, hwait⟩, -⟩ | ⟨cb, response, -, -, -, hwait⟩ | ⟨-, -, hwait⟩ :=
        waitForCallback_cons session connection rest
      · rw [hwait] at h
        cases h
      · rw [hwait] at h
        cases h
      · exact .inl (by rw [hwait])

/-- What a request decides is no timeout. -/
theorem verdict_ne_timeout (cb : CallbackParams) : verdict session cb ≠ .error "登录超时" := by
  obtain ⟨code, state, error⟩ := cb
  intro h
  cases error with
  | some err =>
      have htext := congrArg String.toList (Except.error.inj h)
      rw [String.toList_append] at htext
      have hhead : some '回' = some '登' := congrArg List.head? htext
      exact absurd hhead (by decide)
  | none =>
      cases code with
      | none => exact absurd (Except.error.inj h) (by decide)
      | some code =>
          simp only [verdict] at h
          split_ifs at h
          exact absurd (Except.error.inj h) (by decide)

/-- The listener is undisturbed exactly when no connection it decides by does harm. -/
theorem undisturbed_iff (session : AuthSession) (connections : List Connection) :
    Undisturbed session connections ↔ Harmless session connections := by
  induction connections with
  | nil =>
      refine iff_of_true (.inr ⟨nofun, rfl, rfl⟩) fun before connection after heq => ?_
      exact absurd heq.symm (by simp)
  | cons connection rest ih =>
      rw [harmless_cons]
      obtain ⟨hrefused, hbad, hover⟩ | ⟨cb, response, hcb, hfits, hgood, hwait⟩ |
        ⟨hbad, hfits, hwait⟩ := waitForCallback_cons session connection rest
      · by_cases hqualifies : ∃ cb, Qualifies session connection cb
        · -- A request that qualifies is refused: it goes past the limit.
          obtain ⟨cb, hcb⟩ := hqualifies
          refine iff_of_false ?_ fun h => h.1.2 cb hcb (hover cb hcb)
          obtain ⟨response, hwait⟩ := hrefused
          rw [Undisturbed, hwait]
          rintro (⟨before, other, after, cb', heq, hbefore, hcb', hlength, hresult⟩ | ⟨hnone, -⟩)
          · cases before with
            | nil =>
                have hlater := List.eq_nil_of_length_eq_zero (Nat.succ_injective hlength)
                obtain hpanicked | htimeout := result_of_no_response rest hlater
                · exact nomatch hpanicked.symm.trans hresult
                · have hsame := htimeout.symm.trans hresult
                  exact verdict_ne_timeout cb' (Outcome.returned.inj hsame).symm
            | cons first before =>
                cases heq
                exact (List.forall_mem_cons.mp hbefore).1 cb hcb
          · exact hnone connection List.mem_cons_self cb hcb
        · have hnone : ∀ cb, ¬ Qualifies session connection cb := fun cb hcb => hqualifies ⟨cb, hcb⟩
          rw [undisturbed_cons_of_refused hrefused hnone, ih]
          constructor
          · intro hrest
            exact ⟨⟨fun h => hbad.resolve_right (not_not_intro h), fun cb hcb => absurd hcb (hnone cb)⟩,
              fun _ => hrest⟩
          · exact fun h => h.2 hnone
      · refine iff_of_true (.inl ⟨[], connection, rest, cb, rfl, nofun, hcb, ?_, ?_⟩) ?_
        · rw [hwait]
          rfl
        · rw [hwait]
        · exact ⟨⟨fun h => absurd h hgood, fun _ _ => hfits⟩, fun hnone => absurd hcb (hnone cb)⟩
      · refine iff_of_false ?_ fun h => hfits (h.1.1 hbad)
        rw [Undisturbed, hwait]
        rintro (⟨_, _, _, _, -, -, -, -, hresult⟩ | ⟨-, -, hresult⟩) <;> cases hresult

/-- Percent-decoding inverts `urlencode`, an echoed code and state are read back, and the first
connection that qualifies decides the listener, the others leaving it alone, if and only if
the connections do no harm. -/
theorem callback_listener_iff (session : AuthSession) (connections : List Connection) :
    (∀ s, urldecode (urlencode s) = .ok s) ∧
      (∀ code state, fromQuery (("code".toList ++ '=' :: (urlencode code).toList) ++ '&' ::
        ("state".toList ++ '=' :: (urlencode state).toList)) = .ok ⟨some code, state, none⟩) ∧
      (Undisturbed session connections ↔ Harmless session connections) :=
  ⟨urldecode_urlencode, fromQuery_echoed, undisturbed_iff session connections⟩

end Listening

/-! ## A percent sign before a character -/

def demoSession : AuthSession where
  sourceId := "demo"
  issuer := "https://source.example"
  clientId := "useful-desktop"
  redirectUri := "http://127.0.0.1:51820/callback"
  scopes := ["profile"]
  state := "state"
  nonce := "nonce"
  pkce := ⟨"verifier", "challenge", "S256"⟩

/-- `GET /callback?x=%中 HTTP/1.1` -/
def percentConnection : Connection where
  reads := [[0x47, 0x45, 0x54, 0x20, 0x2F, 0x63, 0x61, 0x6C, 0x6C, 0x62, 0x61, 0x63, 0x6B, 0x3F,
    0x78, 0x3D, 0x25, 0xE4, 0xB8, 0xAD, 0x20, 0x48, 0x54, 0x54, 0x50, 0x2F, 0x31, 0x2E, 0x31,
    0x0D, 0x0A]]
  short := by decide

/-- One request makes the listener panic. -/
theorem percent_before_character_panics :
    (waitForCallback demoSession [percentConnection]).2 = .panicked ∧
      ¬ Undisturbed demoSession [percentConnection] := by
  have hline : readRequestLine percentConnection = .ok "GET /callback?x=%中 HTTP/1.1".toList := by
    decide +kernel
  have hquery : callbackQuery "GET /callback?x=%中 HTTP/1.1".toList = some "x=%中".toList := by
    decide
  have hpanics : fromQuery "x=%中".toList = .error .notCharBoundary := by
    decide
  have hwait : waitForCallback demoSession [percentConnection] = ([], .panicked) := by
    simp only [waitForCallback, hline, hquery, hpanics]
  rw [hwait]
  refine ⟨rfl, ?_⟩
  rw [Undisturbed, hwait]
  rintro (⟨_, _, _, _, -, -, -, -, hresult⟩ | ⟨-, -, hresult⟩) <;> cases hresult

end Useful.Client.Callback
