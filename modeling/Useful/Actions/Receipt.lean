/-
# Execution receipts

`validateExecutionReceipt` of the action contract. A receipt repeats parts of a descriptor,
but its texts are bounded and may not look like absolute paths.
-/

import Useful.Actions.AcceptedDescriptor
import Useful.Math.Calendar

namespace Useful.Actions

open Useful.Math

/-! ## Constants -/

def EXECUTION_RECEIPT_VERSION : String := "2.0"

def EXECUTION_RECEIPT_STATUSES : List String := ["queued", "running", "success", "error", "cancelled"]

def TERMINAL_STATUSES : List String := ["success", "error", "cancelled"]

section Patterns

open Regex

/-- `/^[A-Z][A-Z0-9_]{1,63}$/` -/
def ERROR_CODE : Regex Char :=
  seq (cls isUpper) (seq (cls fun c => isUpper c || isDigit c || c = '_')
    ((cls fun c => isUpper c || isDigit c || c = '_').upTo 62))

/-- `/^\d{4}-\d{2}-\d{2}T\d{2}:\d{2}:\d{2}\.\d{3}Z$/` -/
def UTC_TIMESTAMP : Regex Char :=
  seq (times (cls isDecimal) 4) (seq (letter '-') (seq (times (cls isDecimal) 2) (seq (letter '-')
    (seq (times (cls isDecimal) 2) (seq (letter 'T') (seq (times (cls isDecimal) 2) (seq (letter ':')
      (seq (times (cls isDecimal) 2) (seq (letter ':') (seq (times (cls isDecimal) 2)
        (seq (letter '.') (seq (times (cls isDecimal) 3) (letter 'Z')))))))))))))

/-- `/^(?:\/|\\\\|[A-Za-z]:[\\/])/` -/
def ABSOLUTE_PATH : Regex Char :=
  seq (alt (letter '/') (alt (word ['\\', '\\'])
    (seq (cls fun c => isUpper c || isLower c) (seq (letter ':')
      (cls fun c => c = '\\' || c = '/'))))) any

end Patterns

def V2_KEYS : List String :=
  ["receiptVersion", "actionId", "actionVersion", "contractVersion", "source", "permissions",
    "status", "createdAt", "startedAt", "completedAt", "durationMs", "error"]

/-! ## The checkers -/

/-- `boundedString`. No caller allows the empty string. -/
def boundedString (value : Option JsonValue) (path : String) (maximum : Nat)
    (pattern : Option (Regex Char)) : List Issue :=
  match value with
  | some (.str s) =>
      if s = "" ∨ utf16Length s > maximum then
        [⟨path, s!"必须是非空且不超过 {maximum} 字符的字符串"⟩]
      else
        issueIf (ABSOLUTE_PATH.test s.toList) path "不得包含绝对路径" ++
          issueIf (pattern.any fun r => !r.test s.toList) path "格式非法"
  | _ => [⟨path, s!"必须是非空且不超过 {maximum} 字符的字符串"⟩]

/-- Whether a `Set` takes two values that were read for the same: objects and arrays are
never the same. -/
def sameValue : JsonValue → JsonValue → Bool
  | .null, .null => true
  | .bool a, .bool b => a == b
  | .num a, .num b => a == b
  | .str a, .str b => a == b
  | _, _ => false

/-- The loop of `stringSet`, with the values seen so far. -/
def setEntries (path : String) : Nat → List JsonValue → List JsonValue → List Issue
  | _, _, [] => []
  | index, seen, entry :: rest =>
      boundedString (some entry) s!"{path}/{index}" 256 none ++
        issueIf (seen.any (sameValue entry)) s!"{path}/{index}" "不允许重复项" ++
        setEntries path (index + 1) (entry :: seen) rest

/-- `stringSet`. -/
def stringSet (value : Option JsonValue) (path : String) : List Issue :=
  match value with
  | some (.arr items) =>
      issueIf (items.length > 128) path "最多 128 项" ++ setEntries path 0 [] items
  | _ => [⟨path, "必须是字符串数组"⟩]

def publisherIssues (path : String) (publisher : JsonValue) : List Issue :=
  boundedString (publisher.get "id") s!"{path}/publisher/id" 256 none ++
    if (publisher.get "name").isSome then
      boundedString (publisher.get "name") s!"{path}/publisher/name" 256 none
    else []

/-- `validateSource`. -/
def validateSource (value : Option JsonValue) (path : String) : List Issue :=
  requireKeys value ["kind", "toolId", "publisher", "digest"]
    ["kind", "toolId", "publisher", "digest"] path fun source =>
      issueIf (¬ stringWith (· ∈ ["builtin", "plugin", "local"]) (source.get "kind"))
          s!"{path}/kind" "source.kind 非法" ++
        boundedString (source.get "toolId") s!"{path}/toolId" 256 none ++
        boundedString (source.get "digest") s!"{path}/digest" 64 (some SHA256) ++
        requireKeys (source.get "publisher") ["id"] ["id", "name"] s!"{path}/publisher"
          (publisherIssues path)

/-- `validatePermissions`. -/
def validatePermissions (value : Option JsonValue) (path : String) : List Issue :=
  requireKeys value ["required", "capabilities"] ["required", "capabilities"] path fun permissions =>
    stringSet (permissions.get "required") s!"{path}/required" ++
      stringSet (permissions.get "capabilities") s!"{path}/capabilities"

/-- `validateError`. -/
def validateError (value : Option JsonValue) (path : String) : List Issue :=
  requireKeys value ["code"] ["code"] path fun error =>
    boundedString (error.get "code") s!"{path}/code" 64 (some ERROR_CODE)

section Code

-- What `Date.parse` makes of values that are not in the ISO format.
variable (otherDate : Option JsonValue → Option Int)

/-- `Date.parse`. -/
def dateParse (value : Option JsonValue) : Option Int :=
  match value with
  | some (.str s) => (parseIsoText s.toList).orElse fun _ => otherDate value
  | _ => otherDate value

/-- `timestamp`. -/
def timestamp (value : Option JsonValue) (path : String) : List Issue :=
  issueIf (¬ stringWith (fun s => UTC_TIMESTAMP.test s.toList) value ∨
      (dateParse otherDate value).isNone)
    path "必须是带毫秒的 UTC ISO-8601 时间"

section

variable (value : JsonValue)

/-- `value.error?.code` -/
def errorCode : Option JsonValue := (value.get "error").bind fun error => error.get "code"

/-- The members that go with the status. -/
def statusIssues : List Issue :=
  if isText (value.get "status") "queued" then
    ["startedAt", "completedAt", "durationMs", "error"].flatMap fun key =>
      issueIf (value.get key).isSome s!"/{key}" "queued receipt 不得包含此字段"
  else if isText (value.get "status") "running" then
    issueIf (value.get "startedAt").isNone "/startedAt" "running receipt 必须包含 startedAt" ++
      ["completedAt", "durationMs", "error"].flatMap fun key =>
        issueIf (value.get key).isSome s!"/{key}" "running receipt 不得包含此字段"
  else if stringWith (· ∈ TERMINAL_STATUSES) (value.get "status") then
    ["startedAt", "completedAt", "durationMs"].flatMap (fun key =>
        issueIf (value.get key).isNone s!"/{key}" "terminal receipt 必须包含此字段") ++
      issueIf (isText (value.get "status") "success" ∧ (value.get "error").isSome)
        "/error" "success receipt 不得包含 error" ++
      issueIf (stringWith (· ∈ ["error", "cancelled"]) (value.get "status") ∧
          (value.get "error").isNone)
        "/error" "失败 receipt 必须包含 error code" ++
      issueIf (isText (value.get "status") "cancelled" ∧ ¬ isText (errorCode value) "CANCELLED")
        "/error/code" "cancelled receipt 必须使用 CANCELLED" ++
      issueIf (isText (value.get "status") "error" ∧ isText (errorCode value) "CANCELLED")
        "/error/code" "CANCELLED 必须映射为 cancelled status"
  else
    []

/-- An instant before another one. -/
def precedes (early late : Option Int) : Bool :=
  match early, late with
  | some early, some late => early < late
  | _, _ => false

def orderIssues : List Issue :=
  let created := dateParse otherDate (value.get "createdAt")
  let started := dateParse otherDate (value.get "startedAt")
  let completed := dateParse otherDate (value.get "completedAt")
  issueIf (precedes started created) "/startedAt" "不得早于 createdAt" ++
    issueIf (precedes completed started) "/completedAt" "不得早于 startedAt"

/-- `validateExecutionReceipt`. -/
def validateExecutionReceipt : List Issue :=
  requireKeys (some value)
    ["receiptVersion", "actionId", "actionVersion", "contractVersion", "source", "permissions",
      "status", "createdAt"]
    V2_KEYS "" fun value =>
      issueIf (¬ isText (value.get "receiptVersion") EXECUTION_RECEIPT_VERSION)
          "/receiptVersion" "只支持 2.0 canonical receipt" ++
        boundedString (value.get "actionId") "/actionId" 200 (some ACTION_ID) ++
        boundedString (value.get "actionVersion") "/actionVersion" 128 (some SEMVER) ++
        boundedString (value.get "contractVersion") "/contractVersion" 32 none ++
        validateSource (value.get "source") "/source" ++
        validatePermissions (value.get "permissions") "/permissions" ++
        issueIf (¬ stringWith (· ∈ EXECUTION_RECEIPT_STATUSES) (value.get "status"))
          "/status" "status 非法" ++
        timestamp otherDate (value.get "createdAt") "/createdAt" ++
        (if (value.get "startedAt").isSome then
          timestamp otherDate (value.get "startedAt") "/startedAt" else []) ++
        (if (value.get "completedAt").isSome then
          timestamp otherDate (value.get "completedAt") "/completedAt" else []) ++
        issueIf ((value.get "durationMs").isSome ∧
            ¬ integerWith (fun q => 0 ≤ q && q ≤ 9007199254740991) (value.get "durationMs"))
          "/durationMs" "必须是非负安全整数" ++
        (if (value.get "error").isSome then validateError (value.get "error") "/error" else []) ++
        statusIssues value ++
        orderIssues otherDate value

end

end Code

/-! ## Receipts that pass -/

/-- A text of a receipt: bounded, and not an absolute path. -/
def BoundedText (maximum : Nat) (s : String) : Prop :=
  s ≠ "" ∧ utf16Length s ≤ maximum ∧ s.toList ∉ ABSOLUTE_PATH.lang

theorem boundedString_eq_nil {value : Option JsonValue} {path : String} {maximum : Nat}
    {pattern : Option (Regex Char)} :
    boundedString value path maximum pattern = [] ↔
      TextWith (fun s => BoundedText maximum s ∧ ∀ r ∈ pattern, s.toList ∈ r.lang) value := by
  unfold boundedString
  split
  · rename_i s
    have hpattern : issueIf (pattern.any fun r => !r.test s.toList) path "格式非法" = [] ↔
        ∀ r ∈ pattern, s.toList ∈ r.lang := by
      rw [issueIf_eq_nil]
      cases pattern <;> simp [Regex.test_iff]
    split_ifs with h
    · refine iff_of_false (fun hnil => hnil) ?_
      rintro ⟨t, heq, ⟨hne, hlength, -⟩, -⟩
      cases heq
      rcases h with h | h
      · exact hne h
      · omega
    · rw [List.append_eq_nil_iff, issueIf_eq_nil, hpattern, Regex.test_iff]
      rw [not_or, not_lt] at h
      constructor
      · rintro ⟨hpath, hmatch⟩
        exact ⟨s, rfl, ⟨h.1, h.2, hpath⟩, hmatch⟩
      · rintro ⟨t, heq, ⟨-, -, hpath⟩, hmatch⟩
        cases heq
        exact ⟨hpath, hmatch⟩
  · rename_i hno
    refine iff_of_false (List.cons_ne_nil _ _) ?_
    rintro ⟨s, rfl, -⟩
    exact hno s rfl

/-- A text without a pattern. -/
theorem boundedString_none {value : Option JsonValue} {path : String} {maximum : Nat} :
    boundedString value path maximum none = [] ↔ TextWith (BoundedText maximum) value := by
  rw [boundedString_eq_nil]
  simp

/-- A text with a pattern. -/
theorem boundedString_some {value : Option JsonValue} {path : String} {maximum : Nat}
    {r : Regex Char} :
    boundedString value path maximum (some r) = [] ↔
      TextWith (fun s => BoundedText maximum s ∧ s.toList ∈ r.lang) value := by
  rw [boundedString_eq_nil]
  simp

/-- The loop finds nothing in different bounded texts, none of which was seen before. -/
theorem setEntries_eq_nil {path : String} {items seen : List JsonValue} {index : Nat} :
    setEntries path index seen items = [] ↔
      ∃ texts : List String, items = texts.map .str ∧ texts.Nodup ∧
        ∀ s ∈ texts, BoundedText 256 s ∧ Json.str s ∉ seen := by
  induction items generalizing index seen with
  | nil =>
      refine iff_of_true rfl ⟨[], rfl, List.nodup_nil, ?_⟩
      simp
  | cons item items ih =>
      have hseen (s : String) :
          ¬ (seen.any (sameValue (.str s)) = true) ↔ Json.str s ∉ seen := by
        rw [List.any_eq_true, not_exists]
        constructor
        · exact fun h hmem => h (.str s) ⟨hmem, by simp [sameValue]⟩
        · rintro h x ⟨hmem, hsame⟩
          cases x <;> simp [sameValue] at hsame
          exact h (hsame ▸ hmem)
      rw [setEntries, List.append_eq_nil_iff, List.append_eq_nil_iff, boundedString_none,
        issueIf_eq_nil, ih]
      constructor
      · rintro ⟨⟨⟨s, heq, hbounded⟩, hfresh⟩, texts, rfl, hnodup, hall⟩
        cases heq
        refine ⟨s :: texts, rfl, List.nodup_cons.mpr ⟨?_, hnodup⟩, ?_⟩
        · exact fun hmem => (hall s hmem).2 List.mem_cons_self
        · rintro t (_ | ⟨_, ht⟩)
          · exact ⟨hbounded, (hseen s).mp hfresh⟩
          · exact ⟨(hall t ht).1, fun hmem => (hall t ht).2 (List.mem_cons_of_mem _ hmem)⟩
      · rintro ⟨_ | ⟨s, texts⟩, heq, hnodup, hall⟩
        · cases heq
        · obtain ⟨rfl, rfl⟩ : item = .str s ∧ items = texts.map .str := by simpa using heq
          rw [List.nodup_cons] at hnodup
          obtain ⟨hbounded, hfresh⟩ := hall s List.mem_cons_self
          refine ⟨⟨⟨s, rfl, hbounded⟩, (hseen s).mpr hfresh⟩, texts, rfl, hnodup.2, ?_⟩
          intro t ht
          obtain ⟨htbounded, htfresh⟩ := hall t (List.mem_cons_of_mem _ ht)
          refine ⟨htbounded, ?_⟩
          rintro (_ | ⟨_, hmem⟩)
          · exact hnodup.1 ht
          · exact htfresh hmem

theorem stringSet_eq_nil {value : Option JsonValue} {path : String} :
    stringSet value path = [] ↔ TextList 128 (BoundedText 256) value := by
  unfold stringSet
  split
  · rw [List.append_eq_nil_iff, issueIf_eq_nil, setEntries_eq_nil, not_lt]
    constructor
    · rintro ⟨hlength, texts, rfl, hnodup, hall⟩
      exact ⟨texts, rfl, by simpa using hlength, hnodup, fun s hs => (hall s hs).1⟩
    · rintro ⟨texts, heq, hlength, hnodup, hall⟩
      cases heq
      exact ⟨by simpa using hlength, texts, rfl, hnodup, fun s hs => ⟨hall s hs, List.not_mem_nil⟩⟩
  · rename_i hno
    simp only [List.cons_ne_nil, false_iff]
    rintro ⟨texts, rfl, -⟩
    exact hno _ rfl

/-- The publisher of a receipt. -/
structure ReceiptPublisher (publisher : JsonValue) : Prop where
  id : TextWith (BoundedText 256) (publisher.get "id")
  name : IfPresent (fun x => TextWith (BoundedText 256) (some x)) (publisher.get "name")

/-- The source of a receipt. -/
structure ReceiptSource (source : JsonValue) : Prop where
  kind : TextWith (· ∈ ["builtin", "plugin", "local"]) (source.get "kind")
  toolId : TextWith (BoundedText 256) (source.get "toolId")
  digest : TextWith (fun s => BoundedText 64 s ∧ s.toList ∈ SHA256.lang) (source.get "digest")
  publisher : ObjectWith ["id"] ["id", "name"] ReceiptPublisher (source.get "publisher")

/-- The checker of a member that may be absent. -/
theorem ifSome_eq_nil {value : Option JsonValue} {f : Option JsonValue → List Issue}
    {P : Option JsonValue → Prop} (h : f value = [] ↔ P value) :
    (if value.isSome = true then f value else []) = [] ↔ IfPresent (fun x => P (some x)) value := by
  unfold IfPresent
  cases value <;> simp [h]

theorem publisherIssues_eq_nil {publisher : JsonValue} {path : String} :
    publisherIssues path publisher = [] ↔ ReceiptPublisher publisher := by
  unfold publisherIssues
  rw [List.append_eq_nil_iff, boundedString_none,
    ifSome_eq_nil (f := fun v => boundedString v s!"{path}/publisher/name" 256 none)
      boundedString_none]
  exact ⟨fun ⟨hid, hname⟩ => ⟨hid, hname⟩, fun ⟨hid, hname⟩ => ⟨hid, hname⟩⟩

theorem validateSource_eq_nil {value : Option JsonValue} {path : String} :
    validateSource value path = [] ↔
      ObjectWith ["kind", "toolId", "publisher", "digest"] ["kind", "toolId", "publisher", "digest"]
        ReceiptSource value := by
  unfold validateSource
  rw [requireKeys_eq_nil]
  refine objectWith_congr fun source _ => ?_
  simp only [List.append_eq_nil_iff, issueIf_eq_nil, not_not, stringWith_iff, boundedString_none,
    boundedString_some, requireKeys_eq_nil, publisherIssues_eq_nil, decide_eq_true_eq]
  constructor
  · rintro ⟨⟨⟨hkind, htool⟩, hdigest⟩, hpublisher⟩
    exact ⟨hkind, htool, hdigest, hpublisher⟩
  · rintro ⟨hkind, htool, hdigest, hpublisher⟩
    exact ⟨⟨⟨hkind, htool⟩, hdigest⟩, hpublisher⟩

/-- The permissions of a receipt. -/
structure ReceiptPermissions (permissions : JsonValue) : Prop where
  required : TextList 128 (BoundedText 256) (permissions.get "required")
  capabilities : TextList 128 (BoundedText 256) (permissions.get "capabilities")

theorem validatePermissions_eq_nil {value : Option JsonValue} {path : String} :
    validatePermissions value path = [] ↔
      ObjectWith ["required", "capabilities"] ["required", "capabilities"] ReceiptPermissions
        value := by
  unfold validatePermissions
  rw [requireKeys_eq_nil]
  refine objectWith_congr fun permissions _ => ?_
  rw [List.append_eq_nil_iff, stringSet_eq_nil, stringSet_eq_nil]
  exact ⟨fun ⟨hrequired, hcapabilities⟩ => ⟨hrequired, hcapabilities⟩,
    fun ⟨hrequired, hcapabilities⟩ => ⟨hrequired, hcapabilities⟩⟩

/-- A text that a receipt takes as the code of an error. -/
def IsErrorCode (s : String) : Prop := BoundedText 64 s ∧ s.toList ∈ ERROR_CODE.lang

theorem validateError_eq_nil {value : Option JsonValue} {path : String} :
    validateError value path = [] ↔
      ObjectWith ["code"] ["code"] (fun error => TextWith IsErrorCode (error.get "code")) value := by
  unfold validateError
  rw [requireKeys_eq_nil]
  exact objectWith_congr fun error _ => boundedString_some

/-! ## Absolute paths -/

/-- A text without separators and colons is not an absolute path. -/
theorem not_absolute_path {w : List Char} (h : ∀ c ∈ w, c ≠ '/' ∧ c ≠ '\\' ∧ c ≠ ':') :
    w ∉ ABSOLUTE_PATH.lang := by
  intro hw
  obtain ⟨u, hu, rest, -, rfl⟩ := Regex.mem_seq.mp hw
  rcases Regex.mem_alt.mp hu with hu | hu
  · rw [Regex.mem_letter.mp hu] at h
    exact (h '/' (by simp)).1 rfl
  rcases Regex.mem_alt.mp hu with hu | hu
  · rw [Regex.mem_word.mp hu] at h
    exact (h '\\' (by simp)).2.1 rfl
  · obtain ⟨_, -, v, hv, rfl⟩ := Regex.mem_seq.mp hu
    obtain ⟨_, hcolon, _, -, rfl⟩ := Regex.mem_seq.mp hv
    rw [Regex.mem_letter.mp hcolon] at h
    exact (h ':' (by simp)).2.2 rfl

theorem not_absolute_of_letters {r : Regex Char}
    (hr : r.Letters fun c => c ≠ '/' ∧ c ≠ '\\' ∧ c ≠ ':') {w : List Char} (hw : w ∈ r.lang) :
    w ∉ ABSOLUTE_PATH.lang :=
  not_absolute_path (hr.forall_mem hw)

/-- The letters of ids, versions, digests and error codes. -/
theorem not_separator {c : Char}
    (h : isLower c = true ∨ isUpper c = true ∨ isDigit c = true ∨ c = '_' ∨ c = '-' ∨ c = '.') :
    c ≠ '/' ∧ c ≠ '\\' ∧ c ≠ ':' := by
  refine ⟨?_, ?_, ?_⟩ <;> rintro rfl <;> revert h <;> decide

theorem not_absolute_actionId {w : List Char} (hw : w ∈ ACTION_ID.lang) : w ∉ ABSOLUTE_PATH.lang := by
  refine not_absolute_of_letters ?_ hw
  have hrest : ∀ c, isIdRest c = true → c ≠ '/' ∧ c ≠ '\\' ∧ c ≠ ':' := by
    intro c hc
    simp only [isIdRest, Bool.or_eq_true, decide_eq_true_eq] at hc
    exact not_separator (by tauto)
  refine ⟨fun c hc => not_separator (.inl hc), hrest, ?_⟩
  have hpart : (Regex.seq (Regex.letter '.') (.seq (.cls fun c => isLower c || isDigit c)
      (.star (.cls isIdRest)))).Letters fun c => c ≠ '/' ∧ c ≠ '\\' ∧ c ≠ ':' := by
    refine ⟨fun c hc => not_separator ?_, fun c hc => not_separator ?_, hrest⟩
    · have : c = '.' := by simpa using hc
      simp [this]
    · rw [Bool.or_eq_true] at hc
      cases hc with
      | inl hlower => exact .inl hlower
      | inr hdigit => exact .inr (.inr (.inl hdigit))
  exact ⟨hpart, hpart⟩

theorem not_absolute_semver {w : List Char} (hw : w ∈ SEMVER.lang) : w ∉ ABSOLUTE_PATH.lang := by
  refine not_absolute_of_letters ?_ hw
  have hdigits : (Regex.cls isDigit).plus.Letters fun c => c ≠ '/' ∧ c ≠ '\\' ∧ c ≠ ':' :=
    ⟨fun c hc => not_separator (by tauto), fun c hc => not_separator (by tauto)⟩
  have hdot : (Regex.letter '.').Letters fun c => c ≠ '/' ∧ c ≠ '\\' ∧ c ≠ ':' := by
    intro c hc
    have : c = '.' := by simpa using hc
    exact not_separator (by tauto)
  have hpre : ∀ c, (isDigit c || isUpper c || isLower c || c = '.' || c = '-') = true →
      c ≠ '/' ∧ c ≠ '\\' ∧ c ≠ ':' := by
    intro c hc
    simp only [Bool.or_eq_true, decide_eq_true_eq] at hc
    exact not_separator (by tauto)
  refine ⟨hdigits, hdot, hdigits, hdot, hdigits, trivial, ?_, hpre, hpre⟩
  intro c hc
  have : c = '-' := by simpa using hc
  exact not_separator (by simp [this])

theorem not_absolute_sha256 {w : List Char} (hw : w ∈ SHA256.lang) : w ∉ ABSOLUTE_PATH.lang := by
  refine not_absolute_of_letters (Regex.Letters.times ?_ 64) hw
  intro c hc
  simp only [Bool.or_eq_true, Bool.and_eq_true, decide_eq_true_eq] at hc
  refine ⟨?_, ?_, ?_⟩ <;> rintro rfl <;> revert hc <;> decide

/-! ## Timestamps -/

theorem pad_mem_times (width n : Nat) : pad width n ∈ (Regex.times (.cls isDecimal) width).lang :=
  Regex.mem_times_cls.mpr ⟨length_pad width n, fun _ => isDecimal_of_mem_pad⟩

/-- The text of an instant has the format of a timestamp in the years of four digits. -/
theorem isoText_mem_iff {ms : Int} : isoText ms ∈ UTC_TIMESTAMP.lang ↔ FourDigitYear ms := by
  unfold isoText FourDigitYear
  dsimp only
  simp only [List.append_assoc, List.cons_append]
  constructor
  · intro h
    by_contra hyear
    obtain ⟨digits, hdigits, rest, -, heq⟩ := Regex.mem_seq.mp h
    obtain ⟨hlength, hall⟩ := Regex.mem_times_cls.mp hdigits
    rw [isoYear, if_neg hyear, List.cons_append] at heq
    cases digits with
    | nil => cases hlength
    | cons d digits =>
        rw [List.cons_append, List.cons.injEq] at heq
        have hd := hall d List.mem_cons_self
        rw [heq.1] at hd
        split_ifs at hd <;> revert hd <;> decide
  · intro h
    rw [isoYear, if_pos h]
    refine Regex.append_mem_seq (pad_mem_times 4 _) (Regex.letter_mem_seq ?_)
    refine Regex.append_mem_seq (pad_mem_times 2 _) (Regex.letter_mem_seq ?_)
    refine Regex.append_mem_seq (pad_mem_times 2 _) (Regex.letter_mem_seq ?_)
    refine Regex.append_mem_seq (pad_mem_times 2 _) (Regex.letter_mem_seq ?_)
    refine Regex.append_mem_seq (pad_mem_times 2 _) (Regex.letter_mem_seq ?_)
    refine Regex.append_mem_seq (pad_mem_times 2 _) (Regex.letter_mem_seq ?_)
    exact Regex.append_mem_seq (pad_mem_times 3 _) (Regex.mem_letter.mpr rfl)

section Timestamps

variable {otherDate : Option JsonValue → Option Int}

/-- The value of the text of an instant. -/
theorem dateParse_isoText {ms : Int} (h : FourDigitYear ms) :
    dateParse otherDate (some (.str (String.ofList (isoText ms)))) = some ms := by
  rw [dateParse, String.toList_ofList, parseIsoText_isoText h]
  rfl

theorem timestamp_isoText {ms : Int} {path : String} :
    timestamp otherDate (some (.str (String.ofList (isoText ms)))) path = [] ↔ FourDigitYear ms := by
  rw [timestamp, issueIf_eq_nil, not_or, not_not]
  constructor
  · rintro ⟨htest, -⟩
    rw [stringWith, String.toList_ofList, Regex.test_iff] at htest
    exact isoText_mem_iff.mp htest
  · intro h
    refine ⟨?_, by simp [dateParse_isoText h]⟩
    rw [stringWith, String.toList_ofList, Regex.test_iff]
    exact isoText_mem_iff.mpr h

end Timestamps

/-! ## The whole receipt -/

/-- The issues of a terminal receipt that tells when it started and ended. -/
theorem statusIssues_terminal {value : JsonValue} {status : String}
    (hstatus : value.get "status" = some (.str status)) (hterminal : status ∈ TERMINAL_STATUSES)
    (htimes : ∀ key ∈ ["startedAt", "completedAt", "durationMs"], ∃ x, value.get key = some x) :
    statusIssues value = [] ↔
      (status = "success" → value.get "error" = none) ∧
      (status ≠ "success" → ∃ x, value.get "error" = some x) ∧
      (status = "cancelled" → errorCode value = some (.str "CANCELLED")) ∧
      (status = "error" → errorCode value ≠ some (.str "CANCELLED")) := by
  have hqueued : ¬ isText (value.get "status") "queued" = true := by
    rw [hstatus]
    revert hterminal
    rw [isText_iff]
    rintro h ⟨rfl⟩
    revert h
    decide
  have hrunning : ¬ isText (value.get "status") "running" = true := by
    rw [hstatus]
    revert hterminal
    rw [isText_iff]
    rintro h ⟨rfl⟩
    revert h
    decide
  have hkinds : stringWith (· ∈ TERMINAL_STATUSES) (value.get "status") = true := by
    simpa [hstatus, stringWith] using hterminal
  have hfailed : stringWith (· ∈ ["error", "cancelled"]) (some (.str status)) = true ↔
      status ≠ "success" := by
    simp only [TERMINAL_STATUSES, List.mem_cons, List.not_mem_nil, or_false] at hterminal
    rcases hterminal with rfl | rfl | rfl <;> simp [stringWith]
  have hall : (["startedAt", "completedAt", "durationMs"].flatMap fun key =>
      issueIf ((value.get key).isNone = true) s!"/{key}" "terminal receipt 必须包含此字段") = [] := by
    rw [List.flatMap_eq_nil_iff]
    intro key hkey
    obtain ⟨x, hx⟩ := htimes key hkey
    rw [issueIf_eq_nil, hx]
    simp
  unfold statusIssues
  rw [if_neg hqueued, if_neg hrunning, if_pos hkinds, hall, List.nil_append]
  simp only [List.append_eq_nil_iff, issueIf_eq_nil, hstatus, hfailed, and_assoc]
  cases value.get "error" <;> simp [isText_iff]

/-- A receipt that passes every check. -/
structure ValidReceipt (otherDate : Option JsonValue → Option Int) (value : JsonValue) : Prop where
  keys : ObjectWith ["receiptVersion", "actionId", "actionVersion", "contractVersion", "source",
    "permissions", "status", "createdAt"] V2_KEYS (fun _ => True) (some value)
  receiptVersion : value.get "receiptVersion" = some (.str EXECUTION_RECEIPT_VERSION)
  actionId : TextWith (fun s => BoundedText 200 s ∧ s.toList ∈ ACTION_ID.lang) (value.get "actionId")
  actionVersion : TextWith (fun s => BoundedText 128 s ∧ s.toList ∈ SEMVER.lang)
    (value.get "actionVersion")
  contractVersion : TextWith (BoundedText 32) (value.get "contractVersion")
  source : ObjectWith ["kind", "toolId", "publisher", "digest"] ["kind", "toolId", "publisher", "digest"]
    ReceiptSource (value.get "source")
  permissions : ObjectWith ["required", "capabilities"] ["required", "capabilities"]
    ReceiptPermissions (value.get "permissions")
  status : TextWith (· ∈ EXECUTION_RECEIPT_STATUSES) (value.get "status")
  createdAt : timestamp otherDate (value.get "createdAt") "/createdAt" = []
  startedAt : IfPresent (fun x => timestamp otherDate (some x) "/startedAt" = [])
    (value.get "startedAt")
  completedAt : IfPresent (fun x => timestamp otherDate (some x) "/completedAt" = [])
    (value.get "completedAt")
  durationMs : IfPresent (fun x => ∃ q, x = .num q ∧ q.isInt = true ∧ 0 ≤ q ∧ q ≤ 9007199254740991)
    (value.get "durationMs")
  error : IfPresent (fun x => ObjectWith ["code"] ["code"]
    (fun error => TextWith IsErrorCode (error.get "code")) (some x)) (value.get "error")
  statusMembers : statusIssues value = []
  order : orderIssues otherDate value = []

theorem validateExecutionReceipt_eq_nil {otherDate : Option JsonValue → Option Int}
    {value : JsonValue} :
    validateExecutionReceipt otherDate value = [] ↔ ValidReceipt otherDate value := by
  have hduration := ifPresent_iff (v := value.get "durationMs")
    (P := fun x => ∃ q, x = .num q ∧ q.isInt = true ∧ 0 ≤ q ∧ q ≤ 9007199254740991)
    (Q := integerWith fun q => 0 ≤ q && q ≤ 9007199254740991) (by simp [integerWith_iff])
  have herror : (if (value.get "error").isSome = true then validateError (value.get "error") "/error"
      else []) = [] ↔ IfPresent (fun x => ObjectWith ["code"] ["code"]
        (fun error => TextWith IsErrorCode (error.get "code")) (some x)) (value.get "error") :=
    ifSome_eq_nil (f := fun v => validateError v "/error") validateError_eq_nil
  have hstarted : (if (value.get "startedAt").isSome = true then
        timestamp otherDate (value.get "startedAt") "/startedAt" else []) = [] ↔
      IfPresent (fun x => timestamp otherDate (some x) "/startedAt" = []) (value.get "startedAt") :=
    ifSome_eq_nil (f := fun v => timestamp otherDate v "/startedAt")
      (P := fun v => timestamp otherDate v "/startedAt" = []) Iff.rfl
  have hcompleted : (if (value.get "completedAt").isSome = true then
        timestamp otherDate (value.get "completedAt") "/completedAt" else []) = [] ↔
      IfPresent (fun x => timestamp otherDate (some x) "/completedAt" = []) (value.get "completedAt") :=
    ifSome_eq_nil (f := fun v => timestamp otherDate v "/completedAt")
      (P := fun v => timestamp otherDate v "/completedAt" = []) Iff.rfl
  unfold validateExecutionReceipt
  rw [requireKeys_eq_nil]
  constructor
  · rintro ⟨members, heq, hrequired, hallowed, h⟩
    obtain rfl := Option.some.inj heq
    simp only [List.append_eq_nil_iff, issueIf_eq_nil, not_not, isText_iff, boundedString_some,
      boundedString_none, validateSource_eq_nil, validatePermissions_eq_nil, stringWith_iff,
      decide_eq_true_eq, hduration, herror, hstarted, hcompleted] at h
    obtain ⟨⟨⟨⟨⟨⟨⟨⟨⟨⟨⟨⟨⟨hversion, hid⟩, haction⟩, hcontract⟩, hsource⟩, hpermissions⟩, hstatus⟩, hcreated⟩,
      hstarted⟩, hcompleted⟩, hduration⟩, herror⟩, hmembers⟩, horder⟩ := h
    exact ⟨⟨members, rfl, hrequired, hallowed, trivial⟩, hversion, hid, haction, hcontract, hsource,
      hpermissions, hstatus, hcreated, hstarted, hcompleted, hduration, herror, hmembers, horder⟩
  · rintro ⟨⟨members, heq, hrequired, hallowed, -⟩, hversion, hid, haction, hcontract, hsource,
      hpermissions, hstatus, hcreated, hstarted', hcompleted', hduration', herror', hmembers, horder⟩
    obtain rfl := Option.some.inj heq
    refine ⟨members, rfl, hrequired, hallowed, ?_⟩
    simp only [List.append_eq_nil_iff, issueIf_eq_nil, not_not, isText_iff, boundedString_some,
      boundedString_none, validateSource_eq_nil, validatePermissions_eq_nil, stringWith_iff,
      decide_eq_true_eq, hduration, herror, hstarted, hcompleted]
    exact ⟨⟨⟨⟨⟨⟨⟨⟨⟨⟨⟨⟨⟨hversion, hid⟩, haction⟩, hcontract⟩, hsource⟩, hpermissions⟩, hstatus⟩, hcreated⟩,
      hstarted'⟩, hcompleted'⟩, hduration'⟩, herror'⟩, hmembers⟩, horder⟩

end Useful.Actions
