/-
# Migrated receipts

A receipt of version 1.0 is upgraded to a valid one, which keeps what it says, unless it has
the code `CANCELLED` under the status `error` or was completed in a year that has not four
digits. Valid receipts of version 2.0 are upgraded to themselves, and so read back from their
texts.
-/

import Useful.Actions.ReceiptMigration

namespace Useful.Actions

open Useful.Math

section Migration

variable {otherDate : Option JsonValue → Option Int} {value : JsonValue}

/-! ## Receipts of version 1.0 -/

/-- A receipt that passes the checks of version 1.0. -/
structure ValidV1 (otherDate : Option JsonValue → Option Int) (value : JsonValue) : Prop where
  keys : ∃ members, value = .obj members ∧ ∀ key ∈ value.keys, key ∈ V1_KEYS
  actionId : TextWith (fun s => BoundedText 200 s ∧ s.toList ∈ ACTION_ID.lang) (value.get "actionId")
  actionVersion : TextWith (fun s => BoundedText 128 s ∧ s.toList ∈ SEMVER.lang)
    (value.get "actionVersion")
  contractVersion : TextWith (BoundedText 32) (value.get "contractVersion")
  source : ObjectWith ["kind", "toolId", "publisher", "digest"] ["kind", "toolId", "publisher", "digest"]
    ReceiptSource (value.get "source")
  permissions : TextList 128 (BoundedText 256) (value.get "permissions")
  startedAt : timestamp otherDate (value.get "startedAt") "/startedAt" = []
  durationMs : ∃ q, value.get "durationMs" = some (.num q) ∧ q.isInt = true ∧ 0 ≤ q ∧
    q ≤ 9007199254740991
  status : TextWith (· ∈ TERMINAL_STATUSES) (value.get "status")
  error : IfPresent (fun x => ObjectWith ["code"] ["code"]
    (fun error => TextWith IsErrorCode (error.get "code")) (some x)) (value.get "error")
  success : value.get "status" = some (.str "success") → value.get "error" = none
  failed : TextWith (· ∈ ["error", "cancelled"]) (value.get "status") → value.get "error" ≠ none
  cancelled : value.get "status" = some (.str "cancelled") →
    errorCode value = some (.str "CANCELLED")

theorem validV1_of_validateV1 (h : validateV1 otherDate value = []) : ValidV1 otherDate value := by
  have herror : (if (value.get "error").isSome = true then validateError (value.get "error") "/error"
      else []) = [] ↔ IfPresent (fun x => ObjectWith ["code"] ["code"]
        (fun error => TextWith IsErrorCode (error.get "code")) (some x)) (value.get "error") :=
    ifSome_eq_nil (f := fun v => validateError v "/error") validateError_eq_nil
  rw [validateV1, requireKeys_eq_nil] at h
  obtain ⟨members, hobject, -, hallowed, h⟩ := h
  obtain rfl := Option.some.inj hobject
  simp only [List.append_eq_nil_iff, issueIf_eq_nil, not_not, isText_iff, boundedString_some,
    boundedString_none, validateSource_eq_nil, stringSet_eq_nil, stringWith_iff, integerWith_iff,
    decide_eq_true_eq, Bool.and_eq_true, herror] at h
  obtain ⟨⟨⟨⟨⟨⟨⟨⟨⟨⟨⟨hid, hversion⟩, hcontract⟩, hsource⟩, hpermissions⟩, hstarted⟩, hduration⟩, hstatus⟩,
    herror⟩, hsuccess⟩, hfailed⟩, hcancelled⟩ := h
  refine ⟨⟨members, rfl, hallowed⟩, hid, hversion, hcontract, hsource, hpermissions, hstarted,
    hduration, hstatus, herror, ?_, ?_, ?_⟩
  · intro h
    exact Option.not_isSome_iff_eq_none.mp fun hsome => hsuccess ⟨h, hsome⟩
  · intro h hnone
    exact hfailed ⟨h, Option.isNone_iff_eq_none.mpr hnone⟩
  · intro h
    by_contra hne
    exact hcancelled ⟨h, hne⟩

/-! ## The upgraded receipt -/

theorem timestamp_path {value : Option JsonValue} {path : String} (path' : String)
    (h : timestamp otherDate value path = []) : timestamp otherDate value path' = [] := by
  rw [timestamp, issueIf_eq_nil] at h ⊢
  exact h

theorem memberOf_of_get {key : String} {x : JsonValue} (h : value.get key = some x) :
    memberOf value key = x := by
  rw [memberOf, h]
  rfl

/-- A member that is there is copied. -/
theorem some_memberOf {key : String} (h : value.get key ≠ none) :
    some (memberOf value key) = value.get key := by
  obtain ⟨x, hx⟩ := Option.ne_none_iff_exists'.mp h
  rw [memberOf_of_get hx, hx]

theorem TextWith.ne_none {P : String → Prop} {v : Option JsonValue} (h : TextWith P v) : v ≠ none := by
  obtain ⟨s, rfl, -⟩ := h
  exact Option.some_ne_none _

/-- The error of a checked receipt is an object, and so copied. -/
theorem get_error_upgraded (h : ValidV1 otherDate value) (completedAt : String) :
    (upgraded value completedAt).get "error" = value.get "error" := by
  cases herror : value.get "error" with
  | none =>
      rw [upgraded, herror]
      rfl
  | some error =>
      obtain ⟨members, hmembers, -⟩ := h.error error herror
      obtain rfl := Option.some.inj hmembers
      rw [upgraded, memberOf_of_get herror, herror]
      rfl

theorem completedEpochMs_eq_some {ms : Int} (h : completedEpochMs otherDate value = some ms) :
    ∃ started q, dateParse otherDate (value.get "startedAt") = some started ∧
      value.get "durationMs" = some (.num q) ∧ ms = started + q.num := by
  rw [completedEpochMs] at h
  split at h
  · rename_i started q hstarted hduration
    exact ⟨started, q, hstarted, hduration, (Option.some.inj h).symm⟩
  · cases h

/-- The keys of an upgraded receipt. -/
theorem keys_upgraded (value : JsonValue) (completedAt : String) :
    (upgraded value completedAt).keys =
      ["receiptVersion", "actionId", "actionVersion", "contractVersion", "source", "permissions",
        "status", "createdAt", "startedAt", "completedAt", "durationMs"] ++
        if truthy (value.get "error") then ["error"] else [] := by
  rw [upgraded, Json.keys, Json.members_obj, List.map_append]
  split <;> rfl

/-- An error with the code of a cancellation. -/
def CancelledError (value : JsonValue) : Prop :=
  value.get "status" = some (.str "error") ∧ errorCode value = some (.str "CANCELLED")

/-- The members go with the status in the new version too, unless an error is a cancellation. -/
theorem statusIssues_upgraded (h : ValidV1 otherDate value) {completedAt : String} :
    statusIssues (upgraded value completedAt) = [] ↔ ¬ CancelledError value := by
  obtain ⟨status, hstatus, hterminal⟩ := h.status
  have herror := get_error_upgraded h completedAt
  have hcode : errorCode (upgraded value completedAt) = errorCode value := by
    rw [errorCode, herror, errorCode]
  have hstatus' : (upgraded value completedAt).get "status" = some (.str status) := by
    rw [← memberOf_of_get hstatus]
    rfl
  have htimes : ∀ key ∈ ["startedAt", "completedAt", "durationMs"],
      ∃ x, (upgraded value completedAt).get key = some x := by
    simp only [List.forall_mem_cons, List.not_mem_nil, false_imp_iff, implies_true, and_true]
    exact ⟨⟨_, rfl⟩, ⟨_, rfl⟩, ⟨_, rfl⟩⟩
  rw [statusIssues_terminal hstatus' hterminal htimes, hcode, herror, CancelledError, hstatus]
  constructor
  · rintro ⟨-, -, -, hcancelled⟩ ⟨heq, hcode⟩
    cases heq
    exact hcancelled rfl hcode
  · intro hno
    refine ⟨fun heq => h.success (heq ▸ hstatus), fun hne => ?_,
      fun heq => h.cancelled (heq ▸ hstatus), fun heq hcode => hno ⟨by rw [heq], hcode⟩⟩
    refine Option.ne_none_iff_exists'.mp (h.failed ⟨status, hstatus, ?_⟩)
    simp only [TERMINAL_STATUSES, List.mem_cons, List.not_mem_nil, or_false] at hterminal ⊢
    exact hterminal.resolve_left hne

/-- Which receipts of version 1.0 become valid ones. -/
theorem validReceipt_upgraded_iff (h : ValidV1 otherDate value) {ms : Int}
    (hms : completedEpochMs otherDate value = some ms) :
    ValidReceipt otherDate (upgraded value (String.ofList (isoText ms))) ↔
      ¬ CancelledError value ∧ FourDigitYear ms := by
  obtain ⟨started, q, hstarted, hduration, rfl⟩ := completedEpochMs_eq_some hms
  obtain ⟨q', hduration', hint, hnonneg, hsmall⟩ := h.durationMs
  cases hduration.symm.trans hduration'
  constructor
  · intro hvalid
    exact ⟨statusIssues_upgraded h |>.mp hvalid.statusMembers,
      timestamp_isoText.mp (hvalid.completedAt _ rfl)⟩
  · rintro ⟨herror, hyear⟩
    obtain ⟨sourceMembers, hsource, -⟩ := id h.source
    obtain ⟨permissions, hpermissions, -⟩ := id h.permissions
    have hstartedAt : value.get "startedAt" ≠ none := by
      intro hnone
      have hstamp := h.startedAt
      rw [hnone, timestamp, issueIf_eq_nil] at hstamp
      exact hstamp (.inl (by simp [stringWith]))
    have hstamp (path : String) :
        timestamp otherDate (some (memberOf value "startedAt")) path = [] := by
      rw [some_memberOf hstartedAt]
      exact timestamp_path path h.startedAt
    have hnum : (0 : ℤ) ≤ q.num := Rat.num_nonneg.mpr hnonneg
    constructor
    case keys =>
      refine ⟨_, rfl, ?_, ?_, trivial⟩
      · show ∀ key ∈ _, key ∈ (upgraded value _).keys
        rw [keys_upgraded]
        simp
      · show ∀ key ∈ (upgraded value _).keys, _
        rw [keys_upgraded]
        split <;> decide
    case receiptVersion => rfl
    case actionId =>
      show TextWith _ (some (memberOf value "actionId"))
      rw [some_memberOf h.actionId.ne_none]
      exact h.actionId
    case actionVersion =>
      show TextWith _ (some (memberOf value "actionVersion"))
      rw [some_memberOf h.actionVersion.ne_none]
      exact h.actionVersion
    case contractVersion =>
      show TextWith _ (some (memberOf value "contractVersion"))
      rw [some_memberOf h.contractVersion.ne_none]
      exact h.contractVersion
    case source =>
      show ObjectWith _ _ _ (some (memberOf value "source"))
      rw [some_memberOf (by rw [hsource]; exact Option.some_ne_none _)]
      exact h.source
    case permissions =>
      refine ⟨_, rfl, by simp [Json.keys], by simp [Json.keys], ?_, ⟨[], rfl, by simp, by simp, by simp⟩⟩
      show TextList _ _ (some (.arr (memberOf value "permissions").elements))
      rw [memberOf_of_get hpermissions, Json.elements_arr, ← hpermissions]
      exact h.permissions
    case status =>
      show TextWith _ (some (memberOf value "status"))
      rw [some_memberOf h.status.ne_none]
      exact h.status.imp fun s hs => (show TERMINAL_STATUSES ⊆ EXECUTION_RECEIPT_STATUSES by decide) hs
    case createdAt => exact hstamp "/createdAt"
    case startedAt =>
      rintro x ⟨⟩
      exact hstamp "/startedAt"
    case completedAt =>
      rintro x ⟨⟩
      exact timestamp_isoText.mpr hyear
    case durationMs =>
      rintro x ⟨⟩
      exact ⟨q, memberOf_of_get hduration, hint, hnonneg, hsmall⟩
    case error =>
      rw [get_error_upgraded h]
      exact h.error
    case statusMembers => exact (statusIssues_upgraded h).mpr herror
    case order =>
      have hdate : dateParse otherDate (some (memberOf value "startedAt")) = some started := by
        rw [some_memberOf hstartedAt, hstarted]
      show (_ : List Issue) ++ _ = []
      rw [List.append_eq_nil_iff, issueIf_eq_nil, issueIf_eq_nil]
      show ¬ precedes (dateParse otherDate (some (memberOf value "startedAt")))
          (dateParse otherDate (some (memberOf value "startedAt"))) = true ∧
        ¬ precedes (dateParse otherDate (some (.str (String.ofList (isoText (started + q.num))))))
          (dateParse otherDate (some (memberOf value "startedAt"))) = true
      rw [hdate, dateParse_isoText hyear]
      simp only [precedes, decide_eq_true_eq]
      omega

/-! ## Upgrading -/

/-- What a receipt of version 2.0 keeps of one of version 1.0. -/
structure Keeps (value receipt : JsonValue) : Prop where
  same : ∀ key ∈ ["actionId", "actionVersion", "contractVersion", "source", "status", "durationMs",
    "error"], receipt.get key = value.get key
  required : ((receipt.get "permissions").bind fun permissions => permissions.get "required") =
    value.get "permissions"
  capabilities : ((receipt.get "permissions").bind fun permissions =>
    permissions.get "capabilities") = some (.arr [])

theorem keeps_upgraded (h : ValidV1 otherDate value) (completedAt : String) :
    Keeps value (upgraded value completedAt) := by
  obtain ⟨sourceMembers, hsource, -⟩ := h.source
  obtain ⟨permissions, hpermissions, -⟩ := h.permissions
  obtain ⟨q, hduration, -⟩ := h.durationMs
  constructor
  case same =>
    simp only [List.forall_mem_cons, List.not_mem_nil, false_imp_iff, implies_true, and_true]
    exact ⟨some_memberOf h.actionId.ne_none, some_memberOf h.actionVersion.ne_none,
      some_memberOf h.contractVersion.ne_none,
      some_memberOf (by rw [hsource]; exact Option.some_ne_none _), some_memberOf h.status.ne_none,
      some_memberOf (by rw [hduration]; exact Option.some_ne_none _), get_error_upgraded h completedAt⟩
  case required =>
    show some (Json.arr (memberOf value "permissions").elements) = _
    rw [memberOf_of_get hpermissions, Json.elements_arr, hpermissions]
  case capabilities => rfl

/-- A valid receipt is upgraded to itself. -/
theorem upgrade_of_valid {receipt : JsonValue} (h : validateExecutionReceipt otherDate receipt = []) :
    upgradeExecutionReceipt otherDate receipt = .ok receipt := by
  have hvalid := validateExecutionReceipt_eq_nil.mp h
  obtain ⟨members, hobject, -⟩ := hvalid.keys
  obtain rfl := Option.some.inj hobject
  have hassert : assertExecutionReceipt otherDate (.obj members) = .ok ⟨⟩ :=
    failIf_eq_ok.mpr (not_not.mpr h)
  rw [upgradeExecutionReceipt, bind_of_eq_ok ((failIf_eq_ok (r := ⟨⟩)).mpr (by simp [isObject])),
    if_pos (isText_iff.mpr hvalid.receiptVersion), bind_of_eq_ok hassert]
  rfl

/-- An old receipt becomes a valid one that keeps what it says and is upgraded to itself. -/
def Migrates (otherDate : Option JsonValue → Option Int) (value : JsonValue) : Prop :=
  ∃ receipt, upgradeExecutionReceipt otherDate value = .ok receipt ∧
    validateExecutionReceipt otherDate receipt = [] ∧ Keeps value receipt ∧
    upgradeExecutionReceipt otherDate receipt = .ok receipt

theorem migrates_iff (h : validateV1 otherDate value = []) {ms : Int}
    (hms : completedEpochMs otherDate value = some ms) (hdate : (toISOString ms).isSome = true) :
    Migrates otherDate value ↔
      value.get "receiptVersion" = some (.str "1.0") ∧ ¬ CancelledError value ∧ FourDigitYear ms := by
  have hvalid := validV1_of_validateV1 h
  obtain ⟨members, hobject, hkeys⟩ := hvalid.keys
  have hiso : toISOString ms = some (String.ofList (isoText ms)) := by
    rw [toISOString] at hdate ⊢
    split at hdate
    · rename_i hrange
      rw [if_pos hrange]
    · cases hdate
  constructor
  · rintro ⟨receipt, hupgrade, -⟩
    rw [upgradeExecutionReceipt] at hupgrade
    obtain ⟨_, -, hupgrade⟩ := bind_eq_ok.mp hupgrade
    split at hupgrade
    · -- A receipt of the new version tells when it was created.
      obtain ⟨_, hassert, -⟩ := bind_eq_ok.mp hupgrade
      have hnew := validateExecutionReceipt_eq_nil.mp (not_not.mp (failIf_eq_ok.mp hassert))
      obtain ⟨members', hobject', hrequired, -⟩ := hnew.keys
      have hmem := hkeys "createdAt" (by
        rw [Option.some.inj hobject']
        exact Option.some.inj hobject' ▸ hrequired "createdAt" (by decide))
      exact absurd hmem (by decide)
    · obtain ⟨_, hversion, hupgrade⟩ := bind_eq_ok.mp hupgrade
      obtain ⟨_, -, hupgrade⟩ := bind_eq_ok.mp hupgrade
      rw [hms] at hupgrade
      obtain ⟨ms', hms', hupgrade⟩ := bind_eq_ok.mp hupgrade
      obtain rfl := Option.some.inj (orFail_eq_ok.mp hms')
      obtain ⟨completedAt, hcompleted, hupgrade⟩ := bind_eq_ok.mp hupgrade
      obtain rfl := Option.some.inj (hiso.symm.trans (orFail_eq_ok.mp hcompleted))
      obtain ⟨_, hassert, -⟩ := bind_eq_ok.mp hupgrade
      have hnew := validateExecutionReceipt_eq_nil.mp (not_not.mp (failIf_eq_ok.mp hassert))
      exact ⟨isText_iff.mp (not_not.mp (failIf_eq_ok.mp hversion)),
        (validReceipt_upgraded_iff hvalid hms).mp hnew⟩
  · rintro ⟨hversion, hcondition⟩
    have hnew := validateExecutionReceipt_eq_nil.mpr
      ((validReceipt_upgraded_iff hvalid hms).mpr hcondition)
    refine ⟨_, ?_, hnew, keeps_upgraded hvalid _, upgrade_of_valid hnew⟩
    have hother : ¬ isText (value.get "receiptVersion") EXECUTION_RECEIPT_VERSION = true := by
      rw [hversion]
      decide
    have hassert : assertExecutionReceipt otherDate (upgraded value (String.ofList (isoText ms))) =
        .ok ⟨⟩ := failIf_eq_ok.mpr (not_not.mpr hnew)
    rw [upgradeExecutionReceipt, bind_of_eq_ok ((failIf_eq_ok (r := ⟨⟩)).mpr (by simp [hobject, isObject])),
      if_neg hother, bind_of_eq_ok ((failIf_eq_ok (r := ⟨⟩)).mpr (not_not.mpr (isText_iff.mpr hversion))),
      bind_of_eq_ok ((failIf_eq_ok (r := ⟨⟩)).mpr (not_not.mpr h)), hms,
      bind_of_eq_ok (orFail_eq_ok.mpr rfl), bind_of_eq_ok (orFail_eq_ok.mpr hiso),
      bind_of_eq_ok hassert]
    rfl

/-! ## Texts of receipts -/

/-- No number of a value fails a test, if the members that an object may have are known and none
of them has one. -/
theorem anyNum_object {p : ℚ → Bool} {members : List (String × JsonValue)} {allowed : List String}
    (hnodup : (members.map Prod.fst).Nodup) (hkeys : ∀ key ∈ Json.keys (.obj members), key ∈ allowed)
    (h : ∀ key ∈ allowed, ∀ x, Json.get (.obj members) key = some x → x.anyNum p = false) :
    (Json.obj members).anyNum p = false := by
  rw [Json.anyNum_obj, List.any_eq_false]
  intro m hm
  rw [h m.1 (hkeys m.1 (List.mem_map_of_mem hm)) m.2 ((Json.lookup_eq_some_iff_mem hnodup).mpr hm)]
  exact Bool.false_ne_true

theorem anyNum_of_textWith {p : ℚ → Bool} {P : String → Prop} {x : JsonValue}
    (h : TextWith P (some x)) : x.anyNum p = false := by
  obtain ⟨s, hs, -⟩ := h
  rw [Option.some.inj hs]
  rfl

theorem anyNum_of_textList {p : ℚ → Bool} {n : Nat} {P : String → Prop} {x : JsonValue}
    (h : TextList n P (some x)) : x.anyNum p = false := by
  obtain ⟨texts, htexts, -⟩ := h
  rw [Option.some.inj htexts, Json.anyNum_arr, List.any_eq_false]
  intro v hv
  obtain ⟨s, -, rfl⟩ := List.mem_map.mp hv
  exact Bool.false_ne_true

theorem textWith_of_timestamp {v : Option JsonValue} {path : String}
    (h : timestamp otherDate v path = []) : TextWith (fun s => UTC_TIMESTAMP.test s.toList = true) v := by
  rw [timestamp, issueIf_eq_nil, not_or, not_not] at h
  exact stringWith_iff.mp h.1

theorem anyNum_source {p : ℚ → Bool} {source : JsonValue} (hkeys : source.DistinctKeys)
    (h : ObjectWith ["kind", "toolId", "publisher", "digest"] ["kind", "toolId", "publisher", "digest"]
      ReceiptSource (some source)) : source.anyNum p = false := by
  obtain ⟨members, hmembers, -, hallowed, h⟩ := h
  obtain rfl := Option.some.inj hmembers
  rw [Json.DistinctKeys, Json.forallObjects_obj] at hkeys
  refine anyNum_object hkeys.1 hallowed fun key hkey x hx => ?_
  simp only [List.mem_cons, List.not_mem_nil, or_false] at hkey
  rcases hkey with rfl | rfl | rfl | rfl
  · exact anyNum_of_textWith (hx ▸ h.kind)
  · exact anyNum_of_textWith (hx ▸ h.toolId)
  · obtain ⟨publisher, hpublisher, -, hallowed, h⟩ := hx ▸ h.publisher
    obtain rfl := Option.some.inj hpublisher
    have hpublisherKeys := hkeys.2 _ (Json.lookup_mem hx)
    rw [Json.forallObjects_obj] at hpublisherKeys
    refine anyNum_object hpublisherKeys.1 hallowed fun key hkey x hx => ?_
    simp only [List.mem_cons, List.not_mem_nil, or_false] at hkey
    rcases hkey with rfl | rfl
    · exact anyNum_of_textWith (hx ▸ h.id)
    · exact anyNum_of_textWith (h.name x hx)
  · exact anyNum_of_textWith (hx ▸ h.digest)

/-- The numbers of a valid receipt are safe integers. -/
theorem anyNum_of_valid {receipt : JsonValue} (hkeys : receipt.DistinctKeys)
    (h : ValidReceipt otherDate receipt) : receipt.anyNum (fun q => !isSafeInteger q) = false := by
  obtain ⟨members, hobject, -, hallowed, -⟩ := id h.keys
  obtain rfl := Option.some.inj hobject
  rw [Json.DistinctKeys, Json.forallObjects_obj] at hkeys
  have hinside (key : String) (x : JsonValue) (hx : Json.get (.obj members) key = some x) :
      x.DistinctKeys := hkeys.2 (key, x) (Json.lookup_mem hx)
  refine anyNum_object hkeys.1 hallowed fun key hkey x hx => ?_
  simp only [V2_KEYS, List.mem_cons, List.not_mem_nil, or_false] at hkey
  rcases hkey with rfl | rfl | rfl | rfl | rfl | rfl | rfl | rfl | rfl | rfl | rfl | rfl
  · exact anyNum_of_textWith (P := fun _ => True) ⟨_, hx.symm.trans h.receiptVersion, trivial⟩
  · exact anyNum_of_textWith (hx ▸ h.actionId)
  · exact anyNum_of_textWith (hx ▸ h.actionVersion)
  · exact anyNum_of_textWith (hx ▸ h.contractVersion)
  · exact anyNum_source (hinside "source" x hx) (hx ▸ h.source)
  · obtain ⟨permissions, hpermissions, -, hallowed, h⟩ := hx ▸ h.permissions
    obtain rfl := Option.some.inj hpermissions
    have hpermissionKeys := hinside "permissions" _ hx
    rw [Json.DistinctKeys, Json.forallObjects_obj] at hpermissionKeys
    refine anyNum_object hpermissionKeys.1 hallowed fun key hkey x hx => ?_
    simp only [List.mem_cons, List.not_mem_nil, or_false] at hkey
    rcases hkey with rfl | rfl
    · exact anyNum_of_textList (hx ▸ h.required)
    · exact anyNum_of_textList (hx ▸ h.capabilities)
  · exact anyNum_of_textWith (hx ▸ h.status)
  · exact anyNum_of_textWith (textWith_of_timestamp (hx ▸ h.createdAt))
  · exact anyNum_of_textWith (textWith_of_timestamp (h.startedAt x hx))
  · exact anyNum_of_textWith (textWith_of_timestamp (h.completedAt x hx))
  · obtain ⟨q, rfl, hint, hnonneg, hsmall⟩ := h.durationMs x hx
    rw [Json.anyNum_num, isSafeInteger, hint, decide_eq_true hnonneg, decide_eq_true hsmall]
    rfl
  · obtain ⟨error, herror, -, hallowed, h⟩ := h.error x hx
    obtain rfl := Option.some.inj herror
    have herrorKeys := hinside "error" _ hx
    rw [Json.DistinctKeys, Json.forallObjects_obj] at herrorKeys
    refine anyNum_object herrorKeys.1 hallowed fun key hkey x hx => ?_
    rw [List.mem_singleton.mp hkey] at hx
    exact anyNum_of_textWith (hx ▸ h)

/-- A valid receipt is read back from its text. -/
theorem parse_of_valid {numberText : ℚ → String} {toNumber : ℚ → ℚ}
    (hnumbers : SafeIntegers numberText toNumber) {receipt : JsonValue} (hkeys : receipt.DistinctKeys)
    (h : validateExecutionReceipt otherDate receipt = [])
    (hsize : utf8JsonBytes numberText receipt ≤ EXECUTION_RECEIPT_MAX_BYTES) :
    parseExecutionReceipt otherDate numberText toNumber (.text (stringify numberText receipt)) none =
      .ok receipt := by
  have hparse : parseJson toNumber (stringify numberText receipt) = some receipt :=
    Json.parse_render readsStrings_quoteText (fun q hq => readsNumber_of_isSafeInteger hnumbers hq)
      hkeys (anyNum_of_valid hkeys (validateExecutionReceipt_eq_nil.mp h))
  have hlimit : ¬ integerWith (fun q => q < (utf8 (stringify numberText receipt)).length)
      (some (.num EXECUTION_RECEIPT_MAX_BYTES)) = true := by
    rw [integerWith_iff]
    rintro ⟨q, hq, -, hlt⟩
    cases hq
    rw [decide_eq_true_eq, Nat.cast_lt] at hlt
    exact absurd hsize (not_le.mpr hlt)
  have hbytes : ¬ ¬ integerWith (fun q => 1 ≤ q && q ≤ EXECUTION_RECEIPT_MAX_BYTES)
      (some (.num EXECUTION_RECEIPT_MAX_BYTES)) = true := by
    decide
  rw [parseExecutionReceipt]
  simp only [Option.getD_none]
  rw [bind_of_eq_ok ((failIf_eq_ok (r := ⟨⟩)).mpr hbytes),
    bind_of_eq_ok ((failIf_eq_ok (r := ⟨⟩)).mpr hlimit), bind_of_eq_ok (orFail_eq_ok.mpr hparse),
    upgrade_of_valid h]
  rfl

/-- Which receipts of version 1.0 are migrated, and that valid receipts of version 2.0 are read
back from their texts. -/
theorem receipt_migration_iff (otherDate : Option JsonValue → Option Int) {numberText : ℚ → String}
    {toNumber : ℚ → ℚ} (hnumbers : SafeIntegers numberText toNumber) :
    (∀ value ms, validateV1 otherDate value = [] → completedEpochMs otherDate value = some ms →
      (toISOString ms).isSome = true →
      (Migrates otherDate value ↔
        value.get "receiptVersion" = some (.str "1.0") ∧ ¬ CancelledError value ∧
          FourDigitYear ms)) ∧
    ∀ receipt, receipt.DistinctKeys → validateExecutionReceipt otherDate receipt = [] →
      utf8JsonBytes numberText receipt ≤ EXECUTION_RECEIPT_MAX_BYTES →
      parseExecutionReceipt otherDate numberText toNumber (.text (stringify numberText receipt)) none =
        .ok receipt :=
  ⟨fun _ _ h hms hdate => migrates_iff h hms hdate,
    fun _ hkeys h hsize => parse_of_valid hnumbers hkeys h hsize⟩

/-! ## A receipt of version 1.0 -/

/-- A receipt of an echo that took five milliseconds. -/
def oldReceipt (status : String) (error : List (String × JsonValue)) : JsonValue :=
  .obj ([
    ("receiptVersion", .str "1.0"),
    ("actionId", .str "local.echo"),
    ("actionVersion", .str "1.0.0"),
    ("contractVersion", .str "1.0"),
    ("source", .obj [("kind", .str "local"), ("toolId", .str "local.echo"),
      ("publisher", .obj [("id", .str "local")]),
      ("digest", .str "0000000000000000000000000000000000000000000000000000000000000000")]),
    ("permissions", .arr []),
    ("startedAt", .str "2024-01-01T00:00:00.000Z"),
    ("durationMs", .num 5),
    ("status", .str status)] ++ error)

/-- An error with the code `CANCELLED` passes the old rules and not the new ones. -/
theorem cancelled_error_not_migrated :
    ¬ ∀ value ms, validateV1 (fun _ => none) value = [] →
      completedEpochMs (fun _ => none) value = some ms → (toISOString ms).isSome = true →
      Migrates (fun _ => none) value := by
  intro h
  have hold : validateV1 (fun _ => none) (oldReceipt "error" [("error", .obj [("code", .str "CANCELLED")])])
      = [] := by decide
  have hms : completedEpochMs (fun _ => none)
      (oldReceipt "error" [("error", .obj [("code", .str "CANCELLED")])]) = some 1704067200005 := by
    decide
  have hmigrates := h _ _ hold hms (by decide)
  exact ((migrates_iff hold hms (by decide)).mp hmigrates).2.1 ⟨rfl, rfl⟩

theorem oldReceipt_migrates : Migrates (fun _ => none) (oldReceipt "success" []) :=
  ((receipt_migration_iff (fun _ => none) safeIntegers_decimal).1 (oldReceipt "success" [])
    1704067200005 (by decide) (by decide) (by decide)).mpr
      ⟨rfl, fun h => (nomatch h.2), by decide⟩

end Migration

end Useful.Actions
