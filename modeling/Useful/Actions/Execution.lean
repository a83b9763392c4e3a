/-
# Executions and their receipts

Which executions end with a receipt that passes the receipt validator. The descriptor
validator and the receipt validator have rules of their own for the parts that a receipt
repeats, so an accepted descriptor may have no valid receipt.
-/

import Useful.Actions.Executor

namespace Useful.Actions

open Useful.Math

/-! ## The parts of a receipt -/

section Receipt

variable {otherDate : Option JsonValue → Option Int}

/-- The copied parts pass the receipt validator. -/
structure CopiedFits (copied : Copied) : Prop where
  actionId : TextWith (fun s => BoundedText 200 s ∧ s.toList ∈ ACTION_ID.lang) (some copied.actionId)
  version : TextWith (fun s => BoundedText 128 s ∧ s.toList ∈ SEMVER.lang) (some copied.version)
  contractVersion : TextWith (BoundedText 32) (some copied.contractVersion)
  source : ObjectWith ["kind", "toolId", "publisher", "digest"] ["kind", "toolId", "publisher", "digest"]
    ReceiptSource (some copied.source)
  required : TextList 128 (BoundedText 256) (some (.arr copied.required))
  capabilities : TextList 128 (BoundedText 256) (some (.arr copied.capabilities))

/-- A status with the error that goes with it. -/
def StatusFits (status : String) (errorCode : Option JsonValue) : Prop :=
  status = "success" ∧ errorCode = none ∨
    TextWith IsErrorCode errorCode ∧
      status = if isText errorCode "CANCELLED" then "cancelled" else "error"

/-- The members of a receipt that an execution makes. -/
structure ReceiptMembers (copied : Copied) (startedAt completedAt status : String) (durationMs : Nat)
    (errorCode : Option JsonValue) (value : JsonValue) : Prop where
  keys : value.keys = ["receiptVersion", "actionId", "actionVersion", "contractVersion", "source",
    "permissions", "status", "createdAt", "startedAt", "completedAt", "durationMs"] ++
      (errorMembers errorCode).map Prod.fst
  receiptVersion : value.get "receiptVersion" = some (.str "2.0")
  actionId : value.get "actionId" = some copied.actionId
  actionVersion : value.get "actionVersion" = some copied.version
  contractVersion : value.get "contractVersion" = some copied.contractVersion
  source : value.get "source" = some copied.source
  permissions : value.get "permissions" =
    some (.obj [("required", .arr copied.required), ("capabilities", .arr copied.capabilities)])
  status : value.get "status" = some (.str status)
  createdAt : value.get "createdAt" = some (.str startedAt)
  startedAt : value.get "startedAt" = some (.str startedAt)
  completedAt : value.get "completedAt" = some (.str completedAt)
  durationMs : value.get "durationMs" = some (.num durationMs)
  error : value.get "error" = (errorMembers errorCode).lookup "error"

theorem receiptMembers (copied : Copied) (startedAt completedAt status : String) (durationMs : Nat)
    (errorCode : Option JsonValue) :
    ReceiptMembers copied startedAt completedAt status durationMs errorCode
      (receiptValue copied startedAt completedAt status durationMs errorCode) := by
  constructor
  case keys => rfl
  all_goals simp [receiptValue, Json.get, List.lookup_cons]

/-- The status of a failed execution. -/
def failedStatus (errorCode : Option JsonValue) : String :=
  if isText errorCode "CANCELLED" then "cancelled" else "error"

theorem failedStatus_terminal (errorCode : Option JsonValue) :
    failedStatus errorCode ∈ TERMINAL_STATUSES ∧ failedStatus errorCode ≠ "success" := by
  unfold failedStatus
  split <;> decide

theorem errorMembers_of_truthy {code : JsonValue} (h : truthy (some code) = true) :
    errorMembers (some code) = [("error", .obj [("code", code)])] := by
  rw [errorMembers, if_pos h]

theorem errorMembers_of_falsy {errorCode : Option JsonValue} (h : truthy errorCode = false) :
    errorMembers errorCode = [] := by
  unfold errorMembers
  split <;> simp_all

theorem terminal_subset : TERMINAL_STATUSES ⊆ EXECUTION_RECEIPT_STATUSES := by
  decide

theorem eq_error_of_mem {errorCode : Option JsonValue} {key : String}
    (h : key ∈ (errorMembers errorCode).map Prod.fst) : key = "error" := by
  unfold errorMembers at h
  split at h
  · split_ifs at h
    · simpa using h
    · cases h
  · cases h

theorem exists_of_truthy {errorCode : Option JsonValue} (h : truthy errorCode = true) :
    ∃ code, errorCode = some code := by
  cases errorCode with
  | none => cases h
  | some code => exact ⟨code, rfl⟩

theorem truthy_of_isErrorCode {errorCode : Option JsonValue} (h : TextWith IsErrorCode errorCode) :
    truthy errorCode = true := by
  obtain ⟨s, rfl, ⟨hne, -⟩, -⟩ := h
  simpa [truthy] using hne

section Members

variable {copied : Copied} {startedAt completedAt : String} {durationMs : Nat} {value : JsonValue}

theorem ReceiptMembers.exists_times {status : String} {errorCode : Option JsonValue}
    (members : ReceiptMembers copied startedAt completedAt status durationMs errorCode value) :
    ∀ key ∈ ["startedAt", "completedAt", "durationMs"], ∃ x, value.get key = some x := by
  simp only [List.forall_mem_cons, List.not_mem_nil, false_imp_iff, implies_true, and_true]
  exact ⟨⟨_, members.startedAt⟩, ⟨_, members.completedAt⟩, ⟨_, members.durationMs⟩⟩

/-- A success has the members that go with it. -/
theorem statusIssues_success
    (members : ReceiptMembers copied startedAt completedAt "success" durationMs none value) :
    statusIssues value = [] := by
  rw [statusIssues_terminal members.status (by decide) members.exists_times]
  exact ⟨fun _ => members.error, fun h => absurd rfl h, fun h => absurd h (by decide),
    fun h => absurd h (by decide)⟩

/-- A failure has the members that go with it when its code is written down. -/
theorem statusIssues_failed {errorCode : Option JsonValue}
    (members : ReceiptMembers copied startedAt completedAt (failedStatus errorCode) durationMs errorCode
      value) :
    statusIssues value = [] ↔ truthy errorCode = true := by
  have hterminal := failedStatus_terminal errorCode
  rw [statusIssues_terminal members.status hterminal.1 members.exists_times]
  constructor
  · rintro ⟨-, hpresent, -⟩
    obtain ⟨x, hx⟩ := hpresent hterminal.2
    by_contra hfalsy
    rw [members.error, errorMembers_of_falsy (by simpa using hfalsy)] at hx
    cases hx
  · intro htruthy
    obtain ⟨code, rfl⟩ := exists_of_truthy htruthy
    have herror : value.get "error" = some (.obj [("code", code)]) := by
      rw [members.error, errorMembers_of_truthy htruthy]
      rfl
    have hcode : Useful.Actions.errorCode value = some code := by
      rw [Useful.Actions.errorCode, herror]
      rfl
    rw [hcode, herror]
    refine ⟨fun h => absurd h hterminal.2, fun _ => ⟨_, rfl⟩, ?_, ?_⟩
    · intro h
      by_contra hne
      rw [failedStatus, if_neg (mt isText_iff.mp hne)] at h
      exact absurd h (by decide)
    · intro h hcancelled
      rw [failedStatus, if_pos (isText_iff.mpr hcancelled)] at h
      exact absurd h (by decide)

/-- The error member passes when it is left out or its code is one. -/
theorem error_iff {errorCode : Option JsonValue} :
    IfPresent (fun x => ObjectWith ["code"] ["code"]
        (fun error => TextWith IsErrorCode (error.get "code")) (some x))
        ((errorMembers errorCode).lookup "error") ↔
      (truthy errorCode = true → TextWith IsErrorCode errorCode) := by
  cases htruthy : truthy errorCode with
  | false =>
      rw [errorMembers_of_falsy htruthy]
      simp [IfPresent]
  | true =>
      obtain ⟨code, rfl⟩ := exists_of_truthy htruthy
      rw [errorMembers_of_truthy htruthy]
      simp only [IfPresent, List.lookup_cons, beq_self_eq_true, Option.some.injEq, forall_eq', true_imp_iff]
      constructor
      · rintro ⟨members, heq, -, -, h⟩
        cases heq
        exact h
      · exact fun h => ⟨_, rfl, by simp [Json.keys], by simp [Json.keys], h⟩

/-- Which of the receipts that an execution makes are valid. -/
theorem validReceipt_iff {start done : Int} {status : String} {errorCode : Option JsonValue}
    (members : ReceiptMembers copied (String.ofList (isoText start)) (String.ofList (isoText done)) status
      durationMs errorCode value)
    (hdone : start + durationMs = done) (hstatus : status ∈ TERMINAL_STATUSES) :
    ValidReceipt otherDate value ↔
      CopiedFits copied ∧ FourDigitYear start ∧ FourDigitYear done ∧
        (truthy errorCode = true → TextWith IsErrorCode errorCode) ∧ statusIssues value = [] := by
  constructor
  · intro h
    have haction := h.actionId
    have hversion := h.actionVersion
    have hcontract := h.contractVersion
    have hsource := h.source
    have hcreated := h.createdAt
    have hcompleted := h.completedAt _ members.completedAt
    have herror := h.error
    obtain ⟨_, hpermissions, -, -, hrequired, hcapabilities⟩ := h.permissions
    rw [members.actionId] at haction
    rw [members.actionVersion] at hversion
    rw [members.contractVersion] at hcontract
    rw [members.source] at hsource
    rw [members.createdAt, timestamp_isoText] at hcreated
    rw [timestamp_isoText] at hcompleted
    rw [members.error, error_iff] at herror
    rw [members.permissions] at hpermissions
    cases hpermissions
    exact ⟨⟨haction, hversion, hcontract, hsource, hrequired, hcapabilities⟩, hcreated, hcompleted,
      herror, h.statusMembers⟩
  · rintro ⟨fits, hstart, hend, herror, hstatusIssues⟩
    have hduration : (durationMs : ℚ) ≤ 9007199254740991 := by
      have hlow := hstart.bounds.1
      have hhigh := hend.bounds.2
      have : durationMs ≤ 9007199254740991 := by omega
      exact_mod_cast this
    have horder : orderIssues otherDate value = [] := by
      unfold orderIssues
      rw [members.createdAt, members.startedAt, members.completedAt, dateParse_isoText hstart,
        dateParse_isoText hend]
      simp only [List.append_eq_nil_iff, issueIf_eq_nil, precedes, decide_eq_true_eq]
      omega
    obtain ⟨entries, rfl⟩ := Json.exists_obj_of_get members.status
    refine ⟨⟨entries, rfl, ?_, ?_, trivial⟩, members.receiptVersion, ?_, ?_, ?_, ?_, ?_, ?_, ?_, ?_, ?_,
      ?_, ?_, hstatusIssues, horder⟩
    · rw [members.keys]
      simp
    · rw [members.keys]
      intro key hkey
      rw [List.mem_append] at hkey
      exact List.mem_append.mpr (hkey.imp_right fun herror => by simp [eq_error_of_mem herror])
    · rw [members.actionId]
      exact fits.actionId
    · rw [members.actionVersion]
      exact fits.version
    · rw [members.contractVersion]
      exact fits.contractVersion
    · rw [members.source]
      exact fits.source
    · rw [members.permissions]
      exact ⟨_, rfl, by simp [Json.keys], by simp [Json.keys], fits.required, fits.capabilities⟩
    · rw [members.status]
      exact ⟨status, rfl, terminal_subset hstatus⟩
    · rw [members.createdAt]
      exact timestamp_isoText.mpr hstart
    · intro x hx
      obtain rfl := Option.some.inj (members.startedAt.symm.trans hx)
      exact timestamp_isoText.mpr hstart
    · intro x hx
      obtain rfl := Option.some.inj (members.completedAt.symm.trans hx)
      exact timestamp_isoText.mpr hend
    · intro x hx
      obtain rfl := Option.some.inj (members.durationMs.symm.trans hx)
      exact ⟨durationMs, rfl, by simp [Rat.isInt], Nat.cast_nonneg _, hduration⟩
    · rw [members.error]
      exact error_iff.mpr herror

end Members

end Receipt

/-! ## Descriptors with a receipt -/

/-- The parts of a descriptor that a receipt repeats keep to the rules for receipts. -/
structure ReceiptFits (descriptor : JsonValue) : Prop where
  actionId : TextWith (fun s => utf16Length s ≤ 200) (descriptor.get "actionId")
  version : TextWith (fun s => utf16Length s ≤ 128) (descriptor.get "version")
  toolId : TextWith (BoundedText 256) (field descriptor ["source", "toolId"])
  publisherId : TextWith (BoundedText 256) (field descriptor ["source", "publisher", "id"])
  publisherName : IfPresent (fun x => TextWith (BoundedText 256) (some x))
    (field descriptor ["source", "publisher", "name"])
  required : TextList 128 (BoundedText 256) (field descriptor ["permissions", "required"])
  capabilities : TextList 128 (BoundedText 256) (field descriptor ["permissions", "capabilities"])

theorem field_cons {value x : JsonValue} {key : String} {keys : List String}
    (h : value.get key = some x) : field value (key :: keys) = field x keys := by
  rw [field, List.foldlM_cons, h]
  rfl

theorem field_single (value : JsonValue) (key : String) : field value [key] = value.get key := by
  rw [field, List.foldlM_cons]
  cases value.get key <;> rfl

theorem boundedText_digest {s : String} (h : s.toList ∈ SHA256.lang) : BoundedText 64 s := by
  obtain ⟨hlength, hall⟩ := Regex.mem_times_cls.mp h
  have hsmall : ∀ c ∈ s.toList, c.toNat < 0x10000 := by
    intro c hc
    have hdigit := hall c hc
    simp only [isDigit, Bool.or_eq_true, Bool.and_eq_true, decide_eq_true_eq] at hdigit
    rcases hdigit with ⟨-, hle⟩ | ⟨-, hle⟩
    · exact lt_of_le_of_lt (show c.toNat ≤ 'f'.toNat from hle) (by decide)
    · exact lt_of_le_of_lt (show c.toNat ≤ '9'.toNat from hle) (by decide)
  refine ⟨?_, ?_, not_absolute_sha256 h⟩
  · rintro rfl
    cases hlength
  · rw [utf16Length, length_utf16 hsmall, hlength]

theorem boundedText_contractVersion : BoundedText 32 CONTRACT_VERSION := by
  refine ⟨by decide, by decide, not_absolute_path ?_⟩
  simp [CONTRACT_VERSION]

/-- What is copied from an accepted descriptor. -/
theorem copied_of_wellFormed {descriptor : JsonValue} (h : WellFormed descriptor) :
    ∃ copied : Copied,
      spread (field descriptor ["permissions", "required"]) = .ok copied.required ∧
      spread (field descriptor ["permissions", "capabilities"]) = .ok copied.capabilities ∧
      copyDescriptor descriptor copied.required copied.capabilities = .ok copied ∧
      (CopiedFits copied ↔ ReceiptFits descriptor) := by
  obtain ⟨action, haction, hactionId, -⟩ := h.actionId
  obtain ⟨version, hversion, hsemver⟩ := h.version
  have hcontract := h.contractVersion
  obtain ⟨sourceMembers, hsource, hsourceKeys, hsourceAllowed, source⟩ := h.source
  obtain ⟨publisherMembers, hpublisher, hpublisherKeys, hpublisherAllowed, hpublisherId⟩ :=
    source.publisher
  obtain ⟨permissionMembers, hpermissions, -, -, permissions⟩ := h.permissions
  obtain ⟨required, hrequired, -⟩ := permissions.required
  obtain ⟨capabilities, hcapabilities, -⟩ := permissions.capabilities
  have hrequired' : field descriptor ["permissions", "required"] = some (.arr (required.map .str)) := by
    rw [field_cons hpermissions, field_single, hrequired]
  have hcapabilities' : field descriptor ["permissions", "capabilities"] =
      some (.arr (capabilities.map .str)) := by
    rw [field_cons hpermissions, field_single, hcapabilities]
  refine ⟨⟨.str action, .str version, .str CONTRACT_VERSION, .obj sourceMembers, required.map .str,
    capabilities.map .str⟩, by rw [hrequired']; rfl, by rw [hcapabilities']; rfl, ?_, ?_⟩
  · rw [copyDescriptor, haction, hversion, hcontract, hsource]
    rfl
  · constructor
    · intro fits
      obtain ⟨_, hmembers, -, -, copiedSource⟩ := fits.source
      cases hmembers
      obtain ⟨_, hpublisher', -, -, copiedPublisher⟩ := copiedSource.publisher
      rw [hpublisher] at hpublisher'
      cases hpublisher'
      refine ⟨?_, ?_, ?_, ?_, ?_, ?_, ?_⟩
      · exact haction ▸ fits.actionId.imp fun s hs => hs.1.2.1
      · exact hversion ▸ fits.version.imp fun s hs => hs.1.2.1
      · rw [field_cons hsource, field_single]
        exact copiedSource.toolId
      · rw [field_cons hsource, field_cons hpublisher, field_single]
        exact copiedPublisher.id
      · rw [field_cons hsource, field_cons hpublisher, field_single]
        exact copiedPublisher.name
      · exact hrequired' ▸ fits.required
      · exact hcapabilities' ▸ fits.capabilities
    · intro fits
      have htool := fits.toolId
      have hid := fits.publisherId
      have hname := fits.publisherName
      have hrequiredTexts := fits.required
      have hcapabilityTexts := fits.capabilities
      rw [field_cons hsource, field_single] at htool
      rw [field_cons hsource, field_cons hpublisher, field_single] at hid hname
      rw [hrequired'] at hrequiredTexts
      rw [hcapabilities'] at hcapabilityTexts
      refine ⟨?_, ?_, ⟨_, rfl, boundedText_contractVersion⟩, ?_, hrequiredTexts, hcapabilityTexts⟩
      · obtain ⟨s, hs, hlength⟩ := fits.actionId
        cases haction.symm.trans hs
        refine ⟨action, rfl, ⟨?_, hlength, not_absolute_actionId hactionId⟩, hactionId⟩
        rintro rfl
        revert hactionId
        rw [← Regex.test_iff]
        decide
      · obtain ⟨s, hs, hlength⟩ := fits.version
        cases hversion.symm.trans hs
        refine ⟨version, rfl, ⟨?_, hlength, not_absolute_semver hsemver⟩, hsemver⟩
        rintro rfl
        revert hsemver
        rw [← Regex.test_iff]
        decide
      · refine ⟨_, rfl, hsourceKeys, hsourceAllowed, source.kind, htool, ?_, ?_⟩
        · exact source.digest.imp fun s hs => ⟨boundedText_digest hs, hs⟩
        · exact ⟨_, hpublisher, hpublisherKeys, hpublisherAllowed, hid, hname⟩

/-! ## Making a receipt -/

section Making

variable {otherDate : Option JsonValue → Option Int} {descriptor : JsonValue} {text status : String}
  {start : Int} {elapsedMs : Nat} {errorCode : Option JsonValue}

theorem text_of_toISOString {ms : Int} (h : toISOString ms = some text) :
    text = String.ofList (isoText ms) := by
  unfold toISOString at h
  split_ifs at h
  exact (Option.some.inj h).symm

/-- A receipt that was made is valid, and its status is the one it was made with. -/
theorem valid_of_makeReceipt {receipt : JsonValue}
    (h : makeReceipt otherDate descriptor text elapsedMs status errorCode = .ok receipt) :
    validateExecutionReceipt otherDate receipt = [] ∧
      receipt.get "status" = some (.str status) := by
  unfold makeReceipt at h
  simp only [bind_eq_ok, failIf_eq_ok, pure_eq_ok] at h
  obtain ⟨required, -, capabilities, -, completedAt, -, copied, -, -, hvalid, rfl⟩ := h
  exact ⟨not_not.mp hvalid, (receiptMembers _ _ _ _ _ _).status⟩

/-- When a receipt can be made. `P` is what its status asks of the error code. -/
theorem makeReceipt_ok_iff (h : WellFormed descriptor) (hstart : toISOString start = some text)
    (hstatus : status ∈ TERMINAL_STATUSES) {P : Prop}
    (hP : ∀ {copied startedAt completedAt value},
      ReceiptMembers copied startedAt completedAt status elapsedMs errorCode value →
        ((truthy errorCode = true → TextWith IsErrorCode errorCode) ∧ statusIssues value = [] ↔ P)) :
    (∃ receipt, makeReceipt otherDate descriptor text elapsedMs status errorCode = .ok receipt) ↔
      ReceiptFits descriptor ∧ FourDigitYear start ∧ FourDigitYear (start + elapsedMs) ∧ P := by
  obtain ⟨copied, hrequired, hcapabilities, hcopied, hfits⟩ := copied_of_wellFormed h
  obtain rfl := text_of_toISOString hstart
  have hmake : (∃ receipt, makeReceipt otherDate descriptor (String.ofList (isoText start)) elapsedMs
      status errorCode = .ok receipt) ↔
      ∃ completedAt, ((dateParse otherDate (some (.str (String.ofList (isoText start))))).bind
          fun ms => toISOString (ms + elapsedMs)) = some completedAt ∧
        ValidReceipt otherDate (receiptValue copied (String.ofList (isoText start)) completedAt status
          elapsedMs errorCode) := by
    unfold makeReceipt
    simp only [hrequired, hcapabilities, hcopied, bind_eq_ok, failIf_eq_ok, pure_eq_ok, orFail_eq_ok,
      Except.ok.injEq, exists_eq_left', not_not, validateExecutionReceipt_eq_nil]
    constructor
    · rintro ⟨receipt, completedAt, hcompleted, -, hvalid, -⟩
      exact ⟨completedAt, hcompleted, hvalid⟩
    · rintro ⟨completedAt, hcompleted, hvalid⟩
      exact ⟨_, completedAt, hcompleted, ⟨⟩, hvalid, rfl⟩
  rw [hmake]
  constructor
  · rintro ⟨completedAt, hcompleted, hvalid⟩
    have hyear : FourDigitYear start := by
      have hcreated := hvalid.createdAt
      rwa [(receiptMembers _ _ _ _ _ _).createdAt, timestamp_isoText] at hcreated
    rw [dateParse_isoText hyear, Option.bind_some] at hcompleted
    obtain rfl := text_of_toISOString hcompleted
    have members := receiptMembers copied (String.ofList (isoText start))
      (String.ofList (isoText (start + elapsedMs))) status elapsedMs errorCode
    obtain ⟨fits, -, hend, herror, hissues⟩ := (validReceipt_iff members rfl hstatus).mp hvalid
    exact ⟨hfits.mp fits, hyear, hend, (hP members).mp ⟨herror, hissues⟩⟩
  · rintro ⟨fits, hyear, hend, herror⟩
    refine ⟨String.ofList (isoText (start + elapsedMs)), ?_, ?_⟩
    · rw [dateParse_isoText hyear, Option.bind_some, toISOString_of_fourDigitYear hend]
    · have members := receiptMembers copied (String.ofList (isoText start))
        (String.ofList (isoText (start + elapsedMs))) status elapsedMs errorCode
      exact (validReceipt_iff members rfl hstatus).mpr
        ⟨hfits.mpr fits, hyear, hend, (hP members).mpr herror⟩

theorem makeReceipt_success_iff (h : WellFormed descriptor) (hstart : toISOString start = some text) :
    (∃ receipt, makeReceipt otherDate descriptor text elapsedMs "success" none = .ok receipt) ↔
      ReceiptFits descriptor ∧ FourDigitYear start ∧ FourDigitYear (start + elapsedMs) := by
  rw [makeReceipt_ok_iff h hstart (by decide) (P := True), and_true]
  intro _ _ _ _ members
  exact iff_true_intro ⟨fun htruthy => absurd htruthy (by decide), statusIssues_success members⟩

theorem makeReceipt_failed_iff (h : WellFormed descriptor) (hstart : toISOString start = some text) :
    (∃ receipt, makeReceipt otherDate descriptor text elapsedMs (failedStatus errorCode) errorCode =
        .ok receipt) ↔
      ReceiptFits descriptor ∧ FourDigitYear start ∧ FourDigitYear (start + elapsedMs) ∧
        TextWith IsErrorCode errorCode := by
  refine makeReceipt_ok_iff h hstart (failedStatus_terminal errorCode).1 ?_
  intro _ _ _ _ members
  rw [statusIssues_failed members]
  constructor
  · exact fun herror => herror.1 herror.2
  · exact fun hcode => ⟨fun _ => hcode, truthy_of_isErrorCode hcode⟩

end Making

/-! ## The end of an execution -/

section Ends

variable (otherDate : Option JsonValue → Option Int) (numberText : ℚ → String)

/-- An execution ends with an output and a receipt or with an error that carries one. The
receipt is valid, and its status tells which. -/
def EndsWithReceipt (outcome : Except Failure (Returned × JsonValue)) : Prop :=
  match outcome with
  | .ok (_, receipt) =>
      validateExecutionReceipt otherDate receipt = [] ∧ receipt.get "status" = some (.str "success")
  | .error (.execution code _ receipt) =>
      validateExecutionReceipt otherDate receipt = [] ∧
        receipt.get "status" = some (.str (failedStatus code))
  | .error _ => False

/-- A receipt that is made now passes its validator. -/
structure Receiptable (descriptor : JsonValue) (clock : Clock) : Prop where
  fits : ReceiptFits descriptor
  start : FourDigitYear clock.startedAt
  completion : FourDigitYear (clock.startedAt + clock.elapsedMs)

/-- When a code that is read twice is one of some, it is an error code at the second time too. -/
def SteadyAmong (codes : List String) (read : Nat → Option (Option JsonValue)) : Prop :=
  ∃ code, read 0 = some code ∧
    (stringWith (· ∈ codes) code = true → ∃ again, read 1 = some again ∧ TextWith IsErrorCode again)

/-- A thrown value whose codes can be read, and stay codes. -/
def Thrown.Steady (cause : Thrown) : Prop :=
  ∃ isExecutionError, cause.isExecutionError = some isExecutionError ∧
    (isExecutionError = true → SteadyAmong ["TIMEOUT", "CANCELLED"] cause.code) ∧
    ((isExecutionError = true → ∀ code, cause.code 0 = some code →
        stringWith (· ∈ ["TIMEOUT", "CANCELLED"]) code = false) →
      SteadyAmong ["INPUT_INVALID", "INPUT_TOO_LARGE", "OUTPUT_INVALID", "OUTPUT_TOO_LARGE"]
        cause.actionCode)

/-- A returned value that the output schema can be compared with, unless it is refused before. -/
def Returned.Readable (descriptor : JsonValue) (output : Returned) : Prop :=
  ∀ bytes, output.bytes numberText = some bytes →
    exceeds bytes (field descriptor ["execution", "maxOutputBytes"]) = false →
      (output.issues numberText (descriptor.get "outputSchema")).isSome = true

/-- What a handler returns can be compared, and what it throws is steady. -/
def Settlement.Orderly (descriptor : JsonValue) : Settlement → Prop
  | .timer | .abort => True
  | .resolved output => output.Readable numberText descriptor
  | .rejected cause => cause.Steady

theorem isErrorCode_of_mem {s : String}
    (h : s ∈ ["NOT_HEADLESS", "CONFIRMATION_REQUIRED", "PERMISSION_DENIED", "INPUT_TOO_LARGE",
      "INPUT_INVALID", "OUTPUT_INVALID", "OUTPUT_TOO_LARGE", "TIMEOUT", "CANCELLED", "ACTION_FAILED"]) :
    IsErrorCode s := by
  have hcode : ∀ s ∈ ["NOT_HEADLESS", "CONFIRMATION_REQUIRED", "PERMISSION_DENIED", "INPUT_TOO_LARGE",
      "INPUT_INVALID", "OUTPUT_INVALID", "OUTPUT_TOO_LARGE", "TIMEOUT", "CANCELLED", "ACTION_FAILED"],
      s ≠ "" ∧ utf16Length s ≤ 64 ∧ ABSOLUTE_PATH.test s.toList = false ∧
        ERROR_CODE.test s.toList = true := by
    decide
  obtain ⟨hne, hlength, hpath, htest⟩ := hcode s h
  refine ⟨⟨hne, hlength, fun hmem => ?_⟩, Regex.test_iff.mp htest⟩
  rw [← Regex.test_iff, hpath] at hmem
  cases hmem

variable {otherDate numberText}

section Fail

variable {descriptor : JsonValue} {clock : Clock} {text : String}

/-- A reported failure ends with a receipt when one can be made for its code. -/
theorem fail_ends_iff (h : WellFormed descriptor) (hstart : toISOString clock.startedAt = some text)
    {code : Option JsonValue} {issues : List Issue} :
    EndsWithReceipt otherDate (fail otherDate descriptor text clock.elapsedMs code issues) ↔
      Receiptable descriptor clock ∧ TextWith IsErrorCode code := by
  have hiff : (∃ receipt, makeReceipt otherDate descriptor text clock.elapsedMs (failedStatus code) code =
      .ok receipt) ↔ _ := makeReceipt_failed_iff h hstart
  have hstatus : (if isText code "CANCELLED" = true then "cancelled" else "error") = failedStatus code :=
    rfl
  unfold fail
  dsimp only
  rw [hstatus]
  cases hmake : makeReceipt otherDate descriptor text clock.elapsedMs (failedStatus code) code with
  | error e =>
      refine iff_of_false (fun hends => hends) ?_
      rintro ⟨⟨fits, hyear, hend⟩, hcode⟩
      obtain ⟨receipt, hreceipt⟩ := hiff.mpr ⟨fits, hyear, hend, hcode⟩
      rw [hmake] at hreceipt
      cases hreceipt
  | ok receipt =>
      obtain ⟨fits, hyear, hend, hcode⟩ := hiff.mp ⟨receipt, hmake⟩
      exact iff_of_true (valid_of_makeReceipt hmake) ⟨⟨fits, hyear, hend⟩, hcode⟩

/-- A failure with one of the codes of the executor. -/
theorem fail_ends_iff_of_mem (h : WellFormed descriptor)
    (hstart : toISOString clock.startedAt = some text) {code : String} {issues : List Issue}
    (hcode : IsErrorCode code) :
    EndsWithReceipt otherDate
        (fail otherDate descriptor text clock.elapsedMs (some (.str code)) issues) ↔
      Receiptable descriptor clock := by
  rw [fail_ends_iff h hstart]
  exact and_iff_left ⟨code, rfl, hcode⟩

end Fail

/-! ### What was thrown or returned -/

theorem codeAmong_ok_iff {codes : List String} {read : Nat → Option (Option JsonValue)}
    {result : Option (Option JsonValue)} :
    codeAmong codes read = .ok result ↔
      ∃ code, read 0 = some code ∧
        (stringWith (· ∈ codes) code = true ∧ (∃ again, read 1 = some again ∧ result = some again) ∨
          stringWith (· ∈ codes) code = false ∧ result = none) := by
  unfold codeAmong
  simp only [bind_eq_ok, orFail_eq_ok]
  refine exists_congr fun code => and_congr_right fun _ => ?_
  cases hmem : stringWith (· ∈ codes) code with
  | true =>
      simp only [if_true, bind_eq_ok, orFail_eq_ok, pure_eq_ok, true_and, reduceCtorEq, false_and, or_false]
      exact exists_congr fun _ => and_congr_right fun _ => eq_comm
  | false =>
      simp only [Bool.false_eq_true, if_false, pure_eq_ok, false_and, false_or, true_and]
      exact eq_comm

theorem steadyAmong_iff {codes : List String} {read : Nat → Option (Option JsonValue)} :
    SteadyAmong codes read ↔
      ∃ result, codeAmong codes read = .ok result ∧ ∀ code, result = some code → TextWith IsErrorCode code := by
  simp only [codeAmong_ok_iff]
  constructor
  · rintro ⟨code, hcode, hagain⟩
    cases hmem : stringWith (· ∈ codes) code with
    | true =>
        obtain ⟨again, hread, herror⟩ := hagain hmem
        refine ⟨some again, ⟨code, hcode, .inl ⟨hmem, again, hread, rfl⟩⟩, ?_⟩
        rintro _ ⟨⟩
        exact herror
    | false => exact ⟨none, ⟨code, hcode, .inr ⟨hmem, rfl⟩⟩, by simp⟩
  · rintro ⟨result, ⟨code, hcode, hresult⟩, herror⟩
    refine ⟨code, hcode, fun hmem => ?_⟩
    rcases hresult with ⟨-, again, hread, rfl⟩ | ⟨hno, -⟩
    · exact ⟨again, hread, herror again rfl⟩
    · rw [hmem] at hno
      cases hno

/-- A steady value is reported with an error code. -/
theorem steady_iff {cause : Thrown} :
    cause.Steady ↔ ∃ code, failureCode cause = .ok code ∧ TextWith IsErrorCode code := by
  have hfailed : TextWith IsErrorCode (some (.str "ACTION_FAILED")) :=
    ⟨_, rfl, isErrorCode_of_mem (by decide)⟩
  have haction (read : Nat → Option (Option JsonValue)) (codes : List String) :
      SteadyAmong codes read ↔ ∃ code, (∃ result, codeAmong codes read = .ok result ∧
        result.getD (some (.str "ACTION_FAILED")) = code) ∧ TextWith IsErrorCode code := by
    rw [steadyAmong_iff]
    constructor
    · rintro ⟨result, hresult, herror⟩
      refine ⟨_, ⟨result, hresult, rfl⟩, ?_⟩
      cases result with
      | none => exact hfailed
      | some code => exact herror code rfl
    · rintro ⟨_, ⟨result, hresult, rfl⟩, herror⟩
      refine ⟨result, hresult, ?_⟩
      rintro code rfl
      exact herror
  unfold Thrown.Steady failureCode
  cases hkind : cause.isExecutionError with
  | none => simp [orFail, bind_eq_ok]
  | some isExecutionError =>
      cases isExecutionError with
      | false =>
          simp only [orFail_eq_ok, bind_eq_ok, Option.some.injEq, exists_eq_left', Bool.false_eq_true,
            if_false, pure_eq_ok, false_imp_iff, true_and, true_imp_iff]
          exact haction _ _
      | true =>
          simp only [orFail_eq_ok, bind_eq_ok, Option.some.injEq, exists_eq_left', if_true, true_imp_iff]
          constructor
          · rintro ⟨hown, hother⟩
            obtain ⟨result, hresult, herror⟩ := steadyAmong_iff.mp hown
            cases result with
            | some code => exact ⟨code, ⟨some code, hresult, rfl⟩, herror code rfl⟩
            | none =>
                obtain ⟨code, hcode, ⟨-, again, -, hagain⟩ | ⟨hno, -⟩⟩ := codeAmong_ok_iff.mp hresult
                · cases hagain
                · obtain ⟨last, ⟨again, hagain, hlast⟩, herror⟩ := (haction _ _).mp (hother (by
                    intro code' hcode'
                    cases hcode.symm.trans hcode'
                    exact hno))
                  refine ⟨last, ⟨none, hresult, ?_⟩, herror⟩
                  rw [bind_of_eq_ok hagain, ← hlast]
                  rfl
          · rintro ⟨code, ⟨result, hresult, hmatch⟩, herror⟩
            cases result with
            | some own =>
                obtain rfl := pure_eq_ok.mp hmatch
                refine ⟨steadyAmong_iff.mpr ⟨some own, hresult, ?_⟩, fun hno => ?_⟩
                · rintro _ ⟨⟩
                  exact herror
                · obtain ⟨code, hcode, ⟨hmem, -⟩ | ⟨-, hnone⟩⟩ := codeAmong_ok_iff.mp hresult
                  · rw [hno code hcode] at hmem
                    cases hmem
                  · cases hnone
            | none =>
                obtain ⟨again, hagain, hlast⟩ := bind_eq_ok.mp hmatch
                refine ⟨steadyAmong_iff.mpr ⟨none, hresult, by simp⟩, fun _ => ?_⟩
                exact (haction _ _).mpr ⟨code, ⟨again, hagain, pure_eq_ok.mp hlast⟩, herror⟩

/-! ### The whole execution -/

section Finish

variable {descriptor : JsonValue} {clock : Clock} {text : String}

theorem success_ends_iff (h : WellFormed descriptor) (hstart : toISOString clock.startedAt = some text)
    {output : Returned} :
    EndsWithReceipt otherDate ((makeReceipt otherDate descriptor text clock.elapsedMs "success"
        none).mapError .escaped >>= fun receipt => return (output, receipt)) ↔
      Receiptable descriptor clock := by
  have hiff : (∃ receipt, makeReceipt otherDate descriptor text clock.elapsedMs "success" none =
      .ok receipt) ↔ _ := makeReceipt_success_iff h hstart
  cases hmake : makeReceipt otherDate descriptor text clock.elapsedMs "success" none with
  | error e =>
      refine iff_of_false (fun hends => hends) ?_
      rintro ⟨fits, hyear, hend⟩
      obtain ⟨receipt, hreceipt⟩ := hiff.mpr ⟨fits, hyear, hend⟩
      rw [hmake] at hreceipt
      cases hreceipt
  | ok receipt =>
      obtain ⟨fits, hyear, hend⟩ := hiff.mp ⟨receipt, hmake⟩
      exact iff_of_true (valid_of_makeReceipt hmake) ⟨fits, hyear, hend⟩

/-- What was thrown is reported. -/
theorem finish_thrown_ends_iff (h : WellFormed descriptor)
    (hstart : toISOString clock.startedAt = some text) {cause : Thrown} :
    EndsWithReceipt otherDate
        (finish otherDate numberText descriptor text clock.elapsedMs (.error cause)) ↔
      Receiptable descriptor clock ∧ cause.Steady := by
  have hfinish : finish otherDate numberText descriptor text clock.elapsedMs (.error cause) =
      (failureCode cause).mapError .escaped >>= fun code =>
        fail otherDate descriptor text clock.elapsedMs code [] := rfl
  rw [hfinish, steady_iff]
  cases hcode : failureCode cause with
  | error e => exact iff_of_false (fun hends => hends) (by simp)
  | ok code =>
      refine (fail_ends_iff h hstart).trans (and_congr_right fun _ => ?_)
      simp

theorem steady_executionError {code : String} (hcode : code ∈ ["TIMEOUT", "CANCELLED"]) :
    (Thrown.executionError code).Steady := by
  have herror : IsErrorCode code := by
    apply isErrorCode_of_mem
    revert code
    decide
  refine ⟨true, rfl, fun _ => ⟨_, rfl, fun _ => ⟨_, rfl, code, rfl, herror⟩⟩, fun hno => ?_⟩
  have hmem := hno rfl _ rfl
  simp [stringWith, hcode] at hmem

/-- What was returned is checked. -/
theorem finish_returned {output : Returned} :
    finish otherDate numberText descriptor text clock.elapsedMs (.ok output) =
      (outputRefusal numberText descriptor output).mapError .escaped >>= fun refused =>
        match refused with
        | some (code, issues) => fail otherDate descriptor text clock.elapsedMs (some (.str code)) issues
        | none => (makeReceipt otherDate descriptor text clock.elapsedMs "success" none).mapError
            .escaped >>= fun receipt => return (output, receipt) :=
  rfl

theorem finish_returned_ends_iff (h : WellFormed descriptor)
    (hstart : toISOString clock.startedAt = some text) {output : Returned} :
    EndsWithReceipt otherDate
        (finish otherDate numberText descriptor text clock.elapsedMs (.ok output)) ↔
      Receiptable descriptor clock ∧ output.Readable numberText descriptor := by
  have hinvalid : IsErrorCode "OUTPUT_INVALID" := isErrorCode_of_mem (by decide)
  have hlarge : IsErrorCode "OUTPUT_TOO_LARGE" := isErrorCode_of_mem (by decide)
  rw [finish_returned]
  unfold outputRefusal Returned.Readable
  cases hbytes : output.bytes numberText with
  | none =>
      refine (fail_ends_iff_of_mem h hstart hinvalid).trans ?_
      simp
  | some bytes =>
      cases hexceeds : exceeds bytes (field descriptor ["execution", "maxOutputBytes"]) with
      | true =>
          simp only [hexceeds, if_true]
          refine (fail_ends_iff_of_mem h hstart hlarge).trans ?_
          simp [hexceeds]
      | false =>
          simp only [hexceeds, Option.some.injEq, forall_eq', true_imp_iff]
          cases hissues : output.issues numberText (descriptor.get "outputSchema") with
          | none => exact iff_of_false (fun hends => hends) (by simp)
          | some issues =>
              cases issues with
              | nil =>
                  refine (success_ends_iff h hstart).trans ?_
                  simp
              | cons issue issues =>
                  refine (fail_ends_iff_of_mem h hstart hinvalid).trans ?_
                  simp

/-- The end of an execution after the handler was called. -/
theorem finish_ends_iff (h : WellFormed descriptor) (hstart : toISOString clock.startedAt = some text)
    {settlement : Settlement} :
    EndsWithReceipt otherDate (finish otherDate numberText descriptor text clock.elapsedMs
        (guardedCall false settlement)) ↔
      Receiptable descriptor clock ∧ settlement.Orderly numberText descriptor := by
  cases settlement with
  | timer =>
      refine (finish_thrown_ends_iff h hstart).trans (and_congr_right fun _ => ?_)
      exact iff_of_true (steady_executionError (by decide)) trivial
  | abort =>
      refine (finish_thrown_ends_iff h hstart).trans (and_congr_right fun _ => ?_)
      exact iff_of_true (steady_executionError (by decide)) trivial
  | resolved output => exact finish_returned_ends_iff h hstart
  | rejected cause => exact finish_thrown_ends_iff h hstart

end Finish

/-- What registration makes sure of. -/
theorem Registered.accepted {H : Type} {registry : Registry H} (h : Registered registry) :
    ∀ entry ∈ registry, WellFormed entry.descriptor := by
  induction h with
  | empty => simp
  | register _ hregister ih =>
      rename_i entry _
      unfold Registry.register at hregister
      simp only [bind_eq_ok, failIf_eq_ok, pure_eq_ok, mapError_eq_ok] at hregister
      obtain ⟨issues, hissues, -, hnil, -, -, -, -, -, -, -, -, rfl⟩ := hregister
      rw [not_not.mp hnil] at hissues
      rw [List.forall_mem_append, List.forall_mem_singleton]
      exact ⟨ih, validateActionDescriptor_eq_nil.mp hissues⟩

theorem isErrorCode_of_refusal {descriptor input : JsonValue} {options : Options}
    {refused : String × List Issue} (h : refusal numberText descriptor input options = some refused) :
    IsErrorCode refused.1 := by
  apply isErrorCode_of_mem
  unfold refusal at h
  split_ifs at h
  · cases h
    decide
  · cases h
    decide
  · cases h
    decide
  · cases h
    decide
  · split at h
    · cases h
    · cases h
      simp

/-- An execution whose action is found and whose start has a text. -/
theorem execute_started {H : Type} {registry : Registry H} {call : H → JsonValue → Settlement}
    {clock : Clock} {actionId text : String} {input : JsonValue} {options : Options} {entry : Entry H}
    (hentry : registry.resolve actionId = some entry)
    (hstart : toISOString clock.startedAt = some text) :
    execute otherDate numberText registry call clock actionId input options =
      match entry.handler with
      | none => fail otherDate entry.descriptor text clock.elapsedMs (some (.str "NOT_HEADLESS")) []
      | some handler =>
          match refusal numberText entry.descriptor input options with
          | some (code, issues) =>
              fail otherDate entry.descriptor text clock.elapsedMs (some (.str code)) issues
          | none =>
              finish otherDate numberText entry.descriptor text clock.elapsedMs
                (guardedCall options.aborted (call handler input)) := by
  rw [execute, hentry, hstart]
  rfl

/-- When the execution of a registered action ends with a valid receipt: the descriptor and the
clock allow one, and if the handler was called, its result is orderly. -/
theorem execute_ends_iff {H : Type} {registry : Registry H} (hregistered : Registered registry)
    {call : H → JsonValue → Settlement} {clock : Clock} {actionId : String} {input : JsonValue}
    {options : Options} {entry : Entry H} (hentry : registry.resolve actionId = some entry) :
    EndsWithReceipt otherDate
        (execute otherDate numberText registry call clock actionId input options) ↔
      Receiptable entry.descriptor clock ∧
        ∀ handler, entry.handler = some handler →
          refusal numberText entry.descriptor input options = none → options.aborted = false →
            (call handler input).Orderly numberText entry.descriptor := by
  have h : WellFormed entry.descriptor := hregistered.accepted entry (List.mem_of_find?_eq_some hentry)
  cases hstart : toISOString clock.startedAt with
  | none =>
      have hexecute : execute otherDate numberText registry call clock actionId input options =
          .error (.escaped .rangeError) := by
        rw [execute, hentry, hstart]
        rfl
      rw [hexecute]
      refine iff_of_false (fun hends => hends) ?_
      rintro ⟨⟨-, hyear, -⟩, -⟩
      rw [toISOString_of_fourDigitYear hyear] at hstart
      cases hstart
  | some text =>
      rw [execute_started hentry hstart]
      have hrefused (code : String) (hcode : IsErrorCode code) (issues : List Issue) :
          EndsWithReceipt otherDate
              (fail otherDate entry.descriptor text clock.elapsedMs (some (.str code)) issues) ↔
            Receiptable entry.descriptor clock := fail_ends_iff_of_mem h hstart hcode
      cases hhandler : entry.handler with
      | none =>
          refine (hrefused "NOT_HEADLESS" (isErrorCode_of_mem (by decide)) []).trans ?_
          simp
      | some handler =>
          cases hrefusal : refusal numberText entry.descriptor input options with
          | some refused =>
              refine (hrefused refused.1 (isErrorCode_of_refusal hrefusal) refused.2).trans ?_
              simp
          | none =>
              cases haborted : options.aborted with
              | true =>
                  refine (finish_thrown_ends_iff h hstart).trans ?_
                  simp [steady_executionError]
              | false =>
                  refine (finish_ends_iff h hstart).trans ?_
                  simp

end Ends

/-- Which executions of registered actions end with a valid receipt, whatever the handler does. -/
theorem execution_has_receipt_iff {H : Type} (otherDate : Option JsonValue → Option Int)
    (numberText : ℚ → String) {registry : Registry H} (hregistered : Registered registry)
    {actionId : String} {entry : Entry H} (hentry : registry.resolve actionId = some entry)
    (call : H → JsonValue → Settlement) (clock : Clock) (input : JsonValue) (options : Options) :
    EndsWithReceipt otherDate
        (execute otherDate numberText registry call clock actionId input options) ↔
      Receiptable entry.descriptor clock ∧
        ∀ handler, entry.handler = some handler →
          refusal numberText entry.descriptor input options = none → options.aborted = false →
            (call handler input).Orderly numberText entry.descriptor :=
  execute_ends_iff hregistered hentry

/-! ## A local action -/

/-- An action on null with a tool id of one's choice. -/
def localEcho (toolId : String) : JsonValue :=
  .obj [
    ("contractVersion", .str "1.0"),
    ("actionId", .str "local.echo"),
    ("version", .str "1.0.0"),
    ("source", .obj [("kind", .str "local"), ("toolId", .str toolId),
      ("publisher", .obj [("id", .str "local")]),
      ("digest", .str "0000000000000000000000000000000000000000000000000000000000000000")]),
    ("title", .str "Echo"),
    ("description", .str "Echo"),
    ("keywords", .arr []),
    ("aliases", .arr []),
    ("inputSchema", .obj [("type", .str "null")]),
    ("outputSchema", .obj [("type", .str "null")]),
    ("examples", .arr []),
    ("testVectors", .arr [.obj [("name", .str "null"), ("input", .null), ("expectedOutput", .null)]]),
    ("execution", .obj [("mode", .str "pure"), ("handler", .str "echo"), ("timeoutMs", .num 1000),
      ("maxInputBytes", .num 1000), ("maxOutputBytes", .num 1000), ("supportsCancellation", .bool false)]),
    ("behavior", .obj [("readOnly", .bool true), ("destructive", .bool false), ("idempotent", .bool true),
      ("openWorld", .bool false), ("sideEffects", .arr []), ("requiresConfirmation", .bool false)]),
    ("permissions", .obj [("required", .arr []), ("capabilities", .arr [])]),
    ("sensitive", .obj [("input", .arr []), ("output", .arr []), ("redactLogs", .bool true)])]

theorem valueSchema_null : ValueSchema (.obj [("type", .str "null")]) := by
  refine .intro ⟨⟨_, rfl⟩, ?_, ?_, ?_, ?_, ?_, ?_, ?_, ?_, ?_, ?_⟩ ?_ ?_
  all_goals simp [Json.keys, Json.get, List.lookup_cons, List.lookup_nil, IfPresent, declaredTypes, TextWith, JSON_TYPES,
    SCHEMA_KEYS, includesType, isText]

theorem wellFormed_localEcho {toolId : String} (hne : toolId ≠ "")
    (hbuiltin : startsWith "builtin." toolId = false) : WellFormed (localEcho toolId) := by
  constructor
  case keys =>
    refine ⟨_, rfl, ?_, ?_, trivial⟩
    · exact show topRequired ⊆ topRequired from List.Subset.refl _
    · exact show topRequired ⊆ topAllowed from List.subset_append_left _ _
  case contractVersion => rfl
  case actionId => exact ⟨_, rfl, Regex.test_iff.mp (by decide), by simp [NotReserved, RESERVED_ACTION_NAMES]⟩
  case version => exact ⟨_, rfl, Regex.test_iff.mp (by decide)⟩
  case title => exact ⟨_, rfl, by decide⟩
  case description => exact ⟨_, rfl, by decide⟩
  case keywords => exact ⟨[], rfl, by decide, by decide, by decide⟩
  case aliases => exact ⟨[], rfl, by decide, by decide, by simp⟩
  case inputSchema => exact ⟨_, rfl, valueSchema_null⟩
  case outputSchema => exact ⟨_, rfl, valueSchema_null⟩
  case examples => exact ⟨_, rfl⟩
  case testVectors =>
    refine ⟨_, rfl, by simp, ?_⟩
    rw [List.forall_mem_singleton]
    exact ⟨_, rfl, by decide, by decide, by decide⟩
  case source =>
    refine ⟨_, rfl, ?_, ?_, ?_⟩
    · exact show ["kind", "toolId", "publisher", "digest"] ⊆ _ from List.Subset.refl _
    · exact show ["kind", "toolId", "publisher", "digest"] ⊆ _ from List.Subset.refl _
    · refine ⟨⟨_, rfl, by decide⟩, ⟨_, rfl, hne⟩, ⟨_, rfl, Regex.test_iff.mp (by decide)⟩,
        ⟨_, rfl, by decide, by decide, ⟨_, rfl, by decide⟩⟩, ?_, ?_, ?_⟩
      · intro h
        exact absurd h (by simp [Json.get])
      · refine fun _ => ⟨?_, ?_, ?_⟩
        · rintro _ ⟨⟩
          decide
        · rintro _ ⟨⟩
          exact hbuiltin
        · intro texts htexts s hs
          have hempty : texts.map Json.str = ([] : List JsonValue) :=
            (Json.arr.inj (Option.some.inj htexts)).symm
          rw [List.map_eq_nil_iff.mp hempty] at hs
          cases hs
      · intro h
        exact absurd h (by simp [Json.get])
  case execution =>
    refine ⟨_, rfl, by decide, by decide, ⟨_, rfl, by decide⟩, .inr ⟨?_, _, rfl, by decide⟩, ?_, ⟨_, rfl⟩⟩
    · simp [Json.get]
    · simp only [limits, List.forall_mem_cons, List.not_mem_nil, false_imp_iff, implies_true, and_true]
      refine ⟨⟨1000, rfl, rfl, ?_, ?_⟩, ⟨1000, rfl, rfl, ?_, ?_⟩, ⟨1000, rfl, rfl, ?_, ?_⟩⟩ <;> norm_num
  case behavior =>
    refine ⟨_, rfl, by decide, by decide, ?_, ⟨[], rfl, by decide, by decide, by decide⟩, ?_, ?_⟩
    · simp only [behaviorFlags, List.forall_mem_cons, List.not_mem_nil, false_imp_iff, implies_true,
        and_true]
      exact ⟨⟨_, rfl⟩, ⟨_, rfl⟩, ⟨_, rfl⟩, ⟨_, rfl⟩, ⟨_, rfl⟩⟩
    · intro h
      exact absurd h (by simp [Json.get, List.lookup_cons])
    · exact fun _ => ⟨rfl, rfl, rfl⟩
  case permissions =>
    refine ⟨_, rfl, by decide, by decide, ⟨[], rfl, by decide, by decide, by decide⟩,
      ⟨[], rfl, by decide, by decide, by decide⟩, fun _ => ⟨rfl, rfl⟩⟩
  case sensitive =>
    refine ⟨_, rfl, by decide, by decide, ?_, rfl⟩
    simp only [List.forall_mem_cons, List.not_mem_nil, false_imp_iff, implies_true, and_true]
    exact ⟨⟨[], rfl, by decide, by decide, by simp⟩, ⟨[], rfl, by decide, by decide, by simp⟩⟩
  case presentation =>
    intro x hx
    exact absurd hx (by simp [localEcho, Json.get, List.lookup_cons, List.lookup_nil])

section Local

/-- A registry with that action. -/
def localRegistry (toolId : String) : Registry Unit := [⟨localEcho toolId, some ()⟩]

theorem registered_localRegistry {toolId : String} (hne : toolId ≠ "")
    (hbuiltin : startsWith "builtin." toolId = false) : Registered (localRegistry toolId) := by
  have hnil := validateActionDescriptor_eq_nil.mpr (wellFormed_localEcho hne hbuiltin)
  have hregister : Registry.register [] ⟨localEcho toolId, some ()⟩ = .ok (localRegistry toolId) := by
    unfold Registry.register
    rw [hnil]
    rfl
  exact .register .empty hregister

/-- No one grants anything, and nothing is cancelled. -/
def plainOptions : Options := ⟨[], [], false, false⟩

theorem resolve_localRegistry (toolId : String) :
    (localRegistry toolId).resolve "local.echo" = some ⟨localEcho toolId, some ()⟩ :=
  rfl

/-- A tool id that is a path: the executions of the accepted action end without a receipt. -/
theorem path_tool_without_receipt :
    Registered (localRegistry "/tools/echo") ∧
      ¬ EndsWithReceipt (fun _ => none) (execute (fun _ => none) (fun _ => "")
        (localRegistry "/tools/echo") (fun _ _ => .resolved (.json .null)) ⟨0, 0⟩ "local.echo" .null
        plainOptions) := by
  have hregistered : Registered (localRegistry "/tools/echo") :=
    registered_localRegistry (by decide) (by decide)
  refine ⟨hregistered, fun hends => ?_⟩
  rw [execute_ends_iff hregistered (resolve_localRegistry _)] at hends
  obtain ⟨tool, htool, -, -, hpath⟩ := hends.1.fits.toolId
  obtain rfl : "/tools/echo" = tool := by
    have hfield : field (localEcho "/tools/echo") ["source", "toolId"] = some (.str "/tools/echo") := rfl
    simpa using hfield.symm.trans htool
  exact hpath (Regex.test_iff.mp (by decide))

/-- A plain tool id: the execution ends with a receipt. -/
theorem plain_tool_with_receipt :
    EndsWithReceipt (fun _ => none) (execute (fun _ => none) (fun _ => "") (localRegistry "echo")
      (fun _ _ => .resolved (.json .null)) ⟨0, 0⟩ "local.echo" .null plainOptions) := by
  have hregistered : Registered (localRegistry "echo") :=
    registered_localRegistry (by decide) (by decide)
  refine (execution_has_receipt_iff (fun _ => none) (fun _ => "") hregistered (resolve_localRegistry _)
    (fun _ _ => .resolved (.json .null)) ⟨0, 0⟩ .null plainOptions).mpr ⟨⟨?_, ?_, ?_⟩, ?_⟩
  · have htool : BoundedText 256 "echo" := ⟨by decide, by decide, not_absolute_path (by simp)⟩
    have hpublisher : BoundedText 256 "local" := ⟨by decide, by decide, not_absolute_path (by simp)⟩
    refine ⟨⟨_, rfl, by decide⟩, ⟨_, rfl, by decide⟩, ⟨_, rfl, htool⟩, ⟨_, rfl, hpublisher⟩, ?_, ⟨[], rfl, by decide, by decide, by simp⟩,
      ⟨[], rfl, by decide, by decide, by simp⟩⟩
    rintro x ⟨⟩
  · decide
  · decide
  · rintro handler - - -
    intro bytes _ _
    rfl

end Local

end Useful.Actions
