/-
# Accepting one role document

`verify_role_doc` checks the type, the specification version, the signatures and,
if asked, the expiry of one TUF document. `SignedBy` states what an accepted
document carries: as many authorised key ids as the threshold demands, each with
a signature that verifies. Whether these are as many keys is another matter,
since nothing ties a key id to its key.
-/

import Useful.Math.Threshold
import Useful.Tuf.Canonical

namespace Useful.Tuf

open Useful.Math

/-! ## Instants -/

def isAsciiDigit (c : Nat) : Bool := 48 ≤ c && c ≤ 57

/-- The bytes `YYYY-MM-DDTHH:MM:SSZ` has between its digits. -/
def separators : List (Nat × Nat) := [(4, 45), (7, 45), (10, 84), (13, 58), (16, 58), (19, 90)]

/-- The shape test of `parse_canonical_utc_seconds`. -/
def isCanonicalShape (b : List Nat) : Bool :=
  b.length == 20 && separators.all (fun s => b[s.1]? == some s.2) &&
    b.zipIdx.all fun c => separators.any (fun s => s.1 == c.2) || isAsciiDigit c.1

/-- The number written by the digits from `start` up to `stop`. -/
def number (b : List Nat) (start stop : Nat) : Int :=
  ((b.take stop).drop start).foldl (fun n digit => n * 10 + ((digit : Int) - 48)) 0

/-- Length of a month in the proleptic Gregorian calendar. -/
def monthDays (leap : Bool) (month : Int) : Int :=
  [31, if leap then 29 else 28, 31, 30, 31, 30, 31, 31, 30, 31, 30, 31].getD
    (month - 1).toNat 0

/-- Days from the Unix epoch to a civil date. -/
def daysFromCivil (year month day : Int) : Int :=
  let adjustedYear := year - if month ≤ 2 then 1 else 0
  let era := adjustedYear / 400
  let yoe := adjustedYear % 400
  let adjustedMonth := month + if month > 2 then -3 else 9
  let doy := (153 * adjustedMonth + 2) / 5 + day - 1
  let doe := yoe * 365 + yoe / 4 - yoe / 100 + doy
  era * 146097 + doe - 719468

/-- `parse_canonical_utc_seconds`. Offsets, fractions, leap seconds and
normalization of invalid dates are rejected. -/
def parseCanonicalUtcSeconds (value : String) : Except TufError Int :=
  let b := utf8 value.toList
  if ¬ isCanonicalShape b then
    .error (.malformed s!"expires 不是 canonical UTC RFC3339 秒精度: {value}")
  else
    let year := number b 0 4
    let month := number b 5 7
    let day := number b 8 10
    let hour := number b 11 13
    let minute := number b 14 16
    let second := number b 17 19
    let leap := year % 4 = 0 ∧ (year % 100 ≠ 0 ∨ year % 400 = 0)
    if ¬ (1 ≤ month ∧ month ≤ 12) ∨ day < 1 ∨ day > monthDays leap month ∨
        hour > 23 ∨ minute > 59 ∨ second > 59 then
      .error (.malformed s!"expires 日期或时间分量非法: {value}")
    else
      .ok (daysFromCivil year month day * 86400 + hour * 3600 + minute * 60 + second)

/-- The expiry test, of a role document and of the final root. -/
def checkExpiry (signed : Value) (ctx nowRfc3339 : String) : Except TufError Unit := do
  let expires ← signedStr signed "expires" ctx
  let expiresInstant ← parseCanonicalUtcSeconds expires
  let nowInstant ← (parseCanonicalUtcSeconds nowRfc3339).mapError fun _ =>
    .malformed s!"调用方当前时间不是 canonical UTC RFC3339: {nowRfc3339}"
  failIf (expiresInstant ≤ nowInstant) (.expired ctx expires)

/-- The document carries a canonical instant after the caller's time. -/
def Unexpired (signed : Value) (nowRfc3339 : String) : Prop :=
  ∃ expires expiresInstant nowInstant,
    (signed.get "expires").bind Value.asStr = some expires ∧
    parseCanonicalUtcSeconds expires = .ok expiresInstant ∧
    parseCanonicalUtcSeconds nowRfc3339 = .ok nowInstant ∧
    nowInstant < expiresInstant

/-! ## Signatures -/

section

variable (env : External)

/-- `verify_signature`: both texts are hexadecimal and of the right length. -/
def verifySignature (publicHex : String) (message : Bytes) (sigHex : String) : Bool :=
  match hexDecode publicHex.toList with
  | none => false
  | some pk =>
      if pk.length ≠ 32 then false
      else
        match hexDecode sigHex.toList with
        | none => false
        | some sig => if sig.length ≠ 64 then false else env.ed25519Verify pk message sig

/-- The signature loop of `verify_role_doc`, with the key ids seen so far. The
counter stays below the number of key ids of the role. -/
def signatureLoop (keys : List (String × String)) (role : RoleDef) (message : Bytes) :
    List TufSignature → List String → Nat → Nat
  | [], _, valid => valid
  | s :: rest, seen, valid =>
      if s.keyid ∉ role.keyids ∨ s.keyid ∈ seen then
        signatureLoop keys role message rest seen valid
      else
        match keys.lookup s.keyid with
        | none => signatureLoop keys role message rest seen valid
        | some publicHex =>
            if verifySignature env publicHex message s.sig then
              signatureLoop keys role message rest (s.keyid :: seen) (valid + 1)
            else
              signatureLoop keys role message rest seen valid

/-- `verify_role_doc`. -/
def verifyRoleDoc (doc : TufDoc) (keys : List (String × String)) (role : RoleDef)
    (expectedType nowRfc3339 : String) (expiry : Bool) : Except TufError Value := do
  let signed := doc.signed.tree
  let t ← signedStr signed "_type" expectedType
  failIf (t ≠ expectedType) (.malformed s!"{expectedType}: _type 不符（{t}）")
  let spec ← signedStr signed "spec_version" expectedType
  failIf (spec ≠ specVersion) (.malformed s!"{expectedType}: spec_version 不支持")
  let message ← canonicalJson signed
  let valid := signatureLoop env keys role (asBytes message) doc.signatures [] 0
  failIf (valid < role.threshold) (.thresholdNotMet expectedType valid role.threshold)
  if expiry then
    checkExpiry signed expectedType nowRfc3339
    return signed
  else
    return signed

/-- An entry signs when its key id is authorised and its signature verifies with
the key the table has for that id. -/
def entrySigns (keys : List (String × String)) (role : RoleDef) (message : Bytes)
    (s : TufSignature) : Bool :=
  s.keyid ∈ role.keyids &&
    match keys.lookup s.keyid with
    | none => false
    | some publicHex => verifySignature env publicHex message s.sig

/-- The authorised key ids with a signature that verifies. -/
def signers (keys : List (String × String)) (role : RoleDef) (message : Bytes)
    (sigs : List TufSignature) : Finset String :=
  passing TufSignature.keyid (entrySigns env keys role message) sigs

/-- The public key behind a key id. -/
def publicKey (keys : List (String × String)) (keyid : String) : Option Bytes :=
  (keys.lookup keyid).bind fun publicHex => hexDecode publicHex.toList

/-- The authorised public keys with a signature that verifies. -/
def signingKeys (keys : List (String × String)) (role : RoleDef) (message : Bytes)
    (sigs : List TufSignature) : Finset Bytes :=
  ((sigs.filter (entrySigns env keys role message)).filterMap fun s =>
    publicKey keys s.keyid).toFinset

/-- What the signature and type checks establish about a document. -/
structure SignedBy (keys : List (String × String)) (role : RoleDef) (expectedType : String)
    (doc : TufDoc) : Prop where
  type_eq : (doc.signed.tree.get "_type").bind Value.asStr = some expectedType
  spec_eq : (doc.signed.tree.get "spec_version").bind Value.asStr = some specVersion
  threshold_met : ∃ message, canonicalJson doc.signed.tree = .ok message ∧
    role.threshold ≤ (signers env keys role (asBytes message) doc.signatures).card

theorem entrySigns_eq_true {keys : List (String × String)} {role : RoleDef} {message : Bytes}
    {s : TufSignature} :
    entrySigns env keys role message s = true ↔
      s.keyid ∈ role.keyids ∧ ∃ publicHex, keys.lookup s.keyid = some publicHex ∧
        verifySignature env publicHex message s.sig = true := by
  rw [entrySigns, Bool.and_eq_true, decide_eq_true_eq]
  cases keys.lookup s.keyid <;> simp

/-- The loop counts the distinct key ids that sign. -/
theorem signatureLoop_eq (keys : List (String × String)) (role : RoleDef) (message : Bytes)
    (sigs : List TufSignature) (seen : List String) (valid : Nat) :
    signatureLoop env keys role message sigs seen valid =
      valid + countDistinct TufSignature.keyid (entrySigns env keys role message) sigs seen := by
  induction sigs generalizing seen valid with
  | nil => rfl
  | cons s rest ih =>
      rw [signatureLoop, countDistinct]
      by_cases hskip : s.keyid ∉ role.keyids ∨ s.keyid ∈ seen
      · have hnot : ¬ (entrySigns env keys role message s = true ∧ s.keyid ∉ seen) := by
          rintro ⟨hsigns, hfresh⟩
          exact hskip.elim (fun h => h ((entrySigns_eq_true env).mp hsigns).1) hfresh
        rw [if_pos hskip, if_neg hnot, ih]
      · obtain ⟨hrole, hfresh⟩ := not_or.mp hskip
        rw [if_neg hskip]
        cases hkey : keys.lookup s.keyid with
        | none =>
            have hnot : ¬ entrySigns env keys role message s = true := by
              simp [entrySigns_eq_true, hkey]
            rw [if_neg (fun h => hnot h.1)]
            exact ih seen valid
        | some publicHex =>
            have hsigns : entrySigns env keys role message s = true ↔
                verifySignature env publicHex message s.sig = true := by
              simpa [entrySigns_eq_true, hkey] using fun _ => not_not.mp hrole
            by_cases hverify : verifySignature env publicHex message s.sig = true
            · rw [if_pos ⟨hsigns.mpr hverify, hfresh⟩]
              simp only [hverify, if_true]
              rw [ih]
              omega
            · rw [if_neg (fun h => hverify (hsigns.mp h.1))]
              simp only [hverify]
              exact ih seen valid

theorem signatureLoop_eq_card (keys : List (String × String)) (role : RoleDef)
    (message : Bytes) (sigs : List TufSignature) :
    signatureLoop env keys role message sigs [] 0 =
      (signers env keys role message sigs).card := by
  rw [signatureLoop_eq, countDistinct_eq_card]
  simp [signers]

theorem checkExpiry_eq_ok {signed : Value} {ctx nowRfc3339 : String} {r : Unit} :
    checkExpiry signed ctx nowRfc3339 = .ok r ↔ Unexpired signed nowRfc3339 := by
  simp only [checkExpiry, bind_eq_ok, signedStr_eq_ok, mapError_eq_ok, failIf_eq_ok, not_le,
    Unexpired, exists_and_left]

/-- A document is accepted exactly when it is signed for its role and, if asked,
unexpired; the result is its signed part. -/
theorem verifyRoleDoc_eq_ok {doc : TufDoc} {keys : List (String × String)} {role : RoleDef}
    {expectedType nowRfc3339 : String} {expiry : Bool} {v : Value} :
    verifyRoleDoc env doc keys role expectedType nowRfc3339 expiry = .ok v ↔
      SignedBy env keys role expectedType doc ∧
        (expiry = true → Unexpired doc.signed.tree nowRfc3339) ∧ v = doc.signed.tree := by
  have htail : ∀ b : Bool, (if b = true then do
        checkExpiry doc.signed.tree expectedType nowRfc3339
        return doc.signed.tree
      else return doc.signed.tree) = Except.ok v ↔
      (b = true → Unexpired doc.signed.tree nowRfc3339) ∧ v = doc.signed.tree := by
    intro b
    cases b with
    | false => simpa using pure_eq_ok.trans eq_comm
    | true =>
        simp only [if_true, bind_eq_ok, checkExpiry_eq_ok, pure_eq_ok, true_imp_iff]
        constructor
        · rintro ⟨_, hexpiry, heq⟩
          exact ⟨hexpiry, heq.symm⟩
        · rintro ⟨hexpiry, heq⟩
          exact ⟨⟨⟩, hexpiry, heq.symm⟩
  simp only [verifyRoleDoc, bind_eq_ok, signedStr_eq_ok, failIf_eq_ok, not_not, not_lt,
    signatureLoop_eq_card, exists_and_left, exists_const]
  constructor
  · rintro ⟨t, htype, rfl, spec, hspec, rfl, message, hmessage, hthreshold, hrest⟩
    exact ⟨⟨htype, hspec, message, hmessage, hthreshold⟩, (htail expiry).mp hrest⟩
  · rintro ⟨⟨htype, hspec, message, hmessage, hthreshold⟩, hrest⟩
    exact ⟨_, htype, rfl, _, hspec, rfl, message, hmessage, hthreshold, (htail expiry).mpr hrest⟩

/-! ## Keys behind key ids -/

/-- A verifying entry names a usable key. -/
theorem publicKey_of_entrySigns {keys : List (String × String)} {role : RoleDef}
    {message : Bytes} {s : TufSignature}
    (h : entrySigns env keys role message s = true) :
    ∃ pk, publicKey keys s.keyid = some pk := by
  obtain ⟨-, publicHex, hkey, hverify⟩ := (entrySigns_eq_true env).mp h
  cases hdecode : hexDecode publicHex.toList with
  | none => simp [verifySignature, hdecode] at hverify
  | some pk => exact ⟨pk, by rw [publicKey, hkey, Option.bind_some, hdecode]⟩

theorem mem_signingKeys {keys : List (String × String)} {role : RoleDef} {message : Bytes}
    {sigs : List TufSignature} {pk : Bytes} :
    pk ∈ signingKeys env keys role message sigs ↔
      ∃ s ∈ sigs, entrySigns env keys role message s = true ∧
        publicKey keys s.keyid = some pk := by
  simp [signingKeys, and_assoc]

/-- The signing keys are the keys behind the signing key ids. -/
theorem card_signingKeys (keys : List (String × String)) (role : RoleDef) (message : Bytes)
    (sigs : List TufSignature) :
    (signingKeys env keys role message sigs).card =
      ((signers env keys role message sigs).image (publicKey keys)).card := by
  have himage : (signers env keys role message sigs).image (publicKey keys) =
      (signingKeys env keys role message sigs).map Function.Embedding.some := by
    ext key
    simp only [Finset.mem_image, signers, mem_passing, Finset.mem_map, mem_signingKeys,
      Function.Embedding.some_apply]
    constructor
    · rintro ⟨-, ⟨s, hs, hsigns, rfl⟩, rfl⟩
      obtain ⟨pk, hpk⟩ := publicKey_of_entrySigns env hsigns
      exact ⟨pk, ⟨s, hs, hsigns, hpk⟩, hpk.symm⟩
    · rintro ⟨pk, ⟨s, hs, hsigns, hpk⟩, rfl⟩
      exact ⟨s.keyid, ⟨s, hs, hsigns, rfl⟩, hpk⟩
  rw [himage, Finset.card_map]

/-- Some signature in the name of the key id verifies over the message. -/
def CanSign (keys : List (String × String)) (role : RoleDef) (message : Bytes)
    (keyid : String) : Prop :=
  ∃ sig, entrySigns env keys role message ⟨keyid, sig⟩ = true

/-- The key ids that can sign a message are among the role's. -/
theorem CanSign.mem {keys : List (String × String)} {role : RoleDef} {message : Bytes}
    {keyid : String} (h : CanSign env keys role message keyid) : keyid ∈ role.keyids :=
  h.elim fun _ hsigns => ((entrySigns_eq_true env).mp hsigns).1

open Classical in
/-- Any set of key ids that can sign is the set of signers of some signature list. -/
theorem exists_signers_eq {keys : List (String × String)} {role : RoleDef} {message : Bytes}
    {keyids : Finset String} (h : ∀ keyid ∈ keyids, CanSign env keys role message keyid) :
    ∃ sigs, signers env keys role message sigs = keyids := by
  choose! sigOf hsigns using h
  refine ⟨keyids.toList.map fun keyid => ⟨keyid, sigOf keyid⟩, ?_⟩
  ext keyid
  simp only [signers, mem_passing, List.mem_map, Finset.mem_toList]
  constructor
  · rintro ⟨-, ⟨keyid', hmem, rfl⟩, -, rfl⟩
    exact hmem
  · intro hmem
    exact ⟨_, ⟨keyid, hmem, rfl⟩, hsigns keyid hmem, rfl⟩

/-- The threshold of an accepted document counts keys, whichever signatures it
carries, exactly when the key ids that can sign it name pairwise different keys;
a threshold of one always does. -/
theorem threshold_counts_keys_iff {rootSigned : Value} {keys : List (String × String)}
    (hroles : validateRootRoles env rootSigned keys = .ok ()) {roleName : String}
    (hname : roleName ∈ topLevelRoles) {role : RoleDef}
    (hrole : roleDef env rootSigned roleName = .ok role) {doc : TufDoc}
    {expectedType nowRfc3339 : String} {expiry : Bool} {v : Value} {message : List Char}
    (hdoc : verifyRoleDoc env doc keys role expectedType nowRfc3339 expiry = .ok v)
    (hmessage : canonicalJson doc.signed.tree = .ok message) :
    (∀ sigs v', verifyRoleDoc env { doc with signatures := sigs } keys role expectedType
        nowRfc3339 expiry = .ok v' →
      role.threshold ≤ (signingKeys env keys role (asBytes message) sigs).card) ↔
      role.threshold = 1 ∨ ∀ keyid keyid', CanSign env keys role (asBytes message) keyid →
        CanSign env keys role (asBytes message) keyid' →
        publicKey keys keyid = publicKey keys keyid' → keyid = keyid' := by
  classical
  obtain ⟨hsigned, hunexpired, -⟩ := (verifyRoleDoc_eq_ok env).mp hdoc
  -- Another signature list is accepted exactly when its signers reach the threshold.
  have haccepted : ∀ sigs, (∃ v', verifyRoleDoc env { doc with signatures := sigs } keys role
      expectedType nowRfc3339 expiry = .ok v') ↔
      role.threshold ≤ (signers env keys role (asBytes message) sigs).card := by
    intro sigs
    constructor
    · rintro ⟨v', hv'⟩
      obtain ⟨⟨-, -, text, htext, hcard⟩, -, -⟩ := (verifyRoleDoc_eq_ok env).mp hv'
      rw [hmessage] at htext
      exact Except.ok.inj htext ▸ hcard
    · intro hcard
      exact ⟨_, (verifyRoleDoc_eq_ok env).mpr
        ⟨⟨hsigned.type_eq, hsigned.spec_eq, message, hmessage, hcard⟩, hunexpired, rfl⟩⟩
  let labels := role.keyids.toFinset.filter (CanSign env keys role (asBytes message))
  have hlabels : ∀ keyid, keyid ∈ labels ↔ CanSign env keys role (asBytes message) keyid := by
    intro keyid
    simp only [labels, Finset.mem_filter, List.mem_toFinset]
    exact ⟨And.right, fun h => ⟨h.mem, h⟩⟩
  have hsub : ∀ sigs, signers env keys role (asBytes message) sigs ⊆ labels := by
    intro sigs keyid hmem
    obtain ⟨s, -, hsigns, rfl⟩ := (mem_passing _ _).mp hmem
    exact (hlabels _).mpr ⟨s.sig, hsigns⟩
  have hreachable : role.threshold ≤ labels.card :=
    ((haccepted doc.signatures).mp ⟨v, hdoc⟩).trans (Finset.card_le_card (hsub _))
  have hpositive : 0 < role.threshold := by
    obtain ⟨role', hrole', hvalid⟩ := validateRootRoles_eq_ok.mp hroles roleName hname
    rw [hrole] at hrole'
    exact Except.ok.inj hrole' ▸ hvalid.positive
  have hinjective : Set.InjOn (publicKey keys) labels ↔ ∀ keyid keyid',
      CanSign env keys role (asBytes message) keyid →
      CanSign env keys role (asBytes message) keyid' →
      publicKey keys keyid = publicKey keys keyid' → keyid = keyid' := by
    constructor
    · intro hinj keyid keyid' hk hk' hsame
      exact hinj ((hlabels _).mpr hk) ((hlabels _).mpr hk') hsame
    · intro hinj keyid hk keyid' hk' hsame
      exact hinj keyid keyid' ((hlabels _).mp hk) ((hlabels _).mp hk') hsame
  have hone : role.threshold ≤ 1 ↔ role.threshold = 1 := by omega
  rw [← hinjective, ← hone, ← threshold_image_iff (publicKey keys) hreachable]
  constructor
  · intro hall keyids hkeyids hcard
    have hcanSign : ∀ keyid ∈ keyids, CanSign env keys role (asBytes message) keyid :=
      fun keyid hmem => (hlabels keyid).mp (hkeyids hmem)
    obtain ⟨sigs, rfl⟩ := exists_signers_eq env hcanSign
    obtain ⟨v', hv'⟩ := (haccepted sigs).mpr hcard
    rw [← card_signingKeys]
    exact hall sigs v' hv'
  · intro hall sigs v' hv'
    rw [card_signingKeys]
    exact hall _ (hsub sigs) ((haccepted sigs).mp ⟨v', hv'⟩)

end

/-! ## One key under two names -/

/-- Stand-ins for the outside world in which a key signs by writing itself twice. -/
def echoExternal : External where
  ed25519Verify pk _ sig := sig == pk ++ pk
  sha256 bytes := bytes
  fromSlice _ := .error "EOF while parsing a value"
  roleDefError _ := "invalid type"
  toLowercase s := String.ofList (s.toList.map Char.toLower)

/-- An entry of a `keys` table. -/
def keyEntry (publicHex : String) : Value :=
  .obj [("keytype", .str "ed25519"), ("keyval", .obj [("public", .str publicHex)])]

/-- An entry of a `roles` table. -/
def roleEntry (keyids : List String) (threshold : Nat) (h : threshold < 2 ^ 64) : Value :=
  .obj [("keyids", .arr (keyids.map .str)), ("threshold", .num (.posInt threshold h))]

/-- The key table of `oneKeyRoot`: the same bytes in lower and in upper case. -/
def oneKeyTable : List (String × String) :=
  [("first", String.ofList (List.replicate 64 'a')),
    ("second", String.ofList (List.replicate 64 'A'))]

/-- A root whose roles demand two signatures and name a single key twice. -/
def oneKeyRoot : Value :=
  .obj [("keys", .obj (oneKeyTable.map fun key => (key.1, keyEntry key.2))),
    ("roles", .obj (topLevelRoles.map fun role =>
      (role, roleEntry ["first", "second"] 2 (by decide))))]

/-- A document signed with that key under both names. -/
def oneKeyDoc : TufDoc where
  signatures := [⟨"first", String.ofList (List.replicate 128 'a')⟩,
    ⟨"second", String.ofList (List.replicate 128 'a')⟩]
  signed :=
    { tree := .obj [("_type", .str "targets"), ("spec_version", .str specVersion)]
      sorted := by
        simp [Json.KeysSorted]
        decide }

def oneKeyMessage : List Char :=
  "\x7b\"_type\":\"targets\",\"spec_version\":\"1.0.0\"\x7d".toList

/-- Both names stand for the same bytes. -/
theorem publicKey_oneKeyTable {keyid : String} (h : keyid = "first" ∨ keyid = "second") :
    publicKey oneKeyTable keyid = some (List.replicate 32 0xAA) := by
  rcases h with rfl | rfl
  · simp only [publicKey, oneKeyTable, List.lookup_cons, Option.bind_some, beq_self_eq_true,
      String.toList_ofList]
    rfl
  · have hne : ("second" == "first") = false := by decide
    simp only [publicKey, oneKeyTable, List.lookup_cons, Option.bind_some, beq_self_eq_true,
      String.toList_ofList, hne]
    rfl

/-- Both entries of `oneKeyDoc` verify, over any message. -/
theorem entrySigns_oneKeyDoc (message : Bytes) :
    oneKeyDoc.signatures.filter
        (entrySigns echoExternal oneKeyTable ⟨["first", "second"], 2⟩ message) =
      oneKeyDoc.signatures := by
  have hverify : ∀ c ∈ ['a', 'A'], verifySignature echoExternal
      (String.ofList (List.replicate 64 c)) message
      (String.ofList (List.replicate 128 'a')) = true := by
    simp only [List.forall_mem_cons, verifySignature, String.toList_ofList]
    exact ⟨rfl, rfl, by simp⟩
  rw [List.filter_eq_self]
  simp only [oneKeyDoc, List.forall_mem_cons, entrySigns_eq_true, oneKeyTable]
  exact ⟨⟨by decide, _, rfl, hverify 'a' (by decide)⟩,
    ⟨by decide, _, rfl, hverify 'A' (by decide)⟩, by simp⟩

/-- The document is accepted with two signatures of the one key. -/
theorem oneKeyDoc_accepted :
    verifyRoleDoc echoExternal oneKeyDoc oneKeyTable ⟨["first", "second"], 2⟩ "targets"
      "2026-01-01T00:00:00Z" false = .ok oneKeyDoc.signed.tree := by
  refine (verifyRoleDoc_eq_ok _).mpr ⟨⟨rfl, rfl, oneKeyMessage, rfl, ?_⟩, by simp, rfl⟩
  rw [signers, passing, entrySigns_oneKeyDoc]
  decide

/-- A threshold of two met by a single key. -/
theorem threshold_met_by_one_key :
    rootKeys oneKeyRoot = .ok oneKeyTable ∧
      validateRootRoles echoExternal oneKeyRoot oneKeyTable = .ok () ∧
      roleDef echoExternal oneKeyRoot "targets" = .ok ⟨["first", "second"], 2⟩ ∧
      (∃ v, verifyRoleDoc echoExternal oneKeyDoc oneKeyTable ⟨["first", "second"], 2⟩
        "targets" "2026-01-01T00:00:00Z" false = .ok v) ∧
      canonicalJson oneKeyDoc.signed.tree = .ok oneKeyMessage ∧
      (signingKeys echoExternal oneKeyTable ⟨["first", "second"], 2⟩ (asBytes oneKeyMessage)
        oneKeyDoc.signatures).card = 1 := by
  refine ⟨rfl, rfl, rfl, ⟨_, oneKeyDoc_accepted⟩, rfl, ?_⟩
  have hfirst := publicKey_oneKeyTable (.inl rfl)
  have hsecond := publicKey_oneKeyTable (.inr rfl)
  rw [signingKeys, entrySigns_oneKeyDoc]
  simp [oneKeyDoc, hfirst, hsecond]

/-- The criterion at that root and document. -/
theorem threshold_counts_keys_iff_oneKey :
    (∀ sigs v', verifyRoleDoc echoExternal { oneKeyDoc with signatures := sigs } oneKeyTable
        ⟨["first", "second"], 2⟩ "targets" "2026-01-01T00:00:00Z" false = .ok v' →
      2 ≤ (signingKeys echoExternal oneKeyTable ⟨["first", "second"], 2⟩
        (asBytes oneKeyMessage) sigs).card) ↔
      2 = 1 ∨ ∀ keyid keyid',
        CanSign echoExternal oneKeyTable ⟨["first", "second"], 2⟩ (asBytes oneKeyMessage) keyid →
        CanSign echoExternal oneKeyTable ⟨["first", "second"], 2⟩ (asBytes oneKeyMessage) keyid' →
        publicKey oneKeyTable keyid = publicKey oneKeyTable keyid' → keyid = keyid' :=
  have hroles : validateRootRoles echoExternal oneKeyRoot oneKeyTable = .ok () := rfl
  have hname : "targets" ∈ topLevelRoles := by decide
  threshold_counts_keys_iff echoExternal hroles hname rfl oneKeyDoc_accepted rfl

end Useful.Tuf
