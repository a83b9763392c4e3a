/-
# Accounts of sources

`source_login` keeps the tokens of a source in a file store and the pointer to them in the
table `source_accounts`; `source_logout` removes both. The two are written one after the
other, and each step may fail. Files are named after the source and a reference that is new
for each login.
-/

import Useful.Math.Program
import Mathlib.Algebra.Group.Nat.Defs
import Mathlib.Data.List.Induction
import Mathlib.Data.List.Nodup
import Mathlib.Logic.Function.Basic

namespace Useful.Client.Accounts

open Useful.Math Useful.Math.Program

structure TokenBundle where
  accessToken : String
  refreshToken : String
  expiresAt : Int
  deriving DecidableEq

/-- A row of `source_accounts`. -/
structure SourceAccount where
  sourceId : String
  accountId : String
  displayName : String
  credentialReference : String
  scopes : List String
  expiresAt : Int
  lastAuthenticatedAt : Int
  deriving DecidableEq

/-- The rows, by their primary key, and the files of the token store. -/
structure Desktop where
  accounts : String → Option SourceAccount
  files : String → Option TokenBundle

/-- No account and no file. -/
def Desktop.fresh : Desktop := ⟨fun _ => none, fun _ => none⟩

/-! ## Names of files -/

/-- `safe` in `path_of`. -/
def safeChar (c : Char) : Char :=
  if ('A' ≤ c ∧ c ≤ 'Z') ∨ ('a' ≤ c ∧ c ≤ 'z') ∨ ('0' ≤ c ∧ c ≤ '9') ∨ c = '-' ∨ c = '_' then c
  else '_'

def nameStem (sourceId reference : String) : List Char :=
  sourceId.toList.map safeChar ++ ['_', '_'] ++ reference.toList.map safeChar

/-- `path_of` -/
def pathOf (sourceId reference : String) : String :=
  String.ofList (nameStem sourceId reference ++ ".bin".toList)

/-- `path.with_extension("tmp")` -/
def tmpOf (sourceId reference : String) : String :=
  String.ofList (nameStem sourceId reference ++ ".tmp".toList)

/-! ## Steps that may fail -/

inductive Site
  -- The login up to the tokens.
  | readSource
  | discovery
  | authType
  | bindPort
  | localAddr
  | authorizeUrl
  | authorizePolicy
  | resolveAuthorize
  | openBrowser
  | callback
  | tokenPolicy
  | resolveToken
  | tokenRequest
  | tokenStatus
  | tokenBody
  | tokenResponse
  -- Storing them.
  | createDir
  | seal
  | writeFile
  | renameFile
  | lockUpsert
  | upsertRow
  -- The logout.
  | lockSelect
  | selectRow
  | deleteFile
  | lockDelete
  | deleteRow
  deriving DecidableEq

/-- The operations on files and on the database. -/
def Site.isStorage : Site → Bool
  | readSource | createDir | writeFile | renameFile | lockUpsert | upsertRow | lockSelect
  | selectRow | deleteFile | lockDelete | deleteRow => true
  | _ => false

/-- The steps of a login before the tokens are stored. -/
def loginSites : List Site :=
  [.readSource, .discovery, .authType, .bindPort, .localAddr, .authorizeUrl, .authorizePolicy,
    .resolveAuthorize, .openBrowser, .callback, .tokenPolicy, .resolveToken, .tokenRequest,
    .tokenStatus, .tokenBody, .tokenResponse]

/-- What a call meets: failing steps, the answers of the source, the clock and the new
reference. -/
structure Outside where
  fault : Site → Option String
  scopes : List String
  accessToken : String
  refreshToken : String
  expiresIn : Int
  /-- `subjectId` of `/v1/me`, if it could be had. -/
  subject : Option String
  now : Int
  uuid : String

variable (out : Outside)

def step (site : Site) : Program String Desktop Unit :=
  match out.fault site with
  | some e => fail e
  | none => pure ()

/-! ## The token store -/

/-- `DpapiTokenStore::save` -/
def saveTokens (sourceId reference : String) (tokens : TokenBundle) :
    Program String Desktop Unit := do
  step out .createDir
  step out .seal
  step out .writeFile
  modify fun d => { d with
    files := Function.update d.files (tmpOf sourceId reference) (some tokens) }
  step out .renameFile
  modify fun d => { d with
    files := Function.update (Function.update d.files (tmpOf sourceId reference) none)
      (pathOf sourceId reference) (some tokens) }

/-- `DpapiTokenStore::delete` -/
def deleteTokens (sourceId reference : String) : Program String Desktop Unit := do
  step out .deleteFile
  modify fun d => { d with files := Function.update d.files (pathOf sourceId reference) none }

/-! ## Login and logout -/

/-- The reference of a new account. -/
def newReference : String := "oauth-" ++ out.uuid

/-- The end of the tokens' life, in wrapping 64-bit arithmetic. -/
def expiresAt : Int :=
  Int.bmod (out.now + if 0 < out.expiresIn then out.expiresIn else 3600) (2 ^ 64)

def newBundle : TokenBundle := ⟨out.accessToken, out.refreshToken, expiresAt out⟩

def newAccount (sourceId : String) : SourceAccount where
  sourceId := sourceId
  accountId := out.subject.getD "account"
  displayName := out.subject.getD "account"
  credentialReference := newReference out
  scopes := out.scopes
  expiresAt := expiresAt out
  lastAuthenticatedAt := out.now

/-- `upsert_account` -/
def upsertAccount (account : SourceAccount) : Program String Desktop Unit := do
  step out .lockUpsert
  step out .upsertRow
  modify fun d => { d with
    accounts := Function.update d.accounts account.sourceId (some account) }

def sourceLogin (sourceId : String) : Program String Desktop SourceAccount := do
  forM loginSites (step out)
  saveTokens out sourceId (newReference out) (newBundle out)
  let account := newAccount out sourceId
  upsertAccount out account
  return account

def sourceLogout (sourceId : String) : Program String Desktop Unit := do
  step out .lockSelect
  -- A failing query counts as no row.
  let reference ← read fun d =>
    match out.fault .selectRow with
    | some _ => none
    | none => (d.accounts sourceId).map SourceAccount.credentialReference
  match reference with
  | some reference =>
      let _ ← (attempt (deleteTokens out sourceId reference) :
        Program String Desktop (Except String Unit))
      pure ()
  | none => pure ()
  step out .lockDelete
  step out .deleteRow
  modify fun d => { d with accounts := Function.update d.accounts sourceId none }

/-! ## Sequences of calls -/

inductive Call
  | login (out : Outside) (sourceId : String)
  | logout (out : Outside) (sourceId : String)

def Call.outside : Call → Outside
  | login out _ | logout out _ => out

def Call.run : Call → Desktop → Desktop
  | login out sourceId, d => (sourceLogin out sourceId d).2
  | logout out sourceId, d => (sourceLogout out sourceId d).2

def afterCalls (d : Desktop) (calls : List Call) : Desktop := calls.foldl (fun d call => call.run d) d

/-- No operation on files or the database fails. -/
def Call.StorageWorks (call : Call) : Prop :=
  ∀ site, site.isStorage = true → call.outside.fault site = none

def logins (calls : List Call) : List (Outside × String) :=
  calls.filterMap fun
    | .login out sourceId => some (out, sourceId)
    | .logout _ _ => none

/-- The references that logins draw. -/
def drawnUuids (calls : List Call) : List String := (logins calls).map fun login => login.1.uuid

/-- What `Uuid::new_v4` prints: 36 characters that a file name keeps. -/
def IsUuid (uuid : String) : Prop :=
  uuid.toList.length = 36 ∧ ∀ c ∈ uuid.toList, safeChar c = c

theorem isUuid_of_all {uuid : String} (hlength : uuid.toList.length = 36)
    (hsafe : (uuid.toList.all fun c => safeChar c == c) = true) : IsUuid uuid :=
  ⟨hlength, fun c hc => eq_of_beq (List.all_eq_true.mp hsafe c hc)⟩

/-! ## One file for each account -/

/-- Each row has its own file, and no other file is there. -/
structure OneEach (d : Desktop) : Prop where
  keyed : ∀ s account, d.accounts s = some account → account.sourceId = s
  stored : ∀ s account, d.accounts s = some account →
    d.files (pathOf s account.credentialReference) ≠ none
  own : ∀ s t account other, d.accounts s = some account → d.accounts t = some other →
    pathOf s account.credentialReference = pathOf t other.credentialReference → s = t
  nothingElse : ∀ name, d.files name ≠ none →
    ∃ s account, d.accounts s = some account ∧ name = pathOf s account.credentialReference

/-- A file of a login is there only while the row of its source names it. -/
def NoneOutlives (calls : List Call) (d : Desktop) : Prop :=
  ∀ out s, Call.login out s ∈ calls → d.files (pathOf s (newReference out)) ≠ none →
    ∃ account, d.accounts s = some account ∧ account.credentialReference = newReference out

/-- A login gets as far as storing the tokens. -/
def Stores : Prop := ∀ site ∈ Site.seal :: loginSites, out.fault site = none

/-- A login stores new tokens for a source that has an account already. -/
def Replaces (d : Desktop) : Call → Prop
  | .login out s => Stores out ∧ d.accounts s ≠ none
  | .logout _ _ => False

/-! ## Names are not shared -/

theorem map_safeChar {text : String} (h : ∀ c ∈ text.toList, safeChar c = c) :
    text.toList.map safeChar = text.toList :=
  (List.map_congr_left h).trans (List.map_id _)

variable {out}

/-- The name of a login's file ends with its reference. -/
theorem pathOf_newReference (h : IsUuid out.uuid) (s : String) :
    pathOf s (newReference out) = String.ofList
      (s.toList.map safeChar ++ "__oauth-".toList ++ (out.uuid.toList ++ ".bin".toList)) := by
  have hreference : (newReference out).toList.map safeChar = "oauth-".toList ++ out.uuid.toList := by
    rw [newReference, String.toList_append, List.map_append, map_safeChar h.2]
    rfl
  rw [pathOf, nameStem, hreference]
  simp only [List.append_assoc]
  rfl

theorem uuid_eq_of_pathOf_eq {other : Outside} (h : IsUuid out.uuid) (h' : IsUuid other.uuid)
    {s t : String} (heq : pathOf s (newReference out) = pathOf t (newReference other)) :
    out.uuid = other.uuid := by
  rw [pathOf_newReference h, pathOf_newReference h', String.ofList_inj] at heq
  have hlength : (out.uuid.toList ++ ".bin".toList).length =
      (other.uuid.toList ++ ".bin".toList).length := by
    rw [List.length_append, List.length_append, h.1, h'.1]
  have htail := (List.append_inj' heq hlength).2
  exact String.toList_inj.mp (List.append_cancel_right htail)

theorem pathOf_ne_tmpOf (s t reference reference' : String) :
    pathOf s reference ≠ tmpOf t reference' := by
  intro heq
  rw [pathOf, tmpOf, String.ofList_inj] at heq
  have hlength : ".bin".toList.length = ".tmp".toList.length := by decide
  have htail := (List.append_inj' heq hlength).2
  exact absurd htail (by decide)

/-! ## What a call leaves -/

theorem step_of_eq_none {site : Site} (h : out.fault site = none) : step out site = pure () := by
  rw [step, h]

theorem step_snd (site : Site) (d : Desktop) : (step out site d).2 = d := by
  rw [step]
  cases out.fault site <;> rfl

theorem forM_step_of_none {sites : List Site} (h : ∀ site ∈ sites, out.fault site = none) :
    forM sites (step out) = pure () := by
  induction sites with
  | nil => rfl
  | cons site sites ih =>
      rw [List.forM_cons, step_of_eq_none (h site List.mem_cons_self), Program.pure_bind]
      exact ih fun other hmem => h other (List.mem_cons_of_mem _ hmem)

theorem forM_step_of_some {sites : List Site} {site : Site} {e : String} (hmem : site ∈ sites)
    (hfault : out.fault site = some e) (d : Desktop) :
    ∃ e, forM sites (step out) d = (.error e, d) := by
  induction sites with
  | nil => cases hmem
  | cons first sites ih =>
      rw [List.forM_cons]
      cases hfirst : out.fault first with
      | some e' =>
          refine ⟨e', Program.bind_of_eq_error ?_⟩
          rw [step, hfirst]
          rfl
      | none =>
          rw [step_of_eq_none hfirst, Program.pure_bind]
          cases List.mem_cons.mp hmem with
          | inl heq =>
              rw [heq, hfirst] at hfault
              cases hfault
          | inr hrest => exact ih hrest

/-- The desktop after a login that stored its tokens. -/
def Desktop.logIn (d : Desktop) (out : Outside) (s : String) : Desktop where
  accounts := Function.update d.accounts s (some (newAccount out s))
  files := Function.update (Function.update d.files (tmpOf s (newReference out)) none)
    (pathOf s (newReference out)) (some (newBundle out))

/-- The desktop after a logout. -/
def Desktop.logOut (d : Desktop) (s : String) : Desktop where
  accounts := Function.update d.accounts s none
  files := match d.accounts s with
    | some account => Function.update d.files (pathOf s account.credentialReference) none
    | none => d.files

variable {d : Desktop} {s : String}

@[simp] theorem Desktop.logIn_accounts_self : (d.logIn out s).accounts s = some (newAccount out s) :=
  Function.update_self ..

theorem Desktop.logIn_accounts_of_ne {t : String} (h : t ≠ s) :
    (d.logIn out s).accounts t = d.accounts t :=
  Function.update_of_ne h ..

@[simp] theorem Desktop.logIn_files_self :
    (d.logIn out s).files (pathOf s (newReference out)) = some (newBundle out) :=
  Function.update_self ..

/-- A login leaves the other files alone, but for its temporary one. -/
theorem Desktop.logIn_files_of_ne {name : String} (h : name ≠ pathOf s (newReference out)) :
    (d.logIn out s).files name =
      if name = tmpOf s (newReference out) then none else d.files name := by
  show Function.update (Function.update _ _ _) _ _ name = _
  rw [Function.update_of_ne h, Function.update_apply]

theorem Desktop.logIn_files_pathOf {t reference : String}
    (h : pathOf t reference ≠ pathOf s (newReference out)) :
    (d.logIn out s).files (pathOf t reference) = d.files (pathOf t reference) := by
  rw [Desktop.logIn_files_of_ne h, if_neg (pathOf_ne_tmpOf t s reference (newReference out))]

@[simp] theorem Desktop.logOut_accounts_self : (d.logOut s).accounts s = none :=
  Function.update_self ..

theorem Desktop.logOut_accounts_of_ne {t : String} (h : t ≠ s) :
    (d.logOut s).accounts t = d.accounts t :=
  Function.update_of_ne h ..

theorem Desktop.logOut_files_of_none (h : d.accounts s = none) : (d.logOut s).files = d.files := by
  rw [Desktop.logOut, h]

theorem Desktop.logOut_files_of_some {account : SourceAccount} (h : d.accounts s = some account) :
    (d.logOut s).files = Function.update d.files (pathOf s account.credentialReference) none := by
  rw [Desktop.logOut, h]

theorem run_login_of_stores (hworks : (Call.login out s).StorageWorks) (h : Stores out) :
    (Call.login out s).run d = d.logIn out s := by
  have hstep : ∀ site : Site, site.isStorage = true → step out site = pure () :=
    fun site hsite => step_of_eq_none (hworks site hsite)
  have hseal : step out .seal = pure () := step_of_eq_none (h _ List.mem_cons_self)
  have hrun : sourceLogin out s = do
      modify fun d => { d with
        files := Function.update d.files (tmpOf s (newReference out)) (some (newBundle out)) }
      modify fun d => { d with
        files := Function.update (Function.update d.files (tmpOf s (newReference out)) none)
          (pathOf s (newReference out)) (some (newBundle out)) }
      modify fun d => { d with
        accounts := Function.update d.accounts s (some (newAccount out s)) }
      return newAccount out s := by
    rw [sourceLogin, forM_step_of_none fun site hmem => h site (List.mem_cons_of_mem _ hmem)]
    simp only [saveTokens, upsertAccount, hseal, hstep .createDir rfl, hstep .writeFile rfl,
      hstep .renameFile rfl, hstep .lockUpsert rfl, hstep .upsertRow rfl, Program.pure_bind,
      Program.bind_assoc]
    rfl
  show (sourceLogin out s d).2 = _
  rw [hrun, Desktop.logIn]
  generalize tmpOf s (newReference out) = tmp, pathOf s (newReference out) = path
  show Desktop.mk _ (Function.update (Function.update (Function.update _ _ _) _ _) _ _) = _
  rw [Function.update_idem]

theorem run_login_of_not_stores (hworks : (Call.login out s).StorageWorks) (h : ¬ Stores out) :
    (Call.login out s).run d = d := by
  show (sourceLogin out s d).2 = d
  by_cases hsites : ∀ site ∈ loginSites, out.fault site = none
  · have hseal : out.fault .seal ≠ none := by
      intro hnone
      refine h fun site hmem => ?_
      rcases List.mem_cons.mp hmem with rfl | hmem
      · exact hnone
      · exact hsites site hmem
    obtain ⟨e, hseal⟩ := Option.ne_none_iff_exists'.mp hseal
    have hcreate : step out .createDir = pure () := step_of_eq_none (hworks .createDir rfl)
    have hfails : step out .seal = Program.fail e := by
      rw [step, hseal]
    rw [sourceLogin, forM_step_of_none hsites, Program.pure_bind, saveTokens, hcreate, hfails,
      Program.pure_bind]
    rfl
  · push Not at hsites
    obtain ⟨site, hmem, hfault⟩ := hsites
    obtain ⟨e, hfault⟩ := Option.ne_none_iff_exists'.mp hfault
    obtain ⟨e', hrun⟩ := forM_step_of_some hmem hfault d
    rw [sourceLogin, Program.bind_of_eq_error hrun]

theorem run_logout (hworks : (Call.logout out s).StorageWorks) :
    (Call.logout out s).run d = d.logOut s := by
  have hstep : ∀ site : Site, site.isStorage = true → step out site = pure () :=
    fun site hsite => step_of_eq_none (hworks site hsite)
  have hselect : out.fault .selectRow = none := hworks .selectRow rfl
  show (sourceLogout out s d).2 = _
  rw [sourceLogout, hstep .lockSelect rfl, hstep .lockDelete rfl, hstep .deleteRow rfl,
    Program.pure_bind, hselect]
  rw [Program.bind_of_eq_ok (p := Program.read _) (s := d) (t := d) rfl, Desktop.logOut]
  cases d.accounts s with
  | none => rfl
  | some account =>
      simp only [Option.map_some, deleteTokens, hstep .deleteFile rfl, Program.pure_bind]
      generalize pathOf s account.credentialReference = path
      rfl

/-! ## Rows come from logins -/

theorem afterCalls_append (d : Desktop) (calls : List Call) (call : Call) :
    afterCalls d (calls ++ [call]) = call.run (afterCalls d calls) := by
  rw [afterCalls, List.foldl_append]
  rfl

/-- The row of a source was written by one of its logins. -/
def FromLogins (calls : List Call) (d : Desktop) : Prop :=
  ∀ s account, d.accounts s = some account →
    ∃ out, Call.login out s ∈ calls ∧ account.credentialReference = newReference out

theorem FromLogins.mono {calls : List Call} (h : FromLogins calls d) (call : Call) :
    FromLogins (calls ++ [call]) d := by
  intro s account haccount
  obtain ⟨out, hmem, hreference⟩ := h s account haccount
  exact ⟨out, List.mem_append_left _ hmem, hreference⟩

theorem fromLogins_afterCalls {calls : List Call} (hworks : ∀ call ∈ calls, call.StorageWorks) :
    FromLogins calls (afterCalls .fresh calls) := by
  induction calls using List.reverseRecOn with
  | nil => exact fun s account haccount => nomatch haccount
  | append_singleton calls call ih =>
      have hprev := (ih fun other hmem => hworks other (List.mem_append_left _ hmem)).mono call
      have hcall := hworks call (List.mem_append_right _ List.mem_cons_self)
      rw [afterCalls_append]
      cases call with
      | login out s =>
          by_cases hstores : Stores out
          · rw [run_login_of_stores hcall hstores]
            intro t account haccount
            by_cases heq : t = s
            · subst heq
              rw [Desktop.logIn_accounts_self, Option.some.injEq] at haccount
              exact ⟨out, List.mem_append_right _ List.mem_cons_self, by rw [← haccount]; rfl⟩
            · rw [Desktop.logIn_accounts_of_ne heq] at haccount
              exact hprev t account haccount
          · rw [run_login_of_not_stores hcall hstores]
            exact hprev
      | logout out s =>
          rw [run_logout hcall]
          intro t account haccount
          by_cases heq : t = s
          · subst heq
            rw [Desktop.logOut_accounts_self] at haccount
            cases haccount
          · rw [Desktop.logOut_accounts_of_ne heq] at haccount
            exact hprev t account haccount

/-! ## References are drawn once -/

/-- What is known of the references of a sequence of calls. -/
structure Drawn (calls : List Call) : Prop where
  uuids : ∀ uuid ∈ drawnUuids calls, IsUuid uuid
  new : (drawnUuids calls).Nodup

theorem mem_logins {calls : List Call} : (out, s) ∈ logins calls ↔ Call.login out s ∈ calls := by
  rw [logins, List.mem_filterMap]
  constructor
  · rintro ⟨call, hmem, heq⟩
    cases call with
    | login out' s' =>
        cases heq
        exact hmem
    | logout out' s' => cases heq
  · exact fun hmem => ⟨_, hmem, rfl⟩

namespace Drawn

variable {calls : List Call}

theorem isUuid (h : Drawn calls) (hmem : Call.login out s ∈ calls) : IsUuid out.uuid :=
  h.uuids _ (List.mem_map.mpr ⟨(out, s), mem_logins.mpr hmem, rfl⟩)

/-- The file of a login is named by no other login. -/
theorem eq_of_pathOf_eq (h : Drawn calls) {other : Outside} {t : String}
    (hs : Call.login out s ∈ calls) (ht : Call.login other t ∈ calls)
    (heq : pathOf s (newReference out) = pathOf t (newReference other)) : out = other ∧ s = t := by
  have huuid := uuid_eq_of_pathOf_eq (h.isUuid hs) (h.isUuid ht) heq
  have hpair := List.inj_on_of_nodup_map h.new (mem_logins.mpr hs) (mem_logins.mpr ht) huuid
  exact Prod.mk.inj hpair

theorem of_append {rest : List Call} (h : Drawn (calls ++ rest)) : Drawn calls := by
  have hsplit : drawnUuids (calls ++ rest) = drawnUuids calls ++ drawnUuids rest := by
    rw [drawnUuids, logins, List.filterMap_append, List.map_append]
    rfl
  have hnew := h.new
  rw [hsplit] at hnew
  exact ⟨fun uuid hmem => h.uuids uuid (by rw [hsplit]; exact List.mem_append_left _ hmem),
    hnew.of_append_left⟩

/-- A new login is none of the earlier ones. -/
theorem notMem (h : Drawn (calls ++ [.login out s])) : Call.login out s ∉ calls := by
  intro hmem
  have hsplit : drawnUuids (calls ++ [.login out s]) = drawnUuids calls ++ [out.uuid] := by
    rw [drawnUuids, logins, List.filterMap_append, List.map_append]
    rfl
  have hold : out.uuid ∈ drawnUuids calls :=
    List.mem_map.mpr ⟨(out, s), mem_logins.mpr hmem, rfl⟩
  have hnodup := hsplit ▸ h.new
  exact (List.nodup_append.mp hnodup).2.2 _ hold _ List.mem_cons_self rfl

end Drawn

/-! ## What the calls keep -/

theorem oneEach_fresh : OneEach .fresh where
  keyed _ _ h := nomatch h
  stored _ _ h := nomatch h
  own _ _ _ _ h := nomatch h
  nothingElse _ h := absurd rfl h

/-- A first login adds its row and its file. -/
theorem OneEach.logIn {calls : List Call} (h : OneEach d) (hfrom : FromLogins calls d)
    (hdrawn : Drawn (calls ++ [.login out s])) (hnone : d.accounts s = none) :
    OneEach (d.logIn out s) := by
  have hnew : Call.login out s ∈ calls ++ [.login out s] :=
    List.mem_append_right _ List.mem_cons_self
  -- The new file is named by no row.
  have hfree : ∀ t account, d.accounts t = some account →
      pathOf t account.credentialReference ≠ pathOf s (newReference out) := by
    intro t account haccount heq
    obtain ⟨other, hmem, hreference⟩ := hfrom t account haccount
    rw [hreference] at heq
    obtain ⟨rfl, rfl⟩ := hdrawn.eq_of_pathOf_eq (List.mem_append_left _ hmem) hnew heq
    exact hdrawn.notMem hmem
  have hrow : ∀ t account, (d.logIn out s).accounts t = some account →
      t = s ∧ account = newAccount out s ∨ t ≠ s ∧ d.accounts t = some account := by
    intro t account haccount
    by_cases heq : t = s
    · subst heq
      rw [Desktop.logIn_accounts_self, Option.some.injEq] at haccount
      exact .inl ⟨rfl, haccount.symm⟩
    · rw [Desktop.logIn_accounts_of_ne heq] at haccount
      exact .inr ⟨heq, haccount⟩
  constructor
  · intro t account haccount
    rcases hrow t account haccount with ⟨rfl, rfl⟩ | ⟨-, hold⟩
    · rfl
    · exact h.keyed t account hold
  · intro t account haccount
    rcases hrow t account haccount with ⟨rfl, rfl⟩ | ⟨-, hold⟩
    · exact fun hnone => nomatch Desktop.logIn_files_self.symm.trans hnone
    · rw [Desktop.logIn_files_pathOf (hfree t account hold)]
      exact h.stored t account hold
  · intro t u account other ht hu heq
    rcases hrow t account ht with ⟨rfl, rfl⟩ | ⟨-, hold⟩
    · rcases hrow u other hu with ⟨rfl, -⟩ | ⟨-, hold'⟩
      · rfl
      · exact absurd heq.symm (hfree u other hold')
    · rcases hrow u other hu with ⟨rfl, rfl⟩ | ⟨-, hold'⟩
      · exact absurd heq (hfree t account hold)
      · exact h.own t u account other hold hold' heq
  · intro name hname
    by_cases heq : name = pathOf s (newReference out)
    · exact ⟨s, newAccount out s, Desktop.logIn_accounts_self, heq⟩
    · have hold : d.files name ≠ none := by
        intro hnone
        rw [Desktop.logIn_files_of_ne heq, hnone, ite_self] at hname
        exact hname rfl
      obtain ⟨t, account, haccount, hpath⟩ := h.nothingElse name hold
      have hne : t ≠ s := by
        rintro rfl
        rw [hnone] at haccount
        cases haccount
      exact ⟨t, account, (Desktop.logIn_accounts_of_ne hne).trans haccount, hpath⟩

/-- A logout takes the row and its file. -/
theorem OneEach.logOut (h : OneEach d) (s : String) : OneEach (d.logOut s) := by
  have hrow : ∀ t account, (d.logOut s).accounts t = some account →
      t ≠ s ∧ d.accounts t = some account := by
    intro t account haccount
    by_cases heq : t = s
    · subst heq
      rw [Desktop.logOut_accounts_self] at haccount
      cases haccount
    · rw [Desktop.logOut_accounts_of_ne heq] at haccount
      exact ⟨heq, haccount⟩
  have hfile : ∀ t account, t ≠ s → d.accounts t = some account →
      (d.logOut s).files (pathOf t account.credentialReference) =
        d.files (pathOf t account.credentialReference) := by
    intro t account hne haccount
    cases hs : d.accounts s with
    | none => rw [Desktop.logOut_files_of_none hs]
    | some gone =>
        rw [Desktop.logOut_files_of_some hs]
        exact Function.update_of_ne (fun heq => hne (h.own t s account gone haccount hs heq)) _ _
  constructor
  · exact fun t account haccount => h.keyed t account (hrow t account haccount).2
  · intro t account haccount
    obtain ⟨hne, hold⟩ := hrow t account haccount
    rw [hfile t account hne hold]
    exact h.stored t account hold
  · exact fun t u account other ht hu => h.own t u account other (hrow _ _ ht).2 (hrow _ _ hu).2
  · intro name hname
    have hold : d.files name ≠ none := by
      intro hnone
      refine hname ?_
      cases hs : d.accounts s with
      | none => rw [Desktop.logOut_files_of_none hs, hnone]
      | some gone =>
          rw [Desktop.logOut_files_of_some hs, Function.update_apply, hnone, ite_self]
    obtain ⟨t, account, haccount, hpath⟩ := h.nothingElse name hold
    have hne : t ≠ s := by
      rintro rfl
      refine hname ?_
      rw [Desktop.logOut_files_of_some haccount, hpath]
      exact Function.update_self ..
    exact ⟨t, account, (Desktop.logOut_accounts_of_ne hne).trans haccount, hpath⟩

/-- Files that rows name are files of logins whose row is still there. -/
theorem OneEach.noneOutlives {calls : List Call} (h : OneEach d) (hfrom : FromLogins calls d)
    (hdrawn : Drawn calls) : NoneOutlives calls d := by
  intro out s hmem hfile
  obtain ⟨t, account, haccount, hpath⟩ := h.nothingElse _ hfile
  obtain ⟨other, hother, hreference⟩ := hfrom t account haccount
  rw [hreference] at hpath
  obtain ⟨rfl, rfl⟩ := hdrawn.eq_of_pathOf_eq hmem hother hpath
  exact ⟨account, haccount, hreference⟩

/-- A login that replaces an account leaves the file of the old one without a row. -/
theorem not_oneEach_logIn {calls : List Call} {account : SourceAccount} (h : OneEach d)
    (hfrom : FromLogins calls d) (hdrawn : Drawn (calls ++ [.login out s]))
    (hsome : d.accounts s = some account) : ¬ OneEach (d.logIn out s) := by
  intro hafter
  obtain ⟨old, hmem, hreference⟩ := hfrom s account hsome
  have hnew : Call.login out s ∈ calls ++ [.login out s] :=
    List.mem_append_right _ List.mem_cons_self
  have hne : pathOf s account.credentialReference ≠ pathOf s (newReference out) := by
    intro heq
    rw [hreference] at heq
    obtain ⟨rfl, -⟩ := hdrawn.eq_of_pathOf_eq (List.mem_append_left _ hmem) hnew heq
    exact hdrawn.notMem hmem
  have hfile : (d.logIn out s).files (pathOf s account.credentialReference) ≠ none := by
    rw [Desktop.logIn_files_pathOf hne]
    exact h.stored s account hsome
  obtain ⟨t, row, hrow, hpath⟩ := hafter.nothingElse _ hfile
  by_cases heq : t = s
  · subst heq
    rw [Desktop.logIn_accounts_self, Option.some.injEq] at hrow
    rw [← hrow] at hpath
    exact hne hpath
  · rw [Desktop.logIn_accounts_of_ne heq] at hrow
    exact heq (h.own s t account row hsome hrow hpath).symm

/-! ## Tokens and accounts -/

/-- While no login replaces an account, each call keeps one file for each row. -/
theorem oneEach_afterCalls {calls : List Call} (hworks : ∀ call ∈ calls, call.StorageWorks)
    (hdrawn : Drawn calls)
    (hfirst : ∀ before call rest, calls = before ++ call :: rest →
      ¬ Replaces (afterCalls .fresh before) call) : OneEach (afterCalls .fresh calls) := by
  induction calls using List.reverseRecOn with
  | nil => exact oneEach_fresh
  | append_singleton calls call ih =>
      have hcalls : ∀ other ∈ calls, other.StorageWorks :=
        fun other hmem => hworks other (List.mem_append_left _ hmem)
      have hcall := hworks call (List.mem_append_right _ List.mem_cons_self)
      have hprev : OneEach (afterCalls .fresh calls) := by
        refine ih hcalls hdrawn.of_append fun before other rest heq => ?_
        exact hfirst before other (rest ++ [call]) (by rw [heq]; simp)
      rw [afterCalls_append]
      cases call with
      | login out s =>
          by_cases hstores : Stores out
          · rw [run_login_of_stores hcall hstores]
            have hnone : (afterCalls .fresh calls).accounts s = none := by
              by_contra hsome
              exact hfirst calls _ [] rfl ⟨hstores, hsome⟩
            exact hprev.logIn (fromLogins_afterCalls hcalls) hdrawn hnone
          · rw [run_login_of_not_stores hcall hstores]
            exact hprev
      | logout out s =>
          rw [run_logout hcall]
          exact hprev.logOut s

/-- The token store holds exactly one file for each account, in every state of a sequence of
calls, if and only if no login of the sequence stores tokens for a source that has an account. -/
theorem tokens_follow_accounts_iff {calls : List Call}
    (hworks : ∀ call ∈ calls, call.StorageWorks)
    (huuids : ∀ uuid ∈ drawnUuids calls, IsUuid uuid) (hnew : (drawnUuids calls).Nodup) :
    (∀ before rest, calls = before ++ rest →
      OneEach (afterCalls .fresh before) ∧ NoneOutlives before (afterCalls .fresh before)) ↔
    ∀ before call rest, calls = before ++ call :: rest →
      ¬ Replaces (afterCalls .fresh before) call := by
  have hdrawn : Drawn calls := ⟨huuids, hnew⟩
  constructor
  · rintro hall before call rest rfl hreplaces
    have hbefore : ∀ other ∈ before, other.StorageWorks :=
      fun other hmem => hworks other (List.mem_append_left _ hmem)
    have hsplit : before ++ call :: rest = (before ++ [call]) ++ rest := by simp
    cases call with
    | logout out s => exact hreplaces
    | login out s =>
        obtain ⟨hstores, hsome⟩ := hreplaces
        obtain ⟨account, hsome⟩ := Option.ne_none_iff_exists'.mp hsome
        have hafter := (hall _ rest hsplit).1
        rw [afterCalls_append, run_login_of_stores
          (hworks _ (List.mem_append_right _ List.mem_cons_self)) hstores] at hafter
        exact not_oneEach_logIn (hall before _ rfl).1 (fromLogins_afterCalls hbefore)
          (hsplit ▸ hdrawn).of_append hsome hafter
  · rintro hfirst before rest rfl
    have hbefore : ∀ other ∈ before, other.StorageWorks :=
      fun other hmem => hworks other (List.mem_append_left _ hmem)
    have heach : OneEach (afterCalls .fresh before) := by
      refine oneEach_afterCalls hbefore hdrawn.of_append fun front call back heq => ?_
      exact hfirst front call (back ++ rest) (by rw [heq]; simp)
    exact ⟨heach, heach.noneOutlives (fromLogins_afterCalls hbefore) hdrawn.of_append⟩

/-! ## Two logins of one source -/

/-- A login that meets no obstacle. -/
def smooth (uuid : String) : Outside where
  fault _ := none
  scopes := ["profile"]
  accessToken := "token of " ++ uuid
  refreshToken := ""
  expiresIn := 3600
  subject := some "alice"
  now := 1700000000
  uuid := uuid

def firstUuid : String := "00000000-0000-4000-8000-000000000001"

def secondUuid : String := "00000000-0000-4000-8000-000000000002"

theorem isUuid_firstUuid : IsUuid firstUuid := by
  have hchars : firstUuid.toList = _ := String.toList_ofList
  apply isUuid_of_all
  · rw [hchars]
    rfl
  · rw [hchars]
    decide

theorem isUuid_secondUuid : IsUuid secondUuid := by
  have hchars : secondUuid.toList = _ := String.toList_ofList
  apply isUuid_of_all
  · rw [hchars]
    rfl
  · rw [hchars]
    decide

def twoLogins : List Call :=
  [.login (smooth firstUuid) "demo", .login (smooth secondUuid) "demo",
    .logout (smooth secondUuid) "demo"]

/-- One login and a logout: the store follows the accounts. -/
theorem tokens_follow_accounts_iff_once :
    (∀ before rest, [Call.login (smooth firstUuid) "demo", .logout (smooth firstUuid) "demo"] =
        before ++ rest →
      OneEach (afterCalls .fresh before) ∧ NoneOutlives before (afterCalls .fresh before)) ↔
    ∀ before call rest, [Call.login (smooth firstUuid) "demo", .logout (smooth firstUuid) "demo"] =
        before ++ call :: rest → ¬ Replaces (afterCalls .fresh before) call := by
  refine tokens_follow_accounts_iff (fun call hmem site _ => ?_) ?_ (List.nodup_singleton _)
  · rcases List.mem_pair.mp hmem with rfl | rfl <;> rfl
  · intro uuid hmem
    rw [List.mem_singleton.mp hmem]
    exact isUuid_firstUuid

/-- After two logins and a logout, the tokens of the first login are still in the store. -/
theorem first_tokens_outlive_logout :
    (∀ call ∈ twoLogins, call.StorageWorks) ∧ (∀ uuid ∈ drawnUuids twoLogins, IsUuid uuid) ∧
      (drawnUuids twoLogins).Nodup ∧ (afterCalls .fresh twoLogins).accounts "demo" = none ∧
      (afterCalls .fresh twoLogins).files (pathOf "demo" (newReference (smooth firstUuid))) ≠
        none := by
  refine ⟨fun call hmem site _ => ?_, ?_, by decide, by decide, by decide⟩
  · rcases List.mem_cons.mp hmem with rfl | hmem
    · rfl
    · rcases List.mem_pair.mp hmem with rfl | rfl <;> rfl
  · intro uuid hmem
    rcases List.mem_pair.mp hmem with rfl | rfl
    · exact isUuid_firstUuid
    · exact isUuid_secondUuid

end Useful.Client.Accounts
