/-
# Two token stores

The desktop keeps the tokens of a source in a file whose name is made of the source and the
reference, and the tests keep them in a map under both. Neither name determines the source and the
reference: the file name has an underscore for every other character and the file system does not
tell upper from lower case, and the key of the map separates by a character that may occur in both.
-/

import Useful.Client.SourceAccounts
import Useful.Math.KeyedStore

namespace Useful.Client.Accounts

open Useful.Math

abbrev Bytes := List Nat

inductive AccountError
  | store (message : String)
  deriving DecidableEq

/-- The source and the reference that tokens are kept under. -/
abbrev TokenRef := String × String

abbrev TokenCall := Access TokenRef TokenBundle

abbrev TokenAnswer := Except AccountError (Answer TokenBundle)

/-! ## The store in files -/

/-- Writing tokens as bytes and protecting these, which both can be undone. -/
structure Sealing where
  toVec : TokenBundle → Bytes
  fromSlice : Bytes → Option TokenBundle
  protect : Bytes → Bytes
  unprotect : Bytes → Bytes
  fromSlice_toVec : ∀ tokens, fromSlice (toVec tokens) = some tokens
  unprotect_protect : ∀ bytes, unprotect (protect bytes) = bytes

/-- How the file system tells file names apart. -/
def foldName (name : String) : List Char := name.toList.map Char.toUpper

/-- The files of the directory of credentials. -/
abbrev Files := List Char → Option Bytes

namespace DpapiTokenStore

variable (sealing : Sealing)

def save (sourceId reference : String) (tokens : TokenBundle) (files : Files) : Files :=
  let sealed := sealing.protect (sealing.toVec tokens)
  let tmp := foldName (tmpOf sourceId reference)
  let path := foldName (pathOf sourceId reference)
  let files := Function.update files tmp (some sealed)
  Function.update (Function.update files tmp none) path (files tmp)

def load (sourceId reference : String) (files : Files) :
    Except AccountError (Option TokenBundle) :=
  match files (foldName (pathOf sourceId reference)) with
  | none => .ok none
  | some sealed =>
      match sealing.fromSlice (sealing.unprotect sealed) with
      | some tokens => .ok (some tokens)
      | none => .error (.store "serde_json")

def delete (sourceId reference : String) (files : Files) : Files :=
  Function.update files (foldName (pathOf sourceId reference)) none

/-- One call. -/
def run (files : Files) : TokenCall → Files × TokenAnswer
  | .save name tokens => (save sealing name.1 name.2 tokens files, .ok .done)
  | .load name => (files, (load sealing name.1 name.2 files).map .found)
  | .delete name => (delete name.1 name.2 files, .ok .done)

/-- The answers to calls. -/
def answers : Files → List TokenCall → List TokenAnswer
  | _, [] => []
  | files, call :: calls => (run sealing files call).2 :: answers (run sealing files call).1 calls

/-- What the file system sees of a source and a reference. -/
def key (name : TokenRef) : List Char := foldName (pathOf name.1 name.2)

end DpapiTokenStore

/-! ## The store in memory -/

namespace MemoryTokenStore

/-- `format!("{source_id}\0{reference}")` -/
def key (name : TokenRef) : String := name.1 ++ "\x00" ++ name.2

/-- One call. -/
def run (inner : String → Option TokenBundle) (call : TokenCall) :
    (String → Option TokenBundle) × TokenAnswer :=
  match call with
  | .save name tokens => (Function.update inner (key name) (some tokens), .ok .done)
  | .load name => (inner, .ok (.found (inner (key name))))
  | .delete name => (Function.update inner (key name) none, .ok .done)

/-- The answers to calls. -/
def answers : (String → Option TokenBundle) → List TokenCall → List TokenAnswer
  | _, [] => []
  | inner, call :: calls => (run inner call).2 :: answers (run inner call).1 calls

end MemoryTokenStore

/-! ## Both are stores behind keys -/

theorem memory_answers (inner : String → Option TokenBundle) (calls : List TokenCall) :
    MemoryTokenStore.answers inner calls =
      (Access.answers MemoryTokenStore.key inner calls).map .ok := by
  induction calls generalizing inner with
  | nil => rfl
  | cons call calls ih =>
      have hrun : MemoryTokenStore.run inner call =
          ((call.run MemoryTokenStore.key inner).1, .ok (call.run MemoryTokenStore.key inner).2) := by
        cases call <;> rfl
      rw [MemoryTokenStore.answers, hrun, ih, Access.answers, List.map_cons]

theorem foldName_pathOf (name : TokenRef) :
    foldName (pathOf name.1 name.2) = DpapiTokenStore.key name := rfl

/-- The temporary file is never the file of a source and a reference. -/
theorem tmp_ne_key (sourceId reference : String) (name : TokenRef) :
    foldName (tmpOf sourceId reference) ≠ DpapiTokenStore.key name := by
  intro heq
  have hlast := congrArg List.getLast? heq
  simp [foldName, tmpOf, DpapiTokenStore.key, pathOf] at hlast

/-- Whether the files hold the sealed form of the values. -/
def Holds (sealing : Sealing) (files : Files) (values : List Char → Option TokenBundle) : Prop :=
  ∀ name : TokenRef, files (DpapiTokenStore.key name) =
    (values (DpapiTokenStore.key name)).map fun tokens => sealing.protect (sealing.toVec tokens)

theorem Holds.run {sealing : Sealing} {files : Files} {values : List Char → Option TokenBundle}
    (h : Holds sealing files values) (call : TokenCall) :
    Holds sealing (DpapiTokenStore.run sealing files call).1 (call.run DpapiTokenStore.key values).1 ∧
      (DpapiTokenStore.run sealing files call).2 =
        .ok (call.run DpapiTokenStore.key values).2 := by
  cases call with
  | save saved tokens =>
      refine ⟨fun name => ?_, rfl⟩
      have htmp := tmp_ne_key saved.1 saved.2 name
      simp only [DpapiTokenStore.run, Access.run, DpapiTokenStore.save, foldName_pathOf]
      rw [Function.update_self]
      by_cases hname : DpapiTokenStore.key name = DpapiTokenStore.key saved
      · rw [hname, Function.update_self, Function.update_self, Option.map_some]
      · rw [Function.update_of_ne hname, Function.update_of_ne hname,
          Function.update_of_ne htmp.symm, Function.update_of_ne htmp.symm, h name]
  | load name =>
      refine ⟨h, ?_⟩
      simp only [DpapiTokenStore.run, Access.run, DpapiTokenStore.load, foldName_pathOf, h name]
      cases values (DpapiTokenStore.key name) with
      | none => rfl
      | some tokens =>
          simp only [Option.map_some, sealing.unprotect_protect, sealing.fromSlice_toVec]
          rfl
  | delete deleted =>
      refine ⟨fun name => ?_, rfl⟩
      simp only [DpapiTokenStore.run, Access.run, DpapiTokenStore.delete, foldName_pathOf]
      by_cases hname : DpapiTokenStore.key name = DpapiTokenStore.key deleted
      · rw [hname, Function.update_self, Function.update_self, Option.map_none]
      · rw [Function.update_of_ne hname, Function.update_of_ne hname, h name]

theorem dpapi_answers {sealing : Sealing} {files : Files} {values : List Char → Option TokenBundle}
    (h : Holds sealing files values) (calls : List TokenCall) :
    DpapiTokenStore.answers sealing files calls =
      (Access.answers DpapiTokenStore.key values calls).map .ok := by
  induction calls generalizing files values with
  | nil => rfl
  | cons call calls ih =>
      obtain ⟨hnext, hanswer⟩ := h.run call
      rw [DpapiTokenStore.answers, hanswer, ih hnext, Access.answers, List.map_cons]

/-! ## Isolation -/

/-- The answers of a store that keeps the tokens of every source and reference apart. -/
def apartAnswers (calls : List TokenCall) : List TokenAnswer :=
  (Access.answers (id : TokenRef → TokenRef) (fun _ => none) calls).map .ok

/-- On calls for these sources and references, the store in files answers as the store in memory, and
both keep the tokens apart. -/
def Isolates (sealing : Sealing) (names : Set TokenRef) : Prop :=
  ∀ calls : List TokenCall, (∀ call ∈ calls, call.name ∈ names) →
    DpapiTokenStore.answers sealing (fun _ => none) calls =
      MemoryTokenStore.answers (fun _ => none) calls ∧
    DpapiTokenStore.answers sealing (fun _ => none) calls = apartAnswers calls

theorem isolates_eq (sealing : Sealing) (names : Set TokenRef) : Isolates sealing names ↔
    ∀ calls : List TokenCall, (∀ call ∈ calls, call.name ∈ names) →
      Access.answers DpapiTokenStore.key (fun _ => none) calls =
        Access.answers MemoryTokenStore.key (fun _ => none) calls ∧
      Access.answers DpapiTokenStore.key (fun _ => none) calls =
        Access.answers (id : TokenRef → TokenRef) (fun _ => none) calls := by
  have hholds : Holds sealing (fun _ => none) fun _ => none := fun _ => rfl
  have hmap : Function.Injective (List.map (Except.ok : Answer TokenBundle → TokenAnswer)) :=
    List.map_injective_iff.mpr fun _ _ h => Except.ok.inj h
  unfold Isolates apartAnswers
  simp only [dpapi_answers hholds, memory_answers, hmap.eq_iff]

/-- Where tokens are kept apart, no two names are folded into one. -/
theorem Isolates.injOn {sealing : Sealing} {names : Set TokenRef} (h : Isolates sealing names) :
    Set.InjOn DpapiTokenStore.key names ∧ Set.InjOn MemoryTokenStore.key names := by
  rw [isolates_eq] at h
  have : Nonempty TokenBundle := ⟨⟨"", "", 0⟩⟩
  have hfiles := Access.keys_agree_of_answers fun calls hcalls => (h calls hcalls).2
  have hmemory := Access.keys_agree_of_answers fun calls hcalls => (h calls hcalls).1
  refine ⟨fun a ha b hb heq => (hfiles a ha b hb).mp heq, fun a ha b hb heq => ?_⟩
  exact (hfiles a ha b hb).mp ((hmemory a ha b hb).mpr heq)

/-- The stores agree and keep tokens apart on exactly those sources and references whose file names
differ without regard to case and whose keys in memory differ. -/
theorem isolates_iff (sealing : Sealing) (names : Set TokenRef) : Isolates sealing names ↔
    Set.InjOn DpapiTokenStore.key names ∧ Set.InjOn MemoryTokenStore.key names := by
  constructor
  · exact fun h => h.injOn
  · rintro ⟨hfiles, hmemory⟩
    rw [isolates_eq]
    intro calls hcalls
    have hagree : ∀ a ∈ names, ∀ b ∈ names,
        DpapiTokenStore.key a = DpapiTokenStore.key b ↔ id a = id b :=
      fun a ha b hb => hfiles.eq_iff ha hb
    have hagree' : ∀ a ∈ names, ∀ b ∈ names,
        DpapiTokenStore.key a = DpapiTokenStore.key b ↔
          MemoryTokenStore.key a = MemoryTokenStore.key b :=
      fun a ha b hb => (hfiles.eq_iff ha hb).trans (hmemory.eq_iff ha hb).symm
    exact ⟨Access.answers_agree_of_empty hagree' hcalls, Access.answers_agree_of_empty hagree hcalls⟩

/-- Tokens written in the clear. -/
def plainSealing : Sealing where
  toVec tokens := tokens.expiresAt.toNat :: (-tokens.expiresAt).toNat ::
    tokens.accessToken.toList.length ::
      (tokens.accessToken.toList.map Char.toNat ++ tokens.refreshToken.toList.map Char.toNat)
  fromSlice
    | positive :: negative :: length :: rest =>
        some ⟨String.ofList ((rest.take length).map Char.ofNat),
          String.ofList ((rest.drop length).map Char.ofNat), positive - negative⟩
    | _ => none
  protect := id
  unprotect := id
  fromSlice_toVec tokens := by
    have hchars (text : List Char) : (text.map Char.toNat).map Char.ofNat = text := by
      simp [Function.comp_def, Char.ofNat_toNat]
    have hlength : tokens.accessToken.toList.length =
        (tokens.accessToken.toList.map Char.toNat).length := (List.length_map _).symm
    dsimp only
    rw [hlength, List.take_left, List.drop_left, hchars, hchars, String.ofList_toList,
      String.ofList_toList]
    congr
    omega
  unprotect_protect _ := rfl

/-- Two sources whose names differ in a dot and an underscore share their tokens. -/
theorem dpapi_shares_tokens :
    ¬ ∀ (sealing : Sealing) (names : Set TokenRef), Isolates sealing names := by
  intro h
  have hname : (("com.a", "ref1") : TokenRef) = ("com_a", "ref1") :=
    (h plainSealing Set.univ).injOn.1 (Set.mem_univ _) (Set.mem_univ _) (by
      rw [DpapiTokenStore.key, DpapiTokenStore.key, foldName, foldName, pathOf, pathOf,
        String.toList_ofList, String.toList_ofList]
      decide)
  exact absurd hname (by decide)

end Useful.Client.Accounts
