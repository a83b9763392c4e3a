/-
# Who can rotate next

A source is under control when the private key on disk, or a backup of one, is listed by the root
role of its highest root document. A rotation that is stopped after it has opened the new root
document and before it has written the new private key leaves the source without such a key; in
every other run the source stays under control, and the client accepts its chain of roots.
-/

import Useful.Cli.RootChain
import Useful.Math.Transition

namespace Useful.Cli.Source

open Useful.Math

/-! ## A source over time -/

/-- The disk, and what is left to do of the rotation that runs. -/
structure Session where
  disk : Disk
  running : Option (List DiskOp)

/-- Files that no rotation writes. -/
def Path.Elsewhere : Path → Prop
  | .rootDoc _ | .key _ | .keyBackup _ => False
  | _ => True

/-- `generateKey` returns a key of its own: no root document on disk lists it, and no private key
on disk is the same. -/
structure Fresh (crypto : Crypto) (files : Files) (pem : String) : Prop where
  documents : ∀ n doc, files (.rootDoc n) = some (.root doc) →
    (keyOf crypto pem).keyid ∉ doc.signed.keys.map Prod.fst
  privateKeys : ∀ path text, files path = some (.pem text) →
    (keyOf crypto text).keyid ≠ (keyOf crypto pem).keyid

inductive RotationEvent
  | rotate (clock : Clock) (newPem : String)
  | operation
  | stop
  | edit (path : Path) (c : Content)

/-- A rotation runs one file operation at a time, until it has ended or is stopped. The other
commands write other files. -/
def RotationStep (crypto : Crypto) (s : Session) (e : RotationEvent) (t : Session) : Prop :=
  match e with
  | .rotate clock newPem => s.running = none ∧ Fresh crypto s.disk.files newPem ∧
      t = ⟨s.disk, some (cmdRotateRoot crypto clock newPem s.disk).ops⟩
  | .operation => ∃ op ops, s.running = some (op :: ops) ∧ t = ⟨s.disk.perform op, some ops⟩
  | .stop => s.running ≠ none ∧ t = ⟨s.disk, none⟩
  | .edit path c => path.Elsewhere ∧ (∀ text, c ≠ .pem text) ∧ t = ⟨s.disk.put path c, s.running⟩

/-- The document that the client and the next rotation take for the current one. -/
def Highest (files : Files) (n : Nat) (doc : Signed RootSigned) : Prop :=
  files (.rootDoc n) = some (.root doc) ∧ ∀ m, n < m → files (.rootDoc m) = none

/-- `keys/root.pem`, or a backup of it, holds a private key. -/
def HoldsKey (files : Files) (pem : String) : Prop :=
  files (.key "root") = some (.pem pem) ∨ ∃ n, files (.keyBackup n) = some (.pem pem)

/-- Some private key on disk can sign the next root document. -/
def Controlled (crypto : Crypto) (files : Files) : Prop :=
  ∃ n doc pem k, Highest files n doc ∧ HoldsKey files pem ∧
    keyFromPrivatePem crypto pem = .ok k ∧ k.keyid ∈ doc.signed.root.keyids

/-- The new root document is not open yet. -/
def NotBegun (ops : List DiskOp) : Prop := ∃ n, DiskOp.truncate (.rootDoc n) ∈ ops

/-- A rotation is stopped before it has opened the new root document or after it has ended, and it
starts below the largest count that JavaScript holds. -/
def Sheltered (s : Session) (e : RotationEvent) : Prop :=
  match e with
  | .stop => ∀ ops, s.running = some ops → ops = [] ∨ NotBegun ops
  | .rotate _ _ => ∀ n ∈ s.disk.rootVersions, n < 2 ^ 53
  | _ => True

/-! ## The rotation of a settled source -/

/-- The documents are those of the history, and the last root key is in place. -/
structure Settled (crypto : Crypto) (h : History) (files : Files) (version : Nat) : Prop where
  rooted : Rooted crypto h files version
  current : files (.key "root") = some (.pem (h.pems version))

/-- The history once a version is added. -/
def History.extend (h : History) (version : Nat) (pem expires : String) : History where
  pems := Function.update h.pems version pem
  expires := Function.update h.expires version expires
  team := h.team

/-- `cmdRotateRoot`, as a list. -/
def rotationOps (version : Nat) (doc : Signed RootSigned) (newPem : String) : List DiskOp :=
  [.makeDirs (.rootDoc (version + 1)), .truncate (.rootDoc (version + 1)),
    .write (.rootDoc (version + 1)) (.root doc), .moveKey "root" version,
    .makeDirs (.key "root"), .truncate (.key "root"), .write (.key "root") (.pem newPem)]

section

variable {crypto : Crypto} {h : History} {N n : Nat} {pem expires : String} {disk : Disk}
  {files files' : Files}

theorem History.document_extend (hn : n < N) :
    (h.extend N pem expires).document crypto n = h.document crypto n := by
  have hpem : Function.update h.pems N pem n = h.pems n := Function.update_of_ne (by omega) _ _
  have hbefore : Function.update h.pems N pem (n - 1) = h.pems (n - 1) :=
    Function.update_of_ne (by omega) _ _
  have hexpires : Function.update h.expires N expires n = h.expires n :=
    Function.update_of_ne (by omega) _ _
  have hsigners : (h.extend N pem expires).signers n = h.signers n := by
    unfold signers extend
    dsimp only
    rw [hpem, hbefore]
    split_ifs with hone
    · rw [hone] at hpem
      rw [hpem]
    · rfl
  unfold document
  rw [hsigners]
  simp only [extend, hpem, hexpires]

theorem History.document_extend_self (hN : 1 ≤ N) :
    (h.extend (N + 1) pem expires).document crypto (N + 1) =
      signedRoot crypto (N + 1) expires (keyOf crypto pem) h.team [h.pems N, pem] := by
  have hsigners : (h.extend (N + 1) pem expires).signers (N + 1) = [h.pems N, pem] := by
    rw [signers, if_neg (by omega)]
    simp [extend]
  unfold document
  rw [hsigners]
  simp [extend]

/-- The listing of a settled source, highest first. -/
theorem Settled.highest_listed (hsettled : Settled crypto h disk.files N) :
    ∃ rest, disk.rootVersions.insertionSort (· ≥ ·) = N :: rest := by
  have hmem : ∀ n, n ∈ disk.rootVersions.insertionSort (· ≥ ·) ↔ 1 ≤ n ∧ n ≤ N := by
    intro n
    rw [List.mem_insertionSort, disk.lists]
    constructor
    · intro hn
      by_contra hout
      exact hn (hsettled.rooted.absent n (by omega))
    · intro hn
      rw [hsettled.rooted.documents n hn.1 hn.2]
      exact nofun
  have hsorted : (disk.rootVersions.insertionSort (· ≥ ·)).Pairwise (· ≥ ·) :=
    List.pairwise_insertionSort _ _
  have hN := (hmem N).mpr ⟨hsettled.rooted.positive, le_rfl⟩
  cases hlist : disk.rootVersions.insertionSort (· ≥ ·) with
  | nil =>
      rw [hlist] at hN
      cases hN
  | cons first rest =>
      rw [hlist] at hmem hsorted hN
      have hfirst := ((hmem first).mp List.mem_cons_self).2
      have hle : N ≤ first := by
        rcases List.mem_cons.mp hN with rfl | hrest
        · exact le_rfl
        · exact List.rel_of_pairwise_cons hsorted hrest
      exact ⟨rest, by rw [le_antisymm hle hfirst]⟩

/-- The key ids of a document are those of its keys. -/
theorem keyids_document (h : History) (n : Nat) :
    (h.document crypto n).signed.keys.map Prod.fst =
      (h.team.keys (keyOf crypto (h.pems n))).map Key.keyid := keyids_eq

/-- A fresh key goes with the keys of the other roles. -/
theorem Settled.drawn_fresh (hsettled : Settled crypto h files N)
    (hfresh : Fresh crypto files pem) : Drawn crypto (keyOf crypto pem) h.team := by
  have hle := hsettled.rooted.positive
  have hdrawn := hsettled.rooted.drawn N hle le_rfl
  have hnot := hfresh.documents N _ (hsettled.rooted.documents N hle le_rfl)
  rw [keyids_document] at hnot
  constructor
  · intro k hk
    rcases List.mem_cons.mp hk with rfl | hk
    · exact ⟨pem, rfl⟩
    · exact hdrawn.keys k (List.mem_cons_of_mem _ hk)
  · have hapart : ((h.team.keys (keyOf crypto (h.pems N))).map Key.keyid).Nodup := hdrawn.apart
    rw [Team.keys, List.map_cons, List.nodup_cons] at hapart
    rw [Team.keys, List.map_cons, List.mem_cons, not_or] at hnot
    exact List.nodup_cons.mpr ⟨hnot.2, hapart.2⟩

/-- What a rotation of a settled source computes. -/
theorem nextRoot_eq {config : SourceConfig} {clock : Clock}
    (hsettled : Settled crypto h disk.files N) (hfresh : Fresh crypto disk.files pem)
    (hconfig : loadConfig disk.files = .ok config) (hN : N < 2 ^ 53) :
    nextRoot crypto clock pem disk = .ok (N, N + 1,
      (h.extend (N + 1) pem (clock.expiresIn config.expires.root)).document crypto (N + 1)) := by
  have hle := hsettled.rooted.positive
  obtain ⟨rest, hlisted⟩ := hsettled.highest_listed
  have hdrawn := hsettled.rooted.drawn N hle le_rfl
  have hdrawn' := hsettled.drawn_fresh hfresh
  have hold : loadRootKey crypto disk.files = .ok (keyOf crypto (h.pems N)) := by
    rw [loadRootKey, hsettled.current]
    exact keyFromPrivatePem_eq _
  have hcur : readRoot disk.files N = .ok (h.document crypto N).signed := by
    rw [readRoot, hsettled.rooted.documents N hle le_rfl]
  have hroles : ∀ k ∈ h.team.keys (keyOf crypto (h.pems N)),
      rolesOf (h.document crypto N).signed ⟨[k.keyid], 1⟩ = .ok [k.listed] :=
    fun k hk => rolesOf_eq (lookup_soloRoot hdrawn.apart hk)
  have htargets : rolesOf (h.document crypto N).signed (h.document crypto N).signed.targets =
      .ok [h.team.targets.listed] := hroles h.team.targets (by simp [Team.keys])
  have hsnapshot : rolesOf (h.document crypto N).signed (h.document crypto N).signed.snapshot =
      .ok [h.team.snapshot.listed] := hroles h.team.snapshot (by simp [Team.keys])
  have htimestamp : rolesOf (h.document crypto N).signed (h.document crypto N).signed.timestamp =
      .ok [h.team.timestamp.listed] := hroles h.team.timestamp (by simp [Team.keys])
  have hversion : (h.document crypto N).signed.version = N := rfl
  have hnext : addOne N = N + 1 := by rw [addOne, if_pos hN]
  have hsafe : N + 1 ≤ 2 ^ 53 := Nat.succ_le_of_lt hN
  have hsigned : wrapAndSign crypto
      (soloRoot (N + 1) (clock.expiresIn config.expires.root) (keyOf crypto pem) h.team)
      ([h.pems N, pem].map (keyOf crypto)) =
      .ok (signedRoot crypto (N + 1) (clock.expiresIn config.expires.root) (keyOf crypto pem) h.team
        [h.pems N, pem]) := wrapAndSign_eq hdrawn' hsafe
  rw [List.map_cons, List.map_cons, List.map_nil] at hsigned
  rw [nextRoot, hconfig, bind_of_eq_ok rfl, hold, bind_of_eq_ok rfl, hlisted]
  dsimp only
  rw [hcur, bind_of_eq_ok rfl, keyFromPrivatePem_eq, bind_of_eq_ok rfl, htargets,
    bind_of_eq_ok rfl, hsnapshot, bind_of_eq_ok rfl, htimestamp, bind_of_eq_ok rfl, hversion, hnext,
    buildRootSigned_eq hdrawn'.apart, hsigned, bind_of_eq_ok rfl, History.document_extend_self hle]
  rfl

/-- A rotation of a settled source writes the next document of the history. -/
theorem cmdRotateRoot_of_config {config : SourceConfig} {clock : Clock}
    (hsettled : Settled crypto h disk.files N) (hfresh : Fresh crypto disk.files pem)
    (hconfig : loadConfig disk.files = .ok config) (hN : N < 2 ^ 53) :
    (cmdRotateRoot crypto clock pem disk).ops = rotationOps N
      ((h.extend (N + 1) pem (clock.expiresIn config.expires.root)).document crypto (N + 1)) pem := by
  rw [cmdRotateRoot, nextRoot_eq hsettled hfresh hconfig hN]
  rfl

/-- Without a configuration it does nothing. -/
theorem cmdRotateRoot_ops {clock : Clock} (hsettled : Settled crypto h disk.files N)
    (hfresh : Fresh crypto disk.files pem) (hN : N < 2 ^ 53) :
    (cmdRotateRoot crypto clock pem disk).ops = [] ∨ ∃ expires,
      (cmdRotateRoot crypto clock pem disk).ops =
        rotationOps N ((h.extend (N + 1) pem expires).document crypto (N + 1)) pem := by
  cases hconfig : loadConfig disk.files with
  | error e =>
      refine .inl ?_
      rw [cmdRotateRoot, nextRoot, hconfig]
      rfl
  | ok config => exact .inr ⟨_, cmdRotateRoot_of_config hsettled hfresh hconfig hN⟩

/-! ## A rotation on its way -/

/-- No private key on disk is the one that the highest root document asks for. -/
structure Lost (crypto : Crypto) (files : Files) (n : Nat) (pem : String) : Prop where
  opened : ∃ c, files (.rootDoc n) = some c ∧
    ∀ doc, c = .root doc → doc.signed.root.keyids = [(keyOf crypto pem).keyid]
  beyond : ∀ m, n < m → files (.rootDoc m) = none
  others : ∀ path text, files path = some (.pem text) →
    (keyOf crypto text).keyid ≠ (keyOf crypto pem).keyid

theorem Lost.not_controlled (hlost : Lost crypto files n pem) : ¬ Controlled crypto files := by
  rintro ⟨m, doc, text, k, ⟨hdoc, hbeyond⟩, hholds, hkey, hmem⟩
  obtain ⟨c, hc, hkeyids⟩ := hlost.opened
  have hsame : m = n := by
    rcases Nat.lt_trichotomy m n with hlt | heq | hgt
    · rw [hbeyond n hlt] at hc
      cases hc
    · exact heq
    · rw [hlost.beyond m hgt] at hdoc
      cases hdoc
  subst hsame
  rw [hdoc] at hc
  rw [hkeyids doc (Option.some.inj hc).symm, List.mem_singleton] at hmem
  rw [keyFromPrivatePem_eq] at hkey
  have hother : (keyOf crypto text).keyid ≠ (keyOf crypto pem).keyid := by
    rcases hholds with hcurrent | ⟨v, hbackup⟩
    · exact hlost.others _ text hcurrent
    · exact hlost.others _ text hbackup
  obtain rfl := Except.ok.inj hkey
  exact hother hmem

theorem Settled.controlled (hsettled : Settled crypto h files N) : Controlled crypto files := by
  have hle := hsettled.rooted.positive
  exact ⟨N, h.document crypto N, h.pems N, keyOf crypto (h.pems N),
    ⟨hsettled.rooted.documents N hle le_rfl, fun m hm => hsettled.rooted.absent m (.inr hm)⟩,
    .inl hsettled.current, keyFromPrivatePem_eq _, List.mem_cons_self⟩

/-- A file that is not a private key is written, and the new root document stays the highest. -/
theorem Lost.put (hlost : Lost crypto disk.files n pem) {path : Path} {c : Content}
    (hpem : ∀ text, c ≠ .pem text)
    (hopened : path = .rootDoc n → ∀ doc, c = .root doc →
      doc.signed.root.keyids = [(keyOf crypto pem).keyid])
    (hbeyond : ∀ m, n < m → path ≠ .rootDoc m) : Lost crypto (disk.put path c).files n pem where
  opened := by
    by_cases hpath : path = .rootDoc n
    · exact ⟨c, by rw [Disk.put_files, hpath, Function.update_self], hopened hpath⟩
    · obtain ⟨c', hc', hkeyids⟩ := hlost.opened
      exact ⟨c', by rw [Disk.put_files, Function.update_of_ne (Ne.symm hpath), hc'], hkeyids⟩
  beyond m hm := by
    rw [Disk.put_files, Function.update_of_ne (hbeyond m hm).symm]
    exact hlost.beyond m hm
  others path' text htext := by
    rw [Disk.put_files, Function.update_apply] at htext
    split_ifs at htext
    · exact absurd (Option.some.inj htext) (hpem text)
    · exact hlost.others path' text htext

theorem Lost.moveKey (hlost : Lost crypto disk.files n pem) (role : String) (version : Nat) :
    Lost crypto (disk.moveKey role version).files n pem where
  opened := by simpa using hlost.opened
  beyond m hm := by simpa using hlost.beyond m hm
  others path text htext := by
    rw [Disk.moveKey_files, Function.update_apply, Function.update_apply] at htext
    split_ifs at htext
    · exact hlost.others _ text htext
    · exact hlost.others path text htext

/-- The new root document is opened. -/
theorem Settled.lost (hsettled : Settled crypto h disk.files N)
    (hfresh : Fresh crypto disk.files pem) :
    Lost crypto (disk.put (.rootDoc (N + 1)) (.raw [])).files (N + 1) pem where
  opened := ⟨.raw [], Function.update_self .., nofun⟩
  beyond m hm := by
    rw [Disk.put_files, Function.update_of_ne (fun heq => by cases heq; omega)]
    exact hsettled.rooted.absent m (.inr (by omega))
  others path text htext := by
    rw [Disk.put_files, Function.update_apply] at htext
    split_ifs at htext
    · cases htext
    · exact hfresh.privateKeys path text htext

/-- What is left to do of a rotation, and how the disk is meanwhile. -/
structure Rotating (crypto : Crypto) (disk : Disk) (ops : List DiskOp) (h : History) (N : Nat)
    (pem expires : String) : Prop where
  suffix : ops <:+ rotationOps N ((h.extend (N + 1) pem expires).document crypto (N + 1)) pem
  ends : Settled crypto (h.extend (N + 1) pem expires) (ops.foldl Disk.perform disk).files (N + 1)
  before : NotBegun ops → Settled crypto h disk.files N ∧ Fresh crypto disk.files pem
  lost : ops ≠ [] → ¬ NotBegun ops → Lost crypto disk.files (N + 1) pem

/-- Once all of it is done the source is settled again. -/
theorem Settled.rotated (hsettled : Settled crypto h disk.files N)
    (hfresh : Fresh crypto disk.files pem) (hN : N < 2 ^ 53) :
    Settled crypto (h.extend (N + 1) pem expires)
      ((rotationOps N ((h.extend (N + 1) pem expires).document crypto (N + 1)) pem).foldl
        Disk.perform disk).files (N + 1) := by
  have hdoc : ∀ n, ((rotationOps N ((h.extend (N + 1) pem expires).document crypto (N + 1))
      pem).foldl Disk.perform disk).files (.rootDoc n) =
      if n = N + 1 then some (.root ((h.extend (N + 1) pem expires).document crypto (N + 1)))
      else disk.files (.rootDoc n) := by
    intro n
    simp [rotationOps, Disk.perform, Function.update_apply]
  have hpem : ∀ n, n ≤ N → (h.extend (N + 1) pem expires).pems n = h.pems n :=
    fun n hn => Function.update_of_ne (by omega) _ _
  refine ⟨⟨by omega, Nat.succ_le_of_lt hN, ?_, ?_, ?_⟩, ?_⟩
  · intro n hpos hle
    rw [hdoc]
    split_ifs with hn
    · rw [hn]
    · rw [History.document_extend (by omega)]
      exact hsettled.rooted.documents n hpos (by omega)
  · intro n hn
    rw [hdoc, if_neg (by omega)]
    exact hsettled.rooted.absent n (by omega)
  · intro n hpos hle
    rcases Nat.lt_or_ge N n with hn | hn
    · obtain rfl : n = N + 1 := by omega
      have hself : (h.extend (N + 1) pem expires).pems (N + 1) = pem := Function.update_self ..
      rw [hself]
      exact hsettled.drawn_fresh hfresh
    · rw [hpem n hn]
      exact hsettled.rooted.drawn n hpos hn
  · simp [rotationOps, Disk.perform, History.extend]

theorem Settled.rotating (hsettled : Settled crypto h disk.files N)
    (hfresh : Fresh crypto disk.files pem) (hN : N < 2 ^ 53) :
    Rotating crypto disk
      (rotationOps N ((h.extend (N + 1) pem expires).document crypto (N + 1)) pem) h N pem
      expires where
  suffix := List.suffix_rfl
  ends := hsettled.rotated hfresh hN
  before _ := ⟨hsettled, hfresh⟩
  lost _ hnot := absurd ⟨N + 1, by simp [rotationOps]⟩ hnot

theorem notBegun_cons {op : DiskOp} {ops : List DiskOp} (h : NotBegun ops) : NotBegun (op :: ops) :=
  h.elim fun n hn => ⟨n, List.mem_cons_of_mem _ hn⟩

/-- One operation further. -/
theorem Rotating.perform {op : DiskOp} {ops : List DiskOp}
    (hrotating : Rotating crypto disk (op :: ops) h N pem expires) :
    Rotating crypto (disk.perform op) ops h N pem expires := by
  have hsuffix := (List.suffix_cons op ops).trans hrotating.suffix
  have hends := hrotating.ends
  have hcases := hrotating.suffix
  simp only [rotationOps, List.suffix_cons_iff, List.suffix_nil, List.cons.injEq, reduceCtorEq,
    or_false] at hcases
  -- The operations in the order of the script.
  rcases hcases with ⟨rfl, rfl⟩ | ⟨rfl, rfl⟩ | ⟨rfl, rfl⟩ | ⟨rfl, rfl⟩ | ⟨rfl, rfl⟩ | ⟨rfl, rfl⟩ |
    ⟨rfl, rfl⟩
  · have hbegun := hrotating.before ⟨N + 1, by simp⟩
    exact ⟨hsuffix, hends, fun _ => hbegun, fun _ hnot => absurd ⟨N + 1, by simp⟩ hnot⟩
  · obtain ⟨hsettled, hfresh⟩ := hrotating.before ⟨N + 1, by simp⟩
    exact ⟨hsuffix, hends, by simp [NotBegun], fun _ _ => hsettled.lost hfresh⟩
  · have hlost := hrotating.lost (by simp) (by simp [NotBegun])
    refine ⟨hsuffix, hends, by simp [NotBegun], fun _ _ => hlost.put ?_ ?_ ?_⟩
    · rintro text ⟨⟩
    · rintro - doc ⟨⟩
      simp [History.document, signedRoot, soloRoot, History.extend]
    · rintro m hm ⟨⟩
      omega
  · have hlost := hrotating.lost (by simp) (by simp [NotBegun])
    exact ⟨hsuffix, hends, by simp [NotBegun], fun _ _ => hlost.moveKey _ _⟩
  · have hlost := hrotating.lost (by simp) (by simp [NotBegun])
    exact ⟨hsuffix, hends, by simp [NotBegun], fun _ _ => hlost⟩
  · have hlost := hrotating.lost (by simp) (by simp [NotBegun])
    refine ⟨hsuffix, hends, by simp [NotBegun], fun _ _ => hlost.put ?_ ?_ ?_⟩
    · rintro text ⟨⟩
    · rintro ⟨⟩
    · rintro m - ⟨⟩
  · exact ⟨hsuffix, hends, by simp [NotBegun], fun hne => absurd rfl hne⟩

/-! ## Edits elsewhere -/

/-- The same root documents and private keys. -/
def SameKeys (files files' : Files) : Prop :=
  ∀ path, ¬ path.Elsewhere → files path = files' path

theorem sameKeys_perform {disk' : Disk} (hsame : SameKeys disk.files disk'.files) (op : DiskOp) :
    SameKeys (disk.perform op).files (disk'.perform op).files := by
  intro path hpath
  cases op with
  | makeDirs _ => exact hsame path hpath
  | truncate written | write written _ =>
      simp only [Disk.perform, Disk.put_files, Function.update_apply, hsame path hpath]
  | moveKey role version =>
      simp only [Disk.perform, Disk.moveKey_files, Function.update_apply, hsame path hpath,
        hsame (.key role) id]

theorem sameKeys_foldl {disk' : Disk} (hsame : SameKeys disk.files disk'.files)
    (ops : List DiskOp) :
    SameKeys (ops.foldl Disk.perform disk).files (ops.foldl Disk.perform disk').files := by
  induction ops generalizing disk disk' with
  | nil => exact hsame
  | cons op ops ih => exact ih (sameKeys_perform hsame op)

theorem Settled.congr (hsettled : Settled crypto h files N) (hsame : SameKeys files files') :
    Settled crypto h files' N where
  rooted :=
    { positive := hsettled.rooted.positive
      safe := hsettled.rooted.safe
      documents := fun n hpos hle => (hsame _ id).symm.trans (hsettled.rooted.documents n hpos hle)
      absent := fun n hn => (hsame _ id).symm.trans (hsettled.rooted.absent n hn)
      drawn := hsettled.rooted.drawn }
  current := (hsame _ id).symm.trans hsettled.current

/-- A file elsewhere that is not a private key. -/
theorem sameKeys_put {path : Path} {c : Content} (hpath : path.Elsewhere) :
    SameKeys disk.files (disk.put path c).files := by
  intro path' hpath'
  have hne : path' ≠ path := fun heq => hpath' (heq ▸ hpath)
  rw [Disk.put_files, Function.update_of_ne hne]

theorem Fresh.put (hfresh : Fresh crypto disk.files pem) {path : Path} {c : Content}
    (hpath : path.Elsewhere) (hpem : ∀ text, c ≠ .pem text) :
    Fresh crypto (disk.put path c).files pem where
  documents n doc hdoc := by
    rw [← sameKeys_put hpath _ id] at hdoc
    exact hfresh.documents n doc hdoc
  privateKeys path' text htext := by
    rw [Disk.put_files, Function.update_apply] at htext
    split_ifs at htext
    · exact absurd (Option.some.inj htext) (hpem text)
    · exact hfresh.privateKeys path' text htext

theorem Rotating.edit {ops : List DiskOp} {path : Path} {c : Content}
    (hrotating : Rotating crypto disk ops h N pem expires) (hpath : path.Elsewhere)
    (hpem : ∀ text, c ≠ .pem text) : Rotating crypto (disk.put path c) ops h N pem expires where
  suffix := hrotating.suffix
  ends := hrotating.ends.congr (sameKeys_foldl (sameKeys_put hpath) ops)
  before hbefore := by
    obtain ⟨hsettled, hfresh⟩ := hrotating.before hbefore
    exact ⟨hsettled.congr (sameKeys_put hpath), hfresh.put hpath hpem⟩
  lost hne hbegun := by
    refine (hrotating.lost hne hbegun).put hpem ?_ ?_
    · rintro rfl
      exact hpath.elim
    · rintro m - rfl
      exact hpath.elim

end

/-! ## Runs -/

section

variable {crypto : Crypto} {s t : Session} {e : RotationEvent}

/-- Between rotations the source is settled, and during one it is on its way. -/
structure Recoverable (crypto : Crypto) (s : Session) : Prop where
  atRest : s.running = none → ∃ h N, Settled crypto h s.disk.files N
  running : ∀ ops, s.running = some ops →
    (ops = [] ∧ ∃ h N, Settled crypto h s.disk.files N) ∨
      ∃ h N pem expires, Rotating crypto s.disk ops h N pem expires

/-- A rotation may be stopped where the condition says, and nowhere else. -/
theorem Recoverable.controlled_iff (hrec : Recoverable crypto s) {ops : List DiskOp}
    (hrunning : s.running = some ops) :
    Controlled crypto s.disk.files ↔ ops = [] ∨ NotBegun ops := by
  constructor
  · intro hcontrolled
    rcases hrec.running ops hrunning with ⟨rfl, -⟩ | ⟨h, N, pem, expires, hrotating⟩
    · exact .inl rfl
    · by_contra hnot
      obtain ⟨hne, hbegun⟩ := not_or.mp hnot
      exact (hrotating.lost hne hbegun).not_controlled hcontrolled
  · intro hsheltered
    rcases hrec.running ops hrunning with ⟨-, h, N, hsettled⟩ | ⟨h, N, pem, expires, hrotating⟩
    · exact hsettled.controlled
    · rcases hsheltered with rfl | hbefore
      · exact hrotating.ends.controlled
      · exact (hrotating.before hbefore).1.controlled

/-- Where a rotation may be stopped the source is settled. -/
theorem Recoverable.settled (hrec : Recoverable crypto s) {ops : List DiskOp}
    (hrunning : s.running = some ops) (hsheltered : ops = [] ∨ NotBegun ops) :
    ∃ h N, Settled crypto h s.disk.files N := by
  rcases hrec.running ops hrunning with ⟨-, hsettled⟩ | ⟨h, N, pem, expires, hrotating⟩
  · exact hsettled
  · rcases hsheltered with rfl | hbefore
    · exact ⟨_, _, hrotating.ends⟩
    · exact ⟨_, _, (hrotating.before hbefore).1⟩

theorem recoverable_step (hrec : Recoverable crypto s) (hsheltered : Sheltered s e)
    (hstep : RotationStep crypto s e t) : Recoverable crypto t := by
  cases e with
  | rotate clock newPem =>
      obtain ⟨hnone, hfresh, rfl⟩ := hstep
      obtain ⟨h, N, hsettled⟩ := hrec.atRest hnone
      have hN : N < 2 ^ 53 := by
        apply hsheltered N
        rw [s.disk.lists, hsettled.rooted.documents N hsettled.rooted.positive le_rfl]
        exact nofun
      refine ⟨nofun, fun ops hops => ?_⟩
      obtain rfl := Option.some.inj hops
      rcases cmdRotateRoot_ops hsettled hfresh hN with hnil | ⟨expires, hops⟩
      · exact .inl ⟨hnil, h, N, hsettled⟩
      · refine .inr ⟨h, N, newPem, expires, ?_⟩
        rw [hops]
        exact hsettled.rotating hfresh hN
  | operation =>
      obtain ⟨op, ops, hrunning, rfl⟩ := hstep
      refine ⟨nofun, fun ops' hops => ?_⟩
      obtain rfl := Option.some.inj hops
      rcases hrec.running _ hrunning with ⟨hnil, -⟩ | ⟨h, N, pem, expires, hrotating⟩
      · cases hnil
      · exact .inr ⟨h, N, pem, expires, hrotating.perform⟩
  | stop =>
      obtain ⟨hrunning, rfl⟩ := hstep
      obtain ⟨ops, hops⟩ := Option.ne_none_iff_exists'.mp hrunning
      exact ⟨fun _ => hrec.settled hops (hsheltered ops hops), nofun⟩
  | edit path c =>
      obtain ⟨hpath, hpem, rfl⟩ := hstep
      have hsame : SameKeys s.disk.files (s.disk.put path c).files := sameKeys_put hpath
      constructor
      · intro hnone
        obtain ⟨h, N, hsettled⟩ := hrec.atRest hnone
        exact ⟨h, N, hsettled.congr hsame⟩
      · intro ops hops
        rcases hrec.running ops hops with ⟨hnil, h, N, hsettled⟩ | ⟨h, N, pem, expires, hrotating⟩
        · exact .inl ⟨hnil, h, N, hsettled.congr hsame⟩
        · exact .inr ⟨h, N, pem, expires, hrotating.edit hpath hpem⟩

theorem run_rotation {disk : Disk} {rest : List DiskOp} (done : List DiskOp) :
    Run (Guarded Sheltered (RotationStep crypto)) ⟨disk, some (done ++ rest)⟩
      (done.map fun _ => .operation) ⟨done.foldl Disk.perform disk, some rest⟩ := by
  induction done generalizing disk with
  | nil => exact .nil _
  | cons op done ih => exact .cons ⟨trivial, op, _, rfl, rfl⟩ ih

end

/-! ## From `cmdInit` on -/

/-- `generateKey` returns four keys of their own. -/
def InitKeys.Apart (crypto : Crypto) (pems : InitKeys) : Prop :=
  ([pems.root, pems.targets, pems.snapshot, pems.timestamp].map
    fun pem => (keyOf crypto pem).keyid).Nodup

/-- A source that `cmdInit` has made in an empty directory. -/
def initialSession (crypto : Crypto) (clock : Clock) (opts : InitOptions) (pems : InitKeys) :
    Session :=
  ⟨(cmdInit crypto clock opts pems Disk.empty.files).ops.foldl Disk.perform .empty, none⟩

section

variable {crypto : Crypto} {tuf : Tuf.External} {clock : Clock} {opts : InitOptions}
  {pems : InitKeys}

def InitKeys.team (crypto : Crypto) (pems : InitKeys) : Team where
  targets := keyOf crypto pems.targets
  snapshot := keyOf crypto pems.snapshot
  timestamp := keyOf crypto pems.timestamp

theorem InitKeys.Apart.drawn (h : pems.Apart crypto) :
    Drawn crypto (keyOf crypto pems.root) (pems.team crypto) where
  keys := by simp [Team.keys, InitKeys.team]
  apart := h

/-- The history of a source that has not been rotated. -/
def InitKeys.history (crypto : Crypto) (pems : InitKeys) (clock : Clock) : History where
  pems _ := pems.root
  expires _ := clock.expiresIn 3650
  team := pems.team crypto

/-- What `cmdInit` writes. -/
theorem cmdInit_ops (h : pems.Apart crypto) :
    (cmdInit crypto clock opts pems Disk.empty.files).ops =
      [(.key "root", .pem pems.root), (.key "targets", .pem pems.targets),
        (.key "snapshot", .pem pems.snapshot), (.key "timestamp", .pem pems.timestamp),
        (.key "publisher", .pem pems.publisher),
        (.config, .config (initConfig opts (keyOf crypto pems.publisher))),
        (.rootDoc 1, .root ((pems.history crypto clock).document crypto 1)),
        (.state, .state ⟨⟨0, 0, 0⟩, []⟩)].flatMap fun (file : Path × Content) =>
          [DiskOp.makeDirs file.1, .truncate file.1, .write file.1 file.2] := by
  have hsafe : 1 ≤ 2 ^ 53 := by norm_num
  have hsigned : wrapAndSign crypto (soloRoot 1 (clock.expiresIn 3650) (keyOf crypto pems.root)
      (pems.team crypto)) ([pems.root].map (keyOf crypto)) =
      .ok ((pems.history crypto clock).document crypto 1) := wrapAndSign_eq h.drawn hsafe
  rw [List.map_cons, List.map_nil] at hsigned
  have hbuilt : buildRootSigned 1 (clock.expiresIn 3650) [(keyOf crypto pems.root).listed]
      [(keyOf crypto pems.targets).listed] [(keyOf crypto pems.snapshot).listed]
      [(keyOf crypto pems.timestamp).listed] =
      soloRoot 1 (clock.expiresIn 3650) (keyOf crypto pems.root) (pems.team crypto) :=
    @buildRootSigned_eq 1 (clock.expiresIn 3650) (keyOf crypto pems.root) (pems.team crypto)
      h.drawn.apart
  have hexpires : (initConfig opts (keyOf crypto pems.publisher)).expires.root = 3650 := rfl
  rw [cmdInit, if_neg (by simp [Disk.empty])]
  simp only [keyFromPrivatePem_eq, Script.ofExcept_ok_bind, hexpires, hbuilt, hsigned]
  rfl

theorem settled_initialSession (h : pems.Apart crypto) :
    Settled crypto (pems.history crypto clock) (initialSession crypto clock opts pems).disk.files
      1 := by
  have hroot : ∀ n, (initialSession crypto clock opts pems).disk.files (.rootDoc n) =
      if n = 1 then some (.root ((pems.history crypto clock).document crypto 1)) else none := by
    intro n
    rw [initialSession, cmdInit_ops h]
    simp [Disk.perform, Function.update_apply, Disk.empty]
  have hkey : (initialSession crypto clock opts pems).disk.files (.key "root") =
      some (.pem pems.root) := by
    rw [initialSession, cmdInit_ops h]
    simp [Disk.perform]
  refine ⟨⟨le_rfl, by norm_num, ?_, ?_, fun _ _ _ => h.drawn⟩, hkey⟩
  · intro n hpos hle
    rw [hroot, if_pos (by omega), le_antisymm hle hpos]
  · intro n hn
    rw [hroot, if_neg (by omega)]

/-- The private keys on disk are the generated ones. -/
theorem pem_initialSession (h : pems.Apart crypto) {path : Path} {text : String}
    (htext : (initialSession crypto clock opts pems).disk.files path = some (.pem text)) :
    text ∈ [pems.root, pems.targets, pems.snapshot, pems.timestamp, pems.publisher] := by
  rw [initialSession, cmdInit_ops h] at htext
  simp only [List.flatMap_cons, List.flatMap_nil, List.cons_append, List.nil_append,
    List.foldl_cons, List.foldl_nil, Disk.perform, Disk.put_files, Function.update_apply,
    Disk.empty] at htext
  split_ifs at htext <;> cases htext <;> simp

theorem config_initialSession (h : pems.Apart crypto) :
    loadConfig (initialSession crypto clock opts pems).disk.files =
      .ok (initConfig opts (keyOf crypto pems.publisher)) := by
  rw [initialSession, cmdInit_ops h, loadConfig]
  simp [Disk.perform]

/-- Wherever a rotation may be stopped according to the condition, the source is under control and
the client accepts its roots; a rotation that is stopped elsewhere leaves it without a key. -/
theorem root_controlled_iff_sheltered (hlawful : crypto.Lawful tuf) (hpems : pems.Apart crypto)
    {events : List RotationEvent} {s : Session}
    (hrun : Run (Guarded Sheltered (RotationStep crypto))
      (initialSession crypto clock opts pems) events s) :
    (s.running = none → Controlled crypto s.disk.files ∧
      ∃ n doc, Highest s.disk.files n doc ∧ ChainAccepted tuf s.disk.files n) ∧
    ∀ t, RotationStep crypto s .stop t → (Controlled crypto t.disk.files ↔ Sheltered s .stop) := by
  have hstart : Recoverable crypto (initialSession crypto clock opts pems) :=
    ⟨fun _ => ⟨_, 1, settled_initialSession hpems⟩, nofun⟩
  have hkeeps : ∀ s e t, Recoverable crypto s → Guarded Sheltered (RotationStep crypto) s e t →
      Recoverable crypto t := fun s e t hs hstep => recoverable_step hs hstep.1 hstep.2
  have hrec : Recoverable crypto s := hrun.invariant hkeeps hstart
  constructor
  · intro hnone
    obtain ⟨h, N, hsettled⟩ := hrec.atRest hnone
    exact ⟨hsettled.controlled, N, h.document crypto N,
      ⟨hsettled.rooted.documents N hsettled.rooted.positive le_rfl,
        fun m hm => hsettled.rooted.absent m (.inr hm)⟩,
      chainAccepted hlawful hsettled.rooted⟩
  · rintro t ⟨hrunning, rfl⟩
    obtain ⟨ops, hops⟩ := Option.ne_none_iff_exists'.mp hrunning
    rw [hrec.controlled_iff hops]
    constructor
    · intro hsheltered ops' hops'
      rw [hops] at hops'
      exact Option.some.inj hops' ▸ hsheltered
    · exact fun hsheltered => hsheltered ops hops

end

/-! ## Stopped between the document and the key -/

/-- Stand-ins for `node:crypto` in which a key signs by writing itself twice. A private key of `n`
characters has the public key `n`, 32 times. -/
def echoCrypto : Crypto where
  publicKeyOf pem := List.replicate 32 (UInt8.ofNat pem.length)
  edSign pem _ := List.replicate 64 (UInt8.ofNat pem.length)
  sha256 bytes := (bytes.drop 53).take 2
  exponential := decimal

def echoPems : InitKeys := ⟨"r", "ta", "sna", "time", "publi"⟩

def echoClock : Clock := ⟨"2025-01-01T00:00:00Z", fun _ => "2035-01-01T00:00:00Z"⟩

def echoOptions : InitOptions := ⟨none, none, none, none⟩

theorem keyid_echoPems : (["r", "ta", "sna", "time", "publi", "rotate"].map fun pem =>
    (keyOf echoCrypto pem).keyid) = ["3031", "3032", "3033", "3034", "3035", "3036"] := by
  decide

theorem echoCrypto_lawful : echoCrypto.Lawful Tuf.echoExternal where
  publicKey_length _ := List.length_replicate
  signature_length _ _ := List.length_replicate
  verifies pem message := by
    simp [echoCrypto, Tuf.echoExternal]

theorem echoPems_apart : echoPems.Apart echoCrypto := by
  have hkeyids := keyid_echoPems
  simp only [List.map_cons, List.map_nil, List.cons.injEq] at hkeyids
  obtain ⟨hroot, htargets, hsnapshot, htimestamp, -⟩ := hkeyids
  simp [InitKeys.Apart, echoPems, hroot, htargets, hsnapshot, htimestamp]

/-- The source that the stand-ins make. -/
def echoSource : Session := initialSession echoCrypto echoClock echoOptions echoPems

theorem settled_echoSource :
    Settled echoCrypto (echoPems.history echoCrypto echoClock) echoSource.disk.files 1 :=
  settled_initialSession echoPems_apart

theorem fresh_echoSource : Fresh echoCrypto echoSource.disk.files "rotate" := by
  have hkeyids := keyid_echoPems
  simp only [List.map_cons, List.map_nil, List.cons.injEq] at hkeyids
  obtain ⟨hroot, htargets, hsnapshot, htimestamp, hpublisher, hrotate, -⟩ := hkeyids
  constructor
  · intro n doc hdoc
    have hn : n = 1 := by
      by_contra hne
      rw [settled_echoSource.rooted.absent n (by omega)] at hdoc
      cases hdoc
    subst hn
    rw [settled_echoSource.rooted.documents 1 le_rfl le_rfl] at hdoc
    cases hdoc
    rw [keyids_document, hrotate]
    simp [Team.keys, InitKeys.history, InitKeys.team, echoPems, hroot, htargets, hsnapshot,
      htimestamp]
  · intro path text htext
    rw [echoSource] at htext
    have hmem := pem_initialSession echoPems_apart htext
    simp only [echoPems, List.mem_cons, List.not_mem_nil, or_false] at hmem
    rw [hrotate]
    rcases hmem with rfl | rfl | rfl | rfl | rfl
    · simp [hroot]
    · simp [htargets]
    · simp [hsnapshot]
    · simp [htimestamp]
    · simp [hpublisher]

/-- The rotation of this source, and what is left to do of it. -/
def echoRotation : List DiskOp :=
  rotationOps 1 (((echoPems.history echoCrypto echoClock).extend 2 "rotate"
    "2035-01-01T00:00:00Z").document echoCrypto 2) "rotate"

theorem echoRotation_eq :
    (cmdRotateRoot echoCrypto echoClock "rotate" echoSource.disk).ops = echoRotation := by
  have hN : 1 < 2 ^ 53 := by norm_num
  exact cmdRotateRoot_of_config settled_echoSource fresh_echoSource
    (config_initialSession echoPems_apart) hN

/-- The rotation starts and runs for some operations. -/
theorem run_echoSource {done rest : List DiskOp} (h : echoRotation = done ++ rest) :
    Run (Guarded Sheltered (RotationStep echoCrypto)) echoSource
      (.rotate echoClock "rotate" :: done.map fun _ => .operation)
      ⟨done.foldl Disk.perform echoSource.disk, some rest⟩ := by
  have hsheltered : Sheltered echoSource (.rotate echoClock "rotate") := by
    intro n hn
    rw [echoSource.disk.lists] at hn
    by_contra hlarge
    exact hn (settled_echoSource.rooted.absent n (by omega))
  have hstep : RotationStep echoCrypto echoSource (.rotate echoClock "rotate")
      ⟨echoSource.disk, some (done ++ rest)⟩ := by
    refine ⟨rfl, fresh_echoSource, ?_⟩
    rw [echoRotation_eq, h]
  exact .cons ⟨hsheltered, hstep⟩ (run_rotation done)

/-- Stopped after the new root document is written, the source has no key for it. -/
theorem stopped_rotation_loses_control :
    echoCrypto.Lawful Tuf.echoExternal ∧ echoPems.Apart echoCrypto ∧
      ∃ events s, Run (RotationStep echoCrypto) echoSource events s ∧ s.running = none ∧
        ¬ Controlled echoCrypto s.disk.files := by
  have hN : 1 < 2 ^ 53 := by norm_num
  have hrotating : Rotating echoCrypto echoSource.disk echoRotation
      (echoPems.history echoCrypto echoClock) 1 "rotate" "2035-01-01T00:00:00Z" :=
    settled_echoSource.rotating fresh_echoSource hN
  have hrun := run_echoSource (List.take_append_drop 3 echoRotation).symm
  have hlost := hrotating.perform.perform.perform.lost nofun (by simp [NotBegun])
  have hstop : ∀ disk ops, RotationStep echoCrypto ⟨disk, some ops⟩ .stop ⟨disk, none⟩ :=
    fun _ _ => ⟨nofun, rfl⟩
  exact ⟨echoCrypto_lawful, echoPems_apart, _, _, hrun.of_guarded.append (.single (hstop _ _)),
    rfl, hlost.not_controlled⟩

/-- After a rotation that has ended the key is there, and the client accepts both roots. -/
theorem root_controlled_iff_sheltered_rotated :
    ∃ s : Session, s.running = none ∧ Controlled echoCrypto s.disk.files ∧
      ∃ n doc, Highest s.disk.files n doc ∧ ChainAccepted Tuf.echoExternal s.disk.files n := by
  have hrun := run_echoSource (List.append_nil echoRotation).symm
  have hstop : Guarded Sheltered (RotationStep echoCrypto)
      ⟨echoRotation.foldl Disk.perform echoSource.disk, some []⟩ .stop
      ⟨echoRotation.foldl Disk.perform echoSource.disk, none⟩ :=
    ⟨fun ops hops => .inl (Option.some.inj hops).symm, nofun, rfl⟩
  obtain ⟨hcontrolled, haccepted⟩ := (root_controlled_iff_sheltered echoCrypto_lawful
    echoPems_apart (hrun.append (.single hstop))).1 rfl
  exact ⟨_, rfl, hcontrolled, haccepted⟩

end Useful.Cli.Source
