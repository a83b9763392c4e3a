/-
# Storing a refreshed source index

`persist_index` of `commands/sources.rs` writes the row of a source and replaces the
rows of its packages. Every statement commits by itself, and a package whose size does
not fit a signed integer ends the command in the middle. The sibling that syncs a TRP
source runs the same work in a transaction.
-/

import Useful.Math.Checks
import Useful.Math.Connection
import Useful.Math.Json
import Mathlib.Algebra.Group.Nat.Defs
import Mathlib.Logic.Function.Basic

namespace Useful.Client.Sources

open Useful.Math Useful.Math.Program

/-! ## The index -/

structure SourcePackage where
  id : String
  version : String
  packageUrl : String
  sha256 : String
  size : UInt64
  changelog : String := ""
  category : String := ""
  permissions : List String := []
  minHostVersion : String := "0.1.0"
  platforms : List String := ["windows-x64"]
  deriving DecidableEq

structure SourceIndex where
  sourceId : String
  name : String
  description : String := ""
  generatedAt : String
  publicKey : String
  signature : String
  packages : List SourcePackage
  deriving DecidableEq

/-- The value `serde_json` writes for a package; an empty category is left out. -/
def SourcePackage.toJson (p : SourcePackage) : Json Nat :=
  let category := if p.category = "" then [] else [("category", Json.str p.category)]
  .obj <|
    [("id", .str p.id), ("version", .str p.version), ("packageUrl", .str p.packageUrl),
      ("sha256", .str p.sha256), ("size", .num p.size.toNat), ("changelog", .str p.changelog)] ++
    category ++
    [("permissions", .arr (p.permissions.map .str)), ("minHostVersion", .str p.minHostVersion),
      ("platforms", .arr (p.platforms.map .str))]

namespace SourceIndex

def toJson (index : SourceIndex) : Json Nat :=
  .obj [("sourceId", .str index.sourceId), ("name", .str index.name),
    ("description", .str index.description), ("generatedAt", .str index.generatedAt),
    ("publicKey", .str index.publicKey), ("signature", .str index.signature),
    ("packages", .arr (index.packages.map SourcePackage.toJson))]

/-- `canonical_payload`, as the value whose text is signed. -/
def canonicalPayload (index : SourceIndex) : Json Nat :=
  toJson { index with signature := "" }

/-- The check of `parse_and_verify`, over `verify_signature`. -/
def Verifies (verifySignature : String → Json Nat → String → Bool) (index : SourceIndex) : Prop :=
  verifySignature index.publicKey index.canonicalPayload index.signature = true

end SourceIndex

/-! ## The tables -/

/-- A row of `tool_sources`, without its key. The cached index is the text it was
written from. -/
structure SourceRow where
  name : String
  url : String
  publicKey : String
  enabled : Bool
  lastRefreshedAt : Option Int
  cachedIndex : Option SourceIndex
  deriving DecidableEq

/-- A row of `source_packages`, without its source. -/
structure PackageRow where
  id : Nat
  packageId : String
  version : String
  packageUrl : String
  sha256 : String
  size : Int
  changelog : String
  category : String
  permissions : List String
  minHostVersion : String
  platforms : List String
  deriving DecidableEq

/-- Both tables by source id, and the counter of `AUTOINCREMENT`, which every id given
out so far is below. -/
structure SourceTables where
  sources : String → Option SourceRow
  packages : String → List PackageRow
  nextId : Nat
  issued : ∀ sourceId, ∀ row ∈ packages sourceId, row.id < nextId

/-- The row of a package under a given id. -/
def SourcePackage.row (p : SourcePackage) (id : Nat) : PackageRow where
  id := id
  packageId := p.id
  version := p.version
  packageUrl := p.packageUrl
  sha256 := p.sha256
  size := p.size.toNat
  changelog := p.changelog
  category := p.category
  permissions := p.permissions
  minHostVersion := p.minHostVersion
  platforms := p.platforms

/-- The conflict target of the upsert of a package. -/
def SourcePackage.Conflicts (p : SourcePackage) (row : PackageRow) : Prop :=
  row.packageId = p.id ∧ row.version = p.version

instance (p : SourcePackage) (row : PackageRow) : Decidable (p.Conflicts row) :=
  inferInstanceAs (Decidable (_ ∧ _))

namespace SourceTables

/-- The upsert of the source: a conflict keeps the key and `enabled`. -/
def upsertSource (index : SourceIndex) (url : String) (now : Int) (d : SourceTables) :
    SourceTables :=
  let row := match d.sources index.sourceId with
    | none => ⟨index.name, url, index.publicKey, true, some now, some index⟩
    | some row =>
        { row with
          name := index.name
          url := url
          lastRefreshedAt := some now
          cachedIndex := some index }
  { d with sources := Function.update d.sources index.sourceId (some row) }

/-- Replace the package rows of one source. -/
def setPackages (d : SourceTables) (sourceId : String) (rows : List PackageRow) (nextId : Nat)
    (hnext : d.nextId ≤ nextId) (hrows : ∀ row ∈ rows, row.id < nextId) : SourceTables where
  sources := d.sources
  packages := Function.update d.packages sourceId rows
  nextId := nextId
  issued := by
    intro other row hrow
    by_cases hother : other = sourceId
    · subst hother
      rw [Function.update_self] at hrow
      exact hrows row hrow
    · rw [Function.update_of_ne hother] at hrow
      exact (d.issued other row hrow).trans_le hnext

/-- `DELETE FROM source_packages` of one source. -/
def deletePackages (sourceId : String) (d : SourceTables) : SourceTables :=
  d.setPackages sourceId [] d.nextId le_rfl nofun

/-- The rows after the upsert of a package: a conflict keeps the row's id. -/
def upsertRows (p : SourcePackage) (nextId : Nat) (rows : List PackageRow) : List PackageRow :=
  if ∃ row ∈ rows, p.Conflicts row then
    rows.map fun row => if p.Conflicts row then p.row row.id else row
  else rows ++ [p.row nextId]

theorem upsertRows_issued {p : SourcePackage} {nextId : Nat} {rows : List PackageRow}
    (h : ∀ row ∈ rows, row.id < nextId) : ∀ row ∈ upsertRows p nextId rows, row.id < nextId + 1 := by
  intro row hrow
  unfold upsertRows at hrow
  split_ifs at hrow with hconflict
  · obtain ⟨old, hold, rfl⟩ := List.mem_map.mp hrow
    have hlt := h old hold
    split_ifs <;> exact hlt.trans (Nat.lt_succ_self _)
  · rcases List.mem_append.mp hrow with hold | hnew
    · exact (h row hold).trans (Nat.lt_succ_self _)
    · rw [List.mem_singleton.mp hnew]
      exact Nat.lt_succ_self _

/-- The upsert of a package. -/
def upsertPackage (sourceId : String) (d : SourceTables) (p : SourcePackage) : SourceTables :=
  d.setPackages sourceId (upsertRows p d.nextId (d.packages sourceId)) (d.nextId + 1)
    (Nat.le_succ _) (upsertRows_issued (d.issued sourceId))

end SourceTables

/-! ## The command -/

/-- The places where the command may fail for a reason outside the program. -/
inductive PersistSite
  | lockDatabase
  | serialize
  | upsertSource
  | deletePackages
  | insertPackage (index : Nat)
  deriving DecidableEq, Repr

/-- What the outside decides: the faults, and the time of the refresh. -/
structure PersistOutside where
  fault : PersistSite → Option Fault
  now : Int

/-- `i64::try_from` of a size. -/
def sizeColumn (size : UInt64) : Except String Int := do
  failIf (2 ^ 63 ≤ size.toNat) "out of range integral type conversion attempted"
  return size.toNat

section Persist

variable (out : PersistOutside)

/-- A statement that commits by itself. -/
def PersistOutside.statement (site : PersistSite) (f : SourceTables → SourceTables) :
    Program String (Connection SourceTables) PUnit :=
  Connection.execute (out.fault site) f

def PersistOutside.lock : Program String (Connection SourceTables) PUnit :=
  match out.fault .lockDatabase with
  | some _ => fail "锁定数据库失败"
  | none => pure ⟨⟩

/-- `serde_json::to_string` of the index. -/
def PersistOutside.serialize : Program String (Connection SourceTables) PUnit :=
  match out.fault .serialize with
  | some f => fail f.text
  | none => pure ⟨⟩

/-- The upsert of the package at a position; its parameters are converted first. -/
def insertPackage (sourceId : String) (p : SourcePackage × Nat) :
    Program String (Connection SourceTables) PUnit := do
  let _ ← ofExcept (sizeColumn p.1.size)
  out.statement (.insertPackage p.2) fun d => d.upsertPackage sourceId p.1

/-- `persist_index`. -/
def persistIndex (url : String) (index : SourceIndex) :
    Program String (Connection SourceTables) PUnit := do
  out.lock
  out.serialize
  out.statement .upsertSource (.upsertSource index url out.now)
  out.statement .deletePackages (.deletePackages index.sourceId)
  index.packages.zipIdx.forM (insertPackage out index.sourceId)

/-! ## What a failed command leaves -/

/-- The rows of both tables are the same. -/
structure SameRows (d d' : SourceTables) : Prop where
  sources : d'.sources = d.sources
  packages : d'.packages = d.packages

/-- The command stops before it has written the row of the source. -/
def StopsFirst : Prop :=
  ∃ site ∈ [PersistSite.lockDatabase, .serialize, .upsertSource], out.fault site ≠ none

/-- The row of a package at a position is written. -/
def Inserts (p : SourcePackage × Nat) : Prop :=
  p.1.size.toNat < 2 ^ 63 ∧ out.fault (.insertPackage p.2) = none

/-- The row of the source already is what the command writes. -/
def Refreshed (url : String) (index : SourceIndex) (d : SourceTables) : Prop :=
  ∃ row, d.sources index.sourceId = some row ∧ row.name = index.name ∧ row.url = url ∧
    row.lastRefreshedAt = some out.now ∧ row.cachedIndex = some index

/-- The command fails at its first package, over no package rows to delete, or before it
deletes them. -/
def StopsBeforePackages (index : SourceIndex) (d : SourceTables) : Prop :=
  out.fault .deletePackages ≠ none ∨
    d.packages index.sourceId = [] ∧ ∃ p rest, index.packages = p :: rest ∧ ¬ Inserts out (p, 0)

/-- No step fails. -/
def Completes (index : SourceIndex) : Prop :=
  ¬ StopsFirst out ∧ out.fault .deletePackages = none ∧
    ∀ p ∈ index.packages.zipIdx, Inserts out p

end Persist

section Results

variable {out : PersistOutside} {url : String} {index : SourceIndex}
  {c : Connection SourceTables} {d : SourceTables}

theorem SameRows.refl (d : SourceTables) : SameRows d d :=
  ⟨rfl, rfl⟩

namespace SourceTables

@[simp] theorem sources_upsertPackage (sourceId : String) (d : SourceTables) (p : SourcePackage) :
    (d.upsertPackage sourceId p).sources = d.sources :=
  rfl

@[simp] theorem packages_upsertPackage_self (sourceId : String) (d : SourceTables)
    (p : SourcePackage) : (d.upsertPackage sourceId p).packages sourceId =
      upsertRows p d.nextId (d.packages sourceId) :=
  Function.update_self _ _ _

@[simp] theorem sources_deletePackages (sourceId : String) (d : SourceTables) :
    (d.deletePackages sourceId).sources = d.sources :=
  rfl

@[simp] theorem packages_deletePackages_self (sourceId : String) (d : SourceTables) :
    (d.deletePackages sourceId).packages sourceId = [] :=
  Function.update_self _ _ _

theorem deletePackages_of_eq_nil {sourceId : String} (h : d.packages sourceId = []) :
    (d.deletePackages sourceId).packages = d.packages := by
  show Function.update d.packages sourceId [] = d.packages
  rw [← h, Function.update_eq_self]

/-- An id that is in use stays in use. -/
theorem exists_id_upsertRows {p : SourcePackage} {nextId id : Nat} {rows : List PackageRow}
    (h : ∃ row ∈ rows, row.id = id) : ∃ row ∈ upsertRows p nextId rows, row.id = id := by
  obtain ⟨row, hrow, rfl⟩ := h
  unfold upsertRows
  split_ifs with hconflict
  · refine ⟨_, List.mem_map_of_mem hrow, ?_⟩
    split_ifs <;> rfl
  · exact ⟨row, List.mem_append_left _ hrow, rfl⟩

theorem exists_id_foldl {sourceId : String} {id : Nat} (ps : List SourcePackage)
    (h : ∃ row ∈ d.packages sourceId, row.id = id) :
    ∃ row ∈ (ps.foldl (upsertPackage sourceId) d).packages sourceId, row.id = id := by
  induction ps generalizing d with
  | nil => exact h
  | cons p ps ih =>
      apply ih
      rw [packages_upsertPackage_self]
      exact exists_id_upsertRows h

theorem sources_foldl {sourceId : String} (ps : List SourcePackage) (d : SourceTables) :
    (ps.foldl (upsertPackage sourceId) d).sources = d.sources := by
  induction ps generalizing d with
  | nil => rfl
  | cons p ps ih => exact ih _

/-- The first package written after the deletion takes an id no row had before. -/
theorem foldl_ne (sourceId : String) (d : SourceTables) (p : SourcePackage)
    (ps : List SourcePackage) :
    (((p :: ps).foldl (upsertPackage sourceId) (d.deletePackages sourceId)).packages) ≠
      d.packages := by
  have hfirst : ∃ row ∈ ((d.deletePackages sourceId).upsertPackage sourceId p).packages sourceId,
      row.id = d.nextId := by
    rw [packages_upsertPackage_self, packages_deletePackages_self]
    exact ⟨p.row d.nextId, by simp [upsertRows, deletePackages, setPackages], rfl⟩
  intro heq
  obtain ⟨row, hrow, hid⟩ := exists_id_foldl ps hfirst
  have hold : row ∈ d.packages sourceId := by
    rw [← heq]
    exact hrow
  exact absurd (d.issued sourceId row hold) (by omega)

/-- Writing the row of the source changes nothing exactly when it already is there. -/
theorem sources_upsertSource_eq_iff :
    (d.upsertSource index url out.now).sources = d.sources ↔ Refreshed out url index d := by
  show Function.update d.sources index.sourceId _ = d.sources ↔ _
  rw [Function.update_eq_self_iff]
  unfold Refreshed
  cases hrow : d.sources index.sourceId with
  | none => simp
  | some row =>
      obtain ⟨name, rowUrl, publicKey, enabled, lastRefreshedAt, cachedIndex⟩ := row
      simp [eq_comm]

end SourceTables

theorem sizeColumn_spec {size : UInt64} :
    Ensures (ofExcept (sizeColumn size)) c (fun _ t => size.toNat < 2 ^ 63 ∧ t = c)
      (fun _ t => ¬ size.toNat < 2 ^ 63 ∧ t = c) := by
  apply ensures_ofExcept.mpr
  unfold sizeColumn
  constructor
  · intro a ha
    obtain ⟨_, hsize, -⟩ := bind_eq_ok.mp ha
    exact ⟨not_le.mp (failIf_eq_ok.mp hsize), rfl⟩
  · intro e he
    refine ⟨fun hlt => ?_, rfl⟩
    have hok : failIf (2 ^ 63 ≤ size.toNat) "out of range integral type conversion attempted" =
        .ok () := failIf_eq_ok.mpr (not_le.mpr hlt)
    rw [hok] at he
    cases he

theorem insertPackage_spec {sourceId : String} {p : SourcePackage × Nat} :
    Ensures (insertPackage out sourceId p) c
      (fun _ t => Inserts out p ∧ t = c.write (c.visible.upsertPackage sourceId p.1))
      (fun _ t => ¬ Inserts out p ∧ t = c) := by
  unfold insertPackage
  apply Ensures.bind sizeColumn_spec
  · intro e t ht
    exact ⟨fun h => ht.1 h.1, ht.2⟩
  intro _ t ht
  obtain ⟨hsize, rfl⟩ := ht
  apply Connection.execute_spec.imp
  · intro _ u hu
    exact ⟨⟨hsize, hu.1⟩, hu.2⟩
  · intro e u hu
    exact ⟨fun h => hu.1 h.2, hu.2⟩

/-- The sweep over the packages writes them all, or stops at the first that fails. -/
theorem insertPackages_spec {sourceId : String} (ps : List SourcePackage) (first : Nat) :
    Ensures ((ps.zipIdx first).forM (insertPackage out sourceId)) c
      (fun _ _ => ∀ p ∈ ps.zipIdx first, Inserts out p)
      (fun _ t => ∃ before p rest, ps = before ++ p :: rest ∧
        (∀ q ∈ before.zipIdx first, Inserts out q) ∧
        ¬ Inserts out (p, first + before.length) ∧
        t.visible = before.foldl (SourceTables.upsertPackage sourceId) c.visible) := by
  induction ps generalizing first c with
  | nil => exact nofun
  | cons p ps ih =>
      rw [List.zipIdx_cons]
      apply Ensures.bind insertPackage_spec
      · intro e t ht
        exact ⟨[], p, ps, rfl, nofun, ht.1, congrArg _ ht.2⟩
      intro _ t ht
      obtain ⟨hinserts, rfl⟩ := ht
      apply (ih (first + 1)).imp
      · intro _ _ hrest q hq
        rcases List.mem_cons.mp hq with rfl | hq
        · exact hinserts
        · exact hrest q hq
      · intro e u hu
        obtain ⟨before, q, rest, rfl, hbefore, hfails, hu⟩ := hu
        refine ⟨p :: before, q, rest, rfl, ?_, ?_, ?_⟩
        · rw [List.zipIdx_cons]
          intro r hr
          rcases List.mem_cons.mp hr with rfl | hr
          · exact hinserts
          · exact hbefore r hr
        · rwa [List.length_cons, Nat.add_comm before.length, ← Nat.add_assoc]
        · rw [hu, Connection.visible_write]
          rfl

/-- How the command can end, and with which rows. -/
theorem persistIndex_spec :
    Ensures (persistIndex out url index) c (fun _ _ => Completes out index)
      (fun _ t => StopsFirst out ∧ t = c ∨ ¬ StopsFirst out ∧
        (out.fault .deletePackages ≠ none ∧
            t.visible = c.visible.upsertSource index url out.now ∨
          out.fault .deletePackages = none ∧ ∃ before p rest,
            index.packages = before ++ p :: rest ∧ (∀ q ∈ before.zipIdx, Inserts out q) ∧
            ¬ Inserts out (p, before.length) ∧
            t.visible = before.foldl (SourceTables.upsertPackage index.sourceId)
              ((c.visible.upsertSource index url out.now).deletePackages index.sourceId))) := by
  unfold persistIndex
  have hlock : Ensures out.lock c (fun _ t => out.fault .lockDatabase = none ∧ t = c)
      (fun _ t => out.fault .lockDatabase ≠ none ∧ t = c) := by
    unfold PersistOutside.lock
    cases hfault : out.fault .lockDatabase with
    | none => exact ensures_pure.mpr ⟨rfl, rfl⟩
    | some f => exact ensures_fail.mpr ⟨nofun, rfl⟩
  apply Ensures.bind hlock
  · intro e t ht
    exact .inl ⟨⟨_, by simp, ht.1⟩, ht.2⟩
  intro _ t ht
  obtain ⟨hlocked, rfl⟩ := ht
  have hserialize : Ensures out.serialize t (fun _ u => out.fault .serialize = none ∧ u = t)
      (fun _ u => out.fault .serialize ≠ none ∧ u = t) := by
    unfold PersistOutside.serialize
    cases hfault : out.fault .serialize with
    | none => exact ensures_pure.mpr ⟨rfl, rfl⟩
    | some f => exact ensures_fail.mpr ⟨nofun, rfl⟩
  apply Ensures.bind hserialize
  · intro e u hu
    exact .inl ⟨⟨_, by simp, hu.1⟩, hu.2⟩
  intro _ u hu
  obtain ⟨hserialized, rfl⟩ := hu
  apply Ensures.bind Connection.execute_spec
  · intro e v hv
    exact .inl ⟨⟨_, by simp, hv.1⟩, hv.2⟩
  intro _ v hv
  obtain ⟨hupserted, rfl⟩ := hv
  have hgoes : ¬ StopsFirst out := by simp [StopsFirst, hlocked, hserialized, hupserted]
  apply Ensures.bind Connection.execute_spec
  · intro e v hv
    refine .inr ⟨hgoes, .inl ⟨hv.1, ?_⟩⟩
    rw [hv.2, Connection.visible_write]
  intro _ v hv
  obtain ⟨hdeleted, rfl⟩ := hv
  apply (insertPackages_spec index.packages 0).imp
  · intro _ _ hinserts
    exact ⟨hgoes, hdeleted, hinserts⟩
  · intro e v hv
    obtain ⟨before, p, rest, hpackages, hbefore, hfails, hv⟩ := hv
    rw [Nat.zero_add] at hfails
    refine .inr ⟨hgoes, .inr ⟨hdeleted, before, p, rest, hpackages, hbefore, hfails, ?_⟩⟩
    rw [hv, Connection.visible_write, Connection.visible_write]

/-- A call that gets past the row of the source and does not complete fails, and keeps the
rows only if that row was up to date and no package row was in the way. -/
theorem keeps_of_not_completes (hgoes : ¬ StopsFirst out) (hfails : ¬ Completes out index) :
    ∃ e t, persistIndex out url index c = (.error e, t) ∧
      (SameRows c.visible t.visible →
        Refreshed out url index c.visible ∧ StopsBeforePackages out index c.visible) := by
  rcases hrun : persistIndex out url index c with ⟨e | ⟨⟩, t⟩
  · refine ⟨e, t, rfl, ?_⟩
    intro hsame
    rcases persistIndex_spec.of_eq_error hrun with ⟨hstops, -⟩ | ⟨-, hdelete | hpackages⟩
    · exact absurd hstops hgoes
    · obtain ⟨hfault, ht⟩ := hdelete
      refine ⟨SourceTables.sources_upsertSource_eq_iff.mp ?_, .inl hfault⟩
      rw [← ht, hsame.sources]
    · obtain ⟨-, before, p, rest, hsplit, -, hstops, ht⟩ := hpackages
      refine ⟨SourceTables.sources_upsertSource_eq_iff.mp ?_, .inr ?_⟩
      · rw [← hsame.sources, ht, SourceTables.sources_foldl]
        rfl
      · cases before with
        | nil =>
            refine ⟨?_, p, rest, hsplit, hstops⟩
            rw [← hsame.packages, ht]
            exact SourceTables.packages_deletePackages_self _ _
        | cons q before =>
            have hpackages := hsame.packages
            rw [ht] at hpackages
            exact absurd hpackages (SourceTables.foldl_ne index.sourceId
              (c.visible.upsertSource index url out.now) q before)
  · exact absurd (persistIndex_spec.of_eq_ok hrun) hfails

/-- A failed refresh leaves the rows as they were exactly when it stops before the row of the
source is written, or that row already is what it writes and no package row is deleted or
written before the failure. -/
theorem persist_index_kept_iff (out : PersistOutside) (url : String) (index : SourceIndex)
    (c : Connection SourceTables) :
    (∀ e t, persistIndex out url index c = (.error e, t) → SameRows c.visible t.visible) ↔
      StopsFirst out ∨ Completes out index ∨
        Refreshed out url index c.visible ∧ StopsBeforePackages out index c.visible := by
  constructor
  · intro hkept
    by_cases hstops : StopsFirst out
    · exact .inl hstops
    by_cases hcompletes : Completes out index
    · exact .inr (.inl hcompletes)
    obtain ⟨e, t, hrun, hkeeps⟩ : ∃ e t, persistIndex out url index c = (.error e, t) ∧ _ :=
      keeps_of_not_completes hstops hcompletes
    exact .inr (.inr (hkeeps (hkept e t hrun)))
  · intro hcondition e t hrun
    rcases persistIndex_spec.of_eq_error hrun with ⟨-, rfl⟩ | ⟨hgoes, hfailure⟩
    · exact .refl _
    rcases hcondition with hstops | ⟨-, hdeleted, hinserts⟩ | ⟨hrefreshed, hbefore⟩
    · exact absurd hstops hgoes
    · rcases hfailure with ⟨hfault, -⟩ | ⟨-, before, p, rest, hsplit, -, hfails, -⟩
      · exact absurd hdeleted hfault
      · refine absurd (hinserts _ ?_) hfails
        rw [List.mk_mem_zipIdx_iff_getElem?, hsplit]
        simp
    · have hsources := (SourceTables.sources_upsertSource_eq_iff).mpr hrefreshed
      rcases hfailure with ⟨-, ht⟩ | ⟨hdeleted, before, p, rest, hsplit, hearlier, -, ht⟩
      · exact ⟨by rw [ht, hsources], by rw [ht]; rfl⟩
      · obtain hfault | ⟨hempty, q, others, hhead, hfails⟩ := hbefore
        · exact absurd hdeleted hfault
        cases before with
        | nil =>
            refine ⟨?_, ?_⟩
            · rw [ht]
              exact hsources
            · rw [ht]
              exact SourceTables.deletePackages_of_eq_nil
                (d := c.visible.upsertSource index url out.now) hempty
        | cons r before =>
            rw [hhead, List.cons_append, List.cons.injEq] at hsplit
            refine absurd (hearlier (q, 0) ?_) hfails
            rw [hsplit.1, List.zipIdx_cons]
            exact List.mem_cons_self

end Results

/-! ## A size that does not fit -/

/-- A second release whose size needs the top bit. -/
def largePackage : SourcePackage where
  id := "com.example.tool"
  version := "2.0.0"
  packageUrl := "https://example.com/tool-2.0.0.useful"
  sha256 := "abc"
  size := 9223372036854775808

/-- The index of a source, before it is signed. -/
def largeIndex (publicKey signature : String) : SourceIndex where
  sourceId := "demo"
  name := "Demo"
  generatedAt := "2026-01-01T00:00:00Z"
  publicKey := publicKey
  signature := signature
  packages := [largePackage]

/-- A source that was added with one package. -/
def addedSource (publicKey : String) : SourceTables where
  sources := fun id => if id = "demo" then
    some ⟨"Demo", "https://example.com/index.json", publicKey, true, some 1, none⟩ else none
  packages := fun id => if id = "demo" then
    [⟨1, "com.example.tool", "1.0.0", "https://example.com/tool-1.0.0.useful", "abc", 100, "", "",
      [], "0.1.0", ["windows-x64"]⟩] else []
  nextId := 2
  issued := by
    intro id row hrow
    split_ifs at hrow
    · rw [List.mem_singleton.mp hrow]
      exact Nat.one_lt_two
    · cases hrow

/-- Nothing fails on its own. -/
def undisturbed : PersistOutside := ⟨fun _ => none, 2⟩

/-- Whatever the signature scheme, a source can sign an index that is accepted and whose
refresh fails with the rows of the source changed. -/
theorem lost_with_large_size (verifySignature : String → Json Nat → String → Bool)
    (publicKey : String) (sign : Json Nat → String)
    (hsign : ∀ payload, verifySignature publicKey payload (sign payload) = true) :
    ∃ index, index.Verifies verifySignature ∧
      (addedSource publicKey).sources index.sourceId ≠ none ∧
      ∃ e t, persistIndex undisturbed "https://example.com/index.json" index
          ⟨addedSource publicKey, none⟩ = (.error e, t) ∧
        ¬ SameRows (addedSource publicKey) t.visible := by
  let payload := (largeIndex publicKey "").canonicalPayload
  refine ⟨largeIndex publicKey (sign payload), hsign payload, by simp [addedSource, largeIndex], ?_⟩
  have hgoes : ¬ StopsFirst undisturbed := by simp [StopsFirst, undisturbed]
  have hlarge : ¬ Inserts undisturbed (largePackage, 0) := by
    intro h
    exact absurd h.1 (by decide)
  have hfails : ¬ Completes undisturbed (largeIndex publicKey (sign payload)) :=
    fun h => hlarge (h.2.2 _ (by simp [largeIndex]))
  obtain ⟨e, t, hrun, hkeeps⟩ : ∃ e t, persistIndex undisturbed "https://example.com/index.json" _
      ⟨addedSource publicKey, none⟩ = (.error e, t) ∧ _ := keeps_of_not_completes hgoes hfails
  refine ⟨e, t, hrun, fun hsame => ?_⟩
  obtain ⟨⟨row, hrow, -, -, htime, -⟩, -⟩ := hkeeps hsame
  cases hrow
  cases htime

/-- A stand-in for signatures, which names the key. -/
def echoSignature (publicKey : String) (_ : Json Nat) : String := "signed by " ++ publicKey

/-- A signed index is accepted, and its refresh fails with the rows of the source changed. -/
theorem refresh_loses_packages :
    ∃ index, index.Verifies (fun key payload signature => signature == echoSignature key payload) ∧
      (addedSource "key").sources index.sourceId ≠ none ∧
      ∃ e t, persistIndex undisturbed "https://example.com/index.json" index
          ⟨addedSource "key", none⟩ = (.error e, t) ∧
        ¬ SameRows (addedSource "key") t.visible :=
  lost_with_large_size (fun key payload signature => signature == echoSignature key payload) "key"
    (echoSignature "key") fun _ => beq_self_eq_true _

end Useful.Client.Sources
