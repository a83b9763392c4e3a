/-
# An install is all or nothing

If the operations that undo things succeed, an error of `persist_installed` leaves
directories, database and registry as they were before `install_useful`, and a
success shows the new version in all three.

The command decides by the text of an error whether something could not be undone.
Its own texts before that point do not mention recovery, so only a text of the
database engine or of the serializer could; that they do not is an assumption.
-/

import Useful.Plugins.Persist

namespace Useful.Plugins

open Useful.Core Useful.Math Useful.Math.Program

/-! ## Error texts -/

/-- A text without a `Y` does not mention recovery. -/
theorem mentionsRecovery_eq_false {message : String} (h : 'Y' ∉ message.toList) :
    mentionsRecovery message = false := by
  apply decide_eq_false
  intro hoccurs
  apply h
  apply hoccurs.subset
  simp [installRecoveryRequired]

/-- The marker does not begin in a part without an `I`. -/
theorem infix_of_append {c : Char} {marker front text : List Char} (h : c ∉ front)
    (hoccurs : c :: marker <:+: front ++ text) : c :: marker <:+: text := by
  induction front with
  | nil => exact hoccurs
  | cons d front ih =>
      rw [List.cons_append, List.infix_cons_iff] at hoccurs
      rcases hoccurs with hstarts | hoccurs
      · exact absurd (List.cons_prefix_cons.mp hstarts).1 (List.ne_of_not_mem_cons h)
      · exact ih (List.not_mem_of_not_mem_cons h) hoccurs

theorem mentionsRecovery_append {front text : String} (h : 'I' ∉ front.toList)
    (htext : mentionsRecovery text = false) : mentionsRecovery (front ++ text) = false := by
  apply decide_eq_false
  intro hoccurs
  rw [String.toList_append] at hoccurs
  exact of_decide_eq_false htext (infix_of_append h hoccurs)

theorem display_unmarked {e : CoreError} {detail : String}
    (he : e = .db detail ∨ e = .trustState detail) (h : mentionsRecovery detail = false) :
    mentionsRecovery (displayCoreError e) = false := by
  rcases he with rfl | rfl
  · exact mentionsRecovery_append (by decide) h
  · exact mentionsRecovery_append (by decide) h

theorem not_mem_toDigits (n : Nat) : 'Y' ∉ Nat.toDigits 10 n := by
  intro hmem
  have hdigit : Char.isDigit 'Y' = true :=
    Nat.isDigit_of_mem_toDigits (by decide) (by decide) hmem
  exact absurd hdigit (by decide)

theorem checkRole_unmarked {entry : String × Nat × Nat × String × String} {e : CoreError}
    (hrole : 'Y' ∉ entry.1.toList) (h : checkRole entry = .error e) :
    mentionsRecovery (displayCoreError e) = false := by
  obtain ⟨role, old, new, oldDigest, newDigest⟩ := entry
  simp only [checkRole, bind_eq_error, failIf_eq_error] at h
  replace hrole : 'Y' ∉ role.toList := hrole
  have hold := not_mem_toDigits old
  have hnew := not_mem_toDigits new
  rcases h with ⟨-, rfl⟩ | ⟨_, -, -, rfl⟩
  · apply display_unmarked (.inr rfl)
    apply mentionsRecovery_eq_false
    simpa [toString, hrole] using ⟨hold, hnew⟩
  · apply display_unmarked (.inr rfl)
    apply mentionsRecovery_eq_false
    simp [toString, hrole]

/-- Refusing a candidate quotes a fault, or does not mention recovery. -/
theorem acceptTrpTufStateInTransaction_unmarked {rows : Sources} {call : AcceptCall}
    {fault : Option SqlFault} {e : CoreError}
    (h : acceptTrpTufStateInTransaction rows call fault = .error e)
    (hfault : ∀ detail, fault = some (.select detail) ∨ fault = some (.update detail) →
      mentionsRecovery detail = false) :
    mentionsRecovery (displayCoreError e) = false := by
  simp only [acceptTrpTufStateInTransaction, bind_eq_error, failIf_eq_error] at h
  rcases h with ⟨-, rfl⟩ | ⟨_, -, ⟨-, rfl⟩ | ⟨_, -, hselect | ⟨last, -, hloop | ⟨_, -, hupdate⟩⟩⟩⟩
  · exact display_unmarked (.inr rfl) (mentionsRecovery_eq_false (by decide))
  · exact display_unmarked (.inr rfl) (mentionsRecovery_eq_false (by decide))
  · unfold trpTufState at hselect
    split at hselect
    · cases hselect
      exact display_unmarked (.inl rfl) (hfault _ (.inl rfl))
    · obtain ⟨-, rfl⟩ := orFail_eq_error.mp hselect
      exact display_unmarked (.inl rfl) (mentionsRecovery_eq_false (by decide))
  · obtain ⟨entry, hmem, hentry⟩ := exists_of_forM_eq_error hloop
    apply checkRole_unmarked _ hentry
    simp only [roleEntries, List.mem_cons, List.not_mem_nil, or_false] at hmem
    rcases hmem with rfl | rfl | rfl | rfl <;> simp
  · split at hupdate
    · cases hupdate
      exact display_unmarked (.inl rfl) (hfault _ (.inr rfl))
    · simp only [bind_eq_error, failIf_eq_error] at hupdate
      rcases hupdate with ⟨-, rfl⟩ | ⟨_, -, hpure⟩
      · exact display_unmarked (.inr rfl) (mentionsRecovery_eq_false (by decide))
      · cases hpure

/-! ## Inside the transaction -/

/-- The operations that undo an install succeed. -/
structure Outside.Restores (out : Outside) : Prop where
  disk : out.disk.Restores
  rollback : out.fault .rollback = none
  registration : out.fault .restoreRegistration = none

/-- No text from outside mentions recovery. -/
def Outside.Unmarked (out : Outside) : Prop :=
  ∀ site f, out.fault site = some f → mentionsRecovery f.text = false

/-- The world with a transaction open on a working copy. -/
def World.opened (w : World) (d : Database) : World := { w with db := w.db.opened d }

/-- A failure inside the transaction: only the working copy has changed. -/
def Refused (w : World) (e : CmdError) (t : World) : Prop :=
  mentionsRecovery e.message = false ∧ ∃ d, t = w.opened d

section Inner

variable {out : Outside} {w : World} {d : Database}

theorem IsFault.unmarked {site : Site} {e : String} (hout : out.Unmarked)
    (h : Connection.IsFault (out.fault site) e) : mentionsRecovery e = false := by
  obtain ⟨f, hf, rfl⟩ := h
  exact hout site f hf

/-- The database with other rows for one tool. -/
def Database.setEntry (d : Database) (id : String) (entry : ToolEntry) : Database :=
  { d with tools := Function.update d.tools id entry }

theorem updateTool_setEntry (d : Database) (id : String) (entry : ToolEntry)
    (f : ToolEntry → ToolEntry) :
    updateTool id f (d.setEntry id entry) = d.setEntry id (f entry) := by
  simp only [updateTool, Database.setEntry, Function.update_self, Function.update_idem]

theorem setEntry_eq_self (d : Database) (id : String) : d.setEntry id (d.tools id) = d := by
  rw [Database.setEntry, Function.update_eq_self]

theorem statement_spec {site : Site} {id : String} {entry : ToolEntry}
    {f : ToolEntry → ToolEntry} (hout : out.Unmarked) :
    Ensures (out.statement site (updateTool id f)) (w.opened (d.setEntry id entry))
      (fun _ t => t = w.opened (d.setEntry id (f entry))) (Refused w) := by
  apply ensures_mapError.mpr
  apply ensures_onPart.mpr
  apply (Connection.execute_opened (c := w.db)).imp
  · intro _ t ht
    rw [ht, updateTool_setEntry]
    rfl
  · intro e t ht
    obtain ⟨he, rfl⟩ := ht
    exact ⟨IsFault.unmarked hout he, _, rfl⟩

/-- Deleting all grants and inserting each permission replaces the grants. -/
theorem foldl_insertGrant (permissions : List String) (entry : ToolEntry) :
    permissions.foldl ToolEntry.insertGrant entry =
      { entry with
        granted := permissions.foldl (fun granted p => insert p granted) entry.granted } := by
  induction permissions generalizing entry with
  | nil => rfl
  | cons p permissions ih => exact ih _

theorem insertGrants_spec {toolId : String} {entry : ToolEntry} (hout : out.Unmarked)
    (permissions : List String) :
    Ensures (permissions.zipIdx.forM fun perm =>
        out.statement (.insertGrant perm.2) (updateTool toolId fun entry => entry.insertGrant perm.1))
      (w.opened (d.setEntry toolId entry.deleteGrants))
      (fun _ t => t = w.opened (d.setEntry toolId (entry.replaceGrants permissions)))
      (Refused w) := by
  have hsweep := Ensures.forM (R := fun entry t => t = w.opened (d.setEntry toolId entry))
    (g := fun (entry : ToolEntry) (perm : String × Nat) => entry.insertGrant perm.1)
    (E := Refused w) (f := fun perm => out.statement (.insertGrant perm.2)
      (updateTool toolId fun entry => entry.insertGrant perm.1))
    (fun entry perm t ht => ht ▸ statement_spec hout) permissions.zipIdx
    (i := entry.deleteGrants) rfl
  apply hsweep.imp _ fun _ _ => id
  intro _ t ht
  rw [ht, ← List.foldl_map (f := Prod.fst) (g := ToolEntry.insertGrant), List.zipIdx_map_fst,
    foldl_insertGrant]
  rfl

theorem queryOrigin_spec {toolId : String} (hout : out.Unmarked) :
    Ensures (mapError CmdError.ofText (onDb (Connection.query (out.fault .queryOrigin)
        fun db => (db.tools toolId).origin.isSome))) (w.opened d)
      (fun pinned t => pinned = (d.tools toolId).origin.isSome ∧ t = w.opened d)
      (Refused w) := by
  apply ensures_mapError.mpr
  apply ensures_onPart.mpr
  apply (Connection.query_opened (c := w.db) (d := d)).imp
  · intro _ t ht
    obtain ⟨rfl, rfl⟩ := ht
    exact ⟨rfl, rfl⟩
  · intro e t ht
    obtain ⟨he, rfl⟩ := ht
    exact ⟨IsFault.unmarked hout he, d, rfl⟩

/-- Accepting the TUF state changes the sources alone. -/
theorem acceptTufState_spec {call : AcceptCall} (hout : out.Unmarked) :
    Ensures (mapError (fun e => CmdError.ofText (displayCoreError e))
        (onDb (out.acceptTufState call))) (w.opened d)
      (fun _ t => ∃ sources, d.sources.Accepts call sources ∧
        t = w.opened { d with sources := sources }) (Refused w) := by
  apply ensures_mapError.mpr
  apply ensures_onPart.mpr
  show Ensures (out.acceptTufState call) (w.db.opened d) _ _
  unfold Ensures Outside.acceptTufState
  rw [Connection.visible_opened]
  cases haccept : acceptTrpTufStateInTransaction d.sources call out.tufFault with
  | ok sources =>
      have haccepts := (acceptTrpTufStateInTransaction_eq_ok.mp haccept).2.2
      exact ⟨sources, haccepts, rfl⟩
  | error e =>
      refine ⟨acceptTrpTufStateInTransaction_unmarked haccept ?_, d, rfl⟩
      intro detail hdetail
      unfold Outside.tufFault at hdetail
      split at hdetail
      · rename_i f hf
        simp only [Option.some.injEq, SqlFault.select.injEq, reduceCtorEq, or_false] at hdetail
        exact hdetail ▸ hout _ _ hf
      · rename_i f _ hf
        simp only [Option.some.injEq, SqlFault.update.injEq, reduceCtorEq, false_or] at hdetail
        exact hdetail ▸ hout _ _ hf
      · simp at hdetail

/-- The database after the statements of an install. -/
structure Persisted (out : Outside) (outcome : InstallOutcome) (trp : Option TrpInstallCommit)
    (d d' : Database) : Prop where
  tools : ToolStep d.tools (.persistInstalled outcome.manifest
    (out.toStringLossy outcome.installDir) outcome.sha256
    (trp.map TrpInstallCommit.origin) out.now) d'.tools
  sources : match trp with
    | none => d'.sources = d.sources
    | some trp => d.sources.Accepts trp.acceptCall d'.sources

theorem applyInstall_spec {outcome : InstallOutcome} {trp : Option TrpInstallCommit}
    (hout : out.Unmarked) :
    Ensures (applyInstall out outcome trp) (w.opened d)
      (fun _ t => ∃ d', t = w.opened d' ∧ Persisted out outcome trp d d') (Refused w) := by
  have hstart : w.opened d = w.opened (d.setEntry outcome.manifest.id
      (d.tools outcome.manifest.id)) := by
    rw [setEntry_eq_self]
  unfold applyInstall
  rw [hstart]
  apply Ensures.bind (statement_spec hout) fun _ _ => id
  intro _ t ht
  obtain rfl := ht
  apply Ensures.bind (statement_spec hout) fun _ _ => id
  intro _ t ht
  obtain rfl := ht
  apply Ensures.bind (statement_spec hout) fun _ _ => id
  intro _ t ht
  obtain rfl := ht
  apply Ensures.bind (insertGrants_spec hout _) fun _ _ => id
  intro _ t ht
  obtain rfl := ht
  cases trp with
  | some trp =>
      apply Ensures.bind (acceptTufState_spec hout) fun _ _ => id
      intro _ t ht
      obtain ⟨sources, haccepts, rfl⟩ := ht
      apply (statement_spec (d := { d with sources := sources }) hout).imp _ fun _ _ => id
      intro _ t ht
      exact ⟨_, ht, ⟨⟨_, rfl, rfl⟩, haccepts⟩⟩
  | none =>
      apply Ensures.bind (queryOrigin_spec hout) fun _ _ => id
      intro pinned t ht
      obtain ⟨rfl, rfl⟩ := ht
      apply ensures_ofExcept.mpr
      constructor
      · intro _ hpinned
        simp only [failIf_eq_ok, Database.setEntry, Function.update_self] at hpinned
        exact ⟨_, rfl, ⟨⟨_, bind_of_eq_ok ((failIf_eq_ok (r := ⟨⟩)).mpr hpinned) _, rfl⟩, rfl⟩⟩
      · intro e hpinned
        obtain ⟨-, rfl⟩ := failIf_eq_error.mp hpinned
        exact ⟨mentionsRecovery_eq_false (by decide), _, rfl⟩

/-! ## The registry -/

/-- The world with the definition of a tool replaced. -/
def World.registered (w : World) (tool : ToolDefinition) : World :=
  { w with registry := (w.registry.remove tool.id).insert tool }

/-- Rolling back brings back the connection from before the transaction, and the
original error is returned. -/
theorem rollbackDatabase_spec {α : Type} {original : CmdError} {Q : α → World → Prop}
    (hrestores : out.Restores) :
    Ensures (out.rollbackDatabase original) (w.opened d) Q
      (fun e t => e = original ∧ t = { w with db := { w.db with working := none } }) := by
  unfold Outside.rollbackDatabase
  rw [hrestores.rollback]
  apply ensures_bind.mpr
  apply ensures_attempt.mpr
  apply ensures_onPart.mpr
  apply Connection.rollback_opened.imp
  · intro _ t ht
    apply ensures_fail.mpr
    exact ⟨rfl, by rw [ht]; rfl⟩
  · intro _ _ hfalse
    exact hfalse.elim

/-- Once its id is free again, the previous definition is put back. -/
theorem restoreRegistration_spec {registry : ToolRegistry} {id : String} {original : CmdError}
    (hrestores : out.Restores) :
    Ensures (out.restoreRegistration (registry.tools id) original)
      { w with registry := registry.remove id }
      (fun e t => e = original ∧ t = { w with registry := registry }) (fun _ _ => False) := by
  unfold Outside.restoreRegistration
  cases hprevious : registry.tools id with
  | none => exact ensures_pure.mpr ⟨rfl, by rw [ToolRegistry.remove_of_none hprevious]⟩
  | some previous =>
      have hid : previous.id = id := registry.keyed id previous hprevious
      unfold Outside.register
      rw [hrestores.registration]
      apply ensures_bind.mpr
      apply ensures_attempt.mpr
      apply ensures_onPart.mpr
      have hregister : ToolRegistry.register previous (registry.remove id) =
          (.ok (), registry) := by
        have hfree : (registry.remove id).tools previous.id = none :=
          hid ▸ ToolRegistry.tools_remove_self registry id
        simp only [ToolRegistry.register, hfree, ToolRegistry.insert_remove hprevious]
      apply (ensures_of_eq_ok hregister).mpr
      exact ensures_pure.mpr ⟨rfl, rfl⟩

/-- The id was freed just before, so registering fails only for an outside fault. -/
theorem register_spec {tool : ToolDefinition} (hout : out.Unmarked) :
    Ensures (out.register .register tool)
      { w with registry := w.registry.remove tool.id }
      (fun _ t => t = w.registered tool)
      (fun e t => mentionsRecovery e = false ∧
        t = { w with registry := w.registry.remove tool.id }) := by
  unfold Outside.register
  cases hfault : out.fault .register with
  | some f => exact ensures_fail.mpr ⟨hout _ _ hfault, rfl⟩
  | none =>
      apply ensures_onPart.mpr
      have hregister : ToolRegistry.register tool (w.registry.remove tool.id) =
          (.ok (), (w.registry.remove tool.id).insert tool) := by
        simp only [ToolRegistry.register, ToolRegistry.tools_remove_self]
      exact (ensures_of_eq_ok hregister).mpr rfl

/-- After a failure inside the transaction, rolling back restores the world. -/
theorem rollback_refused {α : Type} {e : CmdError} {t : World} {Q : α → World → Prop}
    (hrestores : out.Restores) (hclosed : w.db.working = none) (h : Refused w e t) :
    Ensures (out.rollbackDatabase e) t Q
      (fun e t => mentionsRecovery e.message = false ∧ t = w) := by
  obtain ⟨he, d, rfl⟩ := h
  apply (rollbackDatabase_spec hrestores).imp fun _ _ => id
  intro _ _ ht
  obtain ⟨rfl, rfl⟩ := ht
  refine ⟨he, ?_⟩
  rw [← hclosed]

/-- After a failure with the id free, putting the definition back and rolling back
restore the world. -/
theorem restore_refused {α : Type} {e : CmdError} {Q : α → World → Prop}
    (hrestores : out.Restores) (hclosed : w.db.working = none) (id : String)
    (he : mentionsRecovery e.message = false) :
    Ensures (do
        let original ← out.restoreRegistration (w.registry.tools id) e
        out.rollbackDatabase original)
      { w.opened d with registry := w.registry.remove id } Q
      (fun e t => mentionsRecovery e.message = false ∧ t = w) := by
  apply Ensures.bind (restoreRegistration_spec (w := w.opened d) hrestores) nofun
  intro original t ht
  obtain ⟨rfl, rfl⟩ := ht
  exact rollback_refused hrestores hclosed ⟨he, d, rfl⟩

theorem commit_spec (hout : out.Unmarked) :
    Ensures (onDb (Connection.commit (out.fault .commit))) (w.opened d)
      (fun _ t => t = { w with db := ⟨d, none⟩ })
      (fun e t => mentionsRecovery e = false ∧ t = w.opened d) := by
  apply ensures_onPart.mpr
  apply (Connection.commit_opened (c := w.db) (d := d)).imp
  · intro _ t ht
    rw [ht]
    rfl
  · intro e t ht
    obtain ⟨he, rfl⟩ := ht
    exact ⟨IsFault.unmarked hout he, rfl⟩

theorem beginImmediate_spec (hout : out.Unmarked) :
    Ensures (mapError CmdError.ofText
        (onDb (Connection.beginImmediate (out.fault .beginImmediate)))) w
      (fun _ t => w.db.working = none ∧ t = w.opened w.db.committed)
      (fun e t => mentionsRecovery e.message = false ∧ t = w) := by
  apply ensures_mapError.mpr
  apply ensures_onPart.mpr
  apply Connection.beginImmediate_spec.imp
  · intro _ t ht
    obtain ⟨hclosed, rfl⟩ := ht
    exact ⟨hclosed, rfl⟩
  · intro e t ht
    obtain ⟨rfl, he⟩ := ht
    refine ⟨?_, rfl⟩
    rcases he with he | rfl
    · exact IsFault.unmarked hout he
    · exact mentionsRecovery_eq_false (by decide)

theorem serializeManifest_spec (hout : out.Unmarked) :
    Ensures out.serializeManifest w (fun _ t => t = w)
      (fun e t => mentionsRecovery e.message = false ∧ t = w) := by
  unfold Outside.serializeManifest
  split
  · rename_i f hfault
    exact ensures_fail.mpr ⟨hout _ _ hfault, rfl⟩
  · exact ensures_pure.mpr rfl

theorem lock_spec {site : Site} {message : String} (h : 'Y' ∉ message.toList) :
    Ensures (out.lock site message) w (fun _ t => t = w)
      (fun e t => mentionsRecovery e.message = false ∧ t = w) := by
  unfold Outside.lock
  split
  · exact ensures_fail.mpr ⟨mentionsRecovery_eq_false h, rfl⟩
  · exact ensures_pure.mpr rfl

/-! ## The command -/

/-- The world after a committed install. -/
def World.committed (w : World) (d : Database) (tool : ToolDefinition) : World :=
  { w.registered tool with db := ⟨d, none⟩ }

/-- `persist_installed_inner` commits rows and registration, or changes nothing and
says so without mentioning recovery. -/
theorem persistInstalledInner_spec {outcome : InstallOutcome} {trp : Option TrpInstallCommit}
    (hrestores : out.Restores) (hout : out.Unmarked) :
    Ensures (persistInstalledInner out outcome trp) w
      (fun tool t =>
        tool = manifestToTool outcome.manifest (out.toStringLossy outcome.installDir) ∧
        ∃ d, Persisted out outcome trp w.db.committed d ∧ t = w.committed d tool)
      (fun e t => mentionsRecovery e.message = false ∧ t = w) := by
  unfold persistInstalledInner
  apply Ensures.bind (serializeManifest_spec hout) fun _ _ => id
  intro _ t ht
  rw [ht]
  apply Ensures.bind (lock_spec (by decide)) fun _ _ => id
  intro _ t ht
  rw [ht]
  apply Ensures.bind (beginImmediate_spec hout) fun _ _ => id
  intro _ t ht
  obtain ⟨hclosed, rfl⟩ := ht
  apply ensures_bind.mpr
  apply ensures_attempt.mpr
  apply (applyInstall_spec hout).imp
  · intro _ t ht
    obtain ⟨d, rfl, hpersisted⟩ := ht
    apply ensures_bind.mpr
    apply ensures_attempt.mpr
    apply (lock_spec (by decide)).imp
    · intro _ t ht
      rw [ht]
      apply ensures_bind.mpr
      apply ensures_onPart.mpr
      apply ensures_bind.mpr
      apply ensures_attempt.mpr
      apply (register_spec (w := w.opened d) hout).imp
      · intro _ t ht
        rw [ht]
        apply ensures_bind.mpr
        apply ensures_attempt.mpr
        apply (commit_spec (w := w.registered _) hout).imp
        · intro _ t ht
          exact ensures_pure.mpr ⟨rfl, d, hpersisted, ht⟩
        · intro e t ht
          obtain ⟨he, rfl⟩ := ht
          apply ensures_bind.mpr
          apply ensures_onPart.mpr
          have hremoved := ToolRegistry.remove_insert_remove w.registry
            (manifestToTool outcome.manifest (out.toStringLossy outcome.installDir))
          have hrestore := restore_refused (d := d) (Q := fun tool t =>
              tool = manifestToTool outcome.manifest (out.toStringLossy outcome.installDir) ∧
              ∃ d, Persisted out outcome trp w.db.committed d ∧ t = w.committed d tool)
            hrestores hclosed outcome.manifest.id (e := .ofText e) he
          rw [← show _ = w.registry.remove outcome.manifest.id from hremoved] at hrestore
          exact hrestore
      · intro e t ht
        obtain ⟨he, rfl⟩ := ht
        exact restore_refused hrestores hclosed _ he
    · intro e t ht
      obtain ⟨he, rfl⟩ := ht
      exact rollback_refused hrestores hclosed ⟨he, d, rfl⟩
  · intro e t ht
    exact rollback_refused hrestores hclosed ht

/-- Directory, rows and registry all show the new version. -/
structure ShowsVersion (out : Outside) (outcome : InstallOutcome) (content : Directory)
    (tool : ToolDefinition) (w : World) : Prop where
  directory : w.dirs outcome.installDir = some content
  closed : w.db.working = none
  current : ∃ row, (w.db.committed.tools outcome.manifest.id).tool = some row ∧
    row.enabled = true ∧ row.currentVersion = some outcome.manifest.version
  version : ∃ record,
    (w.db.committed.tools outcome.manifest.id).versions.lookup outcome.manifest.version =
      some record ∧ record.manifest = outcome.manifest ∧
    record.installDir = some (out.toStringLossy outcome.installDir) ∧
    record.sha256 = some outcome.sha256
  granted : (w.db.committed.tools outcome.manifest.id).granted =
    outcome.manifest.permissions.toFinset
  definition : tool = manifestToTool outcome.manifest (out.toStringLossy outcome.installDir)
  registered : w.registry.get outcome.manifest.id = some tool

theorem Persisted.showsVersion {outcome : InstallOutcome} {trp : Option TrpInstallCommit}
    {d d' : Database} {content : Directory} {tool : ToolDefinition} {dirs : Dirs}
    (h : Persisted out outcome trp d d')
    (htool : tool = manifestToTool outcome.manifest (out.toStringLossy outcome.installDir))
    (hdirs : dirs outcome.installDir = some content) :
    ShowsVersion out outcome content tool { w.committed d' tool with dirs := dirs } := by
  obtain ⟨entry, happly, htables⟩ := h.tools
  have hrows := ToolEntry.persistInstalled_rows happly
  have hentry : d'.tools outcome.manifest.id = entry := by
    rw [htables]
    exact Function.update_self _ _ _
  subst htool
  exact {
    directory := hdirs
    closed := rfl
    current := ⟨_, (congrArg ToolEntry.tool hentry).trans hrows.1, rfl, rfl⟩
    version := hentry ▸ hrows.2.1
    granted := (congrArg ToolEntry.granted hentry).trans hrows.2.2
    definition := rfl
    registered := ToolRegistry.get_insert _ _ }

/-- After a swap, `persist_installed` leaves either the new version everywhere or the
world from before the swap. -/
theorem persistInstalled_spec {before : World} {uuids : Uuids} {outcome : InstallOutcome}
    {trp : Option TrpInstallCommit} {content : Directory} {dirs : Dirs}
    (hrestores : out.Restores) (hout : out.Unmarked)
    (hdir : outcome.installDir = outcome.transaction.destination)
    (hswapped : Swapped before.dirs outcome.transaction content dirs) :
    Ensures (persistInstalled out uuids outcome trp) { before with dirs := dirs }
      (fun tool t => ShowsVersion out outcome content tool t) (fun _ t => t = before) := by
  unfold persistInstalled
  apply ensures_bind.mpr
  apply ensures_attempt.mpr
  apply (persistInstalledInner_spec hrestores hout).imp
  · intro tool t ht
    obtain ⟨htool, d, hpersisted, rfl⟩ := ht
    apply ensures_bind.mpr
    apply ensures_onPart.mpr
    apply (InstallTransaction.commit_spec hswapped.backed.ne).imp
    · intro _ u hu
      apply ensures_pure.mpr
      apply hpersisted.showsVersion htool
      rw [hdir, hu]
      show dirs outcome.transaction.destination = some content
      rw [hswapped.after_eq, Function.update_self]
    · intro _ _ hfalse
      exact hfalse.elim
  · intro original t ht
    obtain ⟨horiginal, rfl⟩ := ht
    apply ensures_bind.mpr
    apply ensures_attempt.mpr
    apply ensures_onPart.mpr
    apply (InstallTransaction.rollback_spec hrestores.disk hswapped).imp
    · intro _ u hu
      subst hu
      show Ensures (if mentionsRecovery original.message = false then fail original else _) _ _ _
      rw [if_pos horiginal]
      exact ensures_fail.mpr rfl
    · intro _ _ hfalse
      exact hfalse.elim

end Inner

/-- An install is all or nothing. If what undoes it succeeds, an error leaves version
directories, database and registry as they were before `install_useful`; a success
shows the new version in all three. -/
theorem install_all_or_nothing {V : Type} [LT V] [DecidableLT V] (parsers : Parsers V)
    (out : Outside) (archive : Archive) (opts : InstallOptions) (roots : Roots) (uuids : Uuids)
    (trp : Option TrpInstallCommit) (before : World)
    (hfresh : ∀ m sha256, preflight parsers archive opts = .ok (m, sha256) →
      roots.Fresh uuids m before.dirs)
    (hrestores : out.Restores) (hout : out.Unmarked) :
    Ensures (installPackage out parsers archive opts roots uuids trp) before
      (fun tool after => ∃ outcome,
        preflight parsers archive opts = .ok (outcome.manifest, outcome.sha256) ∧
        outcome.installDir = roots.destination outcome.manifest ∧
        ShowsVersion out outcome archive.extracted tool after)
      (fun _ after => after = before) := by
  unfold installPackage
  apply ensures_bind.mpr
  apply ensures_mapError.mpr
  apply ensures_onPart.mpr
  apply (installUseful_spec hrestores.disk hfresh).imp
  · intro outcome dirs hinstalled
    obtain ⟨hpreflight, -, hdestination, hdir, hswapped⟩ := hinstalled
    apply (persistInstalled_spec hrestores hout hdir hswapped).imp _ fun _ _ => id
    intro tool after hshows
    exact ⟨outcome, hpreflight, hdestination, hshows⟩
  · intro _ dirs hdirs
    rw [hdirs]

/-- Nothing fails but the commit. -/
def commitFails : Outside where
  disk := ⟨fun _ => none, "not found", "already exists", id, none⟩
  fault := fun site => if site = .commit then some ⟨"disk I/O error", false⟩ else none
  now := 0
  toStringLossy := "/".intercalate

def onePackage : Archive where
  size := .ok 1024
  sha256 := .ok "00"
  manifest := .ok (webManifest "com.example.tool" "1.0.0")
  extract := .ok ()
  extracted := fun _ => some (.file [])

def anyVersion : Parsers Nat where
  version := fun _ => .ok 1
  manifest := fun _ => .ok (webManifest "com.example.tool" "1.0.0")

/-- The same version is already on disk. -/
def installedOnce : World where
  dirs := fun path =>
    if path = ["plugins", "com.example.tool", "1.0.0"] then some fun _ => none else none
  db := ⟨⟨.empty, fun _ => none⟩, none⟩
  registry := .new

theorem commitFails_unmarked : commitFails.Unmarked := by
  intro site f hf
  simp only [commitFails] at hf
  split_ifs at hf
  cases hf
  exact mentionsRecovery_eq_false (by decide)

theorem installedOnce_fresh : Roots.Fresh ⟨["staging"], ["plugins"]⟩ ⟨"a", "b", "c", "d"⟩
    (webManifest "com.example.tool" "1.0.0") installedOnce.dirs := by
  constructor
  · decide
  · decide

/-- Without limits that matter. -/
def lenient : InstallOptions := ⟨4096, none, "0.1.0", some "1.0.0", false⟩

/-- A commit that fails after a replacement of the same version changes nothing. -/
theorem install_all_or_nothing_commitFails :
    Ensures (installPackage commitFails anyVersion onePackage lenient
        ⟨["staging"], ["plugins"]⟩ ⟨"a", "b", "c", "d"⟩ none) installedOnce
      (fun tool after => ∃ outcome,
        preflight anyVersion onePackage lenient = .ok (outcome.manifest, outcome.sha256) ∧
        outcome.installDir =
          Roots.destination ⟨["staging"], ["plugins"]⟩ outcome.manifest ∧
        ShowsVersion commitFails outcome onePackage.extracted tool after)
      (fun _ after => after = installedOnce) := by
  apply install_all_or_nothing
  · intro m sha256 hpreflight
    have hweb : preflight anyVersion onePackage lenient =
        .ok (webManifest "com.example.tool" "1.0.0", "00") := rfl
    rw [hweb] at hpreflight
    cases hpreflight
    exact installedOnce_fresh
  · exact ⟨fun _ _ => rfl, rfl, rfl⟩
  · exact commitFails_unmarked

end Useful.Plugins
