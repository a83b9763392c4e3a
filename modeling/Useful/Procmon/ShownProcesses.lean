/-
# What the process table shows

The front end replays the differences between consecutive samples. It shows the last sample
exactly when the static fields of its processes are those they were added with and no parent
links form a cycle: static fields come only with the difference that adds a process, and what
is below no root is in no tree.
-/

import Useful.Procmon.ProcTable

namespace Useful.Procmon

open Useful.Math

variable (locale : Locale)

/-! ## Sampling and replaying -/

/-- The map that the sampler keeps and the table of the front end. -/
structure Monitor where
  prev : SnapshotMap
  table : ProcTable

/-- A round of the sampling loop, and its event in the front end. -/
def Monitor.round (monitor : Monitor) (sample : Sample) : Monitor where
  prev := buildMap sample.rows
  table := applyDelta monitor.table (diff monitor.prev (buildMap sample.rows))

/-- The monitor after samples, the first against the empty map. -/
def monitored (samples : List Sample) : Monitor :=
  samples.foldl Monitor.round ⟨.empty, .empty⟩

/-! ## What is shown -/

/-- The parent of a process, where the sample has both. -/
def ParentIn (sample : Sample) (identity parent : ProcessIdentity) : Prop :=
  ∃ snapshot ∈ sample.rows, snapshot.identity = identity ∧
    snapshot.static.parent = some parent ∧ (sample.find parent).isSome

/-- The row of a process in the tree of a sample. -/
def rowIn (sample : Sample) (snapshot : ProcessSnapshot) : ProcRow :=
  { rowOf snapshot with
    parentKey := (snapshot.static.parent.filter fun parent =>
      (sample.find parent).isSome).map ProcessIdentity.key }

/-- The table holds the processes of a sample, and both modes show each of them once. -/
structure Shows (table : ProcTable) (sample : Sample) : Prop where
  held : table.rows.Perm sample.rows
  list : ∀ column dir, (listMode locale column dir "" table).Perm (sample.rows.map rowOf)
  tree : ∀ column dir expanded, (∀ snapshot ∈ sample.rows, expanded snapshot.key = true) →
    ∃ out, treeMode locale column dir "" expanded table = some out ∧
      (out.map fun row => { row with depth := 0 }).Perm (sample.rows.map (rowIn sample)) ∧
        InBlocks out

/-- The static fields that processes have in the sample that added them. -/
def announce (known : ProcessIdentity → Option StaticInfo) (sample : Sample) :
    ProcessIdentity → Option StaticInfo :=
  fun identity => (sample.find identity).map fun snapshot =>
    (known identity).getD snapshot.static

def announced (samples : List Sample) : ProcessIdentity → Option StaticInfo :=
  samples.foldl announce fun _ => none

/-- A sample with the static fields that its processes were last added with. -/
def shownSample (samples : List Sample) (last : Sample) : Sample where
  rows := last.rows.map fun snapshot => { snapshot with
    static := (announced (samples ++ [last]) snapshot.identity).getD snapshot.static }
  nodup := by
    rw [List.map_map]
    exact last.nodup

/-- Each process has the static fields that it was last added with. -/
def Steady (samples : List Sample) (last : Sample) : Prop :=
  ∀ snapshot ∈ last.rows, announced (samples ++ [last]) snapshot.identity = some snapshot.static

/-- No process is above itself. -/
def Acyclic (sample : Sample) : Prop :=
  ∀ snapshot ∈ sample.rows,
    ¬ Relation.TransGen (ParentIn sample) snapshot.identity snapshot.identity

/-! ## What the table holds -/

theorem monitored_append (samples : List Sample) (sample : Sample) :
    monitored (samples ++ [sample]) = (monitored samples).round sample := by
  rw [monitored, List.foldl_append]
  rfl

theorem announced_append (samples : List Sample) (sample : Sample) :
    announced (samples ++ [sample]) = announce (announced samples) sample := by
  rw [announced, List.foldl_append]
  rfl

/-- The table holds the processes of the sampler's map, with the static fields they were
added with. -/
structure Follows (monitor : Monitor) (known : ProcessIdentity → Option StaticInfo) : Prop where
  held : ∀ identity, monitor.table.find identity.key =
    (monitor.prev.find identity.key).map fun snapshot =>
      { snapshot with static := (known identity).getD snapshot.static }
  known : ∀ identity, known identity = none ↔ monitor.prev.find identity.key = none

theorem identity_of_find {map : SnapshotMap} {identity : ProcessIdentity}
    {snapshot : ProcessSnapshot} (h : map.find identity.key = some snapshot) :
    snapshot.identity = identity :=
  ProcessIdentity.key_injective (Table.find_eq_some.mp h).2

/-- One round of sampling and replaying. -/
theorem Follows.round {monitor : Monitor} {known : ProcessIdentity → Option StaticInfo}
    (h : Follows monitor known) (sample : Sample) :
    Follows (monitor.round sample) (announce known sample) := by
  have hnext : ∀ identity, (monitor.round sample).prev.find identity.key = sample.find identity :=
    find_buildMap sample
  constructor
  · intro identity
    have hbuilt := find_buildMap sample identity
    have hheld := h.held identity
    rw [hnext, announce]
    cases hsample : sample.find identity with
    | none =>
        refine find_applyDelta_gone (hbuilt.trans hsample) fun hprev => ?_
        rw [hheld, hprev]
        rfl
    | some snapshot =>
        rw [hsample] at hbuilt
        cases hprev : monitor.prev.find identity.key with
        | none =>
            rw [(h.known identity).mpr hprev]
            exact find_applyDelta_new hbuilt hprev
        | some old =>
            obtain ⟨static, hstatic⟩ : ∃ static, known identity = some static := by
              refine Option.ne_none_iff_exists'.mp fun hnone => ?_
              rw [(h.known identity).mp hnone] at hprev
              cases hprev
            have hidentity : old.identity = snapshot.identity :=
              (identity_of_find hprev).trans (identity_of_find hbuilt).symm
            rw [hprev, hstatic] at hheld
            rw [hstatic]
            refine (find_applyDelta_stays hbuilt hprev hheld rfl).trans ?_
            rw [Option.map_some, Option.some.injEq, ProcessSnapshot.mk.injEq]
            exact ⟨hidentity, rfl, rfl⟩
  · intro identity
    rw [hnext, announce, Option.map_eq_none_iff]

theorem follows_monitored (samples : List Sample) :
    Follows (monitored samples) (announced samples) := by
  induction samples using List.reverseRecOn with
  | nil => exact ⟨fun _ => rfl, fun _ => ⟨fun _ => rfl, fun _ => rfl⟩⟩
  | append_singleton samples sample ih =>
      rw [monitored_append, announced_append]
      exact ih.round sample

/-- Rows are found by the keys of identities. -/
theorem find_ext {map other : SnapshotMap}
    (h : ∀ identity : ProcessIdentity, map.find identity.key = other.find identity.key) :
    map.rows.Perm other.rows := by
  refine Table.perm_of_find_eq fun key => ?_
  have hfound : ∀ {m m' : SnapshotMap} {snapshot : ProcessSnapshot},
      (∀ identity : ProcessIdentity, m.find identity.key = m'.find identity.key) →
      m.find key = some snapshot → m'.find key = some snapshot := by
    intro m m' snapshot heq hfind
    have hkey : snapshot.identity.key = key := (Table.find_eq_some.mp hfind).2
    rw [← hkey] at hfind ⊢
    rwa [← heq]
  apply Option.ext
  intro snapshot
  exact ⟨hfound h, hfound fun identity => (h identity).symm⟩

/-- The processes of a sample, found by key. -/
theorem find_of_sample (sample : Sample) (identity : ProcessIdentity) :
    (⟨sample.rows, sample.nodup_key⟩ : SnapshotMap).find identity.key =
      sample.find identity := by
  apply Option.ext
  intro snapshot
  rw [Table.find_eq_some, Table.find_eq_some]
  exact and_congr_right fun _ => ProcessIdentity.key_injective.eq_iff

/-- The table holds the last sample, with the static fields announced for it. -/
theorem monitored_perm (samples : List Sample) (last : Sample) :
    (monitored (samples ++ [last])).table.rows.Perm (shownSample samples last).rows := by
  have hfollows := follows_monitored (samples ++ [last])
  refine @find_ext _ ⟨_, (shownSample samples last).nodup_key⟩ fun identity => ?_
  have hlast : (monitored (samples ++ [last])).prev.find identity.key = last.find identity := by
    rw [monitored_append]
    exact find_buildMap last identity
  rw [hfollows.held, hlast, find_of_sample]
  cases hfind : last.find identity with
  | none =>
      refine (Table.find_eq_none.mpr fun snapshot hmem => ?_).symm
      obtain ⟨source, hsource, rfl⟩ := List.mem_map.mp hmem
      exact Table.find_eq_none.mp hfind source hsource
  | some snapshot =>
      obtain ⟨hmem, rfl⟩ := Table.find_eq_some.mp hfind
      exact (Table.find_eq_some.mpr ⟨List.mem_map.mpr ⟨snapshot, hmem, rfl⟩, rfl⟩).symm

theorem isSome_announced (samples : List Sample) {last : Sample} {snapshot : ProcessSnapshot}
    (hmem : snapshot ∈ last.rows) :
    ∃ static, announced (samples ++ [last]) snapshot.identity = some static := by
  have hfind : last.find snapshot.identity = some snapshot :=
    Table.find_eq_some.mpr ⟨hmem, rfl⟩
  rw [announced_append, announce, hfind]
  exact ⟨_, rfl⟩

/-- The table holds exactly the last sample when its static fields are those announced. -/
theorem held_iff (samples : List Sample) (last : Sample) :
    (monitored (samples ++ [last])).table.rows.Perm last.rows ↔ Steady samples last := by
  have hperm := monitored_perm samples last
  constructor
  · intro hheld snapshot hmem
    have hshown := (hheld.symm.trans hperm).mem_iff.mp hmem
    obtain ⟨source, hsource, heq⟩ := List.mem_map.mp hshown
    have hidentity : source.identity = snapshot.identity := by rw [← heq]
    cases Table.eq_of_key_eq hsource hmem hidentity
    obtain ⟨static, hstatic⟩ := isSome_announced samples hmem
    have hsame := congrArg ProcessSnapshot.static heq
    rw [hstatic] at hsame ⊢
    exact congrArg some hsame
  · intro hsteady
    have hsame : (shownSample samples last).rows = last.rows := by
      refine (List.map_congr_left fun snapshot hmem => ?_).trans (List.map_id _)
      rw [hsteady snapshot hmem]
      rfl
    exact hsame ▸ hperm

/-! ## The tree of a sample -/

section Tree

variable {table : ProcTable} {sample : Sample}

theorem resolveParent_rowOf (hperm : table.rows.Perm sample.rows) (snapshot : ProcessSnapshot) :
    resolveParent (allRows table) (rowOf snapshot) = rowIn sample snapshot := by
  have hany : ∀ parent : ProcessIdentity, ((allRows table).any fun r => r.key = parent.key) =
      (sample.find parent).isSome := by
    intro parent
    rw [Bool.eq_iff_iff, List.any_eq_true, Option.isSome_iff_exists]
    constructor
    · rintro ⟨row, hrow, hkey⟩
      obtain ⟨other, hmem, rfl⟩ := List.mem_map.mp hrow
      have hidentity := ProcessIdentity.key_injective (of_decide_eq_true hkey)
      exact ⟨other, Table.find_eq_some.mpr ⟨hperm.mem_iff.mp hmem, hidentity⟩⟩
    · rintro ⟨other, hfind⟩
      obtain ⟨hmem, rfl⟩ := Table.find_eq_some.mp hfind
      exact ⟨rowOf other, List.mem_map_of_mem (hperm.mem_iff.mpr hmem), decide_eq_true rfl⟩
  rw [resolveParent, rowIn, ProcRow.mk.injEq]
  refine ⟨rfl, rfl, rfl, rfl, ?_, rfl, rfl⟩
  cases hparent : snapshot.static.parent with
  | none => simp [rowOf, hparent]
  | some parent => simp only [rowOf, hparent, Option.map_some, Option.filter_some, hany]; split <;> rfl

theorem treeRows_perm (hperm : table.rows.Perm sample.rows) :
    (treeRows table).Perm (sample.rows.map (rowIn sample)) := by
  have heq : treeRows table = table.rows.map (rowIn sample) := by
    rw [treeRows]
    show (table.rows.map rowOf).map _ = _
    rw [List.map_map]
    exact List.map_congr_left fun snapshot _ => resolveParent_rowOf hperm snapshot
  rw [heq]
  exact hperm.map _

/-- Links between rows are the links between the processes of the sample. -/
theorem link_iff (hperm : table.rows.Perm sample.rows) {a b : String} :
    Forest.Link ProcRow.key (treeRows table) ProcRow.parentKey a b ↔
      ∃ identity parent, ParentIn sample identity parent ∧ identity.key = a ∧ parent.key = b := by
  constructor
  · rintro ⟨row, hrow, rfl, hlink⟩
    obtain ⟨snapshot, hmem, rfl⟩ := List.mem_map.mp ((treeRows_perm hperm).mem_iff.mp hrow)
    obtain ⟨parent, hparent, rfl⟩ := Option.map_eq_some_iff.mp hlink
    obtain ⟨hparent, hfind⟩ := Option.filter_eq_some_iff.mp hparent
    exact ⟨_, parent, ⟨snapshot, hmem, rfl, hparent, hfind⟩, rfl, rfl⟩
  · rintro ⟨_, parent, ⟨snapshot, hmem, rfl, hparent, hfind⟩, rfl, rfl⟩
    refine ⟨rowIn sample snapshot, (treeRows_perm hperm).mem_iff.mpr (List.mem_map_of_mem hmem), rfl,
      ?_⟩
    show Option.map _ (Option.filter _ _) = _
    rw [hparent, Option.filter_some, if_pos hfind]
    rfl

theorem transGen_link_iff (hperm : table.rows.Perm sample.rows) {a b : ProcessIdentity} :
    Relation.TransGen (Forest.Link ProcRow.key (treeRows table) ProcRow.parentKey) a.key b.key ↔
      Relation.TransGen (ParentIn sample) a b := by
  constructor
  · intro h
    generalize hb : b.key = k at h
    induction h generalizing b with
    | single hlink =>
        obtain ⟨_, _, hparent, ha, hb'⟩ := (link_iff hperm).mp hlink
        rw [← ProcessIdentity.key_injective ha, ← ProcessIdentity.key_injective (hb'.trans hb.symm)]
        exact .single hparent
    | tail _ hlink ih =>
        obtain ⟨_, _, hparent, hc, hb'⟩ := (link_iff hperm).mp hlink
        rw [← ProcessIdentity.key_injective (hb'.trans hb.symm)]
        exact (ih hc).tail hparent
  · intro h
    exact h.lift ProcessIdentity.key fun _ _ hparent =>
      (link_iff hperm).mpr ⟨_, _, hparent, rfl, rfl⟩

theorem acyclic_iff (hperm : table.rows.Perm sample.rows) :
    (∀ row ∈ treeRows table, ¬ Relation.TransGen
      (Forest.Link ProcRow.key (treeRows table) ProcRow.parentKey) row.key row.key) ↔
      Acyclic sample := by
  have hrows := treeRows_perm hperm
  constructor
  · intro h snapshot hmem hcycle
    exact h _ (hrows.mem_iff.mpr (List.mem_map_of_mem hmem)) ((transGen_link_iff hperm).mpr hcycle)
  · intro h row hrow hcycle
    obtain ⟨snapshot, hmem, rfl⟩ := List.mem_map.mp (hrows.mem_iff.mp hrow)
    exact h snapshot hmem ((transGen_link_iff hperm).mp hcycle)

variable {locale}

/-- Without cycles, a table that holds a sample shows it. -/
theorem shows_of_perm (hperm : table.rows.Perm sample.rows) (hacyclic : Acyclic sample) :
    Shows locale table sample where
  held := hperm
  list column dir := (listMode_perm column dir).trans (hperm.map _)
  tree column dir expanded hexpanded := by
    obtain ⟨out, hout, hblocks, hall⟩ := treeMode_all locale column dir
      fun snapshot hmem => hexpanded snapshot (hperm.mem_iff.mp hmem)
    exact ⟨out, hout, (hall.mpr ((acyclic_iff hperm).mpr hacyclic)).trans (treeRows_perm hperm),
      hblocks⟩

/-- The tree leaves out what is on a cycle or below one. -/
theorem Shows.acyclic (h : Shows locale table sample) : Acyclic sample := by
  obtain ⟨out, hout, hperm, -⟩ := h.tree .name .asc (fun _ => true) fun _ _ => rfl
  obtain ⟨out', hout', -, hall⟩ := @treeMode_all table (fun _ => true) locale .name .asc
    fun _ _ => rfl
  cases hout.symm.trans hout'
  exact (acyclic_iff h.held).mp (hall.mp (hperm.trans (treeRows_perm h.held).symm))

end Tree

/-! ## The shown processes -/

/-- After any samples, the table holds the processes of the last one with their metrics and the
static fields they were last added with. The list shows each of them once, and so does the
tree where no parent links form a cycle. -/
theorem shows_announced (samples : List Sample) (last : Sample) :
    (monitored (samples ++ [last])).table.rows.Perm (shownSample samples last).rows ∧
      (∀ column dir, (listMode locale column dir "" (monitored (samples ++ [last])).table).Perm
        ((shownSample samples last).rows.map rowOf)) ∧
      (Acyclic (shownSample samples last) →
        Shows locale (monitored (samples ++ [last])).table (shownSample samples last)) := by
  have hperm := monitored_perm samples last
  exact ⟨hperm, fun column dir => (listMode_perm column dir).trans (hperm.map _),
    shows_of_perm hperm⟩

/-- The process table shows exactly the last sample if and only if its processes have the static
fields they were added with and no parent links form a cycle. -/
theorem shows_last_iff (samples : List Sample) (last : Sample) :
    Shows locale (monitored (samples ++ [last])).table last ↔
      Steady samples last ∧ Acyclic last := by
  constructor
  · intro hshows
    exact ⟨(held_iff samples last).mp hshows.held, hshows.acyclic⟩
  · rintro ⟨hsteady, hacyclic⟩
    exact shows_of_perm ((held_iff samples last).mpr hsteady) hacyclic

/-! ## A reused PID and a renamed process -/

def idle : DynamicMetrics where
  cpu := 0
  workingSet := 0
  privateBytes := 0
  diskRead := 0
  diskWrite := 0
  netUp := .unavailable
  netDown := .unavailable
  tcpConnections := .unavailable
  udpEndpoints := .unavailable
  gpu := .unavailable
  gpuMemory := .unavailable
  threads := 1
  handles := .unavailable

def processNamed (name : String) (pid : UInt32) (startTime : SafeInteger)
    (parent : Option ProcessIdentity) : ProcessSnapshot where
  identity := ⟨pid, startTime⟩
  static := ⟨name, none, none, none, none, parent⟩
  dynamic := idle

/-- Each of two processes was started by the PID that the other one has now. -/
def reusedPids : Sample where
  rows := [processNamed "old" 10 100 (some ⟨20, 200⟩), processNamed "new" 20 200 (some ⟨10, 100⟩)]
  nodup := by decide

def beforeRename : Sample := ⟨[processNamed "setup" 10 100 none], List.nodup_singleton _⟩

def afterRename : Sample := ⟨[processNamed "service" 10 100 none], List.nodup_singleton _⟩

def plainLocale : Locale where
  toLowerCase := id
  localeCompare a b := if a < b then -1 else if a = b then 0 else 1
  toLowerCase_empty := rfl

/-- The tree does not show processes on a cycle, and a process keeps the name it was added
with. -/
theorem reused_pids_and_renamed_not_shown :
    ¬ Shows plainLocale (monitored [reusedPids]).table reusedPids ∧
      ¬ Shows plainLocale (monitored [beforeRename, afterRename]).table afterRename := by
  constructor
  · intro hshows
    have hup : ParentIn reusedPids ⟨10, 100⟩ ⟨20, 200⟩ :=
      ⟨_, List.mem_cons_self, rfl, rfl, by decide⟩
    have hdown : ParentIn reusedPids ⟨20, 200⟩ ⟨10, 100⟩ :=
      ⟨_, List.mem_cons_of_mem _ List.mem_cons_self, rfl, rfl, by decide⟩
    exact hshows.acyclic _ List.mem_cons_self (.tail (.single hup) hdown)
  · intro hshows
    have hsteady : Steady [beforeRename] afterRename :=
      (held_iff [beforeRename] afterRename).mp hshows.held
    have hname := hsteady _ List.mem_cons_self
    exact absurd hname (by decide)

end Useful.Procmon
