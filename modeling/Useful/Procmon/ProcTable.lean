/-
# The process table

`ProcTable` replays differences of snapshots and lists what it holds, sorted in one list or
as a tree. Static fields come only with the difference that adds a process, and the tree is
walked from the processes without a parent.
-/

import Useful.Procmon.Diff
import Useful.Math.Forest
import Mathlib.Algebra.Order.Ring.Unbundled.Rat

namespace Useful.Procmon

open Useful.Math

abbrev ProcTable := Table ProcessSnapshot ProcessSnapshot.key

/-- An update of a process that the table holds. -/
def setDynamic (table : ProcTable) (update : UpdatedProcess) : ProcTable :=
  match table.find update.key with
  | some existing => table.put { existing with dynamic := update.dynamic }
  | none => table

def applyDelta (table : ProcTable) (delta : ProcessDelta) : ProcTable :=
  delta.removed.foldl Table.erase
    (delta.updated.foldl setDynamic (delta.added.foldl Table.put table))

/-! ## Rows -/

structure ProcRow where
  key : String
  pid : UInt32
  startTime : SafeInteger
  name : String
  parentKey : Option String
  dynamic : DynamicMetrics
  depth : Nat
  deriving DecidableEq

def rowOf (snapshot : ProcessSnapshot) : ProcRow where
  key := snapshot.key
  pid := snapshot.identity.pid
  startTime := snapshot.identity.startTime
  name := snapshot.static.name
  parentKey := snapshot.static.parent.map ProcessIdentity.key
  dynamic := snapshot.dynamic
  depth := 0

def allRows (table : ProcTable) : List ProcRow := table.rows.map rowOf

/-! ## Sorting -/

inductive SortColumn
  | name
  | pid
  | cpu
  | memory
  | disk
  | net
  | gpu
  | gpuMemory

inductive SortDir
  | asc
  | desc

/-- What texts do in the locale of the front end. -/
structure Locale where
  toLowerCase : String → String
  localeCompare : String → String → Int
  toLowerCase_empty : toLowerCase "" = ""

variable (locale : Locale)

def metricValue {α : Type} (value : α → ℚ) : Metric α → ℚ
  | .available a => value a
  | .unavailable => -1

def safeValue (n : SafeInteger) : ℚ := n.val

def countValue (n : UInt32) : ℚ := n.toNat

def networkSortValue (row : ProcRow) : ℚ :=
  let up := metricValue safeValue row.dynamic.netUp
  let down := metricValue safeValue row.dynamic.netDown
  if 0 ≤ up ∨ 0 ≤ down then max 0 up + max 0 down
  else
    let tcp := metricValue countValue row.dynamic.tcpConnections
    let udp := metricValue countValue row.dynamic.udpEndpoints
    max 0 tcp + max 0 udp

def sortKey (row : ProcRow) : SortColumn → ℚ ⊕ String
  | .name => .inr (locale.toLowerCase row.name)
  | .pid => .inl (countValue row.pid)
  | .cpu => .inl row.dynamic.cpu
  | .memory => .inl (safeValue row.dynamic.workingSet)
  | .disk => .inl (safeValue row.dynamic.diskRead + safeValue row.dynamic.diskWrite)
  | .net => .inl (networkSortValue row)
  | .gpu => .inl (metricValue id row.dynamic.gpu)
  | .gpuMemory => .inl (metricValue safeValue row.dynamic.gpuMemory)

/-- The comparison of `sortRows`. -/
def compareRows (column : SortColumn) (dir : SortDir) (a b : ProcRow) : ℚ :=
  let first := match sortKey locale a column, sortKey locale b column with
    | .inr ka, .inr kb => (locale.localeCompare ka kb : ℚ)
    | .inl ka, .inl kb => ka - kb
    | _, _ => 0
  let cmp := if first = 0 then countValue a.pid - countValue b.pid else first
  match dir with
  | .asc => cmp
  | .desc => -cmp

def sortRows (rows : List ProcRow) (column : SortColumn) (dir : SortDir) : List ProcRow :=
  rows.mergeSort fun a b => compareRows locale column dir a b ≤ 0

/-! ## Searching -/

/-- What `trim` removes. -/
def isTrimmed (c : Char) : Bool :=
  let n := c.toNat
  (9 ≤ n && n ≤ 13) || (0x2000 ≤ n && n ≤ 0x200A) ||
    [0x20, 0xA0, 0x1680, 0x2028, 0x2029, 0x202F, 0x205F, 0x3000, 0xFEFF].contains n

def trimText (text : String) : String :=
  String.ofList ((text.toList.dropWhile isTrimmed).reverse.dropWhile isTrimmed).reverse

def filterRows (rows : List ProcRow) (search : String) : List ProcRow :=
  let q := locale.toLowerCase (trimText search)
  if q = "" then rows
  else rows.filter fun row =>
    q.toList <:+: (locale.toLowerCase row.name).toList ∨
      q.toList <:+: decimalNat row.pid.toNat

def listMode (column : SortColumn) (dir : SortDir) (search : String) (table : ProcTable) :
    List ProcRow :=
  sortRows locale (filterRows locale (allRows table) search) column dir

/-! ## The tree -/

/-- A parent that is no row counts as none. -/
def resolveParent (rows : List ProcRow) (row : ProcRow) : ProcRow :=
  { row with parentKey := row.parentKey.filter fun pk => rows.any fun r => r.key = pk }

def childrenOf (column : SortColumn) (dir : SortDir) (rows : List ProcRow) (key : Option String) :
    List ProcRow :=
  sortRows locale (rows.filter fun row => row.parentKey = key) column dir

/-- The fuel bounds the depth of the recursion. -/
def subtreeMatches (children : Option String → List ProcRow) (matched : String → Bool) :
    Nat → String → Option Bool
  | 0, _ => none
  | fuel + 1, key =>
      if matched key then some true
      else (children (some key)).anyM fun row => subtreeMatches children matched fuel row.key

def visit (children : Option String → List ProcRow) (matched : Option (String → Bool))
    (expanded : String → Bool) : Nat → Option String → Nat → Option (List ProcRow)
  | 0, _, _ => none
  | fuel + 1, key, depth =>
      Forest.collect (fun row => do
        let shown ← match matched with
          | none => some true
          | some matched => subtreeMatches children matched fuel row.key
        if shown then
          let below ← if expanded row.key then
              visit children matched expanded fuel (some row.key) (depth + 1)
            else some []
          return { row with depth := depth } :: below
        else return []) (children key)

def treeMode (column : SortColumn) (dir : SortDir) (search : String) (expanded : String → Bool)
    (table : ProcTable) : Option (List ProcRow) :=
  let rows := (allRows table).map (resolveParent (allRows table))
  let matched := if search = "" then none
    else some fun key => (filterRows locale rows search).any fun row => row.key = key
  visit (childrenOf locale column dir rows) matched expanded (rows.length + 1) none 0

/-! ## What a difference changes -/

variable {table : ProcTable}

theorem find_setDynamic (update : UpdatedProcess) (key : String) :
    (setDynamic table update).find key = if update.key = key then
      (table.find key).map fun existing => { existing with dynamic := update.dynamic }
      else table.find key := by
  rw [setDynamic]
  cases hfind : table.find update.key with
  | none =>
      by_cases h : update.key = key
      · rw [if_pos h, ← h, hfind]
        rfl
      · rw [if_neg h]
  | some existing =>
      have hkey : existing.key = update.key := (Table.find_eq_some.mp hfind).2
      refine (Table.find_put table _ key).trans ?_
      show (if existing.key = key then _ else _) = _
      rw [hkey]
      by_cases h : update.key = key
      · rw [if_pos h, if_pos h, ← h, hfind]
        rfl
      · rw [if_neg h, if_neg h]

theorem find_foldl_setDynamic_of_notMem {updates : List UpdatedProcess} {key : String}
    (h : key ∉ updates.map UpdatedProcess.key) (table : ProcTable) :
    (updates.foldl setDynamic table).find key = table.find key := by
  induction updates generalizing table with
  | nil => rfl
  | cons first rest ih =>
      rw [List.map_cons, List.mem_cons, not_or] at h
      rw [List.foldl_cons, ih h.2, find_setDynamic, if_neg fun heq => h.1 heq.symm]

theorem find_foldl_setDynamic_of_mem {updates : List UpdatedProcess} {update : UpdatedProcess}
    (hnodup : (updates.map UpdatedProcess.key).Nodup) (hmem : update ∈ updates)
    (table : ProcTable) : (updates.foldl setDynamic table).find update.key =
      (table.find update.key).map fun existing => { existing with dynamic := update.dynamic } := by
  induction updates generalizing table with
  | nil => cases hmem
  | cons first rest ih =>
      rw [List.map_cons, List.nodup_cons] at hnodup
      rw [List.foldl_cons]
      cases List.mem_cons.mp hmem with
      | inl heq =>
          rw [heq, find_foldl_setDynamic_of_notMem hnodup.1, find_setDynamic, if_pos rfl]
      | inr hrest =>
          have hne : first.key ≠ update.key :=
            fun heq => hnodup.1 (heq ▸ List.mem_map_of_mem hrest)
          rw [ih hnodup.2 hrest, find_setDynamic, if_neg hne]

variable {prev next : SnapshotMap} {key : String}

theorem find_applyDelta (delta : ProcessDelta) (key : String) :
    (applyDelta table delta).find key = if key ∈ delta.removed then none
      else (delta.updated.foldl setDynamic (delta.added.foldl Table.put table)).find key :=
  Table.find_foldl_erase _ _

theorem notMem_added (h : ∀ snapshot, next.find key = some snapshot → prev.find key ≠ none) :
    key ∉ (diff prev next).added.map ProcessSnapshot.key := by
  intro hmem
  obtain ⟨snapshot, hin, rfl⟩ := List.mem_map.mp hmem
  obtain ⟨hnext, hnone⟩ := mem_added.mp hin
  exact h snapshot (Table.find_eq_some.mpr ⟨hnext, rfl⟩) hnone

theorem notMem_updated (h : ∀ snapshot, next.find key = some snapshot →
    ∀ old, prev.find key = some old → old.dynamic = snapshot.dynamic) :
    key ∉ (diff prev next).updated.map UpdatedProcess.key := by
  intro hmem
  obtain ⟨update, hin, hkey⟩ := List.mem_map.mp hmem
  obtain ⟨snapshot, hnext, old, hold, hne, rfl⟩ := mem_updated.mp hin
  subst hkey
  exact hne (h snapshot (Table.find_eq_some.mpr ⟨hnext, rfl⟩) old hold)

/-- A process that is gone is in no table that held it only before. -/
theorem find_applyDelta_gone (hnext : next.find key = none)
    (htable : prev.find key = none → table.find key = none) :
    (applyDelta table (diff prev next)).find key = none := by
  rw [find_applyDelta]
  by_cases hremoved : key ∈ (diff prev next).removed
  · exact if_pos hremoved
  · have hprev : prev.find key = none := by
      by_contra hsome
      exact hremoved (mem_removed.mpr ⟨hsome, hnext⟩)
    rw [if_neg hremoved, find_foldl_setDynamic_of_notMem (notMem_updated (by simp [hnext])),
      Table.find_foldl_put_of_notMem (notMem_added (by simp [hnext])), htable hprev]

theorem notMem_removed {snapshot : ProcessSnapshot} (hnext : next.find key = some snapshot) :
    key ∉ (diff prev next).removed := by
  intro hmem
  rw [(mem_removed.mp hmem).2] at hnext
  cases hnext

/-- A new process is sent whole. -/
theorem find_applyDelta_new {snapshot : ProcessSnapshot} (hnext : next.find key = some snapshot)
    (hprev : prev.find key = none) :
    (applyDelta table (diff prev next)).find key = some snapshot := by
  obtain ⟨hmem, rfl⟩ := Table.find_eq_some.mp hnext
  rw [find_applyDelta, if_neg (notMem_removed hnext),
    find_foldl_setDynamic_of_notMem (notMem_updated (by simp [hprev])),
    Table.find_foldl_put_of_mem nodup_added (mem_added.mpr ⟨hmem, hprev⟩)]

/-- Of a process that stays, the metrics are sent, if they changed. -/
theorem find_applyDelta_stays {snapshot old shown : ProcessSnapshot}
    (hnext : next.find key = some snapshot) (hprev : prev.find key = some old)
    (htable : table.find key = some shown) (hshown : shown.dynamic = old.dynamic) :
    (applyDelta table (diff prev next)).find key =
      some { shown with dynamic := snapshot.dynamic } := by
  have hadded : key ∉ (diff prev next).added.map ProcessSnapshot.key :=
    notMem_added (by simp [hprev])
  rw [find_applyDelta, if_neg (notMem_removed hnext)]
  by_cases hdynamic : old.dynamic = snapshot.dynamic
  · have hupdated : key ∉ (diff prev next).updated.map UpdatedProcess.key := by
      refine notMem_updated fun snapshot' hnext' old' hprev' => ?_
      rw [hnext] at hnext'
      rw [hprev] at hprev'
      cases hnext'
      cases hprev'
      exact hdynamic
    rw [find_foldl_setDynamic_of_notMem hupdated, Table.find_foldl_put_of_notMem hadded, htable,
      ← hdynamic, ← hshown]
  · obtain ⟨hmem, rfl⟩ := Table.find_eq_some.mp hnext
    have hupdated : ⟨snapshot.key, snapshot.dynamic⟩ ∈ (diff prev next).updated :=
      mem_updated.mpr ⟨snapshot, hmem, old, hprev, hdynamic, rfl⟩
    rw [find_foldl_setDynamic_of_mem nodup_updated hupdated,
      Table.find_foldl_put_of_notMem hadded, htable]
    rfl

/-! ## Modes without search -/

variable {locale}

theorem sortRows_perm (rows : List ProcRow) (column : SortColumn) (dir : SortDir) :
    (sortRows locale rows column dir).Perm rows :=
  List.mergeSort_perm _ _

theorem filterRows_empty (rows : List ProcRow) : filterRows locale rows "" = rows :=
  if_pos locale.toLowerCase_empty

theorem listMode_perm (column : SortColumn) (dir : SortDir) :
    (listMode locale column dir "" table).Perm (allRows table) := by
  rw [listMode, filterRows_empty]
  exact sortRows_perm _ _ _

/-- The rows of the tree. -/
def treeRows (table : ProcTable) : List ProcRow :=
  (allRows table).map (resolveParent (allRows table))

theorem treeMode_empty (column : SortColumn) (dir : SortDir) (expanded : String → Bool) :
    treeMode locale column dir "" expanded table =
      visit (childrenOf locale column dir (treeRows table)) none expanded
        ((treeRows table).length + 1) none 0 :=
  rfl

/-- With everything expanded and nothing searched, the visit is a walk. -/
theorem visit_eq_walk {children : Option String → List ProcRow} {expanded : String → Bool}
    (hexpanded : ∀ key, ∀ row ∈ children key, expanded row.key = true) (fuel : Nat)
    (key : Option String) (depth : Nat) : visit children none expanded fuel key depth =
      (Forest.walk children ProcRow.key fuel key depth).map
        (List.map fun entry => { entry.1 with depth := entry.2 }) := by
  induction fuel generalizing key depth with
  | zero => rfl
  | succ fuel ih =>
      rw [visit, Forest.walk, ← Forest.collect_map]
      refine Forest.collect_congr fun row hrow => ?_
      rw [hexpanded key row hrow]
      simp only [Option.pure_def, Option.bind_eq_bind, Option.bind_some, if_true, ih]
      cases Forest.walk children ProcRow.key fuel (some row.key) (depth + 1) <;> rfl

theorem linked_treeRows (locale : Locale) (table : ProcTable) (column : SortColumn) (dir : SortDir) :
    Forest.Linked (childrenOf locale column dir (treeRows table)) ProcRow.key (treeRows table)
      ProcRow.parentKey := by
  have hkeys : (treeRows table).map ProcRow.key = table.rows.map ProcessSnapshot.key := by
    rw [treeRows, allRows, List.map_map, List.map_map]
    rfl
  have hnodup : ((treeRows table).map ProcRow.key).Nodup := hkeys ▸ table.nodup
  constructor
  · exact hnodup
  · intro key row
    rw [childrenOf, (sortRows_perm _ _ _).mem_iff, List.mem_filter, decide_eq_true_iff]
  · intro key
    exact (sortRows_perm _ _ _).nodup_iff.mpr (hnodup.of_map _ |>.filter _)
  · intro row hrow key hparent
    obtain ⟨source, -, rfl⟩ := List.mem_map.mp hrow
    obtain ⟨-, hany⟩ := Option.filter_eq_some_iff.mp hparent
    obtain ⟨r, hr, hkey⟩ := List.any_eq_true.mp hany
    exact ⟨_, List.mem_map_of_mem hr, of_decide_eq_true hkey⟩

/-- Each row is at the top or in the block of its parent: after it, one level deeper, with
only deeper rows than the parent between. -/
def InBlocks (out : List ProcRow) : Prop :=
  ∀ before row after, out = before ++ row :: after →
    (row.parentKey = none ∧ row.depth = 0) ∨
      ∃ front parent between, before = front ++ parent :: between ∧
        row.parentKey = some parent.key ∧ row.depth = parent.depth + 1 ∧
          ∀ r ∈ between, parent.depth < r.depth

theorem inBlocks_of_nested {out : List (ProcRow × Nat)}
    (h : Forest.Nested ProcRow.key ProcRow.parentKey none 0 out) :
    InBlocks (out.map fun entry => { entry.1 with depth := entry.2 }) := by
  intro before row after heq
  obtain ⟨before, rest, rfl, rfl, hrest⟩ := List.map_eq_append_iff.mp heq
  obtain ⟨⟨row, d⟩, after, rfl, rfl, rfl⟩ := List.map_eq_cons_iff.mp hrest
  obtain hself | ⟨front, p, between, rfl, hlink, hdepth, hbetween⟩ := h before row d after rfl
  · exact .inl hself
  · refine .inr ⟨_, _, _, List.map_append, hlink, hdepth, ?_⟩
    intro r hr
    obtain ⟨entry, hentry, rfl⟩ := List.mem_map.mp hr
    exact hbetween entry hentry

/-- The whole tree lists each row in its block, and every row exactly when no links of rows
form a cycle. -/
theorem treeMode_all {expanded : String → Bool} (locale : Locale) (column : SortColumn) (dir : SortDir)
    (hexpanded : ∀ snapshot ∈ table.rows, expanded snapshot.key = true) :
    ∃ out, treeMode locale column dir "" expanded table = some out ∧ InBlocks out ∧
      ((out.map fun row => { row with depth := 0 }).Perm (treeRows table) ↔
        ∀ row ∈ treeRows table, ¬ Relation.TransGen
          (Forest.Link ProcRow.key (treeRows table) ProcRow.parentKey) row.key row.key) := by
  have hlinked := linked_treeRows locale table column dir
  obtain ⟨out, hout, hnested, hperm⟩ := Forest.walk_top hlinked
  have hrows : ∀ row ∈ treeRows table, expanded row.key = true ∧ { row with depth := 0 } = row := by
    intro row hrow
    obtain ⟨source, hsource, rfl⟩ := List.mem_map.mp hrow
    obtain ⟨snapshot, hmem, rfl⟩ := List.mem_map.mp hsource
    exact ⟨hexpanded snapshot hmem, rfl⟩
  have hchildren : ∀ key, ∀ row ∈ childrenOf locale column dir (treeRows table) key,
      expanded row.key = true :=
    fun key row hrow => (hrows row ((hlinked.mem_children key row).mp hrow).1).1
  refine ⟨_, ?_, inBlocks_of_nested hnested, ?_⟩
  · rw [treeMode_empty, visit_eq_walk hchildren, hout]
    rfl
  · rw [List.map_map, ← hperm]
    have hmap : out.map ((fun row : ProcRow => { row with depth := 0 }) ∘
        fun entry => { entry.1 with depth := entry.2 }) = out.map Prod.fst := by
      refine List.map_congr_left fun ⟨row, d⟩ hmem => ?_
      exact (hrows row (Forest.of_mem_walk hlinked Forest.Path.top hout hmem).1).2
    rw [hmap]

end Useful.Procmon
