/-
# Search over the cached catalogs

`trp_catalog_search` of `commands/trp_sources.rs` and the merging of
`useful-repository-client/src/search.rs`. What is found of a tool depends on the cached
entries of this tool alone. Nothing is found of any tool when one of the entries that would
be shown declares two artifacts to install.
-/

import Mathlib.Data.List.Infix
import Mathlib.Data.Prod.Lex
import Useful.Client.Catalog
import Useful.Math.Groups
import Useful.Math.Table
import Useful.Math.Text
import Useful.Tuf.Metadata

namespace Useful.Client.Search

open Useful.Math Useful.Client

/-! ## The database -/

/-- A row of `trp_sources`, as far as searching and installing read it. -/
structure SourceRow where
  id : String
  discoveryUrl : String
  rootKeyFingerprint : String
  isLocal : Bool
  enabled : Bool
  /-- The lower, the earlier. -/
  priority : Int
  deriving DecidableEq, Repr

/-- A row of `trp_catalog_cache`. The entry is what `entry_json` is read back to. -/
structure CacheRow where
  sourceId : String
  publisherKeyId : String
  toolId : String
  name : String
  summary : String
  license : String
  latestStable : Option String
  latestStableDigest : Option String
  accessMode : String
  isNativeWorker : Bool
  entry : CatalogEntry
  deriving DecidableEq, Repr

/-- The primary key. -/
def CacheRow.key (row : CacheRow) : String × String × String :=
  (row.sourceId, row.publisherKeyId, row.toolId)

structure Db where
  sources : Table SourceRow SourceRow.id
  cache : Table CacheRow CacheRow.key

/-- The row `sync_one` inserts for an entry. -/
def cacheRow (sourceId : String) (entry : CatalogEntry) : CacheRow where
  sourceId := sourceId
  publisherKeyId := entry.identity.publisherKeyId
  toolId := entry.identity.toolId
  name := entry.name
  summary := entry.summary
  license := entry.license
  latestStable := entry.latest.stable
  latestStableDigest := latestStableDigest entry
  accessMode := entry.offer.accessMode
  isNativeWorker := entry.isNativeWorker
  entry := entry

/-- The rows of all sources but one. -/
def withoutSource (cache : Table CacheRow CacheRow.key) (sourceId : String) :
    Table CacheRow CacheRow.key :=
  ⟨cache.rows.filter fun row => row.sourceId ≠ sourceId, (cache.nodup.sublist
    (List.filter_sublist.map _))⟩

/-- An `INSERT` into the cache. -/
def insertRow (cache : Table CacheRow CacheRow.key) (row : CacheRow) :
    Except CmdError (Table CacheRow CacheRow.key) :=
  match cache.find row.key with
  | some _ => .error (.of "UNIQUE constraint failed: trp_catalog_cache.source_id, trp_catalog_cache.publisher_key_id, trp_catalog_cache.tool_id")
  | none => .ok (cache.put row)

/-- The transaction of `sync_one` that replaces the catalog of a source. -/
def replaceCatalog (db : Db) (sourceId : String) (snap : CatalogSnapshot) : Except CmdError Db := do
  let cache ← snap.entries.foldlM (fun cache entry => insertRow cache (cacheRow sourceId entry))
    (withoutSource db.cache sourceId)
  return { db with cache := cache }

/-- Every cached entry of an enabled source is one of a catalog that `parse_catalog` has
accepted for this source. -/
def Db.Accepted (parses : String → Bool) (db : Db) : Prop :=
  ∀ row ∈ db.cache.rows, ∀ source, db.sources.find row.sourceId = some source →
    source.enabled = true → ∃ snap, checkCatalog parses row.sourceId snap = .ok ⟨⟩ ∧
      row.entry ∈ snap.entries ∧ row = cacheRow row.sourceId row.entry

/-! ## Items -/

structure CatalogItem where
  sourceId : String
  sourcePriority : Int
  publisherKeyId : String
  toolId : String
  name : String
  summary : String
  license : String
  latestStable : Option String
  latestStableDigest : Option String
  accessMode : String
  isNativeWorker : Bool
  repositorySignatureVerified : Bool
  publisherSignatureVerified : Bool
  officialReviewPassed : Bool
  securityScanPassed : Bool
  availability : Option AvailabilityView
  advisoryCount : Nat
  maxAdvisorySeverity : Option String
  deriving DecidableEq, Repr

/-- The item of a row. What a catalog says of its own verification is not taken over. -/
def catalogItem (source : SourceRow) (row : CacheRow) : CatalogItem where
  sourceId := row.sourceId
  sourcePriority := source.priority
  publisherKeyId := row.publisherKeyId
  toolId := row.toolId
  name := row.name
  summary := row.summary
  license := row.license
  latestStable := row.latestStable
  latestStableDigest := row.latestStableDigest
  accessMode := row.accessMode
  isNativeWorker := row.isNativeWorker
  repositorySignatureVerified := false
  publisherSignatureVerified := false
  officialReviewPassed := false
  securityScanPassed := false
  availability := row.entry.availability
  advisoryCount := row.entry.advisories.length
  maxAdvisorySeverity := maxAdvisorySeverity row.entry.advisories

/-- The item of a row whose source is enabled. -/
def joined (db : Db) (row : CacheRow) : Option CatalogItem :=
  (db.sources.find row.sourceId).bind fun source =>
    if source.enabled then some (catalogItem source row) else none

/-- The rows of the query. SQL leaves their order open. -/
def catalogItems (db : Db) : List CatalogItem := db.cache.rows.filterMap (joined db)

/-! ## Merging -/

/-- What `merge_catalog` groups by: tool, publisher, and the digest or the source. -/
def mergeKey (item : CatalogItem) : String × String × String :=
  let sourceId := item.sourceId
  (item.toolId, item.publisherKeyId, item.latestStableDigest.getD s!"nodigest:{sourceId}")

/-- The order of a map with three texts as its key. -/
def keyLe (a b : String × String × String) : Prop :=
  toLex (utf8 a.1.toList, toLex (utf8 a.2.1.toList, utf8 a.2.2.toList)) ≤
    toLex (utf8 b.1.toList, toLex (utf8 b.2.1.toList, utf8 b.2.2.toList))

/-- Priority first, then the source. -/
def memberLe (a b : CatalogItem) : Prop :=
  toLex (a.sourcePriority, utf8 a.sourceId.toList) ≤ toLex (b.sourcePriority, utf8 b.sourceId.toList)

instance : DecidableRel keyLe := fun _ _ => inferInstanceAs (Decidable (_ ≤ _))

instance : DecidableRel memberLe := fun _ _ => inferInstanceAs (Decidable (_ ≤ _))

structure MergedItem where
  item : CatalogItem
  mirrorSourceIds : List String
  nameConflict : Bool
  deriving DecidableEq, Repr

/-- Several publishers have a tool of this name. -/
def nameConflict (items : List CatalogItem) (toolId : String) : Bool :=
  1 < ((groupOf CatalogItem.toolId items toolId).map CatalogItem.publisherKeyId).dedup.length

/-- A group: the first one in order stands for it, the others are mirrors. -/
def mergeGroup (conflict : String → Bool) (group : (String × String × String) × List CatalogItem) :
    Option MergedItem :=
  match group.2.insertionSort memberLe with
  | [] => none
  | primary :: mirrors =>
      some ⟨primary, mirrors.map CatalogItem.sourceId, conflict group.1.1⟩

/-- `merge_catalog`. -/
def mergeCatalog (items : List CatalogItem) : List MergedItem :=
  (groups keyLe mergeKey items).filterMap (mergeGroup (nameConflict items))

section

variable (lowercase : String → String)

/-- `str::contains`. -/
def contains (text part : String) : Bool := part.toList <:+: text.toList

/-- One of the texts that are searched holds the keyword. -/
def matchesKeyword (keyword : String) (merged : MergedItem) : Bool :=
  contains (lowercase merged.item.name) keyword || contains (lowercase merged.item.toolId) keyword ||
    contains (lowercase merged.item.summary) keyword ||
    contains (lowercase merged.item.publisherKeyId) keyword

/-- `filter_items`; `lowercase` is `str::to_lowercase`. -/
def filterItems (items : List MergedItem) (keyword : String) : List MergedItem :=
  let kw := lowercase (String.ofList (trim keyword.toList))
  if kw = "" then items else items.filter (matchesKeyword lowercase kw)

end

/-! ## The command -/

/-- `TrpCatalogItem`. -/
structure TrpCatalogItem extends CatalogItem where
  permissions : List String
  candidateVersion : Option String
  candidateArtifactSha256 : Option String
  candidateManifestDigest : Option String
  candidateChannel : Option String
  deriving DecidableEq, Repr

structure TrpMergedItem where
  item : TrpCatalogItem
  mirrorSourceIds : List String
  nameConflict : Bool
  deriving DecidableEq, Repr

/-- `catalog_item_view`. -/
def catalogItemView (item : CatalogItem) (candidate : Option ArtifactInfo) : TrpCatalogItem where
  toCatalogItem := item
  permissions := (candidate.map ArtifactInfo.permissions).getD []
  candidateVersion := candidate.map ArtifactInfo.version
  candidateArtifactSha256 := candidate.map ArtifactInfo.artifactSha256
  candidateManifestDigest := candidate.map ArtifactInfo.manifestDigest
  candidateChannel := candidate.map ArtifactInfo.channel

/-- `load_entry`. -/
def loadEntry (db : Db) (sourceId publisherKeyId toolId : String) : Except CmdError CatalogEntry :=
  orFail (.of "Query returned no rows")
    ((db.cache.find (sourceId, publisherKeyId, toolId)).map CacheRow.entry)

/-- What is shown of a merged item. -/
def showItem (db : Db) (merged : MergedItem) : Except CmdError TrpMergedItem := do
  let entry ← loadEntry db merged.item.sourceId merged.item.publisherKeyId merged.item.toolId
  let candidate ← pickStableArtifact entry
  return ⟨catalogItemView merged.item candidate, merged.mirrorSourceIds, merged.nameConflict⟩

/-- `trp_catalog_search`. -/
def search (lowercase : String → String) (db : Db) (keyword : String) :
    Except CmdError (List TrpMergedItem) := do
  failIf ((utf8 keyword.toList).length > 256) (.of "搜索词过长")
  (filterItems lowercase (mergeCatalog (catalogItems db)) keyword).mapM (showItem db)

/-! ## Entries that can be shown -/

/-- The entry declares several artifacts to install. -/
def Ambiguous (entry : CatalogEntry) : Prop :=
  ∃ stable, entry.latest.stable = some stable ∧
    1 < (entry.artifacts.filter (installable stable)).length

theorem soleInstallable_eq_ok {text version : String} {entry : CatalogEntry} :
    (∃ candidate, soleInstallable text entry version = .ok candidate) ↔
      ¬ 1 < (entry.artifacts.filter (installable version)).length := by
  unfold soleInstallable
  match h : entry.artifacts.filter (installable version) with
  | [] => simp
  | [selected] => simp
  | _ :: _ :: _ => simp

theorem pickStableArtifact_eq_ok {entry : CatalogEntry} :
    (∃ candidate, pickStableArtifact entry = .ok candidate) ↔ ¬ Ambiguous entry := by
  unfold pickStableArtifact Ambiguous
  cases hstable : entry.latest.stable with
  | none => simp
  | some stable =>
      simp only [Option.some.injEq, exists_eq_left']
      exact soleInstallable_eq_ok

variable {lowercase : String → String} {db db' : Db} {keyword toolId : String}
  {items items' : List CatalogItem} {merged : MergedItem} {row : CacheRow}

theorem joined_eq_some {item : CatalogItem} : joined db row = some item ↔
    ∃ source, db.sources.find row.sourceId = some source ∧ source.enabled = true ∧
      catalogItem source row = item := by
  unfold joined
  rw [Option.bind_eq_some_iff]
  simp only [Option.ite_none_right_eq_some, Option.some.injEq]

theorem mem_catalogItems {item : CatalogItem} : item ∈ catalogItems db ↔
    ∃ row ∈ db.cache.rows, joined db row = some item := List.mem_filterMap

/-- A merged item stands for its group. -/
theorem mergeGroup_eq_some {conflict : String → Bool}
    {group : (String × String × String) × List CatalogItem}
    (h : mergeGroup conflict group = some merged) : merged.item ∈ group.2 := by
  unfold mergeGroup at h
  split at h
  · cases h
  · next primary mirrors hsorted =>
    cases h
    rw [← List.mem_insertionSort memberLe, hsorted]
    exact List.mem_cons_self

theorem mem_of_mem_mergeCatalog (h : merged ∈ mergeCatalog items) : merged.item ∈ items := by
  obtain ⟨group, hgroup, hmerged⟩ := List.mem_filterMap.mp h
  obtain ⟨k, -, rfl⟩ := List.mem_map.mp hgroup
  exact (mem_groupOf.mp (mergeGroup_eq_some hmerged)).1

theorem filterItems_subset {all : List MergedItem} :
    filterItems lowercase all keyword ⊆ all := by
  unfold filterItems
  simp only
  split
  · exact List.Subset.refl _
  · exact List.filter_sublist.subset

/-- The row that stands behind a merged item. -/
theorem exists_row (h : merged ∈ filterItems lowercase (mergeCatalog (catalogItems db)) keyword) :
    ∃ row ∈ db.cache.rows,
      row.key = (merged.item.sourceId, merged.item.publisherKeyId, merged.item.toolId) := by
  obtain ⟨row, hrow, hitem⟩ :=
    mem_catalogItems.mp (mem_of_mem_mergeCatalog (filterItems_subset h))
  obtain ⟨source, -, -, heq⟩ := joined_eq_some.mp hitem
  exact ⟨row, hrow, by rw [← heq]; rfl⟩

/-- The row is the one of which the entry is shown for its group. -/
def Shown (lowercase : String → String) (db : Db) (keyword : String) (row : CacheRow) : Prop :=
  ∃ merged ∈ filterItems lowercase (mergeCatalog (catalogItems db)) keyword,
    row.key = (merged.item.sourceId, merged.item.publisherKeyId, merged.item.toolId)

/-- No entry that would be shown declares several artifacts to install. -/
def Clear (lowercase : String → String) (db : Db) (keyword : String) : Prop :=
  ∀ row ∈ db.cache.rows, Shown lowercase db keyword row → ¬ Ambiguous row.entry

theorem loadEntry_of_key {sourceId publisherKeyId : String} (hrow : row ∈ db.cache.rows)
    (hkey : row.key = (sourceId, publisherKeyId, toolId)) :
    loadEntry db sourceId publisherKeyId toolId = .ok row.entry := by
  unfold loadEntry
  rw [Table.find_eq_some.mpr ⟨hrow, hkey⟩]
  rfl

theorem showItem_eq_ok (hrow : row ∈ db.cache.rows)
    (hkey : row.key = (merged.item.sourceId, merged.item.publisherKeyId, merged.item.toolId)) :
    (∃ shown, showItem db merged = .ok shown) ↔ ¬ Ambiguous row.entry := by
  rw [← pickStableArtifact_eq_ok]
  unfold showItem
  simp only [bind_eq_ok, loadEntry_of_key hrow hkey, Except.ok.injEq, exists_eq_left', pure_eq_ok]
  constructor
  · rintro ⟨_, candidate, hcandidate, -⟩
    exact ⟨candidate, hcandidate⟩
  · rintro ⟨candidate, hcandidate⟩
    exact ⟨_, candidate, hcandidate, rfl⟩

/-- One entry that is ambiguous takes the whole search down, and nothing else does. -/
theorem search_eq_ok : (∃ out, search lowercase db keyword = .ok out) ↔
    (utf8 keyword.toList).length ≤ 256 ∧ Clear lowercase db keyword := by
  have hshown : (∃ out, (filterItems lowercase (mergeCatalog (catalogItems db)) keyword).mapM
      (showItem db) = .ok out) ↔ Clear lowercase db keyword := by
    rw [exists_mapM_eq_ok]
    constructor
    · rintro h row hrow ⟨merged, hmerged, hkey⟩
      exact (showItem_eq_ok hrow hkey).mp (h merged hmerged)
    · intro h merged hmerged
      obtain ⟨row, hrow, hkey⟩ := exists_row hmerged
      exact (showItem_eq_ok hrow hkey).mpr (h row hrow ⟨merged, hmerged, hkey⟩)
  unfold search
  simp only [bind_eq_ok, failIf_eq_ok, ← hshown, gt_iff_lt, not_lt]
  constructor
  · rintro ⟨out, _, hlength, hout⟩
    exact ⟨hlength, out, hout⟩
  · rintro ⟨hlength, out, hout⟩
    exact ⟨out, ⟨⟩, hlength, hout⟩

/-! ## One tool -/

instance : Std.Total keyLe := ⟨fun _ _ => le_total _ _⟩

instance : IsTrans (String × String × String) keyLe := ⟨fun _ _ _ => le_trans⟩

instance : Std.Antisymm keyLe := by
  constructor
  intro a b hab hba
  have heq := toLex_inj.mp (le_antisymm hab hba)
  rw [Prod.mk.injEq, toLex_inj, Prod.mk.injEq] at heq
  obtain ⟨hfirst, hsecond, hthird⟩ := heq
  exact Prod.ext (String.toList_inj.mp (utf8_injective hfirst))
    (Prod.ext (String.toList_inj.mp (utf8_injective hsecond))
      (String.toList_inj.mp (utf8_injective hthird)))

instance : Std.Total memberLe := ⟨fun _ _ => le_total _ _⟩

instance : IsTrans CatalogItem memberLe := ⟨fun _ _ _ => le_trans⟩

theorem sourceId_eq_of_memberLe {a b : CatalogItem} (hab : memberLe a b) (hba : memberLe b a) :
    a.sourceId = b.sourceId := by
  have heq := toLex_inj.mp (le_antisymm hab hba)
  exact String.toList_inj.mp (utf8_injective (Prod.mk.inj heq).2)

/-- The items of a database are told apart by source, publisher and tool. -/
theorem eq_of_mem_catalogItems {a b : CatalogItem} (ha : a ∈ catalogItems db)
    (hb : b ∈ catalogItems db) (hsource : a.sourceId = b.sourceId)
    (hpublisher : a.publisherKeyId = b.publisherKeyId) (htool : a.toolId = b.toolId) : a = b := by
  obtain ⟨row, hrow, hitem⟩ := mem_catalogItems.mp ha
  obtain ⟨row', hrow', hitem'⟩ := mem_catalogItems.mp hb
  obtain ⟨source, -, -, rfl⟩ := joined_eq_some.mp hitem
  obtain ⟨source', -, -, rfl⟩ := joined_eq_some.mp hitem'
  have hsame : row = row' := Table.eq_of_key_eq hrow hrow'
    (Prod.ext hsource (Prod.ext hpublisher htool))
  subst hsame
  exact Option.some.inj (hitem.symm.trans hitem')

/-- The items of a tool. -/
def ofTool (toolId : String) (items : List CatalogItem) : List CatalogItem :=
  items.filter fun item => item.toolId = toolId

theorem nameConflict_congr (h : (ofTool toolId items).Perm (ofTool toolId items')) :
    nameConflict items toolId = nameConflict items' toolId := by
  have hlength : ((groupOf CatalogItem.toolId items toolId).map
      CatalogItem.publisherKeyId).dedup.length =
      ((groupOf CatalogItem.toolId items' toolId).map CatalogItem.publisherKeyId).dedup.length :=
    (h.map CatalogItem.publisherKeyId).dedup.length_eq
  unfold nameConflict
  rw [hlength]

/-- What is merged of a tool comes from its items. -/
theorem filter_mergeCatalog (toolId : String) (items : List CatalogItem) :
    (mergeCatalog items).filter (fun merged => merged.item.toolId = toolId) =
      (groups keyLe mergeKey (ofTool toolId items)).filterMap
        (mergeGroup fun _ => nameConflict items toolId) := by
  have hgroups : (groups keyLe mergeKey items).filter (fun g => g.1.1 = toolId) =
      groups keyLe mergeKey (ofTool toolId items) :=
    filter_groups fun k : String × String × String => decide (k.1 = toolId)
  have hpick : (mergeCatalog items).filter (fun merged => merged.item.toolId = toolId) =
      ((groups keyLe mergeKey items).filter fun g => g.1.1 = toolId).filterMap
        (mergeGroup (nameConflict items)) := by
    apply filter_filterMap_eq
    intro group hgroup merged hmerged
    obtain ⟨k, -, rfl⟩ := List.mem_map.mp hgroup
    have hkey := (mem_groupOf.mp (mergeGroup_eq_some hmerged)).2
    rw [← hkey]
    rfl
  rw [hpick, hgroups]
  apply List.filterMap_congr
  intro group hgroup
  obtain ⟨k, hk, rfl⟩ := List.mem_map.mp hgroup
  obtain ⟨item, hitem, rfl⟩ := mem_groupKeys.mp hk
  have htool : (mergeKey item).1 = toolId := of_decide_eq_true (List.mem_filter.mp hitem).2
  unfold mergeGroup
  simp only [htool]

/-- Items of one tool, in any order, merge alike. -/
theorem filter_mergeCatalog_congr (h : (ofTool toolId items).Perm (ofTool toolId items'))
    (hdistinct : ∀ a ∈ items, ∀ b ∈ items, a.sourceId = b.sourceId →
      a.publisherKeyId = b.publisherKeyId → a.toolId = b.toolId → a = b) :
    (mergeCatalog items).filter (fun merged => merged.item.toolId = toolId) =
      (mergeCatalog items').filter fun merged => merged.item.toolId = toolId := by
  rw [filter_mergeCatalog, filter_mergeCatalog, nameConflict_congr h]
  apply filterMap_groups_congr h
  intro k
  have hsorted : (groupOf mergeKey (ofTool toolId items) k).insertionSort memberLe =
      (groupOf mergeKey (ofTool toolId items') k).insertionSort memberLe := by
    apply insertionSort_eq_of_perm (h.filter _)
    intro a ha b hb hab hba
    obtain ⟨ha, hakey⟩ := mem_groupOf.mp ha
    obtain ⟨hb, hbkey⟩ := mem_groupOf.mp hb
    have hkeys : mergeKey a = mergeKey b := hakey.trans hbkey.symm
    simp only [mergeKey, Prod.mk.injEq] at hkeys
    exact hdistinct a (List.mem_filter.mp ha).1 b (List.mem_filter.mp hb).1
      (sourceId_eq_of_memberLe hab hba) hkeys.2.1 hkeys.1
  unfold mergeGroup
  simp only [hsorted]

/-! ## Two databases with the same entries of a tool -/

/-- The cached rows of the tool, and the sources they come from, are the same. -/
structure SameTool (toolId : String) (db db' : Db) : Prop where
  rows : (db.cache.rows.filter fun row => row.toolId = toolId).Perm
    (db'.cache.rows.filter fun row => row.toolId = toolId)
  sources : ∀ row ∈ db.cache.rows, row.toolId = toolId →
    db.sources.find row.sourceId = db'.sources.find row.sourceId

theorem SameTool.mem_iff (h : SameTool toolId db db') (htool : row.toolId = toolId) :
    row ∈ db.cache.rows ↔ row ∈ db'.cache.rows := by
  have hmem := h.rows.mem_iff (a := row)
  simpa [List.mem_filter, htool] using hmem

theorem ofTool_catalogItems (toolId : String) (db : Db) : ofTool toolId (catalogItems db) =
    (db.cache.rows.filter fun row => row.toolId = toolId).filterMap (joined db) := by
  apply filter_filterMap_eq
  intro row _ item hitem
  obtain ⟨source, -, -, rfl⟩ := joined_eq_some.mp hitem
  rfl

theorem SameTool.ofTool_perm (h : SameTool toolId db db') :
    (ofTool toolId (catalogItems db)).Perm (ofTool toolId (catalogItems db')) := by
  rw [ofTool_catalogItems, ofTool_catalogItems]
  have hjoined : (db.cache.rows.filter fun row => row.toolId = toolId).filterMap (joined db) =
      (db.cache.rows.filter fun row => row.toolId = toolId).filterMap (joined db') := by
    apply List.filterMap_congr
    intro row hrow
    obtain ⟨hrow, htool⟩ := List.mem_filter.mp hrow
    unfold joined
    rw [h.sources row hrow (by simpa using htool)]
  rw [hjoined]
  exact h.rows.filterMap _

theorem SameTool.loadEntry (h : SameTool toolId db db') (sourceId publisherKeyId : String) :
    loadEntry db sourceId publisherKeyId toolId = loadEntry db' sourceId publisherKeyId toolId := by
  have hfind : db.cache.find (sourceId, publisherKeyId, toolId) =
      db'.cache.find (sourceId, publisherKeyId, toolId) := by
    apply Option.ext
    intro row
    rw [Table.find_eq_some, Table.find_eq_some]
    apply and_congr_left
    intro hkey
    exact h.mem_iff (congrArg (fun key => key.2.2) hkey)
  unfold Search.loadEntry
  rw [hfind]

theorem filter_filterItems (p : MergedItem → Bool) (all : List MergedItem) :
    (filterItems lowercase all keyword).filter p = filterItems lowercase (all.filter p) keyword := by
  unfold filterItems
  simp only
  split
  · rfl
  · rw [List.filter_filter, List.filter_filter]
    simp only [Bool.and_comm]

/-- What is shown of a tool. -/
def shownOf (toolId : String) (out : List TrpMergedItem) : List TrpMergedItem :=
  out.filter fun shown => shown.item.toolId = toolId

/-- What a search shows of a tool is made from the merged items of the tool. -/
theorem shownOf_search {out : List TrpMergedItem} (h : search lowercase db keyword = .ok out) :
    (filterItems lowercase ((mergeCatalog (catalogItems db)).filter
      fun merged => merged.item.toolId = toolId) keyword).mapM (showItem db) =
        .ok (shownOf toolId out) := by
  obtain ⟨_, -, hout⟩ := bind_eq_ok.mp h
  rw [← filter_filterItems]
  apply mapM_filter _ hout
  intro merged shown hshown
  obtain ⟨entry, -, hshown⟩ := bind_eq_ok.mp hshown
  obtain ⟨candidate, -, hshown⟩ := bind_eq_ok.mp hshown
  rw [← pure_eq_ok.mp hshown]
  rfl

/-- Two searches show the same of a tool that has the same entries in both databases. -/
theorem shownOf_congr {out out' : List TrpMergedItem} (hsame : SameTool toolId db db')
    (h : search lowercase db keyword = .ok out) (h' : search lowercase db' keyword = .ok out') :
    shownOf toolId out = shownOf toolId out' := by
  have hmerged := filter_mergeCatalog_congr hsame.ofTool_perm fun a ha b hb =>
    eq_of_mem_catalogItems ha hb
  have hshow : ∀ merged ∈ filterItems lowercase ((mergeCatalog (catalogItems db)).filter
      fun merged => merged.item.toolId = toolId) keyword,
      showItem db merged = showItem db' merged := by
    intro merged hmem
    have htool := (List.mem_filter.mp (filterItems_subset hmem)).2
    rw [decide_eq_true_eq] at htool
    unfold showItem
    rw [htool, hsame.loadEntry]
  have hout := (mapM_congr hshow).symm.trans (shownOf_search h)
  rw [hmerged, shownOf_search h'] at hout
  exact (Except.ok.inj hout).symm

/-! ## Replacing a catalog -/

theorem insertRow_eq_ok {cache cache' : Table CacheRow CacheRow.key} :
    insertRow cache row = .ok cache' ↔ cache.find row.key = none ∧ cache.put row = cache' := by
  unfold insertRow
  cases cache.find row.key with
  | some _ => simp
  | none => simp

/-- Entries of other tools leave the rows of a tool as they are. -/
theorem filter_of_insertRows {sourceId : String} {entries : List CatalogEntry}
    {cache cache' : Table CacheRow CacheRow.key}
    (hentries : ∀ entry ∈ entries, entry.identity.toolId ≠ toolId)
    (h : entries.foldlM (fun cache entry => insertRow cache (cacheRow sourceId entry)) cache =
      .ok cache') :
    cache'.rows.filter (fun row => row.toolId = toolId) =
      cache.rows.filter fun row => row.toolId = toolId := by
  induction entries generalizing cache with
  | nil =>
      cases h
      rfl
  | cons entry rest ih =>
      rw [List.foldlM_cons] at h
      obtain ⟨next, hnext, hrest⟩ := bind_eq_ok.mp h
      obtain ⟨-, rfl⟩ := insertRow_eq_ok.mp hnext
      rw [ih (fun entry hmem => hentries entry (List.mem_cons_of_mem _ hmem)) hrest]
      have hother : entry.identity.toolId ≠ toolId := hentries entry List.mem_cons_self
      apply Table.filter_put_of_not
      · exact decide_eq_false hother
      · intro row _ hkey
        have htool : row.toolId = entry.identity.toolId := congrArg (fun key => key.2.2) hkey
        exact decide_eq_false (htool ▸ hother)

/-- A catalog without the tool in place of another one without it. -/
theorem sameTool_of_replaceCatalog {sourceId : String} {snap : CatalogSnapshot}
    (h : replaceCatalog db sourceId snap = .ok db')
    (hold : ∀ row ∈ db.cache.rows, row.sourceId = sourceId → row.toolId ≠ toolId)
    (hnew : ∀ entry ∈ snap.entries, entry.identity.toolId ≠ toolId) : SameTool toolId db db' := by
  obtain ⟨cache, hcache, hdb'⟩ := bind_eq_ok.mp h
  obtain rfl := pure_eq_ok.mp hdb'
  have hrows : cache.rows.filter (fun row => row.toolId = toolId) =
      db.cache.rows.filter fun row => row.toolId = toolId := by
    rw [filter_of_insertRows hnew hcache]
    unfold withoutSource
    rw [List.filter_filter]
    apply List.filter_congr
    intro row hrow
    by_cases htool : row.toolId = toolId
    · simp [htool, show row.sourceId ≠ sourceId from fun heq => hold row hrow heq htool]
    · simp [htool]
  exact ⟨hrows ▸ List.Perm.refl _, fun _ _ _ => rfl⟩

/-- A search for up to 256 bytes that meets no ambiguous entry succeeds. What it shows of a
tool does not change when the catalogs change that have no entry of it. -/
theorem search_isolated (hlength : (utf8 keyword.toList).length ≤ 256)
    (hclear : Clear lowercase db keyword) :
    ∃ out, search lowercase db keyword = .ok out ∧
      (∀ db' toolId, SameTool toolId db db' → Clear lowercase db' keyword →
        ∃ out', search lowercase db' keyword = .ok out' ∧
          shownOf toolId out' = shownOf toolId out) ∧
      ∀ sourceId snap db' toolId, replaceCatalog db sourceId snap = .ok db' →
        (∀ row ∈ db.cache.rows, row.sourceId = sourceId → row.toolId ≠ toolId) →
        (∀ entry ∈ snap.entries, entry.identity.toolId ≠ toolId) → Clear lowercase db' keyword →
        ∃ out', search lowercase db' keyword = .ok out' ∧
          shownOf toolId out' = shownOf toolId out := by
  obtain ⟨out, hout⟩ := search_eq_ok.mpr ⟨hlength, hclear⟩
  have hsame : ∀ db' toolId, SameTool toolId db db' → Clear lowercase db' keyword →
      ∃ out', search lowercase db' keyword = .ok out' ∧
        shownOf toolId out' = shownOf toolId out := by
    intro db' toolId hsame hclear'
    obtain ⟨out', hout'⟩ := search_eq_ok.mpr ⟨hlength, hclear'⟩
    exact ⟨out', hout', (shownOf_congr hsame hout hout').symm⟩
  refine ⟨out, hout, hsame, ?_⟩
  intro sourceId snap db' toolId hreplace hold hnew
  exact hsame db' toolId (sameTool_of_replaceCatalog hreplace hold hnew)

end Useful.Client.Search

/-! ## Two sources -/

namespace Useful.Client.Search.Sample

open Useful.Math Useful.Client

def digest (c : Char) : String := String.ofList (List.replicate 64 c)

def build (c : Char) : ArtifactInfo where
  version := "1.0.0"
  channel := "stable"
  platform := "windows"
  arch := "x86_64"
  artifactSha256 := digest c
  manifestDigest := digest '0'
  size := 338
  permissions := []
  withdrawn := false
  publisherSignatureVerified := true
  signatureMethod := none
  signatureIdentity := none

/-- An entry with some builds of one version. -/
def entry (toolId : String) (builds : List ArtifactInfo) : CatalogEntry where
  identity := ⟨"ed25519:a", toolId⟩
  name := toolId
  summary := ""
  license := "MIT"
  channels := ["stable"]
  latest := ⟨some "1.0.0", none, none⟩
  artifacts := builds
  offer := ⟨"free", none, [], none⟩
  isNativeWorker := false
  availability := none
  advisories := []

def snapshot (sourceId : String) (entries : List CatalogEntry) : CatalogSnapshot :=
  ⟨"1.0", sourceId, entries⟩

def source (id : String) (priority : Int) : SourceRow where
  id := id
  discoveryUrl := "https://example.org/useful-repository.json"
  rootKeyFingerprint := digest 'f'
  isLocal := false
  enabled := true
  priority := priority

def empty : Db := ⟨⟨[source "a" 10, source "b" 20], by simp [source]⟩, .empty⟩

/-- `semver::Version::parse`, on the versions of the samples. -/
def parses (version : String) : Bool := version = "1.0.0"

/-- Each source with one tool; that of the second one has these builds. -/
def cached (builds : List ArtifactInfo) : Db :=
  { empty with cache := ⟨[cacheRow "a" (entry "tool-a" [build 'a']),
    cacheRow "b" (entry "tool-b" builds)], by simp [CacheRow.key, cacheRow]⟩ }

theorem accepted_cached {builds : List ArtifactInfo}
    (h : checkCatalog parses "b" (snapshot "b" [entry "tool-b" builds]) = .ok ⟨⟩) :
    (cached builds).Accepted parses := by
  have hfirst : checkCatalog parses "a" (snapshot "a" [entry "tool-a" [build 'a']]) = .ok ⟨⟩ := by
    decide
  intro row hrow source _ _
  rcases List.mem_cons.mp hrow with rfl | hrow
  · exact ⟨_, hfirst, List.mem_singleton.mpr rfl, rfl⟩
  · rw [List.mem_singleton.mp hrow]
    exact ⟨_, h, List.mem_singleton.mpr rfl, rfl⟩

def longKeyword : String := String.ofList (List.replicate 257 'a')

theorem length_keyword (n : Nat) :
    (utf8 (String.ofList (List.replicate n 'a')).toList).length = n := by
  rw [String.toList_ofList]
  induction n with
  | zero => rfl
  | succ n ih =>
      rw [List.replicate_succ, utf8_cons, List.length_append, ih]
      exact Nat.add_comm _ _

theorem not_ambiguous {toolId : String} {c : Char} : ¬ Ambiguous (entry toolId [build c]) := by
  rintro ⟨stable, hstable, hlength⟩
  have hle : ((entry toolId [build c]).artifacts.filter (installable stable)).length ≤ 1 :=
    List.length_filter_le _ _
  exact absurd hlength (not_lt.mpr hle)

theorem clear_cached (keyword : String) : Clear id (cached [build 'b']) keyword := by
  intro row hrow _
  rcases List.mem_cons.mp hrow with rfl | hrow
  · exact not_ambiguous
  · rw [List.mem_singleton.mp hrow]
    exact not_ambiguous

/-- Each of the two tools is found. -/
theorem search_isolated_cached : ∃ out, search id (cached [build 'b']) "" = .ok out ∧
    (∀ db' toolId, SameTool toolId (cached [build 'b']) db' → Clear id db' "" →
      ∃ out', search id db' "" = .ok out' ∧ shownOf toolId out' = shownOf toolId out) ∧
    ∀ sourceId snap db' toolId, replaceCatalog (cached [build 'b']) sourceId snap = .ok db' →
      (∀ row ∈ (cached [build 'b']).cache.rows, row.sourceId = sourceId → row.toolId ≠ toolId) →
      (∀ entry ∈ snap.entries, entry.identity.toolId ≠ toolId) → Clear id db' "" →
      ∃ out', search id db' "" = .ok out' ∧ shownOf toolId out' = shownOf toolId out :=
  search_isolated (by decide) (clear_cached "")

/-- A keyword of 257 bytes finds nothing, whatever is cached. One entry with two builds of its
version takes away what is found of the other source. -/
theorem search_fails : ∃ db db' : Db, db.Accepted parses ∧ db'.Accepted parses ∧
    search id db longKeyword = .error (.of "搜索词过长") ∧
    (∃ out, search id db "" = .ok out) ∧
    replaceCatalog db "b" (snapshot "b" [entry "tool-b" [build 'b', build 'c']]) = .ok db' ∧
    search id db' "" = .error (.of "目录对 stable/windows/x86_64 声明了多个相同版本制品") := by
  refine ⟨cached [build 'b'], cached [build 'b', build 'c'], accepted_cached (by decide),
    accepted_cached (by decide), ?_, ?_, rfl, by decide⟩
  · refine bind_eq_error.mpr (.inl (failIf_eq_error.mpr ⟨?_, rfl⟩))
    exact lt_of_lt_of_eq (by decide : 256 < 257) (length_keyword 257).symm
  · exact search_eq_ok.mpr ⟨by decide, clear_cached ""⟩

end Useful.Client.Search.Sample
