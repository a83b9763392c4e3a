/-
# Merging the catalogs

`merge_catalog` folds the items of one publisher, tool and digest into one. The digest is
that of the first stable artifact of an entry, for whatever platform; what would be installed
is the artifact for 64-bit Windows. And an item without a digest is filed under a text made of
its source, which a digest may also be. The merging is what it is said to be when the entries
that are folded agree on the Windows build, and the first items of a group are one item.
-/

import Mathlib.Data.Finset.Card
import Useful.Client.Search

namespace Useful.Client.Search

open Useful.Math Useful.Client

/-- An item with the entry it was made from. -/
structure SourceEntry where
  item : CatalogItem
  entry : CatalogEntry
  digest : item.latestStableDigest = latestStableDigest entry

def itemsOf (offers : List SourceEntry) : List CatalogItem := offers.map SourceEntry.item

def offerKey (offer : SourceEntry) : String × String × String := mergeKey offer.item

def offerLe (a b : SourceEntry) : Prop := memberLe a.item b.item

instance : DecidableRel offerLe := fun a b => inferInstanceAs (Decidable (memberLe a.item b.item))

instance : Std.Total offerLe := ⟨fun _ _ => le_total _ _⟩

instance : IsTrans SourceEntry offerLe := ⟨fun _ _ _ => le_trans⟩

/-- The offers that `merge_catalog` folds into one item each, with the primary first. -/
def folded (offers : List SourceEntry) : List (List SourceEntry) :=
  (groups keyLe offerKey offers).map fun group => group.2.insertionSort offerLe

/-! ## What merging is for -/

/-- The same tool of the same publisher, with the same known digest. -/
def SameProduct (a b : SourceEntry) : Prop :=
  a.item.publisherKeyId = b.item.publisherKeyId ∧ a.item.toolId = b.item.toolId ∧
    ∃ digest, a.item.latestStableDigest = some digest ∧ b.item.latestStableDigest = some digest

/-- What would be installed has the same digest. -/
def SamePick (a b : SourceEntry) : Prop :=
  ∃ x y, pickStableArtifact a.entry = .ok (some x) ∧ pickStableArtifact b.entry = .ok (some y) ∧
    x.artifactSha256 = y.artifactSha256

/-- A merged item shows a group of offers. -/
structure Shows (offers group : List SourceEntry) (merged : MergedItem) : Prop where
  members : ∃ primary mirrors, group = primary :: mirrors ∧ merged.item = primary.item ∧
    merged.mirrorSourceIds = mirrors.map (·.item.sourceId) ∧
    ∀ mirror ∈ mirrors, memberLe primary.item mirror.item
  conflict : merged.nameConflict = true ↔ ∃ a ∈ offers, ∃ b ∈ offers,
    a.item.toolId = merged.item.toolId ∧ b.item.toolId = merged.item.toolId ∧
      a.item.publisherKeyId ≠ b.item.publisherKeyId

/-- The merged items are a partition of the offers that does not depend on their order, and
only what is the same is folded. -/
structure MergesAlike (offers : List SourceEntry) : Prop where
  covers : (folded offers).flatten.Perm offers
  shows' : List.Forall₂ (Shows offers) (folded offers) (mergeCatalog (itemsOf offers))
  products : ∀ group ∈ folded offers, group.Pairwise SameProduct
  picks : ∀ group ∈ folded offers, group.Pairwise SamePick
  orderless : ∀ others, offers.Perm others →
    mergeCatalog (itemsOf others) = mergeCatalog (itemsOf offers)

/-! ## When it does that -/

/-- Each of the entries has one build for 64-bit Windows of its stable version, and these have
the same digest. -/
def SameBuild (a b : CatalogEntry) : Prop :=
  ∃ v w x y, a.latest.stable = some v ∧ b.latest.stable = some w ∧
    a.artifacts.filter (installable v) = [x] ∧ b.artifacts.filter (installable w) = [y] ∧
    x.artifactSha256 = y.artifactSha256

/-- No offer of its group comes before it. -/
def IsFirst (offers : List SourceEntry) (a : SourceEntry) : Prop :=
  ∀ b ∈ offers, offerKey b = offerKey a → offerLe a b

structure Unambiguous (offers : List SourceEntry) : Prop where
  builds : offers.Pairwise fun a b => offerKey a = offerKey b → SameBuild a.entry b.entry
  firsts : ∀ a ∈ offers, ∀ b ∈ offers, offerKey a = offerKey b → IsFirst offers a →
    IsFirst offers b → a.item = b.item

variable {offers others group : List SourceEntry} {a b : SourceEntry}
  {k : String × String × String}

/-! ## The groups -/

theorem groupOf_itemsOf (offers : List SourceEntry) (k : String × String × String) :
    groupOf mergeKey (itemsOf offers) k = itemsOf (groupOf offerKey offers k) := by
  rw [groupOf, itemsOf, List.filter_map]
  rfl

theorem groupKeys_itemsOf (offers : List SourceEntry) :
    groupKeys keyLe mergeKey (itemsOf offers) = groupKeys keyLe offerKey offers := by
  rw [groupKeys, itemsOf, List.map_map]
  rfl

theorem mem_folded : group ∈ folded offers ↔ ∃ k ∈ groupKeys keyLe offerKey offers,
    (groupOf offerKey offers k).insertionSort offerLe = group := by
  simp only [folded, groups, List.map_map, List.mem_map, Function.comp_apply]

theorem insertionSort_itemsOf (group : List SourceEntry) :
    (itemsOf group).insertionSort memberLe = itemsOf (group.insertionSort offerLe) :=
  (List.map_insertionSort offerLe memberLe SourceEntry.item group fun _ _ _ _ => Iff.rfl).symm

theorem flatten_folded_perm (offers : List SourceEntry) :
    (folded offers).flatten.Perm offers := by
  refine List.Perm.trans ?_ (@flatten_groups_perm _ _ _ keyLe _ offerKey offers)
  have hsorted : ∀ keyed : List ((String × String × String) × List SourceEntry),
      (keyed.map fun group => group.2.insertionSort offerLe).flatten.Perm
        (keyed.map Prod.snd).flatten := by
    intro keyed
    induction keyed with
    | nil => exact List.Perm.refl _
    | cons first rest ih =>
        rw [List.map_cons, List.map_cons, List.flatten_cons, List.flatten_cons]
        exact (List.perm_insertionSort _ _).append ih
  exact hsorted _

/-- The merged item of a key. -/
def mergedOf (offers : List SourceEntry) (k : String × String × String) : Option MergedItem :=
  mergeGroup (nameConflict (itemsOf offers)) (k, groupOf mergeKey (itemsOf offers) k)

theorem mergeCatalog_eq (offers : List SourceEntry) :
    mergeCatalog (itemsOf offers) =
      (groupKeys keyLe offerKey offers).filterMap (mergedOf offers) := by
  rw [mergeCatalog, groups, List.filterMap_map, groupKeys_itemsOf]
  rfl

theorem exists_sorted (hk : k ∈ groupKeys keyLe offerKey offers) :
    ∃ primary mirrors, (groupOf offerKey offers k).insertionSort offerLe = primary :: mirrors := by
  obtain ⟨a, ha, hkey⟩ := mem_groupKeys.mp hk
  have hmem : a ∈ (groupOf offerKey offers k).insertionSort offerLe :=
    (List.mem_insertionSort _).mpr (mem_groupOf.mpr ⟨ha, hkey⟩)
  exact List.exists_cons_of_ne_nil (List.ne_nil_of_mem hmem)

theorem mergedOf_eq {primary : SourceEntry} {mirrors : List SourceEntry}
    (h : (groupOf offerKey offers k).insertionSort offerLe = primary :: mirrors) :
    mergedOf offers k = some ⟨primary.item, mirrors.map (·.item.sourceId),
      nameConflict (itemsOf offers) k.1⟩ := by
  rw [mergedOf, groupOf_itemsOf]
  have hsorted := insertionSort_itemsOf (groupOf offerKey offers k)
  rw [h] at hsorted
  unfold mergeGroup
  dsimp only
  rw [hsorted]
  simp only [itemsOf, List.map_cons, List.map_map]
  rfl

theorem isSome_mergedOf (hk : k ∈ groupKeys keyLe offerKey offers) :
    (mergedOf offers k).isSome = true := by
  obtain ⟨primary, mirrors, hsorted⟩ := exists_sorted hk
  rw [mergedOf_eq hsorted]
  rfl

theorem nameConflict_iff {toolId : String} : nameConflict (itemsOf offers) toolId = true ↔
    ∃ a ∈ offers, ∃ b ∈ offers, a.item.toolId = toolId ∧ b.item.toolId = toolId ∧
      a.item.publisherKeyId ≠ b.item.publisherKeyId := by
  rw [nameConflict, decide_eq_true_eq, ← List.card_toFinset, Finset.one_lt_card]
  simp only [List.mem_toFinset, List.mem_map, mem_groupOf, itemsOf]
  constructor
  · rintro ⟨_, ⟨_, ⟨⟨a, ha, rfl⟩, hatool⟩, rfl⟩, _, ⟨_, ⟨⟨b, hb, rfl⟩, hbtool⟩, rfl⟩, hne⟩
    exact ⟨a, ha, b, hb, hatool, hbtool, hne⟩
  · rintro ⟨a, ha, b, hb, hatool, hbtool, hne⟩
    exact ⟨_, ⟨_, ⟨⟨a, ha, rfl⟩, hatool⟩, rfl⟩, _, ⟨_, ⟨⟨b, hb, rfl⟩, hbtool⟩, rfl⟩, hne⟩

/-- Each group is shown by one merged item. -/
theorem shows_folded (offers : List SourceEntry) :
    List.Forall₂ (Shows offers) (folded offers) (mergeCatalog (itemsOf offers)) := by
  rw [mergeCatalog_eq, folded, groups, List.map_map]
  refine forall₂_filterMap fun k hk => ?_
  obtain ⟨primary, mirrors, hsorted⟩ := exists_sorted hk
  refine ⟨_, mergedOf_eq hsorted, ⟨primary, mirrors, hsorted, rfl, rfl, ?_⟩, ?_⟩
  · have hpairwise := List.pairwise_insertionSort offerLe (groupOf offerKey offers k)
    rw [hsorted] at hpairwise
    exact (List.pairwise_cons.mp hpairwise).1
  · have hprimary : primary ∈ groupOf offerKey offers k := by
      rw [← List.mem_insertionSort offerLe, hsorted]
      exact List.mem_cons_self
    have htool : k.1 = primary.item.toolId := by
      rw [← (mem_groupOf.mp hprimary).2]
      rfl
    rw [htool]
    exact nameConflict_iff

/-- What holds of any two offers that are folded holds of any two with the same key. -/
theorem pairwise_folded_iff {R : SourceEntry → SourceEntry → Prop} (hsymm : ∀ {a b}, R a b → R b a) :
    (∀ group ∈ folded offers, group.Pairwise R) ↔
      offers.Pairwise fun a b => offerKey a = offerKey b → R a b := by
  rw [← pairwise_groupOf_iff]
  have hperm : ∀ k, ((groupOf offerKey offers k).insertionSort offerLe).Pairwise R ↔
      (groupOf offerKey offers k).Pairwise R :=
    fun k => (List.perm_insertionSort offerLe _).pairwise_iff hsymm
  constructor
  · intro h k
    by_cases hk : k ∈ groupKeys keyLe offerKey offers
    · exact (hperm k).mp (h _ (mem_folded.mpr ⟨k, hk, rfl⟩))
    · have hnone : groupOf offerKey offers k = [] := by
        rw [groupOf, List.filter_eq_nil_iff]
        intro a ha
        rw [decide_eq_true_eq]
        exact fun heq => hk (mem_groupKeys.mpr ⟨a, ha, heq⟩)
      rw [hnone]
      exact List.Pairwise.nil
  · intro h group hgroup
    obtain ⟨k, -, rfl⟩ := mem_folded.mp hgroup
    exact (hperm k).mpr (h k)

/-! ## Folding what is the same -/

theorem samePick_iff : SamePick a b ↔ SameBuild a.entry b.entry := by
  simp only [SamePick, SameBuild, pickStableArtifact_eq_ok_some]
  constructor
  · rintro ⟨x, y, ⟨v, hv, hx⟩, ⟨w, hw, hy⟩, heq⟩
    exact ⟨v, w, x, y, hv, hw, hx, hy, heq⟩
  · rintro ⟨v, w, x, y, hv, hw, hx, hy, heq⟩
    exact ⟨x, y, ⟨v, hv, hx⟩, ⟨w, hw, hy⟩, heq⟩

theorem SamePick.symm (h : SamePick a b) : SamePick b a := by
  obtain ⟨x, y, hx, hy, heq⟩ := h
  exact ⟨y, x, hy, hx, heq.symm⟩

theorem SameProduct.symm (h : SameProduct a b) : SameProduct b a := by
  obtain ⟨hpublisher, htool, digest, ha, hb⟩ := h
  exact ⟨hpublisher.symm, htool.symm, digest, hb, ha⟩

/-- An entry with a build to install has a digest. -/
theorem exists_digest {v : String} {x : ArtifactInfo} (hv : a.entry.latest.stable = some v)
    (hx : a.entry.artifacts.filter (installable v) = [x]) :
    ∃ digest, a.item.latestStableDigest = some digest := by
  rw [a.digest, latestStableDigest, hv, Option.bind_some]
  have hmem : x ∈ a.entry.artifacts.filter (installable v) := by
    rw [hx]
    exact List.mem_singleton_self x
  obtain ⟨hx, hinstallable⟩ := List.mem_filter.mp hmem
  simp only [installable, Bool.and_eq_true, beq_iff_eq, Bool.not_eq_true'] at hinstallable
  have hfound : (a.entry.artifacts.find? fun other => other.channel = "stable" ∧
      other.version = v ∧ ¬ other.withdrawn).isSome = true := by
    rw [List.find?_isSome]
    exact ⟨x, hx, by simp [hinstallable]⟩
  obtain ⟨found, hfound⟩ := Option.isSome_iff_exists.mp hfound
  rw [hfound]
  exact ⟨_, rfl⟩

/-- Where something can be installed of both, one key means the same product. -/
theorem sameProduct_of_sameBuild (hkey : offerKey a = offerKey b)
    (h : SameBuild a.entry b.entry) : SameProduct a b := by
  obtain ⟨v, w, x, y, hv, hw, hx, hy, -⟩ := h
  obtain ⟨digest, ha⟩ := exists_digest hv hx
  obtain ⟨digest', hb⟩ := exists_digest hw hy
  simp only [offerKey, mergeKey, ha, hb, Option.getD_some, Prod.mk.injEq] at hkey
  obtain ⟨htool, hpublisher, rfl⟩ := hkey
  exact ⟨hpublisher, htool, digest, ha, hb⟩

/-! ## The order of the items -/

theorem groupKeys_offers (h : offers.Perm others) :
    groupKeys keyLe offerKey offers = groupKeys keyLe offerKey others := groupKeys_perm h

/-- Sorted, the members of a group show the same sources in the same order, however they
stood before. -/
theorem sources_of_perm {group group' : List SourceEntry} (h : group.Perm group') :
    (group.insertionSort offerLe).map (·.item.sourceId) =
      (group'.insertionSort offerLe).map (·.item.sourceId) := by
  let rank := fun a : SourceEntry => toLex (a.item.sourcePriority, utf8 a.item.sourceId.toList)
  have hsorted : ∀ l : List SourceEntry, ((l.insertionSort offerLe).map rank).Pairwise (· ≤ ·) :=
    fun l => List.pairwise_map.mpr (List.pairwise_insertionSort offerLe l)
  have hperm := ((List.perm_insertionSort offerLe group).trans h).trans
    (List.perm_insertionSort offerLe group').symm
  have hranks : (group.insertionSort offerLe).map rank = (group'.insertionSort offerLe).map rank :=
    List.Perm.eq_of_pairwise (fun _ _ _ _ => le_antisymm) (hsorted group) (hsorted group')
      (hperm.map rank)
  have hbytes := congrArg (List.map fun r => (ofLex r).2) hranks
  rw [List.map_map, List.map_map] at hbytes
  have hinj : Function.Injective fun s : String => utf8 s.toList :=
    fun s t heq => String.toList_inj.mp (utf8_injective heq)
  apply List.map_injective_iff.mpr hinj
  rw [List.map_map, List.map_map]
  exact hbytes

/-- The primary of a group is first in it. -/
theorem isFirst_primary {primary : SourceEntry} {mirrors : List SourceEntry}
    (h : (groupOf offerKey offers k).insertionSort offerLe = primary :: mirrors) :
    primary ∈ offers ∧ offerKey primary = k ∧ IsFirst offers primary := by
  have hmem : ∀ a, a ∈ primary :: mirrors ↔ a ∈ offers ∧ offerKey a = k := by
    intro a
    rw [← h, List.mem_insertionSort, mem_groupOf]
  obtain ⟨hprimary, hkey⟩ := (hmem primary).mp List.mem_cons_self
  refine ⟨hprimary, hkey, fun b hb hbkey => ?_⟩
  have hpairwise := List.pairwise_insertionSort offerLe (groupOf offerKey offers k)
  rw [h] at hpairwise
  cases List.mem_cons.mp ((hmem b).mpr ⟨hb, hbkey.trans hkey⟩) with
  | inl heq => exact heq ▸ le_refl _
  | inr hmirror => exact (List.pairwise_cons.mp hpairwise).1 b hmirror

theorem nameConflict_perm (h : offers.Perm others) (toolId : String) :
    nameConflict (itemsOf offers) toolId = nameConflict (itemsOf others) toolId := by
  apply Bool.eq_iff_iff.mpr
  simp only [nameConflict_iff, h.mem_iff]

theorem mergedOf_perm (h : offers.Perm others) (hfirsts : ∀ a ∈ offers, ∀ b ∈ offers,
    offerKey a = offerKey b → IsFirst offers a → IsFirst offers b → a.item = b.item)
    (hk : k ∈ groupKeys keyLe offerKey offers) : mergedOf others k = mergedOf offers k := by
  obtain ⟨primary, mirrors, hsorted⟩ := exists_sorted hk
  rw [groupKeys_offers h] at hk
  obtain ⟨primary', mirrors', hsorted'⟩ := exists_sorted hk
  obtain ⟨hmem, hkey, hfirst⟩ := isFirst_primary hsorted
  obtain ⟨hmem', hkey', hfirst'⟩ := isFirst_primary hsorted'
  have hitem : primary'.item = primary.item := by
    refine hfirsts primary' (h.mem_iff.mpr hmem') primary hmem (hkey'.trans hkey.symm) ?_ hfirst
    exact fun b hb => hfirst' b (h.mem_iff.mp hb)
  have hsources := sources_of_perm (h.filter fun a => offerKey a = k)
  rw [show offers.filter _ = groupOf offerKey offers k from rfl,
    show others.filter _ = groupOf offerKey others k from rfl, hsorted, hsorted', List.map_cons,
    List.map_cons, List.cons.injEq] at hsources
  rw [mergedOf_eq hsorted, mergedOf_eq hsorted', hitem, hsources.2, nameConflict_perm h]

/-- A first offer of its group is its primary when it comes first of all. -/
theorem exists_perm_primary (ha : a ∈ offers) (hfirst : IsFirst offers a) :
    ∃ others merged, offers.Perm others ∧ mergedOf others (offerKey a) = some merged ∧
      merged.item = a.item := by
  obtain ⟨before, after, rfl⟩ := List.append_of_mem ha
  have hperm : (before ++ a :: after).Perm (a :: (before ++ after)) := List.perm_middle
  have hgroup : groupOf offerKey (a :: (before ++ after)) (offerKey a) =
      a :: groupOf offerKey (before ++ after) (offerKey a) :=
    List.filter_cons_of_pos (by simp)
  have hsorted : (groupOf offerKey (a :: (before ++ after)) (offerKey a)).insertionSort offerLe =
      a :: (groupOf offerKey (before ++ after) (offerKey a)).insertionSort offerLe := by
    rw [hgroup]
    refine insertionSort_cons_of_le fun b hb => ?_
    obtain ⟨hb, hkey⟩ := mem_groupOf.mp hb
    exact hfirst b (hperm.mem_iff.mpr (List.mem_cons_of_mem _ hb)) hkey
  exact ⟨_, _, hperm, mergedOf_eq hsorted, rfl⟩

/-- Merging forgets the order exactly when each group has only one item that may come first. -/
theorem orderless_iff :
    (∀ others, offers.Perm others →
      mergeCatalog (itemsOf others) = mergeCatalog (itemsOf offers)) ↔
      ∀ a ∈ offers, ∀ b ∈ offers, offerKey a = offerKey b → IsFirst offers a →
        IsFirst offers b → a.item = b.item := by
  constructor
  · intro horder a ha b hb hkey hfirst hfirst'
    have hsame : ∀ c ∈ offers, IsFirst offers c → ∃ merged,
        mergedOf offers (offerKey c) = some merged ∧ merged.item = c.item := by
      intro c hc hfirst
      obtain ⟨others, merged, hperm, hmerged, hitem⟩ := exists_perm_primary hc hfirst
      have heq := horder others hperm
      rw [mergeCatalog_eq, mergeCatalog_eq, ← groupKeys_offers hperm] at heq
      have hpoint := eq_of_filterMap_eq heq
        (fun k hk => isSome_mergedOf (groupKeys_offers hperm ▸ hk)) (fun k hk => isSome_mergedOf hk)
        (offerKey c) (mem_groupKeys.mpr ⟨c, hc, rfl⟩)
      exact ⟨merged, hpoint.symm.trans hmerged, hitem⟩
    obtain ⟨merged, hmerged, hitem⟩ := hsame a ha hfirst
    obtain ⟨merged', hmerged', hitem'⟩ := hsame b hb hfirst'
    rw [hkey, hmerged'] at hmerged
    obtain rfl := Option.some.inj hmerged
    exact hitem.symm.trans hitem'
  · intro hfirsts others hperm
    rw [mergeCatalog_eq, mergeCatalog_eq, ← groupKeys_offers hperm]
    exact List.filterMap_congr fun k hk => mergedOf_perm hperm hfirsts hk

/-- **Catalogs merge into a partition** that folds only what is the same and does not depend
on the order of the items, exactly when the offers are unambiguous. -/
theorem merges_alike_iff (offers : List SourceEntry) : MergesAlike offers ↔ Unambiguous offers := by
  have hpicks := @pairwise_folded_iff offers SamePick fun h => h.symm
  have hproducts := @pairwise_folded_iff offers SameProduct fun h => h.symm
  constructor
  · intro h
    refine ⟨(hpicks.mp h.picks).imp ?_, orderless_iff.mp h.orderless⟩
    intro a b hab hkey
    exact samePick_iff.mp (hab hkey)
  · intro h
    have halike : offers.Pairwise fun a b => offerKey a = offerKey b → SameProduct a b := by
      refine h.builds.imp ?_
      intro a b hab hkey
      exact sameProduct_of_sameBuild hkey (hab hkey)
    have hpicked : offers.Pairwise fun a b => offerKey a = offerKey b → SamePick a b := by
      refine h.builds.imp ?_
      intro a b hab hkey
      exact samePick_iff.mpr (hab hkey)
    exact {
      covers := flatten_folded_perm offers
      shows' := shows_folded offers
      products := hproducts.mpr halike
      picks := hpicks.mpr hpicked
      orderless := orderless_iff.mpr h.firsts }

end Useful.Client.Search

/-! ## Two sources with builds for two platforms -/

namespace Useful.Client.Search.Sample

open Useful.Math Useful.Client

/-- An entry with a build for Linux before the one for Windows. -/
def platforms (windows : Char) : CatalogEntry :=
  entry "tool-a" [{ build 'a' with platform := "linux" }, build windows]

def offer (id : String) (windows : Char) : SourceEntry where
  item := catalogItem (source id 10) (cacheRow id (platforms windows))
  entry := platforms windows
  digest := rfl

def twoOffers : List SourceEntry := [offer "a" 'b', offer "b" 'c']

/-- The builds for Linux agree and those for Windows do not; the entries are folded. -/
theorem folded_with_other_build : ¬ MergesAlike twoOffers := by
  intro h
  have hpicks : twoOffers.Pairwise fun x y => offerKey x = offerKey y → SamePick x y :=
    (pairwise_folded_iff fun h => SamePick.symm h).mp h.picks
  have hkeys : offerKey (offer "a" 'b') = offerKey (offer "b" 'c') := by decide
  obtain ⟨x, y, hx, hy, heq⟩ :=
    (List.pairwise_cons.mp hpicks).1 (offer "b" 'c') (List.mem_singleton_self _) hkeys
  have hfirst : pickStableArtifact (offer "a" 'b').entry = .ok (some (build 'b')) := by
    decide
  have hsecond : pickStableArtifact (offer "b" 'c').entry = .ok (some (build 'c')) := by
    decide
  rw [hfirst] at hx
  rw [hsecond] at hy
  cases hx
  cases hy
  exact absurd heq (by decide)

end Useful.Client.Search.Sample
