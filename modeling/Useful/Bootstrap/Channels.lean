/-
# Channels and the address that is asked

Two sources that are valid and differ only in the channel are asked for under the same address
exactly when the template has places, but none for the channel.
-/

import Useful.Bootstrap.Config
import Mathlib.Data.List.TakeWhile

namespace Useful.Bootstrap

open Useful.Math
open Useful.Tuf (hexDecode)

variable {build : Build} {urlParse : String → Option Url} {source : AppUpdateSource}

/-! ## Valid templates -/

theorem brace_of_isPlaceholderName {name : List Char} (h : isPlaceholderName name = true) :
    '{' ∉ name ∧ '}' ∉ name := by
  simp only [isPlaceholderName, Bool.or_eq_true, beq_iff_eq] at h
  rcases h with (rfl | rfl) | rfl <;> decide

/-- A valid template is made of known places and of text without opening braces. -/
theorem exists_pieces_of_validFeedTemplate {text : List Char} (h : validFeedTemplate text = true) :
    ∃ pieces, renderPieces placeText pieces = text ∧
      ∀ piece ∈ pieces, piece.IsPlain isPlaceholderName := by
  fun_induction validFeedTemplate text with
  | case1 rest hopen =>
      have hplain : '{' ∉ rest := by
        intro hmem
        simpa using List.dropWhile_eq_nil_iff.mp hopen '{' hmem
      refine ⟨[.literal rest], List.append_nil rest, ?_⟩
      simpa [Piece.IsPlain] using hplain
  | case2 => exact absurd h (by decide)
  | case3 rest c afterOpen hopen d tail hclose ih =>
      rw [Bool.and_eq_true] at h
      obtain ⟨pieces, htail, hpieces⟩ := ih h.2
      have hfront : '{' ∉ rest.takeWhile (· != '{') := fun hmem => by
        simpa using List.mem_takeWhile_imp hmem
      have hc : c = '{' := by
        have := List.head_dropWhile_not (· != '{') (l := rest) (by simp [hopen])
        simpa [hopen] using this
      have hd : d = '}' := by
        have := List.head_dropWhile_not (· != '}') (l := afterOpen) (by simp [hclose])
        simpa [hclose] using this
      subst hc hd
      refine ⟨.literal (rest.takeWhile (· != '{')) ::
        .place (afterOpen.takeWhile (· != '}')) :: pieces, ?_, ?_⟩
      · calc renderPieces placeText (.literal (rest.takeWhile (· != '{')) ::
                .place (afterOpen.takeWhile (· != '}')) :: pieces)
            = rest.takeWhile (· != '{') ++
                '{' :: (afterOpen.takeWhile (· != '}') ++ '}' :: tail) := by
              simp [renderPieces_cons, Piece.render, placeText, htail]
          _ = rest.takeWhile (· != '{') ++ '{' :: afterOpen := by
              rw [← hclose, List.takeWhile_append_dropWhile]
          _ = rest := by
              rw [← hopen, List.takeWhile_append_dropWhile]
      · intro piece hpiece
        rw [List.mem_cons, List.mem_cons] at hpiece
        rcases hpiece with rfl | rfl | hpiece
        · exact hfront
        · exact h.1
        · exact hpieces piece hpiece

/-- A known place is accepted as what follows it is. -/
theorem validFeedTemplate_append {front name tail : List Char} (hfront : '{' ∉ front)
    (hname : isPlaceholderName name = true) :
    validFeedTemplate (front ++ (placeText name ++ tail)) = validFeedTemplate tail := by
  have hskip : ∀ c ∈ front, (c != '{') = true := fun c hc => by
    simpa using ne_of_mem_of_not_mem hc hfront
  have hinner : ∀ c ∈ name, (c != '}') = true := fun c hc => by
    simpa using ne_of_mem_of_not_mem hc (brace_of_isPlaceholderName hname).2
  have hopen : (front ++ (placeText name ++ tail)).dropWhile (· != '{') =
      '{' :: (name ++ '}' :: tail) := by
    rw [List.dropWhile_append_of_pos hskip]
    simp [placeText]
  have hclose : (name ++ '}' :: tail).dropWhile (· != '}') = '}' :: tail := by
    rw [List.dropWhile_append_of_pos hinner]
    simp
  have htake : (name ++ '}' :: tail).takeWhile (· != '}') = name := by
    rw [List.takeWhile_append_of_pos hinner]
    simp
  rw [validFeedTemplate]
  split
  · rename_i heq
    rw [hopen] at heq
    exact absurd heq (by simp)
  · rename_i afterOpen heq
    rw [hopen, List.cons.injEq] at heq
    obtain ⟨-, rfl⟩ := heq
    split
    · rename_i heq
      rw [hclose] at heq
      exact absurd heq (by simp)
    · rename_i tail' heq
      rw [hclose, List.cons.injEq] at heq
      obtain ⟨-, rfl⟩ := heq
      rw [htake, hname, Bool.true_and]

/-- Text without an opening brace is accepted unless it has a closing one. -/
theorem validFeedTemplate_of_not_mem {text : List Char} (h : '{' ∉ text) :
    validFeedTemplate text = !text.contains '}' := by
  have hopen : text.dropWhile (· != '{') = [] :=
    List.dropWhile_eq_nil_iff.mpr fun c hc => by simpa using ne_of_mem_of_not_mem hc h
  rw [validFeedTemplate]
  split
  · rfl
  · rename_i heq
    rw [hopen] at heq
    exact absurd heq (by simp)

/-! ## Resolved addresses -/

theorem not_mem_platform_name (platform : Platform) : '{' ∉ platform.name.toList := by
  cases platform <;> decide

theorem not_mem_arch_name (arch : Arch) : '{' ∉ arch.name.toList := by
  cases arch <;> decide

theorem not_mem_of_mem_updateChannels {channel : String} (h : channel ∈ updateChannels) :
    '{' ∉ channel.toList := by
  simp only [updateChannels, List.mem_cons, List.not_mem_nil, or_false] at h
  rcases h with rfl | rfl | rfl <;> decide

/-- Channels are told apart by the lengths of their names. -/
theorem length_ne_of_mem_updateChannels {c c' : String} (h : c ∈ updateChannels)
    (h' : c' ∈ updateChannels) (hne : c ≠ c') : c.toList.length ≠ c'.toList.length := by
  simp only [updateChannels, List.mem_cons, List.not_mem_nil, or_false] at h h'
  rcases h with rfl | rfl | rfl <;> rcases h' with rfl | rfl | rfl <;>
    first | exact absurd rfl hne | decide

/-- What is put in the places. -/
def filled (build : Build) (channel : String) (name : List Char) : List Char :=
  if name = "arch".toList then build.arch.name.toList
  else if name = "platform".toList then build.platform.name.toList
  else if name = "channel".toList then channel.toList
  else placeText name

theorem not_mem_filled {channel : String} (hchannel : channel ∈ updateChannels) {name : List Char}
    (hname : isPlaceholderName name = true) : '{' ∉ filled build channel name := by
  unfold filled
  split_ifs with harch hplatform hself
  · exact not_mem_arch_name _
  · exact not_mem_platform_name _
  · exact not_mem_of_mem_updateChannels hchannel
  · simp only [isPlaceholderName, Bool.or_eq_true, beq_iff_eq] at hname
    tauto

/-- The channel is put in its own place only. -/
theorem filled_congr {c c' : String} {name : List Char} (h : name ≠ "channel".toList) :
    filled build c name = filled build c' name := by
  unfold filled
  rw [if_neg h, if_neg h]

/-- The three replacements fill the places of a template. -/
theorem replaced_eq {pieces : List Piece}
    (hpieces : ∀ piece ∈ pieces, piece.IsPlain isPlaceholderName)
    {channel : String} (hchannel : channel ∈ updateChannels) :
    replaceText (placeholder "arch") build.arch.name.toList
      (replaceText (placeholder "platform") build.platform.name.toList
        (replaceText (placeholder "channel") channel.toList (renderPieces placeText pieces))) =
      renderPieces (filled build channel) pieces := by
  have hbrace : ∀ other, isPlaceholderName other = true → '{' ∉ other ∧ '}' ∉ other :=
    fun _ => brace_of_isPlaceholderName
  have hfree := not_mem_of_mem_updateChannels hchannel
  have hplatform := not_mem_platform_name build.platform
  unfold placeholder
  rw [replaceText_renderPieces channel.toList hpieces hbrace (by decide) rfl
      (fun _ _ _ => .inl rfl),
    replaceText_renderPieces build.platform.name.toList hpieces hbrace (by decide) ?_
      (fun other _ _ => ?_),
    replaceText_renderPieces build.arch.name.toList hpieces hbrace (by decide) ?_
      (fun other _ _ => ?_)]
  · rfl
  · rw [if_neg (by decide), if_neg (by decide)]
  · split_ifs
    · exact .inr hplatform
    · exact .inr hfree
    · exact .inl rfl
  · rw [if_neg (by decide)]
  · split_ifs
    · exact .inr hfree
    · exact .inl rfl

/-- The query that names the channel, the platform and the architecture. -/
def withQuery (build : Build) (template : List Char) (channel : String) : String :=
  String.ofList template ++ (if template.contains '?' then "&" else "?") ++ "channel=" ++ channel ++
    "&platform=" ++ build.platform.name ++ "&arch=" ++ build.arch.name

/-- A template with places has them filled, and one without gets the query. -/
theorem resolvedFeedUrl_eq {pieces : List Piece} (htext : renderPieces placeText pieces =
      source.updateFeedUrl.toList)
    (hpieces : ∀ piece ∈ pieces, piece.IsPlain isPlaceholderName)
    (hchannel : source.channel ∈ updateChannels) :
    resolvedFeedUrl build source =
      if '{' ∈ source.updateFeedUrl.toList then
        String.ofList (renderPieces (filled build source.channel) pieces)
      else withQuery build source.updateFeedUrl.toList source.channel := by
  unfold resolvedFeedUrl
  dsimp only
  rw [← htext, replaced_eq hpieces hchannel]
  by_cases hopen : '{' ∈ renderPieces placeText pieces
  · have hne : renderPieces (filled build source.channel) pieces ≠ renderPieces placeText pieces := by
      intro heq
      exact not_mem_renderPieces hpieces (fun _ => not_mem_filled hchannel) (heq ▸ hopen)
    rw [if_pos hopen, if_pos hne]
  · have heq : renderPieces (filled build source.channel) pieces = renderPieces placeText pieces :=
      renderPieces_congr fun name hname => absurd (mem_renderPieces_placeText hname) hopen
    rw [if_neg hopen, if_neg (by simp [heq]), heq]
    rfl

/-- What `validate` asks for. -/
theorem validate_eq_ok_iff : validate build urlParse source = .ok () ↔
    source.kind = "app-update" ∧
      ((hexDecode source.updateRootPublicKey.toList).map fun b => b.length != 32) = some false ∧
      source.channel ∈ updateChannels ∧ validFeedTemplate source.updateFeedUrl.toList = true ∧
      isAllowedUpdateUrl urlParse (resolvedFeedUrl build source) = true ∧
      ¬ (source.isDefaultOfficial ∧ ¬ isOfficial build source) ∧
      ¬ (¬ isOfficial build source ∧ ¬ isBundledDefault build source ∧
        source.warningAcknowledgedAt = none) := by
  have hkey : ∀ x : Option Bool, ¬ x.getD true = true ↔ x = some false := by
    rintro (_ | _ | _) <;> simp
  simp only [validate, bind_eq_ok, failIf_eq_ok, not_not, hkey, ne_eq]
  constructor
  · rintro ⟨-, hkind, -, hpublic, -, hchannel, -, htemplate, -, hallowed, -, hofficial, hwarning⟩
    exact ⟨hkind, hpublic, hchannel, htemplate, hallowed, hofficial, hwarning⟩
  · rintro ⟨hkind, hpublic, hchannel, htemplate, hallowed, hofficial, hwarning⟩
    exact ⟨⟨⟩, hkind, ⟨⟩, hpublic, ⟨⟩, hchannel, ⟨⟩, htemplate, ⟨⟩, hallowed, ⟨⟩, hofficial, hwarning⟩

/-- The template has a place for the channel, or no place at all. -/
def AsksForChannel (template : List Char) : Prop :=
  placeholder "channel" <:+: template ∨ '{' ∉ template

instance (template : List Char) : Decidable (AsksForChannel template) :=
  inferInstanceAs (Decidable (_ ∨ _))

theorem withQuery_ne {template : List Char} {c c' : String} (hne : c ≠ c') :
    withQuery build template c ≠ withQuery build template c' := by
  intro heq
  have hlists := congrArg String.toList heq
  simp only [withQuery, String.toList_append, List.append_assoc, List.append_cancel_left_eq] at hlists
  exact hne (String.toList_injective (List.append_cancel_right hlists))

/-- Filling the place for the channel tells channels apart. -/
theorem renderPieces_filled_ne {pieces : List Piece} {c c' : String} (h : c ∈ updateChannels)
    (h' : c' ∈ updateChannels) (hne : c ≠ c') (hmem : .place "channel".toList ∈ pieces) :
    renderPieces (filled build c) pieces ≠ renderPieces (filled build c') pieces := by
  have hlt : ∀ {c c' : String}, c.toList.length < c'.toList.length →
      (renderPieces (filled build c) pieces).length <
        (renderPieces (filled build c') pieces).length := by
    intro c c' hlt
    refine length_renderPieces_lt (fun other => ?_) ?_ hmem
    · unfold filled
      split_ifs
      exacts [Nat.le_refl _, Nat.le_refl _, hlt.le, Nat.le_refl _]
    · have hself : ∀ c, filled build c "channel".toList = c.toList := fun c => by
        simp [filled]
      rw [hself, hself]
      exact hlt
  intro heq
  rcases Nat.lt_or_gt_of_ne (length_ne_of_mem_updateChannels h h' hne) with hless | hmore
  · exact (hlt hless).ne (congrArg List.length heq)
  · exact (hlt hmore).ne (congrArg List.length heq.symm)

/-- Two channels are asked for under different addresses exactly when the template asks for the
channel. -/
theorem channels_isolated_iff (build : Build) (urlParse : String → Option Url)
    (source : AppUpdateSource) (channel : String)
    (hsource : validate build urlParse source = .ok ())
    (hother : validate build urlParse { source with channel } = .ok ())
    (hne : source.channel ≠ channel) :
    resolvedFeedUrl build source ≠ resolvedFeedUrl build { source with channel } ↔
      AsksForChannel source.updateFeedUrl.toList := by
  obtain ⟨-, -, hchannel, htemplate, -⟩ := validate_eq_ok_iff.mp hsource
  obtain ⟨-, -, hchannel', -⟩ := validate_eq_ok_iff.mp hother
  obtain ⟨pieces, htext, hpieces⟩ := exists_pieces_of_validFeedTemplate htemplate
  have hplace := @placeText_infix_iff isPlaceholderName pieces "channel".toList hpieces
    (fun _ => brace_of_isPlaceholderName) (by decide)
  rw [htext] at hplace
  rw [resolvedFeedUrl_eq htext hpieces hchannel,
    @resolvedFeedUrl_eq build { source with channel } pieces htext hpieces hchannel',
    AsksForChannel, placeholder, hplace]
  by_cases hopen : '{' ∈ source.updateFeedUrl.toList
  · rw [if_pos hopen, if_pos hopen, or_iff_left (not_not.mpr hopen)]
    constructor
    · intro hdiff
      by_contra hfree
      refine hdiff (congrArg String.ofList (renderPieces_congr fun name hname => ?_))
      exact filled_congr fun heq => hfree (heq ▸ hname)
    · intro hmem heq
      exact renderPieces_filled_ne hchannel hchannel' hne hmem (String.ofList_injective heq)
  · rw [if_neg hopen, if_neg hopen]
    exact iff_of_true (withQuery_ne hne) (.inr hopen)

/-! ## Two templates -/

/-- A development build. -/
def developmentBuild : Build where
  platform := .windows
  arch := .x8664
  injectedUpdateRoot := none
  injectedUpdateFeed := none
  allowDevelopmentUpdateTrust := none
  debugAssertions := true
  compiles := rfl

/-- An address of the host that serves the updates. -/
def updatesHost (value : String) : Option Url :=
  if "https://updates.example.com/".toList.isPrefixOf value.toList then
    some ⟨"https", "", none, some "updates.example.com", none⟩
  else none

/-- A source with its own feed, which the user has confirmed. -/
def customSource (feed : String) : AppUpdateSource where
  kind := "app-update"
  updateFeedUrl := feed
  updateRootPublicKey := developmentUpdateRootPubkeyHex
  channel := "stable"
  isDefaultOfficial := false
  warningAcknowledgedAt := some "2026-07-30T00:00:00Z"

theorem length_developmentUpdateRootPubkey :
    (hexDecode developmentUpdateRootPubkeyHex.toList).map (fun b => b.length != 32) = some false := by
  decide

theorem validate_customSource {feed channel : String} {front name tail : List Char}
    (hfeed : feed.toList = front ++ (placeText name ++ tail)) (hchannel : channel ∈ updateChannels)
    (hfront : '{' ∉ front) (hname : isPlaceholderName name = true) (htail : '{' ∉ tail)
    (hclose : tail.contains '}' = false)
    (hallowed : isAllowedUpdateUrl updatesHost
      (resolvedFeedUrl developmentBuild { customSource feed with channel }) = true) :
    validate developmentBuild updatesHost { customSource feed with channel } = .ok () := by
  refine validate_eq_ok_iff.mpr ⟨rfl, length_developmentUpdateRootPubkey, hchannel, ?_, hallowed, by simp [customSource],
    by simp [customSource]⟩
  refine (congrArg validFeedTemplate hfeed).trans ?_
  rw [validFeedTemplate_append hfront hname, validFeedTemplate_of_not_mem htail, hclose]
  rfl

theorem channels_isolated_sample :
    resolvedFeedUrl developmentBuild
        (customSource "https://updates.example.com/{channel}.json") ≠
      resolvedFeedUrl developmentBuild
        { customSource "https://updates.example.com/{channel}.json" with channel := "beta" } :=
  (channels_isolated_iff developmentBuild updatesHost
    (customSource "https://updates.example.com/{channel}.json") "beta"
    (@validate_customSource _ _ "https://updates.example.com/".toList
      "channel".toList ".json".toList (by decide) (by decide) (by decide)
      (by decide) (by decide) (by decide) (by decide))
    (@validate_customSource _ _ "https://updates.example.com/".toList
      "channel".toList ".json".toList (by decide) (by decide) (by decide)
      (by decide) (by decide) (by decide) (by decide))
    (by decide)).mpr (by decide)

/-- A template with a place for the platform only is asked for under one address. -/
theorem platform_feed_shared :
    ∃ source : AppUpdateSource, source.channel = "stable" ∧
      validate developmentBuild updatesHost source = .ok () ∧
      validate developmentBuild updatesHost { source with channel := "beta" } = .ok () ∧
      resolvedFeedUrl developmentBuild source =
        resolvedFeedUrl developmentBuild { source with channel := "beta" } := by
  refine ⟨customSource "https://updates.example.com/{platform}.json", rfl, ?_, ?_, ?_⟩
  · exact @validate_customSource _ _ "https://updates.example.com/".toList
      "platform".toList ".json".toList (by decide) (by decide) (by decide)
      (by decide) (by decide) (by decide) (by decide)
  · exact @validate_customSource _ _ "https://updates.example.com/".toList
      "platform".toList ".json".toList (by decide) (by decide) (by decide)
      (by decide) (by decide) (by decide) (by decide)
  · decide

end Useful.Bootstrap
