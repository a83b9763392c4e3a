/-
# Where the client asks for its own updates

The update source of the client is a feed address, the key of its update root and a channel. The
address may be a template with places for the channel, the platform and the architecture. A template
without places gets all three as a query, so that a change of the channel is a change of what is
asked for; one that has places and none of them for the channel gets nothing, and is asked for under
one address on every channel.
-/

import Useful.Math.Template
import Useful.Tuf.Metadata

namespace Useful.Bootstrap

open Useful.Math
open Useful.Tuf (hexDecode eqIgnoreAsciiCase)

/-! ## What is fixed when the client is built -/

inductive Platform
  | windows
  | macos
  | linux
  | unsupported
  deriving DecidableEq

inductive Arch
  | x8664
  | aarch64
  | unsupported
  deriving DecidableEq

def Platform.name : Platform → String
  | .windows => "windows"
  | .macos => "macos"
  | .linux => "linux"
  | .unsupported => "unsupported"

def Arch.name : Arch → String
  | .x8664 => "x86_64"
  | .aarch64 => "aarch64"
  | .unsupported => "unsupported"

/-- A place of a template, as it is written. -/
def placeholder (name : String) : List Char := placeText name.toList

def developmentUpdateRootPubkeyHex : String :=
  "3b6a27bcceb6a42d62a3a8d02a6f0d73653215771de243a63ac048a18b59da29"

def developmentUpdateFeedUrlTemplate : String :=
  "https://update.useful.example/feed/\x7bchannel\x7d/\x7bplatform\x7d-\x7barch\x7d.json"

def isAsciiHexdigit (c : Char) : Bool :=
  c.isDigit || ('a' ≤ c && c ≤ 'f') || ('A' ≤ c && c ≤ 'F')

def validKeyHex (value : String) : Bool :=
  value.toList.length == 64 && value.toList.all isAsciiHexdigit

def validProductionUpdateRoot (value : String) : Bool :=
  validKeyHex value && !eqIgnoreAsciiCase value developmentUpdateRootPubkeyHex &&
    !value.toList.all (· == '0')

def validProductionUpdateFeedTemplate (value : String) : Bool :=
  "https://".toList.isPrefixOf value.toList && value != developmentUpdateFeedUrlTemplate &&
    decide (placeholder "channel" <:+: value.toList) &&
    decide (placeholder "platform" <:+: value.toList) &&
    decide (placeholder "arch" <:+: value.toList)

/-- What the environment of the compiler says about a build. -/
structure BuildEnv where
  platform : Platform
  arch : Arch
  injectedUpdateRoot : Option String
  injectedUpdateFeed : Option String
  allowDevelopmentUpdateTrust : Option String
  debugAssertions : Bool

/-- The assertions a build is compiled with. -/
def BuildEnv.compiles (env : BuildEnv) : Bool :=
  match env.injectedUpdateRoot, env.injectedUpdateFeed with
  | some key, some feed =>
      validKeyHex key && validProductionUpdateRoot key && validProductionUpdateFeedTemplate feed
  | none, none => env.debugAssertions || env.allowDevelopmentUpdateTrust == some "1"
  | _, _ => false

/-- A client that has been built. -/
structure Build extends BuildEnv where
  compiles : toBuildEnv.compiles = true

namespace Build

def productionUpdateConfigured (build : Build) : Bool :=
  match build.injectedUpdateRoot, build.injectedUpdateFeed with
  | some key, some feed => validProductionUpdateRoot key && validProductionUpdateFeedTemplate feed
  | _, _ => false

def officialUpdateRootPubkeyHex (build : Build) : String :=
  build.injectedUpdateRoot.getD developmentUpdateRootPubkeyHex

def officialUpdateFeedUrlTemplate (build : Build) : String :=
  build.injectedUpdateFeed.getD developmentUpdateFeedUrlTemplate

/-- A build has production trust as soon as any of it is injected. -/
theorem productionUpdateConfigured_iff (build : Build) :
    build.productionUpdateConfigured = true ↔
      build.injectedUpdateRoot.isSome ∨ build.injectedUpdateFeed.isSome := by
  have hcompiles := build.compiles
  unfold BuildEnv.compiles at hcompiles
  unfold productionUpdateConfigured
  cases hkey : build.injectedUpdateRoot <;> cases hfeed : build.injectedUpdateFeed <;>
    simp_all

end Build

/-! ## An update source -/

/-- What `reqwest` reads from an address. -/
structure Url where
  scheme : String
  username : String
  password : Option String
  hostStr : Option String
  fragment : Option String

structure AppUpdateSource where
  kind : String
  updateFeedUrl : String
  updateRootPublicKey : String
  channel : String
  isDefaultOfficial : Bool
  warningAcknowledgedAt : Option String

inductive ConfigError
  | io (message : String)
  | parse (message : String)
  | invalid (message : String)
  deriving DecidableEq

def isPlaceholderName (name : List Char) : Bool :=
  name == "channel".toList || name == "platform".toList || name == "arch".toList

/-- Only known places are in braces. A closing brace before an opening one is not looked at. -/
def validFeedTemplate (rest : List Char) : Bool :=
  match hopen : rest.dropWhile (· != '{') with
  | [] => !rest.contains '}'
  | _ :: afterOpen =>
      match hclose : afterOpen.dropWhile (· != '}') with
      | [] => false
      | _ :: tail => isPlaceholderName (afterOpen.takeWhile (· != '}')) && validFeedTemplate tail
termination_by rest.length
decreasing_by
  have hopened := (List.dropWhile_suffix (l := rest) (· != '{')).length_le
  have hclosed := (List.dropWhile_suffix (l := afterOpen) (· != '}')).length_le
  rw [hopen] at hopened
  rw [hclose] at hclosed
  simp only [List.length_cons] at hopened hclosed
  omega

/-- The address under which an update source is asked for its feed. -/
def resolvedFeedUrl (build : Build) (source : AppUpdateSource) : String :=
  let platform := build.platform.name
  let arch := build.arch.name
  let templated := replaceText (placeholder "arch") arch.toList
    (replaceText (placeholder "platform") platform.toList
      (replaceText (placeholder "channel") source.channel.toList source.updateFeedUrl.toList))
  if templated ≠ source.updateFeedUrl.toList then String.ofList templated
  else
    let separator := if templated.contains '?' then "&" else "?"
    String.ofList templated ++ separator ++ "channel=" ++ source.channel ++ "&platform=" ++ platform ++
      "&arch=" ++ arch

/-- `is_allowed_update_url`, over the reader of addresses. -/
def isAllowedUpdateUrl (urlParse : String → Option Url) (value : String) : Bool :=
  let authority :=
    if "https://".toList.isPrefixOf value.toList then some (value.toList.drop 8)
    else if "http://".toList.isPrefixOf value.toList then some (value.toList.drop 7)
    else none
  match authority with
  | none | some [] | some ('/' :: _) | some ('\\' :: _) => false
  | some _ =>
      match urlParse value with
      | none => false
      | some url =>
          if url.username ≠ "" ∨ url.password.isSome ∨ url.fragment.isSome then false
          else
            match url.hostStr with
            | none => false
            | some host =>
                url.scheme == "https" || (url.scheme == "http" &&
                  (host == "127.0.0.1" || host == "::1" || host == "[::1]"))

def isOfficial (build : Build) (source : AppUpdateSource) : Bool :=
  build.productionUpdateConfigured &&
    eqIgnoreAsciiCase source.updateRootPublicKey build.officialUpdateRootPubkeyHex

def isBundledDefault (build : Build) (source : AppUpdateSource) : Bool :=
  eqIgnoreAsciiCase source.updateRootPublicKey build.officialUpdateRootPubkeyHex &&
    source.updateFeedUrl == build.officialUpdateFeedUrlTemplate

def updateChannels : List String := ["stable", "beta", "nightly"]

/-- `validate`. -/
def validate (build : Build) (urlParse : String → Option Url) (source : AppUpdateSource) :
    Except ConfigError Unit := do
  failIf (source.kind ≠ "app-update")
    (.invalid s!"kind 必须为 app-update（拒绝工具源类型: {source.kind}）")
  failIf (((hexDecode source.updateRootPublicKey.toList).map fun b => b.length != 32).getD true)
    (.invalid "updateRootPublicKey 必须是 32 字节 Ed25519 公钥 hex")
  failIf (source.channel ∉ updateChannels) (.invalid "channel 仅允许 stable、beta 或 nightly")
  failIf (¬ validFeedTemplate source.updateFeedUrl.toList)
    (.invalid "updateFeedUrl 只允许 \x7bchannel\x7d/\x7bplatform\x7d/\x7barch\x7d 占位符")
  failIf (¬ isAllowedUpdateUrl urlParse (resolvedFeedUrl build source))
    (.invalid "updateFeedUrl 必须为 HTTPS（本地开发回环除外）")
  failIf (source.isDefaultOfficial ∧ ¬ isOfficial build source)
    (.invalid "isDefaultOfficial=true 但公钥不是官方更新根：拒绝（防伪造官方身份绕过警告门）")
  failIf (¬ isOfficial build source ∧ ¬ isBundledDefault build source ∧
      source.warningAcknowledgedAt = none)
    (.invalid "非官方更新源必须先确认单独警告（warningAcknowledgedAt）")

end Useful.Bootstrap
