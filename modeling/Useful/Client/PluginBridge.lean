/-
# The bridge between a plugin and its host

A bridge takes one port from the document it was armed for and answers the requests that
come through it. The counters of running invocations belong to the module, so all bridges
share them, and a slot is given back when its invocation settles: after a timeout has been
answered, or after the bridge was disposed, if that is when it settles. What the source reads
of a message is its size and the fields of the request; what a listener does to a port it does
not take is left out.
-/

import Mathlib.Data.Finset.Insert
import Mathlib.Data.Finset.Erase
import Mathlib.Logic.Function.Basic
import Useful.Math.Transition

namespace Useful.Client

open Useful.Math

/-- `MethodPolicy`. -/
structure MethodPolicy where
  interactive : Bool
deriving DecidableEq

/-- `METHODS`. -/
def bridgeMethods : List (String × MethodPolicy) :=
  [("getTheme", ⟨false⟩), ("getLanguage", ⟨false⟩), ("plugin.ready", ⟨false⟩),
    ("reportProgress", ⟨false⟩)]

def maxMessageBytes : Nat := 256 * 1024

def maxGlobalInFlight : Nat := 16

def maxPluginInFlight : Nat := 2

def maxInteractiveInFlight : Nat := 1

/-! ## The counters of the module -/

/-- `globalInFlight`, `interactiveInFlight` and `pluginInFlight`. -/
structure InFlight where
  global : Nat
  interactive : Nat
  plugin : String → Option Nat

namespace InFlight

def empty : InFlight := ⟨0, 0, fun _ => none⟩

variable (slots : InFlight) (pluginId : String) (interactive : Bool)

/-- `reserve`; the counters after it when it says yes. -/
def reserve : Option InFlight :=
  let perPlugin := (slots.plugin pluginId).getD 0
  if slots.global ≥ maxGlobalInFlight ∨ perPlugin ≥ maxPluginInFlight then none
  else if interactive = true ∧ slots.interactive ≥ maxInteractiveInFlight then none
  else
    some {
      global := slots.global + 1
      interactive := if interactive then slots.interactive + 1 else slots.interactive
      plugin := Function.update slots.plugin pluginId (some (perPlugin + 1)) }

/-- `release`. Counters stop at zero. -/
def release : InFlight :=
  let next := (slots.plugin pluginId).getD 1 - 1
  { global := slots.global - 1
    interactive := if interactive then slots.interactive - 1 else slots.interactive
    plugin := Function.update slots.plugin pluginId (if next = 0 then none else some next) }

end InFlight

/-! ## One bridge -/

/-- What the source reads of a message on the port: the size of its text, and the id and the
method when it is a request. -/
structure PortMessage where
  size : Option Nat
  request : Option (String × String)

/-- What a reply says. -/
inductive Response (R : Type)
  | result (r : R)
  | error (text : String)

/-- A reply, with the number of the message it answers. -/
structure Reply (R : Type) where
  serial : Nat
  id : String
  response : Response R

/-- What the source reads of a message to the window: its source and ports, and the capability
when its data are a bootstrap request. -/
structure WindowMessage (W P : Type) where
  source : Option W
  ports : List P
  capability : Option String

/-- A port that was taken, with where the message came from and what it knew. -/
structure Exchange (W P : Type) where
  source : W
  port : P
  capability : String

/-- An invocation that has not settled, with the number of its message. -/
structure Invocation where
  serial : Nat
  id : String
  interactive : Bool
  responded : Bool
deriving DecidableEq

/-- `BridgeOptions`. -/
structure BridgeOptions where
  pluginId : String
  capability : String

/-- The variables of a bridge and the window of its frame, its running invocations, and what it
received, accepted, sent and exchanged so far. -/
structure Bridge (W P R : Type) where
  pendingCount : Nat
  rejectionCount : Nat
  active : Bool
  bootstrapped : Bool
  bootstrapArmed : Bool
  loadedDocumentWindow : Option W
  contentWindow : Option W
  port : Option P
  responseTimers : Finset Nat
  requestIds : Finset String
  calls : List Invocation
  received : List PortMessage
  accepted : List Nat
  sent : List (Reply R)
  armedFor : List W
  exchanges : List (Exchange W P)

namespace Bridge

variable {W P R : Type} [DecidableEq W] [DecidableEq P]

/-- `createPluginBridge`. -/
def create : Bridge W P R :=
  ⟨0, 0, true, false, false, none, none, none, ∅, ∅, [], [], [], [], [], []⟩

variable (b : Bridge W P R)

/-- `reply`. -/
def reply (serial : Nat) (id : String) (response : Response R) : Bridge W P R :=
  if b.active = true ∧ b.port.isSome = true then
    { b with sent := b.sent ++ [⟨serial, id, response⟩] }
  else b

/-- A message counted as rejected, and answered when it is a request. -/
def reject (serial : Nat) (id text : String) : Bridge W P R :=
  { b with rejectionCount := b.rejectionCount + 1 }.reply serial id (.error text)

/-- The message is taken on: its id is kept, its timer set and the host invoked. -/
def accept (serial : Nat) (id : String) (interactive : Bool) : Bridge W P R :=
  { b with
    requestIds := insert id b.requestIds
    pendingCount := b.pendingCount + 1
    responseTimers := insert serial b.responseTimers
    calls := b.calls ++ [⟨serial, id, interactive, false⟩]
    accepted := b.accepted ++ [serial] }

/-- The part of `onPortMessage` for a request. -/
def onRequest (opts : BridgeOptions) (slots : InFlight) (serial : Nat) (id method : String) :
    InFlight × Bridge W P R :=
  match bridgeMethods.lookup method with
  | none => (slots, b.reject serial id s!"方法未被允许: {method}")
  | some policy =>
      if id ∈ b.requestIds then (slots, b.reject serial id "请求 id 重复")
      else
        match slots.reserve opts.pluginId policy.interactive with
        | none => (slots, b.reject serial id "插件桥并发请求过多")
        | some reserved => (reserved, b.accept serial id policy.interactive)

/-- `onPortMessage`, up to the invocation of the host. -/
def onPortMessage (opts : BridgeOptions) (slots : InFlight) (target : P) (m : PortMessage) :
    InFlight × Bridge W P R :=
  if b.active = false ∨ b.port ≠ some target then (slots, b)
  else
    let serial := b.received.length
    let b := { b with received := b.received ++ [m] }
    if m.size.any (· ≤ maxMessageBytes) = false then
      (slots, { b with rejectionCount := b.rejectionCount + 1 })
    else
      match m.request with
      | none => (slots, b)
      | some (id, method) => b.onRequest opts slots serial id method

/-- The callback of a request's timer. -/
def onTimeout (serial : Nat) (id : String) : Bridge W P R :=
  let b := { b with
    responseTimers := b.responseTimers.erase serial
    calls := b.calls.map fun call : Invocation =>
      if call.serial = serial then { call with responded := true } else call }
  b.reply serial id (.error "请求超时")

/-- The rest of `onPortMessage`, when the invocation settles. -/
def onSettled (call : Invocation) (response : Response R) : Bridge W P R :=
  let b := if call.responded then b else b.reply call.serial call.id response
  { b with
    responseTimers := b.responseTimers.erase call.serial
    requestIds := b.requestIds.erase call.id
    pendingCount := b.pendingCount - 1
    calls := b.calls.erase call }

/-- `onBootstrap`. -/
def onBootstrap (opts : BridgeOptions) (m : WindowMessage W P) : Bridge W P R :=
  match b.loadedDocumentWindow with
  | none => b
  | some loaded =>
      if b.active = false ∨ b.bootstrapArmed = false ∨ b.bootstrapped = true ∨
          b.contentWindow ≠ some loaded ∨ m.source ≠ some loaded then b
      else
        match m.ports with
        | [offered] =>
            if m.capability = some opts.capability then
              { b with
                bootstrapArmed := false
                bootstrapped := true
                port := some offered
                exchanges := b.exchanges ++ [⟨loaded, offered, opts.capability⟩] }
            else { b with rejectionCount := b.rejectionCount + 1 }
        | _ => { b with rejectionCount := b.rejectionCount + 1 }

/-- `armForLoadedDocument`. -/
def armForLoadedDocument : Bridge W P R :=
  if b.active = false ∨ b.bootstrapArmed = true ∨ b.bootstrapped = true then b
  else
    match b.contentWindow with
    | none => { b with loadedDocumentWindow := none }
    | some window =>
        { b with
          loadedDocumentWindow := some window
          bootstrapArmed := true
          armedFor := b.armedFor ++ [window] }

/-- `dispose`. -/
def dispose : Bridge W P R :=
  { b with
    active := false
    bootstrapArmed := false
    loadedDocumentWindow := none
    responseTimers := ∅
    port := none }

/-- How many replies answer a message. -/
def repliesTo (serial : Nat) : Nat := b.sent.countP fun reply => reply.serial = serial

/-- How many invocations run that are interactive. -/
def interactiveCalls : Nat := b.calls.countP Invocation.interactive

end Bridge

/-! ## All bridges of the module -/

/-- The counters of the module and its bridges. -/
structure BridgeModule (ι W P R : Type) where
  slots : InFlight
  bridges : ι → Bridge W P R

/-- What happens to a module: the document of a frame changes, a bridge is armed, a message
comes to the window or on a port, a timer runs, an invocation settles, a bridge is disposed. -/
inductive BridgeEvent (ι W P R : Type)
  | navigate (i : ι) (window : Option W)
  | arm (i : ι)
  | window (m : WindowMessage W P)
  | port (i : ι) (target : P) (m : PortMessage)
  | timer (i : ι) (serial : Nat)
  | settle (i : ι) (serial : Nat) (response : Response R)
  | dispose (i : ι)

namespace BridgeModule

variable {ι W P R : Type} [DecidableEq ι] [DecidableEq W] [DecidableEq P]

/-- No message has come to any bridge. -/
def start : BridgeModule ι W P R := ⟨.empty, fun _ => .create⟩

/-- The running invocation of a message. -/
def callOf (s : BridgeModule ι W P R) (i : ι) (serial : Nat) : Option Invocation :=
  (s.bridges i).calls.find? fun call => call.serial = serial

/-- A bridge after its own event. -/
def set (s : BridgeModule ι W P R) (i : ι) (b : Bridge W P R) : BridgeModule ι W P R :=
  { s with bridges := Function.update s.bridges i b }

/-- A timer runs only while it is set, and an invocation settles only once. -/
def next (opts : ι → BridgeOptions) (s : BridgeModule ι W P R) :
    BridgeEvent ι W P R → Option (BridgeModule ι W P R)
  | .navigate i window => some (s.set i { s.bridges i with contentWindow := window })
  | .arm i => some (s.set i (s.bridges i).armForLoadedDocument)
  | .window m => some { s with bridges := fun i => (s.bridges i).onBootstrap (opts i) m }
  | .port i target m =>
      let after := (s.bridges i).onPortMessage (opts i) s.slots target m
      some { slots := after.1, bridges := Function.update s.bridges i after.2 }
  | .timer i serial =>
      if serial ∈ (s.bridges i).responseTimers then
        (s.callOf i serial).map fun call => s.set i ((s.bridges i).onTimeout serial call.id)
      else none
  | .settle i serial response =>
      (s.callOf i serial).map fun call =>
        { slots := s.slots.release (opts i).pluginId call.interactive
          bridges := Function.update s.bridges i ((s.bridges i).onSettled call response) }
  | .dispose i => some (s.set i (s.bridges i).dispose)

end BridgeModule

end Useful.Client
