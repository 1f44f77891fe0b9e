import Mathlib.Data.List.Basic
import Newt.Lib.Runs

/-!
# Requests, responses and chain IDs

The client asks the server for exit nodes (`newt/ping/request`), registers with
one (`newt/wg/register`) and asks for the configuration of its clients
(`newt/wg/get-config`).  Every request carries a fresh chain ID and is repeated
by a periodic sender until the answer comes (`newt/ping/exitNodes`,
`newt/wg/connect`, `newt/wg/receive-config`).

The handlers of the answers run one after the other; here each of their
accesses to the shared fields is a step of its own.  The callback of the
websocket client and the ping goroutine issue requests at any time, each in one
step.  Answers may be lost, repeated, delayed or made up.

The system also records, for no step of the code to read, the latest request of
each kind, the answers that were applied and those that were discarded.
-/

namespace Newt.Chains

/-- The three kinds of request. -/
inductive Request
  | ping
  | register
  | config
  deriving DecidableEq, Repr

/-- An answer: its chain ID, empty when it carries none, whether an
`exitNodes` message lists any node, and whether its data can be decoded. -/
structure Response where
  request : Request
  chainId : String
  hasNodes : Bool := true
  decodes : Bool := true
  deriving DecidableEq, Repr

/-- The fields of the client: the pending chain IDs, the stop functions of the
senders they started, the senders that run, by the chain ID they repeat, and
the tunnel, with a count of the times it was built or closed. -/
structure Client where
  pendingPingChainId : String
  pendingRegisterChainId : String
  pendingConfigChainId : String
  stopFunc : Option String
  stopGetConfig : Option String
  senders : List String
  connected : Bool
  tunnel : Nat
  wgService : Bool
  deriving DecidableEq, Repr

variable (c : Client)

namespace Client

def pending (c : Client) : Request → String
  | .ping => c.pendingPingChainId
  | .register => c.pendingRegisterChainId
  | .config => c.pendingConfigChainId

def setPending (c : Client) (id : String) : Request → Client
  | .ping => { c with pendingPingChainId := id }
  | .register => { c with pendingRegisterChainId := id }
  | .config => { c with pendingConfigChainId := id }

/-- A call of a stop function ends the sender it belongs to. -/
def stopSender (c : Client) (stop : Option String) : Client :=
  match stop with
  | some id => { c with senders := c.senders.filter (· ≠ id) }
  | none => c

/-- `if n.stopFunc != nil { n.stopFunc(); n.stopFunc = nil }`. -/
def callStopFunc (c : Client) : Client :=
  { c.stopSender c.stopFunc with stopFunc := none }

/-- The same for `stopGetConfig`. -/
def callStopGetConfig (c : Client) : Client :=
  { c.stopSender c.stopGetConfig with stopGetConfig := none }

/-- `SendMessageInterval`: the field of the stop function is overwritten. -/
def startSender (c : Client) (id : String) : Request → Client
  | .config => { c with stopGetConfig := some id, senders := id :: c.senders }
  | _ => { c with stopFunc := some id, senders := id :: c.senders }

@[simp] theorem pending_setPending_self (id : String) (r : Request) :
    (c.setPending id r).pending r = id := by cases r <;> rfl

theorem pending_setPending_of_ne (id : String) {r r' : Request} (h : r' ≠ r) :
    (c.setPending id r).pending r' = c.pending r' := by
  cases r <;> cases r' <;> first | rfl | exact absurd rfl h

@[simp] theorem pending_stopSender (stop : Option String) (r : Request) :
    (c.stopSender stop).pending r = c.pending r := by cases stop <;> cases r <;> rfl

@[simp] theorem pending_callStopFunc (r : Request) : c.callStopFunc.pending r = c.pending r := by
  have h := pending_stopSender c c.stopFunc r
  cases r <;> exact h

@[simp] theorem pending_callStopGetConfig (r : Request) :
    c.callStopGetConfig.pending r = c.pending r := by
  have h := pending_stopSender c c.stopGetConfig r
  cases r <;> exact h

@[simp] theorem pending_startSender (id : String) (r r' : Request) :
    (c.startSender id r).pending r' = c.pending r' := by cases r <;> cases r' <;> rfl

/-- Without a sender to stop, nothing changes. -/
theorem callStopFunc_of_none {c : Client} (h : c.stopFunc = none) : c.callStopFunc = c := by
  cases c
  cases h
  rfl

end Client

/-- Where the handler of an answer is.  `changed` says whether it has changed
the client so far. -/
inductive HandlerPC
  | idle
  /-- An `exitNodes` message, before `stopFunc` is called. -/
  | stopping (m : Response)
  /-- Before the data is decoded and the chain ID compared. -/
  | checking (m : Response) (changed : Bool)
  /-- The chain ID was right, the pending one is about to be cleared. -/
  | consuming (m : Response)
  /-- The exit nodes are being pinged. -/
  | probing
  /-- In `handleConnect`, before `stopFunc` is called. -/
  | connecting
  /-- The tunnel is being built. -/
  | building
  /-- In `handleConfig`, before `stopGetConfig` is called. -/
  | configuring
  deriving DecidableEq, Repr

/-- An answer that was applied, and the latest request of its kind then. -/
structure Applied where
  response : Response
  latest : String
  deriving DecidableEq, Repr

/-- An answer that was discarded, and whether its handler changed the client. -/
structure Discarded where
  response : Response
  changed : Bool
  deriving DecidableEq, Repr

structure Sys where
  client : Client
  next : Nat
  pc : HandlerPC
  latest : Request → String
  applied : List Applied
  discarded : List Discarded

/-- `generateChainId`: the IDs are distinct, and none is empty. -/
structure ChainIds where
  gen : Nat → String
  injective : Function.Injective gen
  ne_empty : ∀ n, gen n ≠ ""

inductive Event
  /-- An answer arrives. -/
  | arrive (m : Response)
  /-- The next step of the handler, with the outcome of what it tries. -/
  | handler (ok : Bool)
  /-- A reconnect or terminate message, handled in one step. -/
  | reconnect
  | terminate
  /-- The websocket client has connected. -/
  | onConnect
  /-- The ping goroutine starts the recovery. -/
  | recover
  | loadRemoteConfig
  /-- A sender gives up after its last attempt. -/
  | timeout (id : String)
  deriving DecidableEq, Repr

namespace Sys

/-- The client before its first connection. -/
def fresh : Sys :=
  { client :=
      { pendingPingChainId := "", pendingRegisterChainId := "", pendingConfigChainId := "",
        stopFunc := none, stopGetConfig := none, senders := [], connected := false, tunnel := 0,
        wgService := true }
    next := 0, pc := .idle, latest := fun _ => "", applied := [], discarded := [] }

/-- A request with a fresh chain ID.  `extra` further IDs are generated for
messages that get no answer. -/
def request (ids : ChainIds) (s : Sys) (r : Request) (extra : Nat) : Sys :=
  let id := ids.gen s.next
  { s with
    client := (s.client.setPending id r).startSender id r
    next := s.next + 1 + extra
    latest := Function.update s.latest r id }

/-- The answer counts: what its handler does next. -/
def apply (s : Sys) (m : Response) : Sys :=
  { s with
    pc :=
      match m.request with
      | .ping => if m.hasNodes then .probing else .idle
      | .register => .connecting
      | .config => .configuring
    applied := s.applied ++ [{ response := m, latest := s.latest m.request }] }

/-- The handler returns early. -/
def discard (s : Sys) (m : Response) (changed : Bool) : Sys :=
  { s with pc := .idle, discarded := s.discarded ++ [{ response := m, changed := changed }] }

def onArrive (s : Sys) (m : Response) : Option Sys :=
  if s.pc = .idle then
    some { s with pc := if m.request = .ping then .stopping m else .checking m false }
  else none

/-- The next step of the running handler. -/
def onHandler (ids : ChainIds) (s : Sys) (ok : Bool) : Option Sys :=
  match s.pc with
  | .idle => none
  | .stopping m =>
    some { s with
           client := s.client.callStopFunc
           pc := .checking m (decide (s.client.callStopFunc ≠ s.client)) }
  | .checking m changed =>
    -- `handleConnect` decodes the rest of its message when the answer counts already.
    if m.decodes = false ∧ m.request ≠ .register then some (s.discard m changed)
    else if m.chainId ≠ "" then
      if m.chainId ≠ s.client.pending m.request then some (s.discard m changed)
      else some { s with pc := .consuming m }
    else some (s.apply m)
  | .consuming m => some ({ s with client := s.client.setPending "" m.request }.apply m)
  | .probing => some { s.request ids .register 0 with pc := .idle }
  | .connecting => some { s with client := s.client.callStopFunc, pc := .building }
  | .building =>
    some { s with
           client := { s.client with connected := ok, tunnel := s.client.tunnel + 1 }
           pc := .idle }
  | .configuring => some { s with client := s.client.callStopGetConfig, pc := .idle }

/-- The tunnel is closed. -/
def closeTunnel (s : Sys) : Sys :=
  { s with client := { s.client with connected := false, tunnel := s.client.tunnel + 1 } }

def onReconnect (ids : ChainIds) (s : Sys) : Option Sys :=
  if s.pc = .idle then
    some ({ s.closeTunnel with client := s.closeTunnel.client.callStopFunc }.request ids .ping 0)
  else none

def onTerminate (s : Sys) : Option Sys :=
  if s.pc = .idle then
    some { s.closeTunnel with
           client :=
             { s.closeTunnel.client.callStopFunc.callStopGetConfig with wgService := false } }
  else none

/-- The callback asks for exit nodes when there is no tunnel, and registers in
the old way, which gets no answer. -/
def onConnect (ids : ChainIds) (s : Sys) : Sys :=
  if s.client.connected then { s with next := s.next + 1 }
  else { s with client := s.client.callStopFunc }.request ids .ping 1

/-- The recovery does not stop the sender whose stop function it overwrites. -/
def recover (ids : ChainIds) (s : Sys) : Sys :=
  s.request ids .ping 1

/-- `LoadRemoteConfig`. -/
def loadRemoteConfig (ids : ChainIds) (s : Sys) : Option Sys :=
  if s.client.wgService then
    some ({ s with client := s.client.callStopGetConfig }.request ids .config 0)
  else none

def step (ids : ChainIds) (s : Sys) : Event → Option Sys
  | .arrive m => s.onArrive m
  | .handler ok => s.onHandler ids ok
  | .reconnect => s.onReconnect ids
  | .terminate => s.onTerminate
  | .onConnect => some (s.onConnect ids)
  | .recover => some (s.recover ids)
  | .loadRemoteConfig => s.loadRemoteConfig ids
  | .timeout id => some { s with client := s.client.stopSender (some id) }

end Sys

end Newt.Chains
