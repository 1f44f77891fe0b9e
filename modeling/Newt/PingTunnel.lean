import Newt.Lib.Runs

/-!
# The main tunnel and its ping goroutines

The part of the client that builds and tears down the main tunnel: the message
handlers that call `handleConnect` and `closeWgTunnel`, which run one after the
other, and the goroutines that `pingWithRetry` and `startPingCheck` leave
behind, which run at any time.

Tunnels and channels are numbers, given out in order.  `cleared` lists the
tunnels `closeWgTunnel` has cleared and `attempts` the pings that were issued;
no step of the code reads these two.  A ping and its outcome are one step: only
the goroutine that waits for the outcome can see it.  So are a sleep and what
precedes it.
-/

namespace Newt.PingTunnel

/-- The functions that start ping goroutines. -/
inductive Pinger
  | pingWithRetry
  | startPingCheck
  deriving DecidableEq, Repr

/-- Where a ping goroutine is: at its `select`, about to issue an attempt with
`left` attempts to go, or returned. -/
inductive PingPhase
  | select
  | armed (left : Nat)
  | returned
  deriving DecidableEq, Repr

/-- A ping goroutine, the tunnel it was started for and its own stop channel. -/
structure Goroutine where
  pinger : Pinger
  tunnel : Nat
  stopChan : Nat
  consecutiveFailures : Nat := 0
  phase : PingPhase := .select
  deriving DecidableEq, Repr

/-- A ping: who issued it (`none` for the connection test of `handleConnect`),
for which tunnel, the netstack it ran on (`none` for nil), and whether its
tunnel had been cleared. -/
structure Attempt where
  pinger : Option Pinger
  tunnel : Nat
  tnet : Option Nat
  cleared : Bool
  deriving DecidableEq, Repr

/-- The messages whose handlers build or close the tunnel.  A connect message
is one that the handler does not discard. -/
inductive Message
  | connect
  | reconnect
  | restart
  | terminate
  deriving DecidableEq, Repr

/-- Where the message handler is. -/
inductive HandlerPC
  | idle
  /-- At the top of `closeWgTunnel`, called for a message. -/
  | closing (m : Message)
  /-- The ping stop channel is closed, its field not yet nil. -/
  | nilling (m : Message)
  /-- The device is about to be closed and the tunnel cleared. -/
  | clearing (m : Message)
  /-- In `handleConnect`, before the tunnel is created. -/
  | building
  /-- The tunnel exists, the device is being configured. -/
  | configuring (tunnel : Nat)
  /-- In the connection test, with `left` attempts to go. -/
  | testing (tunnel left : Nat)
  /-- At the call of `pingWithRetry`. -/
  | firstPing (tunnel : Nat)
  /-- At the call of `startPingCheck`. -/
  | starting (tunnel : Nat)
  deriving DecidableEq, Repr

/-- The fields of `Newt` that these functions use, and the goroutines. -/
structure Client where
  useNativeMainInterface : Bool
  tun : Option Nat
  tnet : Option Nat
  connected : Bool
  pingStopChan : Option Nat
  pingWithRetryStopChan : Option Nat
  closedChans : List Nat
  nextChan : Nat
  nextTunnel : Nat
  stopped : Bool
  pc : HandlerPC
  goroutines : List Goroutine
  cleared : List Nat
  attempts : List Attempt
  deriving DecidableEq, Repr

inductive Event
  | message (m : Message)
  /-- The next step of the handler, with the outcome of what it tries. -/
  | handler (ok : Bool)
  /-- The handler returns early: it cannot read the message, or it cannot use
  the endpoint. -/
  | abort
  | select (i : Nat)
  | tick (i : Nat)
  | stop (i : Nat)
  | attempt (i : Nat) (ok : Bool)
  deriving DecidableEq, Repr

/-- `startPingCheck` tries harder after several failed rounds. -/
def Goroutine.maxAttempts (g : Goroutine) : Nat :=
  if g.consecutiveFailures > 4 then 4 else 2

/-- A goroutine after an attempt, of `left` to go, with the given outcome. -/
def Goroutine.afterAttempt (g : Goroutine) (left : Nat) (ok : Bool) : Goroutine :=
  match g.pinger, ok with
  | .pingWithRetry, true => { g with phase := .returned }
  | .pingWithRetry, false => { g with phase := .select }
  | .startPingCheck, true => { g with phase := .select, consecutiveFailures := 0 }
  | .startPingCheck, false =>
    if left > 1 then { g with phase := .armed (left - 1) }
    else { g with phase := .select, consecutiveFailures := g.consecutiveFailures + 1 }

namespace Client

/-- The client before the first message. -/
def fresh (useNativeMainInterface : Bool) : Client :=
  { useNativeMainInterface := useNativeMainInterface, tun := none, tnet := none,
    connected := false, pingStopChan := none, pingWithRetryStopChan := none,
    closedChans := [], nextChan := 0, nextTunnel := 0, stopped := false, pc := .idle,
    goroutines := [], cleared := [], attempts := [] }

/-- A ping for a tunnel, on the netstack the client has now. -/
def ping (s : Client) (pinger : Option Pinger) (tunnel : Nat) : Client :=
  { s with
    attempts := s.attempts ++
      [{ pinger := pinger, tunnel := tunnel, tnet := s.tnet,
         cleared := decide (tunnel ∈ s.cleared) }] }

def setGoroutine (s : Client) (i : Nat) (g : Goroutine) : Client :=
  { s with goroutines := s.goroutines.set i g }

/-- A message arrives: the handlers run one after the other. -/
def onMessage (s : Client) (m : Message) : Option Client :=
  if s.pc = .idle ∧ s.stopped = false then
    if m = .connect ∧ s.connected = false then some { s with pc := .building }
    else some { s with pc := .closing m }
  else none

/-- The end of `closeWgTunnel`: the tunnel is cleared. -/
def clearTunnel (s : Client) : Client :=
  { s with tun := none, tnet := none, cleared := s.tun.toList ++ s.cleared }

/-- What the handlers do after `closeWgTunnel`. -/
def afterClose (s : Client) : Message → Client
  | .connect => { s with connected := false, pc := .building }
  | .restart => { s with stopped := true, pc := .idle }
  | .reconnect | .terminate => { s with connected := false, pc := .idle }

/-- The creation of the tunnel.  Without a device `NewDevice` panics, and
nothing follows a panic; a native device is checked before. -/
def create (s : Client) (ok : Bool) : Option Client :=
  if ok then
    some { s with
           tun := some s.nextTunnel
           tnet := if s.useNativeMainInterface then none else some s.nextTunnel
           nextTunnel := s.nextTunnel + 1
           pc := .configuring s.nextTunnel }
  else if s.useNativeMainInterface then some { s with tun := none, pc := .idle }
  else none

/-- The old `pingWithRetry` is stopped before the connection test. -/
def stopOldRetry (s : Client) : Client :=
  match s.pingWithRetryStopChan with
  | some c => { s with closedChans := c :: s.closedChans, pingWithRetryStopChan := none }
  | none => s

/-- `pingWithRetry`, up to its return: a goroutine goes on after a failure. -/
def pingWithRetry (s : Client) (tunnel : Nat) (ok : Bool) : Client :=
  let s' := s.ping (some .pingWithRetry) tunnel
  let g : Goroutine := { pinger := .pingWithRetry, tunnel := tunnel, stopChan := s.nextChan }
  { s' with
    goroutines := if ok then s'.goroutines else s'.goroutines ++ [g]
    pingWithRetryStopChan := some s.nextChan
    nextChan := s.nextChan + 1 }

/-- `startPingCheck`, up to its return. -/
def startPingCheck (s : Client) (tunnel : Nat) : Client :=
  let g : Goroutine := { pinger := .startPingCheck, tunnel := tunnel, stopChan := s.nextChan }
  { s with
    goroutines := s.goroutines ++ [g]
    pingStopChan := some s.nextChan
    nextChan := s.nextChan + 1 }

/-- The next step of the running handler. -/
def onHandler (s : Client) (ok : Bool) : Option Client :=
  match s.pc with
  | .idle => none
  | .closing m =>
    match s.pingStopChan with
    | some c => some { s with closedChans := c :: s.closedChans, pc := .nilling m }
    | none => some { s with pc := .clearing m }
  | .nilling m => some { s with pingStopChan := none, pc := .clearing m }
  | .clearing m => some (s.clearTunnel.afterClose m)
  | .building => s.create ok
  | .configuring t => some { s.stopOldRetry with pc := .testing t 5 }
  | .testing t left =>
    some { s.ping none t with
           pc := if ok = false ∧ left > 1 then .testing t (left - 1) else .firstPing t }
  | .firstPing t => some { s.pingWithRetry t ok with pc := .starting t }
  | .starting t =>
    some { (if s.connected then s else s.startPingCheck t) with connected := true, pc := .idle }

/-- An early return of `handleConnect`. -/
def onAbort (s : Client) : Option Client :=
  match s.pc with
  | .building | .configuring _ => some { s with pc := .idle }
  | _ => none

/-- The `select` of a `pingWithRetry` goroutine.  Both channels are read now; a
nil channel is never ready, and the ping is issued when neither is. -/
def onSelect (s : Client) (i : Nat) (g : Goroutine) : Option Client :=
  if g.pinger = .pingWithRetry ∧ g.phase = .select then
    if g.stopChan ∈ s.closedChans ∨ ∃ c ∈ s.pingStopChan, c ∈ s.closedChans then
      some (s.setGoroutine i { g with phase := .returned })
    else some (s.setGoroutine i { g with phase := .armed 1 })
  else none

/-- The `select` of a `startPingCheck` goroutine takes the ticker, which it may
even when the stop channel is closed. -/
def onTick (s : Client) (i : Nat) (g : Goroutine) : Option Client :=
  if g.pinger = .startPingCheck ∧ g.phase = .select then
    some (s.setGoroutine i { g with phase := .armed g.maxAttempts })
  else none

/-- The `select` of a `startPingCheck` goroutine takes the stop channel. -/
def onStop (s : Client) (i : Nat) (g : Goroutine) : Option Client :=
  if g.pinger = .startPingCheck ∧ g.phase = .select ∧ g.stopChan ∈ s.closedChans then
    some (s.setGoroutine i { g with phase := .returned })
  else none

/-- An attempt of an armed goroutine. -/
def onAttempt (s : Client) (i : Nat) (ok : Bool) (g : Goroutine) : Option Client :=
  match g.phase with
  | .armed left =>
    some ((s.ping (some g.pinger) g.tunnel).setGoroutine i (g.afterAttempt left ok))
  | _ => none

def step (s : Client) : Event → Option Client
  | .message m => s.onMessage m
  | .handler ok => s.onHandler ok
  | .abort => s.onAbort
  | .select i => s.goroutines[i]?.bind (s.onSelect i)
  | .tick i => s.goroutines[i]?.bind (s.onTick i)
  | .stop i => s.goroutines[i]?.bind (s.onStop i)
  | .attempt i ok => s.goroutines[i]?.bind (s.onAttempt i ok)

end Client

end Newt.PingTunnel
