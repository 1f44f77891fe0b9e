import Mathlib.Logic.Function.Basic
import Mathlib.Tactic.Common

/-!
# The blocked flag

With `blocked` set in its config file the client drops new connections.  The
value is kept in four places: the client's own `connectionBlocked`, the current
proxy manager, the service for clients and the proxy handler of its netstack.
Three parties write them: the start, the goroutine that reloads the file on
SIGHUP, and the message handlers, which run one after the other and create
proxy managers (`handleConnect`) and netstacks (`ensureWireguardInterface`).

Proxy managers and proxy handlers are numbers, given out in order.  A proxy
manager that is not published yet is seen by its creator only, so the read of
`connectionBlocked` and the write to the manager are one step.  `lastLoaded` is
the value of the last file that was loaded; no step of the code reads it.

A reload that finds other credentials restarts the program and is not a step.
-/

namespace Newt.Blocked

open Function

/-- The config file: without `blocked` the value is false. -/
inductive ConfigFile
  | missing
  | empty
  | contents (blocked : Bool)
  deriving DecidableEq, Repr

/-- The value of `blocked` a file stands for. -/
def ConfigFile.blocked : ConfigFile → Bool
  | .contents blocked => blocked
  | _ => false

/-- The part of the websocket client's configuration that is used here. -/
structure Config where
  blocked : Bool := false
  configNeedsSave : Bool := false
  deriving DecidableEq, Repr

/-- `loadConfig` of the websocket client: it looks whether the file has to be
written and takes nothing from it. -/
def Config.loadConfig (c : Config) : ConfigFile → Config
  | .missing | .empty => { c with configNeedsSave := true }
  | .contents _ => c

/-- The service for clients: its flag and the proxy handler of its netstack. -/
structure Service where
  blocked : Bool
  tnet : Option Nat
  deriving DecidableEq, Repr

/-- Where the message handler is. -/
inductive HandlerPC
  | idle
  /-- In `handleConnect`, before `currentPM.Store` of a new proxy manager. -/
  | publishing (pm : Nat)
  /-- In `ensureWireguardInterface`, with a new proxy handler, before the read of
  the service's flag. -/
  | created (ph : Nat)
  /-- The flag was set: before `ph.SetBlocked(true)`. -/
  | applying (ph : Nat)
  deriving DecidableEq, Repr

/-- Where the reload is, with the value of the file. -/
inductive ReloadPC
  | idle
  | loaded (v : Bool)
  /-- `connectionBlocked` is stored, before `currentPM.Load`. -/
  | stored (v : Bool)
  | settingPM (v : Bool) (pm : Nat)
  /-- Before `setClientsBlocked`. -/
  | clients (v : Bool)
  /-- The service's flag is stored, before the read of its netstack. -/
  | readTnet (v : Bool)
  | settingPH (v : Bool) (ph : Nat)
  deriving DecidableEq, Repr

/-- How the creation of a client interface ends: with a native interface or
without a netstack, with a netstack whose device cannot be set up, or well. -/
inductive Interface
  | none
  | unconfigured
  | ready
  deriving DecidableEq, Repr

structure Sys where
  lastLoaded : Bool
  connectionBlocked : Bool
  currentPM : Option Nat
  pmBlocked : Nat → Bool
  nextPM : Nat
  service : Option Service
  phBlocked : Nat → Bool
  nextPH : Nat
  handler : HandlerPC
  reload : ReloadPC

inductive Event
  /-- SIGHUP: the file is read and parsed, or that fails. -/
  | reload (file : Option Bool)
  | reloadStep
  /-- `closeWgTunnel`. -/
  | closeTunnel
  | closeClients
  /-- `handleConnect` creates a proxy manager with the current value. -/
  | createPM
  | publish
  | createInterface (result : Interface)
  | loadBlocked
  | applyBlocked
  deriving DecidableEq, Repr

namespace Sys

/-- `Newt.Start` with a config file, with clients or without. -/
def start (file : ConfigFile) (clients : Bool) : Sys :=
  let v := (Config.loadConfig {} file).blocked
  { lastLoaded := file.blocked, connectionBlocked := v, currentPM := none,
    pmBlocked := fun _ => false, nextPM := 0,
    service := if clients then some { blocked := v, tnet := none } else none,
    phBlocked := fun _ => false, nextPH := 0, handler := .idle, reload := .idle }

/-- The next step of the reload. -/
def onReload (s : Sys) : Option Sys :=
  match s.reload with
  | .idle => none
  | .loaded v =>
    if v = s.connectionBlocked then some { s with reload := .idle }
    else some { s with connectionBlocked := v, reload := .stored v }
  | .stored v =>
    match s.currentPM with
    | none => some { s with reload := .clients v }
    | some pm => some { s with reload := .settingPM v pm }
  | .settingPM v pm =>
    some { s with pmBlocked := update s.pmBlocked pm v, reload := .clients v }
  | .clients v =>
    match s.service with
    | none => some { s with reload := .idle }
    | some sv => some { s with service := some { sv with blocked := v }, reload := .readTnet v }
  | .readTnet v =>
    match s.service.bind Service.tnet with
    | none => some { s with reload := .idle }
    | some ph => some { s with reload := .settingPH v ph }
  | .settingPH v ph =>
    some { s with phBlocked := update s.phBlocked ph v, reload := .idle }

/-- The creation of a client interface, up to the unlock of the service. -/
def createInterface (s : Sys) (sv : Service) (result : Interface) : Sys :=
  match result with
  | .none => { s with service := some { sv with tnet := none } }
  | .unconfigured =>
    { s with
      service := some { sv with tnet := some s.nextPH }
      phBlocked := update s.phBlocked s.nextPH false
      nextPH := s.nextPH + 1 }
  | .ready =>
    { s with
      service := some { sv with tnet := some s.nextPH }
      phBlocked := update s.phBlocked s.nextPH false
      nextPH := s.nextPH + 1
      handler := .created s.nextPH }

def step (s : Sys) : Event → Option Sys
  | .reload file =>
    match s.reload, file with
    | .idle, none => some s
    | .idle, some v => some { s with lastLoaded := v, reload := .loaded v }
    | _, _ => none
  | .reloadStep => s.onReload
  | .closeTunnel => if s.handler = .idle then some { s with currentPM := none } else none
  | .closeClients => if s.handler = .idle then some { s with service := none } else none
  | .createPM =>
    if s.handler = .idle then
      some { s with
             pmBlocked := update s.pmBlocked s.nextPM s.connectionBlocked
             nextPM := s.nextPM + 1
             handler := .publishing s.nextPM }
    else none
  | .publish =>
    match s.handler with
    | .publishing pm => some { s with currentPM := some pm, handler := .idle }
    | _ => none
  | .createInterface result =>
    match s.handler, s.service with
    | .idle, some sv => some (s.createInterface sv result)
    | _, _ => none
  | .loadBlocked =>
    match s.handler, s.service with
    | .created ph, some sv =>
      some { s with handler := if sv.blocked then .applying ph else .idle }
    | _, _ => none
  | .applyBlocked =>
    match s.handler with
    | .applying ph =>
      some { s with phBlocked := update s.phBlocked ph true, handler := .idle }
    | _ => none

end Sys

end Newt.Blocked
