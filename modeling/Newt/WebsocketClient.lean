import Mathlib.Data.List.Basic
import Newt.Lib.Runs

/-!
# The goroutines of the websocket client

`websocket/client.go` as a system of goroutines over the shared fields of `Client`:
the connect loop with `establishConnection`, the ping monitor and the read pump of each
connection with `reconnect`, and calls of `Close` and of `SendMessage`.

A goroutine stands at a place of its function and a step brings it to the next one.
Between two steps any other goroutine may run.  A test of `c.done` or `c.conn` is a
step, and so is each use of `c.conn` after it; the writes under one lock are one step.
What the network does is a choice of the step: a dial, a read or a write may fail at
any time, and a message may come at any time.  A use of a nil connection and the
second close of a channel panic, and nothing runs after a panic.

`isConnected`, the metrics and the log have no part in this and are left out.
-/

namespace Newt.Websocket

/-- A connection the dialer has returned. -/
structure Conn where
  /-- The client has called `Close` on it. -/
  closed : Bool := false
  /-- The channel `connClosed` of its session is closed. -/
  connClosed : Bool := false
  /-- How many connect loops its end has started. -/
  restarts : Nat := 0
deriving DecidableEq, Repr

/-- The places of `connectWithRetry` and of `establishConnection` in it. -/
inductive ConnectPC
  | select
  | dial
  | sleep
  /-- The dialer has returned a connection. -/
  | assign (k : Nat)
  | startPing (k : Nat)
  | startPump (k : Nat)
  | onConnect
  | returned
deriving DecidableEq, Repr

/-- The places of `pingMonitor` and of `sendPing` in it. -/
inductive PingPC
  | test
  | processing
  | lock
  | retest
  | write
  | unlock (failed : Bool)
  /-- The write has failed. -/
  | shutdown
  | lockAgain
  | testAgain
  | closeConn
  | unlockAgain
  /-- The select between two pings. -/
  | wait
  | returned
deriving DecidableEq, Repr

/-- The places of `readPumpWithDisconnectDetection`, of the function it defers and of
`reconnect` in it. -/
inductive PumpPC
  | select
  | read
  /-- In `ReadMessage`. -/
  | blocked (j : Nat)
  /-- A message has come; there may be a handler for it. -/
  | received (handled : Bool)
  | handler
  | signal
  | test
  | closeConn
  | shutdown
  | lock
  | retest
  | closeAgain
  | clear
  | unlock
  | restart
  | returned
deriving DecidableEq, Repr

/-- The places of `Close`. -/
inductive ClosePC
  | select
  | closeDone
  | test
  | lock
  | write
  | unlock
  | closeConn
  | returned
deriving DecidableEq, Repr

/-- The places of `SendMessage` and `SendMessageNoLog`. -/
inductive SendPC
  | test
  | lock
  | write
  | unlock (sent : Bool)
  | returned (sent : Bool)
deriving DecidableEq, Repr

/-- A goroutine; a ping monitor and a read pump belong to a connection. -/
inductive Goroutine
  | connectWithRetry (pc : ConnectPC)
  | pingMonitor (k : Nat) (pc : PingPC)
  | readPump (k : Nat) (pc : PumpPC)
  | close (pc : ClosePC)
  | sendMessage (pc : SendPC)
deriving DecidableEq, Repr

/-- The shared fields; `conn` is the place of a connection in `conns`, the list of
all connections that were opened. -/
structure Client where
  conn : Option Nat := none
  done : Bool := false
  writeMux : Bool := false
  processingMessage : Bool := false
  conns : List Conn := []
  goroutines : List Goroutine := []
  panicked : Bool := false
deriving DecidableEq, Repr

/-- What a step leaves open. -/
inductive Choice
  | next
  | fail
  | message (handled : Bool)
  | tick
deriving DecidableEq, Repr

inductive Event
  | callClose
  | callSendMessage
  | go (i : Nat) (choice : Choice)
deriving DecidableEq, Repr

namespace Client

/-- After `Connect`, whose goroutine has not run yet. -/
def init : Client where
  goroutines := [.connectWithRetry .select]

/-- `Close` on a connection. -/
def closeConn (s : Client) (j : Nat) : Client :=
  { s with conns := s.conns.modify j (fun c => { c with closed := true }) }

/-- `close(connClosed)`. -/
def signal (s : Client) (k : Nat) : Client :=
  { s with conns := s.conns.modify k (fun c => { c with connClosed := true }) }

def countRestart (s : Client) (k : Nat) : Client :=
  { s with conns := s.conns.modify k (fun c => { c with restarts := c.restarts + 1 }) }

/-- A connection that was opened and not closed. -/
def isOpen (s : Client) (j : Nat) : Bool :=
  s.conns[j]?.any (fun c => !c.closed)

def connClosed (s : Client) (k : Nat) : Bool :=
  s.conns[k]?.any Conn.connClosed

/-- `c.writeMux.Lock()` blocks while the lock is held. -/
def lock (s : Client) : Option Client :=
  if s.writeMux then none else some { s with writeMux := true }

def unlock (s : Client) : Client :=
  { s with writeMux := false }

/-- A step that uses `c.conn`. -/
def deref {α : Type} (s : Client) (here : α) (use : Nat → Option (Client × α)) :
    Option (Client × α) :=
  match s.conn with
  | none => some ({ s with panicked := true }, here)
  | some j => use j

/-- A write on a connection; on a closed one it fails. -/
def write {α : Type} (s : Client) (choice : Choice) (after : Bool → α) (j : Nat) :
    Option (Client × α) :=
  match choice with
  | .next => if s.isOpen j then some (s, after true) else none
  | .fail => some (s, after false)
  | _ => none

def connectWithRetry (s : Client) : ConnectPC → Choice → Option (Client × ConnectPC)
  | .select, .next => some (s, if s.done then .returned else .dial)
  | .dial, .fail => some (s, .sleep)
  | .dial, .next => some ({ s with conns := s.conns ++ [{}] }, .assign s.conns.length)
  | .sleep, .next => some (s, .select)
  | .assign k, .next => some ({ s with conn := some k }, .startPing k)
  | .startPing k, .next => s.deref (.startPing k) (fun _ =>
    some ({ s with goroutines := s.goroutines ++ [.pingMonitor k .test] }, .startPump k))
  | .startPump k, .next =>
    some ({ s with goroutines := s.goroutines ++ [.readPump k .select] }, .onConnect)
  | .onConnect, .next => some (s, .returned)
  | _, _ => none

def pingMonitor (s : Client) (k : Nat) : PingPC → Choice → Option (Client × PingPC)
  | .test, .next => some (s, if s.conn.isNone then .wait else .processing)
  | .processing, .next => some (s, if s.processingMessage then .wait else .lock)
  | .lock, .next => s.lock.map (fun s' => (s', .retest))
  | .retest, .next => some (s, if s.conn.isNone then .unlock false else .write)
  | .write, choice => s.deref .write (s.write choice (fun sent => .unlock (!sent)))
  | .unlock failed, .next => some (s.unlock, if failed then .shutdown else .wait)
  | .shutdown, .next => some (s, if s.done then .wait else .lockAgain)
  | .lockAgain, .next => s.lock.map (fun s' => (s', .testAgain))
  | .testAgain, .next => some (s, if s.conn.isSome then .closeConn else .unlockAgain)
  | .closeConn, .next => s.deref .closeConn (fun j => some (s.closeConn j, .unlockAgain))
  | .unlockAgain, .next => some (s.unlock, .wait)
  | .wait, .tick => some (s, .test)
  | .wait, .next => if s.done || s.connClosed k then some (s, .returned) else none
  | _, _ => none

def readPump (s : Client) (k : Nat) : PumpPC → Choice → Option (Client × PumpPC)
  | .select, .next => some (s, if s.done then .signal else .read)
  | .read, .next => s.deref .read (fun j => some (s, .blocked j))
  -- Messages that were received before the connection was closed may still come.
  | .blocked _, .message handled => some (s, .received handled)
  | .blocked _, .fail => some (s, .signal)
  | .received handled, .next => s.deref (.received handled) (fun _ =>
    if handled then some ({ s with processingMessage := true }, .handler)
    else some (s, .select))
  | .handler, .next => some ({ s with processingMessage := false }, .select)
  | .signal, .next =>
    if s.connClosed k then some ({ s with panicked := true }, .signal)
    else some (s.signal k, .test)
  | .test, .next => some (s, if s.conn.isSome then .closeConn else .shutdown)
  | .closeConn, .next => s.deref .closeConn (fun j => some (s.closeConn j, .shutdown))
  | .shutdown, .next => some (s, if s.done then .returned else .lock)
  | .lock, .next => s.lock.map (fun s' => (s', .retest))
  | .retest, .next => some (s, if s.conn.isSome then .closeAgain else .unlock)
  | .closeAgain, .next => s.deref .closeAgain (fun j => some (s.closeConn j, .clear))
  | .clear, .next => some ({ s with conn := none }, .unlock)
  | .unlock, .next => some (s.unlock, .restart)
  | .restart, .next =>
    if s.done then some (s, .returned)
    else
      some ({ s.countRestart k with
        goroutines := s.goroutines ++ [.connectWithRetry .select] }, .returned)
  | _, _ => none

def close (s : Client) : ClosePC → Choice → Option (Client × ClosePC)
  | .select, .next => some (s, if s.done then .returned else .closeDone)
  | .closeDone, .next =>
    if s.done then some ({ s with panicked := true }, .closeDone)
    else some ({ s with done := true }, .test)
  | .test, .next => some (s, if s.conn.isSome then .lock else .returned)
  | .lock, .next => s.lock.map (fun s' => (s', .write))
  -- The outcome of the write is ignored.
  | .write, choice => s.deref .write (s.write choice (fun _ => .unlock))
  | .unlock, .next => some (s.unlock, .closeConn)
  | .closeConn, .next => s.deref .closeConn (fun j => some (s.closeConn j, .returned))
  | _, _ => none

def sendMessage (s : Client) : SendPC → Choice → Option (Client × SendPC)
  | .test, .next => some (s, if s.conn.isNone then .returned false else .lock)
  | .lock, .next => s.lock.map (fun s' => (s', .write))
  | .write, choice => s.deref .write (s.write choice .unlock)
  | .unlock sent, .next => some (s.unlock, .returned sent)
  | _, _ => none

/-- The next step of a goroutine. -/
def move (s : Client) (choice : Choice) : Goroutine → Option (Client × Goroutine)
  | .connectWithRetry pc =>
    (s.connectWithRetry pc choice).map (fun r => (r.1, .connectWithRetry r.2))
  | .pingMonitor k pc => (s.pingMonitor k pc choice).map (fun r => (r.1, .pingMonitor k r.2))
  | .readPump k pc => (s.readPump k pc choice).map (fun r => (r.1, .readPump k r.2))
  | .close pc => (s.close pc choice).map (fun r => (r.1, .close r.2))
  | .sendMessage pc => (s.sendMessage pc choice).map (fun r => (r.1, .sendMessage r.2))

/-- The goroutine `i` moves; those it starts stand behind the others. -/
def go (s : Client) (i : Nat) (choice : Choice) : Option Client :=
  match s.goroutines[i]? with
  | none => none
  | some g =>
    match s.move choice g with
    | none => none
    | some (s', g') => some { s' with goroutines := s'.goroutines.set i g' }

def step (s : Client) (e : Event) : Option Client :=
  if s.panicked then none
  else
    match e with
    | .callClose => some { s with goroutines := s.goroutines ++ [.close .select] }
    | .callSendMessage => some { s with goroutines := s.goroutines ++ [.sendMessage .test] }
    | .go i choice => s.go i choice

end Client

end Newt.Websocket
