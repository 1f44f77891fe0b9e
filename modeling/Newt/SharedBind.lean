import Mathlib.Algebra.Group.Nat.Defs
import Mathlib.Algebra.Ring.Int.Defs
import Mathlib.Tactic.Common

/-!
# The shared UDP bind

`SharedBind` lets the WireGuard device and the hole-punch manager use one UDP
socket.  It counts references and closes the socket when the last one is
released; `CloseSocket` and `Rebind` replace the socket under running receivers.

A function whose parts other goroutines can come between is a program counter
and a step: `Release` with `closeConnection` it calls, and the receive function
that `makeReceiveSocket` returns.  A section under the lock is one step.  The
flag `closed` is set without the lock, but nothing else in such a section
depends on it after its check, so the section can be taken to happen at the
check.

The reads of a socket and the magic test packets they answer are outside: a
read either returns a number of packets or fails.
-/

namespace Newt.Bind

/-- A UDP socket, with the port it is bound to.  Sockets are told apart by the
order of their creation. -/
structure UDPConn where
  id : Nat
  port : UInt16
  deriving DecidableEq, Repr

/-- The value an `atomic.Int32` holds after an addition. -/
def int32 (n : Int) : Int :=
  Int.bmod n (2 ^ 32)

/-- The largest `int32`. -/
def maxInt32 : Int :=
  2 ^ 31 - 1

theorem int32_eq {n : Int} (h0 : 0 ≤ n) (h1 : n ≤ maxInt32) : int32 n = n := by
  unfold maxInt32 at h1
  exact Int.bmod_eq_of_le (by omega) (by omega)

/-- The fields of `SharedBind`, and the sockets it has closed. -/
structure SharedBind where
  udpConn : Option UDPConn
  ipv4PC : Option UDPConn
  refCount : Int
  closed : Bool
  port : UInt16
  rebinding : Bool
  /-- Every socket close so far; no step of the code reads it. -/
  closedConns : List UDPConn
  deriving DecidableEq, Repr

/-- Where a call of `Release` is. -/
inductive ReleasePC
  /-- Before `refCount.Add(-1)`. -/
  | decrement
  /-- The new count is negative. -/
  | reset
  /-- The new count is zero: before `closed.CompareAndSwap`. -/
  | closeConnection
  /-- This call has set `closed` and is about to close the socket. -/
  | closing
  | returned (err : Option String)
  deriving DecidableEq, Repr

/-- Why a receive function returns an error. -/
inductive RecvError
  | errClosed
  | read
  deriving DecidableEq, Repr

/-- Where a call of a socket receive function is. -/
inductive RecvPC
  /-- At the head of the loop. -/
  | top
  /-- Before the copy of the socket fields. -/
  | snapshot
  /-- The copied socket was nil. -/
  | nilConn
  /-- Waiting for the end of the rebind. -/
  | waiting
  /-- After the wait. -/
  | woken
  /-- In the read of a socket. -/
  | reading (conn : UDPConn)
  /-- The read has failed, before `rebinding` is sampled. -/
  | failed (conn : UDPConn)
  | packets (n : Nat)
  | error (err : RecvError)
  deriving DecidableEq, Repr

namespace SharedBind

/-- The bind `New` creates from an open socket. -/
def new (udpConn : Option UDPConn) : Except String SharedBind :=
  match udpConn with
  | none => .error "udpConn cannot be nil"
  | some c =>
    .ok { udpConn := some c, ipv4PC := none, refCount := 1, closed := false, port := c.port,
          rebinding := false, closedConns := [] }

def addRef (b : SharedBind) : SharedBind :=
  { b with refCount := int32 (b.refCount + 1) }

/-- Close the current socket, if there is one. -/
def closeConn (b : SharedBind) : SharedBind :=
  { b with udpConn := none, closedConns := b.udpConn.toList ++ b.closedConns }

/-- The next step of a call of `Release`. -/
def release (b : SharedBind) : ReleasePC → Option (SharedBind × ReleasePC)
  | .decrement =>
    let newCount := int32 (b.refCount - 1)
    let b' := { b with refCount := newCount }
    if newCount < 0 then some (b', .reset)
    else if newCount = 0 then some (b', .closeConnection)
    else some (b', .returned none)
  | .reset =>
    some ({ b with refCount := 0 }, .returned (some "SharedBind reference count went negative"))
  | .closeConnection =>
    if b.closed then some (b, .returned none)
    else some ({ b with closed := true }, .closing)
  | .closing => some ({ b.closeConn with ipv4PC := none }, .returned none)
  | .returned _ => none

/-- The first step of `Release` while there is a reference. -/
theorem release_decrement {b : SharedBind} (h0 : 0 < b.refCount) (h1 : b.refCount ≤ maxInt32) :
    b.release .decrement =
      some ({ b with refCount := b.refCount - 1 },
        if b.refCount - 1 = 0 then .closeConnection else .returned none) := by
  have hcount : int32 (b.refCount - 1) = b.refCount - 1 := int32_eq (by omega) (by omega)
  have hneg : ¬ b.refCount - 1 < 0 := by omega
  simp only [release, hcount, hneg, if_false]
  split <;> rfl

/-- `CloseSocket`: the port that was in use, or an error. -/
def closeSocket (b : SharedBind) : SharedBind × Except String UInt16 :=
  if b.closed then (b, .error "bind is closed")
  else ({ b.closeConn with rebinding := true }, .ok b.port)

/-- `Rebind` to a new socket. -/
def rebind (b : SharedBind) (newConn : Option UDPConn) : SharedBind × Except String Unit :=
  match newConn with
  | none => (b, .error "newConn cannot be nil")
  | some c =>
    if b.closed then (b, .error "bind is closed")
    else
      ({ b.closeConn with
         udpConn := some c, ipv4PC := some c, port := c.port, rebinding := false }, .ok ())

/-- `Open`, on Linux or Android (`linux`) and elsewhere.  It returns the port;
the receive functions it returns are started by their own events. -/
def openBind (b : SharedBind) (linux : Bool) : SharedBind × Except String UInt16 :=
  if b.closed then (b, .error "use of closed network connection")
  else
    match b.udpConn with
    | none => (b, .error "use of closed network connection")
    | some c => ({ b with ipv4PC := if linux then some c else b.ipv4PC }, .ok b.port)

/-- The next step of a receive function.  `readResult` is the outcome of the
read it is in, `none` for a failure. -/
def receive (b : SharedBind) (linux : Bool) (readResult : Option Nat) : RecvPC → Option RecvPC
  | .top => some (if b.closed then .error .errClosed else .snapshot)
  | .snapshot =>
    match b.udpConn with
    | none => some .nilConn
    | some c =>
      match b.ipv4PC with
      | some pc => some (.reading (if linux then pc else c))
      | none => some (.reading c)
  | .nilConn => some (if b.closed then .error .errClosed else .waiting)
  -- The loop around `Wait`: the goroutine goes on only when its condition is false.
  | .waiting => if b.rebinding && !b.closed then none else some .woken
  | .woken => some (if b.closed then .error .errClosed else .top)
  | .reading c =>
    match readResult with
    | some n => some (.packets n)
    | none => some (.failed c)
  | .failed _ => some (if b.rebinding then .waiting else .error .read)
  | .packets _ | .error _ => none

end SharedBind

end Newt.Bind
