import Mathlib.Data.List.AList
import Mathlib.Tactic.MkIffOfInductiveProp
import Newt.Lib.HostPort
import Newt.Lib.Runs

/-!
# The access log

`AccessLogger` keeps the sessions that are open, queues the ones that have
ended and sends them in batches.  Before a batch is sent, bursts of connections
from one source to one destination are merged into one session that counts
them (`consolidateSessions`); a batch that cannot be sent is queued again, as
it was merged, up to a cap.

Every call under the mutex is a step.  A flush is two: it takes the queue, and
later the send function returns; in between, sessions end and other flushes
run.  Times are nanoseconds, 0 is the zero time.  Sessions are shared between
the two maps of open ones, so these hold references.

The system also records, for no step of the code to read, what was delivered
and what the cap dropped, and how many sessions have ended.
-/

namespace Newt.AccessLog

inductive SessionProtocol
  | tcp
  | udp
  deriving DecidableEq, Repr

/-- `AccessSession`.  A count of 0 or 1 is a single connection. -/
structure AccessSession where
  sessionId : String
  resourceId : Int
  sourceAddr : String
  destAddr : String
  protocol : SessionProtocol
  startedAt : Int
  endedAt : Int := 0
  /-- An `int64`, as the one below. -/
  bytesTx : BitVec 64 := 0
  bytesRx : BitVec 64 := 0
  connectionCount : Nat := 0
  deriving DecidableEq, Repr

/-- `udpSessionKey`. -/
structure UdpSessionKey where
  srcAddr : String
  dstAddr : String
  protocol : SessionProtocol := .udp
  deriving DecidableEq, Repr

/-- `consolidationKey`: the source without its port. -/
structure ConsolidationKey where
  sourceIP : String
  destAddr : String
  protocol : SessionProtocol
  resourceId : Int
  deriving DecidableEq, Repr

def maxBufferedSessions : Nat := 100

def sessionGapThreshold : Int := 5000000000

def minConnectionsToConsolidate : Nat := 2

/-- Five minutes. -/
def staleAfter : Int := 300000000000

/-- `extractIP`. -/
def extractIP (addr : String) : String :=
  match HostPort.splitHostPort addr.toList with
  | some (host, _) => String.ofList host
  | none => addr

namespace AccessSession

def consolidationKey (s : AccessSession) : ConsolidationKey :=
  { sourceIP := extractIP s.sourceAddr, destAddr := s.destAddr, protocol := s.protocol,
    resourceId := s.resourceId }

def udpKey (s : AccessSession) : UdpSessionKey :=
  { srcAddr := s.sourceAddr, dstAddr := s.destAddr }

/-- The latest end seen so far, or the start. -/
def gapRef (s : AccessSession) : Int :=
  if s.endedAt = 0 then s.startedAt else s.endedAt

/-- A session merged into the current one. -/
def absorb (cur s : AccessSession) : AccessSession :=
  { cur with
    connectionCount := cur.connectionCount + 1
    bytesTx := cur.bytesTx + s.bytesTx
    bytesRx := cur.bytesRx + s.bytesRx
    endedAt := if cur.endedAt < s.gapRef then s.gapRef else cur.endedAt }

/-- The copy a new merged session starts from. -/
def single (s : AccessSession) : AccessSession :=
  { s with connectionCount := 1 }

end AccessSession

/-- `finalizeMergedSourceAddr`. -/
def finalizeMergedSourceAddr (s : AccessSession) (sourceIP : String) (ports : List String) :
    AccessSession :=
  if ports.length > 1 then { s with sourceAddr := sourceIP } else s

/-- The loop over a sorted group, with the current session and the source
addresses merged into it. -/
def mergeRuns (sourceIP : String) (cur : AccessSession) (ports : List String) :
    List AccessSession → List AccessSession
  | [] => [finalizeMergedSourceAddr cur sourceIP ports]
  | s :: rest =>
    if s.startedAt - cur.gapRef ≤ sessionGapThreshold then
      mergeRuns sourceIP (cur.absorb s) (ports.insert s.sourceAddr) rest
    else
      finalizeMergedSourceAddr cur sourceIP ports ::
        mergeRuns sourceIP s.single [s.sourceAddr] rest

/-- One group, small groups as they are. -/
def mergeGroup (key : ConsolidationKey) (group : List AccessSession) : List AccessSession :=
  if group.length < minConnectionsToConsolidate then group
  else
    match group with
    | [] => []
    | s :: rest => mergeRuns key.sourceIP s.single [s.sourceAddr] rest

/-- The groups of a batch in the order in which the map of groups is ranged
over, each sorted by start.  Neither order is determined. -/
@[mk_iff]
structure Arranges (batch : List AccessSession)
    (groups : List (ConsolidationKey × List AccessSession)) : Prop where
  keys : (groups.map Prod.fst).Perm (batch.map AccessSession.consolidationKey).dedup
  members : ∀ p ∈ groups, p.2.Perm (batch.filter (fun s => s.consolidationKey = p.1))
  sorted : ∀ p ∈ groups, p.2.Pairwise (fun s t => s.startedAt ≤ t.startedAt)

instance (batch : List AccessSession) (groups : List (ConsolidationKey × List AccessSession)) :
    Decidable (Arranges batch groups) :=
  decidable_of_iff' _ (arranges_iff batch groups)

/-- `consolidateSessions`, for an arrangement of its groups. -/
def consolidateSessions (sessions : List AccessSession)
    (groups : List (ConsolidationKey × List AccessSession)) : List AccessSession :=
  if sessions.length ≤ 1 then sessions
  else groups.flatMap (fun p => mergeGroup p.1 p.2)

/-- `AccessLogger`; `sendFn` says whether a send function is set, and `ended` counts the
sessions that have ended. -/
structure AccessLogger where
  heap : Nat → AccessSession
  nextRef : Nat
  sessions : AList (fun _ : String => Nat)
  udpSessions : AList (fun _ : UdpSessionKey => Nat)
  completedSessions : List AccessSession
  sendFn : Bool
  ended : Nat

namespace AccessLogger

/-- A new session in `sessions`. -/
def insertSession (al : AccessLogger) (session : AccessSession) : AccessLogger :=
  { al with
    heap := Function.update al.heap al.nextRef session
    nextRef := al.nextRef + 1
    sessions := al.sessions.insert session.sessionId al.nextRef }

/-- `StartTCPSession`, with the ID it generates. -/
def startTCPSession (al : AccessLogger) (sessionId : String) (resourceId : Int)
    (srcAddr dstAddr : String) (now : Int) : AccessLogger :=
  al.insertSession
    { sessionId := sessionId, resourceId := resourceId, sourceAddr := srcAddr,
      destAddr := dstAddr, protocol := .tcp, startedAt := now }

/-- `TrackUDPSession`: one session for each pair of addresses. -/
def trackUDPSession (al : AccessLogger) (sessionId : String) (resourceId : Int)
    (srcAddr dstAddr : String) (now : Int) : AccessLogger :=
  let session : AccessSession :=
    { sessionId := sessionId, resourceId := resourceId, sourceAddr := srcAddr,
      destAddr := dstAddr, protocol := .udp, startedAt := now }
  match al.udpSessions.lookup session.udpKey with
  | some _ => al
  | none =>
    { al.insertSession session with udpSessions := al.udpSessions.insert session.udpKey al.nextRef }

/-- The session behind a reference ends and is queued. -/
def complete (al : AccessLogger) (ref : Nat) (now : Int) : AccessLogger :=
  let session := { al.heap ref with endedAt := now }
  { al with
    heap := Function.update al.heap ref session
    completedSessions := al.completedSessions ++ [session]
    ended := al.ended + 1 }

/-- `EndTCPSession`, up to the flush. -/
def endTCPSession (al : AccessLogger) (sessionId : String) (now : Int) : AccessLogger :=
  match al.sessions.lookup sessionId with
  | none => al
  | some ref => { al.complete ref now with sessions := al.sessions.erase sessionId }

/-- `EndUDPSession`, up to the flush. -/
def endUDPSession (al : AccessLogger) (sessionId : String) (now : Int) : AccessLogger :=
  match al.sessions.lookup sessionId with
  | none => al
  | some ref =>
    { al.complete ref now with
      sessions := al.sessions.erase sessionId
      udpSessions := al.udpSessions.erase (al.heap ref).udpKey }

/-- The body of the loop of `reapStaleSessions`. -/
def reapKey (now : Int) (al : AccessLogger) (key : UdpSessionKey) : AccessLogger :=
  match al.udpSessions.lookup key with
  | none => al
  | some ref =>
    let session := al.heap ref
    if session.startedAt < now - staleAfter ∧ session.endedAt = 0 then
      { al.complete ref now with
        sessions := al.sessions.erase session.sessionId
        udpSessions := al.udpSessions.erase key }
    else al

/-- `reapStaleSessions`, for an order of the keys. -/
def reapStaleSessions (al : AccessLogger) (order : List UdpSessionKey) (now : Int) :
    AccessLogger :=
  order.foldl (reapKey now) al

/-- The body of the loop of `Close`. -/
def shutdownSession (now : Int) (al : AccessLogger) (sessionId : String) : AccessLogger :=
  match al.sessions.lookup sessionId with
  | none => al
  | some ref => if (al.heap ref).endedAt = 0 then al.complete ref now else al

/-- `Close`, up to the final flush, for an order of the open sessions. -/
def close (al : AccessLogger) (order : List String) (now : Int) : AccessLogger :=
  { order.foldl (shutdownSession now) al with sessions := ∅, udpSessions := ∅ }

/-- The end of a failed send: the batch comes back, up to the cap. -/
def requeue (al : AccessLogger) (batch : List AccessSession) : AccessLogger :=
  { al with
    completedSessions := (batch ++ al.completedSessions).take (maxBufferedSessions * 5) }

end AccessLogger

/-- How the second half of a flush ends. -/
inductive Outcome
  | compressError
  | sendError
  | sent
  deriving DecidableEq, Repr

/-- The logger, the batches that are being sent, and what is recorded. -/
structure Sys where
  logger : AccessLogger
  sending : List (List AccessSession)
  delivered : List AccessSession
  dropped : List AccessSession

inductive Event
  | startTCP (sessionId : String) (resourceId : Int) (srcAddr dstAddr : String) (now : Int)
  | endTCP (sessionId : String) (now : Int)
  | trackUDP (sessionId : String) (resourceId : Int) (srcAddr dstAddr : String) (now : Int)
  | endUDP (sessionId : String) (now : Int)
  | reap (order : List UdpSessionKey) (now : Int)
  | close (order : List String) (now : Int)
  /-- `flush` takes the queue. -/
  | flush
  /-- The send of a batch is over. -/
  | finish (i : Nat) (groups : List (ConsolidationKey × List AccessSession)) (outcome : Outcome)

namespace Sys

/-- A call that only starts or ends sessions. -/
def withLogger (s : Sys) (logger : AccessLogger) : Sys :=
  { s with logger := logger }

/-- The first half of `flush`. -/
def onFlush (s : Sys) : Sys :=
  if s.logger.completedSessions = [] then s
  else
    { s with
      logger := { s.logger with completedSessions := [] }
      sending := if s.logger.sendFn then s.sending ++ [s.logger.completedSessions]
        else s.sending }

/-- The second half of `flush`, for a batch. -/
def onFinish (s : Sys) (i : Nat) (batch : List AccessSession)
    (groups : List (ConsolidationKey × List AccessSession)) (outcome : Outcome) : Sys :=
  let merged := consolidateSessions batch groups
  let rest := { s with sending := s.sending.eraseIdx i }
  match outcome with
  | .compressError => rest
  | .sent => { rest with delivered := s.delivered ++ merged }
  | .sendError =>
    { rest with
      logger := s.logger.requeue merged
      dropped := s.dropped ++
        (merged ++ s.logger.completedSessions).drop (maxBufferedSessions * 5) }

def step (s : Sys) : Event → Option Sys
  | .startTCP id resourceId src dst now =>
    some (s.withLogger (s.logger.startTCPSession id resourceId src dst now))
  | .endTCP id now => some (s.withLogger (s.logger.endTCPSession id now))
  | .trackUDP id resourceId src dst now =>
    some (s.withLogger (s.logger.trackUDPSession id resourceId src dst now))
  | .endUDP id now => some (s.withLogger (s.logger.endUDPSession id now))
  | .reap order now =>
    if order.Perm s.logger.udpSessions.keys then
      some (s.withLogger (s.logger.reapStaleSessions order now))
    else none
  | .close order now =>
    if order.Perm s.logger.sessions.keys then some (s.withLogger (s.logger.close order now))
    else none
  | .flush => some s.onFlush
  | .finish i groups outcome =>
    (s.sending[i]?).bind (fun batch =>
      if Arranges batch groups then some (s.onFinish i batch groups outcome) else none)

/-- A new logger with its send function. -/
def fresh : Sys :=
  { logger :=
      { heap := fun _ =>
          { sessionId := "", resourceId := 0, sourceAddr := "", destAddr := "",
            protocol := .tcp, startedAt := 0 }
        nextRef := 0, sessions := ∅, udpSessions := ∅, completedSessions := [], sendFn := true,
        ended := 0 }
    sending := [], delivered := [], dropped := [] }

end Sys

end Newt.AccessLog
