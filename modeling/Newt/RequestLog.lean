import Newt.AccessLog
import Newt.Lib.BatchLedger
import Newt.Lib.Tasks

/-!
# The HTTP request log

`HTTPRequestLogger` buffers the requests that were proxied and sends them in
batches.  A flush takes the whole buffer under the mutex, compresses and sends it
outside, and puts it back in front of the buffer if the send has failed, up to a
cap.  Flushes are started by the background loop, by a request that fills the
buffer and by `Close`, and any number of them may be under way.

Every section under the mutex is a step.  The system also numbers the calls of
`LogRequest` and records, for no step of the code to read, what was logged, which
batches were taken, and what was sent or discarded.

Main result: `requests_accounted`, in every run each logged request is in one
place, batches keep their order, and a batch that comes back leaves at most 500
requests in the buffer.
-/

namespace Newt.RequestLog

open AccessLog (maxBufferedSessions Outcome)

structure HTTPRequestLog where
  requestID : String
  resourceID : Int
  timestamp : Int
  method : String
  scheme : String
  host : String
  path : String
  rawQuery : String
  userAgent : String
  sourceAddr : String
  tls : Bool
  deriving DecidableEq, Repr

/-- A logged request and the number of the call that logged it. -/
structure Entry where
  call : Nat
  log : HTTPRequestLog
  deriving DecidableEq, Repr

/-- Where a call of `flush` is. -/
inductive FlushPC
  | start
  | sending (batch : List Entry)
  | returned
  deriving DecidableEq, Repr

/-- The batch a flush is sending. -/
def FlushPC.batch : FlushPC → Option (List Entry)
  | .sending batch => some batch
  | _ => none

/-- Who has called `flush`. -/
inductive Caller
  | logRequest
  | loop
  | close
  deriving DecidableEq, Repr

structure Flush where
  caller : Caller
  pc : FlushPC := .start
  deriving DecidableEq, Repr

structure Sys where
  pending : List Entry
  sendFn : Bool
  /-- `stopCh` is closed. -/
  stopped : Bool
  /-- `flushDone` is closed. -/
  loopEnded : Bool
  /-- `Close` waits for the background loop. -/
  closing : Bool
  flushes : List Flush
  logged : List Entry
  batches : List (List Entry)
  sent : List (List Entry)
  discarded : List Entry

inductive Event
  /-- `LogRequest`, with the ID it generates for a request without one. -/
  | logRequest (log : HTTPRequestLog) (generated : String)
  | setSendFunc (set : Bool)
  /-- The ticker of the background loop. -/
  | tick
  /-- The background loop finds `stopCh` closed. -/
  | endLoop
  | close
  /-- `Close` has waited for the background loop. -/
  | finalFlush
  /-- A flush takes the buffer. -/
  | take (i : Nat)
  /-- The send of a flush is over. -/
  | finish (i : Nat) (outcome : Outcome)
  deriving DecidableEq, Repr

namespace Sys

/-- `NewHTTPRequestLogger`. -/
def init : Sys :=
  { pending := [], sendFn := false, stopped := false, loopEnded := false, closing := false,
    flushes := [], logged := [], batches := [], sent := [], discarded := [] }

/-- `flush` is called. -/
def flush (s : Sys) (caller : Caller) : Sys :=
  { s with flushes := s.flushes ++ [{ caller := caller }] }

def setFlush (s : Sys) (i : Nat) (f : Flush) (pc : FlushPC) : Sys :=
  { s with flushes := s.flushes.set i { f with pc := pc } }

/-- `LogRequest`, up to its flush. -/
def logRequest (s : Sys) (log : HTTPRequestLog) (generated : String) : Sys :=
  let log := if log.requestID = "" then { log with requestID := generated } else log
  let entry : Entry := { call := s.logged.length, log := log }
  let s := { s with pending := s.pending ++ [entry], logged := s.logged ++ [entry] }
  if s.pending.length ≥ maxBufferedSessions then s.flush .logRequest else s

/-- The background loop is in a flush. -/
def loopFlushes (s : Sys) : Bool :=
  s.flushes.any (fun f => f.caller = .loop ∧ f.pc ≠ .returned)

/-- The first section of `flush`. -/
def takeBatch (s : Sys) (i : Nat) (f : Flush) : Sys :=
  if s.pending = [] then s.setFlush i f .returned
  else
    let taken := { s with pending := [], batches := s.batches ++ [s.pending] }
    if s.sendFn then taken.setFlush i f (.sending s.pending)
    else { taken.setFlush i f .returned with discarded := s.discarded ++ s.pending }

/-- The end of `flush`, when its send is over. -/
def finishBatch (s : Sys) (i : Nat) (f : Flush) (batch : List Entry) (outcome : Outcome) : Sys :=
  let s := s.setFlush i f .returned
  match outcome with
  | .compressError => { s with discarded := s.discarded ++ batch }
  | .sent => { s with sent := s.sent ++ [batch] }
  | .sendError =>
    let pending := batch ++ s.pending
    if pending.length > maxBufferedSessions * 5 then
      { s with
        pending := pending.take (maxBufferedSessions * 5)
        discarded := s.discarded ++ pending.drop (maxBufferedSessions * 5) }
    else { s with pending := pending }

def step (s : Sys) : Event → Option Sys
  | .logRequest log generated => some (s.logRequest log generated)
  | .setSendFunc set => some { s with sendFn := set }
  | .tick => if s.loopEnded ∨ s.loopFlushes then none else some (s.flush .loop)
  | .endLoop =>
    if s.stopped ∧ ¬ s.loopEnded ∧ ¬ s.loopFlushes then some { s with loopEnded := true }
    else none
  | .close => if s.stopped then some s else some { s with stopped := true, closing := true }
  | .finalFlush =>
    if s.closing ∧ s.loopEnded then some ({ s with closing := false }.flush .close) else none
  | .take i =>
    match s.flushes[i]? with
    | some f => if f.pc = .start then some (s.takeBatch i f) else none
    | none => none
  | .finish i outcome =>
    match s.flushes[i]? with
    | some f =>
      match f.pc with
      | .sending batch => some (s.finishBatch i f batch outcome)
      | _ => none
    | none => none

/-- The batches that are being sent. -/
def inFlight (s : Sys) : List (List Entry) :=
  s.flushes.filterMap (fun f => f.pc.batch)

/-- Every logged request is in one place, once, and wherever requests of one batch
are together they are in its order. -/
structure Accounted (s : Sys) : Prop where
  places : (s.pending ++ s.inFlight.flatten ++ s.sent.flatten ++ s.discarded).Perm s.logged
  distinct : s.logged.Nodup
  ordered : ∀ batch ∈ s.batches, ∀ l ∈ s.pending :: (s.inFlight ++ s.sent),
    (l.filter (· ∈ batch)).Sublist batch

/-- The ledger of the requests: a batch is out while it is in flight and when it
was sent. -/
def ledger (s : Sys) : Batch.Ledger Entry :=
  { pending := s.pending, out := s.inFlight ++ s.sent, lost := s.discarded, taken := s.batches,
    all := s.logged }

/-- The invariant: the ledger is sound, and calls are numbered. -/
structure Sound (s : Sys) : Prop where
  ledger : s.ledger.Sound
  numbered : ∀ e ∈ s.logged, e.call < s.logged.length

theorem sound_init : init.Sound where
  ledger := ⟨List.Perm.refl _, List.nodup_nil, fun _ h => (nomatch h), fun _ h => (nomatch h),
    fun _ h => (nomatch h)⟩
  numbered _ h := (nomatch h)

theorem Sound.accounted {s : Sys} (h : s.Sound) : s.Accounted where
  places := by
    have hplaces := h.ledger.places
    simp only [Sys.ledger, List.flatten_append, ← List.append_assoc] at hplaces
    exact hplaces
  distinct := h.ledger.distinct
  ordered := h.ledger.ordered

variable {s : Sys} {i : Nat} {f : Flush}

theorem inFlight_flush (s : Sys) (caller : Caller) : (s.flush caller).inFlight = s.inFlight := by
  simp [inFlight, flush, FlushPC.batch]

theorem Sound.flush (h : s.Sound) (caller : Caller) : (s.flush caller).Sound := by
  refine ⟨?_, h.numbered⟩
  have hledger : (s.flush caller).ledger = s.ledger := by
    unfold Sys.ledger
    rw [inFlight_flush]
    rfl
  exact hledger ▸ h.ledger

theorem Sound.logRequest (h : s.Sound) (log : HTTPRequestLog) (generated : String) :
    (s.logRequest log generated).Sound := by
  have hpush : ∀ {entry : Entry}, entry.call = s.logged.length →
      Sound { s with pending := s.pending ++ [entry], logged := s.logged ++ [entry] } := by
    intro entry hcall
    have hnew : entry ∉ s.logged := by
      intro hmem
      have hlt := h.numbered entry hmem
      omega
    refine ⟨h.ledger.push hnew, fun e he => ?_⟩
    rw [List.length_append, List.length_singleton]
    rcases List.mem_append.mp he with he | he
    · have hlt := h.numbered e he
      omega
    · rw [List.mem_singleton.mp he, hcall]
      omega
  unfold Sys.logRequest
  dsimp only
  generalize (if log.requestID = "" then { log with requestID := generated } else log) = log
  split
  · exact Sound.flush (hpush rfl) .logRequest
  · exact hpush rfl

/-- A flush gives up the batch it had and holds another one. -/
theorem inFlight_setFlush (hi : s.flushes[i]? = some f) (pc : FlushPC) :
    (f.pc.batch.toList ++ (s.setFlush i f pc).inFlight).Perm (pc.batch.toList ++ s.inFlight) :=
  Tasks.filterMap_set_perm (fun f : Flush => f.pc.batch) hi

theorem Sound.takeBatch (h : s.Sound) (hi : s.flushes[i]? = some f) (hpc : f.pc = .start) :
    (s.takeBatch i f).Sound := by
  have hout : ∀ pc : FlushPC,
      (s.setFlush i f pc).inFlight.Perm (pc.batch.toList ++ s.inFlight) := by
    intro pc
    have hperm := inFlight_setFlush hi pc
    rw [hpc] at hperm
    exact hperm
  unfold Sys.takeBatch
  split
  · exact ⟨h.ledger.reorder ((hout .returned).symm.append_right _), h.numbered⟩
  · split
    · exact ⟨h.ledger.take.reorder ((hout (.sending s.pending)).symm.append_right _), h.numbered⟩
    · exact ⟨(h.ledger.take.lose rfl).reorder ((hout .returned).symm.append_right _), h.numbered⟩

/-- The batch of a flush is the first one that is out. -/
theorem Sound.batch_first (h : s.Sound) {batch : List Entry} (hi : s.flushes[i]? = some f)
    (hpc : f.pc = .sending batch) :
    Batch.Ledger.Sound
      { s.ledger with out := batch :: ((s.setFlush i f .returned).inFlight ++ s.sent) } := by
  have hperm := inFlight_setFlush hi .returned
  rw [hpc] at hperm
  exact h.ledger.reorder (hperm.symm.append_right s.sent)

theorem Sound.finishBatch (h : s.Sound) {batch : List Entry} {outcome : Outcome}
    (hi : s.flushes[i]? = some f) (hpc : f.pc = .sending batch) :
    (s.finishBatch i f batch outcome).Sound := by
  have hfirst := h.batch_first hi hpc
  unfold Sys.finishBatch
  cases outcome with
  | compressError => exact ⟨hfirst.lose rfl, h.numbered⟩
  | sent =>
    refine ⟨hfirst.reorder ?_, h.numbered⟩
    rw [← List.append_assoc]
    exact (List.perm_append_singleton _ _).symm
  | sendError =>
    have hback := hfirst.putBack rfl (maxBufferedSessions * 5)
    dsimp only
    split
    · exact ⟨hback, h.numbered⟩
    · next hle =>
      have hlen : (batch ++ s.pending).length ≤ maxBufferedSessions * 5 := Nat.not_lt.mp hle
      dsimp only [Sys.ledger] at hback
      rw [List.take_of_length_le hlen, List.drop_of_length_le hlen, List.append_nil] at hback
      exact ⟨hback, h.numbered⟩

theorem Sound.step (h : s.Sound) {e : Event} {s' : Sys} (hstep : s.step e = some s') :
    s'.Sound := by
  cases e with
  | logRequest log generated =>
    cases hstep
    exact h.logRequest log generated
  | setSendFunc set =>
    cases hstep
    exact ⟨h.ledger, h.numbered⟩
  | tick =>
    obtain ⟨_, heq⟩ := Option.ite_none_left_eq_some.mp hstep
    cases heq
    exact h.flush .loop
  | endLoop =>
    obtain ⟨_, heq⟩ := Option.ite_none_right_eq_some.mp hstep
    cases heq
    exact ⟨h.ledger, h.numbered⟩
  | close =>
    simp only [Sys.step] at hstep
    split at hstep <;> cases hstep
    · exact h
    · exact ⟨h.ledger, h.numbered⟩
  | finalFlush =>
    obtain ⟨_, heq⟩ := Option.ite_none_right_eq_some.mp hstep
    cases heq
    have hidle : Sound { s with closing := false } := ⟨h.ledger, h.numbered⟩
    exact hidle.flush .close
  | take i =>
    simp only [Sys.step] at hstep
    split at hstep
    · next f hi =>
      obtain ⟨hpc, heq⟩ := Option.ite_none_right_eq_some.mp hstep
      cases heq
      exact h.takeBatch hi hpc
    · cases hstep
  | finish i outcome =>
    simp only [Sys.step] at hstep
    split at hstep
    · next f hi =>
      split at hstep
      · next batch hpc =>
        cases hstep
        exact h.finishBatch hi hpc
      · cases hstep
    · cases hstep

/-- A batch that comes back leaves at most 500 requests in the buffer. -/
theorem length_pending_finish {s' : Sys} (hstep : s.step (.finish i .sendError) = some s') :
    s'.pending.length ≤ 500 := by
  simp only [step] at hstep
  split at hstep
  · split at hstep <;> cases hstep
    unfold finishBatch
    dsimp only
    split
    · exact List.length_take_le _ _
    · next hle => exact Nat.not_lt.mp hle
  · cases hstep

/-- **Requests are accounted for**: in every run each logged request is in the
buffer, in one batch in flight, sent or discarded, once; batches keep their
order; and a batch that comes back is cut to the cap. -/
theorem requests_accounted (es : List Event) (s : Sys) (hrun : Runs.run step init es = some s) :
    s.Accounted ∧ ∀ i s', s.step (.finish i .sendError) = some s' → s'.pending.length ≤ 500 := by
  have hsound : s.Sound :=
    Runs.run_always (fun h hstep => Sound.step h hstep) sound_init hrun
  exact ⟨hsound.accounted, fun i s' hstep => length_pending_finish hstep⟩

/-- A request to a path. -/
def request (path : String) : HTTPRequestLog :=
  { requestID := path, resourceID := 1, timestamp := 0, method := "GET", scheme := "http",
    host := "app", path := path, rawQuery := "", userAgent := "", sourceAddr := "10.0.0.1:1000",
    tls := false }

/-- A batch whose send fails while another request is logged, and the final flush
of `Close`. -/
def failedBatch : List Event :=
  [.setSendFunc true, .logRequest (request "/a") "", .logRequest (request "/b") "", .tick, .take 0,
    .logRequest (request "/c") "", .finish 0 .sendError, .close, .endLoop, .finalFlush, .take 1,
    .finish 1 .sent]

theorem failedBatch_accounted :
    ∃ s, Runs.run step init failedBatch = some s ∧
      s.sent = [[⟨0, request "/a"⟩, ⟨1, request "/b"⟩, ⟨2, request "/c"⟩]] ∧
      s.Accounted := by
  simp only [← and_assoc]
  exact Exists.imp (fun s h => ⟨h, (requests_accounted failedBatch s h.1).1⟩) (by decide)

end Sys

end Newt.RequestLog
