import Newt.AccessSessions
import Newt.Lib.Tasks

/-!
# UDP handlers and their access sessions

A UDP handler gets the ID of an access session from `TrackUDPSession`, forwards until
`pipeUDP` returns, and ends the session in a deferred call.  Handlers with the same
addresses share a session, which has no count of them, and the reaper ends a session
five minutes after its start.  So a session can end while a handler forwards
(`session_ends_while_forwarding`).

It does not where no handler starts for the addresses of one that has not returned, and
no handler forwards for longer than five minutes: `sessions_outlive_handlers`.
-/

namespace Newt.AccessLog

open List AccessLogger.Tracked Tasks AccessLogger Option Runs AccessSession

/-- A UDP handler that has an access session. -/
structure UdpHandler where
  key : UdpSessionKey
  sessionId : String
  started : Int
  /-- When `pipeUDP` returned, or the handler gave up before. -/
  stopped : Option Int := none
  /-- The deferred `EndUDPSession` has run. -/
  returned : Bool := false
  deriving DecidableEq, Repr

/-- The ID `TrackUDPSession` returns. -/
def AccessLogger.trackedID (al : AccessLogger) (sessionId srcAddr dstAddr : String) : String :=
  match al.udpSessions.lookup { srcAddr := srcAddr, dstAddr := dstAddr } with
  | some ref => (al.heap ref).sessionId
  | none => sessionId

/-- The handlers, the access log, and the time of the last reading of the clock that
another goroutine can have seen. -/
structure Forwarder where
  log : History
  handlers : List UdpHandler
  clock : Int

inductive UdpEvent
  /-- `handleUDPConn` up to `TrackUDPSession`. -/
  | start (sessionId : String) (resourceId : Int) (srcAddr dstAddr : String) (now : Int)
  /-- A handler stops forwarding. -/
  | stop (i : Nat) (now : Int)
  /-- Its deferred `EndUDPSession`. -/
  | finish (i : Nat) (now : Int)
  | reap (order : List UdpSessionKey) (now : Int)
  | flush
  /-- The send of a batch is over. -/
  | sent (i : Nat) (groups : List (ConsolidationKey × List AccessSession)) (outcome : Outcome)

namespace Forwarder

/-- One step.  The clock is read under the mutex but for `EndUDPSession`, which reads it
before, though not before its handler stopped. -/
def step (s : Forwarder) : UdpEvent → Option Forwarder
  | .start id resourceId src dst now =>
    if s.clock ≤ now then
      (s.log.step (.trackUDP id resourceId src dst now)).map (fun log =>
        { log := log
          handlers := s.handlers ++
            [{ key := { srcAddr := src, dstAddr := dst }
               sessionId := s.log.sys.logger.trackedID id src dst, started := now }]
          clock := now })
    else none
  | .stop i now =>
    (s.handlers[i]?).bind (fun h =>
      if h.stopped = none ∧ s.clock ≤ now then
        some { s with handlers := s.handlers.set i { h with stopped := some now }, clock := now }
      else none)
  | .finish i now =>
    (s.handlers[i]?).bind (fun h => h.stopped.bind (fun t =>
      if h.returned = false ∧ t ≤ now then
        (s.log.step (.endUDP h.sessionId now)).map (fun log =>
          { s with log := log, handlers := s.handlers.set i { h with returned := true } })
      else none))
  | .reap order now =>
    if s.clock ≤ now then
      (s.log.step (.reap order now)).map (fun log => { s with log := log, clock := now })
    else none
  | .flush => (s.log.step .flush).map (fun log => { s with log := log })
  | .sent i groups outcome =>
    (s.log.step (.finish i groups outcome)).map (fun log => { s with log := log })

/-- What is assumed of a step: a generated ID is new, a handler starts only when the
handlers for its addresses have returned, and when sessions are reaped every handler that
forwards started at most five minutes ago. -/
def Calm (s : Forwarder) : UdpEvent → Prop
  | .start id _ src dst _ => id ∉ s.log.generated ∧
      ∀ h ∈ s.handlers, h.returned = false → h.key ≠ { srcAddr := src, dstAddr := dst }
  | .reap _ now => ∀ h ∈ s.handlers, h.stopped = none → now - staleAfter ≤ h.started
  | .stop _ _ | .finish _ _ | .flush | .sent _ _ _ => True

instance (s : Forwarder) (e : UdpEvent) : Decidable (s.Calm e) := by
  unfold Calm
  split <;> infer_instance

end Forwarder

/-- **A session that has ended was not in use any more**: every handler with its ID had
stopped by then. -/
def Unused (al : AccessLogger) (handlers : List UdpHandler) : Prop :=
  ∀ ref < al.nextRef, (al.heap ref).endedAt ≠ 0 →
    ∀ h ∈ handlers, h.sessionId = (al.heap ref).sessionId →
      ∃ t ∈ h.stopped, t ≤ (al.heap ref).endedAt

instance (al : AccessLogger) (handlers : List UdpHandler) : Decidable (Unused al handlers) :=
  inferInstanceAs (Decidable (∀ ref < al.nextRef, _ → ∀ h ∈ handlers, _ → ∃ t ∈ h.stopped, _))

namespace AccessLogger

/-- Some of the open sessions that meet a condition end, and nothing else changes in any
session. -/
structure Closes (C : AccessSession → Prop) (now : Int) (al al' : AccessLogger) : Prop where
  nextRef : al'.nextRef = al.nextRef
  heap : ∀ ref, al'.heap ref = al.heap ref ∨
    (C (al.heap ref) ∧ (al.heap ref).endedAt = 0 ∧
      al'.heap ref = { al.heap ref with endedAt := now })

variable {C : AccessSession → Prop} {now : Int} {al al' al'' : AccessLogger}

theorem Closes.refl (C : AccessSession → Prop) (now : Int) (al : AccessLogger) :
    Closes C now al al :=
  ⟨rfl, fun _ => .inl rfl⟩

theorem Closes.trans (hnow : now ≠ 0) (h : Closes C now al al') (h' : Closes C now al' al'') :
    Closes C now al al'' := by
  refine ⟨h'.nextRef.trans h.nextRef, fun ref => ?_⟩
  rcases h.heap ref with heq | ⟨hC, hopen, heq⟩
  · rw [← heq]
    exact h'.heap ref
  · rcases h'.heap ref with heq' | ⟨-, hopen', -⟩
    · exact .inr ⟨hC, hopen, heq'.trans heq⟩
    · rw [heq] at hopen'
      exact absurd hopen' hnow

/-- One session ends; the queue and the maps do not matter. -/
theorem closes_of_heap {ref : Nat} (hC : C (al.heap ref)) (hopen : (al.heap ref).endedAt = 0)
    (hnext : al'.nextRef = al.nextRef)
    (hheap : al'.heap = Function.update al.heap ref { al.heap ref with endedAt := now }) :
    Closes C now al al' := by
  refine ⟨hnext, fun r => ?_⟩
  rw [hheap]
  by_cases hr : r = ref
  · subst hr
    rw [Function.update_self]
    exact .inr ⟨hC, hopen, rfl⟩
  · rw [Function.update_of_ne hr]
    exact .inl rfl

theorem Tracked.closes_endUDPSession {generated : List String} {appended : List AccessSession}
    (h : al.Tracked generated appended) (id : String) (now : Int) :
    Closes (fun session => session.sessionId = id) now al (al.endUDPSession id now) := by
  unfold AccessLogger.endUDPSession
  split
  · exact Closes.refl _ now al
  · next ref hin =>
    obtain ⟨-, hid, hopen⟩ := (h.live id ref).mp hin
    exact closes_of_heap hid hopen rfl rfl

theorem lookup_endUDPSession (al : AccessLogger) (id : String) (now : Int) :
    (al.endUDPSession id now).sessions.lookup id = none := by
  unfold endUDPSession
  split
  · assumption
  · exact AList.lookup_erase _ _

theorem closes_reapKey (now : Int) (al : AccessLogger) (key : UdpSessionKey) :
    Closes (fun session => session.startedAt < now - staleAfter) now al (reapKey now al key) := by
  unfold reapKey
  split
  · exact Closes.refl _ now al
  · dsimp only
    split
    · next hstale => exact closes_of_heap hstale.1 hstale.2 rfl rfl
    · exact Closes.refl _ now al

theorem closes_reapStaleSessions (hnow : now ≠ 0) (al : AccessLogger)
    (order : List UdpSessionKey) :
    Closes (fun session => session.startedAt < now - staleAfter) now al
      (al.reapStaleSessions order now) := by
  unfold reapStaleSessions
  induction order generalizing al with
  | nil => exact Closes.refl _ now al
  | cons key order ih =>
    rw [foldl_cons]
    exact (closes_reapKey now al key).trans hnow (ih _)

variable {handlers : List UdpHandler}

theorem Closes.sessionId (h : Closes C now al al') (ref : Nat) :
    (al'.heap ref).sessionId = (al.heap ref).sessionId := by
  rcases h.heap ref with heq | ⟨-, -, heq⟩ <;> rw [heq]

/-- A session that is still open has not changed. -/
theorem Closes.heap_of_open (hnow : now ≠ 0) (h : Closes C now al al') {ref : Nat}
    (hopen : (al'.heap ref).endedAt = 0) : al'.heap ref = al.heap ref := by
  rcases h.heap ref with heq | ⟨-, -, heq⟩
  · exact heq
  · rw [heq] at hopen
    exact absurd hopen hnow

/-- The handlers of the sessions that end have to have stopped. -/
theorem Closes.unused (h : Closes C now al al') (hunused : Unused al handlers)
    (hstopped : ∀ ref < al.nextRef, C (al.heap ref) → ∀ u ∈ handlers,
      u.sessionId = (al.heap ref).sessionId → ∃ t ∈ u.stopped, t ≤ now) :
    Unused al' handlers := by
  intro ref hlt hended u hu hid
  rw [h.nextRef] at hlt
  rw [h.sessionId] at hid
  rcases h.heap ref with heq | ⟨hC, -, heq⟩
  · rw [heq] at hended ⊢
    exact hunused ref hlt hended u hu hid
  · rw [heq]
    exact hstopped ref hlt hC u hu hid

end AccessLogger

namespace Forwarder

/-- The session a handler got from `TrackUDPSession`, as it was when it started. -/
def Owns (al : AccessLogger) (h : UdpHandler) : Prop :=
  ∃ ref < al.nextRef, (al.heap ref).sessionId = h.sessionId ∧ (al.heap ref).protocol = .udp ∧
    (al.heap ref).udpKey = h.key ∧ (al.heap ref).startedAt = h.started

/-- In a calm run each handler has a session of its own, and each open session a handler
that will end it. -/
structure Sound (s : Forwarder) : Prop where
  tracked : s.log.Tracked
  clock : 0 < s.clock
  owns : ∀ h ∈ s.handlers, Owns s.log.sys.logger h
  distinct : (s.handlers.map UdpHandler.sessionId).Nodup
  used : ∀ ref < s.log.sys.logger.nextRef, (s.log.sys.logger.heap ref).endedAt = 0 →
    (s.log.sys.logger.heap ref).protocol = .udp →
      ∃ h ∈ s.handlers, h.returned = false ∧
        h.sessionId = (s.log.sys.logger.heap ref).sessionId
  times : ∀ h ∈ s.handlers, ∀ t ∈ h.stopped, 0 < t ∧ t ≤ s.clock
  unused : Unused s.log.sys.logger s.handlers

variable {s s' : Forwarder} {h : UdpHandler}

theorem Owns.closes {C : AccessSession → Prop} {now : Int} {al al' : AccessLogger}
    (howns : Owns al h) (hcloses : al.Closes C now al') : Owns al' h := by
  obtain ⟨ref, hlt, hfields⟩ := howns
  refine ⟨ref, hcloses.nextRef ▸ hlt, ?_⟩
  rcases hcloses.heap ref with heq | ⟨-, -, heq⟩ <;> rw [heq] <;> exact hfields

theorem Owns.starts {session : AccessSession} {al al' : AccessLogger}
    (howns : Owns al h) (hstarts : AccessLogger.Starts session al al') : Owns al' h := by
  obtain ⟨ref, hlt, hfields⟩ := howns
  refine ⟨ref, hstarts.nextRef.symm ▸ Nat.lt_succ_of_lt hlt, ?_⟩
  rw [hstarts.old ref hlt]
  exact hfields

variable (hs : s.Sound)

include hs

/-- Handlers that own the same session are one. -/
theorem Sound.eq_of_sessionId {h h' : UdpHandler} (hh : h ∈ s.handlers) (hh' : h' ∈ s.handlers)
    (heq : h.sessionId = h'.sessionId) : h = h' :=
  inj_on_of_nodup_map hs.distinct hh hh' heq

/-- The session under a handler's ID is the one it got. -/
theorem Sound.owned (hh : h ∈ s.handlers) {ref : Nat}
    (hlt : ref < s.log.sys.logger.nextRef)
    (hid : (s.log.sys.logger.heap ref).sessionId = h.sessionId) :
    (s.log.sys.logger.heap ref).protocol = .udp ∧ (s.log.sys.logger.heap ref).udpKey = h.key ∧
      (s.log.sys.logger.heap ref).startedAt = h.started := by
  obtain ⟨ref', hlt', hid', hfields⟩ := hs.owns h hh
  obtain rfl := (toLogged hs.tracked).distinct ref hlt ref' hlt' (hid.trans hid'.symm)
  exact hfields

/-- The ID of a handler's session was generated. -/
theorem Sound.generated (hh : h ∈ s.handlers) : h.sessionId ∈ s.log.generated := by
  obtain ⟨ref, hlt, hid, -⟩ := hs.owns h hh
  rw [← hid]
  exact (toLogged hs.tracked).ids ref hlt

/-- In a calm run no session is shared. -/
theorem Sound.lookup_none {key : UdpSessionKey}
    (hcalm : ∀ h ∈ s.handlers, h.returned = false → h.key ≠ key) :
    s.log.sys.logger.udpSessions.lookup key = none := by
  cases hin : s.log.sys.logger.udpSessions.lookup key with
  | none => rfl
  | some ref =>
    obtain ⟨hlt, hudp, hkey, hopen⟩ := (udp hs.tracked key ref).mp hin
    obtain ⟨h, hh, hreturned, hid⟩ := hs.used ref hlt hopen hudp
    obtain ⟨-, hkey', -⟩ := hs.owned hh hlt hid.symm
    exact absurd (hkey'.symm.trans hkey) (hcalm h hh hreturned)

/-- The times stay behind the clock. -/
theorem Sound.times_le {now : Int} (hclock : s.clock ≤ now) :
    ∀ h ∈ s.handlers, ∀ t ∈ h.stopped, 0 < t ∧ t ≤ now :=
  fun h hh t ht => (hs.times h hh t ht).imp_right (fun hle => Int.le_trans hle hclock)

omit hs

/-- The session `TrackUDPSession` starts. -/
def newSession (id : String) (resourceId : Int) (src dst : String) (now : Int) : AccessSession :=
  { sessionId := id, resourceId := resourceId, sourceAddr := src, destAddr := dst,
    protocol := .udp, startedAt := now }

theorem trackUDPSession_of_none {al : AccessLogger} {src dst : String}
    (hnone : al.udpSessions.lookup { srcAddr := src, dstAddr := dst } = none) (id : String)
    (resourceId now : Int) :
    al.trackUDPSession id resourceId src dst now =
      { al.insertSession (newSession id resourceId src dst now) with
        udpSessions := al.udpSessions.insert { srcAddr := src, dstAddr := dst } al.nextRef } := by
  unfold trackUDPSession
  dsimp only [udpKey]
  rw [hnone]
  rfl

include hs

/-- A handler starts. -/
theorem Sound.start {id : String} {resourceId : Int} {src dst : String} {now : Int}
    (hcalm : s.Calm (.start id resourceId src dst now))
    (hstep : s.step (.start id resourceId src dst now) = some s') : s'.Sound := by
  obtain ⟨hid, hreturned⟩ := hcalm
  have hnone := hs.lookup_none hreturned
  obtain ⟨hclock, hstep⟩ := ite_none_right_eq_some.mp hstep
  obtain ⟨log, hlog, rfl⟩ := map_eq_some_iff.mp hstep
  have hord : s.log.Orderly (.trackUDP id resourceId src dst now) := by
    intro x hx
    rw [Event.generates, hnone] at hx
    cases hx
    exact hid
  have htracked : log.Tracked := History.Tracked.step hs.tracked hord hlog
  have hlogger : log.sys.logger = s.log.sys.logger.trackUDPSession id resourceId src dst now := by
    obtain ⟨_, hsys, rfl⟩ := map_eq_some_iff.mp hlog
    cases hsys
    rfl
  rw [trackUDPSession_of_none hnone] at hlogger
  have htrackedID : s.log.sys.logger.trackedID id src dst = id := by rw [trackedID, hnone]
  have hstarts : AccessLogger.Starts (newSession id resourceId src dst now) s.log.sys.logger
      log.sys.logger := by
    rw [hlogger]
    exact starts_insertSession _ _ _
  refine ⟨htracked, by have := hs.clock; dsimp only; omega, ?_, ?_, ?_, ?_, ?_⟩
  · refine forall_mem_concat (fun h hh => (hs.owns h hh).starts hstarts)
      ⟨s.log.sys.logger.nextRef, hstarts.nextRef.symm ▸ Nat.lt_succ_self _, ?_⟩
    rw [hstarts.self, htrackedID]
    exact ⟨rfl, rfl, rfl, rfl⟩
  · rw [map_append, map_singleton, htrackedID, ← concat_eq_append]
    refine hs.distinct.concat (fun hmem => ?_)
    obtain ⟨h, hh, rfl⟩ := mem_map.mp hmem
    exact hid (hs.generated hh)
  · intro ref hlt hopen hudp
    rcases hstarts.cases hlt with ⟨hlt, hold⟩ | ⟨-, hself⟩
    · rw [hold] at hopen hudp ⊢
      obtain ⟨h, hh, hrest⟩ := hs.used ref hlt hopen hudp
      exact ⟨h, mem_append_left _ hh, hrest⟩
    · refine ⟨_, mem_concat_self, rfl, ?_⟩
      rw [hself, htrackedID]
      rfl
  · exact forall_mem_concat (hs.times_le hclock) (fun t ht => nomatch ht)
  · intro ref hlt hended h hh heq
    rcases hstarts.cases hlt with ⟨hlt, hold⟩ | ⟨-, hself⟩
    · rw [hold] at hended heq ⊢
      rcases mem_append.mp hh with hh | hh
      · exact hs.unused ref hlt hended h hh heq
      · obtain rfl := mem_singleton.mp hh
        have hgenerated := (toLogged hs.tracked).ids ref hlt
        rw [← heq, htrackedID] at hgenerated
        exact absurd hgenerated hid
    · rw [hself] at hended
      exact absurd rfl hended

/-- A handler stops forwarding. -/
theorem Sound.stop {i : Nat} {now : Int} (hstep : s.step (.stop i now) = some s') : s'.Sound := by
  obtain ⟨h, hi, hstep⟩ := bind_eq_some_iff.mp hstep
  obtain ⟨⟨hforward, hclock⟩, hstep⟩ := ite_none_right_eq_some.mp hstep
  cases hstep
  have hmem : h ∈ s.handlers := mem_of_getElem? hi
  have hpos := hs.clock
  refine ⟨hs.tracked, by dsimp only; omega, ?_, ?_, ?_, ?_, ?_⟩
  · exact forall_mem_set hs.owns (hs.owns h hmem)
  · rw [map_set_of_eq UdpHandler.sessionId hi (by rfl)]
    exact hs.distinct
  · intro ref hlt hopen hudp
    obtain ⟨u, hu, hreturned, hid⟩ := hs.used ref hlt hopen hudp
    rcases mem_set_of_mem (b := { h with stopped := some now }) hi hu with rfl | hu
    · have hlt := (List.getElem?_eq_some_iff.mp hi).1
      exact ⟨_, List.mem_set hlt _, hreturned, hid⟩
    · exact ⟨u, hu, hreturned, hid⟩
  · refine forall_mem_set (hs.times_le hclock) ?_
    intro t ht
    cases ht
    exact ⟨by omega, Int.le_refl _⟩
  · intro ref hlt hended
    refine forall_mem_set (hs.unused ref hlt hended) ?_
    intro heq
    obtain ⟨t, ht, -⟩ := hs.unused ref hlt hended h hmem heq
    rw [hforward] at ht
    cases ht

/-- A handler ends its session, which no other handler has. -/
theorem Sound.finish {i : Nat} {now : Int} (hstep : s.step (.finish i now) = some s') :
    s'.Sound := by
  obtain ⟨h, hi, hstep⟩ := bind_eq_some_iff.mp hstep
  obtain ⟨t, ht, hstep⟩ := bind_eq_some_iff.mp hstep
  obtain ⟨⟨hrunning, hle⟩, hstep⟩ := ite_none_right_eq_some.mp hstep
  obtain ⟨log, hlog, rfl⟩ := map_eq_some_iff.mp hstep
  have hmem : h ∈ s.handlers := mem_of_getElem? hi
  have hnow : now ≠ 0 := by
    have hpos := (hs.times h hmem t ht).1
    omega
  have hproto : History.HasProtocol s.log.sys.logger h.sessionId .udp := by
    intro ref hin
    obtain ⟨hlt, hid, -⟩ := (live hs.tracked _ ref).mp hin
    exact (hs.owned hmem hlt hid).1
  have htracked : log.Tracked :=
    History.Tracked.step (e := .endUDP h.sessionId now) hs.tracked ⟨hnow, hproto⟩ hlog
  have hlogger : log.sys.logger = s.log.sys.logger.endUDPSession h.sessionId now := by
    obtain ⟨_, hsys, rfl⟩ := map_eq_some_iff.mp hlog
    cases hsys
    rfl
  have hcloses := closes_endUDPSession hs.tracked h.sessionId now
  rw [← hlogger] at hcloses
  refine ⟨htracked, hs.clock, ?_, ?_, ?_, ?_, ?_⟩
  · exact forall_mem_set (fun u hu => (hs.owns u hu).closes hcloses)
      ((hs.owns h hmem).closes hcloses)
  · rw [map_set_of_eq UdpHandler.sessionId hi (by rfl)]
    exact hs.distinct
  · intro ref hlt hopen hudp
    have hkept := hcloses.heap_of_open hnow hopen
    have hlive := (live htracked _ ref).mpr ⟨hlt, rfl, hopen⟩
    rw [hcloses.nextRef] at hlt
    rw [hkept] at hopen hudp hlive ⊢
    obtain ⟨u, hu, hreturned, hid⟩ := hs.used ref hlt hopen hudp
    rcases mem_set_of_mem (b := { h with returned := true }) hi hu with rfl | hu
    · rw [hlogger, ← hid, lookup_endUDPSession] at hlive
      cases hlive
    · exact ⟨u, hu, hreturned, hid⟩
  · exact forall_mem_set hs.times (hs.times h hmem)
  · have hunused : Unused log.sys.logger s.handlers := by
      refine hcloses.unused hs.unused ?_
      intro ref hlt hid u hu heq
      obtain rfl := hs.eq_of_sessionId hu hmem (heq.trans hid)
      exact ⟨t, ht, hle⟩
    exact fun ref hlt hended => forall_mem_set (hunused ref hlt hended)
      (hunused ref hlt hended h hmem)

/-- Sessions are reaped. -/
theorem Sound.reap {order : List UdpSessionKey} {now : Int} (hcalm : s.Calm (.reap order now))
    (hstep : s.step (.reap order now) = some s') : s'.Sound := by
  obtain ⟨hclock, hstep⟩ := ite_none_right_eq_some.mp hstep
  obtain ⟨log, hlog, rfl⟩ := map_eq_some_iff.mp hstep
  have hpos := hs.clock
  have hnow : now ≠ 0 := by omega
  have htracked : log.Tracked :=
    History.Tracked.step (e := .reap order now) hs.tracked hnow hlog
  have hlogger : log.sys.logger = s.log.sys.logger.reapStaleSessions order now := by
    obtain ⟨_, hsys, rfl⟩ := map_eq_some_iff.mp hlog
    obtain ⟨-, hsys⟩ := ite_none_right_eq_some.mp hsys
    cases hsys
    rfl
  have hcloses := closes_reapStaleSessions hnow s.log.sys.logger order
  rw [← hlogger] at hcloses
  refine ⟨htracked, by dsimp only; omega, fun u hu => (hs.owns u hu).closes hcloses, hs.distinct,
    ?_, ?_, ?_⟩
  · intro ref hlt hopen hudp
    have hkept := hcloses.heap_of_open hnow hopen
    rw [hcloses.nextRef] at hlt
    rw [hkept] at hopen hudp ⊢
    exact hs.used ref hlt hopen hudp
  · exact hs.times_le hclock
  · refine hcloses.unused hs.unused ?_
    intro ref hlt hstale u hu heq
    -- The session started with its handler, so a handler that forwards is too young.
    obtain ⟨-, -, hstarted⟩ := hs.owned hu hlt heq.symm
    cases hstop : u.stopped with
    | none =>
      have hyoung := hcalm u hu hstop
      omega
    | some t => exact ⟨t, rfl, Int.le_trans (hs.times u hu t hstop).2 hclock⟩

/-- A flush changes no session. -/
theorem Sound.withLog {log : History} (htracked : log.Tracked)
    (hheap : log.sys.logger.heap = s.log.sys.logger.heap)
    (hnext : log.sys.logger.nextRef = s.log.sys.logger.nextRef) : Sound { s with log := log } := by
  have hcloses : s.log.sys.logger.Closes (fun _ => False) 0 log.sys.logger :=
    ⟨hnext, fun ref => .inl (congrFun hheap ref)⟩
  refine ⟨htracked, hs.clock, fun u hu => (hs.owns u hu).closes hcloses, hs.distinct, ?_,
    hs.times, hcloses.unused hs.unused (fun _ _ hfalse => hfalse.elim)⟩
  rw [hheap, hnext]
  exact hs.used

/-- **A calm step keeps every session open as long as its handler forwards.** -/
theorem Sound.step {e : UdpEvent} (hcalm : s.Calm e) (hstep : s.step e = some s') : s'.Sound := by
  cases e with
  | start id resourceId src dst now => exact hs.start hcalm hstep
  | stop i now => exact hs.stop hstep
  | finish i now => exact hs.finish hstep
  | reap order now => exact hs.reap hcalm hstep
  | flush =>
    rw [Forwarder.step] at hstep
    obtain ⟨log, hlog, rfl⟩ := map_eq_some_iff.mp hstep
    have htracked : log.Tracked :=
      History.Tracked.step (e := .flush) hs.tracked trivial hlog
    obtain ⟨_, hsys, rfl⟩ := map_eq_some_iff.mp hlog
    cases hsys
    refine hs.withLog htracked ?_ ?_ <;> dsimp only [Sys.onFlush] <;> split <;> rfl
  | sent i groups outcome =>
    obtain ⟨log, hlog, rfl⟩ := map_eq_some_iff.mp hstep
    have htracked : log.Tracked :=
      History.Tracked.step (e := .finish i groups outcome) hs.tracked trivial hlog
    obtain ⟨_, hsys, rfl⟩ := map_eq_some_iff.mp hlog
    obtain ⟨batch, -, hsys⟩ := bind_eq_some_iff.mp hsys
    obtain ⟨-, hsys⟩ := ite_none_right_eq_some.mp hsys
    cases hsys
    refine hs.withLog htracked ?_ ?_ <;> cases outcome <;> rfl

omit hs

/-- The handlers and the log when the process starts. -/
structure Initial (s : Forwarder) : Prop where
  log : s.log.New
  handlers : s.handlers = []
  clock : 0 < s.clock

theorem Initial.sound (hinit : s.Initial) : s.Sound := by
  have hnone : ∀ ref, ¬ ref < s.log.sys.logger.nextRef := by
    intro ref
    rw [hinit.log.none]
    exact Nat.not_lt_zero ref
  refine ⟨hinit.log.tracked, hinit.clock, ?_, ?_, fun ref hlt => absurd hlt (hnone ref), ?_,
    fun ref hlt => absurd hlt (hnone ref)⟩ <;> rw [hinit.handlers]
  · exact fun h hh => absurd hh not_mem_nil
  · exact nodup_nil
  · exact fun h hh => absurd hh not_mem_nil

/-- **No session ends while one of its handlers forwards**: in a run in which no handler
starts for the addresses of one that has not returned, and none still forwards at a reap
five minutes after it started, every handler of a session that has ended had stopped by
the end of the session. -/
theorem sessions_outlive_handlers {events : List UdpEvent} (hinit : s.Initial)
    (hcalm : Runs.Meets step Calm s events)
    (hrun : run step s events = some s') :
    Unused s'.log.sys.logger s'.handlers :=
  (run_invariant (fun h hcalm hstep => Sound.step h hcalm hstep) hinit.sound hcalm
    hrun).unused

/-- No handler has started. -/
def idle : Forwarder where
  log := History.opened
  handlers := []
  clock := 1

/-- A handler, another one for the same addresses after it has returned, and one for
other addresses that forwards all the while. -/
def separateHandlers : List UdpEvent :=
  [.start "a" 7 "10.0.0.1:2" "10.1.0.1:53" 1, .start "b" 7 "10.0.0.2:2" "10.1.0.1:53" 2,
    .stop 0 3, .finish 0 4, .start "c" 7 "10.0.0.1:2" "10.1.0.1:53" 5, .flush, .stop 2 6,
    .finish 2 7,
    .reap [{ srcAddr := "10.0.0.2:2", dstAddr := "10.1.0.1:53" }] 300000000002]

theorem separateHandlers_kept :
    ∃ s, run step idle separateHandlers = some s ∧
      s.log.appended.map sessionId = ["a", "c"] ∧
      Unused s.log.sys.logger s.handlers := by
  have hcalm : Runs.Meets step Calm idle separateHandlers := by decide +kernel
  have hinit : idle.Initial := ⟨⟨rfl, rfl, rfl, rfl, rfl⟩, rfl, by decide⟩
  simp only [← and_assoc]
  refine Exists.imp (fun s h => ⟨h, sessions_outlive_handlers hinit hcalm h.1⟩) ?_
  decide +kernel

/-- Two handlers share a session, and the first one returns. -/
def sharedSession : List UdpEvent :=
  [.start "a" 7 "10.0.0.1:2" "10.1.0.1:53" 1, .start "b" 7 "10.0.0.1:2" "10.1.0.1:53" 2,
    .stop 0 3, .finish 0 4]

/-- A handler forwards for more than five minutes. -/
def longSession : List UdpEvent :=
  [.start "a" 7 "10.0.0.1:2" "10.1.0.1:53" 1,
    .reap [{ srcAddr := "10.0.0.1:2", dstAddr := "10.1.0.1:53" }] 300000000002]

/-- **A session ends while a handler forwards**: the handler it is shared with returns, or
it is reaped. -/
theorem session_ends_while_forwarding :
    (∃ s, run step idle sharedSession = some s ∧
        ¬ Unused s.log.sys.logger s.handlers) ∧
      ∃ s, run step idle longSession = some s ∧
        ¬ Unused s.log.sys.logger s.handlers := by
  decide +kernel

end Forwarder

end Newt.AccessLog
