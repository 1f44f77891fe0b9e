import Newt.AccessLog

/-!
# Live sessions and ended ones

A session is in the map `sessions` as long as it has not ended, in `udpSessions` too if
it is a UDP session, and in the queue of completed sessions once it has.  Three paths
end it: the handler's own call, the reaper and `Close`.

`History` is the access log with the IDs that were generated and every session that
was queued when it ended; flushes take sessions from the queue and put them back, which
is not an end.  All three paths are `complete`, so that `Logged.complete` is the
one step lemma for ends.  `sessions_consistent` is the result for whole runs.
-/

namespace Newt.AccessLog

open List Function AList Option AccessSession

/-- The ID a call generates. -/
def Event.generates (al : AccessLogger) : Event → Option String
  | .startTCP id _ _ _ _ => some id
  | .trackUDP id _ src dst _ =>
    if (al.udpSessions.lookup { srcAddr := src, dstAddr := dst }).isSome then none else some id
  | _ => none

/-- What a step adds to the queue by ending sessions. -/
def Event.appends (al al' : AccessLogger) : Event → List AccessSession
  | .flush | .finish _ _ _ => []
  | _ => al'.completedSessions.drop al.completedSessions.length

/-- The access log with the IDs it has generated and the sessions that have ended. -/
structure History where
  sys : Sys
  generated : List String := []
  appended : List AccessSession := []

namespace History

def step (h : History) (e : Event) : Option History :=
  (h.sys.step e).map (fun s =>
    { sys := s
      generated := h.generated ++ (e.generates h.sys.logger).toList
      appended := h.appended ++ e.appends h.sys.logger s.logger })

/-- A session that is open, if any, has this protocol. -/
def HasProtocol (al : AccessLogger) (id : String) (protocol : SessionProtocol) : Prop :=
  ∀ ref ∈ al.sessions.lookup id, (al.heap ref).protocol = protocol
  deriving Decidable

/-- What is assumed of a step: a generated ID is new, a session is ended through the
function of its own protocol, and the clock does not show the zero time. -/
def Orderly (h : History) : Event → Prop
  | .startTCP id _ _ _ _ => id ∉ h.generated
  | .trackUDP id r src dst now =>
    ∀ x ∈ (Event.trackUDP id r src dst now).generates h.sys.logger, x ∉ h.generated
  | .endTCP id now => now ≠ 0 ∧ HasProtocol h.sys.logger id .tcp
  | .endUDP id now => now ≠ 0 ∧ HasProtocol h.sys.logger id .udp
  | .reap _ now | .close _ now => now ≠ 0
  | .flush | .finish _ _ _ => True

instance (h : History) : ∀ e, Decidable (h.Orderly e)
  | .startTCP id _ _ _ _ => inferInstanceAs (Decidable (id ∉ h.generated))
  | .trackUDP .. => inferInstanceAs (Decidable (∀ x ∈ Event.generates _ _, x ∉ h.generated))
  | .endTCP id _ | .endUDP id _ =>
    inferInstanceAs (Decidable (_ ∧ ∀ ref ∈ h.sys.logger.sessions.lookup id, _))
  | .reap _ now | .close _ now => inferInstanceAs (Decidable (now ≠ 0))
  | .flush | .finish .. => isTrue trivial

end History

section Lookup

variable {κ ν : Type} [DecidableEq κ] {m : AList (fun _ : κ => ν)} {k : κ}

theorem lookup_insert_of_none (hnone : m.lookup k = none) (v : ν) (k' : κ) (v' : ν) :
    (m.insert k v).lookup k' = some v' ↔ m.lookup k' = some v' ∨ (v' = v ∧ k = k') := by
  by_cases hk : k' = k
  · subst hk
    rw [lookup_insert, hnone]
    refine ⟨fun hr => .inr ⟨(some.inj hr).symm, rfl⟩, fun hr => ?_⟩
    rcases hr with hr | ⟨rfl, -⟩
    · cases hr
    · rfl
  · rw [lookup_insert_ne hk]
    exact (or_iff_left (fun hr => hk hr.2.symm)).symm

/-- Without a key, the map is without its value, if no other key has it. -/
theorem lookup_erase_of_some {v : ν} (hin : m.lookup k = some v)
    (honly : ∀ k', m.lookup k' = some v → k = k') (k' : κ) (v' : ν) :
    (m.erase k).lookup k' = some v' ↔ m.lookup k' = some v' ∧ v' ≠ v := by
  by_cases hk : k' = k
  · subst hk
    rw [lookup_erase, hin]
    refine ⟨nofun, fun hr => ?_⟩
    exact absurd (some.inj hr.1).symm hr.2
  · rw [lookup_erase_ne hk]
    refine ⟨fun hr => ⟨hr, fun heq => hk ?_⟩, And.left⟩
    exact (honly k' (heq ▸ hr)).symm

end Lookup

namespace AccessLogger

/-- A session that is open ends, however. -/
def endSession (al : AccessLogger) (ref : Nat) (now : Int) : AccessLogger :=
  { al.complete ref now with
    sessions := al.sessions.erase (al.heap ref).sessionId
    udpSessions :=
      if (al.heap ref).protocol = .udp then al.udpSessions.erase (al.heap ref).udpKey
      else al.udpSessions }

/-- The sessions that have ended agree with the heap.  `ref` is a session that was
started if it is below `nextRef`. -/
structure Logged (al : AccessLogger) (generated : List String)
    (appended : List AccessSession) : Prop where
  ids : ∀ ref < al.nextRef, (al.heap ref).sessionId ∈ generated
  distinct : ∀ r < al.nextRef, ∀ r' < al.nextRef,
    (al.heap r).sessionId = (al.heap r').sessionId → r = r'
  once : (appended.map sessionId).Nodup
  ended : ∀ s, s ∈ appended ↔ ∃ ref < al.nextRef, al.heap ref = s ∧ s.endedAt ≠ 0

/-- So do the two maps. -/
structure Tracked (al : AccessLogger) (generated : List String)
    (appended : List AccessSession) : Prop extends al.Logged generated appended where
  live : ∀ id ref, al.sessions.lookup id = some ref ↔
    ref < al.nextRef ∧ (al.heap ref).sessionId = id ∧ (al.heap ref).endedAt = 0
  udp : ∀ key ref, al.udpSessions.lookup key = some ref ↔
    ref < al.nextRef ∧ (al.heap ref).protocol = .udp ∧ (al.heap ref).udpKey = key ∧
      (al.heap ref).endedAt = 0

variable {al al' : AccessLogger} {generated : List String} {appended : List AccessSession}

theorem Logged.congr (h : al.Logged generated appended) (hheap : al'.heap = al.heap)
    (hnext : al'.nextRef = al.nextRef) : al'.Logged generated appended := by
  refine ⟨?_, ?_, h.once, ?_⟩ <;> rw [hheap, hnext]
  · exact h.ids
  · exact h.distinct
  · exact h.ended

theorem Tracked.congr (h : al.Tracked generated appended) (hheap : al'.heap = al.heap)
    (hnext : al'.nextRef = al.nextRef) (hsessions : al'.sessions = al.sessions)
    (hudp : al'.udpSessions = al.udpSessions) : al'.Tracked generated appended := by
  refine ⟨h.toLogged.congr hheap hnext, ?_, ?_⟩
  · rw [hsessions, hheap, hnext]
    exact h.live
  · rw [hudp, hheap, hnext]
    exact h.udp

/-- One session is started, at the next reference, and no other one changes. -/
structure Starts (session : AccessSession) (al al' : AccessLogger) : Prop where
  nextRef : al'.nextRef = al.nextRef + 1
  self : al'.heap al.nextRef = session
  old : ∀ ref < al.nextRef, al'.heap ref = al.heap ref

theorem starts_insertSession (al : AccessLogger) (session : AccessSession)
    (udpSessions : AList (fun _ : UdpSessionKey => Nat)) :
    Starts session al { al.insertSession session with udpSessions := udpSessions } :=
  ⟨rfl, update_self _ _ _, fun _ hlt => update_of_ne (Nat.ne_of_lt hlt) _ _⟩

variable {session : AccessSession} {id : String}

theorem Starts.cases (h : Starts session al al') {ref : Nat} (hlt : ref < al'.nextRef) :
    (ref < al.nextRef ∧ al'.heap ref = al.heap ref) ∨
      (ref = al.nextRef ∧ al'.heap ref = session) := by
  rw [h.nextRef] at hlt
  rcases Nat.lt_succ_iff_lt_or_eq.mp hlt with hlt | rfl
  · exact .inl ⟨hlt, h.old ref hlt⟩
  · exact .inr ⟨rfl, h.self⟩

theorem Starts.started_iff (h : Starts session al al') (P : AccessSession → Prop) (ref : Nat) :
    (ref < al'.nextRef ∧ P (al'.heap ref)) ↔
      (ref < al.nextRef ∧ P (al.heap ref)) ∨ (ref = al.nextRef ∧ P session) := by
  refine ⟨fun hr => ?_, fun hr => ?_⟩
  · obtain ⟨hlt, hP⟩ := hr
    rcases h.cases hlt with ⟨hlt, heq⟩ | ⟨hlast, heq⟩
    · exact .inl ⟨hlt, heq ▸ hP⟩
    · exact .inr ⟨hlast, heq ▸ hP⟩
  · rw [h.nextRef]
    rcases hr with ⟨hlt, hP⟩ | ⟨rfl, hP⟩
    · exact ⟨Nat.lt_succ_of_lt hlt, (h.old ref hlt).symm ▸ hP⟩
    · exact ⟨Nat.lt_succ_self _, h.self.symm ▸ hP⟩

/-- A new session, under an ID that was not generated before. -/
theorem Tracked.insertSession (h : al.Tracked generated appended)
    (hid : session.sessionId ∉ generated) (hopen : session.endedAt = 0)
    {udpSessions : AList (fun _ : UdpSessionKey => Nat)}
    (hudp : ∀ key ref, udpSessions.lookup key = some ref ↔
      al.udpSessions.lookup key = some ref ∨
        (ref = al.nextRef ∧ session.protocol = .udp ∧ session.udpKey = key)) :
    Tracked { al.insertSession session with udpSessions := udpSessions }
      (generated ++ [session.sessionId]) appended := by
  have hnew : ∀ ref < al.nextRef, (al.heap ref).sessionId ≠ session.sessionId := by
    intro ref hlt heq
    exact hid (heq ▸ h.ids ref hlt)
  have hstarts := starts_insertSession al session udpSessions
  refine ⟨⟨?_, ?_, h.once, ?_⟩, ?_, ?_⟩
  · intro ref hlt
    rcases hstarts.cases hlt with ⟨hlt, heq⟩ | ⟨-, heq⟩ <;> rw [heq]
    · exact mem_append_left _ (h.ids ref hlt)
    · exact mem_concat_self
  · intro r hr r' hr' hsame
    rcases hstarts.cases hr with ⟨hr, heq⟩ | ⟨hlast, heq⟩ <;>
      rcases hstarts.cases hr' with ⟨hr', heq'⟩ | ⟨hlast', heq'⟩ <;> rw [heq, heq'] at hsame
    · exact h.distinct r hr r' hr' hsame
    · exact absurd hsame (hnew r hr)
    · exact absurd hsame.symm (hnew r' hr')
    · exact hlast.trans hlast'.symm
  · intro s
    rw [h.ended]
    refine ⟨fun hr => ?_, fun hr => ?_⟩ <;> obtain ⟨ref, hlt, heq, hne⟩ := hr
    · exact ⟨ref, Nat.lt_succ_of_lt hlt, (hstarts.old ref hlt).trans heq, hne⟩
    · rcases hstarts.cases hlt with ⟨hlt, hold⟩ | ⟨-, hself⟩
      · exact ⟨ref, hlt, hold.symm.trans heq, hne⟩
      · rw [← heq, hself] at hne
        exact absurd hopen hne
  · intro id ref
    have hnone : al.sessions.lookup session.sessionId = none := by
      rw [eq_none_iff_forall_ne_some]
      intro r hr
      obtain ⟨hlt, heq, -⟩ := (h.live _ _).mp hr
      exact hnew r hlt heq
    rw [hstarts.started_iff (fun s => s.sessionId = id ∧ s.endedAt = 0), ← h.live]
    refine (lookup_insert_of_none hnone al.nextRef id ref).trans ?_
    rw [and_iff_left hopen]
  · intro key ref
    rw [hstarts.started_iff (fun s => s.protocol = .udp ∧ s.udpKey = key ∧ s.endedAt = 0),
      ← h.udp, and_iff_left hopen]
    exact hudp key ref

section EndSession

variable {ref : Nat} {now : Int}

theorem heap_complete_self :
    (al.complete ref now).heap ref = { al.heap ref with endedAt := now } :=
  update_self _ _ _

theorem heap_complete_of_ne {r : Nat} (hne : r ≠ ref) :
    (al.complete ref now).heap r = al.heap r :=
  update_of_ne hne _ _

theorem sessionId_complete (r : Nat) :
    ((al.complete ref now).heap r).sessionId = (al.heap r).sessionId := by
  by_cases hr : r = ref
  · rw [hr, heap_complete_self]
  · rw [heap_complete_of_ne hr]

/-- What is said of open sessions is said of the others after it. -/
theorem open_complete_iff (hnow : now ≠ 0) {P : AccessSession → Prop}
    (hP : ∀ s, P s → s.endedAt = 0) (r : Nat) :
    P ((al.complete ref now).heap r) ↔ P (al.heap r) ∧ r ≠ ref := by
  by_cases hr : r = ref
  · refine ⟨fun hin => ?_, fun hin => absurd hr hin.2⟩
    rw [hr, heap_complete_self] at hin
    exact absurd (hP _ hin) hnow
  · rw [heap_complete_of_ne hr]
    exact (and_iff_left hr).symm

/-- **A session ends**, by whichever path. -/
theorem Logged.complete (h : al.Logged generated appended) (hlt : ref < al.nextRef)
    (hopen : (al.heap ref).endedAt = 0) (hnow : now ≠ 0) :
    (al.complete ref now).Logged generated
      (appended ++ [{ al.heap ref with endedAt := now }]) := by
  refine ⟨?_, ?_, ?_, ?_⟩
  · intro r hr
    rw [sessionId_complete]
    exact h.ids r hr
  · intro r hr r' hr' heq
    rw [sessionId_complete, sessionId_complete] at heq
    exact h.distinct r hr r' hr' heq
  · rw [map_append]
    refine List.Nodup.append h.once (nodup_singleton _) ?_
    intro id hin hlast
    obtain ⟨s, hs, heq⟩ := mem_map.mp hin
    obtain ⟨r, hr, rfl, hne⟩ := (h.ended s).mp hs
    rw [map_singleton, mem_singleton] at hlast
    obtain rfl := h.distinct r hr ref hlt (heq.trans hlast)
    exact hne hopen
  · intro s
    rw [mem_append, mem_singleton, h.ended]
    refine ⟨fun hs => ?_, fun hs => ?_⟩
    · rcases hs with ⟨r, hr, rfl, hne⟩ | rfl
      · have hrr : r ≠ ref := by
          intro heq
          exact hne (heq ▸ hopen)
        exact ⟨r, hr, heap_complete_of_ne hrr, hne⟩
      · exact ⟨ref, hlt, heap_complete_self, hnow⟩
    · obtain ⟨r, hr, heq, hne⟩ := hs
      by_cases hrr : r = ref
      · rw [hrr, heap_complete_self] at heq
        exact .inr heq.symm
      · rw [heap_complete_of_ne hrr] at heq
        exact .inl ⟨r, hr, heq, hne⟩

variable (h : al.Tracked generated appended) (hlt : ref < al.nextRef)
  (hopen : (al.heap ref).endedAt = 0)

include h hlt hopen

/-- The session goes from `udpSessions`, if it is there. -/
theorem Tracked.lookup_udpSessions_endSession (key : UdpSessionKey) (r : Nat) :
    (al.endSession ref now).udpSessions.lookup key = some r ↔
      al.udpSessions.lookup key = some r ∧ r ≠ ref := by
  show (if (al.heap ref).protocol = .udp then al.udpSessions.erase (al.heap ref).udpKey
    else al.udpSessions).lookup key = some r ↔ _
  by_cases hproto : (al.heap ref).protocol = .udp
  · rw [if_pos hproto]
    exact lookup_erase_of_some ((h.udp _ _).mpr ⟨hlt, hproto, rfl, hopen⟩)
      (fun _ hr => ((h.udp _ _).mp hr).2.2.1) key r
  · rw [if_neg hproto]
    refine ⟨fun hr => ⟨hr, fun heq => hproto ?_⟩, And.left⟩
    rw [heq] at hr
    exact ((h.udp _ _).mp hr).2.1

/-- It goes from the maps. -/
theorem Tracked.endSession (hnow : now ≠ 0) :
    (al.endSession ref now).Tracked generated
      (appended ++ [{ al.heap ref with endedAt := now }]) := by
  refine ⟨(h.toLogged.complete hlt hopen hnow).congr rfl rfl, ?_, ?_⟩
  · intro id r
    have hkeep : (al.endSession ref now).sessions.lookup id = some r ↔
        al.sessions.lookup id = some r ∧ r ≠ ref :=
      lookup_erase_of_some ((h.live _ _).mpr ⟨hlt, rfl, hopen⟩)
        (fun _ hr => ((h.live _ _).mp hr).2.1) id r
    rw [hkeep, h.live, and_assoc,
      ← open_complete_iff hnow (P := fun s => s.sessionId = id ∧ s.endedAt = 0) (fun _ hs => hs.2)]
    exact Iff.rfl
  · intro key r
    rw [h.lookup_udpSessions_endSession hlt hopen, h.udp, and_assoc, ← open_complete_iff hnow
        (P := fun s => s.protocol = .udp ∧ s.udpKey = key ∧ s.endedAt = 0) (fun _ hs => hs.2.2)]
    exact Iff.rfl

end EndSession

/-- What a call that ends sessions may do: it queues some more, and these are the ones
that end. -/
def Ends (generated : List String) (appended : List AccessSession) (al al' : AccessLogger) :
    Prop :=
  ∃ more, al'.completedSessions = al.completedSessions ++ more ∧
    al'.Tracked generated (appended ++ more)

theorem Tracked.ends_self (h : al.Tracked generated appended) :
    Ends generated appended al al :=
  ⟨[], (append_nil _).symm, (append_nil appended).symm ▸ h⟩

theorem Tracked.ends_endSession (h : al.Tracked generated appended) {ref : Nat} {now : Int}
    (hlt : ref < al.nextRef) (hopen : (al.heap ref).endedAt = 0) (hnow : now ≠ 0) :
    Ends generated appended al (al.endSession ref now) :=
  ⟨[{ al.heap ref with endedAt := now }], rfl, h.endSession hlt hopen hnow⟩

theorem Ends.trans {mid : AccessLogger} (h : Ends generated appended al mid)
    (hnext : ∀ appended, mid.Tracked generated appended → Ends generated appended mid al') :
    Ends generated appended al al' := by
  obtain ⟨more, hqueue, htracked⟩ := h
  obtain ⟨more', hqueue', htracked'⟩ := hnext _ htracked
  refine ⟨more ++ more', ?_, ?_⟩
  · rw [hqueue', hqueue, append_assoc]
  · rw [← append_assoc]
    exact htracked'

/-- A loop whose body ends sessions. -/
theorem Ends.foldl {ι : Type} {body : AccessLogger → ι → AccessLogger}
    (hbody : ∀ al appended i, Tracked al generated appended →
      Ends generated appended al (body al i))
    (order : List ι) (h : al.Tracked generated appended) :
    Ends generated appended al (order.foldl body al) := by
  induction order generalizing al appended with
  | nil => exact h.ends_self
  | cons i order ih =>
    rw [foldl_cons]
    exact (hbody al appended i h).trans (fun _ hmid => ih hmid)

section Calls

variable (h : al.Tracked generated appended) {now : Int} (hnow : now ≠ 0)

include h hnow

/-- `EndTCPSession` leaves `udpSessions` alone, which is right for TCP. -/
theorem Tracked.endTCPSession (hproto : History.HasProtocol al id .tcp) :
    Ends generated appended al (al.endTCPSession id now) := by
  unfold AccessLogger.endTCPSession
  split
  · exact h.ends_self
  · next ref hin =>
    obtain ⟨hlt, hid, hopen⟩ := (h.live id ref).mp hin
    have htcp : ¬ (al.heap ref).protocol = .udp := by
      rw [hproto ref hin]
      decide
    have hends := h.ends_endSession hlt hopen hnow
    rw [AccessLogger.endSession, if_neg htcp, hid] at hends
    exact hends

theorem Tracked.endUDPSession (hproto : History.HasProtocol al id .udp) :
    Ends generated appended al (al.endUDPSession id now) := by
  unfold AccessLogger.endUDPSession
  split
  · exact h.ends_self
  · next ref hin =>
    obtain ⟨hlt, hid, hopen⟩ := (h.live id ref).mp hin
    have hends := h.ends_endSession hlt hopen hnow
    rw [AccessLogger.endSession, if_pos (hproto ref hin), hid] at hends
    exact hends

theorem Tracked.reapKey (key : UdpSessionKey) :
    Ends generated appended al (AccessLogger.reapKey now al key) := by
  unfold AccessLogger.reapKey
  split
  · exact h.ends_self
  · next ref hin =>
    obtain ⟨hlt, hproto, hkey, hopen⟩ := (h.udp key ref).mp hin
    dsimp only
    split
    · have hends := h.ends_endSession hlt hopen hnow
      rw [AccessLogger.endSession, if_pos hproto, hkey] at hends
      exact hends
    · exact h.ends_self

theorem Tracked.reapStaleSessions (order : List UdpSessionKey) :
    Ends generated appended al (al.reapStaleSessions order now) :=
  Ends.foldl (fun _ _ key hmid => hmid.reapKey hnow key) order h

end Calls

/-- What the loop of `Close` has done after these IDs.  It takes no session from the map. -/
structure Shut (generated : List String) (appended : List AccessSession) (ids : List String)
    (al al' : AccessLogger) : Prop where
  logged : ∃ more, al'.completedSessions = al.completedSessions ++ more ∧
    al'.Logged generated (appended ++ more)
  nextRef : al'.nextRef = al.nextRef
  sessions : al'.sessions = al.sessions
  kept : ∀ ref, (al.heap ref).endedAt ≠ 0 → (al'.heap ref).endedAt ≠ 0
  gone : ∀ id ∈ ids, ∀ ref ∈ al.sessions.lookup id, (al'.heap ref).endedAt ≠ 0

section Close

variable {now : Int} (hnow : now ≠ 0) (h : al.Logged generated appended)
  (hlive : ∀ id ref, al.sessions.lookup id = some ref → ref < al.nextRef)

include h

theorem Logged.shut_self {ids : List String}
    (hgone : ∀ id ∈ ids, ∀ ref ∈ al.sessions.lookup id, (al.heap ref).endedAt ≠ 0) :
    Shut generated appended ids al al :=
  ⟨⟨[], (append_nil _).symm, (append_nil appended).symm ▸ h⟩, rfl, rfl, fun _ hr => hr, hgone⟩

include hnow hlive

theorem Logged.shutdownSession (id : String) :
    Shut generated appended [id] al (AccessLogger.shutdownSession now al id) := by
  unfold AccessLogger.shutdownSession
  cases hin : al.sessions.lookup id with
  | none => exact h.shut_self (by simp [hin])
  | some ref =>
    dsimp only
    split
    · next hopen =>
      refine ⟨⟨_, rfl, h.complete (hlive id ref hin) hopen hnow⟩, rfl, rfl, fun r hr => ?_, ?_⟩
      · have hne : r ≠ ref := fun heq => hr (heq ▸ hopen)
        rw [heap_complete_of_ne hne]
        exact hr
      · simpa [hin, heap_complete_self] using hnow
    · next hended => exact h.shut_self (by simpa [hin] using hended)

theorem Logged.shutdown (order : List String) :
    Shut generated appended order al (order.foldl (AccessLogger.shutdownSession now) al) := by
  induction order generalizing al appended with
  | nil => exact h.shut_self (forall_mem_nil _)
  | cons id order ih =>
    obtain ⟨⟨more, hqueue, hlogged⟩, hnext, hsessions, hkept, hgone⟩ :=
      h.shutdownSession hnow hlive id
    obtain ⟨⟨more', hqueue', hlogged'⟩, hnext', hsessions', hkept', hgone'⟩ :=
      ih hlogged (by rw [hsessions, hnext]; exact hlive)
    refine ⟨⟨more ++ more', ?_, ?_⟩, hnext'.trans hnext, hsessions'.trans hsessions,
      fun ref hr => hkept' ref (hkept ref hr), forall_mem_cons.mpr ⟨fun ref href => ?_, ?_⟩⟩
    · rw [foldl_cons, hqueue', hqueue, append_assoc]
    · rw [← append_assoc]
      exact hlogged'
    · exact hkept' ref (hgone id (mem_singleton_self id) ref href)
    · rw [← hsessions]
      exact hgone'

end Close

/-- `Close` ends every session that is open. -/
theorem Tracked.close (h : al.Tracked generated appended) {now : Int} (hnow : now ≠ 0)
    {order : List String} (horder : order.Perm al.sessions.keys) :
    Ends generated appended al (al.close order now) := by
  obtain ⟨⟨more, hqueue, hlogged⟩, hnext, -, hkept, hgone⟩ :=
    h.toLogged.shutdown hnow (fun id ref hin => ((h.live id ref).mp hin).1) order
  have hended : ∀ ref < (al.close order now).nextRef,
      ((al.close order now).heap ref).endedAt ≠ 0 := by
    intro ref hlt hopen
    have hwas : (al.heap ref).endedAt = 0 := of_not_not fun hne => hkept ref hne hopen
    have hin := (h.live _ ref).mpr ⟨hnext ▸ hlt, rfl, hwas⟩
    have hkey : (al.heap ref).sessionId ∈ order :=
      horder.mem_iff.mpr (mem_keys.mp (lookup_isSome.mp (isSome_of_mem hin)))
    exact hgone _ hkey ref hin hopen
  refine ⟨more, hqueue, hlogged.congr rfl rfl, fun id ref => ⟨?_, fun hr => ?_⟩,
    fun key ref => ⟨?_, fun hr => ?_⟩⟩
  · exact fun hin => (nomatch hin)
  · exact absurd hr.2.2 (hended ref hr.1)
  · exact fun hin => (nomatch hin)
  · exact absurd hr.2.2.2 (hended ref hr.1)

end AccessLogger

namespace History

/-- **What holds of the two maps and the sessions that have ended**, `ref` standing for
any session that was started. -/
structure Consistent (h : History) : Prop where
  once : (h.appended.map sessionId).Nodup
  ended : ∀ ref < h.sys.logger.nextRef,
    h.sys.logger.heap ref ∈ h.appended ↔ (h.sys.logger.heap ref).endedAt ≠ 0
  sessions : ∀ id ref, h.sys.logger.sessions.lookup id = some ref ↔
    ref < h.sys.logger.nextRef ∧ (h.sys.logger.heap ref).sessionId = id ∧
      (h.sys.logger.heap ref).endedAt = 0
  udpSessions : ∀ key ref, h.sys.logger.udpSessions.lookup key = some ref ↔
    ref < h.sys.logger.nextRef ∧ (h.sys.logger.heap ref).protocol = .udp ∧
      (h.sys.logger.heap ref).udpKey = key ∧ (h.sys.logger.heap ref).endedAt = 0

/-- A logger that was just made; whether it has a send function does not matter. -/
structure New (h : History) : Prop where
  none : h.sys.logger.nextRef = 0
  sessions : h.sys.logger.sessions = ∅
  udpSessions : h.sys.logger.udpSessions = ∅
  generated : h.generated = []
  appended : h.appended = []

def Tracked (h : History) : Prop := h.sys.logger.Tracked h.generated h.appended

variable {h : History}

theorem New.tracked (hnew : h.New) : h.Tracked := by
  have hnone : ∀ ref, ¬ ref < h.sys.logger.nextRef := by
    intro ref
    rw [hnew.none]
    exact Nat.not_lt_zero ref
  refine ⟨⟨fun ref hlt => absurd hlt (hnone ref), fun ref hlt => absurd hlt (hnone ref), ?_,
    fun s => ?_⟩, fun id ref => ?_, fun key ref => ?_⟩
  · rw [hnew.appended]
    exact nodup_nil
  · rw [hnew.appended]
    refine ⟨nofun, fun hs => ?_⟩
    obtain ⟨ref, hlt, -⟩ := hs
    exact absurd hlt (hnone ref)
  · rw [hnew.sessions, lookup_empty]
    exact ⟨nofun, fun hr => absurd hr.1 (hnone ref)⟩
  · rw [hnew.udpSessions, lookup_empty]
    exact ⟨nofun, fun hr => absurd hr.1 (hnone ref)⟩

theorem Tracked.consistent (ht : h.Tracked) : h.Consistent := by
  refine ⟨ht.once, fun ref hlt => ?_, ht.live, ht.udp⟩
  rw [AccessLogger.Logged.ended ht.toLogged]
  refine ⟨fun hs => ?_, fun hne => ⟨ref, hlt, rfl, hne⟩⟩
  obtain ⟨_, _, _, hne⟩ := hs
  exact hne

/-- A call that ends sessions and starts none. -/
theorem Tracked.ofEnds {al : AccessLogger}
    (hends : AccessLogger.Ends h.generated h.appended h.sys.logger al) :
    Tracked { sys := h.sys.withLogger al, generated := h.generated ++ (none : Option String).toList,
              appended := h.appended ++
                al.completedSessions.drop h.sys.logger.completedSessions.length } := by
  obtain ⟨more, hqueue, htracked⟩ := hends
  rw [hqueue, drop_left, toList_none, append_nil]
  exact htracked

/-- Nothing but the queue changes in a flush. -/
theorem Tracked.ofFlush {s : Sys} (ht : h.Tracked) (hheap : s.logger.heap = h.sys.logger.heap)
    (hnext : s.logger.nextRef = h.sys.logger.nextRef)
    (hsessions : s.logger.sessions = h.sys.logger.sessions)
    (hudp : s.logger.udpSessions = h.sys.logger.udpSessions) :
    Tracked { sys := s, generated := h.generated ++ (none : Option String).toList,
              appended := h.appended ++ [] } := by
  rw [toList_none, append_nil, Tracked, append_nil]
  exact AccessLogger.Tracked.congr ht hheap hnext hsessions hudp

/-- A call that ends no session leaves the queue alone. -/
theorem Tracked.ofStart {al : AccessLogger} {id : Option String}
    (hqueue : al.completedSessions = h.sys.logger.completedSessions)
    (htracked : al.Tracked (h.generated ++ id.toList) h.appended) :
    Tracked { sys := h.sys.withLogger al, generated := h.generated ++ id.toList,
              appended := h.appended ++
                al.completedSessions.drop h.sys.logger.completedSessions.length } := by
  rw [hqueue, drop_length, append_nil]
  exact htracked

theorem Tracked.startTCPSession (ht : h.Tracked) {id : String} (hid : id ∉ h.generated)
    (resourceId : Int) (src dst : String) (now : Int) :
    (h.sys.logger.startTCPSession id resourceId src dst now).Tracked (h.generated ++ [id])
      h.appended := by
  refine AccessLogger.Tracked.insertSession ht hid rfl (fun key ref => ?_)
  refine ⟨.inl, fun hr => ?_⟩
  rcases hr with hr | ⟨-, hproto, -⟩
  · exact hr
  · cases hproto

/-- `TrackUDPSession` returns a session that is open, or starts one. -/
theorem Tracked.trackUDP (ht : h.Tracked) {id : String} {resourceId : Int} {src dst : String}
    {now : Int} (hord : h.Orderly (.trackUDP id resourceId src dst now)) :
    Tracked { sys := h.sys.withLogger (h.sys.logger.trackUDPSession id resourceId src dst now)
              generated := h.generated ++
                ((Event.trackUDP id resourceId src dst now).generates h.sys.logger).toList
              appended := h.appended ++
                (h.sys.logger.trackUDPSession id resourceId src dst now).completedSessions.drop
                  h.sys.logger.completedSessions.length } := by
  change ∀ x ∈ Event.generates h.sys.logger _, _ at hord
  unfold AccessLogger.trackUDPSession
  dsimp only [Event.generates, udpKey] at hord ⊢
  cases hin : h.sys.logger.udpSessions.lookup { srcAddr := src, dstAddr := dst } with
  | some ref =>
    rw [isSome_some, if_pos rfl]
    exact Tracked.ofStart rfl ((append_nil h.generated).symm ▸ ht)
  | none =>
    rw [hin] at hord
    refine Tracked.ofStart rfl (AccessLogger.Tracked.insertSession ht (hord id rfl) rfl ?_)
    intro key ref
    rw [lookup_insert_of_none hin, and_iff_right rfl]
    exact Iff.rfl

/-- A step keeps the log consistent. -/
theorem Tracked.step {h h' : History} {e : Event} (ht : h.Tracked) (hord : h.Orderly e)
    (hs : h.step e = some h') : h'.Tracked := by
  rw [History.step, map_eq_some_iff] at hs
  obtain ⟨s, hs, rfl⟩ := hs
  cases e with
  | startTCP id resourceId src dst now =>
    cases hs
    exact Tracked.ofStart rfl (ht.startTCPSession hord resourceId src dst now)
  | endTCP id now =>
    cases hs
    exact Tracked.ofEnds (AccessLogger.Tracked.endTCPSession ht hord.1 hord.2)
  | trackUDP id resourceId src dst now =>
    cases hs
    exact ht.trackUDP hord
  | endUDP id now =>
    cases hs
    exact Tracked.ofEnds (AccessLogger.Tracked.endUDPSession ht hord.1 hord.2)
  | reap order now =>
    obtain ⟨horder, hs⟩ := ite_none_right_eq_some.mp hs
    cases hs
    exact Tracked.ofEnds (AccessLogger.Tracked.reapStaleSessions ht hord order)
  | close order now =>
    obtain ⟨horder, hs⟩ := ite_none_right_eq_some.mp hs
    cases hs
    exact Tracked.ofEnds (AccessLogger.Tracked.close ht hord horder)
  | flush =>
    cases hs
    unfold Sys.onFlush
    split <;> exact ht.ofFlush rfl rfl rfl rfl
  | finish i groups outcome =>
    obtain ⟨batch, -, hs⟩ := bind_eq_some_iff.mp hs
    obtain ⟨-, hs⟩ := ite_none_right_eq_some.mp hs
    cases hs
    cases outcome <;> exact ht.ofFlush rfl rfl rfl rfl

/-- **The two maps, the sessions and the queue agree in every state that is reached**:
whatever starts, ends, is reaped or is flushed, and in whichever order, a session is queued
at most once, `sessions` has exactly the sessions that have not ended and `udpSessions` the
UDP sessions among them, under their own addresses. -/
theorem sessions_consistent {h h' : History} {events : List Event} (hnew : h.New)
    (hord : Runs.Meets step Orderly h events)
    (hrun : Runs.run step h events = some h') : h'.Consistent :=
  Tracked.consistent
    (Runs.run_invariant (fun ht hord hs => Tracked.step ht hord hs) hnew.tracked hord hrun)

/-- A logger without sessions. -/
def opened : History where
  sys := Sys.fresh

/-- A TCP session that is ended twice; a UDP session that two handlers share, that is
reaped and then ended; and one that `Close` ends, with a flush on the way. -/
def mixedCalls : List Event :=
  [.startTCP "a" 7 "10.0.0.1:1" "10.1.0.1:80" 1, .trackUDP "b" 7 "10.0.0.1:2" "10.1.0.1:53" 2,
    .trackUDP "-" 7 "10.0.0.1:2" "10.1.0.1:53" 3, .endTCP "a" 4, .endTCP "a" 5, .flush,
    .reap [{ srcAddr := "10.0.0.1:2", dstAddr := "10.1.0.1:53" }] 300000000003,
    .endUDP "b" 300000000004,
    .trackUDP "c" 7 "10.0.0.1:2" "10.1.0.1:53" 300000000005, .endUDP "?" 300000000006,
    .close ["c"] 300000000007, .endUDP "c" 300000000008]

theorem mixedCalls_consistent :
    ∃ h, Runs.run step opened mixedCalls = some h ∧
      h.appended.map sessionId = ["a", "b", "c"] ∧ h.Consistent := by
  have hord : Runs.Meets step Orderly opened mixedCalls := by decide +kernel
  simp only [← and_assoc]
  refine Exists.imp (fun h hh => ⟨hh, sessions_consistent ⟨rfl, rfl, rfl, rfl, rfl⟩ hord hh.1⟩) ?_
  decide +kernel

end History

end Newt.AccessLog
