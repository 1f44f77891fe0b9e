import Mathlib.Algebra.BigOperators.Group.Finset.Piecewise
import Mathlib.Algebra.Ring.Nat
import Newt.AccessLog

/-!
# No connection is lost or counted twice

`Sys.Balanced`: the connections of the sessions that were delivered, are
queued or being sent, or were dropped by the cap are the sessions that have
ended.  Only `consolidateSessions` can break it: it starts every merged
session with a count of 1, also when it starts from a session that was merged
before a send failed.

`consolidateSessions_connections` says when it keeps the count,
`ended_sessions_accounted` is the result for whole runs, and
`requeued_burst_recounted` is a burst that loses a connection.
-/

namespace Newt.AccessLog

open List

/-- The connections a session stands for. -/
def AccessSession.connections (s : AccessSession) : Nat :=
  max 1 s.connectionCount

def connections (sessions : List AccessSession) : Nat :=
  (sessions.map AccessSession.connections).sum

@[simp] theorem connections_nil : connections [] = 0 := rfl

@[simp] theorem connections_cons (s : AccessSession) (l : List AccessSession) :
    connections (s :: l) = s.connections + connections l := by simp [connections]

@[simp] theorem connections_append (l l' : List AccessSession) :
    connections (l ++ l') = connections l + connections l' := by simp [connections]

theorem connections_perm {l l' : List AccessSession} (h : l.Perm l') :
    connections l = connections l' :=
  (h.map _).sum_eq

theorem connections_flatMap {β : Type} (l : List β) (f : β → List AccessSession) :
    connections (l.flatMap f) = (l.map (fun x => connections (f x))).sum := by
  induction l with
  | nil => rfl
  | cons x l ih => rw [flatMap_cons, connections_append, ih, map_cons, sum_cons]

theorem connections_eq_length {l : List AccessSession}
    (h : ∀ s ∈ l, s.connectionCount ≤ 1) : connections l = l.length := by
  induction l with
  | nil => rfl
  | cons s l ih =>
    have hs : s.connectionCount ≤ 1 := h s mem_cons_self
    rw [connections_cons, ih (fun t ht => h t (mem_cons_of_mem s ht)), length_cons,
      AccessSession.connections]
    omega

@[simp] theorem connections_finalize (s : AccessSession) (ip : String) (ports : List String) :
    (finalizeMergedSourceAddr s ip ports).connections = s.connections := by
  unfold finalizeMergedSourceAddr
  split <;> rfl

/-- A run of the merge loop counts every session it meets once. -/
theorem connections_mergeRuns (ip : String) {cur : AccessSession} {ports : List String}
    {rest : List AccessSession} (hcur : 1 ≤ cur.connectionCount) :
    connections (mergeRuns ip cur ports rest) = cur.connectionCount + rest.length := by
  induction rest generalizing cur ports with
  | nil =>
    rw [mergeRuns, connections_cons, connections_finalize, connections_nil, length_nil,
      AccessSession.connections]
    omega
  | cons s rest ih =>
    rw [mergeRuns]
    split
    · rw [ih (Nat.le_add_left 1 _)]
      simp only [AccessSession.absorb, length_cons]
      omega
    · rw [connections_cons, connections_finalize, ih (le_refl 1)]
      simp only [AccessSession.connections, AccessSession.single, length_cons]
      omega

/-- A group that is merged counts its members once each. -/
theorem connections_mergeGroup (key : ConsolidationKey) {group : List AccessSession}
    (h : ∀ s ∈ group, 2 ≤ s.connectionCount → group.length ≤ 1) :
    connections (mergeGroup key group) = connections group := by
  unfold mergeGroup minConnectionsToConsolidate
  by_cases hlen : group.length < 2
  · rw [if_pos hlen]
  · rw [if_neg hlen]
    have hone : ∀ s ∈ group, s.connectionCount ≤ 1 := by
      intro s hs
      by_contra hcount
      have := h s hs (by omega)
      omega
    rw [connections_eq_length hone]
    cases group with
    | nil => rfl
    | cons s rest =>
      rw [connections_mergeRuns _ (le_refl 1), length_cons, Nat.add_comm]
      rfl

/-- The connections of a batch, group by group. -/
theorem connections_groups {batch : List AccessSession} {keys : List ConsolidationKey}
    (hnodup : keys.Nodup) (hkeys : ∀ s ∈ batch, s.consolidationKey ∈ keys) :
    (keys.map (fun k => connections (batch.filter (fun s => s.consolidationKey = k)))).sum =
      connections batch := by
  induction batch with
  | nil => simp
  | cons s batch ih =>
    have hone : (keys.map (fun k =>
        if s.consolidationKey = k then s.connections else 0)).sum = s.connections := by
      rw [← sum_toFinset _ hnodup, Finset.sum_ite_eq, if_pos]
      exact mem_toFinset.mpr (hkeys s mem_cons_self)
    have hsplit : ∀ k, connections ((s :: batch).filter (fun t => t.consolidationKey = k)) =
        (if s.consolidationKey = k then s.connections else 0) +
          connections (batch.filter (fun t => t.consolidationKey = k)) := by
      intro k
      by_cases hk : s.consolidationKey = k
      · simp [hk]
      · simp [hk]
    simp only [hsplit, sum_map_add, hone, connections_cons]
    rw [ih (fun t ht => hkeys t (mem_cons_of_mem s ht))]

/-- A session that counts several connections is the only one of its group. -/
def Recountable (batch : List AccessSession) : Prop :=
  ∀ s ∈ batch, 2 ≤ s.connectionCount →
    (batch.filter (fun t => t.consolidationKey = s.consolidationKey)).length ≤ 1
  deriving Decidable

/-- **When a merge keeps the count.** -/
theorem consolidateSessions_connections {batch : List AccessSession}
    {groups : List (ConsolidationKey × List AccessSession)} (h : Arranges batch groups)
    (hrec : Recountable batch) :
    connections (consolidateSessions batch groups) = connections batch := by
  unfold consolidateSessions
  split
  · rfl
  · have hgroup : ∀ p ∈ groups, connections (mergeGroup p.1 p.2) =
        connections (batch.filter (fun s => s.consolidationKey = p.1)) := by
      intro p hp
      have hperm := h.members p hp
      rw [← connections_perm hperm]
      refine connections_mergeGroup p.1 ?_
      intro s hs hcount
      obtain ⟨hmem, hkey⟩ := mem_filter.mp (hperm.mem_iff.mp hs)
      have hlen := hrec s hmem hcount
      rw [decide_eq_true_eq] at hkey
      rw [hperm.length_eq, ← hkey]
      exact hlen
    have hkeys : ∀ s ∈ batch, s.consolidationKey ∈ groups.map Prod.fst := by
      intro s hs
      rw [h.keys.mem_iff, mem_dedup]
      exact mem_map_of_mem hs
    rw [connections_flatMap, map_congr_left hgroup,
      ← connections_groups (h.keys.nodup_iff.mpr (nodup_dedup _)) hkeys, map_map]
    rfl

namespace AccessLogger

/-- Sessions that are open count a single connection. -/
def OpenSingle (al : AccessLogger) : Prop :=
  ∀ ref, (al.heap ref).connectionCount ≤ 1

/-- What a call that starts or ends sessions does: it queues the sessions it ends, single
connections. -/
structure Grows (al al' : AccessLogger) : Prop where
  queue : ∃ ended : List AccessSession, al'.completedSessions = al.completedSessions ++ ended ∧
    al'.ended = al.ended + ended.length ∧ ∀ s ∈ ended, s.connectionCount ≤ 1
  single : al'.OpenSingle
  sendFn : al'.sendFn = al.sendFn

variable {al al' al'' : AccessLogger}

theorem Grows.refl (h : al.OpenSingle) : al.Grows al :=
  ⟨⟨[], (append_nil _).symm, rfl, fun _ hs => absurd hs not_mem_nil⟩, h, rfl⟩

theorem Grows.trans (h : al.Grows al') (h' : al'.Grows al'') : al.Grows al'' := by
  obtain ⟨l, hl, hended, hsingle⟩ := h.queue
  obtain ⟨l', hl', hended', hsingle'⟩ := h'.queue
  refine ⟨⟨l ++ l', ?_, ?_, ?_⟩, h'.single, h'.sendFn.trans h.sendFn⟩
  · rw [hl', hl, append_assoc]
  · rw [hended', hended, length_append, Nat.add_assoc]
  · intro s hs
    rcases mem_append.mp hs with hs | hs
    · exact hsingle s hs
    · exact hsingle' s hs

/-- The maps do not matter. -/
theorem Grows.congr (h : al.Grows al') (hqueue : al''.completedSessions = al'.completedSessions)
    (hended : al''.ended = al'.ended) (hheap : al''.heap = al'.heap)
    (hsend : al''.sendFn = al'.sendFn) : al.Grows al'' := by
  refine ⟨?_, ?_, hsend.trans h.sendFn⟩
  · rw [hqueue, hended]
    exact h.queue
  · unfold OpenSingle
    rw [hheap]
    exact h.single

variable (h : al.OpenSingle)

include h

theorem OpenSingle.update {session : AccessSession} (hs : session.connectionCount ≤ 1)
    (ref r : Nat) : (Function.update al.heap ref session r).connectionCount ≤ 1 := by
  by_cases hr : r = ref
  · rw [hr, Function.update_self]
    exact hs
  · rw [Function.update_of_ne hr]
    exact h r

theorem grows_insertSession {session : AccessSession} (hs : session.connectionCount ≤ 1) :
    al.Grows (al.insertSession session) :=
  ⟨(Grows.refl h).queue, h.update hs al.nextRef, rfl⟩

theorem grows_complete (ref : Nat) (now : Int) : al.Grows (al.complete ref now) := by
  refine ⟨⟨[{ al.heap ref with endedAt := now }], rfl, rfl, ?_⟩, ?_, rfl⟩
  · intro s hs
    rw [mem_singleton.mp hs]
    exact h ref
  · have hs : ({ al.heap ref with endedAt := now } : AccessSession).connectionCount ≤ 1 := h ref
    exact h.update hs ref

theorem grows_startTCPSession (id : String) (r : Int) (src dst : String) (now : Int) :
    al.Grows (al.startTCPSession id r src dst now) :=
  grows_insertSession h (Nat.zero_le 1)

theorem grows_trackUDPSession (id : String) (r : Int) (src dst : String) (now : Int) :
    al.Grows (al.trackUDPSession id r src dst now) := by
  unfold trackUDPSession
  simp only
  split
  · exact Grows.refl h
  · exact (grows_insertSession h (Nat.zero_le 1)).congr rfl rfl rfl rfl

theorem grows_endTCPSession (id : String) (now : Int) : al.Grows (al.endTCPSession id now) := by
  unfold endTCPSession
  split
  · exact Grows.refl h
  · exact (grows_complete h _ now).congr rfl rfl rfl rfl

theorem grows_endUDPSession (id : String) (now : Int) : al.Grows (al.endUDPSession id now) := by
  unfold endUDPSession
  split
  · exact Grows.refl h
  · exact (grows_complete h _ now).congr rfl rfl rfl rfl

theorem grows_reapKey (now : Int) (key : UdpSessionKey) : al.Grows (reapKey now al key) := by
  unfold reapKey
  split
  · exact Grows.refl h
  · simp only
    split
    · exact (grows_complete h _ now).congr rfl rfl rfl rfl
    · exact Grows.refl h

theorem grows_shutdownSession (now : Int) (id : String) : al.Grows (shutdownSession now al id) := by
  unfold shutdownSession
  split
  · exact Grows.refl h
  · split
    · exact grows_complete h _ now
    · exact Grows.refl h

omit h

/-- A loop of calls. -/
theorem grows_foldl {β : Type} {f : AccessLogger → β → AccessLogger}
    (hf : ∀ (al : AccessLogger) (x : β), al.OpenSingle → al.Grows (f al x))
    (h : al.OpenSingle) (l : List β) :
    al.Grows (l.foldl f al) := by
  induction l generalizing al with
  | nil => exact Grows.refl h
  | cons x l ih =>
    have hx := hf al x h
    exact hx.trans (ih hx.single)

end AccessLogger

namespace Sys

open AccessLogger

/-- Every session that has ended since `base` connections were queued is
delivered, queued, being sent or dropped, and counted once. -/
structure Balanced (base : Nat) (s : Sys) : Prop where
  sendFn : s.logger.sendFn = true
  single : s.logger.OpenSingle
  balance : connections s.delivered + connections s.logger.completedSessions +
    connections s.sending.flatten + connections s.dropped = base + s.logger.ended

/-- A logger that has just been given its send function. -/
structure Initial (s : Sys) : Prop where
  sendFn : s.logger.sendFn = true
  single : s.logger.OpenSingle
  sending : s.sending = []
  delivered : s.delivered = []
  dropped : s.dropped = []
  ended : s.logger.ended = 0

/-- The condition on a step: what is sent can be merged again, and can be
compressed. -/
def KeepsCount (s : Sys) : Event → Prop
  | .finish i _ outcome =>
    outcome ≠ .compressError ∧ ∀ batch ∈ s.sending[i]?, Recountable batch
  | _ => True

instance (s : Sys) (e : Event) : Decidable (s.KeepsCount e) := by
  unfold KeepsCount
  split <;> infer_instance

variable {base : Nat} {s s' : Sys} {e : Event}

theorem balanced_initial (h : s.Initial) :
    s.Balanced (connections s.logger.completedSessions) := by
  refine ⟨h.sendFn, h.single, ?_⟩
  rw [h.delivered, h.sending, h.dropped, h.ended, flatten_nil, connections_nil]
  omega

theorem Balanced.withLogger (h : s.Balanced base) {al : AccessLogger} (hal : s.logger.Grows al) :
    (s.withLogger al).Balanced base := by
  obtain ⟨ended, hqueue, hended, hsingle⟩ := hal.queue
  refine ⟨hal.sendFn.trans h.sendFn, hal.single, ?_⟩
  have hbalance := h.balance
  simp only [Sys.withLogger, hqueue, hended, connections_append, connections_eq_length hsingle]
  omega

theorem Balanced.onFlush (h : s.Balanced base) : s.onFlush.Balanced base := by
  unfold Sys.onFlush
  split
  · exact h
  · refine ⟨h.sendFn, h.single, ?_⟩
    have hbalance := h.balance
    simp only [h.sendFn, if_true, flatten_append, flatten_cons, flatten_nil,
      append_nil, connections_append, connections_nil]
    omega

/-- A batch leaves those that are being sent. -/
theorem connections_eraseIdx {sending : List (List AccessSession)} {i : Nat}
    {batch : List AccessSession} (h : sending[i]? = some batch) :
    connections sending.flatten =
      connections batch + connections (sending.eraseIdx i).flatten := by
  obtain ⟨hlt, hget⟩ := List.getElem?_eq_some_iff.mp h
  have hperm := (List.getElem_cons_eraseIdx_perm hlt).flatten
  rw [hget, List.flatten_cons] at hperm
  rw [← connections_perm hperm, connections_append]

theorem Balanced.onFinish (h : s.Balanced base) {i : Nat} {batch : List AccessSession}
    {groups : List (ConsolidationKey × List AccessSession)} {outcome : Outcome}
    (hget : s.sending[i]? = some batch) (harr : Arranges batch groups)
    (hok : outcome ≠ .compressError) (hrec : Recountable batch) :
    (s.onFinish i batch groups outcome).Balanced base := by
  have hmerged := consolidateSessions_connections harr hrec
  have hsending := connections_eraseIdx hget
  have hbalance := h.balance
  cases outcome with
  | compressError => exact absurd rfl hok
  | sent =>
    refine ⟨h.sendFn, h.single, ?_⟩
    simp only [Sys.onFinish, connections_append, hmerged]
    omega
  | sendError =>
    refine ⟨h.sendFn, h.single, ?_⟩
    -- The cap splits the queue; what it cuts off is recorded as dropped.
    have hcap : connections ((consolidateSessions batch groups ++
          s.logger.completedSessions).take (maxBufferedSessions * 5)) +
        connections ((consolidateSessions batch groups ++
          s.logger.completedSessions).drop (maxBufferedSessions * 5)) =
        connections batch + connections s.logger.completedSessions := by
      rw [← connections_append, take_append_drop, connections_append, hmerged]
    simp only [Sys.onFinish, requeue, connections_append]
    omega

/-- **One step keeps the balance** when it meets the condition. -/
theorem Balanced.step (h : s.Balanced base) (hc : s.KeepsCount e) (hs : s.step e = some s') :
    s'.Balanced base := by
  cases e with
  | startTCP id r src dst now =>
    cases hs
    exact h.withLogger (grows_startTCPSession h.single id r src dst now)
  | endTCP id now =>
    cases hs
    exact h.withLogger (grows_endTCPSession h.single id now)
  | trackUDP id r src dst now =>
    cases hs
    exact h.withLogger (grows_trackUDPSession h.single id r src dst now)
  | endUDP id now =>
    cases hs
    exact h.withLogger (grows_endUDPSession h.single id now)
  | reap order now =>
    obtain ⟨-, hs⟩ := Option.ite_none_right_eq_some.mp hs
    cases hs
    exact h.withLogger (grows_foldl (fun al k hal => grows_reapKey hal now k) h.single order)
  | close order now =>
    obtain ⟨-, hs⟩ := Option.ite_none_right_eq_some.mp hs
    cases hs
    have hgrows : s.logger.Grows (order.foldl (shutdownSession now) s.logger) :=
      grows_foldl (fun al k hal => grows_shutdownSession hal now k) h.single order
    exact h.withLogger (hgrows.congr rfl rfl rfl rfl)
  | flush =>
    cases hs
    exact h.onFlush
  | finish i groups outcome =>
    obtain ⟨batch, hget, hs⟩ := Option.bind_eq_some_iff.mp hs
    obtain ⟨harr, hs⟩ := Option.ite_none_right_eq_some.mp hs
    cases hs
    obtain ⟨hok, hrec⟩ := hc
    exact h.onFinish hget harr hok (hrec batch hget)

/-- **Every ended session is accounted for.**  After a send function was set,
the connections delivered, queued or being sent, and dropped by the cap are the
ones queued at the start and the sessions that have ended since. -/
theorem ended_sessions_accounted {s₀ : Sys} {es : List Event} (hinit : s₀.Initial)
    (hmeets : Runs.Meets step KeepsCount s₀ es) (hrun : Runs.run step s₀ es = some s) :
    connections s.delivered +
        (connections s.logger.completedSessions + connections s.sending.flatten) +
        connections s.dropped =
      connections s₀.logger.completedSessions + s.logger.ended := by
  have h : s.Balanced (connections s₀.logger.completedSessions) :=
    Runs.run_invariant (fun h hc hs => h.step hc hs) (balanced_initial hinit) hmeets hrun
  have hbalance := h.balance
  omega

theorem initial_fresh : fresh.Initial :=
  ⟨rfl, fun _ => Nat.zero_le 1, rfl, rfl, rfl, rfl⟩

/-- A short connection from 10.0.0.1 to 10.0.0.5:80, within its second. -/
def visited (sessionId srcAddr : String) (second : Int) : AccessSession :=
  { sessionId := sessionId, resourceId := 7, sourceAddr := srcAddr, destAddr := "10.0.0.5:80",
    protocol := .tcp, startedAt := second * 1000000000,
    endedAt := second * 1000000000 + 500000000 }

def visit (s : AccessSession) : List Event :=
  [.startTCP s.sessionId s.resourceId s.sourceAddr s.destAddr s.startedAt,
    .endTCP s.sessionId s.endedAt]

def firstVisit : AccessSession := visited "a" "10.0.0.1:1000" 1

def secondVisit : AccessSession := visited "b" "10.0.0.1:1001" 2

def thirdVisit : AccessSession := visited "c" "10.0.0.1:1002" 3

/-- The first two visits as one session. -/
def mergedVisits : AccessSession :=
  { firstVisit with
    sourceAddr := "10.0.0.1", connectionCount := 2, endedAt := secondVisit.endedAt }

/-- Two connections in a burst whose batch cannot be sent. -/
def failedBurst : List Event :=
  visit firstVisit ++ visit secondVisit ++
    [.flush, .finish 0 [(firstVisit.consolidationKey, [firstVisit, secondVisit])] .sendError]

/-- A flush whose one group is sent. -/
def resend (batch : List AccessSession) : List Event :=
  [.flush, .finish 0 [(firstVisit.consolidationKey, batch)] .sent]

/-- The burst is merged, queued again and sent as two connections. -/
theorem failed_burst_resent :
    let es := failedBurst ++ resend [mergedVisits]
    Runs.Meets step KeepsCount fresh es ∧ ∃ s, Runs.run step fresh es = some s ∧
      s.delivered = [mergedVisits] ∧ s.logger.ended = 2 ∧
      connections s.delivered +
          (connections s.logger.completedSessions + connections s.sending.flatten) +
          connections s.dropped =
        connections fresh.logger.completedSessions + s.logger.ended := by
  have hmeets : Runs.Meets step KeepsCount fresh (failedBurst ++ resend [mergedVisits]) := by
    decide +kernel
  refine ⟨hmeets, _, rfl, by decide +kernel, by decide +kernel, ?_⟩
  exact ended_sessions_accounted initial_fresh hmeets rfl

/-- **A burst that loses a connection.**  A third connection ends before the
merged session is sent again, and three connections are delivered as two. -/
theorem requeued_burst_recounted :
    ∃ s, Runs.run step fresh
        (failedBurst ++ visit thirdVisit ++ resend [mergedVisits, thirdVisit]) = some s ∧
      s.logger.completedSessions = [] ∧ s.sending = [] ∧ s.dropped = [] ∧
      connections s.delivered = 2 ∧ s.logger.ended = 3 :=
  ⟨_, rfl, by decide +kernel, by decide +kernel, by decide +kernel, by decide +kernel,
    by decide +kernel⟩

end Sys

end Newt.AccessLog
