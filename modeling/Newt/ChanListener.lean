import Newt.Lib.Runs
import Newt.Lib.Tasks
import Newt.SubnetLookup

/-!
# The listener of the HTTP handler

`HandleConn` hands a connection to the HTTP server over a buffered channel, and
`Accept` takes it out on the other side.  Both select between this channel and one
that `Close` closes, and a select with several ready cases takes any of them.
`Close` does nothing else: it leaves the buffer as it is.

Each connection that was handed over is at one place at any time: with its call of
`HandleConn`, in the buffer, with the call of `Accept` that returned it, or closed.

* `every_conn_at_one_place` — this holds in every run;
* `conns_accepted_or_closed` — after `Close` nothing is in the buffer, and no send
  begun after it succeeds, if `Close` finds the buffer empty and no call of
  `HandleConn` under way, and none follows;
* `conn_left_in_buffer` — otherwise a connection can stay in the buffer, and a send
  after `Close` can report success.
-/

namespace Newt.ChanListener

open List Option Runs

/-- A connection of the netstack, with the port of its local address if this is a
TCP address. -/
structure Conn where
  id : Nat
  localPort : Option Nat
  deriving DecidableEq, Repr

/-- `httpConnCtx`. -/
structure HttpConnCtx where
  conn : Conn
  rule : SubnetRule
  isTLS : Bool
  deriving DecidableEq, Repr

/-- A call of `HandleConn`: at its start, in `send` (with whether the listener was
already closed when the send began), or done. -/
inductive HandlePC
  | start (conn : Conn) (rule : SubnetRule)
  | send (wrapped : HttpConnCtx) (late : Bool)
  | returned
  deriving DecidableEq, Repr

/-- A call of `Accept`: in its select, or back with a connection or an error. -/
inductive AcceptPC
  | select
  | conn (wrapped : HttpConnCtx)
  | errClosed
  deriving DecidableEq, Repr

/-- The listener with the calls on it, and a record of the connections handed over,
of those that were closed and of the sends begun after `Close` that succeeded. -/
structure Sys where
  connCh : List HttpConnCtx
  closed : Bool
  handles : List HandlePC
  accepts : List AcceptPC
  handed : List Conn
  closedConns : List Conn
  lateSends : List HttpConnCtx

/-- `handle` is the part of `HandleConn` before its send, with what `getTLSConfig`
answers.  The other events of the calls are the two cases of their selects. -/
inductive Event
  | handleConn (conn : Conn) (rule : SubnetRule)
  | handle (i : Nat) (tlsConfig : Bool)
  | sendConn (i : Nat)
  | sendClosed (i : Nat)
  | accept
  | acceptConn (i : Nat)
  | acceptClosed (i : Nat)
  | close

def HandlePC.held : HandlePC → Option Conn
  | .start conn _ => some conn
  | .send wrapped _ => some wrapped.conn
  | .returned => none

def AcceptPC.held : AcceptPC → Option Conn
  | .conn wrapped => some wrapped.conn
  | _ => none

namespace Sys

/-- `newChanListener`. -/
def init : Sys :=
  { connCh := [], closed := false, handles := [], accepts := [], handed := [],
    closedConns := [], lateSends := [] }

/-- `HandleConn` terminates TLS for an HTTPS rule on port 443 only. -/
def doTLS (conn : Conn) (rule : SubnetRule) : Bool :=
  rule.protocol == "https" && conn.localPort == some 443

def step (s : Sys) : Event → Option Sys
  | .handleConn conn rule =>
    some { s with handles := s.handles ++ [.start conn rule], handed := s.handed ++ [conn] }
  | .handle i tlsConfig =>
    match s.handles[i]? with
    | some (.start conn rule) =>
      if doTLS conn rule && !tlsConfig then
        some { s with handles := s.handles.set i .returned, closedConns := s.closedConns ++ [conn] }
      else
        let wrapped := { conn := conn, rule := rule, isTLS := doTLS conn rule }
        some { s with handles := s.handles.set i (.send wrapped s.closed) }
    | _ => none
  | .sendConn i =>
    match s.handles[i]? with
    | some (.send wrapped late) =>
      if s.connCh.length < 128 then
        some { s with handles := s.handles.set i .returned, connCh := s.connCh ++ [wrapped],
                      lateSends := if late then s.lateSends ++ [wrapped] else s.lateSends }
      else none
    | _ => none
  | .sendClosed i =>
    match s.handles[i]? with
    | some (.send wrapped _) =>
      if s.closed then
        some { s with handles := s.handles.set i .returned,
                      closedConns := s.closedConns ++ [wrapped.conn] }
      else none
    | _ => none
  | .accept => some { s with accepts := s.accepts ++ [.select] }
  | .acceptConn i =>
    match s.accepts[i]?, s.connCh with
    | some .select, wrapped :: rest =>
      some { s with accepts := s.accepts.set i (.conn wrapped), connCh := rest }
    | _, _ => none
  | .acceptClosed i =>
    match s.accepts[i]? with
    | some .select =>
      if s.closed then some { s with accepts := s.accepts.set i .errClosed } else none
    | _ => none
  | .close => some { s with closed := true }

open HandlePC

/-- The connections still with a call of `HandleConn`. -/
def pending (s : Sys) : List Conn :=
  s.handles.filterMap held

/-- The connections that calls of `Accept` returned. -/
def accepted (s : Sys) : List Conn :=
  s.accepts.filterMap AcceptPC.held

variable {i : Nat} {pc : HandlePC}

open HttpConnCtx

/-- The connections at each of their places. -/
def places (s : Sys) : List Conn :=
  s.pending ++ s.connCh.map conn ++ s.accepted ++ s.closedConns

variable {s s' : Sys} {e : Event}

/-! ## The steps of the calls -/

theorem handle_cases {tlsConfig : Bool} (hs : s.step (.handle i tlsConfig) = some s') :
    ∃ conn rule, s.handles[i]? = some (.start conn rule) ∧
      (s' = { s with handles := s.handles.set i .returned,
                     closedConns := s.closedConns ++ [conn] } ∨
        s' = { s with
          handles := s.handles.set i
            (.send { conn := conn, rule := rule, isTLS := doTLS conn rule } s.closed) }) := by
  simp only [step] at hs
  split at hs
  · next conn rule hi =>
    refine ⟨conn, rule, hi, ?_⟩
    split at hs
    · exact Or.inl (some.inj hs).symm
    · exact Or.inr (some.inj hs).symm
  · cases hs

theorem sendConn_cases (hs : s.step (.sendConn i) = some s') :
    ∃ wrapped late, s.handles[i]? = some (.send wrapped late) ∧
      s' = { s with handles := s.handles.set i .returned, connCh := s.connCh ++ [wrapped],
                    lateSends := if late then s.lateSends ++ [wrapped] else s.lateSends } := by
  simp only [step] at hs
  split at hs
  · next wrapped late hi =>
    split at hs
    · exact ⟨wrapped, late, hi, (some.inj hs).symm⟩
    · cases hs
  · cases hs

theorem sendClosed_cases (hs : s.step (.sendClosed i) = some s') :
    ∃ wrapped late, s.handles[i]? = some (.send wrapped late) ∧ s.closed = true ∧
      s' = { s with handles := s.handles.set i .returned,
                    closedConns := s.closedConns ++ [wrapped.conn] } := by
  simp only [step] at hs
  split at hs
  · next wrapped late hi =>
    split at hs
    · next hclosed => exact ⟨wrapped, late, hi, hclosed, (some.inj hs).symm⟩
    · cases hs
  · cases hs

theorem acceptConn_cases (hs : s.step (.acceptConn i) = some s') :
    ∃ wrapped rest, s.accepts[i]? = some .select ∧ s.connCh = wrapped :: rest ∧
      s' = { s with accepts := s.accepts.set i (.conn wrapped), connCh := rest } := by
  simp only [step] at hs
  split at hs
  · next wrapped rest hi hch => exact ⟨wrapped, rest, hi, hch, (some.inj hs).symm⟩
  · cases hs

theorem acceptClosed_cases (hs : s.step (.acceptClosed i) = some s') :
    s.accepts[i]? = some .select ∧
      s' = { s with accepts := s.accepts.set i .errClosed } := by
  simp only [step] at hs
  split at hs
  · next hi =>
    split at hs
    · exact ⟨hi, (some.inj hs).symm⟩
    · cases hs
  · cases hs

/-! ## Connections at one place -/

theorem count_places (s : Sys) (y : Conn) :
    s.places.count y = (s.handles.filterMap held).count y + (s.connCh.map conn).count y +
      (s.accepts.filterMap AcceptPC.held).count y + s.closedConns.count y := by
  unfold places
  rw [count_append, count_append, count_append]
  rfl

/-- A call of `HandleConn` returns and lets its connection go. -/
theorem count_pending_returned (hi : s.handles[i]? = some pc) {conn : Conn}
    (hheld : pc.held = some conn) (y : Conn) :
    ((s.handles.set i .returned).filterMap held).count y + [conn].count y =
      (s.handles.filterMap held).count y := by
  have hset := Tasks.count_filterMap_set held hi .returned y
  rw [hheld] at hset
  exact hset

/-- Each connection handed over is at one place. -/
def Conserved (s : Sys) : Prop :=
  s.places.Perm s.handed

/-- Every step keeps the connections together. -/
theorem Conserved.step (h : s.Conserved) (hs : s.step e = some s') : s'.Conserved := by
  unfold Conserved at h ⊢
  rw [perm_iff_count] at h ⊢
  intro y
  have hy := h y
  rw [count_places] at hy ⊢
  cases e with
  | handleConn conn rule =>
    cases hs
    simp only [filterMap_append, count_append, filterMap_cons, held, filterMap_nil]
    omega
  | handle i tlsConfig =>
    obtain ⟨conn, rule, hi, rfl | rfl⟩ := handle_cases hs
    · have hset := count_pending_returned hi rfl y
      simp only [count_append]
      omega
    · have hset := Tasks.count_filterMap_set held hi
        (.send { conn := conn, rule := rule, isTLS := doTLS conn rule } s.closed) y
      simp only [held] at hset ⊢
      omega
  | sendConn i =>
    obtain ⟨wrapped, late, hi, rfl⟩ := sendConn_cases hs
    have hset := count_pending_returned hi rfl y
    simp only [map_append, map_cons, map_nil, count_append]
    omega
  | sendClosed i =>
    obtain ⟨wrapped, late, hi, -, rfl⟩ := sendClosed_cases hs
    have hset := count_pending_returned hi rfl y
    simp only [count_append]
    omega
  | accept =>
    cases hs
    simpa [AcceptPC.held, filterMap_cons] using hy
  | acceptConn i =>
    obtain ⟨wrapped, rest, hi, hch, rfl⟩ := acceptConn_cases hs
    have hset := Tasks.count_filterMap_set AcceptPC.held hi (.conn wrapped) y
    rw [hch, map_cons, count_cons] at hy
    simp only [AcceptPC.held, toList_some, toList_none, count_cons, count_nil] at hset ⊢
    omega
  | acceptClosed i =>
    obtain ⟨hi, rfl⟩ := acceptClosed_cases hs
    have hset := Tasks.count_filterMap_set AcceptPC.held hi .errClosed y
    simp only [AcceptPC.held] at hset ⊢
    omega
  | close =>
    cases hs
    exact hy

theorem conserved_init : init.Conserved :=
  List.Perm.refl []

/-- **Every connection is at one place**: in every run, each connection handed over
is with its call of `HandleConn`, in the buffer, returned by an `Accept` or closed,
and only once. -/
theorem every_conn_at_one_place {es : List Event} {s : Sys}
    (hrun : run step init es = some s) : s.Conserved :=
  run_always (fun h hs => Conserved.step h hs) conserved_init hrun

/-- `Close` comes when the buffer is empty and every call of `HandleConn` has
returned, and no such call follows it. -/
def Undisturbed (s : Sys) : Event → Prop
  | .close => s.connCh = [] ∧ ∀ pc ∈ s.handles, pc = .returned
  | .handleConn _ _ => s.closed = false
  | _ => True

instance (s : Sys) (e : Event) : Decidable (s.Undisturbed e) := by
  unfold Undisturbed
  split <;> infer_instance

/-- Each connection is at one place, after `Close` it was returned by an `Accept` or
closed, and no send begun after `Close` has succeeded. -/
structure Accounted (s : Sys) : Prop where
  once : s.Conserved
  settled : s.closed = true →
    s.connCh = [] ∧ (s.accepted ++ s.closedConns).Perm s.handed
  refused : s.lateSends = []

/-- The invariant: after `Close` no call is at work. -/
structure Sound (s : Sys) : Prop where
  once : s.Conserved
  idle : s.closed = true → s.connCh = [] ∧ ∀ pc ∈ s.handles, pc = .returned
  early : ∀ wrapped, .send wrapped true ∉ s.handles
  refused : s.lateSends = []

theorem Sound.accounted (h : s.Sound) : s.Accounted where
  once := h.once
  settled := by
    intro hclosed
    obtain ⟨hch, hreturned⟩ := h.idle hclosed
    have hpending : s.pending = [] := by
      refine filterMap_eq_nil_iff.mpr fun pc hpc => ?_
      rw [hreturned pc hpc]
      rfl
    have honce := h.once
    unfold Conserved places at honce
    rw [hpending, hch] at honce
    exact ⟨hch, honce⟩
  refused := h.refused

/-- After `Close` there is no call that could move. -/
theorem Sound.open_of_call (h : s.Sound) (hi : s.handles[i]? = some pc) (hne : pc ≠ .returned) :
    s.closed = false := by
  by_contra hclosed
  exact hne ((h.idle (Bool.not_eq_false _ ▸ hclosed)).2 pc (mem_of_getElem? hi))

/-- A call of `HandleConn` moves before `Close`. -/
theorem Sound.setHandle (h : s.Sound) (honce : s'.Conserved) (hopen : s'.closed = false)
    {pc' : HandlePC} (hhandles : s'.handles = s.handles.set i pc')
    (hpc' : ∀ wrapped, pc' ≠ .send wrapped true) (hlate : s'.lateSends = s.lateSends) :
    s'.Sound where
  once := honce
  idle := by
    rw [hopen]
    exact nofun
  early := by
    intro wrapped hmem
    rw [hhandles] at hmem
    rcases mem_or_eq_of_mem_set hmem with hmem | heq
    · exact h.early wrapped hmem
    · exact hpc' wrapped heq.symm
  refused := by
    rw [hlate]
    exact h.refused

theorem Sound.step (h : s.Sound) (he : s.Undisturbed e) (hs : s.step e = some s') : s'.Sound := by
  have honce := h.once.step hs
  cases e with
  | handleConn conn rule =>
    cases hs
    refine ⟨honce, ?_, ?_, h.refused⟩
    · intro hclosed
      cases he.symm.trans hclosed
    · intro wrapped hmem
      rcases mem_append.mp hmem with hmem | hmem
      · exact h.early wrapped hmem
      · cases mem_singleton.mp hmem
  | handle i tlsConfig =>
    obtain ⟨conn, rule, hi, hmoved⟩ := handle_cases hs
    have hopen := h.open_of_call hi (nomatch ·)
    rcases hmoved with rfl | rfl
    · exact h.setHandle honce hopen rfl (fun _ heq => (nomatch heq)) rfl
    · refine h.setHandle honce hopen rfl ?_ rfl
      intro wrapped heq
      have hlate := (send.inj heq).2
      cases hopen.symm.trans hlate
  | sendConn i =>
    obtain ⟨wrapped, late, hi, rfl⟩ := sendConn_cases hs
    have hopen := h.open_of_call hi (nomatch ·)
    refine h.setHandle honce hopen rfl (fun _ heq => (nomatch heq)) ?_
    cases late with
    | false => rfl
    | true => exact absurd (mem_of_getElem? hi) (h.early wrapped)
  | sendClosed i =>
    obtain ⟨wrapped, late, hi, hclosed, rfl⟩ := sendClosed_cases hs
    have hopen := h.open_of_call hi (nomatch ·)
    cases hopen.symm.trans hclosed
  | accept =>
    cases hs
    exact ⟨honce, h.idle, h.early, h.refused⟩
  | acceptConn i =>
    obtain ⟨wrapped, rest, hi, hch, rfl⟩ := acceptConn_cases hs
    refine ⟨honce, ?_, h.early, h.refused⟩
    intro hclosed
    have hidle := h.idle hclosed
    rw [hch] at hidle
    cases hidle.1
  | acceptClosed i =>
    obtain ⟨-, rfl⟩ := acceptClosed_cases hs
    exact ⟨honce, h.idle, h.early, h.refused⟩
  | close =>
    cases hs
    exact ⟨honce, fun _ => he, h.early, h.refused⟩

theorem sound_init : init.Sound :=
  ⟨conserved_init, (nomatch ·), fun _ => not_mem_nil, rfl⟩

/-- **Accepted or closed**: in every interleaving of `HandleConn`, `Accept` and
`Close`, each connection handed over is at one place; after `Close` the buffer is
empty and each connection was returned by exactly one `Accept` or closed, and no
send begun after `Close` succeeds, if `Close` finds the buffer empty and no call of
`HandleConn` under way, and none follows it. -/
theorem conns_accepted_or_closed {es : List Event} {s : Sys}
    (hmeets : Runs.Meets step Undisturbed init es) (hrun : run step init es = some s) :
    s.Accounted :=
  (run_invariant (fun h he hs => Sound.step h he hs) sound_init hmeets hrun).accounted

/-- A rule for plain HTTP. -/
def plainRule : SubnetRule :=
  { sourcePrefix := .from4 0x0A000000 8, destPrefix := .from4 0x0A010000 16, protocol := "http" }

def connection (id : Nat) : Conn :=
  { id := id, localPort := some 80 }

/-- A rule that terminates TLS, and a connection to it. -/
def tlsRule : SubnetRule := { plainRule with protocol := "https" }

def tlsConnection : Conn := { id := 1, localPort := some 443 }

/-- Of two connections one is accepted before `Close`, and the other has no TLS
configuration. -/
def acceptedInTime : List Event :=
  [.accept, .handleConn (connection 0) plainRule, .handleConn tlsConnection tlsRule,
    .handle 1 false, .handle 0 true, .sendConn 0, .acceptConn 0, .close, .accept, .acceptClosed 1]

theorem conns_accepted_or_closed_acceptedInTime :
    ∃ s, run step init acceptedInTime = some s ∧ s.closed = true ∧
      s.accepted = [connection 0] ∧ s.closedConns = [tlsConnection] ∧ s.Accounted := by
  have hmeets : Runs.Meets step Undisturbed init acceptedInTime := by decide
  simp only [← and_assoc]
  refine Exists.imp (fun s h => ⟨h, conns_accepted_or_closed hmeets h.1.1.1⟩) ?_
  simp only [and_assoc]
  decide

theorem acceptedInTime_conserved :
    ∃ s, run step init acceptedInTime = some s ∧ s.Conserved :=
  ⟨_, rfl, @every_conn_at_one_place acceptedInTime _ rfl⟩

/-- The server is closed with one connection in the buffer, and a second is handed
over afterwards. -/
def leftInBuffer : List Event :=
  [.handleConn (connection 0) plainRule, .handle 0 true, .sendConn 0, .close, .accept,
    .acceptClosed 0, .handleConn (connection 1) plainRule, .handle 1 true, .sendConn 1]

/-- All calls have returned, both connections are in the buffer and neither was
accepted or closed; the second send began after `Close` and reported success. -/
theorem conn_left_in_buffer :
    ∃ s, run step init leftInBuffer = some s ∧ s.closed = true ∧
      (∀ pc ∈ s.handles, pc = .returned) ∧ (∀ pc ∈ s.accepts, pc = .errClosed) ∧
      s.connCh.map conn = [connection 0, connection 1] ∧
      s.accepted ++ s.closedConns = [] ∧ s.lateSends.map conn = [connection 1] := by
  decide +kernel

end Sys

end Newt.ChanListener
