import Newt.WebsocketClientSafety

/-!
# Why a websocket connection is closed

The goroutines of a client close the connection in the field `c.conn`: a read pump at the
end of its connection, a ping monitor after a write that has failed, and `Close`.  The
failed reads and writes of a run are recorded beside the client, the last one first, with
the goroutine and the connection of each.

A ping monitor releases the lock between its failed write and its close of the field.  If
a new connection is stored there in between, it is the new one that is closed.
-/

namespace Newt.Websocket

open List Client Goroutine Option

/-- The write of a ping has failed, and the connection in the field is to be closed. -/
def PingPC.failing : PingPC → Bool
  | .unlock failed => failed
  | .shutdown | .lockAgain | .testAgain | .closeConn => true
  | _ => false

/-- The read loop has ended, and the connection in the field is to be closed. -/
def PumpPC.ending : PumpPC → Bool
  | .signal | .test | .closeConn | .shutdown | .lock | .retest | .closeAgain => true
  | _ => false

def Goroutine.failing : Goroutine → Bool
  | .pingMonitor _ pc => pc.failing
  | _ => false

/-- The connection whose read pump the goroutine is, if its read loop has ended. -/
def Goroutine.ending : Goroutine → Option Nat
  | .readPump k pc => if pc.ending then some k else none
  | _ => none

/-- A new connection is stored in the field next. -/
def Goroutine.assigns : Goroutine → Bool
  | .connectWithRetry (.assign _) => true
  | _ => false

/-- The connection in the field is closed next. -/
def Goroutine.closes : Goroutine → Bool
  | .pingMonitor _ .closeConn | .readPump _ .closeConn | .readPump _ .closeAgain
  | .close .closeConn => true
  | _ => false

/-- A read or write that has failed. -/
structure Failure where
  goroutine : Nat
  conn : Nat
deriving DecidableEq, Repr

namespace Client

def isClosed (s : Client) (j : Nat) : Bool :=
  s.conns[j]?.any Conn.closed

/-- The connection on which the move of a goroutine fails. -/
def failsOn (s : Client) : Goroutine → Choice → Option Nat
  | .readPump _ (.blocked j), .fail => some j
  | .pingMonitor _ .write, .fail | .close .write, .fail | .sendMessage .write, .fail => s.conn
  | _, _ => none

def failure (s : Client) : Event → Option Failure
  | .go i choice => do
      let g ← s.goroutines[i]?
      let j ← s.failsOn g choice
      return ⟨i, j⟩
  | _ => none

variable {s s' t : Client} {g g' : Goroutine} {i j k : Nat} {choice : Choice}

/-! ## What a move does -/

theorem isClosed_closeConn (h : (s.closeConn k).isClosed j = true) :
    s.isClosed j = true ∨ k = j := by
  unfold isClosed closeConn at h
  rw [getElem?_modify] at h
  by_cases hk : k = j
  · exact .inr hk
  · simp only [if_neg hk, Option.map_eq_map, Option.map_id'] at h
    exact .inl h

theorem isClosed_modify {f : Conn → Conn} (hf : ∀ c, (f c).closed = c.closed) :
    isClosed { s with conns := s.conns.modify k f } j = s.isClosed j := by
  unfold isClosed
  rw [getElem?_modify]
  cases s.conns[j]? with
  | none => rfl
  | some c =>
    simp only [Option.map_eq_map, Option.map_some, Option.any_some]
    split
    · exact hf c
    · rfl

theorem isClosed_dial :
    isClosed { s with conns := s.conns ++ [{}] } j = s.isClosed j := by
  unfold isClosed
  rw [getElem?_append]
  split
  · rfl
  · next hlt =>
    rw [getElem?_eq_none (Nat.le_of_not_lt hlt), any_none]
    cases hj : j - s.conns.length with
    | zero | succ n => rfl

/-- What a move does: `done` stays closed, only the connect loop stores a connection in the
field, and a connection is added, signalled, counted as restarted or closed. -/
def Changes (s s' : Client) (g : Goroutine) : Prop :=
  (s.done = true → s'.done = true) ∧
  (g.assigns = false → s'.conn = s.conn ∨ s'.conn = none) ∧
  (s'.conns = s.conns ∨ s'.conns = s.conns ++ [({} : Conn)] ∨
    (∃ k, s'.conns = (s.signal k).conns) ∨ (∃ k, s'.conns = (s.countRestart k).conns) ∨
    g.closes = true ∧ ∃ j, s.conn = some j ∧ s'.conns = (s.closeConn j).conns)

theorem changes_readPump {pc pc' : PumpPC} (h : s.readPump k pc choice = some (s', pc')) :
    Changes s s' (.readPump k pc) := by
  unfold readPump at h
  split at h <;>
    grind [Changes, deref, lock, unlock, closeConn, signal, countRestart, closes]

variable (h : s.move choice g = some (s', g'))

include h

theorem effect_of_move : Changes s s' g := by
  rcases moved h with hr | hr | hr | hr | hr
  · unfold connectWithRetry at hr
    split at hr <;> grind [Changes, deref, assigns]
  · unfold pingMonitor at hr
    split at hr <;> grind [Changes, deref, lock, unlock, closeConn, write_eq, closes]
  · exact changes_readPump hr
  · unfold close at hr
    split at hr <;> grind [Changes, deref, lock, unlock, closeConn, write_eq, closes]
  · unfold sendMessage at hr
    split at hr <;> grind [Changes, deref, lock, unlock, write_eq]

/-- A read loop ends because `done` is closed or because a read has failed. -/
theorem ending_of_move (hg' : g'.ending = some k) :
    g.ending = some k ∨ s.done = true ∨ ∃ j, g = .readPump k (.blocked j) ∧ choice = .fail := by
  rcases moved h with hr | hr | hr | hr | hr
  · cases hg'
  · cases hg'
  · unfold readPump at hr
    split at hr <;> grind [deref, lock, ending, PumpPC.ending]
  · cases hg'
  · cases hg'

omit h

/-- A read is on the connection in the field. -/
theorem blocked_of_move (h : s.move choice g = some (s', .readPump k (.blocked j))) :
    g = .readPump k .read ∧ s.conn = some j := by
  rcases moved h with _ | _ | hr | _ | _
  unfold readPump at hr
  split at hr <;> grind [deref, lock]

/-- The write of a ping fails on the connection in the field, and the ping monitor changes
the field at no time. -/
theorem failing_of_move (h : s.move choice g = some (s', g')) (hg' : g'.failing = true) :
    s'.conn = s.conn ∧ (g.failing = true ∨
      ∃ j, s.conn = some j ∧ s.failsOn g choice = some j) := by
  rcases moved h with hr | hr | hr | hr | hr
  · cases hg'
  · unfold pingMonitor at hr
    split at hr <;>
      grind [deref, lock, unlock, closeConn, → write_cases, failsOn, failing, PingPC.failing]
  · cases hg'
  · cases hg'
  · cases hg'

/-- The move closes the connection in the field or none. -/
theorem isClosed_of_move (h : s.move choice g = some (s', g')) (hj : s'.isClosed j = true) :
    s.isClosed j = true ∨ g.closes = true ∧ s.conn = some j := by
  unfold isClosed at hj
  rcases (effect_of_move h).2.2 with hc | hc | ⟨k, hc⟩ | ⟨k, hc⟩ | ⟨hg, k, hk, hc⟩
  · rw [hc] at hj
    exact .inl hj
  · rw [hc] at hj
    exact .inl (isClosed_dial.symm.trans hj)
  · have hsame : (s.signal k).isClosed j = s.isClosed j := isClosed_modify (fun _ => rfl)
    rw [hc] at hj
    exact .inl (hsame.symm.trans hj)
  · have hsame : (s.countRestart k).isClosed j = s.isClosed j := isClosed_modify (fun _ => rfl)
    rw [hc] at hj
    exact .inl (hsame.symm.trans hj)
  · rw [hc] at hj
    rcases isClosed_closeConn hj with hold | rfl
    · exact .inl hold
    · exact .inr ⟨hg, hk⟩

theorem started_failing (h : g.started = true) : g.failing = false ∧ g.ending = none ∧
    ∀ k j, g ≠ .readPump k (.blocked j) := by
  cases g with
  | connectWithRetry pc | close pc | sendMessage pc => exact ⟨rfl, rfl, nofun⟩
  | pingMonitor k pc | readPump k pc =>
    cases pc <;> first | exact absurd h Bool.false_ne_true | exact ⟨rfl, rfl, nofun⟩

end Client

/-! ## Runs with their failures -/

/-- A client and the reads and writes that have failed, the last one first. -/
structure Observed where
  client : Client := .init
  failures : List Failure := []
deriving DecidableEq, Repr

namespace Observed

def step (o : Observed) (e : Event) : Option Observed :=
  (o.client.step e).map (fun s => ⟨s, (o.client.failure e).toList ++ o.failures⟩)

/-- `Close` was called, or a read or write on the connection has failed. -/
def Blamed (o : Observed) (j : Nat) : Prop :=
  o.client.done = true ∨ ∃ f ∈ o.failures, f.conn = j

/-- The connection of the last read or write of a goroutine that has failed. -/
def lastFailure (o : Observed) (i : Nat) : Option Nat :=
  (o.failures.find? (fun f => f.goroutine == i)).map Failure.conn

/-- The connections that are closed. -/
structure ClosedWithCause (o : Observed) : Prop where
  closed : ∀ j, o.client.isClosed j = true → o.Blamed j
  /-- A ping monitor closes the connection on which its write has failed and no other. -/
  ping : ∀ i k j, o.client.goroutines[i]? = some (.pingMonitor k .closeConn) →
    o.client.conn = some j → o.lastFailure i = some j

/-- A new connection is stored only when no ping monitor is between its failed write and
its close. -/
def ReplacesAtRest (o : Observed) : Event → Prop
  | .go i _ => o.client.goroutines[i]?.any assigns = true →
      ∀ g ∈ o.client.goroutines, g.failing = false
  | _ => True

instance (o : Observed) (e : Event) : Decidable (o.ReplacesAtRest e) := by
  unfold ReplacesAtRest
  split <;> infer_instance

/-- The invariant. -/
structure Accounted (o : Observed) : Prop where
  sound : o.client.Sound
  closed : ∀ j, o.client.isClosed j = true → o.Blamed j
  ending : ∀ g ∈ o.client.goroutines, ∀ k, g.ending = some k → o.Blamed k
  reading : ∀ k j, .readPump k (.blocked j) ∈ o.client.goroutines → j = k
  failing : ∀ i g, o.client.goroutines[i]? = some g → g.failing = true →
    ∀ j, o.client.conn = some j → o.lastFailure i = some j

variable {o o' : Observed} {e : Event} {s' : Client} {g g' : Goroutine} {i j k : Nat}
  {choice : Choice}

theorem blamed_of_lastFailure (h : o.lastFailure i = some j) : o.Blamed j := by
  obtain ⟨f, hf, hj⟩ := map_eq_some_iff.mp h
  exact .inr ⟨f, mem_of_find?_eq_some hf, hj⟩

theorem failure_go (hi : o.client.goroutines[i]? = some g) :
    o.client.failure (.go i choice) = (o.client.failsOn g choice).map (Failure.mk i) := by
  have hfails : o.client.failure (.go i choice) =
      (o.client.goroutines[i]?).bind (fun x =>
        (o.client.failsOn x choice).bind (fun j => some ⟨i, j⟩)) := rfl
  rw [hfails, hi, bind_some]
  cases o.client.failsOn g choice <;> rfl

/-- The goroutine that moves has failed last on the connection of this failure. -/
theorem lastFailure_of_failsOn (hi : o.client.goroutines[i]? = some g)
    (hj : o.client.failsOn g choice = some j) (s : Client) :
    lastFailure ⟨s, (o.client.failure (.go i choice)).toList ++ o.failures⟩ i = some j := by
  rw [failure_go hi, hj]
  simp [lastFailure]

/-- Without a failure of its own the last failure of a goroutine is the same. -/
theorem lastFailure_go {n : Nat} (hi : o.client.goroutines[i]? = some g)
    (hn : n ≠ i ∨ o.client.failsOn g choice = none) (s : Client) :
    lastFailure ⟨s, (o.client.failure (.go i choice)).toList ++ o.failures⟩ n =
      o.lastFailure n := by
  rw [failure_go hi]
  cases hj : o.client.failsOn g choice with
  | none => rfl
  | some j =>
    have hne : (i == n) = false := by
      rcases hn with hn | hnone
      · exact beq_false_of_ne (Ne.symm hn)
      · rw [hj] at hnone
        cases hnone
    unfold lastFailure
    dsimp only [map_some, toList_some, singleton_append]
    rw [find?_cons_of_neg (by rw [hne]; exact Bool.false_ne_true)]

theorem failsOn_of_failing {s : Client} (h : g.failing = true) : s.failsOn g choice = none := by
  cases g with
  | pingMonitor k pc => cases pc <;> first | rfl | cases h
  | connectWithRetry pc | readPump k pc | close pc | sendMessage pc => cases h

/-- A cause stays a cause. -/
theorem Blamed.go (h : o.Blamed j) {t : Client} (hdone : o.client.done = true → t.done = true)
    (fs : List Failure) : Blamed ⟨t, fs ++ o.failures⟩ j := by
  rcases h with h | ⟨f, hf, hj⟩
  · exact .inl (hdone h)
  · exact .inr ⟨f, mem_append_right _ hf, hj⟩

/-- The read pump has its own connection in the field until it clears the field. -/
theorem Accounted.pump_conn (h : o.Accounted) {p : Phase} (hg : g ∈ o.client.goroutines)
    (hp : g.phase = some p) : o.client.conn = p.field := by
  obtain ⟨chain, howned, -⟩ := h.sound
  exact howned.field p (howned.chain_eq hg hp)

/-- Whoever closes the connection in the field has a cause to. -/
theorem Accounted.blamed_of_closes (h : o.Accounted) (hi : o.client.goroutines[i]? = some g)
    (hg : g.closes = true) (hj : o.client.conn = some j) : o.Blamed j := by
  have hmem := mem_of_getElem? hi
  cases g with
  | connectWithRetry pc | sendMessage pc => cases hg
  | pingMonitor k pc =>
    have hfailing : (pingMonitor k pc).failing = true := by cases pc <;> first | rfl | cases hg
    exact blamed_of_lastFailure (h.failing i _ hi hfailing j hj)
  | close pc =>
    have hbegun : pc.begun = true := by cases pc <;> first | rfl | cases hg
    obtain ⟨chain, -, hclosing⟩ := h.sound
    exact .inl (hclosing.done pc hmem hbegun)
  | readPump k pc =>
    have hpump : (readPump k pc).ending = some k ∧ o.client.conn = some k := by
      cases pc <;> first
        | exact ⟨rfl, h.pump_conn hmem rfl⟩
        | cases hg
    have hjk : k = j := some.inj (hpump.2.symm.trans hj)
    rw [← hjk]
    exact h.ending _ hmem k hpump.1

theorem Accounted.go (h : o.Accounted) (hi : o.client.goroutines[i]? = some g)
    (hmove : o.client.move choice g = some (s', g'))
    (hat : g.assigns = true → ∀ x ∈ o.client.goroutines, x.failing = false) :
    Accounted ⟨{ s' with goroutines := s'.goroutines.set i g' },
      (o.client.failure (.go i choice)).toList ++ o.failures⟩ := by
  have hmem := mem_of_getElem? hi
  obtain ⟨hdone, hfield, -⟩ := effect_of_move hmove
  refine ⟨h.sound.move hi hmove, ?_, ?_, ?_, ?_⟩
  · intro j hj
    rcases isClosed_of_move hmove hj with hold | ⟨hcloses, hconn⟩
    · exact (h.closed j hold).go hdone _
    · exact (h.blamed_of_closes hi hcloses hconn).go hdone _
  · intro x hx k hk
    rcases mem_of_move hmove hx with rfl | hx | hx
    · rcases ending_of_move hmove hk with hg | hg | ⟨j, rfl, rfl⟩
      · exact (h.ending g hmem k hg).go hdone _
      · exact .inl (hdone hg)
      · -- The read of its own connection has failed.
        obtain rfl := h.reading k j hmem
        exact blamed_of_lastFailure (lastFailure_of_failsOn hi rfl _)
    · exact (h.ending x hx k hk).go hdone _
    · rw [(started_failing hx).2.1] at hk
      cases hk
  · intro k j hx
    rcases mem_of_move hmove hx with rfl | hx | hx
    · obtain ⟨rfl, hconn⟩ := blocked_of_move hmove
      have hfield : o.client.conn = some k := h.pump_conn hmem rfl
      exact some.inj (hconn.symm.trans hfield)
    · exact h.reading k j hx
    · exact absurd rfl ((started_failing hx).2.2 k j)
  · intro n x hx hfailing j hj
    rcases getElem?_of_move hmove hx with ⟨rfl, rfl⟩ | ⟨hne, hx⟩ | ⟨-, hx⟩
    · obtain ⟨hconn, hg⟩ := failing_of_move hmove hfailing
      replace hj : o.client.conn = some j := hconn.symm.trans hj
      rcases hg with hg | ⟨j', hj', hfails⟩
      · rw [lastFailure_go hi (.inr (failsOn_of_failing hg))]
        exact h.failing n g hi hg j hj
      · rw [lastFailure_of_failsOn hi hfails, ← hj', hj]
    · cases hassigns : g.assigns with
      | true =>
        rw [hat hassigns x (mem_of_getElem? hx)] at hfailing
        cases hfailing
      | false =>
        rw [lastFailure_go hi (.inl hne)]
        rcases hfield hassigns with hconn | hconn
        · exact h.failing n x hx hfailing j (hconn.symm.trans hj)
        · rw [show s'.conn = some j from hj] at hconn
          cases hconn
    · rw [(started_failing hx).1] at hfailing
      cases hfailing

/-- A call starts a goroutine. -/
theorem Accounted.call (h : o.Accounted) (hg : g.started = true)
    (hsound : Client.Sound { o.client with goroutines := o.client.goroutines ++ [g] }) :
    Accounted ⟨{ o.client with goroutines := o.client.goroutines ++ [g] }, o.failures⟩ := by
  obtain ⟨hfailing, hending, hreading⟩ := started_failing hg
  refine ⟨hsound, h.closed, ?_, ?_, ?_⟩
  · intro x hx k hk
    rcases mem_append.mp hx with hx | hx
    · exact h.ending x hx k hk
    · rw [mem_singleton.mp hx, hending] at hk
      cases hk
  · intro k j hx
    rcases mem_append.mp hx with hx | hx
    · exact h.reading k j hx
    · exact absurd (mem_singleton.mp hx).symm (hreading k j)
  · intro n x hx hxf
    rw [getElem?_append] at hx
    split at hx
    · exact h.failing n x hx hxf
    · rw [mem_singleton.mp (mem_of_getElem? hx), hfailing] at hxf
      cases hxf

theorem Accounted.step (h : o.Accounted) (he : o.ReplacesAtRest e)
    (hstep : o.step e = some o') : o'.Accounted := by
  obtain ⟨t, ht, rfl⟩ := map_eq_some_iff.mp hstep
  rcases step_cases ht with ⟨g, hg, rfl⟩ | ⟨i, choice, g, s', g', rfl, hi, hmove, rfl⟩
  · have hsound := h.sound.step ht
    rcases hg with ⟨rfl, rfl⟩ | ⟨rfl, rfl⟩ <;> exact h.call rfl hsound
  · refine h.go hi hmove fun hassigns => he ?_
    rw [hi]
    exact hassigns

theorem Accounted.init : Accounted {} := by
  refine ⟨Client.Sound.init, ?_, ?_, ?_, ?_⟩
  · intro j hj
    cases hj
  · intro g hg k hk
    rw [mem_singleton.mp hg] at hk
    cases hk
  · intro k j hg
    rcases mem_singleton.mp hg
  · intro i g hg hfailing
    rw [mem_singleton.mp (mem_of_getElem? hg)] at hfailing
    cases hfailing

/-- **Why a connection is closed**: in every interleaving of the goroutines of a client in
which a new connection is stored only when no ping monitor is between its failed write and
its close, a connection is closed only if `Close` was called or a read or write on that
connection has failed, and a ping monitor closes no connection but the one on which its ping
has failed. -/
theorem closed_with_cause (events : List Event) (o : Observed)
    (hmeets : Runs.Meets step ReplacesAtRest {} events)
    (hrun : Runs.run step {} events = some o) : o.ClosedWithCause := by
  have h : o.Accounted := Runs.run_invariant
    (fun h he hstep => Accounted.step h he hstep) Accounted.init hmeets hrun
  exact ⟨h.closed, fun i k j hi hj => h.failing i _ hi rfl j hj⟩

/-- A ping fails and its monitor closes the connection.  The read then fails, too, and the
connection is replaced. -/
def closedByPing : List Event :=
  steps 0 6 ++ steps 1 4 ++ [.go 1 .fail] ++ steps 1 6 ++
    steps 2 2 ++ [.go 2 .fail] ++ steps 2 10 ++ steps 3 3

/-- The second connection is open. -/
theorem closed_with_cause_closedByPing :
    Runs.Meets step ReplacesAtRest {} closedByPing ∧
      ∃ o, Runs.run step {} closedByPing = some o ∧ o.client.conn = some 1 ∧
        o.client.isClosed 0 = true ∧ o.client.isClosed 1 = false ∧
        o.failures = [⟨2, 0⟩, ⟨1, 0⟩] ∧ o.ClosedWithCause := by
  have hmeets : Runs.Meets step ReplacesAtRest {} closedByPing := by decide +kernel
  refine ⟨hmeets, ?_⟩
  simp only [← and_assoc]
  refine Exists.imp (fun o h => ⟨h, closed_with_cause closedByPing o hmeets h.1.1.1.1⟩) ?_
  simp only [and_assoc]
  decide +kernel

/-- A ping fails, and before its monitor has the lock again the read of the connection
fails as well and the connection is replaced. -/
def replacedDuringPing : List Event :=
  steps 0 6 ++ steps 1 4 ++ [.go 1 .fail] ++ steps 1 2 ++
    steps 2 2 ++ [.go 2 .fail] ++ steps 2 10 ++ steps 3 3 ++
    steps 1 3

/-- The monitor closes whatever is in the field, and that is the new connection, on which
nothing has failed. -/
theorem replacement_closed :
    ∃ o, Runs.run step {} replacedDuringPing = some o ∧ o.client.done = false ∧
      o.client.isClosed 1 = true ∧ o.failures = [⟨2, 0⟩, ⟨1, 0⟩] ∧ ¬ o.ClosedWithCause := by
  simp only [← and_assoc]
  refine Exists.imp (fun o h => ⟨h, fun hcause => ?_⟩)
    (by simp only [and_assoc]; decide +kernel)
  obtain ⟨⟨⟨-, hdone⟩, hone⟩, hfailures⟩ := h
  rcases hcause.closed 1 hone with hd | ⟨f, hf, hconn⟩
  · rw [hdone] at hd
    cases hd
  · rw [hfailures] at hf
    have hzero : ∀ f ∈ [Failure.mk 2 0, Failure.mk 1 0], f.conn = 0 := by decide
    rw [hzero f hf] at hconn
    cases hconn

end Observed

end Newt.Websocket
