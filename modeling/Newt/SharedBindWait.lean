import Newt.SharedBindReceive

/-!
# Receivers that sleep

A receiver without a socket sleeps on `rebindingCond` while the bind is rebinding
and not closed.  It goes on sleeping when the condition turns false: it has to be
woken, and the only call that wakes it is a `Rebind` that succeeds.  The release of
the last reference closes the bind without waking anybody, and `Rebind` fails on a
closed bind.

Here a sleeping receiver has a state of its own; the system is otherwise the one of
`SharedBindReceive`, and `forget_step` says so.

* `asleep_of_closed` — who sleeps on a closed bind sleeps for ever;
* `no_receiver_abandoned` — no receiver does, if none sleeps when the bind is closed;
* `receiver_abandoned` — otherwise one does.
-/

namespace Newt.Bind

namespace SharedBind

theorem closeSocket_closed (b : SharedBind) : b.closeSocket.1.closed = b.closed := by
  unfold closeSocket
  split <;> rfl

theorem rebind_closed (b : SharedBind) (newConn : Option UDPConn) :
    (b.rebind newConn).1.closed = b.closed := by
  unfold rebind
  split
  · rfl
  · split <;> rfl

theorem openBind_closed (b : SharedBind) (linux : Bool) :
    (b.openBind linux).1.closed = b.closed := by
  unfold openBind
  split
  · rfl
  · split <;> rfl

end SharedBind

/-- A receive function that runs, or sleeps in `rebindingCond.Wait`. -/
inductive Receiver
  | running (pc : RecvPC)
  | asleep
  deriving DecidableEq, Repr

/-- The bind, its receivers and the calls of `Release`. -/
structure Waiters where
  bind : SharedBind
  receivers : List Receiver
  calls : List ReleasePC
  nextConn : Nat
  deriving DecidableEq, Repr

namespace Waiters

open Receivers (Event)

/-- A new bind on the socket with number 0. -/
def start (port : UInt16) : Option Waiters :=
  (SharedBind.new (some { id := 0, port := port })).toOption.map fun b =>
    { bind := b, receivers := [], calls := [], nextConn := 1 }

/-- `Broadcast`: a sleeper tests its condition again. -/
def wake : Receiver → Receiver
  | .running pc => .running pc
  | .asleep => .running .waiting

/-- The next step of a receiver, with the outcome of a read. -/
def receiver (b : SharedBind) (linux : Bool) (readResult : Option Nat) :
    Receiver → Option Receiver
  | .running .waiting =>
    some (if b.rebinding && !b.closed then .asleep else .running .woken)
  | .running pc => (b.receive linux readResult pc).map .running
  | .asleep => none

/-- `Rebind` wakes the sleepers when it succeeds. -/
def rebind (s : Waiters) (newConn : Option UDPConn) : Waiters :=
  { s with
    bind := (s.bind.rebind newConn).1
    receivers := match (s.bind.rebind newConn).2 with
      | .ok _ => s.receivers.map wake
      | .error _ => s.receivers
    nextConn := s.nextConn + 1 }

def step (linux : Bool) (s : Waiters) : Event → Option Waiters
  | .addRef => some { s with bind := s.bind.addRef }
  | .release => some { s with calls := s.calls ++ [.decrement] }
  | .call i =>
    match s.calls[i]? with
    | none => none
    | some pc =>
      (s.bind.release pc).map fun r => { s with bind := r.1, calls := s.calls.set i r.2 }
  | .closeSocket => some { s with bind := s.bind.closeSocket.1 }
  | .rebind port => some (s.rebind (port.map fun p => { id := s.nextConn, port := p }))
  | .deviceOpen => some { s with bind := (s.bind.openBind linux).1 }
  | .receive => some { s with receivers := s.receivers ++ [.running .top] }
  | .receiver i readResult =>
    match s.receivers[i]? with
    | none => none
    | some r =>
      (receiver s.bind linux readResult r).map fun r' =>
        { s with receivers := s.receivers.set i r' }

/-- A sleeper is a receiver that waits. -/
def place : Receiver → RecvPC
  | .running pc => pc
  | .asleep => .waiting

/-- The system without the distinction. -/
def forget (s : Waiters) : Receivers :=
  { bind := s.bind, receivers := s.receivers.map place, calls := s.calls, nextConn := s.nextConn }

/-- Nobody wakes this receiver any more. -/
def Abandoned (linux : Bool) (s : Waiters) (i : Nat) : Prop :=
  s.receivers[i]? = some .asleep ∧
    ∀ es s', Runs.run (step linux) s es = some s' → s'.receivers[i]? = some .asleep

/-- The bind is closed when no receiver sleeps. -/
def ClosesAwake (s : Waiters) : Event → Prop
  | .call i =>
    s.calls[i]? = some .closeConnection → s.bind.closed = false → .asleep ∉ s.receivers
  | _ => True

instance (s : Waiters) (e : Event) : Decidable (s.ClosesAwake e) := by
  unfold ClosesAwake
  split <;> infer_instance

variable {linux : Bool} {s s' : Waiters} {e : Event}

theorem place_wake (r : Receiver) : place (wake r) = place r := by cases r <;> rfl

variable {readResult : Option Nat} {b : SharedBind} {i : Nat}

theorem receiver_running {pc : RecvPC} (hpc : pc ≠ .waiting) :
    receiver b linux readResult (.running pc) = (b.receive linux readResult pc).map .running := by
  cases pc with
  | waiting => exact absurd rfl hpc
  | _ => rfl

/-- A step of a receiver is one in the system without sleep, or falling asleep. -/
theorem place_receiver {r r' : Receiver} (h : receiver b linux readResult r = some r') :
    place r' = place r ∨ b.receive linux readResult (place r) = some (place r') := by
  cases r with
  | asleep => cases h
  | running pc =>
    by_cases hpc : pc = .waiting
    · subst hpc
      cases h
      cases hwait : b.rebinding && !b.closed with
      | true => exact .inl rfl
      | false =>
        refine .inr ?_
        simp only [place, SharedBind.receive, hwait, Bool.false_eq_true, if_false]
    · rw [receiver_running hpc] at h
      obtain ⟨pc', hpc', rfl⟩ := Option.map_eq_some_iff.mp h
      exact .inr hpc'

/-- A call of `Release` goes on. -/
theorem call_cases (hs : s.step linux (.call i) = some s') :
    ∃ pc r, s.calls[i]? = some pc ∧ s.bind.release pc = some r ∧
      s' = { s with bind := r.1, calls := s.calls.set i r.2 } := by
  simp only [step] at hs
  split at hs
  · cases hs
  · next pc hi =>
    obtain ⟨r, hr, rfl⟩ := Option.map_eq_some_iff.mp hs
    exact ⟨pc, r, hi, hr, rfl⟩

/-- A receiver goes on. -/
theorem receiver_cases (hs : s.step linux (.receiver i readResult) = some s') :
    ∃ r r', s.receivers[i]? = some r ∧ receiver s.bind linux readResult r = some r' ∧
      s' = { s with receivers := s.receivers.set i r' } := by
  simp only [step] at hs
  split at hs
  · cases hs
  · next r hi =>
    obtain ⟨r', hr, rfl⟩ := Option.map_eq_some_iff.mp hs
    exact ⟨r, r', hi, hr, rfl⟩

/-- **The same system**: every step is a step of the system without sleep, or
changes nothing there. -/
theorem forget_step (hs : s.step linux e = some s') :
    s'.forget = s.forget ∨ s.forget.step linux e = some s'.forget := by
  cases e with
  | call i =>
    obtain ⟨pc, r, hi, hr, rfl⟩ := call_cases hs
    refine .inr ?_
    simp only [Receivers.step, forget, hi, hr, Option.map_some]
  | rebind port =>
    cases hs
    refine .inr ?_
    have hplaces : (match (s.bind.rebind (port.map fun p => ⟨s.nextConn, p⟩)).2 with
        | .ok _ => s.receivers.map wake
        | .error _ => s.receivers).map place = s.receivers.map place := by
      split
      · rw [List.map_map]
        exact List.map_congr_left fun r _ => place_wake r
      · rfl
    simp only [Receivers.step, forget, rebind, hplaces]
  | receive =>
    cases hs
    refine .inr ?_
    simp only [Receivers.step, forget, List.map_append, List.map_cons, List.map_nil, place]
  | receiver i readResult =>
    obtain ⟨r, r', hi, hr', rfl⟩ := receiver_cases hs
    rcases place_receiver hr' with hsame | hrecv
    · refine .inl ?_
      simp only [forget, Tasks.map_set_of_eq place hi hsame]
    · refine .inr ?_
      simp only [Receivers.step, forget, List.getElem?_map, hi, Option.map_some, hrecv,
        List.map_set]
  | _ =>
    cases hs
    exact .inr rfl

/-- Only `Release` closes the bind, at one place, and nothing opens it again. -/
theorem closed_cases (hs : s.step linux e = some s') :
    s'.bind.closed = s.bind.closed ∨
      ((∃ i, e = .call i ∧ s.calls[i]? = some .closeConnection) ∧ s.bind.closed = false ∧
        s'.bind.closed = true) := by
  cases e with
  | call i =>
    obtain ⟨pc, ⟨b, pc'⟩, hi, hr, rfl⟩ := call_cases hs
    rcases SharedBind.release_cases hr with ⟨m, rfl, -⟩ | ⟨rfl, hopen, rfl⟩ | ⟨-, rfl, -⟩
    · exact .inl rfl
    · exact .inr ⟨⟨i, rfl, hi⟩, hopen, rfl⟩
    · exact .inl rfl
  | closeSocket =>
    cases hs
    exact .inl s.bind.closeSocket_closed
  | rebind port =>
    cases hs
    exact .inl (s.bind.rebind_closed _)
  | deviceOpen =>
    cases hs
    exact .inl (s.bind.openBind_closed linux)
  | receiver i readResult =>
    obtain ⟨r, r', -, -, rfl⟩ := receiver_cases hs
    exact .inl rfl
  | _ =>
    cases hs
    exact .inl rfl

/-- A closed bind stays closed. -/
theorem closed_step (hs : s.step linux e = some s') (hclosed : s.bind.closed = true) :
    s'.bind.closed = true := by
  rcases closed_cases hs with hsame | ⟨-, -, hafter⟩
  · exact hsame.trans hclosed
  · exact hafter

/-- A step of a receiver: only an open bind lets it fall asleep. -/
theorem receiver_ne_asleep {r r' : Receiver} (hclosed : b.closed = true)
    (h : receiver b linux readResult r = some r') : r' ≠ .asleep := by
  cases r with
  | asleep => cases h
  | running pc =>
    by_cases hpc : pc = .waiting
    · subst hpc
      cases h
      simp [hclosed]
    · rw [receiver_running hpc] at h
      obtain ⟨pc', -, rfl⟩ := Option.map_eq_some_iff.mp h
      nofun

/-- On a closed bind nobody wakes up and nobody falls asleep: `Rebind` fails on it. -/
theorem receivers_cases (hs : s.step linux e = some s') (hclosed : s'.bind.closed = true) :
    s'.receivers = s.receivers ∨ s'.receivers = s.receivers ++ [.running .top] ∨
      ∃ i r r', s.receivers[i]? = some r ∧ r ≠ .asleep ∧ r' ≠ .asleep ∧
        s'.receivers = s.receivers.set i r' := by
  cases e with
  | call i =>
    obtain ⟨pc, r, -, -, rfl⟩ := call_cases hs
    exact .inl rfl
  | rebind port =>
    cases hs
    rw [rebind, SharedBind.rebind_closed] at hclosed
    refine .inl ?_
    cases port with
    | none => rfl
    | some p => simp only [rebind, Option.map_some, SharedBind.rebind, hclosed, if_true]
  | receive =>
    cases hs
    exact .inr (.inl rfl)
  | receiver i readResult =>
    obtain ⟨r, r', hi, hr', rfl⟩ := receiver_cases hs
    refine .inr (.inr ⟨i, r, r', hi, ?_, receiver_ne_asleep hclosed hr', rfl⟩)
    rintro rfl
    cases hr'
  | _ =>
    cases hs
    exact .inl rfl

theorem asleep_step (hs : s.step linux e = some s') (hclosed : s.bind.closed = true)
    (hi : s.receivers[i]? = some .asleep) : s'.receivers[i]? = some .asleep := by
  rcases receivers_cases hs (closed_step hs hclosed) with heq | heq | ⟨j, r, r', hj, hne, -, heq⟩
  · rw [heq, hi]
  · rw [heq, List.getElem?_append_left (List.getElem?_eq_some_iff.mp hi).1, hi]
  · have hij : j ≠ i := by
      rintro rfl
      exact hne (Option.some.inj (hj.symm.trans hi))
    rw [heq, List.getElem?_set_ne hij, hi]

/-- **A sleeper of a closed bind is abandoned.** -/
theorem asleep_of_closed (hclosed : s.bind.closed = true) (hi : s.receivers[i]? = some .asleep) :
    s.Abandoned linux i := by
  refine ⟨hi, fun es s' hrun => ?_⟩
  induction es generalizing s with
  | nil =>
    cases hrun
    exact hi
  | cons e es ih =>
    obtain ⟨t, ht, hrest⟩ := Runs.run_cons.mp hrun
    exact ih (closed_step ht hclosed) (asleep_step ht hclosed hi) hrest

/-- A bind without a socket is rebinding or closed. -/
structure Connected (s : Waiters) : Prop where
  closing : .closing ∈ s.calls → s.bind.closed = true
  conn : s.bind.udpConn = none → s.bind.rebinding = true ∨ s.bind.closed = true

/-- A step of `Release`: the socket goes after `closed` was set. -/
theorem Connected.call (h : s.Connected) {pc : ReleasePC} {r : SharedBind × ReleasePC}
    (hi : s.calls[i]? = some pc) (hr : s.bind.release pc = some r) :
    Connected { s with bind := r.1, calls := s.calls.set i r.2 } := by
  obtain ⟨b, pc'⟩ := r
  have hclosing : pc' ≠ .closing → .closing ∈ s.calls.set i pc' → s.bind.closed = true := by
    intro hne hq
    rcases List.mem_or_eq_of_mem_set hq with hq | heq
    · exact h.closing hq
    · exact absurd heq.symm hne
  rcases SharedBind.release_cases hr with ⟨m, rfl, hne⟩ | ⟨-, -, rfl⟩ | ⟨rfl, rfl, hne⟩
  · exact ⟨hclosing hne, h.conn⟩
  · exact ⟨fun _ => rfl, fun _ => .inr rfl⟩
  · exact ⟨hclosing hne, fun _ => .inr (h.closing (List.mem_of_getElem? hi))⟩

theorem Connected.rebind (h : s.Connected) (newConn : Option UDPConn) :
    (s.rebind newConn).Connected := by
  cases newConn with
  | none => exact ⟨h.closing, h.conn⟩
  | some c =>
    cases hclosed : s.bind.closed with
    | true =>
      simp only [Waiters.rebind, SharedBind.rebind, hclosed, if_true]
      exact ⟨h.closing, h.conn⟩
    | false =>
      simp only [Waiters.rebind, SharedBind.rebind, hclosed, Bool.false_eq_true, if_false]
      refine ⟨fun hmem => ?_, fun hnone => ?_⟩
      · exact absurd (h.closing hmem) (by simp [hclosed])
      · cases hnone

theorem Connected.step (h : s.Connected) (hs : s.step linux e = some s') : s'.Connected := by
  cases e with
  | release =>
    cases hs
    refine ⟨fun hc => h.closing ?_, h.conn⟩
    simpa using hc
  | call i =>
    obtain ⟨pc, r, hi, hr, rfl⟩ := call_cases hs
    exact h.call hi hr
  | closeSocket =>
    cases hs
    unfold SharedBind.closeSocket
    split
    · exact h
    · exact ⟨h.closing, fun _ => .inl rfl⟩
  | rebind port =>
    cases hs
    exact h.rebind _
  | deviceOpen =>
    cases hs
    unfold SharedBind.openBind
    split
    · exact h
    · split
      · exact h
      · exact ⟨h.closing, h.conn⟩
  | receiver i readResult =>
    obtain ⟨r, r', -, -, rfl⟩ := receiver_cases hs
    exact ⟨h.closing, h.conn⟩
  | _ =>
    cases hs
    exact ⟨h.closing, h.conn⟩

theorem connected_start {port : UInt16} (h : start port = some s) : s.Connected := by
  have h' : some _ = some s := h
  cases h'
  exact ⟨by simp, nofun⟩

/-- No receiver sleeps on a closed bind. -/
def Attended (s : Waiters) : Prop :=
  s.bind.closed = true → .asleep ∉ s.receivers

theorem attended_start {port : UInt16} (h : start port = some s) : s.Attended := by
  have h' : some _ = some s := h
  cases h'
  exact nofun

theorem Attended.step (h : s.Attended) (hawake : s.ClosesAwake e)
    (hs : s.step linux e = some s') : s'.Attended := by
  intro hclosed hmem
  have hold : .asleep ∈ s.receivers := by
    rcases receivers_cases hs hclosed with heq | heq | ⟨i, r, r', -, -, hne, heq⟩
    · exact heq ▸ hmem
    · rw [heq] at hmem
      rcases List.mem_append.mp hmem with hmem | hmem
      · exact hmem
      · cases List.mem_singleton.mp hmem
    · rw [heq] at hmem
      rcases List.mem_or_eq_of_mem_set hmem with hmem | heq
      · exact hmem
      · exact absurd heq.symm hne
  rcases closed_cases hs with hsame | ⟨⟨i, rfl, hi⟩, hopen, -⟩
  · exact h (hsame ▸ hclosed) hold
  · exact hawake hi hopen hold

/-- **No receiver is abandoned**: in every interleaving of receivers with
`CloseSocket`, `Rebind` and the release of the last reference, a bind without a
socket is rebinding or closed; and no receiver sleeps on a closed bind with nobody
left to wake it, if no receiver sleeps at the moment the bind is closed. -/
theorem no_receiver_abandoned {port : UInt16} {es : List Event} (hstart : start port = some s)
    (hrun : Runs.run (step linux) s es = some s') :
    (s'.bind.udpConn = none → s'.bind.rebinding = true ∨ s'.bind.closed = true) ∧
      (Runs.Meets (step linux) ClosesAwake s es →
        s'.bind.closed = true → ∀ i, ¬ s'.Abandoned linux i) := by
  have hconnected : s'.Connected :=
    Runs.run_always (fun h hs => Connected.step h hs) (connected_start hstart) hrun
  refine ⟨hconnected.conn, fun hmeets hclosed i habandoned => ?_⟩
  have hattended : s'.Attended :=
    Runs.run_invariant (fun h hawake hs => Attended.step h hawake hs) (attended_start hstart)
      hmeets hrun
  exact hattended hclosed (List.mem_of_getElem? habandoned.1)

/-- The bind is closed after the receiver has its new socket. -/
def closedAfterRebind : List Event :=
  [.deviceOpen, .receive, .receiver 0 none, .receiver 0 none, .closeSocket, .receiver 0 none,
    .receiver 0 none, .receiver 0 none, .rebind (some 51821), .receiver 0 none, .receiver 0 none,
    .release, .call 0, .call 0, .call 0, .receiver 0 none]

theorem no_receiver_abandoned_closedAfterRebind :
    ∃ s s', start 51820 = some s ∧ Runs.run (step true) s closedAfterRebind = some s' ∧
      s'.bind.closed = true ∧ s'.receivers = [.running (.error .errClosed)] ∧
      (s'.bind.udpConn = none → s'.bind.rebinding = true ∨ s'.bind.closed = true) ∧
      ∀ i, ¬ s'.Abandoned true i := by
  have hmeets : ∀ s ∈ start 51820, Runs.Meets (step true) ClosesAwake s closedAfterRebind := by
    decide +kernel
  obtain ⟨s, hstart, s', hrun, hclosed, hreceivers⟩ : ∃ s, start 51820 = some s ∧
      ∃ s', Runs.run (step true) s closedAfterRebind = some s' ∧ s'.bind.closed = true ∧
        s'.receivers = [.running (.error .errClosed)] := by
    decide +kernel
  have hawake := no_receiver_abandoned hstart hrun
  exact ⟨s, s', hstart, hrun, hclosed, hreceivers, hawake.1, hawake.2 (hmeets s hstart) hclosed⟩

/-- The bind is closed between `CloseSocket` and `Rebind`. -/
def closedWhileRebinding : List Event :=
  [.deviceOpen, .receive, .receiver 0 none, .receiver 0 none, .closeSocket, .receiver 0 none,
    .receiver 0 none, .receiver 0 none, .release, .call 0, .call 0, .call 0]

/-- The last reference is released while the receiver sleeps: it is never woken. -/
theorem receiver_abandoned :
    ∃ s s', start 51820 = some s ∧ Runs.run (step true) s closedWhileRebinding = some s' ∧
      s'.bind.closed = true ∧ s'.Abandoned true 0 := by
  obtain ⟨s, hstart, s', hrun, hclosed, hasleep⟩ : ∃ s, start 51820 = some s ∧
      ∃ s', Runs.run (step true) s closedWhileRebinding = some s' ∧ s'.bind.closed = true ∧
        s'.receivers[0]? = some .asleep := by
    decide +kernel
  exact ⟨s, s', hstart, hrun, hclosed, asleep_of_closed hclosed hasleep⟩

end Waiters

end Newt.Bind
