import Newt.Lib.Runs
import Newt.Lib.Tasks
import Newt.SharedBind

/-!
# Receivers and the replacement of the socket

Any number of socket receive functions run while `CloseSocket`, `Rebind`,
`AddRef` and `Release` are called.  A receiver whose read has failed samples
`rebinding` to learn whether the socket was replaced under it.  `Rebind` clears
that flag, so a receiver that samples it after the replacement takes the failure
for an error of its own.

Main results: `receiver_error_only_if_closed`, for runs in which no receiver
holds a socket when it is replaced, and `rebind_ends_receiver`, a run in which
one does.
-/

namespace Newt.Bind

open List Option

/-- The bind, its receivers and the calls of `Release`.  `nextConn` numbers the
next socket. -/
structure Receivers where
  bind : SharedBind
  receivers : List RecvPC
  calls : List ReleasePC
  nextConn : Nat
  deriving DecidableEq, Repr

/-- The socket a receiver holds. -/
def RecvPC.conn : RecvPC → Option UDPConn
  | .reading c | .failed c => some c
  | _ => none

namespace Receivers

inductive Event
  | addRef
  | release
  /-- The next step of a call of `Release`. -/
  | call (i : Nat)
  | closeSocket
  /-- `Rebind` to a new socket on a port, or to nil. -/
  | rebind (port : Option UInt16)
  | deviceOpen
  /-- A receive function is called. -/
  | receive
  /-- The next step of a receive function, with the outcome of a read. -/
  | receiver (i : Nat) (readResult : Option Nat)
  deriving DecidableEq, Repr

/-- A new bind on the socket with number 0. -/
def start (port : UInt16) : Option Receivers :=
  (SharedBind.new (some { id := 0, port := port })).toOption.map fun b =>
    { bind := b, receivers := [], calls := [], nextConn := 1 }

/-- One event, on a platform with batched reads (`linux`) or without. -/
def step (linux : Bool) (s : Receivers) : Event → Option Receivers
  | .addRef => some { s with bind := s.bind.addRef }
  | .release => some { s with calls := s.calls ++ [.decrement] }
  | .call i =>
    match s.calls[i]? with
    | none => none
    | some pc =>
      (s.bind.release pc).map fun r => { s with bind := r.1, calls := s.calls.set i r.2 }
  | .closeSocket => some { s with bind := s.bind.closeSocket.1 }
  | .rebind port =>
    some { s with
           bind := (s.bind.rebind (port.map fun p => { id := s.nextConn, port := p })).1
           nextConn := s.nextConn + 1 }
  | .deviceOpen => some { s with bind := (s.bind.openBind linux).1 }
  | .receive => some { s with receivers := s.receivers ++ [.top] }
  | .receiver i readResult =>
    match s.receivers[i]? with
    | none => none
    | some pc =>
      (s.bind.receive linux readResult pc).map fun pc' =>
        { s with receivers := s.receivers.set i pc' }

/-- A receiver returns an error only if the bind is closed. -/
def ErrorsOnlyIfClosed (s : Receivers) : Prop :=
  ∀ err, .error err ∈ s.receivers → s.bind.closed = true

/-- No receiver holds a socket when it is replaced, and a read fails only when
its socket has been closed. -/
def ReplacesUnheld (s : Receivers) : Event → Prop
  | .rebind (some _) => s.bind.closed = true ∨ ∀ pc ∈ s.receivers, pc.conn = none
  | .receiver i none =>
    ∀ pc ∈ s.receivers[i]?, ∀ c ∈ pc.conn, c ∈ s.bind.closedConns
  | _ => True

instance (s : Receivers) (e : Event) : Decidable (s.ReplacesUnheld e) := by
  unfold ReplacesUnheld
  split <;> infer_instance

end Receivers

/-- A bind is consistent about its sockets, all of them numbered below `n`. -/
structure SharedBind.Sockets (b : SharedBind) (n : Nat) : Prop where
  current : ∀ c ∈ b.udpConn, c ∉ b.closedConns ∧ c.id < n
  closed : ∀ c ∈ b.closedConns, c.id < n
  packet : ∀ c ∈ b.udpConn, b.ipv4PC = none ∨ b.ipv4PC = some c

/-- A receiver can trust a socket: it is the current one, or the end of the
socket will show, in `rebinding` or in `closed`. -/
def SharedBind.Covers (b : SharedBind) (c : UDPConn) : Prop :=
  b.udpConn = some c ∨ b.rebinding = true ∨ b.closed = true

/-- What a place of a receiver says about the bind. -/
def RecvPC.Sound (b : SharedBind) : RecvPC → Prop
  | .reading c => b.Covers c
  | .failed c => b.Covers c ∧ c ∈ b.closedConns
  | .error _ => b.closed = true
  | _ => True

namespace SharedBind

variable {b : SharedBind} {n : Nat}

theorem Sockets.mono {m : Nat} (h : b.Sockets n) (hm : n ≤ m) : b.Sockets m := by
  refine ⟨?_, ?_, h.packet⟩
  · intro c hc
    exact ⟨(h.current c hc).1, Nat.lt_of_lt_of_le (h.current c hc).2 hm⟩
  · intro c hc
    exact Nat.lt_of_lt_of_le (h.closed c hc) hm

/-- Closing the current socket. -/
theorem Sockets.closeConn (h : b.Sockets n) : b.closeConn.Sockets n := by
  refine ⟨?_, ?_, ?_⟩
  · intro c hc
    simp [SharedBind.closeConn] at hc
  · intro c hc
    rcases mem_append.mp hc with hold | hclosed
    · exact (h.current c (by simpa using hold)).2
    · exact h.closed c hclosed
  · intro c hc
    simp [SharedBind.closeConn] at hc

/-- What a step of `Release` can do to the sockets: nothing but count, set
`closed`, or close the current socket. -/
theorem release_cases {b' : SharedBind} {pc pc' : ReleasePC}
    (h : b.release pc = some (b', pc')) :
    (∃ m, b' = { b with refCount := m } ∧ pc' ≠ .closing) ∨
      (pc = .closeConnection ∧ b.closed = false ∧ b' = { b with closed := true }) ∨
      (pc = .closing ∧ b' = { b.closeConn with ipv4PC := none } ∧ pc' ≠ .closing) := by
  cases pc with
  | decrement =>
    simp only [release] at h
    refine .inl ⟨int32 (b.refCount - 1), ?_⟩
    split at h
    · cases h
      exact ⟨rfl, by simp⟩
    · split at h <;> cases h <;> exact ⟨rfl, by simp⟩
  | reset =>
    cases h
    exact .inl ⟨0, rfl, by simp⟩
  | closeConnection =>
    simp only [release] at h
    split at h
    · cases h
      exact .inl ⟨b.refCount, rfl, by simp⟩
    · next hopen =>
      cases h
      exact .inr (.inl ⟨rfl, Bool.eq_false_iff.mpr hopen, rfl⟩)
  | closing =>
    cases h
    exact .inr (.inr ⟨rfl, rfl, by simp⟩)
  | returned err => cases h

end SharedBind

/-- A receiver's place stays sound when the bind keeps what it relies on. -/
theorem RecvPC.Sound.mono {b b' : SharedBind} {pc : RecvPC} (h : pc.Sound b)
    (hcovers : ∀ c ∈ pc.conn, b.Covers c → b'.Covers c)
    (hconns : ∀ c ∈ b.closedConns, c ∈ b'.closedConns)
    (hclosed : b.closed = true → b'.closed = true) : pc.Sound b' := by
  cases pc with
  | reading c => exact hcovers c rfl h
  | failed c => exact ⟨hcovers c rfl h.1, hconns c h.2⟩
  | error err => exact hclosed h
  | _ => trivial

/-- A receiver's step: it takes only a socket it can trust, and it returns an
error only if the bind is closed. -/
theorem RecvPC.Sound.receive {b : SharedBind} {n : Nat} {linux : Bool} {readResult : Option Nat}
    {pc pc' : RecvPC} (h : pc.Sound b) (hb : b.Sockets n)
    (hread : readResult = none → ∀ c ∈ pc.conn, c ∈ b.closedConns)
    (hstep : b.receive linux readResult pc = some pc') : pc'.Sound b := by
  cases pc with
  | top | nilConn | woken =>
    cases hstep
    split
    · assumption
    · trivial
  | snapshot =>
    cases hu : b.udpConn with
    | none =>
      simp only [SharedBind.receive, hu] at hstep
      cases hstep
      trivial
    | some c =>
      rcases hb.packet c hu with hpc | hpc
      · simp only [SharedBind.receive, hu, hpc] at hstep
        cases hstep
        exact .inl hu
      · simp only [SharedBind.receive, hu, hpc, ite_self] at hstep
        cases hstep
        exact .inl hu
  | waiting =>
    simp only [SharedBind.receive] at hstep
    split at hstep <;> cases hstep
    trivial
  | reading c =>
    cases readResult with
    | some n =>
      cases hstep
      trivial
    | none =>
      cases hstep
      exact ⟨h, hread rfl c rfl⟩
  | failed c =>
    cases hstep
    split
    · trivial
    · rename_i hre
      obtain ⟨hcovers, hclosed⟩ := h
      -- The socket is closed, so it is not the current one.
      rcases hcovers with hcur | hre' | hb'
      · exact absurd hclosed (hb.current c hcur).1
      · exact absurd hre' hre
      · exact hb'
  | packets n | error err => cases hstep

namespace Receivers

/-- The invariant of the runs. -/
structure Sound (s : Receivers) : Prop where
  sockets : s.bind.Sockets s.nextConn
  receivers : ∀ pc ∈ s.receivers, pc.Sound s.bind
  closing : .closing ∈ s.calls → s.bind.closed = true

variable {s : Receivers}

theorem sound_start {port : UInt16} (h : start port = some s) : s.Sound := by
  have h' : some _ = some s := h
  cases h'
  refine ⟨⟨?_, ?_, ?_⟩, ?_, ?_⟩ <;> simp

/-- A change of the bind that the receivers can live with. -/
theorem Sound.setBind {b : SharedBind} {n : Nat} (h : s.Sound) (hb : b.Sockets n)
    (hcovers : ∀ pc ∈ s.receivers, ∀ c ∈ pc.conn, s.bind.Covers c → b.Covers c)
    (hconns : ∀ c ∈ s.bind.closedConns, c ∈ b.closedConns)
    (hclosed : s.bind.closed = true → b.closed = true) :
    Sound { s with bind := b, nextConn := n } := by
  refine ⟨hb, ?_, fun hc => hclosed (h.closing hc)⟩
  intro pc hpc
  exact (h.receivers pc hpc).mono (hcovers pc hpc) hconns hclosed

/-- `CloseSocket` raises `rebinding` before the socket goes. -/
theorem Sound.closeSocket (h : s.Sound) : Sound { s with bind := s.bind.closeSocket.1 } := by
  unfold SharedBind.closeSocket
  split
  · exact h
  · refine h.setBind ?_ ?_ ?_ id
    · exact ⟨h.sockets.closeConn.current, h.sockets.closeConn.closed, h.sockets.closeConn.packet⟩
    · intro pc _ c _ _
      exact .inr (.inl rfl)
    · intro c hc
      exact mem_append_right _ hc

/-- `Rebind`, when no receiver holds a socket. -/
theorem Sound.rebind {port : Option UInt16} (h : s.Sound)
    (hunheld : s.ReplacesUnheld (.rebind port)) :
    Sound { s with
            bind := (s.bind.rebind (port.map fun p => { id := s.nextConn, port := p })).1
            nextConn := s.nextConn + 1 } := by
  have hnext := h.sockets.mono (Nat.le_succ s.nextConn)
  cases port with
  | none => exact h.setBind hnext (fun _ _ _ _ hc => hc) (fun _ hc => hc) id
  | some p =>
    cases hb : s.bind.closed with
    | true =>
      simp only [map_some, SharedBind.rebind, hb, if_true]
      exact h.setBind hnext (fun _ _ _ _ hc => hc) (fun _ hc => hc) id
    | false =>
      simp only [map_some, SharedBind.rebind, hb, Bool.false_eq_true, if_false]
      have hnone : ∀ pc ∈ s.receivers, pc.conn = none :=
        hunheld.resolve_left (by simp [hb])
      have hclosed := h.sockets.closeConn.closed
      refine h.setBind ⟨?_, ?_, ?_⟩ ?_ ?_ ?_
      · intro c hc
        cases hc
        refine ⟨?_, Nat.lt_succ_self _⟩
        intro hmem
        exact absurd (hclosed _ hmem) (Nat.lt_irrefl _)
      · intro c hc
        exact Nat.lt_succ_of_lt (hclosed c hc)
      · intro c hc
        exact .inr hc
      · intro pc hpc c hc
        simp [hnone pc hpc] at hc
      · intro c hc
        exact mem_append_right _ hc
      · intro hb'
        simp [hb] at hb'

/-- A step of `Release`. -/
theorem Sound.call {i : Nat} {pc : ReleasePC} {r : SharedBind × ReleasePC} (h : s.Sound)
    (hi : s.calls[i]? = some pc) (hr : s.bind.release pc = some r) :
    Sound { s with bind := r.1, calls := s.calls.set i r.2 } := by
  obtain ⟨b, pc'⟩ := r
  have hold : ∀ {q}, q ∈ s.calls.set i pc' → q = pc' ∨ q ∈ s.calls :=
    fun hq => (mem_or_eq_of_mem_set hq).symm
  rcases SharedBind.release_cases hr with ⟨m, rfl, hpc⟩ | ⟨-, -, rfl⟩ | ⟨rfl, rfl, hpc⟩
  · have hs : Sound { s with bind := { s.bind with refCount := m } } :=
      h.setBind ⟨h.sockets.current, h.sockets.closed, h.sockets.packet⟩
        (fun _ _ _ _ hc => hc) (fun _ hc => hc) id
    refine ⟨hs.sockets, hs.receivers, ?_⟩
    intro hq
    rcases hold hq with rfl | hq
    · exact absurd rfl hpc
    · exact h.closing hq
  · have hs : Sound { s with bind := { s.bind with closed := true } } :=
      h.setBind ⟨h.sockets.current, h.sockets.closed, h.sockets.packet⟩
        (fun _ _ _ _ _ => .inr (.inr rfl)) (fun _ hc => hc) (fun _ => rfl)
    exact ⟨hs.sockets, hs.receivers, fun _ => rfl⟩
  · have hclosed : s.bind.closed = true := h.closing (mem_of_getElem? hi)
    have hs : Sound { s with bind := { s.bind.closeConn with ipv4PC := none } } := by
      refine h.setBind ⟨h.sockets.closeConn.current, h.sockets.closeConn.closed, ?_⟩ ?_ ?_ id
      · intro c hc
        exact .inl rfl
      · intro pc _ c _ _
        exact .inr (.inr hclosed)
      · intro c hc
        exact mem_append_right _ hc
    exact ⟨hs.sockets, hs.receivers, fun _ => hclosed⟩

/-- `Open` takes the packet connection of the current socket. -/
theorem Sound.openBind (linux : Bool) (h : s.Sound) :
    Sound { s with bind := (s.bind.openBind linux).1 } := by
  unfold SharedBind.openBind
  split
  · exact h
  · split
    · exact h
    · rename_i c hu
      refine h.setBind ⟨h.sockets.current, h.sockets.closed, ?_⟩ (fun _ _ _ _ hc => hc)
        (fun _ hc => hc) id
      intro c' hc'
      have hcc : c = c' := some.inj (hu.symm.trans hc')
      subst hcc
      cases linux with
      | true => exact .inr rfl
      | false => exact h.sockets.packet c hu

/-- Every event that meets the condition keeps the receivers sound. -/
theorem Sound.step {linux : Bool} {e : Event} {s' : Receivers} (h : s.Sound)
    (hunheld : s.ReplacesUnheld e) (hstep : s.step linux e = some s') : s'.Sound := by
  cases e with
  | addRef =>
    cases hstep
    exact h.setBind ⟨h.sockets.current, h.sockets.closed, h.sockets.packet⟩
      (fun _ _ _ _ hc => hc) (fun _ hc => hc) id
  | release =>
    cases hstep
    refine ⟨h.sockets, h.receivers, ?_⟩
    intro hc
    exact h.closing (by simpa using hc)
  | call i =>
    cases hi : s.calls[i]? with
    | none => simp [Receivers.step, hi] at hstep
    | some pc =>
      simp only [Receivers.step, hi, map_eq_some_iff] at hstep
      obtain ⟨r, hr, rfl⟩ := hstep
      exact h.call hi hr
  | closeSocket =>
    cases hstep
    exact h.closeSocket
  | rebind port =>
    cases hstep
    exact h.rebind hunheld
  | deviceOpen =>
    cases hstep
    exact h.openBind linux
  | receive =>
    cases hstep
    refine ⟨h.sockets, ?_, h.closing⟩
    exact Runs.forall_mem_concat h.receivers trivial
  | receiver i readResult =>
    cases hi : s.receivers[i]? with
    | none => simp [Receivers.step, hi] at hstep
    | some pc =>
      simp only [Receivers.step, hi, map_eq_some_iff] at hstep
      obtain ⟨pc', hpc', rfl⟩ := hstep
      have hread : readResult = none → ∀ c ∈ pc.conn, c ∈ s.bind.closedConns := by
        intro hnone
        subst hnone
        exact hunheld pc hi
      have hsound := (h.receivers pc (mem_of_getElem? hi)).receive h.sockets hread hpc'
      exact ⟨h.sockets, Tasks.forall_mem_set h.receivers hsound, h.closing⟩

/-- **Receivers survive the replacement of the socket** if none holds a socket
when it is replaced: an error is returned only by a closed bind. -/
theorem receiver_error_only_if_closed {linux : Bool} {port : UInt16} {s s' : Receivers}
    {es : List Event} (hstart : start port = some s)
    (hmeets : Runs.Meets (step linux) ReplacesUnheld s es)
    (hrun : Runs.run (step linux) s es = some s') : s'.ErrorsOnlyIfClosed := by
  have hsound : s'.Sound :=
    Runs.run_invariant (fun h hunheld hstep => h.step hunheld hstep) (sound_start hstart) hmeets
      hrun
  intro err herr
  exact hsound.receivers _ herr

/-- A receiver is started and reads the first socket. -/
def startReading : List Event :=
  [.deviceOpen, .receive, .receiver 0 none, .receiver 0 none]

/-- The socket is closed first and replaced when the receiver waits for it. -/
def replacedWhileWaiting : List Event :=
  startReading ++
    [.closeSocket, .receiver 0 none, .receiver 0 none, .rebind (some 51821), .receiver 0 none,
      .receiver 0 none, .receiver 0 none, .receiver 0 none, .receiver 0 (some 1)]

/-- A receiver that waits for the new socket reads from it. -/
theorem waiting_receiver_reads_new_socket :
    ∃ s s', start 51820 = some s ∧ Runs.Meets (step true) ReplacesUnheld s replacedWhileWaiting ∧
      Runs.run (step true) s replacedWhileWaiting = some s' ∧
      s'.receivers = [.packets 1] ∧ s'.ErrorsOnlyIfClosed := by
  have hmeets : ∀ s ∈ start 51820,
      Runs.Meets (step true) ReplacesUnheld s replacedWhileWaiting := by
    decide +kernel
  exact ⟨_, _, rfl, hmeets _ rfl, rfl, by decide +kernel,
    receiver_error_only_if_closed rfl (hmeets _ rfl) rfl⟩

/-- The socket is replaced under a reading receiver: its read fails, the flag is
already clear, and the receiver returns an error from a bind that is open. -/
theorem rebind_ends_receiver :
    ∃ s s', start 51820 = some s ∧
      Runs.run (step true) s
        (startReading ++ [.rebind (some 51821), .receiver 0 none, .receiver 0 none]) = some s' ∧
      s'.receivers = [.error .read] ∧ ¬ s'.ErrorsOnlyIfClosed := by
  refine ⟨_, _, rfl, rfl, by decide +kernel, ?_⟩
  intro h
  have hclosed := h .read (by decide +kernel)
  revert hclosed
  decide +kernel

end Receivers

end Newt.Bind
