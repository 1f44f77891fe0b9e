import Newt.Notifications

/-!
# Tearing the tunnel down

`netTun.Close` closes the stack and its endpoint, then the proxy handler with the
channel of ICMP replies, and last the channel of incoming packets.  It waits for
nobody: pings that are under way queue their replies whenever they are done, and
calls of `WriteNotify` run on whatever goroutine has queued a packet.

The system is the `netTun` of the notifications with the pings in flight and the
call of `Close`.  A send on a closed channel panics.  A receive from the closed
channel of replies does not fail: it gives nil, for which `ReadOutgoingPacket`
returns an empty view, and `WriteNotify` sends that view like any packet.

* `close_of_quiet_tunnel` — neither happens if the channels are closed when no ping
  and no call that could use them is under way, and none begins in between;
* `close_races_with_traffic` — three runs in which one does.
-/

namespace Newt.TunClose

open Bytes Netip Notify Nat Option List Runs

variable {T : Type → Type}

/-- What `netTun.Close`, and `ProxyHandler.Close` within it, do next. -/
inductive ClosePC
  | stack
  | ep
  | proxyHandler
  | icmpReplies
  | proxyStack
  | proxyEp
  | events
  | incomingPacket
  | returned
  deriving DecidableEq, Repr

def ClosePC.rank : ClosePC → Nat
  | .stack => 0
  | .ep => 1
  | .proxyHandler => 2
  | .icmpReplies => 3
  | .proxyStack => 4
  | .proxyEp => 5
  | .events => 6
  | .incomingPacket => 7
  | .returned => 8

/-- The tunnel with the pings in flight and the call of `Close`.  `closedReads` are
the calls of `WriteNotify` that hold what they received from the closed channel,
and `forwarded` is what such calls have handed over. -/
structure Sys (T : Type → Type) where
  tun : Notify.Sys T
  pings : List PingJob
  closing : ClosePC
  icmpClosed : Bool
  incomingClosed : Bool
  closedReads : List Nat
  forwarded : List ByteString
  panicked : Bool

inductive Event
  | mainPacket (packet : ByteString)
  | proxyPacket (packet : ByteString)
  | tables (tables : NatTables)
  | ping (job : PingJob)
  | pingFailed (i : Nat)
  | pingReply (i : Nat)
  | call (i : Nat)
  | close

namespace Sys

/-- `CreateNetTUNWithOptions`. -/
def init [PrefixTable T] (options : ProxyHandlerOptions) : Sys T :=
  { tun := Notify.Sys.init options, pings := [], closing := .stack, icmpClosed := false,
    incomingClosed := false, closedReads := [], forwarded := [], panicked := false }

/-- A step of the tunnel that has nothing to do with the closed channels. -/
def lift (s : Sys T) (e : Notify.Event) : Option (Sys T) :=
  (s.tun.step e).map (fun tun => { s with tun := tun })

/-- The next step of `Close`. -/
def close (s : Sys T) : Option (Sys T) :=
  match s.closing with
  | .stack => some { s with closing := .ep }
  -- the endpoint drops what is in its queue
  | .ep => some { s with closing := .proxyHandler, tun := { s.tun with ep := [] } }
  | .proxyHandler =>
    match s.tun.proxyHandler with
    | none => some { s with closing := .events }
    | some p => some { s with closing := if p.enabled then .icmpReplies else .events }
  | .icmpReplies => some { s with closing := .proxyStack, icmpClosed := true }
  | .proxyStack => some { s with closing := .proxyEp }
  | .proxyEp => some { s with closing := .events, tun := { s.tun with proxyEp := [] } }
  | .events => some { s with closing := .incomingPacket }
  | .incomingPacket => some { s with closing := .returned, incomingClosed := true }
  | .returned => none

/-- `QueueICMPReply` at the end of a ping. -/
def queueICMPReply (s : Sys T) (i : Nat) (packet : ByteString) : Option (Sys T) :=
  if s.icmpClosed then some { s with pings := s.pings.eraseIdx i, panicked := true }
  else { s with pings := s.pings.eraseIdx i }.lift (.icmpReply packet)

/-- The next step of a call of `WriteNotify`. -/
def call (s : Sys T) (i : Nat) : Option (Sys T) :=
  match s.tun.calls[i]? with
  | some (.sending _ view) =>
    if s.incomingClosed then some { s with panicked := true }
    else
      { s with forwarded :=
        if i ∈ s.closedReads then s.forwarded ++ [view] else s.forwarded }.lift (.call i)
  | some .icmp =>
    if s.icmpClosed = true ∧ s.tun.icmpReplies = [] then
      some { s with
        tun := { s.tun with calls := s.tun.calls.set i (.sending [] []) },
        closedReads := s.closedReads ++ [i] }
    else s.lift (.call i)
  | _ => s.lift (.call i)

/-- The main stack, the proxy stack and the pings reach the tunnel until their part
of it is closed. -/
def step (s : Sys T) (e : Event) : Option (Sys T) :=
  if s.panicked then none
  else
    match e with
    | .mainPacket packet =>
      if s.closing.rank ≤ ClosePC.ep.rank then s.lift (.mainPacket packet) else none
    | .proxyPacket packet =>
      if s.closing.rank ≤ ClosePC.proxyEp.rank then s.lift (.proxyPacket packet) else none
    | .tables tables => s.lift (.tables tables)
    | .ping job =>
      if s.closing.rank ≤ ClosePC.proxyStack.rank ∧ s.tun.proxyHandler.isSome = true then
        some { s with pings := s.pings ++ [job] }
      else none
    | .pingFailed i =>
      if i < s.pings.length then some { s with pings := s.pings.eraseIdx i } else none
    | .pingReply i =>
      match s.pings[i]? with
      | none => none
      | some job =>
        match ProxyHandler.pingReply job with
        | .ok packet => s.queueICMPReply i packet
        -- the program ends before it gets to the channel
        | .error _ => none
    | .call i => s.call i
    | .close => s.close

/-- The channel of replies is closed when no ping is in flight and every call of
`WriteNotify` has looked for replies, and the channel of incoming packets when no
ping is in flight and every call has returned; pings and packets of the proxy stack
come before the channel of replies is closed. -/
def Quiet (s : Sys T) : Event → Prop
  | .close =>
    (s.closing = .icmpReplies → s.pings = [] ∧ ∀ pc ∈ s.tun.calls, 2 ≤ pc.looked) ∧
      (s.closing = .incomingPacket → s.pings = [] ∧ ∀ pc ∈ s.tun.calls, pc = .returned)
  | .ping _ | .proxyPacket _ => s.icmpClosed = false
  | _ => True

instance (s : Sys T) (e : Event) : Decidable (s.Quiet e) := by
  unfold Quiet
  split <;> infer_instance

/-- Nobody has sent on a closed channel, and nothing received from one was handed
on as a packet. -/
def Orderly (s : Sys T) : Prop :=
  s.panicked = false ∧ s.forwarded = []

/-- The invariant. -/
structure Sound (s : Sys T) : Prop where
  replies : s.icmpClosed = true → s.pings = [] ∧ ∀ pc ∈ s.tun.calls, 2 ≤ pc.looked
  later : s.icmpClosed = true → ClosePC.icmpReplies.rank < s.closing.rank
  incoming : s.incomingClosed = true → s.pings = [] ∧ ∀ pc ∈ s.tun.calls, pc = .returned
  last : s.incomingClosed = true → s.closing = .returned
  reads : s.closedReads = []
  orderly : s.Orderly

variable {s s' : Sys T} {tun : Notify.Sys T}

/-- A call of `WriteNotify` only gets further. -/
theorem looked_le {t t' : Notify.Sys T} {pc pc' : NotifyPC}
    (h : t.writeNotify pc = some (t', pc')) : pc.looked ≤ pc'.looked := by
  cases pc with
  | start => exact zero_le _
  | icmp =>
    simp only [Notify.Sys.writeNotify] at h
    split at h
    · cases h
    · split at h <;> cases h <;> simp [NotifyPC.looked]
  | proxy =>
    simp only [Notify.Sys.writeNotify] at h
    split at h
    · cases h
    · split at h
      · cases h
        exact le_succ 2
      · split at h <;> cases h <;> simp [NotifyPC.looked]
  | sending packet view =>
    cases h
    exact le_refl 3
  | returned => cases h

/-- The step of a call: one program counter changes, and it gets further. -/
theorem calls_of_call {t t' : Notify.Sys T} {i : Nat} (h : t.step (.call i) = some t') :
    ∃ pc pc', t.calls[i]? = some pc ∧ pc ≠ .returned ∧ pc.looked ≤ pc'.looked ∧
      t'.calls = t.calls.set i pc' := by
  simp only [Notify.Sys.step] at h
  split at h
  · cases h
  · next pc hi =>
    split at h
    · cases h
    · next t₁ pc' hcall =>
      cases h
      refine ⟨pc, pc', hi, ?_, looked_le hcall, rfl⟩
      rintro rfl
      cases hcall

variable (h : s.Sound)

include h

/-- While both channels are open there is nothing to keep. -/
theorem Sound.of_open (hicmp : s'.icmpClosed = false) (hincoming : s'.incomingClosed = false)
    (hreads : s'.closedReads = s.closedReads) (hpanicked : s'.panicked = s.panicked)
    (hforwarded : s'.forwarded = s.forwarded) : s'.Sound where
  replies := by
    rw [hicmp]
    exact nofun
  later := by
    rw [hicmp]
    exact nofun
  incoming := by
    rw [hincoming]
    exact nofun
  last := by
    rw [hincoming]
    exact nofun
  reads := by
    rw [hreads]
    exact h.reads
  orderly := by
    unfold Orderly
    rw [hpanicked, hforwarded]
    exact h.orderly

/-- The channel of incoming packets is the last to be closed. -/
theorem Sound.incoming_open (hrank : s.closing.rank < ClosePC.returned.rank) :
    s.incomingClosed = false := by
  by_contra hclosed
  rw [h.last (Bool.not_eq_false _ ▸ hclosed)] at hrank
  exact lt_irrefl _ hrank

/-- A step of a call that touches neither channel's closed end. -/
theorem Sound.liftCall {i : Nat} (hs : s.lift (.call i) = some s') : s'.Sound := by
  obtain ⟨t, ht, rfl⟩ := map_eq_some_iff.mp hs
  obtain ⟨pc, pc', hi, hne, hle, hcalls⟩ := calls_of_call ht
  have hmem := mem_of_getElem? hi
  refine ⟨?_, h.later, ?_, h.last, h.reads, h.orderly⟩
  · intro hclosed
    obtain ⟨hpings, hlooked⟩ := h.replies hclosed
    refine ⟨hpings, ?_⟩
    rw [hcalls]
    intro q hq
    rcases mem_or_eq_of_mem_set hq with hq | rfl
    · exact hlooked q hq
    · exact le_trans (hlooked pc hmem) hle
  · intro hclosed
    exact absurd ((h.incoming hclosed).2 pc hmem) hne

theorem Sound.call {i : Nat} (hs : s.call i = some s') : s'.Sound := by
  unfold Sys.call at hs
  split at hs
  · next packet view hi =>
    have hmem := mem_of_getElem? hi
    split at hs
    · next hclosed => cases (h.incoming hclosed).2 _ hmem
    · rw [if_neg (by rw [h.reads]; exact not_mem_nil)] at hs
      exact h.liftCall hs
  · next hi =>
    split at hs
    · next hclosed =>
      have hlooked := (h.replies hclosed.1).2 _ (mem_of_getElem? hi)
      exact absurd hlooked (by decide)
    · exact h.liftCall hs
  · exact h.liftCall hs

/-- `Close` gets on, and the channels stay as they are. -/
theorem Sound.advance (hcalls : tun.calls = s.tun.calls) {pc : ClosePC}
    (hlt : s.closing.rank < pc.rank) : Sound { s with closing := pc, tun := tun } where
  replies := by
    rw [hcalls]
    exact h.replies
  later := fun hclosed => lt_trans (h.later hclosed) hlt
  incoming := by
    rw [hcalls]
    exact h.incoming
  last := by
    intro hclosed
    rw [h.last hclosed] at hlt
    cases pc <;> exact absurd hlt (by decide)
  reads := h.reads
  orderly := h.orderly

theorem Sound.close (hquiet : s.Quiet .close) (hs : s.close = some s') : s'.Sound := by
  cases hpc : s.closing with
  | icmpReplies =>
    simp only [Sys.close, hpc] at hs
    cases hs
    have hopen : s.incomingClosed ≠ true := by simp [h.incoming_open (by rw [hpc]; decide)]
    exact ⟨fun _ => hquiet.1 hpc, fun _ => lt_succ_self 3, (absurd · hopen), (absurd · hopen),
      h.reads, h.orderly⟩
  | incomingPacket =>
    simp only [Sys.close, hpc] at hs
    cases hs
    refine ⟨h.replies, fun hclosed => ?_, fun _ => hquiet.2 hpc, fun _ => rfl, h.reads, h.orderly⟩
    have hlater := h.later hclosed
    rw [hpc] at hlater
    exact lt_succ_of_lt hlater
  | proxyHandler =>
    simp only [Sys.close, hpc] at hs
    split at hs
    · cases hs
      exact h.advance rfl (by rw [hpc]; decide)
    · cases hs
      refine h.advance rfl ?_
      rw [hpc]
      split <;> decide
  | returned => simp [Sys.close, hpc] at hs
  | _ =>
    simp only [Sys.close, hpc] at hs
    cases hs
    refine Sound.advance h ?_ ?_
    · rfl
    · rw [hpc]
      decide

/-- A reply is queued while the channel is open. -/
theorem Sound.queueICMPReply {i : Nat} {job : PingJob} (hi : s.pings[i]? = some job)
    {packet : ByteString} (hs : s.queueICMPReply i packet = some s') : s'.Sound := by
  have hne : s.pings ≠ [] := by
    intro hnil
    rw [hnil] at hi
    cases hi
  have hicmp : s.icmpClosed = false := by
    by_contra hclosed
    exact hne (h.replies (Bool.not_eq_false _ ▸ hclosed)).1
  have hincoming : s.incomingClosed = false := by
    by_contra hclosed
    exact hne (h.incoming (Bool.not_eq_false _ ▸ hclosed)).1
  unfold Sys.queueICMPReply at hs
  rw [hicmp, if_neg Bool.false_ne_true] at hs
  obtain ⟨t, -, rfl⟩ := map_eq_some_iff.mp hs
  exact h.of_open rfl hincoming rfl rfl rfl

theorem Sound.step {e : Event} (hquiet : s.Quiet e) (hs : s.step e = some s') : s'.Sound := by
  unfold Sys.step at hs
  rw [if_neg (by rw [h.orderly.1]; exact Bool.false_ne_true)] at hs
  cases e with
  | mainPacket packet =>
    dsimp only at hs
    split at hs
    · next hrank =>
      obtain ⟨t, -, rfl⟩ := map_eq_some_iff.mp hs
      have hicmp : s.icmpClosed = false := by
        by_contra hclosed
        have hlater := h.later (Bool.not_eq_false _ ▸ hclosed)
        simp only [ClosePC.rank] at hrank hlater
        omega
      exact h.of_open hicmp (h.incoming_open (lt_of_le_of_lt hrank (by decide)))
        rfl rfl rfl
    · cases hs
  | proxyPacket packet =>
    dsimp only at hs
    split at hs
    · next hrank =>
      obtain ⟨t, -, rfl⟩ := map_eq_some_iff.mp hs
      exact h.of_open hquiet (h.incoming_open (lt_of_le_of_lt hrank (by decide)))
        rfl rfl rfl
    · cases hs
  | tables tables =>
    obtain ⟨t, ht, rfl⟩ := map_eq_some_iff.mp hs
    cases ht
    exact ⟨h.replies, h.later, h.incoming, h.last, h.reads, h.orderly⟩
  | ping job =>
    dsimp only at hs
    split at hs
    · next hrank =>
      cases hs
      exact h.of_open hquiet (h.incoming_open (lt_of_le_of_lt hrank.1 (by decide)))
        rfl rfl rfl
    · cases hs
  | pingFailed i =>
    dsimp only at hs
    split at hs
    · next hlt =>
      cases hs
      refine ⟨?_, h.later, ?_, h.last, h.reads, h.orderly⟩
      · intro hclosed
        have hreplies := h.replies hclosed
        rw [hreplies.1] at hlt
        exact absurd hlt (not_lt_zero i)
      · intro hclosed
        have hincoming := h.incoming hclosed
        rw [hincoming.1] at hlt
        exact absurd hlt (not_lt_zero i)
    · cases hs
  | pingReply i =>
    dsimp only at hs
    split at hs
    · cases hs
    · next job hi =>
      split at hs
      · exact h.queueICMPReply hi hs
      · cases hs
  | call i => exact h.call hs
  | close => exact h.close hquiet hs

omit h

theorem sound_init [PrefixTable T] (options : ProxyHandlerOptions) :
    (init options : Sys T).Sound :=
  ⟨(nomatch ·), (nomatch ·),
    (nomatch ·), (nomatch ·), rfl, rfl, rfl⟩

/-- **Teardown of a quiet tunnel**: in every interleaving of `Close` with pings and
outgoing packets, nobody sends on a closed channel and nothing received from a
closed channel is handed on, if the channels are closed when no ping is in flight
and no call of `WriteNotify` has yet to use them, and pings and packets of the proxy
stack do not come after the first of them is closed. -/
theorem close_of_quiet_tunnel [PrefixTable T] (options : ProxyHandlerOptions)
    {es : List Event} {s : Sys T} (hmeets : Runs.Meets step Quiet (init options : Sys T) es)
    (hrun : run step (init options) es = some s) : s.Orderly :=
  (run_invariant (fun h hquiet hs => Sound.step h hquiet hs) (sound_init options) hmeets
    hrun).orderly

/-- A ping of 10.1.0.1 by 10.0.0.1. -/
def aPing : PingJob :=
  { srcIP := .v4 0x0A000001#32, originalDstIP := .v4 0x0A010001#32,
    actualDstIP := .v4 0x0A010001#32, ident := 7, seq := 1, payload := [] }

/-- A ping and a packet come through before `Close` is called. -/
def quietTeardown : List Event :=
  [.ping aPing, .mainPacket [1], .call 0, .call 0, .pingReply 0, .call 1, .call 1, .call 1] ++
    replicate 8 .close

theorem close_of_quiet_tunnel_quietTeardown :
    ∃ s : Sys ListTable, run step (init ⟨true, true, true⟩) quietTeardown = some s ∧
      s.closing = .returned ∧ s.Orderly := by
  have hmeets : Runs.Meets step Quiet (init ⟨true, true, true⟩ : Sys ListTable) quietTeardown := by
    decide +kernel
  simp only [← and_assoc]
  exact Exists.imp (fun s h => ⟨h, close_of_quiet_tunnel _ hmeets h.1⟩) (by decide +kernel)

/-- A ping is answered after the channel of replies was closed. -/
def lateReply : List Event :=
  [.ping aPing, .close, .close, .close, .close, .pingReply 0]

/-- A packet leaves the proxy stack after the channel of replies was closed. -/
def latePacket : List Event :=
  [.close, .close, .close, .close, .proxyPacket [1], .call 0, .call 0, .call 0]

/-- A packet has not been read when `Close` ends. -/
def unreadPacket : List Event :=
  [.mainPacket [1], .call 0] ++ replicate 8 .close ++ [.call 0]

/-- `Close` does not wait: a ping sends its reply on the closed channel, a call of
`WriteNotify` hands on the nothing it received from it as an empty packet, and
another sends its packet on the closed channel of incoming packets. -/
theorem close_races_with_traffic :
    (run step (init ⟨true, true, true⟩ : Sys ListTable) lateReply).map panicked =
        some true ∧
      (run step (init ⟨true, true, true⟩ : Sys ListTable) latePacket).map forwarded =
        some [[]] ∧
      (run step (init ⟨true, true, true⟩ : Sys ListTable) unreadPacket).map panicked =
        some true := by decide +kernel

end Sys

end Newt.TunClose
