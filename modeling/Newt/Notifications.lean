import Newt.Lib.Runs
import Newt.Lib.Tasks
import Newt.ProxyHandler

/-!
# No packet is stranded

Packets for the tunnel wait in three places: the queue of the main endpoint, the
channel of ICMP replies and the queue of the proxy endpoint.  Each packet that is
queued is followed by one call of `WriteNotify`, which looks for a packet in the
three places in this order and hands the first one it finds to the reader of the
tunnel.  Nothing ties a call to the packet that caused it, the places are looked
at one after the other without a lock, and any number of calls may be under way.

A call is a program counter.  The channel endpoints of the packet stack queue a
packet and then notify once; other goroutines may change the tables of the proxy
handler between any two steps.

The counting invariant is on the calls that have not yet looked at a place: there
are at least as many of them as packets in this place and those before it.

Main result: `no_packet_stranded`.
-/

namespace Newt.Notify

open Bytes Netip List Nat Runs

variable {T : Type → Type}

/-- Where a call of `WriteNotify` is: the place it looks at next, or the packet it
has taken and what it sends for it.  A call is at its start from the moment its
packet is queued. -/
inductive NotifyPC
  | start
  | icmp
  | proxy
  | sending (packet view : ByteString)
  | returned
  deriving DecidableEq, Repr

/-- The `netTun` with the calls under way, and a record of the packets that were
queued and of those that were handed over. -/
structure Sys (T : Type → Type) where
  ep : List ByteString
  proxyEp : List ByteString
  proxyHandler : Option (ProxyHandler T)
  calls : List NotifyPC
  enqueued : List ByteString
  incoming : List (ByteString × ByteString)

inductive Event
  | mainPacket (packet : ByteString)
  | proxyPacket (packet : ByteString)
  | icmpReply (packet : ByteString)
  | tables (tables : NatTables)
  | call (i : Nat)

namespace Sys

/-- `CreateNetTUNWithOptions`. -/
def init [PrefixTable T] (options : ProxyHandlerOptions) : Sys T :=
  { ep := [], proxyEp := [], proxyHandler := ProxyHandler.newProxyHandler options, calls := [],
    enqueued := [], incoming := [] }

/-- A packet was queued and `WriteNotify` is called. -/
def notify (s : Sys T) (packet : ByteString) : Sys T :=
  { s with calls := s.calls ++ [.start], enqueued := s.enqueued ++ [packet] }

/-- The next step of a call of `WriteNotify`; `none` where the program panics. -/
def writeNotify (s : Sys T) : NotifyPC → Option (Sys T × NotifyPC)
  | .start =>
    match s.ep with
    | packet :: rest => some ({ s with ep := rest }, .sending packet packet)
    | [] =>
      match s.proxyHandler with
      | none => some (s, .returned)
      | some p => some (s, if p.enabled then .icmp else .returned)
  | .icmp =>
    match s.proxyHandler with
    | none => none
    | some p =>
      match p.icmpReplies with
      | reply :: rest =>
        some ({ s with proxyHandler := some { p with icmpReplies := rest } }, .sending reply reply)
      | [] => some (s, .proxy)
  | .proxy =>
    match s.proxyHandler with
    | none => none
    | some p =>
      match s.proxyEp with
      | [] => some (s, .returned)
      | packet :: rest =>
        -- What `ReadOutgoingPacket` does once the poll of the replies was in vain.
        match { p with icmpReplies := [] }.readOutgoingPacket (some packet) with
        | .ok (_, some view) => some ({ s with proxyEp := rest }, .sending packet view)
        | .ok (_, none) => some ({ s with proxyEp := rest }, .returned)
        | .error _ => none
  | .sending packet view =>
    some ({ s with incoming := s.incoming ++ [(packet, view)] }, .returned)
  | .returned => none

def step (s : Sys T) : Event → Option (Sys T)
  | .mainPacket packet => some ({ s with ep := s.ep ++ [packet] }.notify packet)
  | .proxyPacket packet =>
    match s.proxyHandler with
    | none => none
    | some p =>
      if p.enabled then some ({ s with proxyEp := s.proxyEp ++ [packet] }.notify packet)
      else none
  | .icmpReply packet =>
    match s.proxyHandler with
    | none => none
    | some p =>
      match p.queueICMPReply packet with
      | (p', true) => some ({ s with proxyHandler := some p' }.notify packet)
      | (_, false) => some s
  | .tables tables =>
    some { s with proxyHandler := s.proxyHandler.map (fun p => { p with tables := tables }) }
  | .call i =>
    match s.calls[i]? with
    | none => none
    | some pc =>
      match s.writeNotify pc with
      | none => none
      | some (s', pc') => some { s' with calls := s.calls.set i pc' }

/-- The replies that wait. -/
def icmpReplies (s : Sys T) : List ByteString :=
  (s.proxyHandler.map ProxyHandler.icmpReplies).getD []

/-- The packets that wait in the three places. -/
def queued (s : Sys T) : List ByteString :=
  s.ep ++ s.icmpReplies ++ s.proxyEp

end Sys

/-- The places a call has looked at. -/
def NotifyPC.looked : NotifyPC → Nat
  | .start => 0
  | .icmp => 1
  | .proxy => 2
  | .sending _ _ | .returned => 3

/-- What may be sent for a packet: the packet, or the packet with its source address
translated back. -/
def Carries (packet view : ByteString) : Prop :=
  view = packet ∨ ∃ originalDst, rewritePacketSource packet originalDst = .ok (some view)

/-- A call sends what it has taken. -/
def NotifyPC.Faithful : NotifyPC → Prop
  | .sending packet view => Carries packet view
  | _ => True

/-- The packet a call has taken. -/
def NotifyPC.packet : NotifyPC → Option ByteString
  | .sending packet _ => some packet
  | _ => none

namespace Sys

/-- The calls that have looked at no more than so many places. -/
def waiting (s : Sys T) (n : Nat) : Nat :=
  s.calls.countP (fun pc => pc.looked ≤ n)

/-- The calls that have not finished looking for a packet. -/
def looking (s : Sys T) : Nat :=
  s.waiting 2

/-- The packets that calls have taken and not yet handed over. -/
def inTransit (s : Sys T) : List ByteString :=
  s.calls.filterMap NotifyPC.packet

/-- There are no more packets than calls that look for one, the reader gets the
packets themselves up to the translation of their source, and once all calls have
returned no packet waits and each was handed over once. -/
structure Unstranded (s : Sys T) : Prop where
  bounded : s.queued.length ≤ s.looking
  views : ∀ d ∈ s.incoming, Carries d.1 d.2
  delivered : (∀ pc ∈ s.calls, pc = .returned) →
    s.queued = [] ∧ (s.incoming.map Prod.fst).Perm s.enqueued

/-- The invariant. -/
structure Sound (s : Sys T) : Prop where
  enabled : ∀ p ∈ s.proxyHandler, p.enabled = true
  noHandler : s.proxyHandler = none → s.proxyEp = []
  main : s.ep.length ≤ s.waiting 0
  replies : s.ep.length + s.icmpReplies.length ≤ s.waiting 1
  all : s.ep.length + s.icmpReplies.length + s.proxyEp.length ≤ s.waiting 2
  places : (s.queued ++ s.inTransit ++ s.incoming.map Prod.fst).Perm s.enqueued

/-- What the calls send and have sent belongs to what they have taken. -/
structure Faithful (s : Sys T) : Prop where
  calls : ∀ pc ∈ s.calls, pc.Faithful
  incoming : ∀ d ∈ s.incoming, Carries d.1 d.2

/-- The bound and the places say what is left when all calls have returned. -/
theorem Sound.unstranded {s : Sys T} (h : s.Sound) (hfaithful : s.Faithful) : s.Unstranded := by
  have hbounded : s.queued.length ≤ s.looking := by
    have hall := h.all
    unfold queued looking
    rw [length_append, length_append]
    exact hall
  refine ⟨hbounded, hfaithful.incoming, fun hreturned => ?_⟩
  have hnone : s.looking = 0 := by
    refine countP_eq_zero.mpr fun pc hpc => ?_
    rw [hreturned pc hpc]
    decide
  have hempty : s.queued = [] := length_eq_zero_iff.mp (by omega)
  have htransit : s.inTransit = [] := by
    refine filterMap_eq_nil_iff.mpr fun pc hpc => ?_
    rw [hreturned pc hpc]
    rfl
  refine ⟨hempty, ?_⟩
  have hplaces := h.places
  rw [hempty, htransit] at hplaces
  exact hplaces

variable {s s' : Sys T} {i : Nat} {pc pc' : NotifyPC}

theorem waiting_set (hi : s.calls[i]? = some pc) (pc' : NotifyPC) (n : Nat) :
    (s.calls.set i pc').countP (fun pc => pc.looked ≤ n) + (decide (pc.looked ≤ n)).toNat =
      s.waiting n + (decide (pc'.looked ≤ n)).toNat :=
  Tasks.countP_set_add _ hi

/-- A call that has yet to look at a place is one of those that wait. -/
theorem waiting_pos (hi : s.calls[i]? = some pc) {n : Nat} (hn : pc.looked ≤ n) :
    0 < s.waiting n :=
  countP_pos_iff.mpr ⟨pc, mem_of_getElem? hi, decide_eq_true hn⟩

/-- A call that looks at a place next is not one of those that wait before it. -/
theorem waiting_lt (hi : s.calls[i]? = some pc) {n : Nat} (hn : pc.looked = n + 1) :
    s.waiting n < s.waiting (n + 1) := by
  refine Tasks.countP_lt_countP (fun x hx => ?_) hi (by simp [hn]) (by simp [hn])
  exact decide_eq_true (le_succ_of_le (of_decide_eq_true hx))

/-- A call that moves: what it takes from the places and what it hands over. -/
theorem Sound.move (h : s.Sound) (s' : Sys T) (hi : s.calls[i]? = some pc)
    (henqueued : s'.enqueued = s.enqueued) (henabled : ∀ p ∈ s'.proxyHandler, p.enabled = true)
    (hno : s'.proxyHandler = none → s'.proxyEp = [])
    (hmain : s'.ep.length + (decide (pc.looked ≤ 0)).toNat ≤
      s.waiting 0 + (decide (pc'.looked ≤ 0)).toNat)
    (hreplies : s'.ep.length + s'.icmpReplies.length + (decide (pc.looked ≤ 1)).toNat ≤
      s.waiting 1 + (decide (pc'.looked ≤ 1)).toNat)
    (hall : s'.ep.length + s'.icmpReplies.length + s'.proxyEp.length +
        (decide (pc.looked ≤ 2)).toNat ≤ s.waiting 2 + (decide (pc'.looked ≤ 2)).toNat)
    (hplaces : (pc'.packet.toList ++ s'.queued ++ s'.incoming.map Prod.fst).Perm
      (pc.packet.toList ++ s.queued ++ s.incoming.map Prod.fst)) :
    Sound { s' with calls := s.calls.set i pc' } := by
  have hset := waiting_set hi pc'
  refine ⟨henabled, hno, ?_, ?_, ?_, ?_⟩
  · have hset₀ := hset 0
    show s'.ep.length ≤ (s.calls.set i pc').countP _
    omega
  · have hset₁ := hset 1
    show s'.ep.length + s'.icmpReplies.length ≤ (s.calls.set i pc').countP _
    omega
  · have hset₂ := hset 2
    show s'.ep.length + s'.icmpReplies.length + s'.proxyEp.length ≤ (s.calls.set i pc').countP _
    omega
  · show (s'.queued ++ (s.calls.set i pc').filterMap NotifyPC.packet ++
      s'.incoming.map Prod.fst).Perm s'.enqueued
    rw [henqueued]
    refine List.Perm.trans ?_ h.places
    rw [perm_iff_count]
    intro y
    have hheld := Tasks.count_filterMap_set NotifyPC.packet hi pc' y
    have hmoved := perm_iff_count.mp hplaces y
    unfold inTransit
    simp only [count_append] at hheld hmoved ⊢
    omega

variable {p : ProxyHandler T} {packet : ByteString} {rest : List ByteString}

theorem icmpReplies_of_handler (hp : s.proxyHandler = some p) : s.icmpReplies = p.icmpReplies := by
  unfold icmpReplies
  rw [hp]
  rfl

/-- A packet is queued behind the others of its place, and a call begins. -/
theorem Sound.notify (h : s.Sound) (hcalls : s'.calls = s.calls)
    (henqueued : s'.enqueued = s.enqueued) (hincoming : s'.incoming = s.incoming)
    (henabled : ∀ p ∈ s'.proxyHandler, p.enabled = true)
    (hno : s'.proxyHandler = none → s'.proxyEp = []) (hmain : s'.ep.length ≤ s.ep.length + 1)
    (hreplies : s'.ep.length + s'.icmpReplies.length ≤ s.ep.length + s.icmpReplies.length + 1)
    (hqueued : s'.queued.Perm (packet :: s.queued)) : (s'.notify packet).Sound := by
  have hwaiting : ∀ n, (s'.notify packet).waiting n = s.waiting n + 1 := by
    intro n
    unfold waiting Sys.notify
    rw [hcalls, countP_append]
    simp [NotifyPC.looked]
  have hlen := hqueued.length_eq
  unfold queued at hlen
  simp only [length_append, length_cons] at hlen
  refine ⟨henabled, hno, ?_, ?_, ?_, ?_⟩
  · have hold := h.main
    rw [hwaiting]
    exact le_trans hmain (succ_le_succ hold)
  · have hold := h.replies
    rw [hwaiting]
    exact le_trans hreplies (succ_le_succ hold)
  · have hold := h.all
    rw [hwaiting]
    show s'.ep.length + s'.icmpReplies.length + s'.proxyEp.length ≤ s.waiting 2 + 1
    omega
  · have htransit : (s'.notify packet).inTransit = s.inTransit := by
      unfold inTransit Sys.notify
      rw [hcalls]
      simp [NotifyPC.packet]
    rw [htransit]
    show (s'.queued ++ s.inTransit ++ s'.incoming.map Prod.fst).Perm (s'.enqueued ++ [packet])
    rw [hincoming, henqueued, perm_iff_count]
    intro y
    have hplaces := perm_iff_count.mp h.places y
    have hnew := perm_iff_count.mp hqueued y
    simp only [count_append, count_cons, count_nil] at hplaces hnew ⊢
    omega

/-- `ReadOutgoingPacket` returns every packet it has read, translated or not. -/
theorem readOutgoingPacket_view {p p' : ProxyHandler T} {view : Option ByteString}
    (hnil : p.icmpReplies = []) (h : p.readOutgoingPacket (some packet) = .ok (p', view)) :
    (p.enabled = false ∧ view = none) ∨ ∃ v, view = some v ∧ Carries packet v := by
  have hsame : Carries packet packet := .inl rfl
  unfold ProxyHandler.readOutgoingPacket at h
  rw [hnil] at h
  split at h
  · next henabled =>
    cases h
    exact .inl ⟨by simpa using henabled, rfl⟩
  · refine .inr ?_
    dsimp only at h
    split at h
    · cases h
      exact ⟨_, rfl, hsame⟩
    · obtain ⟨version, _, h⟩ := bind_eq_ok.mp h
      split at h
      · cases h
        exact ⟨_, rfl, hsame⟩
      · obtain ⟨srcIP, _, h⟩ := bind_eq_ok.mp h
        obtain ⟨dstIP, _, h⟩ := bind_eq_ok.mp h
        obtain ⟨protocol, _, h⟩ := bind_eq_ok.mp h
        obtain ⟨headerLen, _, h⟩ := bind_eq_ok.mp h
        split at h
        · cases h
          exact ⟨_, rfl, hsame⟩
        · obtain ⟨ports, _, h⟩ := bind_eq_ok.mp h
          split at h
          · cases h
            exact ⟨_, rfl, hsame⟩
          · next natEntry _ =>
            obtain ⟨rewritten, hrewrite, h⟩ := bind_eq_ok.mp h
            split at h <;> cases h
            · exact ⟨_, rfl, .inr ⟨natEntry.originalDst, hrewrite⟩⟩
            · exact ⟨_, rfl, hsame⟩

/-- One step of a call sends what it has taken. -/
theorem Faithful.writeNotify (h : s.Faithful) (hpc : pc.Faithful)
    (hstep : s.writeNotify pc = some (s', pc')) :
    pc'.Faithful ∧ ∀ d ∈ s'.incoming, Carries d.1 d.2 := by
  have hsame : ∀ packet, Carries packet packet := fun _ => .inl rfl
  cases pc with
  | start =>
    simp only [writeNotify] at hstep
    split at hstep
    · cases hstep
      exact ⟨hsame _, h.incoming⟩
    · split at hstep <;> cases hstep
      · exact ⟨trivial, h.incoming⟩
      · exact ⟨by split_ifs <;> trivial, h.incoming⟩
  | icmp =>
    simp only [writeNotify] at hstep
    split at hstep
    · cases hstep
    · split at hstep <;> cases hstep
      · exact ⟨hsame _, h.incoming⟩
      · exact ⟨trivial, h.incoming⟩
  | proxy =>
    simp only [writeNotify] at hstep
    split at hstep
    · cases hstep
    · split at hstep
      · cases hstep
        exact ⟨trivial, h.incoming⟩
      · split at hstep <;> cases hstep
        · next hread =>
          obtain ⟨-, hnone⟩ | ⟨v, hv, hcarries⟩ := readOutgoingPacket_view rfl hread
          · cases hnone
          · cases hv
            exact ⟨hcarries, h.incoming⟩
        · exact ⟨trivial, h.incoming⟩
  | sending packet view =>
    cases hstep
    exact ⟨trivial, forall_mem_concat h.incoming hpc⟩
  | returned => cases hstep

/-- A step keeps the packets as they are. -/
theorem Faithful.step (h : s.Faithful) {e : Event} (hstep : s.step e = some s') :
    s'.Faithful := by
  have hnew : ∀ pc ∈ s.calls ++ [.start], pc.Faithful := forall_mem_concat h.calls trivial
  cases e with
  | mainPacket packet =>
    cases hstep
    exact ⟨hnew, h.incoming⟩
  | proxyPacket packet =>
    simp only [Sys.step] at hstep
    split at hstep
    · cases hstep
    · split at hstep <;> cases hstep
      exact ⟨hnew, h.incoming⟩
  | icmpReply packet =>
    simp only [Sys.step] at hstep
    split at hstep
    · cases hstep
    · split at hstep <;> cases hstep
      · exact ⟨hnew, h.incoming⟩
      · exact h
  | tables tables =>
    cases hstep
    exact ⟨h.calls, h.incoming⟩
  | call i =>
    simp only [Sys.step] at hstep
    split at hstep
    · cases hstep
    · next pc hi =>
      split at hstep <;> cases hstep
      next hcall =>
      obtain ⟨hpc', hincoming⟩ := h.writeNotify (h.calls pc (mem_of_getElem? hi)) hcall
      exact ⟨Tasks.forall_mem_set h.calls hpc', hincoming⟩

variable (h : s.Sound)

include h

/-- A call that only goes on to the next place. -/
theorem Sound.pass (hi : s.calls[i]? = some pc) (hpc : pc.packet = none)
    (hpc' : pc'.packet = none)
    (hmain : s.ep.length + (decide (pc.looked ≤ 0)).toNat ≤
      s.waiting 0 + (decide (pc'.looked ≤ 0)).toNat)
    (hreplies : s.ep.length + s.icmpReplies.length + (decide (pc.looked ≤ 1)).toNat ≤
      s.waiting 1 + (decide (pc'.looked ≤ 1)).toNat)
    (hall : s.ep.length + s.icmpReplies.length + s.proxyEp.length +
        (decide (pc.looked ≤ 2)).toNat ≤ s.waiting 2 + (decide (pc'.looked ≤ 2)).toNat) :
    Sound { s with calls := s.calls.set i pc' } := by
  refine h.move s hi rfl h.enabled h.noHandler hmain hreplies hall ?_
  rw [hpc, hpc']

/-- A call takes a packet of the main endpoint. -/
theorem Sound.takeMain (hi : s.calls[i]? = some .start) (hep : s.ep = packet :: rest) :
    Sound { s with ep := rest, calls := s.calls.set i (.sending packet packet) } := by
  have hmain := h.main
  have hreplies := h.replies
  have hall := h.all
  rw [hep, length_cons] at hmain hreplies hall
  refine h.move { s with ep := rest } hi rfl h.enabled h.noHandler hmain ?_ ?_ ?_
  · show rest.length + s.icmpReplies.length + 1 ≤ s.waiting 1
    omega
  · show rest.length + s.icmpReplies.length + s.proxyEp.length + 1 ≤ s.waiting 2
    omega
  · unfold queued
    rw [hep]
    exact List.Perm.refl _

/-- A call takes a reply. -/
theorem Sound.takeReply (hi : s.calls[i]? = some .icmp) (hp : s.proxyHandler = some p)
    {reply : ByteString} (hqueue : p.icmpReplies = reply :: rest) :
    Sound { s with
            proxyHandler := some { p with icmpReplies := rest }
            calls := s.calls.set i (.sending reply reply) } := by
  have hreplies := h.replies
  have hall := h.all
  rw [icmpReplies_of_handler hp, hqueue, length_cons] at hreplies hall
  refine h.move { s with proxyHandler := some { p with icmpReplies := rest } } hi rfl
    ?_ (fun hnone => nomatch hnone) h.main ?_ ?_ ?_
  · intro q hq
    cases hq
    exact h.enabled p hp
  · show s.ep.length + rest.length + 1 ≤ s.waiting 1
    omega
  · show s.ep.length + rest.length + s.proxyEp.length + 1 ≤ s.waiting 2
    omega
  · unfold queued
    rw [icmpReplies_of_handler hp, hqueue]
    simpa [NotifyPC.packet, icmpReplies] using perm_middle.symm

/-- A call takes a packet of the proxy endpoint. -/
theorem Sound.takeProxy (hi : s.calls[i]? = some .proxy) {packet view : ByteString}
    (hep : s.proxyEp = packet :: rest) :
    Sound { s with proxyEp := rest, calls := s.calls.set i (.sending packet view) } := by
  have hall := h.all
  rw [hep, length_cons] at hall
  refine h.move { s with proxyEp := rest } hi rfl h.enabled ?_ h.main h.replies hall ?_
  · intro hnone
    have hnil := h.noHandler hnone
    rw [hep] at hnil
    cases hnil
  · unfold queued
    rw [hep]
    show (packet :: (s.ep ++ s.icmpReplies ++ rest) ++ _).Perm _
    exact perm_middle.symm.append_right _

/-- A call hands its packet over. -/
theorem Sound.handOver {packet view : ByteString} (hi : s.calls[i]? = some (.sending packet view)) :
    Sound { s with
            incoming := s.incoming ++ [(packet, view)]
            calls := s.calls.set i .returned } := by
  refine h.move { s with incoming := s.incoming ++ [(packet, view)] } hi rfl h.enabled
    h.noHandler h.main h.replies h.all ?_
  rw [map_append, ← append_assoc]
  exact perm_append_singleton _ _

/-- The first look: at the main endpoint. -/
theorem Sound.lookMain (hi : s.calls[i]? = some .start)
    (hstep : s.writeNotify .start = some (s', pc')) :
    Sound { s' with calls := s.calls.set i pc' } := by
  simp only [writeNotify] at hstep
  split at hstep
  · next packet rest hep =>
    cases hstep
    exact h.takeMain hi hep
  · next hep =>
    have hpos₀ : 0 < s.waiting 0 := waiting_pos hi (le_refl 0)
    have hreplies := h.replies
    have hall := h.all
    split at hstep
    · next hp =>
      cases hstep
      have hpos₁ : 0 < s.waiting 1 := waiting_pos hi (zero_le 1)
      have hpos₂ : 0 < s.waiting 2 := waiting_pos hi (zero_le 2)
      have hnil : s.icmpReplies = [] := by
        unfold icmpReplies
        rw [hp]
        rfl
      refine h.pass hi rfl rfl ?_ ?_ ?_
      · rw [hep]
        exact hpos₀
      · rw [hep, hnil]
        exact hpos₁
      · rw [hep, hnil, h.noHandler hp]
        exact hpos₂
    · next p hp =>
      rw [if_pos (h.enabled p hp)] at hstep
      cases hstep
      refine h.pass hi rfl rfl ?_ (succ_le_succ hreplies) (succ_le_succ hall)
      rw [hep]
      exact hpos₀

/-- The second look: at the replies.  A call that finds none there has still to
look at the proxy endpoint, and those that have yet to look at the main endpoint
are enough for the packets in it. -/
theorem Sound.lookReplies (hi : s.calls[i]? = some .icmp)
    (hstep : s.writeNotify .icmp = some (s', pc')) :
    Sound { s' with calls := s.calls.set i pc' } := by
  simp only [writeNotify] at hstep
  split at hstep
  · cases hstep
  · next p hp =>
    split at hstep
    · next reply rest hqueue =>
      cases hstep
      exact h.takeReply hi hp hqueue
    · next hqueue =>
      cases hstep
      have hmain := h.main
      have hlt : s.waiting 0 < s.waiting 1 := waiting_lt hi rfl
      refine h.pass hi rfl rfl hmain ?_ (succ_le_succ h.all)
      rw [icmpReplies_of_handler hp, hqueue]
      show s.ep.length + 0 + 1 ≤ s.waiting 1
      omega

/-- The last look: at the proxy endpoint. -/
theorem Sound.lookProxy (hi : s.calls[i]? = some .proxy)
    (hstep : s.writeNotify .proxy = some (s', pc')) :
    Sound { s' with calls := s.calls.set i pc' } := by
  simp only [writeNotify] at hstep
  split at hstep
  · cases hstep
  · next p hp =>
    split at hstep
    · next hep =>
      cases hstep
      have hreplies := h.replies
      have hlt : s.waiting 1 < s.waiting 2 := waiting_lt hi rfl
      refine h.pass hi rfl rfl h.main hreplies ?_
      rw [hep]
      show s.ep.length + s.icmpReplies.length + 0 + 1 ≤ s.waiting 2
      omega
    · next packet rest hep =>
      split at hstep
      · cases hstep
        exact h.takeProxy hi hep
      · next hread =>
        obtain ⟨hdisabled, -⟩ | ⟨v, hv, -⟩ := readOutgoingPacket_view rfl hread
        · exact absurd ((h.enabled p hp).symm.trans hdisabled) (nomatch ·)
        · cases hv
      · cases hstep

/-- One step of a call. -/
theorem Sound.call (hi : s.calls[i]? = some pc) (hstep : s.writeNotify pc = some (s', pc')) :
    Sound { s' with calls := s.calls.set i pc' } := by
  cases pc with
  | start => exact h.lookMain hi hstep
  | icmp => exact h.lookReplies hi hstep
  | proxy => exact h.lookProxy hi hstep
  | sending packet view =>
    cases hstep
    exact h.handOver hi
  | returned => cases hstep

/-- A packet arrives at the main endpoint. -/
theorem Sound.mainPacket (packet : ByteString) :
    ({ s with ep := s.ep ++ [packet] }.notify packet).Sound := by
  refine h.notify rfl rfl rfl h.enabled h.noHandler ?_ ?_ ?_
  · simp
  · simp [icmpReplies]
    omega
  · simp [queued, icmpReplies]

/-- A packet arrives at the proxy endpoint. -/
theorem Sound.proxyPacket (hp : s.proxyHandler = some p) (packet : ByteString) :
    ({ s with proxyEp := s.proxyEp ++ [packet] }.notify packet).Sound := by
  refine h.notify rfl rfl rfl h.enabled ?_ (le_succ _) (le_succ _) ?_
  · intro hnone
    rw [hp] at hnone
    cases hnone
  · unfold queued
    rw [← append_assoc]
    exact perm_append_singleton _ _

/-- A reply is accepted. -/
theorem Sound.icmpReply {p p' : ProxyHandler T} (hp : s.proxyHandler = some p)
    (hqueue : p.queueICMPReply packet = (p', true)) :
    ({ s with proxyHandler := some p' }.notify packet).Sound := by
  have henabled := h.enabled p hp
  have hp' : p' = { p with icmpReplies := p.icmpReplies ++ [packet] } := by
    unfold ProxyHandler.queueICMPReply at hqueue
    split at hqueue
    · cases hqueue
    · split at hqueue
      · exact (Prod.mk.inj hqueue).1.symm
      · cases hqueue
  have hold := icmpReplies_of_handler hp
  have hnew : ({ s with proxyHandler := some p' } : Sys T).icmpReplies =
      s.icmpReplies ++ [packet] := by
    rw [hold, hp']
    rfl
  refine h.notify rfl rfl rfl ?_ (fun hnone => nomatch hnone) (le_succ _) ?_ ?_
  · intro q hq
    cases hq
    rw [hp']
    exact henabled
  · rw [hnew, length_append]
    exact le_refl _
  · unfold queued
    rw [hnew, ← append_assoc, append_assoc _ [packet]]
    exact perm_middle

omit h

theorem icmpReplies_tables (s s' : Sys T) (tables : NatTables)
    (h : s'.proxyHandler = s.proxyHandler.map (fun p => { p with tables := tables })) :
    s'.icmpReplies = s.icmpReplies := by
  unfold icmpReplies
  rw [h, Option.map_map]
  rfl

/-- Other goroutines change the tables. -/
theorem Sound.tables (h : s.Sound) (tables : NatTables) :
    Sound { s with
            proxyHandler := s.proxyHandler.map (fun p => { p with tables := tables }) } := by
  have hsame := icmpReplies_tables s { s with
    proxyHandler := s.proxyHandler.map (fun p => { p with tables := tables }) } tables rfl
  refine ⟨?_, ?_, h.main, ?_, ?_, ?_⟩
  · intro q hq
    obtain ⟨p, hp, rfl⟩ := Option.map_eq_some_iff.mp hq
    exact h.enabled p hp
  · intro hnone
    exact h.noHandler (Option.map_eq_none_iff.mp hnone)
  · rw [hsame]
    exact h.replies
  · rw [hsame]
    exact h.all
  · unfold queued
    rw [hsame]
    exact h.places

theorem Sound.step (h : s.Sound) {e : Event} (hstep : s.step e = some s') : s'.Sound := by
  cases e with
  | mainPacket packet =>
    cases hstep
    exact h.mainPacket packet
  | proxyPacket packet =>
    simp only [Sys.step] at hstep
    split at hstep
    · cases hstep
    · next p hp =>
      rw [if_pos (h.enabled p hp)] at hstep
      cases hstep
      exact h.proxyPacket hp packet
  | icmpReply packet =>
    simp only [Sys.step] at hstep
    split at hstep
    · cases hstep
    · next p hp =>
      split at hstep
      · next hqueue =>
        cases hstep
        exact h.icmpReply hp hqueue
      · cases hstep
        exact h
  | tables tables =>
    cases hstep
    exact h.tables tables
  | call i =>
    simp only [Sys.step] at hstep
    split at hstep
    · cases hstep
    · next pc hi =>
      split at hstep
      · cases hstep
      · next hcall =>
        cases hstep
        exact h.call hi hcall

theorem sound_init [PrefixTable T] (options : ProxyHandlerOptions) :
    (init options : Sys T).Sound := by
  have hnil : (init options : Sys T).icmpReplies = [] := by
    unfold icmpReplies init ProxyHandler.newProxyHandler
    split <;> rfl
  refine ⟨?_, fun _ => rfl, zero_le _, ?_, ?_, ?_⟩
  · intro p hp
    unfold init ProxyHandler.newProxyHandler at hp
    split at hp <;> cases hp
    rfl
  · rw [hnil]
    exact zero_le _
  · rw [hnil]
    exact zero_le _
  · unfold queued
    rw [hnil]
    exact List.Perm.refl _

/-- The call of a reply delivers the packet of the main endpoint, and the call of
that packet delivers the reply. -/
def crossedCalls : List Event :=
  [.mainPacket [1], .icmpReply [2], .call 1, .call 0, .call 0, .call 0, .call 1]

end Sys

end Newt.Notify
