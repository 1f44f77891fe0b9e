import Newt.ProxyRun

/-!
# Reply translation

Replies of the user-space stack come from the address a connection was
rewritten to; `ReadOutgoingPacket` finds the original destination in the
reverse map, whose key is that address with the client's address and the two
ports.  Several original destinations may share one rewrite target, a target
may be an original destination of its own, and entries outlive their
connections.  Then the keys coincide, and a release with the 5-tuple a handler
sees removes the entry of another connection.

`KeepsApart` is the condition on a step that excludes this;
`translation_injective_and_kept` is the property of whole runs, and
`ending_conn_breaks_another` a run of the code that breaks it.
-/

namespace Newt

open Function NatTables ConnKey List

open Netip Bytes IPv4Packet

/-- The 5-tuple of the replies of a connection. -/
def ConnKey.reply (k : ConnKey) : ConnKey :=
  { srcIP := k.dstIP, srcPort := k.dstPort, dstIP := k.srcIP, dstPort := k.srcPort,
    proto := k.proto }

/-- The source address a reply of a connection leaves with, for the 5-tuple the
stack sees. -/
def NatTables.replySource (t : NatTables) (seen : ConnKey) : Addr :=
  match t.reverseNatTable (seen.reverse seen.dstIP) with
  | some e => e.originalDst
  | none => seen.dstIP

section Outgoing

variable {T : Type → Type}

/-- The ports of a packet are read the same on the way out. -/
theorem outgoingPorts_eq {b : ByteString} {k : ConnKey} (hk : incomingKey b = some k) :
    outgoingPorts b (proto b) (headerLen b) = .ok (k.srcPort, k.dstPort) := by
  obtain ⟨-, -, -, hports⟩ := incomingKey_read hk
  unfold outgoingPorts
  cases hports with
  | tcp hproto hlen hsrc hdst =>
    rw [if_pos hproto, if_pos hlen]
    simp only [tcpMinimumSize] at hlen
    rw [sourcePort_ok (by omega), destinationPort_ok (by omega), hsrc, hdst]
    rfl
  | udp htcp hproto hlen hsrc hdst =>
    rw [if_neg htcp, if_pos hproto, if_pos hlen]
    simp only [udpMinimumSize] at hlen
    rw [sourcePort_ok (by omega), destinationPort_ok (by omega), hsrc, hdst]
    rfl
  | other htcp hudp hsrc hdst =>
    rw [if_neg htcp, if_neg hudp, hsrc, hdst]
    rfl

/-- **What a reply leaves with.**  A reply of a TCP or UDP connection, read
while no ICMP reply is waiting, leaves with the source address of the reverse
lookup, if that is an IPv4 address. -/
theorem readOutgoingPacket_reply {p : ProxyHandler T} {k : ConnKey} {b : ByteString}
    {y : BitVec 32} (hen : p.enabled = true) (hicmp : p.icmpReplies = [])
    (hproto : k.proto ≠ icmpProto) (hflow : flow b = some k.reply)
    (hsource : p.tables.replySource k = .v4 y) :
    ∃ out, p.readOutgoingPacket (some b) = .ok (p, some out) ∧ src out = y := by
  have hhl : ¬ (headerLen b < 20 ∨ b.length < headerLen b) := by
    intro hbad
    simp [flow, hbad] at hflow
  have hk : incomingKey b = some k.reply := by
    rw [flow, if_neg hhl] at hflow
    exact hflow
  obtain ⟨hlen, hver⟩ := incomingKey_length hk
  obtain ⟨hsrc, hdst, hp, -⟩ := incomingKey_read hk
  have hver' : num b 0 1 / 16 = 4 := hver
  have hsmall : ¬ b.length < ipv4MinimumSize := Nat.not_lt.mpr hlen
  have hnoticmp : proto b ≠ icmpProto := by
    rw [← hp]
    exact hproto
  unfold ProxyHandler.readOutgoingPacket
  simp only [hen, hicmp, Bool.not_true, Bool.false_eq_true, if_false, hsmall]
  rw [readNum_ok (by omega), ok_bind, sourceAddress_ok hlen, destinationAddress_ok hlen,
    transportProtocol_ok hlen, headerLength_ok hlen]
  simp only [hver', ne_eq, not_true_eq_false, if_false, ok_bind, hnoticmp]
  rw [outgoingPorts_eq hk, ok_bind, ← hsrc, ← hdst, ← hp]
  have hrev : ({ rewrittenTo := k.reply.srcIP, originalSrcIP := k.reply.dstIP,
                 originalSrcPort := k.reply.dstPort, originalDstPort := k.reply.srcPort,
                 proto := k.reply.proto } : ReverseConnKey) = k.reverse k.dstIP := rfl
  simp only [hrev]
  unfold replySource at hsource
  cases he : p.tables.reverseNatTable (k.reverse k.dstIP) with
  | none =>
    rw [he] at hsource
    refine ⟨b, rfl, ?_⟩
    have hy : Addr.v4 (src b) = .v4 y := hsrc.symm.trans hsource
    exact Addr.v4.inj hy
  | some e =>
    rw [he] at hsource
    have horig : e.originalDst = .v4 y := hsource
    simp only [rewritePacketSource, horig]
    rcases rewriteAddress_cases (.v4 y) (by omega : 12 ≤ 12) (by omega) hlen with
      ⟨hbad, -⟩ | ⟨a, out, ha, -, hok, hread⟩
    · rcases hbad with hbad | hbad
      · cases hbad
      · exact absurd (.inr hbad) hhl
    · cases ha
      refine ⟨out, by rw [hok]; rfl, hread.addr (by omega)⟩

end Outgoing

/-- Two connections with their translated destinations do not get in each
other's way: if they differ only in the destination address, no address of the
one is an address of the other. -/
def Apart (k : ConnKey) (a : Addr) (k' : ConnKey) (a' : Addr) : Prop :=
  k.side = k'.side → k ≠ k' → a ≠ a' ∧ k.dstIP ≠ a' ∧ a ≠ k'.dstIP
  deriving Decidable

/-- The condition is symmetric. -/
theorem Apart.symm {k k' : ConnKey} {a a' : Addr} (h : Apart k a k' a') : Apart k' a' k a := by
  intro hside hne
  obtain ⟨h1, h2, h3⟩ := h hside.symm hne.symm
  exact ⟨h1.symm, h3.symm, h2.symm⟩

/-- A 5-tuple is not compared with itself. -/
theorem apart_self (k : ConnKey) (a a' : Addr) : Apart k a k a' :=
  fun _ hne => absurd rfl hne

variable {T : Type → Type}

namespace Sys

/-- The 5-tuple `k` is in use with the translated destination `a`: by a NAT
entry, also one that has outlived its connection, or by a live connection. -/
def Uses (s : Sys T) (k : ConnKey) (a : Addr) : Prop :=
  (∃ e, s.proxy.tables.natTable k = some e ∧ e.rewrittenTo = a) ∨
    ∃ c ∈ s.conns, c.Live ∧ c.orig = k ∧ c.seen.dstIP = a

/-- The condition on a step.  A packet that stores a NAT entry or opens a
connection uses addresses apart from those in use by other 5-tuples.  When it
opens a connection, the address it is rewritten to is a plain IPv4 address, and
no live connection with the same original 5-tuple is translated otherwise. -/
def KeepsApart [PrefixTable T] (s : Sys T) : Event → Prop
  | .packet dns bytes opens =>
    ∀ kr ∈ s.proxy.admission bytes,
      (∀ a ∈ s.proxy.tables.fresh (resolveRewriteAddress dns) kr.2 kr.1,
        ∀ k' a', s.Uses k' a' → Apart kr.1 a k' a') ∧
      (opens = true →
        (∀ k' a', s.Uses k' a' →
          Apart kr.1 (seenKey kr.1 (s.proxy.target dns kr.2 kr.1)).dstIP k' a') ∧
        (∀ a ∈ s.proxy.target dns kr.2 kr.1, a.isLoopback = false → a.is4 = true) ∧
        ∀ c ∈ s.conns, c.Live → c.orig = kr.1 →
          c.seen = seenKey kr.1 (s.proxy.target dns kr.2 kr.1))
  | _ => True

/-- The invariant: what is in use is apart, translated connections have their
NAT entry, connections with one original 5-tuple are translated alike, and the
NAT table and the reverse map hold the same entries. -/
structure Separated (s : Sys T) : Prop extends s.WellFormed where
  translated : ∀ c ∈ s.conns, c.Live → c.seen ≠ c.orig →
    ∃ e, s.proxy.tables.natTable c.orig = some e ∧ e.rewrittenTo = c.seen.dstIP
  alike : ∀ c ∈ s.conns, ∀ d ∈ s.conns, c.Live → d.Live → c.orig = d.orig → c.seen = d.seen
  apart : ∀ k a k' a', s.Uses k a → s.Uses k' a' → Apart k a k' a'
  matched : s.proxy.tables.ReverseMatched
  reversed : ∀ k e, s.proxy.tables.natTable k = some e →
    s.proxy.tables.reverseNatTable (k.reverse e.rewrittenTo) = some e

variable {s s' : Sys T} {e : Event}

/-- Empty tables use no address. -/
theorem Initial.not_uses (h : s.Initial) (k : ConnKey) (a : Addr) : ¬ s.Uses k a := by
  intro huse
  rcases huse with ⟨e, he, -⟩ | ⟨c, hc, -⟩
  · rw [h.tables] at he
    cases he
  · exact h.not_mem c hc

/-- Nothing is to be separated in the beginning. -/
theorem separated_initial (h : s.Initial) : s.Separated := by
  refine ⟨wellFormed_initial h, fun c hc => absurd hc (h.not_mem c),
    fun c hc => absurd hc (h.not_mem c), fun k a _ _ huse => absurd huse (h.not_uses k a), ?_, ?_⟩
  · rw [h.tables]
    exact reverseMatched_empty
  · intro k e he
    rw [h.tables] at he
    cases he

/-- The original destination of a live connection is the source of its replies. -/
theorem Separated.replySource_eq (h : s.Separated) {c : Conn} (hc : c ∈ s.conns)
    (hlive : c.Live) : s.proxy.tables.replySource c.seen = c.orig.dstIP := by
  unfold replySource
  cases he : s.proxy.tables.reverseNatTable (c.seen.reverse c.seen.dstIP) with
  | some e =>
    obtain ⟨k, hk, hdst, hnat⟩ := h.matched _ e he
    obtain ⟨hside, haddr⟩ := reverse_eq_iff.mp hk
    have hkc : k = c.orig := by
      by_contra hne
      have hapart := h.apart k e.rewrittenTo c.orig c.seen.dstIP (.inl ⟨e, hnat, rfl⟩)
        (.inr ⟨c, hc, hlive, rfl, rfl⟩)
      exact (hapart (hside.symm.trans (h.side c hc)) hne).1 haddr.symm
    rw [← hkc]
    exact hdst.symm
  | none =>
    by_cases hseen : c.seen = c.orig
    · rw [hseen]
    · exfalso
      obtain ⟨e, hnat, hto⟩ := h.translated c hc hlive hseen
      have hrev := h.reversed c.orig e hnat
      rw [hto, reverse_eq_iff.mpr ⟨(h.side c hc).symm, rfl⟩, he] at hrev
      cases hrev

/-- Distinct live connections are seen as distinct. -/
theorem Separated.seen_ne (h : s.Separated) {c d : Conn} (hc : c ∈ s.conns) (hd : d ∈ s.conns)
    (hcl : c.Live) (hdl : d.Live) (hne : c.orig ≠ d.orig) : c.seen ≠ d.seen := by
  intro heq
  have hside : c.orig.side = d.orig.side := by rw [← h.side c hc, heq, h.side d hd]
  have hapart := h.apart c.orig c.seen.dstIP d.orig d.seen.dstIP (.inr ⟨c, hc, hcl, rfl, rfl⟩)
    (.inr ⟨d, hd, hdl, rfl, rfl⟩)
  exact (hapart hside hne).1 (congrArg dstIP heq)

/-- A step that keeps the tables keeps the invariant if every live connection afterwards was
one before, up to its phase. -/
theorem Separated.of_conns (h : s.Separated) (hwf : s'.WellFormed)
    (htables : s'.proxy.tables = s.proxy.tables)
    (hback : ∀ d ∈ s'.conns, d.Live → ∃ d₀ ∈ s.conns, d₀.Live ∧ d₀.orig = d.orig ∧
      d₀.seen = d.seen) : s'.Separated := by
  have huses : ∀ k a, s'.Uses k a → s.Uses k a := by
    intro k a huse
    rcases huse with ⟨e, he, ha⟩ | ⟨d, hd, hdl, hk, ha⟩
    · rw [htables] at he
      exact .inl ⟨e, he, ha⟩
    · obtain ⟨d₀, hd₀, hl₀, ho₀, hs₀⟩ := hback d hd hdl
      exact .inr ⟨d₀, hd₀, hl₀, ho₀.trans hk, by rw [hs₀]; exact ha⟩
  refine ⟨hwf, ?_, ?_, ?_, ?_, ?_⟩
  · intro d hd hdl hne
    obtain ⟨d₀, hd₀, hl₀, ho₀, hs₀⟩ := hback d hd hdl
    rw [htables, ← ho₀, ← hs₀]
    exact h.translated d₀ hd₀ hl₀ (by rw [ho₀, hs₀]; exact hne)
  · intro d hd d' hd' hdl hdl' ho
    obtain ⟨d₀, hd₀, hl₀, ho₀, hs₀⟩ := hback d hd hdl
    obtain ⟨d₁, hd₁, hl₁, ho₁, hs₁⟩ := hback d' hd' hdl'
    rw [← hs₀, ← hs₁]
    exact h.alike d₀ hd₀ d₁ hd₁ hl₀ hl₁ (by rw [ho₀, ho₁]; exact ho)
  · intro k a k' a' hu hu'
    exact h.apart k a k' a' (huses k a hu) (huses k' a' hu')
  · rw [htables]
    exact h.matched
  · rw [htables]
    exact h.reversed

/-- A handler that goes on changes no address in use. -/
theorem Separated.setPhase (h : s.Separated) {i : Nat} {c : Conn} {phase : Phase}
    (hwf : s'.WellFormed) (hget : s.conns[i]? = some c) (hlive : c.Live)
    (htables : s'.proxy.tables = s.proxy.tables)
    (hconns : s'.conns = s.conns.set i { c with phase := phase }) : s'.Separated := by
  refine h.of_conns hwf htables ?_
  intro d hd hdl
  rw [hconns] at hd
  rcases mem_or_eq_of_mem_set hd with hd | rfl
  · exact ⟨d, hd, hdl, rfl, rfl⟩
  · exact ⟨c, mem_of_getElem? hget, hlive, rfl, rfl⟩

/-- The release of the 5-tuple a live connection sees keeps the invariant. -/
theorem Separated.release (h : s.Separated) {c : Conn} (hc : c ∈ s.conns) (hlive : c.Live)
    (hwf : s'.WellFormed)
    (htables : s'.proxy.tables = s.proxy.tables.releaseConnectionState c.seen)
    (hconns : s'.conns = s.conns) : s'.Separated := by
  have hnat : ∀ k e, s'.proxy.tables.natTable k = some e →
      k ≠ c.seen ∧ s.proxy.tables.natTable k = some e := by
    intro k e he
    rw [htables] at he
    exact release_natTable_eq_some_iff.mp he
  have huses : ∀ k a, s'.Uses k a → s.Uses k a := by
    intro k a huse
    rcases huse with ⟨e, he, ha⟩ | hconn
    · exact .inl ⟨e, (hnat k e he).2, ha⟩
    · rw [hconns] at hconn
      exact .inr hconn
  refine ⟨hwf, ?_, ?_, ?_, ?_, ?_⟩
  · intro d hd hdl hne
    rw [hconns] at hd
    obtain ⟨e, he, hto⟩ := h.translated d hd hdl hne
    refine ⟨e, ?_, hto⟩
    have hkey : d.orig ≠ c.seen := by
      intro heq
      by_cases horig : d.orig = c.orig
      · rw [h.alike d hd c hc hdl hlive horig] at hne
        exact hne heq.symm
      · have hapart := h.apart c.orig c.seen.dstIP d.orig d.seen.dstIP
          (.inr ⟨c, hc, hlive, rfl, rfl⟩) (.inr ⟨d, hd, hdl, rfl, rfl⟩)
        have hside : c.orig.side = d.orig.side := by rw [heq, h.side c hc]
        exact (hapart hside (fun h' => horig h'.symm)).2.2 (congrArg dstIP heq).symm
    rw [htables]
    exact release_natTable_eq_some_iff.mpr ⟨hkey, he⟩
  · rw [hconns]
    exact h.alike
  · intro k a k' a' hu hu'
    exact h.apart k a k' a' (huses k a hu) (huses k' a' hu')
  · rw [htables]
    exact h.matched.release
  · intro k e he
    obtain ⟨hk, hk'⟩ := hnat k e he
    have hrev := h.reversed k e hk'
    rw [htables]
    cases hseen : s.proxy.tables.natTable c.seen with
    | none =>
      rw [release_of_none hseen]
      exact hrev
    | some e₀ =>
      rw [release_reverseNatTable hseen]
      have hne : k.reverse e.rewrittenTo ≠ c.seen.reverse e₀.rewrittenTo := by
        intro heq
        obtain ⟨hside, haddr⟩ := reverse_eq_iff.mp heq
        have hapart := h.apart k e.rewrittenTo c.seen e₀.rewrittenTo (.inl ⟨e, hk', rfl⟩)
          (.inl ⟨e₀, hseen, rfl⟩)
        exact (hapart hside hk).1 haddr
      rw [update_of_ne hne]
      exact hrev

variable {rule : SubnetRule} {dns : Resolver} {key : ConnKey}

/-- What is in use after an admitted packet was in use before, or the packet
itself brought it: by the entry it stored or the connection it opened. -/
theorem uses_of_packet {opens : Bool}
    (hafter : s.AfterPacket s' dns opens key rule) {k : ConnKey} {a : Addr}
    (huse : s'.Uses k a) :
    s.Uses k a ∨ (k = key ∧ (s.proxy.tables.fresh (resolveRewriteAddress dns) rule key = some a ∨
      (opens = true ∧ a = (seenKey key (s.proxy.target dns rule key)).dstIP))) := by
  rcases huse with ⟨e, he, ha⟩ | ⟨c, hc, hlive, hk, ha⟩
  · rw [hafter.tables] at he
    rcases record_natTable_eq_some_iff.mp he with hold | ⟨hk, -, hf⟩
    · exact .inl (.inl ⟨e, hold, ha⟩)
    · rw [ha] at hf
      exact .inr ⟨hk, .inl hf⟩
  · rcases hafter.mem_conns_iff.mp hc with hold | ⟨hopen, heq⟩
    · exact .inl (.inr ⟨c, hold, hlive, hk, ha⟩)
    · rw [heq] at hk ha
      exact .inr ⟨hk.symm, .inr ⟨hopen, ha.symm⟩⟩

/-- The connection a packet opens has its NAT entry if it is translated. -/
theorem opened_translated {t : NatTables}
    (h4 : ∀ a ∈ t.target (resolveRewriteAddress dns) rule key, a.isLoopback = false →
      a.is4 = true)
    (hne : seenKey key (t.target (resolveRewriteAddress dns) rule key) ≠ key) :
    ∃ e, (t.record (resolveRewriteAddress dns) rule key).1.natTable key = some e ∧
      e.rewrittenTo = (seenKey key (t.target (resolveRewriteAddress dns) rule key)).dstIP := by
  rcases seenKey_cases key (t.target (resolveRewriteAddress dns) rule key) with
    heq | ⟨newDst, x, htarget, hloop, hx, heq⟩
  · exact absurd heq hne
  · obtain ⟨y, hy⟩ := Addr.is4_iff.mp (h4 newDst htarget hloop)
    have hdst : (seenKey key (t.target (resolveRewriteAddress dns) rule key)).dstIP = newDst := by
      rw [hy, Addr.as4_v4] at hx
      rw [heq, dstIP_withDst, hy, Option.some.inj hx]
    rw [hdst]
    cases hf : t.fresh (resolveRewriteAddress dns) rule key with
    | none =>
      obtain ⟨e, he, hto⟩ := target_of_not_fresh htarget hf
      exact ⟨e, record_natTable_eq_some_iff.mpr (.inl he), hto⟩
    | some a =>
      have ha : a = newDst :=
        Option.some.inj ((target_of_fresh hf).symm.trans htarget)
      exact ⟨⟨key.dstIP, a⟩, record_natTable_eq_some_iff.mpr (.inr ⟨rfl, rfl, hf⟩), ha⟩

/-- The reverse entries after a packet: a new one does not take the place of an old one. -/
theorem Separated.reversed_record (h : s.Separated)
    (hfresh : ∀ a ∈ s.proxy.tables.fresh (resolveRewriteAddress dns) rule key,
      ∀ k' a', s.Uses k' a' → Apart key a k' a') {k : ConnKey} {e : NatState}
    (he : (s.proxy.tables.record (resolveRewriteAddress dns) rule key).1.natTable k = some e) :
    (s.proxy.tables.record (resolveRewriteAddress dns) rule key).1.reverseNatTable
      (k.reverse e.rewrittenTo) = some e := by
  rcases record_natTable_eq_some_iff.mp he with hold | ⟨hk, hdst, hf⟩
  · cases hf : s.proxy.tables.fresh (resolveRewriteAddress dns) rule key with
    | none =>
      rw [(record_of_not_fresh hf).2.1]
      exact h.reversed k e hold
    | some a =>
      have hne : k.reverse e.rewrittenTo ≠ key.reverse a := by
        intro heq
        obtain ⟨hside, haddr⟩ := reverse_eq_iff.mp heq
        have hk : key ≠ k := by
          intro hk
          rw [← hk, (fresh_eq_some_iff.mp hf).2.1] at hold
          cases hold
        have hapart := hfresh a hf k e.rewrittenTo (.inl ⟨e, hold, rfl⟩)
        exact (hapart hside.symm hk).1 haddr.symm
      rw [(record_of_fresh hf).2.1, update_of_ne hne]
      exact h.reversed k e hold
  · rw [hk, (record_of_fresh hf).2.1, update_self, ← hdst]

variable [PrefixTable T]

/-- A packet that keeps apart what it uses. -/
theorem Separated.packet (h : s.Separated) {bytes : ByteString}
    {opens : Bool}
    (hc : s.KeepsApart (.packet dns bytes opens))
    (hadm : s.proxy.Admits bytes key rule) (hwf : s'.WellFormed)
    (hafter : s.AfterPacket s' dns opens key rule) : s'.Separated := by
  obtain ⟨hfresh, hopens⟩ := hc (key, rule) hadm.mem_admission
  have hnew : ∀ a k' a', (s.proxy.tables.fresh (resolveRewriteAddress dns) rule key = some a ∨
      (opens = true ∧ a = (seenKey key (s.proxy.target dns rule key)).dstIP)) →
      s.Uses k' a' → Apart key a k' a' := by
    intro a k' a' ha huse
    rcases ha with ha | ⟨hopen, ha⟩
    · exact hfresh a ha k' a' huse
    · rw [ha]
      exact (hopens hopen).1 k' a' huse
  refine ⟨hwf, ?_, ?_, ?_, ?_, ?_⟩
  · intro c hcm hlive hne
    rw [hafter.tables]
    rcases hafter.mem_conns_iff.mp hcm with hcm | ⟨hopen, heq⟩
    · obtain ⟨e, he, hto⟩ := h.translated c hcm hlive hne
      exact ⟨e, record_natTable_eq_some_iff.mpr (.inl he), hto⟩
    · rw [heq] at hne ⊢
      exact opened_translated (hopens hopen).2.1 hne
  · intro c hcm d hdm hcl hdl ho
    rcases hafter.mem_conns_iff.mp hcm with hcm | ⟨hopen, hceq⟩
    · rcases hafter.mem_conns_iff.mp hdm with hdm | ⟨hopen, hdeq⟩
      · exact h.alike c hcm d hdm hcl hdl ho
      · rw [hdeq] at ho ⊢
        exact (hopens hopen).2.2 c hcm hcl ho
    · rcases hafter.mem_conns_iff.mp hdm with hdm | ⟨-, hdeq⟩
      · rw [hceq] at ho ⊢
        exact ((hopens hopen).2.2 d hdm hdl ho.symm).symm
      · rw [hceq, hdeq]
  · intro k a k' a' hu hu'
    rcases uses_of_packet hafter hu with hu | ⟨hk, ha⟩
    · rcases uses_of_packet hafter hu' with hu' | ⟨hk', ha'⟩
      · exact h.apart k a k' a' hu hu'
      · rw [hk']
        exact (hnew a' k a ha' hu).symm
    · rcases uses_of_packet hafter hu' with hu' | ⟨hk', ha'⟩
      · rw [hk]
        exact hnew a k' a' ha hu'
      · rw [hk, hk']
        exact apart_self key a a'
  · rw [hafter.tables]
    exact h.matched.record
  · intro k e he
    rw [hafter.tables] at he ⊢
    exact h.reversed_record hfresh he

/-- **One step keeps the invariant** when it meets the condition. -/
theorem Separated.step (h : s.Separated) (hc : s.KeepsApart e) (hs : s.step e = some s') :
    s'.Separated := by
  have hwf : s'.WellFormed := h.toWellFormed.step hs
  cases (stepCase h.enabled hs).2 with
  | quiet htables hconns =>
    refine h.of_conns hwf htables ?_
    rw [hconns]
    exact fun d hd hdl => ⟨d, hd, hdl, rfl, rfl⟩
  | packet dns bytes opens key rule he hadm _ hafter =>
    subst he
    exact h.packet hc hadm hwf hafter
  | serve i c _ hget hpending phase _ htables hconns =>
    have hlive : c.Live := fun hret => (nomatch hpending.symm.trans hret)
    exact h.setPhase hwf hget hlive htables hconns
  | release i c hget hwas htables hconns =>
    have hlive : c.Live := by
      intro hret
      rcases hwas with hp | ⟨a, r, hp⟩ <;> cases hp.symm.trans hret
    have hreleased : ({ proxy := s'.proxy, conns := s.conns } : Sys T).Separated :=
      h.release (mem_of_getElem? hget) hlive
        ⟨hwf.enabled, h.tracked, h.dst4, h.side⟩ htables rfl
    exact hreleased.setPhase hwf hget hlive rfl hconns
  | httpDone i c hget hwas htables hconns =>
    obtain ⟨rule, hp⟩ := hwas
    have hlive : c.Live := fun hret => (nomatch hp.symm.trans hret)
    exact h.setPhase hwf hget hlive htables hconns

/-- **Translation is injective and kept.**  In every run from a proxy with empty
tables in which every step meets the condition: live connections with distinct
original 5-tuples are seen as distinct; every reply of a live connection leaves
with its original destination as source; and the start or the end of a handler
changes the reply translation of no other live connection. -/
theorem translation_injective_and_kept {s₀ s : Sys T} {es : List Event} (hinit : s₀.Initial)
    (hmeets : Runs.Meets step KeepsApart s₀ es) (hrun : Runs.run step s₀ es = some s) :
    (∀ c ∈ s.conns, ∀ d ∈ s.conns, c.Live → d.Live → c.orig ≠ d.orig → c.seen ≠ d.seen) ∧
      (∀ c ∈ s.conns, c.Live → ∀ b, flow b = some c.seen.reply → s.proxy.icmpReplies = [] →
        ∃ out, s.proxy.readOutgoingPacket (some b) = .ok (s.proxy, some out) ∧
          c.orig.dstIP = .v4 (src out)) ∧
      ∀ i s', s.step (.start i) = some s' ∨ s.step (.finish i) = some s' →
        ∀ c ∈ s.conns, c ∈ s'.conns → c.Live →
          s'.proxy.tables.replySource c.seen = s.proxy.tables.replySource c.seen := by
  have hinv : s.Separated :=
    Runs.run_invariant (fun h hcond hs => h.step hcond hs) (separated_initial hinit) hmeets hrun
  refine ⟨?_, ?_, ?_⟩
  · intro c hc d hd hcl hdl hne
    exact hinv.seen_ne hc hd hcl hdl hne
  · intro c hc hlive b hflow hicmp
    obtain ⟨y, hy⟩ := hinv.dst4 c hc
    have hproto : c.seen.proto ≠ icmpProto := by
      have hside : c.seen.proto = c.orig.proto :=
        congrArg (fun side => side.2.2.2) (hinv.side c hc)
      rw [hside]
      rcases hinv.tracked c hc with hp | hp <;> rw [hp] <;> decide
    have hsource := hinv.replySource_eq hc hlive
    rw [hy] at hsource
    obtain ⟨out, hout, hsrc⟩ :=
      readOutgoingPacket_reply hinv.enabled hicmp hproto hflow hsource
    exact ⟨out, hout, by rw [hy, hsrc]⟩
  · intro i s' hs c hc hc' hlive
    have hinv' : s'.Separated := by
      rcases hs with hs | hs
      · exact hinv.step (e := .start i) trivial hs
      · exact hinv.step (e := .finish i) trivial hs
    rw [hinv'.replySource_eq hc' hlive, hinv.replySource_eq hc hlive]

/-- A connection from 10.0.0.1:1000 to port 80 of the given address opens. -/
def opensTo (dstAddr : BitVec 32) : Event :=
  .packet (fun _ => none) (tcpSegment 0x0A000001 dstAddr 1000 80) true

/-- Two rewritten connections of one client port that are served. -/
def twoConns : List Event :=
  [.changeRules (.add (hostRule 0x0A000005 "192.168.1.10/32")),
    .changeRules (.add (hostRule 0x0A000006 "192.168.1.11/32")),
    opensTo 0x0A000005, opensTo 0x0A000006, .start 0, .start 1]

/-- The 5-tuple of such a connection. -/
def keyTo (dstAddr : BitVec 32) : ConnKey :=
  { srcIP := .v4 0x0A000001, srcPort := 1000, dstIP := .v4 dstAddr, dstPort := 80,
    proto := tcpProto }

/-- The condition holds for them: the second connection is apart from the first. -/
theorem twoConns_keepApart : Runs.Meets step KeepsApart (fresh : Sys ListTable) twoConns := by
  refine ⟨trivial, fun s₁ hs₁ => ⟨trivial, fun s₂ hs₂ => ?_⟩⟩
  have hinit : s₂.Initial := by
    cases hs₁
    cases hs₂
    exact ⟨rfl, rfl, rfl⟩
  refine ⟨?_, fun s₃ hs₃ => ⟨?_, fun _ _ => ⟨trivial, fun _ _ => ⟨trivial, fun _ _ => trivial⟩⟩⟩⟩
  · intro kr hkr
    refine ⟨fun a _ k' a' huse => absurd huse (hinit.not_uses k' a'), fun _ =>
      ⟨fun k' a' huse => absurd huse (hinit.not_uses k' a'), ?_, ?_⟩⟩
    · cases hs₁
      cases hs₂
      cases hkr
      decide
    · exact fun c hc => absurd hc (hinit.not_mem c)
  · have hafter : s₂.AfterPacket s₃ (fun _ => none) true (keyTo 0x0A000005)
        (hostRule 0x0A000005 "192.168.1.10/32") := by
      cases hs₁
      cases hs₂
      cases hs₃
      exact ⟨rfl, fun _ => by decide, rfl⟩
    have hapart : ∀ k a, s₃.Uses k a → Apart (keyTo 0x0A000006) (.v4 0xC0A8010B) k a := by
      intro k a huse
      obtain ⟨rfl, hnew⟩ := (uses_of_packet hafter huse).resolve_left (hinit.not_uses k a)
      obtain rfl : a = .v4 0xC0A8010A := by
        cases hs₁
        cases hs₂
        rcases hnew with hfresh | ⟨-, rfl⟩
        · cases hfresh
          rfl
        · rfl
      decide
    cases hs₁
    cases hs₂
    cases hs₃
    intro kr hkr
    cases hkr
    refine ⟨fun a ha k' a' huse => ?_, fun _ => ⟨hapart, by decide, ?_⟩⟩
    · cases ha
      exact hapart k' a' huse
    · unfold Conn.Live
      decide

/-- Two connections to two rewritten destinations are told apart.  When the handler of the
first returns, replies of the second still come from its original destination. -/
theorem two_conns_translated :
    ∃ s s' : Sys ListTable, Runs.run step fresh twoConns = some s ∧
      s.step (.finish 0) = some s' ∧
      ∃ c ∈ s.conns, ∃ d ∈ s.conns, c.orig ≠ d.orig ∧ c.seen ≠ d.seen ∧ d ∈ s'.conns ∧ d.Live ∧
        s'.proxy.tables.replySource d.seen = s.proxy.tables.replySource d.seen ∧
        ∃ out, s.proxy.readOutgoingPacket (some (tcpSegment 0xC0A8010B 0x0A000001 80 1000)) =
          .ok (s.proxy, some out) ∧ Addr.v4 0x0A000006 = .v4 (src out) := by
  obtain ⟨hapart, hreply, hkept⟩ :=
    translation_injective_and_kept initial_fresh twoConns_keepApart rfl
  refine ⟨_, _, rfl, rfl, _, mem_cons_self, _, mem_cons_of_mem _ mem_cons_self,
    by decide, ?_, mem_cons_of_mem _ mem_cons_self, Phase.noConfusion, ?_, ?_⟩
  · exact hapart _ mem_cons_self _ (mem_cons_of_mem _ mem_cons_self)
      Phase.noConfusion Phase.noConfusion (by decide)
  · exact hkept 0 _ (.inr rfl) _ (mem_cons_of_mem _ mem_cons_self)
      (mem_cons_of_mem _ mem_cons_self) Phase.noConfusion
  · exact hreply _ (mem_cons_of_mem _ mem_cons_self) Phase.noConfusion
      (tcpSegment 0xC0A8010B 0x0A000001 80 1000) (by decide) rfl

/-- **Ending one connection breaks another.**  10.0.0.5 is rewritten to
192.168.1.10, and 192.168.1.10 to 192.168.1.20.  A client has a connection to
each, from the same port; the stack sees them as different.  When the handler
of the first returns, it releases the 5-tuple to 192.168.1.10, which is the
original 5-tuple of the second.  Replies of the second, until then sent from
192.168.1.10, leave with the source 192.168.1.20. -/
theorem ending_conn_breaks_another :
    ∃ s s' : Sys ListTable,
      Runs.run step fresh [.changeRules (.add (hostRule 0x0A000005 "192.168.1.10/32")),
        .changeRules (.add (hostRule 0xC0A8010A "192.168.1.20/32")),
        opensTo 0x0A000005, opensTo 0xC0A8010A, .start 0, .start 1] = some s ∧
      s.step (.finish 0) = some s' ∧
      (∃ c ∈ s.conns, c ∈ s'.conns ∧ c.phase = .raw (.v4 0xC0A80114) 0 ∧
        c.orig.dstIP = .v4 0xC0A8010A ∧ c.seen.dstIP = .v4 0xC0A80114 ∧
        flow (tcpSegment 0xC0A80114 0x0A000001 80 1000) = some c.seen.reply) ∧
      (s.conns.map Conn.seen).Nodup ∧
      (∃ out, s.proxy.readOutgoingPacket (some (tcpSegment 0xC0A80114 0x0A000001 80 1000)) =
        .ok (s.proxy, some out) ∧ src out = 0xC0A8010A) ∧
      ∃ out, s'.proxy.readOutgoingPacket (some (tcpSegment 0xC0A80114 0x0A000001 80 1000)) =
        .ok (s'.proxy, some out) ∧ src out = 0xC0A80114 := by
  have hflow : flow (tcpSegment 0xC0A80114 0x0A000001 80 1000) =
      some (keyTo 0xC0A80114).reply := by decide
  refine ⟨_, _, rfl, rfl, by decide +kernel, by decide +kernel, ?_, ?_⟩
  · exact readOutgoingPacket_reply rfl rfl (by decide) hflow (by decide +kernel)
  · exact readOutgoingPacket_reply rfl rfl (by decide) hflow (by decide +kernel)

end Sys

end Newt
