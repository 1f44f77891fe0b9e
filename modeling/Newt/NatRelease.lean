import Newt.Lib.Tasks
import Newt.ProxyRun

/-!
# What a returned handler leaves in the NAT tables

`releaseConnectionState` is called with the 5-tuple the handler sees, but the
NAT entry was stored under the client's original one.  The two agree only for a
packet that is not really rewritten.  The TCP handler also returns without any
release when connections are blocked and when the HTTP handler takes over, and
a packet that arrives after the release stores the entry again.

`ReleasesWhatItStores` is the condition on a step under which none of this
happens; `returned_conn_has_no_nat_state` is the resulting property of whole
runs, and `stale_nat_entry_after_return` a run of the code that breaks it.
-/

namespace Newt

open ProxyHandler

open Netip Bytes IPv4Packet

/-- The handler of the connection will run the deferred release, or is running
and has it deferred. -/
def Conn.WillRelease (c : Conn) : Prop :=
  match c.phase with
  | .pending | .raw _ _ => True
  | _ => False

instance (c : Conn) : Decidable c.WillRelease := by
  unfold Conn.WillRelease
  split <;> infer_instance

variable {T : Type → Type} [PrefixTable T]

namespace Sys

/-- The condition on a step:

* a TCP or UDP packet that gets a NAT entry is not really rewritten (its target
  is a loopback address or its own destination), and it opens a connection or
  belongs to one whose handler will release the entry;
* a TCP handler that starts while there is an entry for its connection is
  neither blocked nor handed to the HTTP handler. -/
def ReleasesWhatItStores (s : Sys T) : Event → Prop
  | .packet dns bytes opens =>
    ∀ kr ∈ s.proxy.admission bytes, kr.1.Tracked →
      ∀ newDst ∈ s.proxy.target dns kr.2 kr.1,
        (newDst.isLoopback = true ∨ newDst.unmap = kr.1.dstIP) ∧
          (opens = true ∨ ∃ c ∈ s.conns, c.orig = kr.1 ∧ c.WillRelease)
  | .start i =>
    ∀ c ∈ s.conns[i]?, s.proxy.tables.natTable c.orig ≠ none → c.seen.proto = tcpProto →
      s.proxy.blocked = false ∧ s.proxy.httpRoute c.seen = none
  | _ => True

instance (s : Sys T) (e : Event) : Decidable (s.ReleasesWhatItStores e) := by
  unfold ReleasesWhatItStores
  split <;> infer_instance

/-- The invariant: handlers see the original 5-tuples, every NAT entry of a TCP
or UDP connection has an owner that will release it, and every reverse entry
belongs to a NAT entry. -/
structure EntriesOwned (s : Sys T) : Prop extends s.WellFormed where
  seen_eq : ∀ c ∈ s.conns, c.seen = c.orig
  owned : ∀ k e, k.Tracked → s.proxy.tables.natTable k = some e →
    ∃ c ∈ s.conns, c.orig = k ∧ c.WillRelease
  matched : s.proxy.tables.ReverseMatched

variable {s s' : Sys T} {e : Event}

omit [PrefixTable T] in
theorem entriesOwned_initial (h : s.Initial) : s.EntriesOwned := by
  refine ⟨wellFormed_initial h, fun c hc => absurd hc (h.not_mem c), ?_, ?_⟩
  · intro k e _ he
    rw [h.tables] at he
    cases he
  · rw [h.tables]
    exact NatTables.reverseMatched_empty

/-- A target that is a loopback address or the destination itself leaves the
5-tuple as it is. -/
theorem seenKey_eq_of_kept {key : ConnKey} {target : Option Addr}
    (h : ∀ newDst ∈ target, newDst.isLoopback = true ∨ newDst.unmap = key.dstIP) :
    seenKey key target = key := by
  rcases seenKey_cases key target with heq | ⟨newDst, x, ht, hloop, hx, heq⟩
  · exact heq
  · rcases h newDst ht with hl | hd
    · rw [hloop] at hl
      cases hl
    · rw [heq, ← Addr.as4_eq_some_iff.mp hx, hd]
      exact ConnKey.withDst_dstIP key

theorem willRelease_of_raw {c : Conn} {phase : Phase} (hraw : ∃ a r, phase = .raw a r) :
    ({ c with phase := phase } : Conn).WillRelease := by
  obtain ⟨a, r, hp⟩ := hraw
  rw [hp]
  exact trivial

theorem EntriesOwned.packet (h : s.EntriesOwned) {dns : Resolver} {bytes : ByteString}
    {opens : Bool} {key : ConnKey} {rule : SubnetRule}
    (hc : s.ReleasesWhatItStores (.packet dns bytes opens))
    (hadm : s.proxy.Admits bytes key rule) (hwf : s'.WellFormed)
    (hafter : s.AfterPacket s' dns opens key rule) : s'.EntriesOwned := by
  have hcond : key.Tracked → ∀ newDst ∈ s.proxy.target dns rule key,
      (newDst.isLoopback = true ∨ newDst.unmap = key.dstIP) ∧
        (opens = true ∨ ∃ c ∈ s.conns, c.orig = key ∧ c.WillRelease) :=
    hc (key, rule) hadm.mem_admission
  refine ⟨hwf, ?_, ?_, ?_⟩
  · refine hafter.forall_conns h.seen_eq ?_
    intro hopen
    exact seenKey_eq_of_kept (fun newDst ht => (hcond (hafter.tracked hopen) newDst ht).1)
  · intro k e htracked he
    rw [hafter.tables] at he
    -- The owner of the entry was there already, or is the connection that opens.
    have howner : (∃ c ∈ s.conns, c.orig = k ∧ c.WillRelease) ∨ (opens = true ∧ k = key) := by
      rcases NatTables.record_natTable_eq_some_iff.mp he with hold | ⟨hk, -, hf⟩
      · exact .inl (h.owned k e htracked hold)
      · subst hk
        rcases (hcond htracked _ (NatTables.target_of_fresh hf)).2 with hopen | howned
        · exact .inr ⟨hopen, rfl⟩
        · exact .inl howned
    rcases howner with ⟨c, hmem, hrest⟩ | ⟨hopen, hk⟩
    · exact ⟨c, hafter.mem_conns_iff.mpr (.inl hmem), hrest⟩
    · exact ⟨_, hafter.mem_conns_iff.mpr (.inr ⟨hopen, rfl⟩), hk.symm, trivial⟩
  · rw [hafter.tables]
    exact h.matched.record

omit [PrefixTable T] in
/-- A connection changes its phase.  Every entry that is left has another owner, or
this one in its new phase. -/
theorem EntriesOwned.setPhase (h : s.EntriesOwned) {i : Nat} {c : Conn} {phase : Phase}
    (hwf : s'.WellFormed) (hget : s.conns[i]? = some c)
    (hconns : s'.conns = s.conns.set i { c with phase := phase })
    (hmatched : s'.proxy.tables.ReverseMatched)
    (howned : ∀ k e, k.Tracked → s'.proxy.tables.natTable k = some e →
      (∃ d ∈ s.conns, d ≠ c ∧ d.orig = k ∧ d.WillRelease) ∨
        (c.orig = k ∧ ({ c with phase := phase } : Conn).WillRelease)) : s'.EntriesOwned := by
  refine ⟨hwf, ?_, ?_, hmatched⟩
  · rw [hconns]
    exact Conn.forall_set_phase (fun _ _ hd => hd) hget h.seen_eq
  · intro k e htracked hk
    rw [hconns]
    rcases howned k e htracked hk with ⟨d, hd, hdc, horig, hwill⟩ | ⟨horig, hwill⟩
    · exact ⟨d, (Tasks.mem_set_of_mem hget hd).resolve_left hdc, horig, hwill⟩
    · exact ⟨_, List.mem_set (List.getElem?_eq_some_iff.mp hget).1 _, horig, hwill⟩

/-- **One step keeps the invariant** when it meets the condition. -/
theorem EntriesOwned.step (h : s.EntriesOwned) (hc : s.ReleasesWhatItStores e)
    (hs : s.step e = some s') : s'.EntriesOwned := by
  have hwf : s'.WellFormed := h.toWellFormed.step hs
  cases (stepCase h.enabled hs).2 with
  | quiet htables hconns =>
    refine ⟨hwf, ?_, ?_, ?_⟩
    · rw [hconns]
      exact h.seen_eq
    · rw [htables, hconns]
      exact h.owned
    · rw [htables]
      exact h.matched
  | packet dns bytes opens key rule he hadm _ hafter =>
    subst he
    exact h.packet hc hadm hwf hafter
  | serve i c he hget hpending phase hphase htables hconns =>
    subst he
    refine h.setPhase hwf hget hconns (htables ▸ h.matched) ?_
    intro k e htracked hk
    rw [htables] at hk
    obtain ⟨d, hd, horig, hwill⟩ := h.owned k e htracked hk
    by_cases hdc : d = c
    · -- The owner itself starts, so it must have gone on to raw forwarding.
      subst hdc
      refine .inr ⟨horig, ?_⟩
      have hentry : s.proxy.tables.natTable d.orig ≠ none := by
        rw [horig, hk]
        exact Option.some_ne_none e
      have hstart := hc d hget hentry
      rcases hphase with ⟨rule, ho, -⟩ | hp | ⟨ho, htcp, -⟩
      · exfalso
        unfold handleConn at ho
        by_cases htcp : d.seen.proto = tcpProto
        · obtain ⟨hb, hr⟩ := hstart htcp
          simp [htcp, handleTCPConn, hb, hr] at ho
        · cases hb : s.proxy.blocked <;>
            simp [htcp, handleUDPConn, hb] at ho
      · exact willRelease_of_raw ⟨_, _, hp⟩
      · exfalso
        obtain ⟨hb, hr⟩ := hstart htcp
        simp [handleConn, htcp, handleTCPConn, hb, hr] at ho
    · exact .inl ⟨d, hd, hdc, horig, hwill⟩
  | release i c hget _ htables hconns =>
    refine h.setPhase hwf hget hconns (htables ▸ h.matched.release) ?_
    intro k e htracked hk
    rw [htables, h.seen_eq c (List.mem_of_getElem? hget)] at hk
    obtain ⟨hkc, hk⟩ := NatTables.release_natTable_eq_some_iff.mp hk
    obtain ⟨d, hd, horig, hwill⟩ := h.owned k e htracked hk
    have hdc : d ≠ c := by
      intro heq
      rw [heq] at horig
      exact hkc horig.symm
    exact .inl ⟨d, hd, hdc, horig, hwill⟩
  | httpDone i c hget hwas htables hconns =>
    refine h.setPhase hwf hget hconns (htables ▸ h.matched) ?_
    intro k e htracked hk
    rw [htables] at hk
    obtain ⟨d, hd, horig, hwill⟩ := h.owned k e htracked hk
    have hdc : d ≠ c := by
      intro heq
      obtain ⟨rule, hp⟩ := hwas
      rw [heq, Conn.WillRelease, hp] at hwill
      exact hwill
    exact .inl ⟨d, hd, hdc, horig, hwill⟩

/-- **A returned connection leaves no NAT state.**  In every run from a proxy
with empty tables in which every step meets the condition, when the handlers of
a 5-tuple have all returned, neither table holds an entry for it, and the next
connection on it resolves the `RewriteTo` of the rule that is then current. -/
theorem returned_conn_has_no_nat_state {s₀ s : Sys T} {es : List Event} (hinit : s₀.Initial)
    (hmeets : Runs.Meets step ReleasesWhatItStores s₀ es) (hrun : Runs.run step s₀ es = some s)
    {c : Conn} (hc : c ∈ s.conns)
    (hreturned : ∀ d ∈ s.conns, d.orig = c.orig → d.phase = .returned) :
    s.proxy.tables.natTable c.orig = none ∧
      (∀ a e, s.proxy.tables.reverseNatTable (c.orig.reverse a) = some e →
        e.originalDst ≠ c.orig.dstIP) ∧
      ∀ dns rule, rule.rewriteTo ≠ "" →
        s.proxy.target dns rule c.orig = resolveRewriteAddress dns rule.rewriteTo := by
  have hinv : s.EntriesOwned :=
    Runs.run_invariant (fun h hcond hs => h.step hcond hs) (entriesOwned_initial hinit) hmeets hrun
  have hnone : s.proxy.tables.natTable c.orig = none := by
    cases he : s.proxy.tables.natTable c.orig with
    | none => rfl
    | some e =>
      obtain ⟨d, hd, horig, hwill⟩ := hinv.owned c.orig e (hinv.tracked c hc) he
      rw [Conn.WillRelease, hreturned d hd horig] at hwill
      exact hwill.elim
  refine ⟨hnone, ?_, ?_⟩
  · intro a e he hdst
    obtain ⟨k, hk, hkdst, hnat⟩ := hinv.matched _ e he
    have hkc : k = c.orig :=
      ConnKey.eq_iff.mpr ⟨(ConnKey.reverse_eq_iff.mp hk).1.symm, hkdst.trans hdst⟩
    rw [hkc, hnone] at hnat
    cases hnat
  · intro dns rule hr
    simp [target, NatTables.target, hr, hnone]

/-- A connection from 10.0.0.1:1000 to 10.0.0.5:80 that opens, is served and
returns, under a rule with the given `RewriteTo`. -/
def servedOnce (rewriteTo : String) : List Event :=
  [.changeRules (.add (hostRule 0x0A000005 rewriteTo)),
   .packet (fun _ => none) (tcpSegment 0x0A000001 0x0A000005 1000 80) true,
   .start 0, .finish 0]

def servedKey : ConnKey :=
  { srcIP := .v4 0x0A000001, srcPort := 1000, dstIP := .v4 0x0A000005, dstPort := 80,
    proto := tcpProto }

/-- With a loopback `RewriteTo` every step of the run meets the condition. -/
theorem loopback_conn_released :
    ∃ s : Sys ListTable, Runs.run step fresh (servedOnce "127.0.0.1") = some s ∧
      s.conns.map Conn.phase = [.returned] ∧ s.proxy.tables.natTable servedKey = none := by
  have hmeets : Runs.Meets step ReleasesWhatItStores (fresh : Sys ListTable)
      (servedOnce "127.0.0.1") := by decide
  have hconns : (Runs.run step (fresh : Sys ListTable) (servedOnce "127.0.0.1")).map conns =
      some [⟨servedKey, servedKey, hostRule 0x0A000005 "127.0.0.1", some (.v4 0x7F000001),
        .returned⟩] := by decide
  obtain ⟨s, hrun, hconns⟩ := Option.map_eq_some_iff.mp hconns
  refine ⟨s, hrun, by rw [hconns]; rfl, ?_⟩
  have hfree := returned_conn_has_no_nat_state initial_fresh hmeets hrun
    (c := ⟨servedKey, servedKey, hostRule 0x0A000005 "127.0.0.1", some (.v4 0x7F000001),
      .returned⟩) (by rw [hconns]; exact List.mem_singleton_self _) (by rw [hconns]; decide)
  exact hfree.1

/-- **A stale entry after the handler has returned.**  The rule rewrites to
192.168.1.10; the connection opens, is served and returns.  Its entries are
still in both tables, and once the rule rewrites to 192.168.1.20 the next
connection on the 5-tuple still goes to 192.168.1.10. -/
theorem stale_nat_entry_after_return :
    ∃ s : Sys ListTable,
      Runs.run step fresh (servedOnce "192.168.1.10/32" ++
        [.changeRules (.add (hostRule 0x0A000005 "192.168.1.20/32"))]) = some s ∧
      s.conns.map Conn.phase = [.returned] ∧
      s.proxy.tables.natTable servedKey = some ⟨.v4 0x0A000005, .v4 0xC0A8010A⟩ ∧
      s.proxy.tables.reverseNatTable (servedKey.reverse (.v4 0xC0A8010A)) =
        some ⟨.v4 0x0A000005, .v4 0xC0A8010A⟩ ∧
      s.proxy.ruleFor servedKey = some (hostRule 0x0A000005 "192.168.1.20/32") ∧
      s.proxy.target (fun _ => none) (hostRule 0x0A000005 "192.168.1.20/32") servedKey =
        some (.v4 0xC0A8010A) := by
  refine ⟨_, rfl, ?_⟩
  decide

end Sys

end Newt
