import Newt.ProxyRun

/-!
# What a handler finds when it starts

A handler that forwards a connection itself asks the tables for the address to
dial and for the resource ID, under the 5-tuple it sees and without the source
port (`NatTables.served`).  `Serves Good` says that what it finds, or has
found, is `Good` for its connection.

Only packets store into these two tables, so `Serves.step` leaves two things to
show of a packet that meets a condition: what it stores stays good for the
connections whose handlers have not started, and it is good for the connection
the packet opens.  `serves_of_run` is the result for whole runs.
-/

namespace Newt

open Netip Bytes IPv4Packet

/-- The address to dial and the resource ID for a connection a handler sees. -/
def NatTables.served (t : NatTables) (id : ConnKey) : Addr × Int :=
  ((t.destRewriteTable id.dest).getD id.dstIP, t.lookupResourceId id.dest)

theorem NatTables.served_release (t : NatTables) (key id : ConnKey) :
    (t.releaseConnectionState key).served id = t.served id := by
  simp only [served, lookupResourceId, release_handlerTables]

variable {T : Type → Type}

theorem ProxyHandler.served_eq {p : ProxyHandler T} (hen : p.enabled = true) (id : ConnKey) :
    (p.actualDstIP id, p.lookupResourceId id.dest) = p.tables.served id := by
  simp [NatTables.served, actualDstIP, lookupDestinationRewrite, lookupResourceId, hen,
    NatTables.lookupDestinationRewrite]

namespace Sys

/-- A handler that is about to start would find what is good for its
connection, and one that is serving has found it. -/
structure Serves (Good : Conn → Addr × Int → Prop) (s : Sys T) : Prop extends s.WellFormed where
  pending : ∀ c ∈ s.conns, c.phase = .pending → Good c (s.proxy.tables.served c.seen)
  raw : ∀ c ∈ s.conns, ∀ a r, c.phase = .raw a r → Good c (a, r)

variable {Good : Conn → Addr × Int → Prop} {s s' : Sys T} {e : Event}

theorem serves_initial (h : s.Initial) : s.Serves Good :=
  ⟨wellFormed_initial h, fun c hc => absurd hc (h.not_mem c), fun c hc => absurd hc (h.not_mem c)⟩

/-- A step that leaves what is found alone and changes the phase of one
connection keeps the invariant, if that phase has found what is good. -/
theorem Serves.setPhase (h : s.Serves Good)
    (hGood : ∀ c phase x, Good c x → Good { c with phase := phase } x) {i : Nat} {c : Conn}
    {phase : Phase} (hwf : s'.WellFormed)
    (hserved : ∀ id, s'.proxy.tables.served id = s.proxy.tables.served id)
    (hconns : s'.conns = s.conns.set i { c with phase := phase })
    (hpending : phase ≠ .pending) (hraw : ∀ a r, phase = .raw a r → Good c (a, r)) :
    s'.Serves Good := by
  refine ⟨hwf, ?_, ?_⟩
  · intro d hd hp
    rw [hconns] at hd
    rcases List.mem_or_eq_of_mem_set hd with hd | hd
    · rw [hserved]
      exact h.pending d hd hp
    · rw [hd] at hp
      exact absurd hp hpending
  · intro d hd a r hp
    rw [hconns] at hd
    rcases List.mem_or_eq_of_mem_set hd with hd | hd
    · exact h.raw d hd a r hp
    · rw [hd] at hp ⊢
      exact hGood c phase (a, r) (hraw a r hp)

/-- What a packet must do to keep `Good`, in terms of the tables before it. -/
structure PacketGood (Good : Conn → Addr × Int → Prop) (s : Sys T) (dns : Resolver)
    (opens : Bool) (rule : SubnetRule) (key : ConnKey) : Prop where
  kept : ∀ c ∈ s.conns, c.phase = .pending → Good c (s.proxy.tables.served c.seen) →
    Good c ((s.proxy.tables.record (resolveRewriteAddress dns) rule key).1.served c.seen)
  opened : opens = true →
    let seen := seenKey key (s.proxy.target dns rule key)
    Good (Conn.opened dns rule key seen)
      ((s.proxy.tables.record (resolveRewriteAddress dns) rule key).1.served seen)

variable [PrefixTable T]

/-- **One step keeps the invariant** when every packet does what it must. -/
theorem Serves.step (h : s.Serves Good)
    (hGood : ∀ c phase x, Good c x → Good { c with phase := phase } x)
    (hpacket : ∀ dns bytes opens key rule, e = .packet dns bytes opens →
      s.proxy.Admits bytes key rule → s.PacketGood Good dns opens rule key)
    (hs : s.step e = some s') : s'.Serves Good := by
  have hwf : s'.WellFormed := h.toWellFormed.step hs
  cases (stepCase h.enabled hs).2 with
  | quiet htables hconns =>
    refine ⟨hwf, ?_, ?_⟩
    · rw [htables, hconns]
      exact h.pending
    · rw [hconns]
      exact h.raw
  | packet dns bytes opens key rule he hadm _ hafter =>
    obtain ⟨hkept, hopened⟩ := hpacket dns bytes opens key rule he hadm
    refine ⟨hwf, ?_, ?_⟩
    · rw [hafter.tables]
      refine hafter.forall_conns ?_ (fun hopen _ => hopened hopen)
      intro c hc hp
      exact hkept c hc hp (h.pending c hc hp)
    · refine hafter.forall_conns h.raw ?_
      intro _ a r hp
      cases hp
  | serve i c _ hget hpending phase hphase htables hconns =>
    have hfound := h.pending c (List.mem_of_getElem? hget) hpending
    rw [← ProxyHandler.served_eq h.enabled] at hfound
    refine h.setPhase hGood hwf (fun id => by rw [htables]) hconns ?_ ?_
    · rcases hphase with ⟨rule, -, hp⟩ | hp | ⟨-, -, hp⟩ <;> rw [hp] <;> exact Phase.noConfusion
    · intro a r hp
      rcases hphase with ⟨rule, -, hp'⟩ | hp' | ⟨-, -, hp'⟩
      · rw [hp'] at hp
        cases hp
      · rw [hp'] at hp
        cases hp
        exact hfound
      · rw [hp'] at hp
        cases hp
  | release i c hget _ htables hconns =>
    refine h.setPhase hGood hwf (fun id => by rw [htables, NatTables.served_release]) hconns
      Phase.noConfusion ?_
    intro a r hp
    cases hp
  | httpDone i c hget _ htables hconns =>
    refine h.setPhase hGood hwf (fun id => by rw [htables]) hconns Phase.noConfusion ?_
    intro a r hp
    cases hp

/-- **Whole runs**: under a condition that makes every packet do what it must,
a connection that is served has found what is good for it. -/
theorem serves_of_run {C : Sys T → Event → Prop}
    (hGood : ∀ c phase x, Good c x → Good { c with phase := phase } x)
    (hpacket : ∀ {s : Sys T} {dns bytes opens key rule}, C s (.packet dns bytes opens) →
      s.proxy.Admits bytes key rule → s.PacketGood Good dns opens rule key)
    {s₀ : Sys T} {es : List Event} (hinit : s₀.Initial) (hmeets : Runs.Meets step C s₀ es)
    (hrun : Runs.run step s₀ es = some s) : s.Serves Good := by
  refine Runs.run_invariant ?_ (serves_initial hinit) hmeets hrun
  intro s s' e h hcond hs
  refine h.step hGood ?_ hs
  intro dns bytes opens key rule he hadm
  subst he
  exact hpacket hcond hadm

end Sys

end Newt
