import Newt.Lib.Runs
import Newt.ProxyManager

/-!
# Listeners and targets of the proxy manager

While the manager runs its listeners should be the entries of its table, and
while it does not run there should be none.  The table is written before the
listen that may fail, `RemoveTarget` looks for a listener by its port alone, and
`Start` returns from the middle of its loops.

Main results: `listeners_match_targets`, for runs in which no listen fails after
something was changed and no two IPs share a port that is removed, and
`failed_start_leaves_listeners`.
-/

namespace Newt.Proxy

open List Targets

/-- The listeners of a side are in one-to-one correspondence with the entries of
its table: entries are told apart by their port, and so are listeners. -/
structure Side.Matches (s : Side) : Prop where
  /-- Each listener forwards to the address its entry records. -/
  forwards : ∀ l ∈ s.listeners, ∃ ip, s.targets.entry ip l.port = some l.targetAddr
  opened : ∀ {ip port addr}, s.targets.entry ip port = some addr →
    ({ port := port, targetAddr := addr } : Listener) ∈ s.listeners
  ports : (s.listeners.map Listener.port).Nodup
  single : ∀ {ip ip' port addr addr'}, s.targets.entry ip port = some addr →
    s.targets.entry ip' port = some addr' → ip = ip'

/-- The ports a listener can be asked for by number. -/
def ValidPort (port : Int) : Prop :=
  1 ≤ port ∧ port ≤ 65535
  deriving Decidable

/-- The listener that a visit of `Start` opens. -/
def Visit.listener (v : Visit) : Listener :=
  { port := v.port, targetAddr := v.targetAddr }

namespace Side

variable {s : Side} {listenIP : String} {port : Int} {addr : String}

/-- A new target whose listener could be opened. -/
theorem Matches.add (h : s.Matches) (hport : port ∉ s.listeners.map Listener.port) :
    Matches { targets := s.targets.add listenIP port addr
              listeners := s.listeners ++ [{ port := port, targetAddr := addr }] } := by
  have hnone : ∀ {ip a}, s.targets.entry ip port ≠ some a := by
    intro ip a hentry
    exact hport (mem_map.mpr ⟨_, h.opened hentry, rfl⟩)
  refine ⟨?_, ?_, ?_, ?_⟩
  · intro l hl
    rcases mem_append.mp hl with hold | hnew
    · obtain ⟨ip, hip⟩ := h.forwards l hold
      refine ⟨ip, ?_⟩
      rw [entry_add, if_neg ?_]
      · exact hip
      · intro heq
        exact hport (heq.2 ▸ mem_map.mpr ⟨l, hold, rfl⟩)
    · rw [mem_singleton.mp hnew]
      exact ⟨listenIP, by rw [entry_add, if_pos ⟨rfl, rfl⟩]⟩
  · intro ip p a hentry
    rw [entry_add] at hentry
    split at hentry
    · rename_i heq
      obtain ⟨rfl, rfl⟩ := heq
      cases hentry
      simp
    · exact mem_append_left _ (h.opened hentry)
  · rw [map_append, map_singleton, ← concat_eq_append]
    exact h.ports.concat hport
  · intro ip ip' p a a' hentry hentry'
    rw [entry_add] at hentry hentry'
    split at hentry
    · rename_i heq
      split at hentry'
      · rename_i heq'
        exact heq.1.trans heq'.1.symm
      · exact absurd (heq.2 ▸ hentry') hnone
    · split at hentry'
      · rename_i heq'
        exact absurd (heq'.2 ▸ hentry) hnone
      · exact h.single hentry hentry'

/-- Among listeners with distinct ports, those that stay when a port is closed. -/
theorem mem_eraseP_port {ls : List Listener} (hnd : (ls.map Listener.port).Nodup) {l : Listener} :
    l ∈ ls.eraseP (fun l => l.port = port) ↔ l ∈ ls ∧ l.port ≠ port := by
  induction ls with
  | nil => simp
  | cons x ls ih =>
    rw [map_cons, nodup_cons] at hnd
    by_cases hx : x.port = port
    · rw [eraseP_cons_of_pos (by simpa using hx)]
      have hother : ∀ y ∈ ls, y.port ≠ port := by
        intro y hy heq
        exact hnd.1 (mem_map.mpr ⟨y, hy, heq.trans hx.symm⟩)
      refine ⟨fun hl => ⟨mem_cons_of_mem _ hl, hother l hl⟩, ?_⟩
      intro ⟨hl, hne⟩
      rcases mem_cons.mp hl with rfl | hl
      · exact absurd hx hne
      · exact hl
    · rw [eraseP_cons_of_neg (by simpa using hx), mem_cons, ih hnd.2, mem_cons]
      refine ⟨?_, ?_⟩
      · intro hl
        rcases hl with rfl | ⟨hl, hne⟩
        · exact ⟨.inl rfl, hx⟩
        · exact ⟨.inr hl, hne⟩
      · intro ⟨hl, hne⟩
        rcases hl with rfl | hl
        · exact .inl rfl
        · exact .inr ⟨hl, hne⟩

/-- A target is removed and no other IP has its port. -/
theorem Matches.remove {ports : PortMap} (h : s.Matches)
    (hlookup : s.targets.lookup listenIP = some ports)
    (hother : ∀ ip, ip ≠ listenIP → s.targets.entry ip port = none) :
    Matches ({ s with targets := s.targets.delete listenIP ports port }.closePort port) := by
  have hentry : ∀ {ip p a}, (s.targets.delete listenIP ports port).entry ip p = some a →
      p ≠ port ∧ s.targets.entry ip p = some a := by
    intro ip p a hp
    rw [entry_delete hlookup] at hp
    split at hp
    · cases hp
    · rename_i hne
      refine ⟨?_, hp⟩
      intro heq
      subst heq
      have hip : ip ≠ listenIP := fun hip => hne ⟨hip, rfl⟩
      rw [hother ip hip] at hp
      cases hp
  refine ⟨?_, ?_, ?_, ?_⟩
  · intro l hl
    obtain ⟨hold, hne⟩ := (mem_eraseP_port h.ports).mp hl
    obtain ⟨ip, hip⟩ := h.forwards l hold
    refine ⟨ip, ?_⟩
    show (s.targets.delete listenIP ports port).entry ip l.port = _
    rw [entry_delete hlookup, if_neg (fun heq => hne heq.2)]
    exact hip
  · intro ip p a hp
    obtain ⟨hne, hold⟩ := hentry hp
    exact (mem_eraseP_port h.ports).mpr ⟨h.opened hold, hne⟩
  · exact h.ports.sublist (List.Sublist.map _ eraseP_sublist)
  · intro ip ip' p a a' hp hp'
    exact h.single (hentry hp).2 (hentry hp').2

/-- The listeners that a completed loop of `Start` has opened. -/
theorem matches_visits {order : Order} {t : Targets} (h : Arranges order t)
    (hnd : (((visits order t).map Visit.listener).map Listener.port).Nodup) :
    Matches { targets := t, listeners := (visits order t).map Visit.listener } := by
  refine ⟨?_, ?_, hnd, ?_⟩
  · intro l hl
    obtain ⟨v, hv, rfl⟩ := mem_map.mp hl
    exact ⟨v.listenIP, entry_of_visit hv⟩
  · intro ip port addr hentry
    obtain ⟨listen, hv⟩ := exists_visit h hentry
    exact mem_map.mpr ⟨_, hv, rfl⟩
  · intro ip ip' port addr addr' hentry hentry'
    obtain ⟨listen, hv⟩ := exists_visit h hentry
    obtain ⟨listen', hv'⟩ := exists_visit h hentry'
    rw [map_map] at hnd
    have hvv := inj_on_of_nodup_map hnd hv hv' rfl
    exact congrArg Visit.listenIP hvv

end Side

namespace ProxyManager

inductive Event
  | addTarget (proto : Proto) (listenIP : String) (port : Int) (targetAddr : String)
      (listen : Option Int)
  | removeTarget (proto : Proto) (listenIP : String) (port : Int)
  | start (tcpOrder udpOrder : Order)
  | stop
  deriving DecidableEq, Repr

/-- One call; its error is dropped. -/
def step (pm : ProxyManager) : Event → Option ProxyManager
  | .addTarget proto ip port addr listen => (pm.addTarget proto ip port addr listen).map Prod.fst
  | .removeTarget proto ip port => some (pm.removeTarget proto ip port).1
  | .start tcpOrder udpOrder =>
    if Arranges tcpOrder pm.tcp.targets ∧ Arranges udpOrder pm.udp.targets then
      (pm.start tcpOrder udpOrder).map Prod.fst
    else none
  | .stop => some pm.stop

/-- The listeners are the entries while the manager runs, and there is none
while it does not. -/
structure Consistent (pm : ProxyManager) : Prop where
  running : pm.running = true → pm.tcp.Matches ∧ pm.udp.Matches
  stopped : pm.running = false → pm.tcp.listeners = [] ∧ pm.udp.listeners = []

/-- The visits of `Start`, TCP before UDP. -/
def startVisits (pm : ProxyManager) (tcpOrder udpOrder : Order) : List Visit :=
  visits tcpOrder pm.tcp.targets ++ visits udpOrder pm.udp.targets

/-- No other IP has a target on the port. -/
def Unshared (s : Side) (listenIP : String) (port : Int) : Prop :=
  ∀ ip ∈ s.targets.keys, ip = listenIP ∨ s.targets.entry ip port = none
  deriving Decidable

/-- The stack opens the listener on a valid port. -/
def Opens (pm : ProxyManager) (port : Int) (listen : Option Int) : Prop :=
  pm.configured = true ∧ ValidPort port ∧ listen ≠ none
  deriving Decidable

/-- The first listen of `Start` fails. -/
def FirstFails (pm : ProxyManager) (vs : List Visit) : Prop :=
  ∃ v ∈ vs.head?, pm.configured = false ∨ v.listen = none
  deriving Decidable

/-- A call meets no listen failure after it has changed something, and removes
no port that two IPs share. -/
def Reliable (pm : ProxyManager) : Event → Prop
  | .addTarget (.unsupported _) _ _ _ _ => True
  | .addTarget _ _ port _ listen => pm.running = true → pm.Opens port listen
  | .removeTarget .tcp ip port => pm.running = true → Unshared pm.tcp ip port
  | .removeTarget .udp ip port => pm.running = true → Unshared pm.udp ip port
  | .removeTarget (.unsupported _) _ _ => True
  | .start tcpOrder udpOrder =>
    pm.running = true ∨ pm.FirstFails (pm.startVisits tcpOrder udpOrder) ∨
      ∀ v ∈ pm.startVisits tcpOrder udpOrder, pm.Opens v.port v.listen
  | .stop => True

instance (pm : ProxyManager) (e : Event) : Decidable (pm.Reliable e) := by
  unfold Reliable
  split <;> infer_instance

variable {pm : ProxyManager} {s : Side}

theorem consistent_new (tnet : Bool) (nativeListenIP : String) :
    (new tnet nativeListenIP).Consistent := by
  refine ⟨?_, fun _ => ⟨rfl, rfl⟩⟩
  intro h
  cases h

variable {listen : Option Int} {r : ProxyManager × Option ManagerError}
  {tcpOrder udpOrder : Order} {ip : String}

/-- `startTarget` when the stack opens the listener. -/
theorem startTarget_opens {port : Int} {addr : String} {r : Side × Option ManagerError}
    (h : pm.Opens port listen) (hstart : pm.startTarget s port addr listen = some r) :
    port ∉ s.listeners.map Listener.port ∧
      r = ({ s with listeners := s.listeners ++ [⟨port, addr⟩] }, none) := by
  obtain ⟨hconf, hport, hlisten⟩ := h
  cases listen with
  | none => exact absurd rfl hlisten
  | some bound =>
    simp only [startTarget, hconf, if_true] at hstart
    split at hstart
    · rename_i hbind
      obtain ⟨hfree, hbound⟩ := hbind
      cases hbound hport
      cases hstart
      exact ⟨hfree, rfl⟩
    · cases hstart

/-- `startTarget` when the listen fails. -/
theorem startTarget_fails {port : Int} {addr : String} (h : pm.configured = false ∨ listen = none) :
    ∃ err, pm.startTarget s port addr listen = some (s, some err) := by
  cases hconf : pm.configured with
  | false => exact ⟨.notConfigured, by simp [startTarget, hconf]⟩
  | true =>
    have hlisten : listen = none := h.resolve_left (by simp [hconf])
    exact ⟨pm.listenError port, by simp [startTarget, hconf, hlisten]⟩

/-- The loop of `Start` when every listener can be opened. -/
theorem startTargets_opens {vs : List Visit} {r : Side × Option ManagerError}
    (hnd : (s.listeners.map Listener.port).Nodup)
    (hopens : ∀ v ∈ vs, pm.Opens v.port v.listen) (hstart : pm.startTargets s vs = some r) :
    r = ({ s with listeners := s.listeners ++ vs.map Visit.listener }, none) ∧
      ((s.listeners ++ vs.map Visit.listener).map Listener.port).Nodup := by
  induction vs generalizing s with
  | nil =>
    cases hstart
    simpa using hnd
  | cons v vs ih =>
    rw [startTargets] at hstart
    split at hstart
    · cases hstart
    · rename_i s' err hone
      obtain ⟨-, heq⟩ := startTarget_opens (hopens v (mem_cons_self ..)) hone
      cases heq
    · rename_i s' hone
      obtain ⟨hfree, heq⟩ := startTarget_opens (hopens v (mem_cons_self ..)) hone
      cases heq
      have hnd' : ((s.listeners ++ [v.listener]).map Listener.port).Nodup := by
        rw [map_append, map_singleton, ← concat_eq_append]
        exact hnd.concat hfree
      have hrest := ih hnd' (fun w hw => hopens w (mem_cons_of_mem _ hw)) hstart
      simpa [Visit.listener, append_assoc] using hrest

/-- The loop of `Start` when its first listen fails. -/
theorem startTargets_first_fails {v : Visit} {vs : List Visit}
    (h : pm.configured = false ∨ v.listen = none) :
    ∃ err, pm.startTargets s (v :: vs) = some (s, some err) := by
  obtain ⟨err, herr⟩ : ∃ err,
      pm.startTarget s v.port v.targetAddr v.listen = some (s, some err) := startTarget_fails h
  exact ⟨.startFailed err, by simp [startTargets, herr]⟩

/-- A `Start` whose first listen fails changes nothing. -/
theorem start_first_fails (hrun : pm.running = false)
    (hfails : pm.FirstFails (pm.startVisits tcpOrder udpOrder))
    (hstart : pm.start tcpOrder udpOrder = some r) : r.1 = pm := by
  obtain ⟨v, hv, hbad⟩ := hfails
  unfold startVisits at hv
  cases htcp : visits tcpOrder pm.tcp.targets with
  | cons w ws =>
    rw [htcp] at hv
    cases hv
    obtain ⟨err, herr⟩ : ∃ err, pm.startTargets pm.tcp (v :: ws) = some (pm.tcp, some err) :=
      startTargets_first_fails hbad
    simp only [start, hrun, Bool.false_eq_true, if_false, htcp, herr, Option.some.injEq] at hstart
    rw [← hstart, ← hrun]
  | nil =>
    rw [htcp, nil_append] at hv
    cases hudp : visits udpOrder pm.udp.targets with
    | nil =>
      rw [hudp] at hv
      cases hv
    | cons w ws =>
      rw [hudp] at hv
      cases hv
      obtain ⟨err, herr⟩ : ∃ err, pm.startTargets pm.udp (v :: ws) = some (pm.udp, some err) :=
        startTargets_first_fails hbad
      simp only [start, hrun, Bool.false_eq_true, if_false, htcp, startTargets, hudp, herr,
        Option.some.injEq] at hstart
      rw [← hstart, ← hrun]

/-- A `Start` in which every listener can be opened runs the manager. -/
theorem start_opens (h : pm.Consistent) (hrun : pm.running = false)
    (htcp : Arranges tcpOrder pm.tcp.targets) (hudp : Arranges udpOrder pm.udp.targets)
    (hopens : ∀ v ∈ pm.startVisits tcpOrder udpOrder, pm.Opens v.port v.listen)
    (hstart : pm.start tcpOrder udpOrder = some r) : r.1.Consistent ∧ r.2 = none := by
  obtain ⟨hnoTcp, hnoUdp⟩ := h.stopped hrun
  have hopensTcp : ∀ v ∈ visits tcpOrder pm.tcp.targets, pm.Opens v.port v.listen :=
    fun v hv => hopens v (mem_append_left _ hv)
  have hopensUdp : ∀ v ∈ visits udpOrder pm.udp.targets, pm.Opens v.port v.listen :=
    fun v hv => hopens v (mem_append_right _ hv)
  simp only [start, hrun, Bool.false_eq_true, if_false] at hstart
  split at hstart
  · cases hstart
  · rename_i tcp err hone
    obtain ⟨heq, -⟩ := startTargets_opens (by simp [hnoTcp]) hopensTcp hone
    cases heq
  · rename_i tcp hone
    obtain ⟨heq, hndTcp⟩ := startTargets_opens (by simp [hnoTcp]) hopensTcp hone
    cases heq
    split at hstart
    · cases hstart
    · rename_i udp err htwo
      obtain ⟨heq, -⟩ := startTargets_opens (by simp [hnoUdp]) hopensUdp htwo
      cases heq
    · rename_i udp htwo
      obtain ⟨heq, hndUdp⟩ := startTargets_opens (by simp [hnoUdp]) hopensUdp htwo
      cases heq
      cases hstart
      rw [hnoTcp, nil_append] at hndTcp
      rw [hnoUdp, nil_append] at hndUdp
      refine ⟨⟨?_, fun hfalse => nomatch hfalse⟩, rfl⟩
      intro _
      simp only [hnoTcp, hnoUdp, nil_append]
      exact ⟨Side.matches_visits htcp hndTcp, Side.matches_visits hudp hndUdp⟩

/-- A reliable `Start` keeps the manager consistent and fails only without a
change. -/
theorem Consistent.start (h : pm.Consistent) (htcp : Arranges tcpOrder pm.tcp.targets)
    (hudp : Arranges udpOrder pm.udp.targets) (hrel : pm.Reliable (.start tcpOrder udpOrder))
    (hstart : pm.start tcpOrder udpOrder = some r) : r.1.Consistent ∧ (r.2 ≠ none → r.1 = pm) := by
  cases hrun : pm.running with
  | true =>
    simp only [ProxyManager.start, hrun, if_true] at hstart
    cases hstart
    exact ⟨h, fun _ => rfl⟩
  | false =>
    rcases hrel.resolve_left (by simp [hrun]) with hfails | hopens
    · have heq := start_first_fails hrun hfails hstart
      exact ⟨heq ▸ h, fun _ => heq⟩
    · obtain ⟨hcons, hnone⟩ := start_opens h hrun htcp hudp hopens hstart
      exact ⟨hcons, fun hne => absurd hnone hne⟩

/-- The entry of an IP without a port map. -/
theorem entry_of_not_mem {t : Targets} (h : ip ∉ t.keys) (port : Int) : t.entry ip port = none := by
  have hnone : t.lookup ip = none :=
    AList.lookup_eq_none.mpr (fun hmem => h (AList.mem_keys.mp hmem))
  rw [entry, hnone, Option.bind_none]

/-- `AddTarget` on one side of a running manager. -/
theorem matches_addTargetSide {ip addr : String} {port : Int} {r : Side × Option ManagerError}
    (hs : s.Matches) (hrun : pm.running = true) (hopens : pm.Opens port listen)
    (hadd : pm.addTargetSide s ip port addr listen = some r) : r.1.Matches := by
  simp only [addTargetSide, hrun, if_true] at hadd
  obtain ⟨hfree, heq⟩ := startTarget_opens hopens hadd
  rw [heq]
  exact hs.add hfree

/-- `AddTarget` on one side of a manager that does not run. -/
theorem listeners_addTargetSide {ip addr : String} {port : Int} {r : Side × Option ManagerError}
    (hrun : pm.running = false) (hadd : pm.addTargetSide s ip port addr listen = some r) :
    r.1.listeners = s.listeners := by
  simp only [addTargetSide, hrun, Bool.false_eq_true, if_false, Option.some.injEq] at hadd
  rw [← hadd]

/-- `RemoveTarget` on one side of a running manager. -/
theorem matches_removeTargetSide {port : Int} (hs : s.Matches) (hunshared : Unshared s ip port) :
    (removeTargetSide s ip port).1.Matches := by
  unfold removeTargetSide
  cases hlookup : s.targets.lookup ip with
  | none => exact hs
  | some ports =>
    refine hs.remove hlookup ?_
    intro ip' hne
    by_cases hmem : ip' ∈ s.targets.keys
    · exact (hunshared ip' hmem).resolve_left hne
    · exact entry_of_not_mem hmem port

/-- `RemoveTarget` opens nothing. -/
theorem listeners_removeTargetSide {port : Int} (hs : s.listeners = []) :
    (removeTargetSide s ip port).1.listeners = [] := by
  unfold removeTargetSide
  split
  · exact hs
  · simp [Side.closePort, hs]

/-- A reliable `AddTarget` keeps the manager consistent. -/
theorem Consistent.addTarget {proto : Proto} {ip addr : String} {port : Int} (h : pm.Consistent)
    (hrel : pm.Reliable (.addTarget proto ip port addr listen))
    (hadd : pm.addTarget proto ip port addr listen = some r) : r.1.Consistent := by
  cases proto with
  | tcp =>
    obtain ⟨side, hside, rfl⟩ := Option.map_eq_some_iff.mp hadd
    refine ⟨?_, ?_⟩
    · intro hrun
      exact ⟨matches_addTargetSide (h.running hrun).1 hrun (hrel hrun) hside, (h.running hrun).2⟩
    · intro hrun
      exact ⟨(listeners_addTargetSide hrun hside).trans (h.stopped hrun).1, (h.stopped hrun).2⟩
  | udp =>
    obtain ⟨side, hside, rfl⟩ := Option.map_eq_some_iff.mp hadd
    refine ⟨?_, ?_⟩
    · intro hrun
      exact ⟨(h.running hrun).1, matches_addTargetSide (h.running hrun).2 hrun (hrel hrun) hside⟩
    · intro hrun
      exact ⟨(h.stopped hrun).1, (listeners_addTargetSide hrun hside).trans (h.stopped hrun).2⟩
  | unsupported name =>
    cases hadd
    exact h

/-- A reliable `RemoveTarget` keeps the manager consistent. -/
theorem Consistent.removeTarget {proto : Proto} {port : Int} (h : pm.Consistent)
    (hrel : pm.Reliable (.removeTarget proto ip port)) :
    (pm.removeTarget proto ip port).1.Consistent := by
  cases proto with
  | tcp =>
    refine ⟨?_, ?_⟩
    · intro hrun
      exact ⟨matches_removeTargetSide (h.running hrun).1 (hrel hrun), (h.running hrun).2⟩
    · intro hrun
      exact ⟨listeners_removeTargetSide (h.stopped hrun).1, (h.stopped hrun).2⟩
  | udp =>
    refine ⟨?_, ?_⟩
    · intro hrun
      exact ⟨(h.running hrun).1, matches_removeTargetSide (h.running hrun).2 (hrel hrun)⟩
    · intro hrun
      exact ⟨(h.stopped hrun).1, listeners_removeTargetSide (h.stopped hrun).2⟩
  | unsupported name => exact h

theorem Consistent.stop (h : pm.Consistent) : pm.stop.Consistent := by
  unfold ProxyManager.stop
  split
  · exact ⟨(nomatch ·), fun _ => ⟨rfl, rfl⟩⟩
  · exact h

/-- Every reliable call keeps the manager consistent. -/
theorem Consistent.step {e : Event} {pm' : ProxyManager} (h : pm.Consistent)
    (hrel : pm.Reliable e) (hstep : pm.step e = some pm') : pm'.Consistent := by
  cases e with
  | addTarget proto ip port addr listen =>
    obtain ⟨r, hadd, rfl⟩ := Option.map_eq_some_iff.mp hstep
    exact h.addTarget hrel hadd
  | removeTarget proto ip port =>
    cases hstep
    exact h.removeTarget hrel
  | start tcpOrder udpOrder =>
    simp only [ProxyManager.step] at hstep
    split at hstep
    · rename_i harr
      obtain ⟨r, hstart, rfl⟩ := Option.map_eq_some_iff.mp hstep
      exact (h.start harr.1 harr.2 hrel hstart).1
    · cases hstep
  | stop =>
    cases hstep
    exact h.stop

/-- **Listeners and targets**: after calls that are all reliable the listeners
are the entries of the table while the manager runs and there is none while it
does not, and a reliable `Start` that fails then changes nothing. -/
theorem listeners_match_targets {tnet : Bool} {nativeListenIP : String} {es : List Event}
    {pm : ProxyManager} (hmeets : Runs.Meets step Reliable (new tnet nativeListenIP) es)
    (hrun : Runs.run step (new tnet nativeListenIP) es = some pm) :
    pm.Consistent ∧
      ∀ {tcpOrder udpOrder pm' err}, Arranges tcpOrder pm.tcp.targets →
        Arranges udpOrder pm.udp.targets → pm.Reliable (.start tcpOrder udpOrder) →
        pm.start tcpOrder udpOrder = some (pm', some err) → pm' = pm := by
  have hcons : pm.Consistent :=
    Runs.run_invariant (fun h hrel hstep => h.step hrel hstep) (consistent_new _ _) hmeets hrun
  refine ⟨hcons, ?_⟩
  intro tcpOrder udpOrder pm' err htcp hudp hrel hstart
  exact (hcons.start htcp hudp hrel hstart).2 (by simp)

/-- Two targets, a first `Start` that fails at once, a second one, and the
removal of a target. -/
def restarted : List Event :=
  [.addTarget .tcp "10.0.0.1" 80 "a:80" none, .addTarget .udp "10.0.0.1" 53 "b:53" none,
    .start [("10.0.0.1", [(80, none)])] [("10.0.0.1", [(53, none)])],
    .start [("10.0.0.1", [(80, some 80)])] [("10.0.0.1", [(53, some 53)])],
    .removeTarget .tcp "10.0.0.1" 80]

/-- A `Start` whose first listen fails can be tried again. -/
theorem restarted_manager_matches :
    ∃ pm, Runs.Meets step Reliable (new true "") restarted ∧
      Runs.run step (new true "") restarted = some pm ∧ pm.running = true ∧
      pm.tcp.listeners = [] ∧
      pm.udp.listeners = [{ port := 53, targetAddr := "b:53" }] ∧ pm.Consistent := by
  have hmeets : Runs.Meets step Reliable (new true "") restarted := by decide +kernel
  exact ⟨_, hmeets, rfl, by decide +kernel, by decide +kernel, by decide +kernel,
    (listeners_match_targets hmeets rfl).1⟩

/-- A `Start` whose second listen fails leaves the first listener open on a
manager that does not run, where `Stop` does not close it. -/
theorem failed_start_leaves_listeners :
    ∃ pm, Runs.run step (new true "")
        [.addTarget .tcp "10.0.0.1" 80 "a:80" none, .addTarget .udp "10.0.0.1" 53 "b:53" none,
          .start [("10.0.0.1", [(80, some 80)])] [("10.0.0.1", [(53, none)])], .stop] = some pm ∧
      pm.running = false ∧ pm.tcp.listeners = [{ port := 80, targetAddr := "a:80" }] ∧
      ¬ pm.Consistent := by
  refine ⟨_, rfl, by decide +kernel, by decide +kernel, ?_⟩
  intro h
  have hnone := (h.stopped (by decide +kernel)).1
  revert hnone
  decide +kernel

end ProxyManager

end Newt.Proxy
