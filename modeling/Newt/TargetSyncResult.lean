import Newt.TargetSync

/-!
# When a sync reaches the targets it was sent

After a sync the table should hold, for the tunnel IP, the ports of the strings
that `parseTargetString` accepts, with the addresses that adding them records
(`updateTargets_add`), and the same sync again should change nothing in the
manager, whatever script and stack answer then.  `SyncAgrees` says when the first
is so, port by port, from the table before, the strings and the script;
`SyncSettles` when the second is: an address that adding rewrites is removed and
added again by every sync, which shows unless no script is run and nothing
listens on the port.

Main results: `handleSync_reaches_targets_iff`, and
`bracketed_target_removed_by_sync`, a target with an IPv6 host that a sync which
asks for it removes.
-/

namespace Newt.Proxy

open Option ProxyManager Text

/-- The ports and addresses of the strings that can be added. -/
def acceptedTargets (targets : List String) : PortMap :=
  collect parseTargetString targets ∅

/-- What adding the accepted string for a port records. -/
def wantedEntry (u : Updown) (targets : SyncTargets) (proto : Proto) (port : Int) :
    Option String :=
  ((acceptedTargets (targets.of proto)).lookup port).map (u.processed proto port)

/-- The table for the tunnel IP is what adding the strings would record. -/
def Synced (u : Updown) (tunnelIP : String) (targets : SyncTargets) (pm : ProxyManager) : Prop :=
  ∀ proto port, pm.entry (proto, tunnelIP, port) = wantedEntry u targets proto port

/-- A port whose entry before (`current`), whose accepted address (`wanted`, as
it is recorded) and whose piece of a split string (`desired`) agree. -/
def PortAgrees (u : Updown) (proto : Proto) (port : Int) (current wanted desired : Option String) :
    Prop :=
  match wanted, desired with
  -- Nothing is asked for: an old entry can be removed.
  | none, none => ∀ v ∈ current, Removable port v
  -- Only the splitting accepts a string: it adds nothing and keeps nothing.
  | none, some target =>
    current ≠ some target ∧ ¬ Removable port target ∧ ∀ v ∈ current, Removable port v
  -- Only the parser accepts a string: the entry is there and cannot be removed.
  | some addr, none => current = some addr ∧ ¬ Removable port addr
  -- Both do: the piece is in the table as it is, or adding it records the address.
  | some addr, some target =>
    (current = some target → addr = target) ∧
      (current ≠ some target → addedEntry u proto port target = some addr ∨
        addedEntry u proto port target = none ∧ current = some addr ∧ ¬ Removable port addr)

variable (u : Updown) (proto : Proto) (port : Int)

instance (current wanted desired : Option String) :
    Decidable (PortAgrees u proto port current wanted desired) := by
  unfold PortAgrees
  split <;> infer_instance

theorem addedEntry_eq_none_iff (target : String) :
    addedEntry u proto port target = none ↔ ¬ Removable port target := by
  simp [addedEntry, Removable]

/-- Nothing stays of an entry when its removal is tried. -/
theorem filter_removable_eq_none_iff {port : Int} {current : Option String} :
    (current.filter fun v => ¬ Removable port v) = none ↔ ∀ v ∈ current, Removable port v := by
  simp [filter_eq_none_iff]

/-- The entry stays. -/
theorem filter_removable_eq_some_iff {port : Int} {current : Option String} {addr : String} :
    (current.filter fun v => ¬ Removable port v) = some addr ↔
      current = some addr ∧ ¬ Removable port addr := by
  simp [filter_eq_some_iff]

/-- At one port the sync leaves the wanted entry exactly if the port agrees. -/
theorem syncedEntry_eq_iff (current wanted desired : Option String) :
    syncedEntry u proto port current desired = wanted ↔
      PortAgrees u proto port current wanted desired := by
  cases desired with
  | none =>
    cases wanted with
    | none => exact filter_removable_eq_none_iff
    | some addr => exact filter_removable_eq_some_iff
  | some target =>
    by_cases hcur : current = some target
    · cases wanted with
      | none => simp [syncedEntry, PortAgrees, hcur]
      | some addr =>
        simp only [syncedEntry, PortAgrees, hcur, if_true, some.injEq, true_implies,
          ne_eq, not_true, false_implies, and_true]
        exact eq_comm
    · cases wanted with
      | none =>
        simp only [syncedEntry, PortAgrees, hcur, if_false, or_eq_none_iff,
          addedEntry_eq_none_iff, ne_eq, not_false_eq_true, true_and]
        exact and_congr_right fun _ => filter_removable_eq_none_iff
      | some addr =>
        simp only [syncedEntry, PortAgrees, hcur, if_false, or_eq_some_iff,
          false_implies, ne_eq, not_false_eq_true, true_implies, true_and]
        exact or_congr_right (and_congr_right fun _ => filter_removable_eq_some_iff)

/-- A port that agrees agrees again when the wanted entry is there. -/
theorem PortAgrees.again {u : Updown} {proto : Proto} {port : Int}
    {current wanted desired : Option String} (h : PortAgrees u proto port current wanted desired) :
    PortAgrees u proto port wanted wanted desired := by
  cases wanted with
  | none =>
    cases desired with
    | none => exact fun v hv => nomatch hv
    | some target => exact ⟨by simp, h.2.1, fun v hv => nomatch hv⟩
  | some addr =>
    cases desired with
    | none => exact ⟨rfl, h.2⟩
    | some target =>
      refine ⟨fun heq => some.inj heq, ?_⟩
      intro hne
      have hcur : current ≠ some target := fun heq => hne (congrArg some (h.1 heq))
      rcases h.2 hcur with hadded | ⟨hnone, -, hkept⟩
      · exact Or.inl hadded
      · exact Or.inr ⟨hnone, rfl, hkept⟩

/-- The ports that occur in the table for the tunnel IP or in the strings. -/
def syncPorts (tunnelIP : String) (targets : SyncTargets) (pm : ProxyManager) :
    Proto → List Int
  | .tcp =>
    ((pm.tcp.targets.lookup tunnelIP).map AList.keys).getD [] ++
      (acceptedTargets targets.tcp).keys ++ (desiredTargets targets.tcp).keys
  | .udp =>
    ((pm.udp.targets.lookup tunnelIP).map AList.keys).getD [] ++
      (acceptedTargets targets.udp).keys ++ (desiredTargets targets.udp).keys
  | .unsupported _ => []

/-- The table, the strings and the script agree at a port.  Without a tunnel IP
nothing is done, so the entry has to be the wanted one already. -/
def EntryAgrees (u : Updown) (tunnelIP : String) (targets : SyncTargets) (pm : ProxyManager)
    (proto : Proto) (port : Int) : Prop :=
  (tunnelIP = "" → pm.entry (proto, tunnelIP, port) = wantedEntry u targets proto port) ∧
    (tunnelIP ≠ "" → PortAgrees u proto port (pm.entry (proto, tunnelIP, port))
      (wantedEntry u targets proto port) ((desiredTargets (targets.of proto)).lookup port))
  deriving Decidable

/-- The table, the strings and the script agree at every port that occurs. -/
def SyncAgrees (u : Updown) (tunnelIP : String) (targets : SyncTargets) (pm : ProxyManager) :
    Prop :=
  (∀ port ∈ syncPorts tunnelIP targets pm .tcp, EntryAgrees u tunnelIP targets pm .tcp port) ∧
    ∀ port ∈ syncPorts tunnelIP targets pm .udp, EntryAgrees u tunnelIP targets pm .udp port
  deriving Decidable

section

variable {u : Updown} {tunnelIP : String} {targets : SyncTargets} {pm pm' : ProxyManager}

/-- A port that occurs nowhere. -/
theorem entryAgrees_of_none {proto : Proto} {port : Int}
    (hcurrent : pm.entry (proto, tunnelIP, port) = none)
    (hwanted : (acceptedTargets (targets.of proto)).lookup port = none)
    (hdesired : (desiredTargets (targets.of proto)).lookup port = none) :
    EntryAgrees u tunnelIP targets pm proto port := by
  unfold EntryAgrees
  rw [hcurrent, hdesired, wantedEntry, hwanted, map_none]
  exact ⟨fun _ => rfl, fun _ v hv => nomatch hv⟩

theorem lookup_none_of_notMem {m : PortMap} {port : Int} (h : port ∉ m.keys) :
    m.lookup port = none :=
  AList.lookup_eq_none.mpr fun hmem => h (AList.mem_keys.mp hmem)

/-- It is enough to look at the ports that occur. -/
theorem syncAgrees_iff :
    SyncAgrees u tunnelIP targets pm ↔
      ∀ proto port, EntryAgrees u tunnelIP targets pm proto port := by
  refine ⟨?_, fun h => ⟨fun port _ => h .tcp port, fun port _ => h .udp port⟩⟩
  intro ⟨htcp, hudp⟩ proto port
  by_cases hport : port ∈ syncPorts tunnelIP targets pm proto
  · cases proto with
    | tcp => exact htcp port hport
    | udp => exact hudp port hport
    | unsupported name => cases hport
  · cases proto with
    | tcp | udp =>
      simp only [syncPorts, List.mem_append, not_or] at hport
      obtain ⟨⟨hcurrent, hwanted⟩, hdesired⟩ := hport
      exact entryAgrees_of_none (not_not.mp (mt mem_keys_current.mpr hcurrent))
        (lookup_none_of_notMem hwanted) (lookup_none_of_notMem hdesired)
    | unsupported name => exact entryAgrees_of_none rfl rfl rfl

/-- The first sync reaches the wanted table exactly if everything agrees. -/
theorem synced_iff {tcpOrder udpOrder : SyncOrder}
    (h : handleSync u tunnelIP targets tcpOrder udpOrder pm = some pm') :
    Synced u tunnelIP targets pm' ↔
      ∀ proto port, EntryAgrees u tunnelIP targets pm proto port := by
  unfold Synced EntryAgrees
  by_cases htunnel : tunnelIP = ""
  · simp only [handleSync, htunnel, if_true, some.injEq] at h
    simp [htunnel, h]
  · simp only [htunnel, false_implies, ne_eq, not_false_eq_true, true_implies, true_and]
    refine forall_congr' fun proto => forall_congr' fun port => ?_
    rw [entry_handleSync htunnel h, if_pos rfl]
    exact syncedEntry_eq_iff u proto port _ _ _

end

/-! ## The second sync -/

namespace ProxyManager

/-- The same table, listeners and settings; the maps may be in another order. -/
structure Same (pm pm' : ProxyManager) : Prop where
  entry : pm'.entry = pm.entry
  ips : ∀ proto ip, ip ∈ (pm'.side proto).targets ↔ ip ∈ (pm.side proto).targets
  listeners : ∀ proto, (pm'.side proto).listeners = (pm.side proto).listeners
  rest : { pm' with tcp := pm.tcp, udp := pm.udp } = pm

/-- No listener is on the port, and none is opened. -/
def Idle (pm : ProxyManager) (proto : Proto) (port : Int) : Prop :=
  ¬ (pm.running = true ∧ pm.configured = true) ∧ ∀ l ∈ (pm.side proto).listeners, l.port ≠ port
  deriving Decidable

def withSide (pm : ProxyManager) (s : Side) : Proto → ProxyManager
  | .tcp => { pm with tcp := s }
  | .udp => { pm with udp := s }
  | .unsupported _ => pm

end ProxyManager

/-- What is wanted for a port is what the sync compares it with, or cannot be added.  An
address that adding rewrites is removed and added again by every sync, which does not show
if no script is run and the port is idle. -/
def PortSettles (u : Updown) (targets : SyncTargets) (pm : ProxyManager) (proto : Proto)
    (port : Int) : Prop :=
  ∀ addr ∈ wantedEntry u targets proto port,
    ∀ target ∈ (desiredTargets (targets.of proto)).lookup port,
      addr = target ∨ ¬ Removable port target ∨ fields u.script.toList = [] ∧ pm.Idle proto port
  deriving Decidable

/-- Every port settles, where something is done at all. -/
def SyncSettles (u : Updown) (tunnelIP : String) (targets : SyncTargets) (pm : ProxyManager) :
    Prop :=
  tunnelIP ≠ "" → ∀ proto ∈ [.tcp, .udp],
    ∀ port ∈ (desiredTargets (targets.of proto)).keys, PortSettles u targets pm proto port
  deriving Decidable

/-- The same message again, whatever script and stack answer then, changes nothing in the
manager. -/
def Unchanged (u : Updown) (tunnelIP : String) (targets : SyncTargets) (pm : ProxyManager) :
    Prop :=
  ∀ (u' : Updown) (tcpOrder udpOrder : SyncOrder) (pm' : ProxyManager), u'.script = u.script →
    handleSync u' tunnelIP targets tcpOrder udpOrder pm = some pm' → pm.Same pm'

/-- What the calls for a port do to a side when no listener is opened. -/
structure Side.Closes (ip : String) (port : Int) (s s' : Side) : Prop where
  ips : ip ∈ s.targets → ∀ i, i ∈ s'.targets ↔ i ∈ s.targets
  listeners : s'.listeners.Sublist s.listeners
  kept : (∀ l ∈ s.listeners, l.port ≠ port) → s'.listeners = s.listeners

section Calls

variable {u : Updown} {tunnelIP target addr : String} {proto : Proto} {pm pm' : ProxyManager}
  {port : Int} {listen : Option Int} {s s' s'' : Side} {current : Option PortMap}
  {desired : PortMap}

theorem Side.Closes.refl (ip : String) (port : Int) (s : Side) : s.Closes ip port s :=
  ⟨fun _ _ => Iff.rfl, .refl _, fun _ => rfl⟩

theorem Side.Closes.trans {ip : String} (h : s.Closes ip port s') (h' : s'.Closes ip port s'') :
    s.Closes ip port s'' := by
  refine ⟨fun hip i => ?_, h'.listeners.trans h.listeners, fun hport => ?_⟩
  · exact (h'.ips ((h.ips hip ip).mpr hip) i).trans (h.ips hip i)
  · exact (h'.kept fun l hl => hport l (h.listeners.subset hl)).trans (h.kept hport)

/-- Recording something for a listen IP that is there. -/
theorem mem_insert_of_mem {t : Targets} {ip i : String} {ports : PortMap} (hip : ip ∈ t) :
    i ∈ t.insert ip ports ↔ i ∈ t := by
  rw [AList.mem_insert, or_iff_right_of_imp]
  rintro rfl
  exact hip

/-- What `RemoveTarget` does to a side with targets for the listen IP. -/
theorem removeTargetSide_of_mem {ip : String} (hip : ip ∈ s.targets) (port : Int) :
    (removeTargetSide s ip port).1.listeners = s.listeners.eraseP (fun l => l.port = port) ∧
      ∀ i, i ∈ (removeTargetSide s ip port).1.targets ↔ i ∈ s.targets := by
  obtain ⟨ports, hports⟩ := isSome_iff_exists.mp (AList.lookup_isSome.mpr hip)
  unfold removeTargetSide
  rw [hports]
  exact ⟨rfl, fun i => mem_insert_of_mem hip⟩

theorem closes_removeTargetSide (s : Side) (ip : String) (port : Int) :
    s.Closes ip port (removeTargetSide s ip port).1 := by
  by_cases hip : ip ∈ s.targets
  · obtain ⟨hlisteners, hips⟩ := removeTargetSide_of_mem hip port
    refine ⟨fun _ => hips, ?_, fun hport => ?_⟩
    · rw [hlisteners]
      exact List.eraseP_sublist
    · rw [hlisteners]
      exact List.eraseP_of_forall_not fun l hl => by simpa using hport l hl
  · unfold removeTargetSide
    rw [AList.lookup_eq_none.mpr hip]
    exact .refl ip port s

theorem side_withSide_of_ne {proto' : Proto} (h : proto' ≠ proto) :
    (pm.withSide s proto).side proto' = pm.side proto' := by
  cases proto <;> cases proto' <;> first | rfl | exact absurd rfl h

theorem listens_withSide (s : Side) (proto : Proto) :
    (pm.withSide s proto).Listens listen ↔ pm.Listens listen := by
  cases proto <;> rfl

theorem withSide_withSide : (pm.withSide s proto).withSide s' proto = pm.withSide s' proto := by
  cases proto <;> rfl

variable (hproto : proto = .tcp ∨ proto = .udp)

include hproto

theorem side_withSide :
    (pm.withSide s proto).side proto = s := by
  rcases hproto with rfl | rfl <;> rfl

theorem withSide_side :
    pm.withSide (pm.side proto) proto = pm := by
  rcases hproto with rfl | rfl <;> rfl

theorem removeTarget_eq (pm : ProxyManager) (ip : String)
    (port : Int) : (pm.removeTarget proto ip port).1 =
      pm.withSide (removeTargetSide (pm.side proto) ip port).1 proto := by
  rcases hproto with rfl | rfl <;> rfl

theorem addTarget_eq (pm : ProxyManager) (ip : String)
    (port : Int) (addr : String) (listen : Option Int) :
    (pm.addTarget proto ip port addr listen).map Prod.fst =
      (pm.addTargetSide (pm.side proto) ip port addr listen).map (pm.withSide ·.1 proto) := by
  rcases hproto with rfl | rfl <;> exact map_map ..

/-- An addition that opens no listener. -/
theorem exists_addTarget (hlistens : ¬ pm.Listens listen)
    (ip : String) (port : Int) (addr : String) :
    ∃ s, (pm.addTarget proto ip port addr listen).map Prod.fst = some (pm.withSide s proto) ∧
      s.targets = (pm.side proto).targets.add ip port addr ∧
      s.listeners = (pm.side proto).listeners := by
  have hside : ∃ r, pm.addTargetSide (pm.side proto) ip port addr listen = some r := by
    simp only [addTargetSide, startTarget]
    split_ifs with hrunning hconfigured
    · cases listen with
      | none => exact ⟨_, rfl⟩
      | some bound => exact absurd ⟨hrunning, hconfigured, rfl⟩ hlistens
    · exact ⟨_, rfl⟩
    · exact ⟨_, rfl⟩
  obtain ⟨r, hr⟩ := hside
  obtain ⟨htargets, hlisteners⟩ := addTargetSide_eq hr
  rw [if_neg hlistens] at hlisteners
  exact ⟨r.1, by rw [addTarget_eq hproto, hr]; rfl, htargets, hlisteners⟩

/-- An addition that opens a listener on its port. -/
theorem exists_addTarget_listening
    (hlistens : pm.Listens (some port)) (hfree : ∀ l ∈ (pm.side proto).listeners, l.port ≠ port)
    (ip addr : String) :
    ∃ s, (pm.addTarget proto ip port addr (some port)).map Prod.fst = some (pm.withSide s proto) ∧
      ∃ l ∈ s.listeners, l.port = port := by
  have hbind : Side.Bindable { pm.side proto with
      targets := (pm.side proto).targets.add ip port addr } port port := by
    refine ⟨fun hmem => ?_, fun _ => rfl⟩
    obtain ⟨l, hl, hport⟩ := List.mem_map.mp hmem
    exact hfree l hl hport
  rw [addTarget_eq hproto]
  simp only [addTargetSide, startTarget, hlistens.1, hlistens.2.1, if_true, hbind, map_some]
  exact ⟨_, rfl, ⟨port, addr⟩, List.mem_concat_self, rfl⟩

/-- A call that opens no listener. -/
theorem exists_updateTarget (u : Updown)
    {action : Action} (haction : action = .add ∨ action = .remove) (hlistens : ¬ pm.Listens listen)
    (tunnelIP : String) (port : Int) (target : String) :
    ∃ s, updateTarget u tunnelIP proto action pm port target listen = some (pm.withSide s proto) ∧
      (pm.side proto).Closes tunnelIP port s := by
  have hremove := closes_removeTargetSide (pm.side proto) tunnelIP port
  by_cases hparse : Removable port target
  · rcases haction with rfl | rfl
    · obtain ⟨⟨q, addr⟩, hparse⟩ := isSome_iff_exists.mp hparse
      cases parse_targetStr hparse
      obtain ⟨s, hs, htargets, hlisteners⟩ := exists_addTarget hproto
        (mt (listens_withSide (removeTargetSide (pm.side proto) tunnelIP port).1 proto).mp hlistens)
        tunnelIP port (u.processed proto port addr)
      rw [withSide_withSide] at hs
      rw [side_withSide hproto] at htargets hlisteners
      refine ⟨s, by rw [updateTarget_add hparse, removeTarget_eq hproto, hs], ?_⟩
      refine hremove.trans ⟨fun hip i => ?_, ?_, fun _ => hlisteners⟩
      · rw [htargets]
        exact mem_insert_of_mem hip
      · rw [hlisteners]
    · exact ⟨_, by rw [updateTarget_remove hparse, removeTarget_eq hproto], hremove⟩
  · refine ⟨pm.side proto, ?_, .refl ..⟩
    rw [updateTarget_of_not hparse, withSide_side hproto]

/-- An iteration that opens no listener. -/
theorem exists_addMissing (u : Updown)
    (hlistens : ¬ pm.Listens listen) (tunnelIP : String) (port : Int) :
    ∃ s, addMissing u tunnelIP proto current desired pm (port, listen) =
        some (pm.withSide s proto) ∧
      (pm.side proto).Closes tunnelIP port s := by
  have hsame : some pm = some (pm.withSide (pm.side proto) proto) := by rw [withSide_side hproto]
  unfold addMissing
  split
  · exact ⟨_, hsame, .refl ..⟩
  · exact exists_updateTarget hproto u (.inl rfl) hlistens tunnelIP port _
  · next target v _ _ =>
    split
    · exact ⟨_, hsame, .refl ..⟩
    · obtain ⟨s₁, hs₁, hcloses₁⟩ := exists_updateTarget hproto u (.inr rfl)
        (fun h : pm.Listens none => nomatch h.2.2) tunnelIP port v
      obtain ⟨s₂, hs₂, hcloses₂⟩ := exists_updateTarget hproto u (.inl rfl)
        (mt (listens_withSide s₁ proto).mp hlistens) tunnelIP port target
      rw [withSide_withSide] at hs₂
      rw [side_withSide hproto] at hcloses₂
      exact ⟨s₂, bind_eq_some_iff.mpr ⟨_, hs₁, hs₂⟩, hcloses₁.trans hcloses₂⟩

end Calls

section Again

variable {u u' : Updown} {tunnelIP target addr : String} {targets : SyncTargets} {proto : Proto}
  {pm pm' t : ProxyManager} {current : Option PortMap} {port : Int}

/-- A script that is not run leaves the addresses as they are. -/
theorem processed_of_not_run (h : fields u.script.toList = []) (target : String) :
    u.processed proto port target = target := by
  unfold Updown.processed processedTarget executeUpdownScript
  rw [h]
  split_ifs <;> rfl

/-- What a later sync meets at a port of a table that is as wanted. -/
structure PortQuiet (u : Updown) (targets : SyncTargets) (current : Option PortMap)
    (proto : Proto) (port : Int) : Prop where
  synced : (current.bind fun m => m.lookup port) = wantedEntry u targets proto port
  agrees : PortAgrees u proto port (wantedEntry u targets proto port)
    (wantedEntry u targets proto port) ((desiredTargets (targets.of proto)).lookup port)

/-- An entry that its string cannot replace cannot be removed either. -/
theorem PortAgrees.kept {current : Option String} (h : PortAgrees u proto port current (some addr)
    (some target)) (hne : current ≠ some target) (hnot : ¬ Removable port target) :
    ¬ Removable port addr := by
  rcases h.2 hne with hadded | hkept
  · rw [(addedEntry_eq_none_iff u proto port target).mpr hnot] at hadded
    cases hadded
  · exact hkept.2.2

theorem PortQuiet.removeMissing (h : PortQuiet u targets current proto port) (pm : ProxyManager) :
    removeMissing u' tunnelIP proto current (desiredTargets (targets.of proto)) pm port =
      some pm := by
  unfold Proxy.removeMissing
  split
  · next v hdesired hv =>
    have hagrees := h.agrees
    rw [h.synced.symm.trans hv, hdesired] at hagrees
    exact updateTarget_of_not hagrees.2
  · rfl

/-- At a port that settles nothing is done, unless it is idle. -/
theorem PortQuiet.addMissing {listen : Option Int} (h : PortQuiet u targets current proto port)
    (hsettles : PortSettles u targets pm proto port) (t : ProxyManager) :
    addMissing u' tunnelIP proto current (desiredTargets (targets.of proto)) t (port, listen) =
        some t ∨
      pm.Idle proto port ∧ current.isSome = true := by
  have hagrees := h.agrees
  unfold Proxy.addMissing
  split
  · exact .inl rfl
  · next target hdesired hcur =>
    rw [h.synced.symm.trans hcur, hdesired] at hagrees
    exact .inl (updateTarget_of_not hagrees.2.1)
  · next target addr hdesired hcur =>
    have hwanted := h.synced.symm.trans hcur
    rw [hwanted, hdesired] at hagrees
    split_ifs with heq
    · exact .inl rfl
    · rcases (hsettles addr hwanted target hdesired).resolve_left heq with hnot | ⟨-, hidle⟩
      · rw [updateTarget_of_not (hagrees.kept (fun h => heq (some.inj h)) hnot), bind_some,
          updateTarget_of_not hnot]
        exact .inl rfl
      · refine .inr ⟨hidle, ?_⟩
        obtain ⟨m, rfl, -⟩ := bind_eq_some_iff.mp hcur
        rfl

theorem run_removeMissing (h : ∀ port, PortQuiet u targets current proto port) (pm : ProxyManager)
    (ports : List Int) :
    Runs.run (removeMissing u' tunnelIP proto current (desiredTargets (targets.of proto))) pm
      ports = some pm := by
  induction ports with
  | nil => rfl
  | cons port ports ih => exact Runs.run_cons.mpr ⟨pm, (h port).removeMissing pm, ih⟩

/-- Of one side only the addresses may be others. -/
def Still (proto : Proto) (pm t : ProxyManager) : Prop :=
  ∃ s, t = pm.withSide s proto ∧ s.listeners = (pm.side proto).listeners ∧
    ∀ ip, ip ∈ s.targets ↔ ip ∈ (pm.side proto).targets

/-- The loops of a protocol whose ports settle leave its listeners. -/
theorem still_syncTargets {order : SyncOrder} (hproto : proto = .tcp ∨ proto = .udp)
    (h : ∀ port, PortQuiet u targets ((pm.side proto).targets.lookup tunnelIP) proto port)
    (hsettles : ∀ port, PortSettles u targets pm proto port)
    (hrun : syncTargets u' tunnelIP proto ((pm.side proto).targets.lookup tunnelIP)
      (desiredTargets (targets.of proto)) order pm = some pm') :
    Still proto pm pm' := by
  unfold syncTargets at hrun
  rw [run_removeMissing h] at hrun
  split_ifs at hrun
  refine Runs.run_always ?_ ⟨pm.side proto, (withSide_side hproto).symm, rfl, fun _ => .rfl⟩ hrun
  rintro t t' ⟨port, listen⟩ ⟨s, rfl, hlisteners, hips⟩ hstep
  rcases (h port).addMissing (hsettles port) (pm.withSide s proto) with hnone | ⟨hidle, hsome⟩
  · cases hstep.symm.trans hnone
    exact ⟨s, rfl, hlisteners, hips⟩
  · obtain ⟨s', hs', hcloses⟩ := exists_addMissing hproto u'
      (fun h => hidle.1 (((listens_withSide s proto).mp h).imp_right And.left)) tunnelIP port
    rw [hs', withSide_withSide] at hstep
    rw [side_withSide hproto] at hcloses
    cases hstep
    refine ⟨s', rfl, (hcloses.kept ?_).trans hlisteners, fun ip => ?_⟩
    · rw [hlisteners]
      exact hidle.2
    · exact (hcloses.ips ((hips _).mpr (AList.lookup_isSome.mp hsome)) ip).trans (hips ip)

/-- The entry is wanted again, whatever the script prints then. -/
theorem PortQuiet.agrees_again (h : PortQuiet u targets current proto port)
    (hsettles : PortSettles u targets pm proto port) (hscript : u'.script = u.script) :
    PortAgrees u' proto port (wantedEntry u targets proto port)
      (wantedEntry u targets proto port) ((desiredTargets (targets.of proto)).lookup port) := by
  have hagrees := h.agrees
  generalize hwanted : wantedEntry u targets proto port = wanted at hagrees ⊢
  generalize hdesired : (desiredTargets (targets.of proto)).lookup port = desired at hagrees ⊢
  cases wanted with
  | none => cases desired <;> exact hagrees
  | some addr =>
    cases desired with
    | none => exact hagrees
    | some target =>
      refine ⟨hagrees.1, fun hne => ?_⟩
      rcases hsettles addr hwanted target hdesired with rfl | hnot | ⟨hrun, -⟩
      · exact absurd rfl hne
      · exact .inr ⟨(addedEntry_eq_none_iff u' proto port target).mpr hnot, rfl,
          hagrees.kept hne hnot⟩
      · have hadded : addedEntry u' proto port target = addedEntry u proto port target := by
          simp only [addedEntry, processed_of_not_run hrun, processed_of_not_run (hscript ▸ hrun)]
        rw [hadded]
        exact hagrees.2 hne

/-- A script that is run can print another address than a given one. -/
theorem exists_processed_ne (proto : Proto) (port : Int) (addr : String)
    (h : fields u.script.toList ≠ []) :
    ∃ u' : Updown, u'.script = u.script ∧
      ∀ target, u'.processed proto port target ≠ addr := by
  have hscript : u.script ≠ "" := by
    intro heq
    rw [heq] at h
    exact h (by decide)
  have hprints : ∀ text : String, String.ofList (trimSpace text.toList) = text →
      text ≠ "" → ∀ target,
        Updown.processed ⟨u.script, fun _ _ _ => .ok text⟩ proto port target = text := by
    intro text htrim hne target
    unfold Updown.processed processedTarget executeUpdownScript
    cases hparts : fields u.script.toList with
    | nil => exact absurd hparts h
    | cons part parts => simp [hscript, htrim, hne]
  by_cases haddr : addr = "a"
  · refine ⟨⟨u.script, fun _ _ _ => .ok "b"⟩, rfl, fun target => ?_⟩
    rw [hprints "b" (by decide) (by decide), haddr]
    decide
  · refine ⟨⟨u.script, fun _ _ _ => .ok "a"⟩, rfl, fun target => ?_⟩
    rw [hprints "a" (by decide) (by decide)]
    exact Ne.symm haddr

/-- What failed listens leave of a side and of the settings. -/
structure Shrunk (tunnelIP : String) (proto : Proto) (pm t : ProxyManager) : Prop where
  listens : ∀ listen, t.Listens listen ↔ pm.Listens listen
  listeners : (t.side proto).listeners.Sublist (pm.side proto).listeners
  ip : tunnelIP ∈ (pm.side proto).targets → tunnelIP ∈ (t.side proto).targets

/-- A loop of a protocol whose listens fail, and what it leaves of each side. -/
theorem exists_adds {proto' : Proto} {desired : PortMap}
    (hproto' : proto' = .tcp ∨ proto' = .udp) (u : Updown) (keys : List Int)
    (h : Shrunk tunnelIP proto pm t) :
    ∃ t', Runs.run (Proxy.addMissing u tunnelIP proto' current desired) t
        (keys.map fun q => (q, none)) = some t' ∧
      Shrunk tunnelIP proto pm t' ∧ (proto ≠ proto' → t'.side proto = t.side proto) := by
  refine Runs.run_progress (C := fun _ e => e.2 = none)
    (fun x e hx he => ?_) ⟨h, fun _ => rfl⟩ (Runs.meets_of_forall (fun _ e he => ?_) t)
  · obtain ⟨q, listen⟩ := e
    cases he
    obtain ⟨s, hs, hcloses⟩ := exists_addMissing hproto' u
      (fun hnone : x.Listens none => nomatch hnone.2.2) tunnelIP q
    have hlistens : ∀ listen, (x.withSide s proto').Listens listen ↔ pm.Listens listen :=
      fun listen => (listens_withSide ..).trans (hx.1.listens listen)
    by_cases hsame : proto = proto'
    · subst hsame
      refine ⟨_, hs, ⟨hlistens, ?_, fun hip => ?_⟩, fun hne => absurd rfl hne⟩
      · rw [side_withSide hproto']
        exact hcloses.listeners.trans hx.1.listeners
      · rw [side_withSide hproto']
        exact (hcloses.ips (hx.1.ip hip) tunnelIP).mpr (hx.1.ip hip)
    · have hside : (x.withSide s proto').side proto = x.side proto := side_withSide_of_ne hsame
      refine ⟨_, hs, ⟨hlistens, ?_, ?_⟩, fun hne => hside.trans (hx.2 hne)⟩
      · rw [hside]
        exact hx.1.listeners
      · rw [hside]
        exact hx.1.ip
  · obtain ⟨q, -, rfl⟩ := List.mem_map.mp he
    rfl

/-- At a port whose address is to be replaced its listener is closed before the listen. -/
theorem exists_readded {desired : PortMap} {parsed : String}
    (hproto : proto = .tcp ∨ proto = .udp)
    (hcur : (current.bind fun m => m.lookup port) = some addr)
    (hdesired : desired.lookup port = some target) (hne : addr ≠ target)
    (hparse : parseTargetString (targetStr port target) = some (port, parsed))
    (hip : tunnelIP ∈ (t.side proto).targets) :
    ∃ (s : Side) (ls : List Listener), ls.Sublist (t.side proto).listeners ∧
      s.listeners = ls.eraseP (fun l => l.port = port) ∧ ∀ listen,
        Proxy.addMissing u tunnelIP proto current desired t (port, listen) =
          ((t.withSide s proto).addTarget proto tunnelIP port (u.processed proto port parsed)
            listen).map Prod.fst := by
  obtain ⟨s, hs, hcloses⟩ := exists_updateTarget hproto u (.inr rfl)
    (fun h : t.Listens none => nomatch h.2.2) tunnelIP port addr
  have hmem : tunnelIP ∈ s.targets := (hcloses.ips hip tunnelIP).mpr hip
  refine ⟨(removeTargetSide s tunnelIP port).1, s.listeners, hcloses.listeners,
    (removeTargetSide_of_mem hmem port).1, fun listen => ?_⟩
  unfold Proxy.addMissing
  rw [hdesired, hcur]
  dsimp only
  rw [if_neg hne, hs, bind_some, updateTarget_add hparse, removeTarget_eq hproto,
    side_withSide hproto, withSide_withSide]

/-- The iterations of a quiet protocol, in any order of its additions. -/
theorem syncTargets_of_run {adds : List (Int × Option Int)}
    (h : ∀ port, PortQuiet u targets current proto port)
    (hperm : (adds.map Prod.fst).Perm (desiredTargets (targets.of proto)).keys)
    (hrun : Runs.run (Proxy.addMissing u' tunnelIP proto current
      (desiredTargets (targets.of proto))) t adds = some pm') :
    syncTargets u' tunnelIP proto current (desiredTargets (targets.of proto))
      ⟨(current.map AList.keys).getD [], adds⟩ t = some pm' := by
  unfold syncTargets
  rw [if_pos ⟨.refl _, hperm⟩, run_removeMissing h]
  exact hrun

section Loud

variable (htunnel : tunnelIP ≠ "") (hproto : proto = .tcp ∨ proto = .udp)
  (hquiet : ∀ proto port,
    PortQuiet u targets ((pm.side proto).targets.lookup tunnelIP) proto port)

include htunnel hproto hquiet

/-- A second sync that comes to a port last and has failed listens before and after it. -/
theorem exists_handleSync (u' : Updown) (listen : Option Int) (P : Side → Prop)
    (hdesired : (desiredTargets (targets.of proto)).lookup port = some target)
    (hlast : ∀ t, Shrunk tunnelIP proto pm t → ∃ s,
      addMissing u' tunnelIP proto ((pm.side proto).targets.lookup tunnelIP)
        (desiredTargets (targets.of proto)) t (port, listen) = some (t.withSide s proto) ∧ P s) :
    ∃ tcpOrder udpOrder pm', handleSync u' tunnelIP targets tcpOrder udpOrder pm = some pm' ∧
      P (pm'.side proto) := by
  have hport : port ∈ (desiredTargets (targets.of proto)).keys :=
    AList.mem_keys.mp (AList.lookup_isSome.mp (isSome_of_mem hdesired))
  have hrefl : ∀ t, Shrunk tunnelIP proto t t := fun t => ⟨fun _ => Iff.rfl, .refl _, id⟩
  have hkeys : ∀ l : List Int, (l.map fun q => (q, (none : Option Int))).map Prod.fst = l :=
    fun l => List.map_map.trans (List.map_id l)
  have hfail : ∀ proto', proto' = .tcp ∨ proto' = .udp → ∀ t, ∃ order t',
      syncTargets u' tunnelIP proto' ((pm.side proto').targets.lookup tunnelIP)
          (desiredTargets (targets.of proto')) order t = some t' ∧
        Shrunk tunnelIP proto t t' ∧ (proto ≠ proto' → t'.side proto = t.side proto) := by
    intro proto' hproto' t
    obtain ⟨t', hrun, ht'⟩ :=
      exists_adds hproto' u' (desiredTargets (targets.of proto')).keys (hrefl t)
    exact ⟨_, t', syncTargets_of_run (hquiet proto') (hkeys _ ▸ .refl _) hrun, ht'⟩
  have hown : ∀ t, Shrunk tunnelIP proto pm t → ∃ order t' s,
      syncTargets u' tunnelIP proto ((pm.side proto).targets.lookup tunnelIP)
        (desiredTargets (targets.of proto)) order t = some (withSide t' s proto) ∧ P s := by
    intro t ht
    obtain ⟨t', hrun, ht', -⟩ :=
      exists_adds hproto u' ((desiredTargets (targets.of proto)).keys.erase port) ht
    obtain ⟨s, hstep, hP⟩ := hlast t' ht'
    have hend := Runs.run_append hrun
      (Runs.run_cons.mpr ⟨_, hstep, show Runs.run _ _ [] = _ from rfl⟩)
    refine ⟨_, t', s, syncTargets_of_run (hquiet proto) ?_ hend, hP⟩
    rw [List.map_append, hkeys]
    exact (List.perm_append_singleton port _).trans (List.perm_cons_erase hport).symm
  simp only [handleSync, htunnel, if_false]
  rcases hproto with rfl | rfl
  · obtain ⟨order, t, s, hsync, hP⟩ := hown pm (hrefl pm)
    obtain ⟨order', t', hsync', -, hside⟩ := hfail .udp (.inr rfl) (t.withSide s .tcp)
    refine ⟨order, order', t', bind_eq_some_iff.mpr ⟨_, hsync, hsync'⟩, ?_⟩
    rw [hside (by decide)]
    exact hP
  · obtain ⟨order, t, hsync, ht, -⟩ := hfail .tcp (.inl rfl) pm
    obtain ⟨order', t', s, hsync', hP⟩ := hown t ht
    exact ⟨order, order', _, bind_eq_some_iff.mpr ⟨t, hsync, hsync'⟩, hP⟩

variable (hwanted : wantedEntry u targets proto port = some addr)
  (hdesired : (desiredTargets (targets.of proto)).lookup port = some target) (hne : addr ≠ target)
  (hremovable : Removable port target)

include hwanted hdesired hne hremovable

/-- A script that is run for the target of a port may answer otherwise the next time. -/
theorem not_unchanged_of_run (hrun : fields u.script.toList ≠ []) :
    ¬ Unchanged u tunnelIP targets pm := by
  intro hunchanged
  obtain ⟨u', hscript, hprints⟩ := exists_processed_ne proto port addr hrun
  obtain ⟨tcpOrder, udpOrder, pm', hsync, -⟩ := exists_handleSync htunnel hproto hquiet
    u' none (fun _ => True) hdesired fun t _ =>
      (exists_addMissing hproto u' (fun h : t.Listens none => nomatch h.2.2) tunnelIP port).imp
        fun _ h => ⟨h.1, trivial⟩
  have hentry : pm.entry (proto, tunnelIP, port) = some addr :=
    ((hquiet proto port).synced).trans hwanted
  have hkept : pm'.entry (proto, tunnelIP, port) = some addr := by
    rw [(hunchanged u' tcpOrder udpOrder pm' hscript hsync).entry, hentry]
  obtain ⟨⟨q, parsed⟩, hparse⟩ := isSome_iff_exists.mp hremovable
  rw [entry_handleSync htunnel hsync, if_pos rfl, hentry, hdesired] at hkept
  simp only [syncedEntry, some.injEq, hne, if_false, addedEntry, hparse, map_some,
    some_or] at hkept
  exact hprints parsed hkept

/-- A listener is closed, or opened, by the second sync if the stack answers so. -/
theorem not_unchanged_of_listener (hidle : ¬ pm.Idle proto port) :
    ¬ Unchanged u tunnelIP targets pm := by
  intro hunchanged
  have hcur := (hquiet proto port).synced.trans hwanted
  obtain ⟨m, hm, -⟩ := bind_eq_some_iff.mp hcur
  have hip : tunnelIP ∈ (pm.side proto).targets := AList.lookup_isSome.mp (isSome_of_mem hm)
  obtain ⟨⟨q, parsed⟩, hparse⟩ := isSome_iff_exists.mp hremovable
  cases parse_targetStr hparse
  have hreadds := fun t (ht : Shrunk tunnelIP proto pm t) =>
    exists_readded hproto hcur hdesired hne hparse (u := u) (ht.ip hip)
  by_cases hlistener : ∃ l ∈ (pm.side proto).listeners, l.port = port
  · obtain ⟨l, hl, hlport⟩ := hlistener
    obtain ⟨tcpOrder, udpOrder, pm', hsync, hlost⟩ := exists_handleSync htunnel hproto hquiet
      u none (fun s => s.listeners ≠ (pm.side proto).listeners) hdesired fun t ht => by
        obtain ⟨s, ls, hsub, herase, hadd⟩ := hreadds t ht
        obtain ⟨s', hs', -, hlisteners⟩ := exists_addTarget hproto
          (fun h : (t.withSide s proto).Listens none => nomatch h.2.2) tunnelIP port
          (u.processed proto port parsed)
        rw [withSide_withSide, ← hadd] at hs'
        rw [side_withSide hproto] at hlisteners
        refine ⟨s', hs', fun heq => ?_⟩
        rw [hlisteners, herase] at heq
        have hls : ls = (pm.side proto).listeners :=
          (hsub.trans ht.listeners).antisymm (heq ▸ List.eraseP_sublist)
        have hlen := List.length_eraseP_of_mem (p := fun l => l.port = port) (hls ▸ hl)
          (decide_eq_true hlport)
        have hpos := List.length_pos_of_mem (hls ▸ hl)
        rw [heq, ← hls] at hlen
        omega
    exact hlost ((hunchanged u tcpOrder udpOrder pm' rfl hsync).listeners proto)
  · have hfree : ∀ l ∈ (pm.side proto).listeners, l.port ≠ port :=
      fun l hl hlport => hlistener ⟨l, hl, hlport⟩
    have hlistens : pm.Listens (some port) := by
      by_contra hnot
      exact hidle ⟨fun h => hnot ⟨h.1, h.2, rfl⟩, hfree⟩
    obtain ⟨tcpOrder, udpOrder, pm', hsync, l, hl, hlport⟩ :=
      exists_handleSync htunnel hproto hquiet u (some port)
      (fun s => ∃ l ∈ s.listeners, l.port = port) hdesired fun t ht => by
        obtain ⟨s, ls, hsub, herase, hadd⟩ := hreadds t ht
        have hfree' : ∀ l ∈ ((t.withSide s proto).side proto).listeners, l.port ≠ port := by
          rw [side_withSide hproto, herase]
          exact fun l hl => hfree l
            (ht.listeners.subset (hsub.subset (List.eraseP_sublist.subset hl)))
        obtain ⟨s', hs', hopened⟩ := exists_addTarget_listening hproto
          ((listens_withSide ..).mpr ((ht.listens _).mpr hlistens)) hfree' tunnelIP
          (u.processed proto port parsed)
        rw [withSide_withSide, ← hadd] at hs'
        exact ⟨s', hs', hopened⟩
    rw [(hunchanged u tcpOrder udpOrder pm' rfl hsync).listeners proto] at hl
    exact hfree l hl hlport

end Loud

/-- A manager that is as wanted is left as it is exactly if every port settles. -/
theorem unchanged_iff (hsynced : Synced u tunnelIP targets pm)
    (hagrees : tunnelIP ≠ "" → ∀ proto port, PortAgrees u proto port
      (wantedEntry u targets proto port) (wantedEntry u targets proto port)
      ((desiredTargets (targets.of proto)).lookup port)) :
    Unchanged u tunnelIP targets pm ↔ SyncSettles u tunnelIP targets pm := by
  have hquiet : tunnelIP ≠ "" → ∀ proto port,
      PortQuiet u targets ((pm.side proto).targets.lookup tunnelIP) proto port :=
    fun htunnel proto port => ⟨hsynced proto port, hagrees htunnel proto port⟩
  constructor
  · intro hunchanged htunnel proto hproto port _ addr haddr target htarget
    have hproto : proto = .tcp ∨ proto = .udp := by simpa using hproto
    replace hquiet := hquiet htunnel
    by_contra hnot
    rw [not_or, not_or, not_not, not_and_or] at hnot
    obtain ⟨hne, hremovable, hrun | hidle⟩ := hnot
    · exact not_unchanged_of_run htunnel hproto hquiet haddr htarget hne hremovable hrun hunchanged
    · exact not_unchanged_of_listener htunnel hproto hquiet haddr htarget hne hremovable hidle
        hunchanged
  · intro hsettles u' tcpOrder udpOrder pm' hscript hrun
    by_cases htunnel : tunnelIP = ""
    · simp only [handleSync, htunnel, if_true, some.injEq] at hrun
      subst hrun
      exact ⟨rfl, fun _ _ => Iff.rfl, fun _ => rfl, rfl⟩
    · replace hquiet := hquiet htunnel
      have hsettled : ∀ proto port, PortSettles u targets pm proto port := by
        intro proto port
        by_cases hport : port ∈ (desiredTargets (targets.of proto)).keys
        · cases proto with
          | tcp | udp => exact hsettles htunnel _ (by simp) port hport
          | unsupported name => cases hport
        · intro addr _ target htarget
          rw [lookup_none_of_notMem hport] at htarget
          cases htarget
      have hentry : pm'.entry = pm.entry := by
        funext k
        obtain ⟨proto, ip, port⟩ := k
        rw [entry_handleSync htunnel hrun]
        split_ifs with hip
        · dsimp only at hip ⊢
          subst hip
          rw [hsynced proto port]
          exact (syncedEntry_eq_iff u' proto port _ _ _).mpr
            ((hquiet proto port).agrees_again (hsettled proto port) hscript)
        · rfl
      simp only [handleSync, htunnel, if_false] at hrun
      obtain ⟨pm₁, htcp, hudp⟩ := bind_eq_some_iff.mp hrun
      obtain ⟨s, rfl, hlisteners, hips⟩ :=
        still_syncTargets (.inl rfl) (hquiet .tcp) (hsettled .tcp) htcp
      obtain ⟨s', rfl, hlisteners', hips'⟩ : Still .udp (pm.withSide s .tcp) pm' :=
        still_syncTargets (.inr rfl) (hquiet .udp) (hsettled .udp) hudp
      refine ⟨hentry, ?_, ?_, rfl⟩
      · rintro (_ | _ | name)
        · exact hips
        · exact hips'
        · exact fun _ => Iff.rfl
      · rintro (_ | _ | name)
        · exact hlisteners
        · exact hlisteners'
        · rfl

end Again

end Newt.Proxy
