import Mathlib.Data.List.AList

/-!
# The proxy manager

`ProxyManager` keeps a table of targets, one map from ports to addresses for
each listen IP, and opens a listener (TCP) or a packet socket (UDP) for every
entry while it runs.  TCP and UDP are two sides of one kind; the source writes
each function once for both.

What the network stack answers to a listen comes with the call: the port the
new listener is bound to, or a failure.  `Bindable` is what is relied on: a port
is bound to one listener, and a listener on a port from 1 to 65535 is bound to
that port.  The order in which Go ranges over a map comes with the call too.
-/

namespace Newt.Proxy

open AList Option

/-- The protocol argument of `AddTarget` and `RemoveTarget`. -/
inductive Proto
  | tcp
  | udp
  | unsupported (name : String)
  deriving DecidableEq, Repr

/-- A listener or packet socket: the port it is bound to and the address its
goroutine forwards to. -/
structure Listener where
  port : Int
  targetAddr : String
  deriving DecidableEq, Repr

/-- `map[int]string`: the address for each port. -/
abbrev PortMap := AList fun _ : Int => String

/-- `map[string]map[int]string`: a port map for each listen IP. -/
abbrev Targets := AList fun _ : String => PortMap

/-- One side of the manager: `tcpTargets` and `listeners`, or `udpTargets` and
`udpConns`. -/
structure Side where
  targets : Targets
  listeners : List Listener
  deriving DecidableEq

inductive ManagerError
  /-- "unsupported protocol: %s" -/
  | unsupportedProtocol (name : String)
  /-- "target not found: %s:%d" -/
  | targetNotFound (listenIP : String) (port : Int)
  /-- "failed to create TCP listener: %v", "failed to create UDP listener: %v" -/
  | createListener
  /-- "failed to create native TCP listener on %s:%d: %v", and for UDP -/
  | createNativeListener (nativeListenIP : String) (port : Int)
  /-- "proxy manager has no tnet or native IP configured" -/
  | notConfigured
  /-- "failed to start TCP target: %v", "failed to start UDP target: %v" -/
  | startFailed (err : ManagerError)
  deriving DecidableEq, Repr

structure ProxyManager where
  /-- A netstack is set. -/
  tnet : Bool
  nativeListenIP : String
  tcp : Side
  udp : Side
  running : Bool
  deriving DecidableEq

namespace Targets

/-- The address recorded for a listen IP and a port. -/
def entry (t : Targets) (listenIP : String) (port : Int) : Option String :=
  (t.lookup listenIP).bind fun ports => ports.lookup port

/-- Record an address. -/
def add (t : Targets) (listenIP : String) (port : Int) (targetAddr : String) : Targets :=
  t.insert listenIP (((t.lookup listenIP).getD ∅).insert port targetAddr)

/-- Delete a port from the map of a listen IP that has one. -/
def delete (t : Targets) (listenIP : String) (ports : PortMap) (port : Int) : Targets :=
  t.insert listenIP (ports.erase port)

theorem entry_add (t : Targets) (listenIP ip : String) (port p : Int) (targetAddr : String) :
    (t.add listenIP port targetAddr).entry ip p =
      if ip = listenIP ∧ p = port then some targetAddr else t.entry ip p := by
  unfold entry add
  by_cases hip : ip = listenIP
  · subst hip
    rw [lookup_insert, bind_some]
    by_cases hp : p = port
    · subst hp
      simp
    · rw [lookup_insert_ne hp, if_neg (fun h => hp h.2)]
      cases t.lookup ip with
      | none | some ports => simp
  · rw [lookup_insert_ne hip, if_neg (fun h => hip h.1)]

theorem entry_delete {t : Targets} {listenIP : String} {ports : PortMap}
    (h : t.lookup listenIP = some ports) (port : Int) (ip : String) (p : Int) :
    (t.delete listenIP ports port).entry ip p =
      if ip = listenIP ∧ p = port then none else t.entry ip p := by
  unfold entry delete
  by_cases hip : ip = listenIP
  · subst hip
    rw [lookup_insert, h, bind_some, bind_some]
    by_cases hp : p = port
    · subst hp
      simp
    · rw [lookup_erase_ne hp, if_neg (fun h => hp h.2)]
  · rw [lookup_insert_ne hip, if_neg (fun h => hip h.1)]

end Targets

/-- One iteration of the loops of `Start`: an entry of the table and what the
stack answers to its listen. -/
structure Visit where
  listenIP : String
  port : Int
  targetAddr : String
  listen : Option Int
  deriving DecidableEq, Repr

/-- An order of the listen IPs and, for each, of its ports, with the answers of
the stack. -/
abbrev Order := List (String × List (Int × Option Int))

/-- The order goes over all keys of the table. -/
def Arranges (order : Order) (t : Targets) : Prop :=
  (order.map Prod.fst).Perm t.keys ∧
    ∀ o ∈ order, ∀ ports ∈ t.lookup o.1, (o.2.map Prod.fst).Perm ports.keys
  deriving Decidable

/-- The iterations of the two nested loops. -/
def visits (order : Order) (t : Targets) : List Visit :=
  order.flatMap fun o =>
    o.2.filterMap fun p =>
      (t.entry o.1 p.1).map fun addr =>
        { listenIP := o.1, port := p.1, targetAddr := addr, listen := p.2 }

/-- Every entry of the table is visited. -/
theorem exists_visit {order : Order} {t : Targets} (h : Arranges order t) {listenIP : String}
    {port : Int} {addr : String} (hentry : t.entry listenIP port = some addr) :
    ∃ listen, { listenIP := listenIP, port := port, targetAddr := addr, listen := listen } ∈
      visits order t := by
  obtain ⟨ports, hports, haddr⟩ := bind_eq_some_iff.mp hentry
  have hip : listenIP ∈ t.keys := mem_keys.mp
    (lookup_isSome.mp (by rw [hports]; rfl))
  obtain ⟨o, ho, rfl⟩ := List.mem_map.mp (h.1.mem_iff.mpr hip)
  have hport : port ∈ ports.keys := mem_keys.mp
    (lookup_isSome.mp (by rw [haddr]; rfl))
  obtain ⟨p, hp, rfl⟩ := List.mem_map.mp ((h.2 o ho ports hports).mem_iff.mpr hport)
  exact ⟨p.2, List.mem_flatMap.mpr ⟨o, ho, List.mem_filterMap.mpr ⟨p, hp, by simp [hentry]⟩⟩⟩

/-- Only entries of the table are visited. -/
theorem entry_of_visit {order : Order} {t : Targets} {v : Visit} (h : v ∈ visits order t) :
    t.entry v.listenIP v.port = some v.targetAddr := by
  obtain ⟨o, ho, hv⟩ := List.mem_flatMap.mp h
  obtain ⟨p, hp, hv⟩ := List.mem_filterMap.mp hv
  obtain ⟨addr, haddr, rfl⟩ := map_eq_some_iff.mp hv
  exact haddr

namespace Side

/-- The stack can bind a new listener for `port` to `bound`. -/
def Bindable (s : Side) (port bound : Int) : Prop :=
  bound ∉ s.listeners.map Listener.port ∧ (1 ≤ port ∧ port ≤ 65535 → bound = port)
  deriving Decidable

/-- The first listener bound to a port is closed and taken off the list. -/
def closePort (s : Side) (port : Int) : Side :=
  { s with listeners := s.listeners.eraseP fun l => l.port = port }

end Side

namespace ProxyManager

/-- `NewProxyManager`, `NewProxyManagerNative` and `NewProxyManagerWithoutTNet`. -/
def new (tnet : Bool) (nativeListenIP : String) : ProxyManager :=
  { tnet := tnet, nativeListenIP := nativeListenIP, tcp := ⟨∅, []⟩, udp := ⟨∅, []⟩,
    running := false }

/-- A network stack to listen on is set. -/
def configured (pm : ProxyManager) : Bool :=
  pm.tnet || pm.nativeListenIP != ""

/-- The error when a listen fails. -/
def listenError (pm : ProxyManager) (port : Int) : ManagerError :=
  if pm.tnet then .createListener else .createNativeListener pm.nativeListenIP port

/-- `startTarget` on one side: undefined where the stack cannot give the answer. -/
def startTarget (pm : ProxyManager) (s : Side) (port : Int) (targetAddr : String)
    (listen : Option Int) : Option (Side × Option ManagerError) :=
  if pm.configured then
    match listen with
    | none => some (s, some (pm.listenError port))
    | some bound =>
      if s.Bindable port bound then
        some ({ s with listeners := s.listeners ++ [{ port := bound, targetAddr := targetAddr }] },
          none)
      else none
  else some (s, some .notConfigured)

/-- The body of `AddTarget` for one side. -/
def addTargetSide (pm : ProxyManager) (s : Side) (listenIP : String) (port : Int)
    (targetAddr : String) (listen : Option Int) : Option (Side × Option ManagerError) :=
  let s' := { s with targets := s.targets.add listenIP port targetAddr }
  if pm.running then pm.startTarget s' port targetAddr listen else some (s', none)

def addTarget (pm : ProxyManager) (proto : Proto) (listenIP : String) (port : Int)
    (targetAddr : String) (listen : Option Int) : Option (ProxyManager × Option ManagerError) :=
  match proto with
  | .tcp =>
    (pm.addTargetSide pm.tcp listenIP port targetAddr listen).map fun r =>
      ({ pm with tcp := r.1 }, r.2)
  | .udp =>
    (pm.addTargetSide pm.udp listenIP port targetAddr listen).map fun r =>
      ({ pm with udp := r.1 }, r.2)
  | .unsupported name => some (pm, some (.unsupportedProtocol name))

/-- The body of `RemoveTarget` for one side. -/
def removeTargetSide (s : Side) (listenIP : String) (port : Int) :
    Side × Option ManagerError :=
  match s.targets.lookup listenIP with
  | none => (s, some (.targetNotFound listenIP port))
  | some ports =>
    ({ s with targets := s.targets.delete listenIP ports port }.closePort port, none)

def removeTarget (pm : ProxyManager) (proto : Proto) (listenIP : String) (port : Int) :
    ProxyManager × Option ManagerError :=
  match proto with
  | .tcp =>
    let r := removeTargetSide pm.tcp listenIP port
    ({ pm with tcp := r.1 }, r.2)
  | .udp =>
    let r := removeTargetSide pm.udp listenIP port
    ({ pm with udp := r.1 }, r.2)
  | .unsupported name => (pm, some (.unsupportedProtocol name))

/-- The loop of `Start` over one side: it stops at the first error, with what it
has opened so far. -/
def startTargets (pm : ProxyManager) : Side → List Visit → Option (Side × Option ManagerError)
  | s, [] => some (s, none)
  | s, v :: vs =>
    match pm.startTarget s v.port v.targetAddr v.listen with
    | none => none
    | some (s', some err) => some (s', some (.startFailed err))
    | some (s', none) => startTargets pm s' vs

/-- `Start`, with the orders of the two ranges. -/
def start (pm : ProxyManager) (tcpOrder udpOrder : Order) :
    Option (ProxyManager × Option ManagerError) :=
  if pm.running then some (pm, none)
  else
    match pm.startTargets pm.tcp (visits tcpOrder pm.tcp.targets) with
    | none => none
    | some (tcp, some err) => some ({ pm with tcp := tcp }, some err)
    | some (tcp, none) =>
      match pm.startTargets pm.udp (visits udpOrder pm.udp.targets) with
      | none => none
      | some (udp, some err) => some ({ pm with tcp := tcp, udp := udp }, some err)
      | some (udp, none) => some ({ pm with tcp := tcp, udp := udp, running := true }, none)

/-- `Stop` closes every listener, from the last to the first. -/
def stop (pm : ProxyManager) : ProxyManager :=
  if pm.running then
    { pm with
      tcp := { pm.tcp with listeners := [] }
      udp := { pm.udp with listeners := [] }
      running := false }
  else pm

end ProxyManager

end Newt.Proxy
