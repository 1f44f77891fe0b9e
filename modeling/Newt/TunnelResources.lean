import Newt.Connect
import Newt.Lib.Runs

/-!
# The resources of the main tunnel

A connect makes a TUN device, a WireGuard device on it, a proxy manager and, if
the message has browser gateway targets, a listener.  `closeWgTunnel` releases
them; `handleConnect` calls it only if the last connect was established, so a
connect that returned early leaves a device behind which the next one replaces.

A WireGuard device closes its TUN.  A proxy manager whose `Start` failed may
have opened listeners, and its `Stop` does nothing because it does not run; it
is closed when it has no open listener.

The system records, for no step of the code to read, which resources were made
and which were closed.

Main result: `resources_owned`, in every run in which no connect finds a device
left over, gets something it cannot use, or closes a manager whose start
failed half-way, every message is handled and every resource ever made is
either the current one or closed.
-/

namespace Newt.Tunnel

open Connect JsonDecode Netip List Option

inductive Kind
  | tun
  | device
  | proxyManager
  | listener
  deriving DecidableEq, Repr

/-- A resource; the number tells those of one kind apart. -/
structure Resource where
  kind : Kind
  id : Nat
  deriving DecidableEq, Repr

/-- A WireGuard device and the TUN it was made on. -/
structure Device where
  id : Nat
  tun : Nat
  deriving DecidableEq, Repr

/-- A proxy manager: `Start` has succeeded, it has open listeners. -/
structure Manager where
  id : Nat
  running : Bool
  listening : Bool
  deriving DecidableEq, Repr

/-- How `Start` of a proxy manager ends; a failed one may have opened listeners
before the one it failed at. -/
inductive StartResult
  | started
  | failed (opened : Bool)
  deriving DecidableEq, Repr

/-- What the system and the network answer during one connect. -/
structure Answers extends World where
  pmStart : StartResult
  gatewayListen : Bool

structure Sys where
  session : Session
  tun : Option Nat
  dev : Option Device
  pm : Option Manager
  /-- `browserGatewayStop`, which is set when `browserGateway` is. -/
  listener : Option Nat
  next : Nat
  created : List Resource
  closed : List Resource

namespace Sys

/-- The client before the first message. -/
def init : Sys :=
  { session := Session.init, tun := none, dev := none, pm := none, listener := none, next := 0,
    created := [], closed := [] }

/-- `browserGatewayStop`, if there is one. -/
def stopGateway (s : Sys) : Sys :=
  { s with
    listener := none
    closed := s.listener.toList.map (Resource.mk .listener) ++ s.closed }

/-- `pm.Stop`: only a running manager closes its listeners. -/
def stopManager (s : Sys) : Sys :=
  match s.pm with
  | none => s
  | some pm =>
    { s with
      pm := none
      closed := if pm.running ∨ ¬ pm.listening then ⟨.proxyManager, pm.id⟩ :: s.closed
        else s.closed }

/-- `dev.Close`, which closes the TUN of the device. -/
def closeDevice (s : Sys) : Sys :=
  match s.dev with
  | none => { s with tun := none }
  | some dev =>
    { s with
      dev := none
      tun := none
      closed := ⟨.device, dev.id⟩ :: ⟨.tun, dev.tun⟩ :: s.closed }

/-- `closeWgTunnel`. -/
def closeWgTunnel (s : Sys) : Sys :=
  s.stopGateway.stopManager.closeDevice

/-- `CreateTUN` or `CreateNetTUN`, and `NewDevice`. -/
def createDevice (s : Sys) : Sys :=
  { s with
    tun := some s.next
    dev := some { id := s.next + 1, tun := s.next }
    next := s.next + 2
    created := ⟨.tun, s.next⟩ :: ⟨.device, s.next + 1⟩ :: s.created }

/-- `NewProxyManager` and, later on, `Start`. -/
def createManager (s : Sys) (start : StartResult) : Sys :=
  { s with
    pm := some (match start with
      | .started => { id := s.next, running := true, listening := true }
      | .failed opened => { id := s.next, running := false, listening := opened })
    next := s.next + 1
    created := ⟨.proxyManager, s.next⟩ :: s.created }

/-- The gateway part of `handleConnect`, with `startBrowserGateway`. -/
def openGateway (s : Sys) (listen : Bool) : Sys :=
  if (s.session.wgData .browserGatewayTargets).len = 0 then s
  else
    let s := s.stopGateway
    if listen then
      { s with
        listener := some s.next
        next := s.next + 1
        created := ⟨.listener, s.next⟩ :: s.created }
    else s

/-- `handleConnect`, as far as these resources go; `none` where it panics or
the program ends. -/
def handleConnect (cfg : Settings) (s : Sys) (w : Answers) (msg : Json) : Option Sys :=
  let (session, course) := s.session.handleConnect cfg w.toWorld msg
  let closed := if s.session.connected then s.closeWgTunnel else s
  let s' : Sys := { closed with session := session }
  match course with
  | .discarded => some s
  | .undecodable | .noUTUN => some s'
  | .noTUN => some { s' with tun := none }
  | .panics => none
  | .badEndpoint => some s'.createDevice
  | .exits _ => none
  | .established _ => some ((s'.createDevice.createManager w.pmStart).openGateway w.gatewayListen)

/-- The messages that build or close the tunnel, and a registration, which sets
the pending chain ID. -/
inductive Event
  | connect (w : Answers) (msg : Json)
  | reconnect
  | terminate
  | register (chainId : String)

def step (cfg : Settings) (s : Sys) : Event → Option Sys
  | .connect w msg => s.handleConnect cfg w msg
  | .reconnect =>
    some { s.closeWgTunnel with session := { s.session with connected := false } }
  | .terminate =>
    some { s.closeWgTunnel with session := { s.session with connected := false } }
  | .register chainId =>
    some { s with session := { s.session with pendingRegisterChainId := chainId } }

/-- The resources the client has. -/
def current (s : Sys) : List Resource :=
  s.tun.toList.map (Resource.mk .tun) ++
    (s.dev.toList.map (fun d => Resource.mk .device d.id) ++
      (s.pm.toList.map (fun pm => Resource.mk .proxyManager pm.id) ++
        s.listener.toList.map (Resource.mk .listener)))

/-- Every resource made so far is the current one or closed. -/
def Owned (s : Sys) : Prop :=
  ∀ r ∈ s.created, r ∈ s.current ∨ r ∈ s.closed
  deriving Decidable

/-- The manager is not one whose `Start` failed with listeners open. -/
def Stoppable (s : Sys) : Prop :=
  ∀ pm ∈ s.pm, pm.running = true ∨ pm.listening = false
  deriving Decidable

/-- The endpoint splits and resolves. -/
def Resolves (w : World) (data : WgData) : Prop :=
  (HostPort.splitHostPort (data .endpoint).toList).isSome = true ∧
    (resolveDomain w.lookupIP (data .endpoint).toList).isSome = true
  deriving Decidable

/-- A TUN device can be had. -/
def HasTUN (cfg : Settings) (w : World) : Prop :=
  w.createTUN = true ∧
    (cfg.useNativeMainInterface = true → cfg.darwin = true → w.findUnusedUTUN = true)
  deriving Decidable

/-- The data can be used: on the netstack the tunnel IP and the DNS server are
addresses and the TUN can be made; a key that is read is base64. -/
def Usable (cfg : Settings) (w : World) (data : WgData) : Prop :=
  (cfg.useNativeMainInterface = false → (parseAddr (data .tunnelIP)).isSome = true ∧
    (parseAddr cfg.dns).isSome = true ∧ w.createTUN = true) ∧
  (HasTUN cfg w → Resolves w data → (fixKey (data .publicKey)).isSome = true)
  deriving Decidable

/-- What has to hold for a message to be handled without a loss. -/
def Careful (cfg : Settings) (s : Sys) : Event → Prop
  | .connect w msg => s.session.Discards msg ∨
      ((s.session.connected = true → s.Stoppable) ∧
        (wgData.fits msg = true → Usable cfg w.toWorld (s.session.wgData.unmarshal msg) ∧
          (s.session.connected = false → s.dev.isNone = true ∨
            (cfg.useNativeMainInterface = true ∧ cfg.darwin = true ∧ w.findUnusedUTUN = false))))
  | .reconnect | .terminate => s.Stoppable
  | .register _ => True

instance (cfg : Settings) (s : Sys) (e : Event) : Decidable (s.Careful cfg e) := by
  unfold Careful
  split <;> infer_instance

/-- No resource is in use, and all are closed. -/
structure Bare (s : Sys) : Prop where
  tun : s.tun = none
  dev : s.dev = none
  pm : s.pm = none
  listener : s.listener = none
  closed : ∀ r ∈ s.created, r ∈ s.closed

/-- The invariant: resources are owned, a client that is not connected has no
manager and no gateway, and it has the TUN of its device. -/
structure Sound (s : Sys) : Prop where
  owned : s.Owned
  idle : s.session.connected = false → s.pm = none ∧ s.listener = none
  tun : s.tun = s.dev.map Device.tun

theorem sound_init : init.Sound :=
  { owned := fun _ hr => (nomatch hr), idle := fun _ => ⟨rfl, rfl⟩, tun := rfl }

variable {s : Sys}

theorem Bare.sound (h : s.Bare) (session : Session) : Sound { s with session := session } where
  owned r hr := Or.inr (h.closed r hr)
  idle _ := ⟨h.pm, h.listener⟩
  tun := by rw [h.tun, h.dev]; rfl

theorem Sound.bare (h : s.Sound) (hidle : s.session.connected = false) (hdev : s.dev = none) :
    s.Bare where
  tun := by rw [h.tun, hdev]; rfl
  dev := hdev
  pm := (h.idle hidle).1
  listener := (h.idle hidle).2
  closed r hr := by
    refine (h.owned r hr).resolve_left ?_
    simp [current, h.tun, hdev, h.idle hidle]

theorem stopManager_parts (s : Sys) :
    s.stopManager.tun = s.tun ∧ s.stopManager.dev = s.dev ∧ s.stopManager.pm = none ∧
      s.stopManager.listener = s.listener ∧ s.stopManager.created = s.created := by
  unfold stopManager
  split
  · next hpm => exact ⟨rfl, rfl, hpm, rfl, rfl⟩
  · exact ⟨rfl, rfl, rfl, rfl, rfl⟩

theorem closed_stopManager (hstop : s.Stoppable) :
    s.stopManager.closed =
      s.pm.toList.map (fun pm => Resource.mk .proxyManager pm.id) ++ s.closed := by
  unfold stopManager
  split
  · next hpm => rw [hpm]; rfl
  · next pm hpm =>
    have hpm' : pm.running = true ∨ ¬ pm.listening = true := by simpa using hstop pm hpm
    rw [hpm, if_pos hpm']
    rfl

theorem closeDevice_parts (s : Sys) :
    s.closeDevice.tun = none ∧ s.closeDevice.dev = none ∧ s.closeDevice.pm = s.pm ∧
      s.closeDevice.listener = s.listener ∧ s.closeDevice.created = s.created ∧
      s.closeDevice.closed =
        s.dev.toList.flatMap (fun d => [⟨.device, d.id⟩, ⟨.tun, d.tun⟩]) ++ s.closed := by
  unfold closeDevice
  split
  · next hdev => exact ⟨rfl, hdev, rfl, rfl, rfl, by rw [hdev]; rfl⟩
  · next dev hdev => exact ⟨rfl, rfl, rfl, rfl, rfl, by rw [hdev]; rfl⟩

/-- `closeWgTunnel` leaves nothing open. -/
theorem Sound.bare_closeWgTunnel (h : s.Sound) (hstop : s.Stoppable) : s.closeWgTunnel.Bare := by
  obtain ⟨htun, hdev, hpm, hlistener, hcreated⟩ := stopManager_parts s.stopGateway
  obtain ⟨htun', hdev', hpm', hlistener', hcreated', hclosed'⟩ :=
    closeDevice_parts s.stopGateway.stopManager
  refine ⟨htun', hdev', hpm'.trans hpm, hlistener'.trans hlistener, fun r hr => ?_⟩
  have hstop' : s.stopGateway.Stoppable := hstop
  have hr' : r ∈ s.created := (hcreated'.trans hcreated) ▸ hr
  show r ∈ s.stopGateway.stopManager.closeDevice.closed
  rw [hclosed', closed_stopManager hstop', hdev]
  show r ∈ s.dev.toList.flatMap _ ++ (s.pm.toList.map _ ++
    (s.listener.toList.map (Resource.mk .listener) ++ s.closed))
  -- Each kind is closed by its own part; the TUN goes with the device.
  have howned := h.owned r hr'
  simp only [current, h.tun, mem_append] at howned ⊢
  cases hd : s.dev with
  | none =>
    simp only [hd, Option.map_none, toList_none, map_nil, flatMap_nil, not_mem_nil] at howned ⊢
    tauto
  | some d =>
    simp only [hd, Option.map_some, toList_some, map_cons, map_nil, flatMap_singleton, mem_cons,
      not_mem_nil] at howned ⊢
    tauto

/-- A device on bare ground. -/
theorem Bare.sound_createDevice (h : s.Bare) : s.createDevice.Sound where
  owned r hr := by
    simp only [createDevice, mem_cons] at hr
    rcases hr with rfl | rfl | hr
    · exact .inl (by simp [current, createDevice])
    · exact .inl (by simp [current, createDevice])
    · exact .inr (h.closed r hr)
  idle _ := ⟨h.pm, h.listener⟩
  tun := rfl

/-- What is added to the resources made, and to the current ones, keeps them
owned. -/
theorem Owned.grow {s' : Sys} (h : s.Owned) (hcur : ∀ r ∈ s.current, r ∈ s'.current ∨ r ∈ s'.closed)
    (hclosed : ∀ r ∈ s.closed, r ∈ s'.closed)
    (hcreated : ∀ r ∈ s'.created, r ∈ s'.current ∨ r ∈ s.created) : s'.Owned := by
  intro r hr
  rcases hcreated r hr with hr | hr
  · exact .inl hr
  · rcases h r hr with hr | hr
    · exact hcur r hr
    · exact .inr (hclosed r hr)

theorem Owned.createManager (h : s.Owned) (hpm : s.pm = none) (start : StartResult) :
    (s.createManager start).Owned := by
  refine h.grow (fun r hr => .inl ?_) (fun r hr => hr) (fun r hr => ?_)
  · simp only [current, hpm, toList_none, map_nil, not_mem_nil, mem_append] at hr ⊢
    tauto
  · rcases mem_cons.mp hr with rfl | hr
    · left
      cases start <;> simp [current, Sys.createManager]
    · exact .inr hr

theorem Owned.openGateway (h : s.Owned) (listen : Bool) : (s.openGateway listen).Owned := by
  unfold Sys.openGateway
  split
  · exact h
  · have hstop : s.stopGateway.Owned := by
      refine h.grow (fun r hr => ?_) (fun r hr => mem_append_right _ hr)
        (fun r hr => .inr hr)
      simp only [current, stopGateway, mem_append] at hr ⊢
      tauto
    split
    · refine hstop.grow (fun r hr => .inl ?_) (fun r hr => hr) (fun r hr => ?_)
      · simp only [current, stopGateway, toList_none, map_nil, not_mem_nil, mem_append] at hr ⊢
        tauto
      · rcases mem_cons.mp hr with rfl | hr
        · exact .inl (by simp [current])
        · exact .inr hr
    · exact hstop

theorem endpointCourse_ne_exits {w : World} {data : WgData}
    (h : Resolves w data → (fixKey (data .publicKey)).isSome = true) (r : Resolved) :
    endpointCourse w data ≠ .exits r := by
  unfold endpointCourse
  split
  · exact (nomatch ·)
  · next hp hsplit =>
    split
    · exact (nomatch ·)
    · next r' hr' =>
      have hkey := h ⟨by rw [hsplit]; rfl, by rw [hr']; rfl⟩
      obtain ⟨key, hkey⟩ := isSome_iff_exists.mp hkey
      rw [hkey, if_neg (by simp)]
      exact (nomatch ·)

theorem endpointCourse_ne_panics (w : World) (data : WgData) : endpointCourse w data ≠ .panics := by
  unfold endpointCourse
  split
  · exact (nomatch ·)
  · split
    · exact (nomatch ·)
    · split <;> exact (nomatch ·)

/-- Usable data neither makes a connect panic nor ends the program. -/
theorem Usable.returns {cfg : Settings} {w : World} {data : WgData} (h : Usable cfg w data) :
    course cfg w data ≠ .panics ∧ ∀ r, course cfg w data ≠ .exits r := by
  obtain ⟨hnet, hkey⟩ := h
  unfold course
  split_ifs with hnative hutun htun haddr htun
  · exact ⟨(nomatch ·), fun _ heq => (nomatch heq)⟩
  · refine ⟨endpointCourse_ne_panics w data, endpointCourse_ne_exits (hkey ⟨htun, ?_⟩)⟩
    intro _ hdarwin
    simpa [hdarwin] using hutun
  · exact ⟨(nomatch ·), fun _ heq => (nomatch heq)⟩
  · obtain ⟨htunnel, hdns, _⟩ := hnet (by simpa using hnative)
    rcases haddr with haddr | haddr
    · rw [isNone_iff_eq_none.mp haddr] at htunnel
      cases htunnel
    · rw [isNone_iff_eq_none.mp haddr] at hdns
      cases hdns
  · exact ⟨endpointCourse_ne_panics w data,
      endpointCourse_ne_exits (hkey ⟨htun, fun h => absurd h hnative⟩)⟩
  · exact absurd (hnet (by simpa using hnative)).2.2 htun

/-- The tunnel is not there when a connect has closed the old one, or found none. -/
theorem Sound.bare_of_careful (h : s.Sound) (hstop : s.session.connected = true → s.Stoppable)
    (hdev : s.session.connected = false → s.dev = none) :
    (if s.session.connected then s.closeWgTunnel else s).Bare := by
  cases hc : s.session.connected with
  | true => exact h.bare_closeWgTunnel (hstop hc)
  | false => exact h.bare hc (hdev hc)

/-- A connect that returns before it makes a device. -/
theorem Sound.returns_early (h : s.Sound) (hstop : s.session.connected = true → s.Stoppable)
    (session : Session) :
    Sound { (if s.session.connected then s.closeWgTunnel else s) with session := session } := by
  cases hc : s.session.connected with
  | true => exact (h.bare_closeWgTunnel (hstop hc)).sound session
  | false => exact { owned := h.owned, idle := fun _ => h.idle hc, tun := h.tun }

theorem Bare.withSession (h : s.Bare) (session : Session) : Bare { s with session := session } :=
  { tun := h.tun, dev := h.dev, pm := h.pm, listener := h.listener, closed := h.closed }

/-- A connect that runs to its end. -/
theorem Bare.sound_established (h : s.Bare) (hc : s.session.connected = true) (start : StartResult)
    (listen : Bool) : ((s.createDevice.createManager start).openGateway listen).Sound := by
  have howned : ((s.createDevice.createManager start).openGateway listen).Owned :=
    (h.sound_createDevice.owned.createManager h.pm start).openGateway listen
  have hparts : ((s.createDevice.createManager start).openGateway listen).session = s.session ∧
      ((s.createDevice.createManager start).openGateway listen).tun = some s.next ∧
      ((s.createDevice.createManager start).openGateway listen).dev =
        some { id := s.next + 1, tun := s.next } := by
    unfold openGateway
    split
    · exact ⟨rfl, rfl, rfl⟩
    · split <;> exact ⟨rfl, rfl, rfl⟩
  refine ⟨howned, fun hidle => ?_, ?_⟩
  · rw [hparts.1, hc] at hidle
    cases hidle
  · rw [hparts.2.1, hparts.2.2]
    rfl

/-- A connect to which the condition applies returns and keeps the invariant. -/
theorem Sound.handleConnect {cfg : Settings} {w : Answers} {msg : Json} (h : s.Sound)
    (hcare : s.Careful cfg (.connect w msg)) :
    ∃ s', s.handleConnect cfg w msg = some s' ∧ s'.Sound := by
  by_cases hd : s.session.Discards msg
  · refine ⟨s, ?_, h⟩
    unfold Sys.handleConnect Session.handleConnect
    rw [if_pos hd]
  · obtain ⟨hstop, hfit⟩ := hcare.resolve_left hd
    unfold Sys.handleConnect Session.handleConnect
    rw [if_neg hd]
    by_cases hfits : wgData.fits msg = true
    · obtain ⟨husable, hdev⟩ := hfit hfits
      have hcourse : s.session.courseOf cfg w.toWorld msg =
          course cfg w.toWorld (s.session.wgData.unmarshal msg) := if_pos hfits
      have hbare : s.session.courseOf cfg w.toWorld msg ≠ .noUTUN →
          (if s.session.connected then s.closeWgTunnel else s).Bare := by
        intro hne
        refine h.bare_of_careful hstop
          (fun hidle => isNone_iff_eq_none.mp ((hdev hidle).resolve_right ?_))
        intro ⟨hnative, hdarwin, hutun⟩
        apply hne
        rw [hcourse]
        unfold course
        rw [if_pos hnative, if_pos ⟨hdarwin, by simp [hutun]⟩]
      obtain ⟨hpanics, hexits⟩ := husable.returns
      rw [← hcourse] at hpanics hexits
      cases hc : s.session.courseOf cfg w.toWorld msg with
      | discarded => exact ⟨s, rfl, h⟩
      | undecodable | noUTUN => exact ⟨_, rfl, h.returns_early hstop _⟩
      | noTUN =>
        have hb := hbare (by rw [hc]; exact (nomatch ·))
        refine ⟨_, rfl, fun r hr => .inr (hb.closed r hr), fun _ => ⟨hb.pm, hb.listener⟩, ?_⟩
        rw [hb.dev]
        rfl
      | panics => exact absurd hc hpanics
      | badEndpoint =>
        have hb := hbare (by rw [hc]; exact (nomatch ·))
        exact ⟨_, rfl, (hb.withSession _).sound_createDevice⟩
      | exits r => exact absurd hc (hexits r)
      | established r =>
        have hb := hbare (by rw [hc]; exact (nomatch ·))
        exact ⟨_, rfl, (hb.withSession _).sound_established rfl _ _⟩
    · have hcourse : s.session.courseOf cfg w.toWorld msg = .undecodable := if_neg hfits
      rw [hcourse]
      exact ⟨_, rfl, h.returns_early hstop _⟩

theorem Sound.step {cfg : Settings} {e : Event} (h : s.Sound) (hcare : s.Careful cfg e) :
    ∃ s', s.step cfg e = some s' ∧ s'.Sound := by
  cases e with
  | connect w msg => exact h.handleConnect hcare
  | reconnect | terminate => exact ⟨_, rfl, (h.bare_closeWgTunnel hcare).sound _⟩
  | register chainId => exact ⟨_, rfl, h.owned, h.idle, h.tun⟩

/-- **Nothing is lost**: a run whose steps meet the condition is handled to its
end, and then every resource made so far is the current one or closed. -/
theorem resources_owned (cfg : Settings) (es : List Event)
    (hmeets : Runs.Meets (step cfg) (Careful cfg) init es) :
    ∃ s, Runs.run (step cfg) init es = some s ∧ s.Owned := by
  obtain ⟨s, hrun, hsound⟩ :=
    Runs.run_progress (fun _ _ hs hcare => hs.step hcare) sound_init hmeets
  exact ⟨s, hrun, hsound.owned⟩

/-- Everything works, and the resolver knows no name. -/
def allWorks : Answers :=
  { offline with pmStart := .started, gatewayListen := true }

/-- A connect message with a tunnel IP, an endpoint and a gateway target. -/
def connectMessage (tunnelIP endpoint : String) : Json :=
  .obj [("tunnelIP", .str tunnelIP), ("endpoint", .str endpoint),
    ("publicKey", .str "AAAAAAAAAAAAAAAAAAAAAAAAAAAAAAAAAAAAAAAAAAA="),
    ("browserGatewayTargets", .arr [.obj [("id", .num 1)]])]

/-- Two tunnels, a reconnect and a connect whose endpoint has no port. -/
def orderly : List Event :=
  [.connect allWorks (connectMessage "100.89.128.4" "203.0.113.5:51820"),
    .connect allWorks (connectMessage "100.89.128.4" "198.51.100.7:51820"), .reconnect,
    .connect allWorks (connectMessage "100.89.128.4" "198.51.100.7")]

theorem orderly_run_owned :
    ∃ s, Runs.run (step netstackOnly) init orderly = some s ∧ s.Owned := by
  have hmeets : Runs.Meets (step netstackOnly) (Careful netstackOnly) init orderly := by
    decide +kernel
  exact resources_owned netstackOnly orderly hmeets

/-- Two connects whose endpoints have no port: the first device is neither the
current one nor closed.  And a tunnel IP that is no address is a panic. -/
theorem failed_connects_lose_device :
    (∃ s, Runs.run (step netstackOnly) init
        [.connect allWorks (connectMessage "100.89.128.4" "203.0.113.5"),
          .connect allWorks (connectMessage "100.89.128.4" "203.0.113.5")] = some s ∧
      ⟨.device, 1⟩ ∈ s.created ∧ ¬ s.Owned) ∧
    step netstackOnly init
      (.connect allWorks (connectMessage "tunnel" "203.0.113.5:51820")) = none := by
  decide +kernel

end Sys

end Newt.Tunnel
