import Newt.ClientConfig
import Newt.Lib.Runs

/-!
# The resources of the clients' service

A configuration makes a TUN device, a WireGuard device on it and a tester server, and
on a netstack an SSH listener; each goes into the one field there is for it, whatever
the field holds.  `Close` closes what the fields hold; a WireGuard device closes its
TUN, and a netstack its proxy handler.

A netstack is its own TUN device.  `CreateNetTUNWithOptions` returns at the first
step that fails, without closing the stacks and the proxy handler it has made.  A
tester server that cannot listen has nothing to close.

The system records, for no step of the code to read, which resources were made and
which were closed.

* `client_resources_owned` — as long as a configuration makes resources only where
  there are none, every resource is the current one or closed, and `Close` leaves
  none open;
* `second_config_loses_resources` — a second configuration, whose device does not come up.
-/

namespace Newt.Clients

namespace Resources

open List Option

inductive Kind
  | tun
  | device
  | tester
  | ssh
  deriving DecidableEq, Repr

/-- A resource; the number tells those of one kind apart. -/
structure Resource where
  kind : Kind
  id : Nat
  deriving DecidableEq, Repr

/-- A WireGuard device and the TUN it was made on. -/
structure Device where
  id : Nat
  tun : Nat
  deriving DecidableEq, Repr

/-- The kind of interface, and whether there is a credential store. -/
structure Settings where
  useNativeInterface : Bool
  hasCredStore : Bool

/-- How far the interface gets, and whether the tester server and the SSH server can
listen. -/
structure Answers where
  creation : Creation
  testerListens : Bool
  sshListens : Bool
  deriving DecidableEq, Repr

structure Sys where
  pendingConfigChainId : String
  tun : Option Nat
  device : Option Device
  /-- The socket of `wgTesterServer`. -/
  tester : Option Nat
  sshServer : Option Nat
  next : Nat
  created : List Resource
  closed : List Resource

namespace Sys

def init : Sys :=
  { pendingConfigChainId := "", tun := none, device := none, tester := none, sshServer := none
    next := 0, created := [], closed := [] }

/-- `CreateNetTUNWithOptions` fails: `s.tun` and `s.tnet` become nil. -/
def failNetTUN (s : Sys) : Sys :=
  { s with tun := none, next := s.next + 1, created := ⟨.tun, s.next⟩ :: s.created }

/-- `CreateTUN` or `CreateNetTUNWithOptions`, and `NewDevice`. -/
def createDevice (s : Sys) : Sys :=
  { s with
    tun := some s.next
    device := some { id := s.next + 1, tun := s.next }
    next := s.next + 2
    created := ⟨.tun, s.next⟩ :: ⟨.device, s.next + 1⟩ :: s.created }

/-- A new tester server and its `Start`. -/
def startTester (s : Sys) (listens : Bool) : Sys :=
  if listens then
    { s with
      tester := some s.next
      next := s.next + 1
      created := ⟨.tester, s.next⟩ :: s.created }
  else { s with tester := none }

/-- `startSSHOnNetstack`; if it fails, the field stays. -/
def startSSH (s : Sys) (listens : Bool) : Sys :=
  if listens then
    { s with
      sshServer := some s.next
      next := s.next + 1
      created := ⟨.ssh, s.next⟩ :: s.created }
  else s

/-- `ensureWireguardInterface` with an address; `none` where the program ends.  The
UAPI socket and the address of the interface are for native interfaces only. -/
def ensureWireguardInterface (cfg : Settings) (s : Sys) (w : Answers) : Option Sys :=
  if cfg.useNativeInterface then
    match w.creation with
    | .noUTUN => some s
    | .noTUN => some { s with tun := none }
    | .noUAPI => none
    | .notConfigured | .notUp | .noAddress => some s.createDevice
    | .created => some (s.createDevice.startTester w.testerListens)
  else
    match w.creation with
    | .noUTUN | .noTUN => some s.failNetTUN
    | .notConfigured | .notUp => some s.createDevice
    | .noUAPI | .noAddress | .created =>
      let s := s.createDevice.startTester w.testerListens
      some (if cfg.hasCredStore then s.startSSH w.sshListens else s)

/-- `handleConfig`, as far as these resources go. -/
def handleConfig (cfg : Settings) (s : Sys) (w : Answers) (config : WgConfig) : Option Sys :=
  match acceptConfig s.pendingConfigChainId config with
  | none => some s
  | some pending =>
    let s := { s with pendingConfigChainId := pending }
    match normalizeInterfaceAddress config.ipAddress with
    | none => some s
    | some _ => s.ensureWireguardInterface cfg w

/-- `Close`. -/
def close (s : Sys) : Sys :=
  { s with
    sshServer := none
    device := none
    tun := none
    tester := none
    closed := s.sshServer.toList.map (Resource.mk .ssh) ++
      (s.device.toList.flatMap (fun d => [⟨.device, d.id⟩, ⟨.tun, d.tun⟩]) ++
        (s.tester.toList.map (Resource.mk .tester) ++ s.closed)) }

end Sys

/-- A request for a configuration, and a message with one. -/
inductive Event
  | loadRemoteConfig (chainId : String)
  | receiveConfig (w : Answers) (config : WgConfig)
  deriving DecidableEq, Repr

namespace Sys

def step (cfg : Settings) (s : Sys) : Event → Option Sys
  | .loadRemoteConfig chainId => some { s with pendingConfigChainId := chainId }
  | .receiveConfig w config => s.handleConfig cfg w config

/-- The resources the service has. -/
def current (s : Sys) : List Resource :=
  s.tun.toList.map (Resource.mk .tun) ++
    (s.device.toList.map (fun d => Resource.mk .device d.id) ++
      (s.tester.toList.map (Resource.mk .tester) ++ s.sshServer.toList.map (Resource.mk .ssh)))

/-- Every resource made so far is the current one or closed. -/
def Owned (s : Sys) : Prop :=
  ∀ r ∈ s.created, r ∈ s.current ∨ r ∈ s.closed
  deriving Decidable

end Sys

/-- A configuration makes nothing: it is discarded, has no usable address, or, for a
native interface, there is no unused utun. -/
def MakesNothing (cfg : Settings) (s : Sys) (w : Answers) (config : WgConfig) : Prop :=
  acceptConfig s.pendingConfigChainId config = none ∨
    normalizeInterfaceAddress config.ipAddress = none ∨
    cfg.useNativeInterface = true ∧ w.creation = .noUTUN
  deriving Decidable

/-- The condition on a message: a configuration makes nothing, or there is no device
yet and a netstack can be made. -/
def MakesFirst (cfg : Settings) (s : Sys) : Event → Prop
  | .loadRemoteConfig _ => True
  | .receiveConfig w config =>
    MakesNothing cfg s w config ∨
      s.device = none ∧
        (cfg.useNativeInterface = true ∨ w.creation ≠ .noTUN ∧ w.creation ≠ .noUTUN)

instance (cfg : Settings) (s : Sys) : DecidablePred (MakesFirst cfg s)
  | .loadRemoteConfig _ => inferInstanceAs (Decidable True)
  | .receiveConfig _ _ => instDecidableOr

/-- The invariant of runs: without a device there is nothing. -/
structure Sound (s : Sys) : Prop where
  owned : s.Owned
  tun : s.tun = s.device.map Device.tun
  bare : s.device = none → s.tester = none ∧ s.sshServer = none

theorem sound_init : Sound Sys.init where
  owned _ hr := absurd hr not_mem_nil
  tun := rfl
  bare _ := ⟨rfl, rfl⟩

section Step

variable {cfg : Settings} {s s' : Sys}

/-- A resource comes to the current ones. -/
theorem owned_cons (h : s.Owned) {r : Resource} (hcreated : s'.created = r :: s.created)
    (hr : r ∈ s'.current) (hcurrent : ∀ x ∈ s.current, x ∈ s'.current)
    (hclosed : s'.closed = s.closed) : s'.Owned := by
  intro x hx
  rw [hcreated] at hx
  rcases mem_cons.mp hx with rfl | hx
  · exact .inl hr
  · rw [hclosed]
    exact (h x hx).imp_left (hcurrent x)

variable (h : Sound s)

include h

/-- Without a device everything that was made is closed. -/
theorem Sound.closed_of_bare (hdev : s.device = none) : ∀ r ∈ s.created, r ∈ s.closed := by
  obtain ⟨htester, hssh⟩ := h.bare hdev
  have htun : s.tun = none := by rw [h.tun, hdev]; rfl
  intro r hr
  refine (h.owned r hr).resolve_left ?_
  unfold Sys.current
  rw [htun, hdev, htester, hssh]
  exact not_mem_nil

/-- The first device. -/
theorem Sound.createDevice (hdev : s.device = none) : Sound s.createDevice where
  owned := by
    exact forall_mem_cons.mpr ⟨.inl mem_cons_self, forall_mem_cons.mpr
      ⟨.inl (mem_cons_of_mem _ mem_cons_self), fun r hr => .inr (h.closed_of_bare hdev r hr)⟩⟩
  tun := rfl
  bare hnone := by cases hnone

theorem Sound.startTester (hdev : s.device.isSome = true) (htester : s.tester = none)
    (listens : Bool) : Sound (s.startTester listens) := by
  have hbare : ∀ {p : Prop}, s.device = none → p := by
    intro p hnone
    rw [hnone] at hdev
    cases hdev
  unfold Sys.startTester
  split
  · refine ⟨owned_cons h.owned rfl ?_ ?_ rfl, h.tun, hbare⟩
    · simp [Sys.current]
    · intro x hx
      simp only [Sys.current, htester, toList_none, map_nil, nil_append, mem_append] at hx ⊢
      tauto
  · refine ⟨?_, h.tun, hbare⟩
    rw [show ({ s with tester := none } : Sys) = s by rw [← htester]]
    exact h.owned

theorem Sound.startSSH (hdev : s.device.isSome = true) (hssh : s.sshServer = none)
    (listens : Bool) : Sound (s.startSSH listens) := by
  unfold Sys.startSSH
  split
  · refine ⟨owned_cons h.owned rfl ?_ ?_ rfl, h.tun, ?_⟩
    · simp [Sys.current]
    · intro x hx
      simp only [Sys.current, hssh, toList_none, map_nil, append_nil, mem_append] at hx ⊢
      tauto
    · intro hnone
      rw [show s.device = none from hnone] at hdev
      cases hdev
  · exact h

/-- The tester server of a new device, and the SSH server. -/
theorem Sound.startServers (hdev : s.device = none) (w : Answers) (ssh : Bool) :
    Sound (s.createDevice.startTester w.testerListens) ∧
      Sound (if ssh then (s.createDevice.startTester w.testerListens).startSSH w.sshListens
        else s.createDevice.startTester w.testerListens) := by
  obtain ⟨htester, hssh⟩ := h.bare hdev
  have hstarted : Sound (s.createDevice.startTester w.testerListens) :=
    (h.createDevice hdev).startTester rfl htester _
  refine ⟨hstarted, ?_⟩
  split
  · refine hstarted.startSSH ?_ ?_ _
    · unfold Sys.startTester
      split <;> rfl
    · unfold Sys.startTester
      split <;> exact hssh
  · exact hstarted

/-- The interface of a service that has no device. -/
theorem Sound.ensureWireguardInterface (hdev : s.device = none) {w : Answers}
    (hmake : cfg.useNativeInterface = true ∨ w.creation ≠ .noTUN ∧ w.creation ≠ .noUTUN)
    (hstep : s.ensureWireguardInterface cfg w = some s') : Sound s' := by
  unfold Sys.ensureWireguardInterface at hstep
  split at hstep
  · split at hstep <;> cases hstep
    · exact h
    · have htun : s.tun = none := by rw [h.tun, hdev]; rfl
      rw [show ({ s with tun := none } : Sys) = s by rw [← htun]]
      exact h
    · exact h.createDevice hdev
    · exact h.createDevice hdev
    · exact h.createDevice hdev
    · exact (h.startServers hdev w false).1
  · next hnative =>
    obtain ⟨hnoTUN, hnoUTUN⟩ := hmake.resolve_left hnative
    split at hstep
    · next hcreation => exact absurd hcreation hnoUTUN
    · next hcreation => exact absurd hcreation hnoTUN
    · cases hstep
      exact h.createDevice hdev
    · cases hstep
      exact h.createDevice hdev
    all_goals
      cases hstep
      exact (h.startServers hdev w cfg.hasCredStore).2

/-- **Every message** that meets the condition. -/
theorem Sound.step {e : Event} (hcond : MakesFirst cfg s e) (hstep : s.step cfg e = some s') :
    Sound s' := by
  cases e with
  | loadRemoteConfig chainId =>
    cases hstep
    exact ⟨h.owned, h.tun, h.bare⟩
  | receiveConfig w config =>
    unfold Sys.step Sys.handleConfig at hstep
    dsimp only at hstep
    split at hstep
    · cases hstep
      exact h
    · next pending haccept =>
      have hpending : Sound { s with pendingConfigChainId := pending } :=
        ⟨h.owned, h.tun, h.bare⟩
      split at hstep
      · cases hstep
        exact hpending
      · next p hp =>
        rcases hcond with (hnone | hnone | ⟨hnative, hcreation⟩) | ⟨hdev, hmake⟩
        · rw [haccept] at hnone
          cases hnone
        · rw [hp] at hnone
          cases hnone
        · unfold Sys.ensureWireguardInterface at hstep
          rw [if_pos hnative, hcreation] at hstep
          cases hstep
          exact hpending
        · exact hpending.ensureWireguardInterface hdev hmake hstep

/-- `Close` closes what is current. -/
theorem Sound.close_closed : ∀ r ∈ s.close.created, r ∈ s.close.closed := by
  intro r hr
  unfold Sys.close
  simp only [mem_append, mem_flatMap]
  rcases h.owned r hr with hcurrent | hclosed
  · unfold Sys.current at hcurrent
    rw [h.tun] at hcurrent
    simp only [mem_append] at hcurrent
    rcases hcurrent with htun | hdev | htester | hssh
    · obtain ⟨n, hn, rfl⟩ := mem_map.mp htun
      obtain ⟨d, hd, rfl⟩ := map_eq_some_iff.mp (mem_toList.mp hn)
      exact .inr (.inl ⟨d, mem_toList.mpr hd, by simp⟩)
    · obtain ⟨d, hd, rfl⟩ := mem_map.mp hdev
      exact .inr (.inl ⟨d, hd, mem_cons_self⟩)
    · exact .inr (.inr (.inl htester))
    · exact .inl hssh
  · exact .inr (.inr (.inr hclosed))

end Step

/-- **Ownership of the resources.**  In runs of messages that meet the condition every
resource ever made is the current one or closed, and `Close` leaves none open. -/
theorem client_resources_owned (cfg : Settings) (es : List Event) (s : Sys)
    (hmeets : Runs.Meets (Sys.step cfg) (MakesFirst cfg) Sys.init es)
    (hrun : Runs.run (Sys.step cfg) Sys.init es = some s) :
    s.Owned ∧ s.close.current = [] ∧ ∀ r ∈ s.close.created, r ∈ s.close.closed := by
  have hsound : Sound s :=
    Runs.run_invariant (fun h hcond hstep => Sound.step h hcond hstep) sound_init hmeets hrun
  exact ⟨hsound.owned, rfl, hsound.close_closed⟩

/-- A netstack with SSH. -/
def netstackSettings : Settings := { useNativeInterface := false, hasCredStore := true }

def created : Answers := { creation := .created, testerListens := true, sshListens := true }

def config (address : String) : WgConfig := { ipAddress := address }

/-- A configuration without a usable address, one that can be used, and an answer to
a request that is not the pending one. -/
def oneConfig : List Event :=
  [.receiveConfig created (config "clients"), .receiveConfig created (config "100.64.0.1/24"),
    .loadRemoteConfig "b", .receiveConfig created { config "100.64.0.1/24" with chainId := "a" }]

theorem oneConfig_owned :
    ∃ s, Runs.run (Sys.step netstackSettings) Sys.init oneConfig = some s ∧
      s.created.length = 4 ∧ s.Owned ∧ ∀ r ∈ s.close.created, r ∈ s.close.closed := by
  have hmeets : Runs.Meets (Sys.step netstackSettings) (MakesFirst netstackSettings) Sys.init
      oneConfig := by
    decide +kernel
  simp only [← and_assoc]
  refine Exists.imp (fun s h => ⟨⟨h, (client_resources_owned _ _ s hmeets h.1).1⟩,
    (client_resources_owned _ _ s hmeets h.1).2.2⟩) ?_
  decide +kernel

/-- Two configurations.  The first `Up` has given a reference of the shared bind back, so
the second finds the bind closed. -/
def twoConfigs : List Event :=
  [.receiveConfig created (config "100.64.0.1/24"),
    .receiveConfig { created with creation := .notUp } (config "100.64.0.1/24")]

/-- **A second configuration** overwrites the fields: the first device and its netstack are
neither current nor closed, and `Close` leaves them open. -/
theorem second_config_loses_resources :
    ∃ s, Runs.run (Sys.step netstackSettings) Sys.init twoConfigs = some s ∧
      (∀ r ∈ [⟨.tun, 0⟩, ⟨.device, 1⟩],
        r ∈ s.created ∧ r ∉ s.current ∧ r ∉ s.closed ∧ r ∉ s.close.closed) ∧ ¬s.Owned := by
  decide +kernel

end Resources

end Newt.Clients
