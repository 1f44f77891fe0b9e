import Newt.LayeredConfig

/-!
# The port of the client interface

`loadNewtConfig` makes a `uint16` of the port text, `NewWireGuardService` takes 0 for no
port and lets `FindAvailableUDPPort` choose one, and the tester server listens on the
port after it.

Which ports are in use, what the random source draws and whether the socket of the
service can be opened are parameters.  The ports the search has tried are kept.
-/

namespace Newt.ClientPort

open LayeredConfig Option Array

/-- The port of a service, and the ports `FindAvailableUDPPort` has tried for it. -/
structure Service where
  port : UInt16
  tried : List UInt16
deriving DecidableEq

section Find

variable (intN : Nat → Nat) (inUse : UInt16 → Bool)

/-- The ports of the range but the last one. -/
def portRange (minPort maxPort : UInt16) : Array UInt16 :=
  (range (maxPort - 1 - minPort + 1).toNat).map (fun i => minPort + UInt16.ofNat i)

/-- The Fisher-Yates shuffle from a place down; `intN i` is the draw at place `i`. -/
def shuffle : Nat → Array UInt16 → Array UInt16
  | 0, ports => ports
  | i + 1, ports => shuffle i (ports.swapIfInBounds (i + 1) (intN (i + 1) % (i + 2)))

/-- The ports that are tried, and the first that is free. -/
def tryPorts : List UInt16 → List UInt16 × Option UInt16
  | [] => ([], none)
  | port :: rest =>
    if inUse port then (port :: (tryPorts rest).1, (tryPorts rest).2) else ([port], some port)

def findAvailableUDPPort (minPort maxPort : UInt16) : Option Service :=
  if maxPort < minPort then none
  -- The last port is left out for the tester server, and never tried.
  else if maxPort - 1 < minPort then none
  else
    let ports := portRange minPort maxPort
    let r := tryPorts inUse (shuffle intN (ports.size - 1) ports).toList
    r.2.map (fun port => ⟨port, r.1⟩)

/-- `NewWireGuardService`, as far as its port is concerned. -/
def newWireGuardService (listenUDP : UInt16 → Bool) (port : UInt16) : Option Service :=
  (if port = 0 then findAvailableUDPPort intN inUse 49152 65535 else some ⟨port, []⟩).filter
    (fun s => listenUDP s.port)

end Find

/-- The port of the tester server. -/
def newServer (serverPort : UInt16) : UInt16 :=
  serverPort + 1

/-- The number of a port text, if it is one of a port. -/
def configured (text : String) : Option Int :=
  (Text.atoi text.toList).filter (fun n => 1 ≤ n ∧ n ≤ 65535)

/-- The port was tried and is free. -/
def Service.CheckedFree (s : Service) (inUse : UInt16 → Bool) (port : UInt16) : Prop :=
  port ∈ s.tried ∧ inUse port = false

/-- What a port text asks for. -/
structure Service.Follows (s : Service) (inUse : UInt16 → Bool) (text : String) : Prop where
  port : ∀ n ∈ configured text, (s.port.toNat : Int) = n
  tester : (newServer s.port).toNat = s.port.toNat + 1
  checked : configured text = none →
    s.CheckedFree inUse s.port ∧ s.CheckedFree inUse (newServer s.port)

section Search

variable {intN : Nat → Nat} {inUse : UInt16 → Bool} {listenUDP : UInt16 → Bool} {s : Service}

theorem shuffle_perm (i : Nat) (ports : Array UInt16) : (shuffle intN i ports).Perm ports := by
  induction i generalizing ports with
  | zero => exact .rfl
  | succ i ih =>
    refine (ih _).trans ?_
    unfold swapIfInBounds
    split
    · split
      · exact swap_perm _ _
      · exact .rfl
    · exact .rfl

theorem mem_portRange {port : UInt16} (h : port ∈ portRange 49152 65535) :
    49152 ≤ port.toNat ∧ port.toNat ≤ 65534 := by
  obtain ⟨i, hi, rfl⟩ := mem_map.mp h
  have hlt : i < 16383 := mem_range.mp hi
  have hmin : (49152 : UInt16).toNat = 49152 := rfl
  rw [UInt16.toNat_add, UInt16.toNat_ofNat', hmin]
  omega

/-- The search stops at the first port that is free. -/
theorem tryPorts_eq {ports : List UInt16} {port : UInt16}
    (h : (tryPorts inUse ports).2 = some port) :
    port ∈ ports ∧ port ∈ (tryPorts inUse ports).1 ∧ inUse port = false ∧
      ∀ p ∈ (tryPorts inUse ports).1, inUse p = false → p = port := by
  induction ports with
  | nil => cases h
  | cons p ports ih =>
    rw [tryPorts] at h ⊢
    split at h
    · next hp =>
      rw [if_pos hp]
      obtain ⟨hmem, htried, hfree, honly⟩ := ih h
      refine ⟨List.mem_cons_of_mem _ hmem, List.mem_cons_of_mem _ htried, hfree, ?_⟩
      refine List.forall_mem_cons.mpr ⟨fun hfree => ?_, honly⟩
      rw [hp] at hfree
      cases hfree
    · next hp =>
      cases h
      rw [if_neg hp]
      exact ⟨List.mem_cons_self, List.mem_singleton_self _, Bool.eq_false_iff.mpr hp,
        fun q hq _ => List.mem_singleton.mp hq⟩

/-- Of the ports that were tried the one that is returned is the only free one. -/
theorem findAvailableUDPPort_eq {minPort maxPort : UInt16}
    (h : findAvailableUDPPort intN inUse minPort maxPort = some s) :
    s.port ∈ portRange minPort maxPort ∧ s.CheckedFree inUse s.port ∧
      ∀ p, s.CheckedFree inUse p → p = s.port := by
  unfold findAvailableUDPPort at h
  split at h
  · cases h
  · split at h
    · cases h
    · obtain ⟨p, hp, rfl⟩ := map_eq_some_iff.mp h
      obtain ⟨hmem, htried, hfree, honly⟩ := tryPorts_eq hp
      have hrange := (shuffle_perm _ _).mem_iff.mp (mem_toList_iff.mp hmem)
      exact ⟨hrange, ⟨htried, hfree⟩, fun q hq => honly q hq.1 hq.2⟩

theorem newWireGuardService_cases {port : UInt16}
    (h : newWireGuardService intN inUse listenUDP port = some s) :
    (port ≠ 0 ∧ s = ⟨port, []⟩) ∨
      (port = 0 ∧ findAvailableUDPPort intN inUse 49152 65535 = some s) := by
  obtain ⟨h, -⟩ := filter_eq_some_iff.mp h
  split at h
  · next hzero => exact Or.inr ⟨hzero, h⟩
  · next hport => exact Or.inl ⟨hport, (some.inj h).symm⟩

end Search

/-- The port text of the layers decides the port. -/
theorem port_of_loadNewtConfig {parseDuration : String → Option Int} {l : Layers} {cfg : Config}
    {c : Settings} (hload : loadNewtConfig parseDuration l = some cfg)
    (hc : effective l = some c) :
    cfg.port = (((Text.atoi (c.parsed .port).toList).getD 0) % 65536).toNat := by
  rw [effective_eq] at hc
  obtain ⟨fs, hread, rfl⟩ := map_eq_some_iff.mp hc
  rw [loadNewtConfig, hread, bind_some] at hload
  obtain ⟨mtu, -, rfl⟩ := map_eq_some_iff.mp hload
  -- The fallback for the PKCS12 file does not touch the port.
  unfold Settings.applyLegacy
  split <;> rfl

/-- **The ports of the client interface.**  For all layers of the configuration, all
ports in use and all draws, the service and its tester server have the ports the text
asks for exactly if the text is a number from 1 to 65534.  Without a port the one that is
chosen is free and followed by another port, which was not checked. -/
theorem service_follows_port_iff (parseDuration : String → Option Int) (l : Layers)
    (cfg : Config) (c : Settings) (intN : Nat → Nat) (inUse listenUDP : UInt16 → Bool)
    (s : Service) (hload : loadNewtConfig parseDuration l = some cfg)
    (hc : effective l = some c)
    (hs : newWireGuardService intN inUse listenUDP (.ofNat cfg.port) = some s) :
    (s.Follows inUse (c.parsed .port) ↔ ∃ n ∈ configured (c.parsed .port), n ≤ 65534) ∧
      (cfg.port = 0 → s.CheckedFree inUse s.port ∧ 49152 ≤ s.port.toNat ∧
        (newServer s.port).toNat = s.port.toNat + 1 ∧
        ¬ s.CheckedFree inUse (newServer s.port)) := by
  have hcases := newWireGuardService_cases hs
  have htester : (newServer s.port).toNat = (s.port.toNat + 1) % 2 ^ 16 := UInt16.toNat_add _ _
  -- The port after the one of the service was never found to be free.
  have hunchecked : ¬ s.CheckedFree inUse (newServer s.port) := by
    intro hfree
    rcases hcases with ⟨-, rfl⟩ | ⟨-, hfind⟩
    · cases hfree.1
    · rw [(findAvailableUDPPort_eq hfind).2.2 _ hfree] at htester
      omega
  have hport := port_of_loadNewtConfig hload hc
  refine ⟨⟨fun h => ?_, ?_⟩, fun hzero => ?_⟩
  · cases hn : configured (c.parsed .port) with
    | none => exact absurd (h.checked hn).2 hunchecked
    | some n =>
      have hp := h.port n hn
      have ht := h.tester
      exact ⟨n, rfl, by omega⟩
  · rintro ⟨n, hn, hle⟩
    obtain ⟨hatoi, hrange⟩ := filter_eq_some_iff.mp hn
    obtain ⟨hpos, -⟩ := of_decide_eq_true hrange
    rw [hatoi, getD_some] at hport
    have hcfg : (UInt16.ofNat cfg.port).toNat = n.toNat := by
      rw [UInt16.toNat_ofNat']
      omega
    rcases hcases with ⟨-, hs⟩ | ⟨hzero, -⟩
    · have hservice : s.port.toNat = n.toNat := by rw [hs, hcfg]
      refine ⟨fun m hm => ?_, by omega, fun hnone => ?_⟩
      · cases hn.symm.trans hm
        omega
      · cases hn.symm.trans hnone
    · rw [hzero] at hcfg
      have hnat : 0 = n.toNat := hcfg
      omega
  · rcases hcases with ⟨hne, -⟩ | ⟨-, hfind⟩
    · rw [hzero] at hne
      exact absurd rfl hne
    · obtain ⟨hmem, hfree, -⟩ := findAvailableUDPPort_eq hfind
      obtain ⟨hle, hge⟩ := mem_portRange hmem
      exact ⟨hfree, hle, by omega, hunchecked⟩

/-- A port on the command line. -/
def withPort (text : String) : Layers :=
  { file := .missing, env := fun _ => "", args := [("port", text)], configPath := "config.json" }

/-- The service of a configuration when every port is free. -/
def serviceOf (cfg : Config) : Option Service :=
  newWireGuardService id (fun _ => false) (fun _ => true) (.ofNat cfg.port)

theorem service_follows_port_51820 :
    ∃ cfg c s, loadNewtConfig (fun _ => none) (withPort "51820") = some cfg ∧
      effective (withPort "51820") = some c ∧ serviceOf cfg = some s ∧ s.port = 51820 ∧
      s.Follows (fun _ => false) (c.parsed .port) := by
  obtain ⟨cfg, hcfg, hs⟩ : ∃ cfg, loadNewtConfig (fun _ => none) (withPort "51820") = some cfg ∧
      serviceOf cfg = some ⟨51820, []⟩ := by decide +kernel
  obtain ⟨c, hc, hn⟩ : ∃ c, effective (withPort "51820") = some c ∧
      configured (c.parsed .port) = some 51820 := by decide +kernel
  refine ⟨cfg, c, _, hcfg, hc, hs, rfl, ?_⟩
  exact (service_follows_port_iff _ _ cfg c _ _ _ _ hcfg hc hs).1.mpr ⟨51820, hn, by decide⟩

/-- **Numbers that are no ports.**  Port 70000 becomes port 4464, and port 65535 gives the
tester server port 0. -/
theorem port_wraps :
    (∃ cfg, loadNewtConfig (fun _ => none) (withPort "70000") = some cfg ∧
      serviceOf cfg = some ⟨4464, []⟩ ∧
      ¬ Service.Follows ⟨4464, []⟩ (fun _ => false) "70000") ∧
    ∃ cfg, loadNewtConfig (fun _ => none) (withPort "65535") = some cfg ∧
      serviceOf cfg = some ⟨65535, []⟩ ∧ newServer 65535 = 0 ∧
      ¬ Service.Follows ⟨65535, []⟩ (fun _ => false) "65535" := by
  simp only [← and_assoc]
  constructor
  · refine Exists.imp (fun cfg hcfg => ⟨hcfg, fun h => ?_⟩) (by decide +kernel)
    exact absurd (h.checked (by decide)).1.1 List.not_mem_nil
  · refine Exists.imp (fun cfg hcfg => ⟨hcfg, fun h => ?_⟩)
      (by simp only [and_assoc]; decide +kernel)
    exact absurd h.tester (by decide)

end Newt.ClientPort
