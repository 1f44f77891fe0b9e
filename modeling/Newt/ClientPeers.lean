import Mathlib.Data.List.Dedup
import Newt.ClientConfig
import Newt.Lib.Runs
import Newt.Lib.Text
import Newt.Lib.WireGuardPeers

/-!
# Peers of the clients

The server sends the peers of the clients' WireGuard device: all of them with the
configuration and with a sync, single ones with `newt/wg/peer/add`, `update` and
`remove`.  Each message becomes set operations of the device.  A sync compares the
keys on the device with those it is given, in the order of Go's maps.

Only messages whose set operations succeed are steps.  The system keeps, for no
step of the code to read, the peers the server asks for: `desired` has for each key
the networks and the endpoint that were last requested.  Endpoints that the device
learns from packets are not part of the model.

`KeepsPeers` is the condition under which a message keeps the device on what is
asked for.
-/

namespace Newt.Clients

open Netip WireGuard PeerTable Function

/-- `wgtypes.ParseKey`. -/
def parsePublicKey (s : String) : Option Key :=
  (Text.base64Decode s.toList).filter (fun key => key.length = 32)

namespace Peers

abbrev Endpoint := Addr × Nat

/-- What stays the same while the service runs: the public key of its own key, the
values the device accepts in lines about other things, and the kind of interface. -/
structure Client where
  own : Key
  accepts : List Char → List Char → Bool
  useNativeInterface : Bool

/-- The device and the shared bind, whose `ParseEndpoint` is `ParseAddrPort`. -/
def Client.host (c : Client) : Host Endpoint :=
  { own := c.own, accepts := c.accepts, parseEndpoint := parseAddrPort }

def keepaliveLine : List Char :=
  field "persistent_keepalive_interval".toList "25".toList

/-- An endpoint, if one is given. -/
def givenEndpoint (endpoint : String) : Option (List Char) :=
  if endpoint = "" then none else some endpoint.toList

def addText (key : Key) (peer : Peer) : List Char :=
  ['\n'].intercalate (Host.addLines key (peer.allowedIPs.map String.toList)
    (givenEndpoint peer.endpoint) keepaliveLine)

def removeText (key : Key) : List Char :=
  ['\n'].intercalate (Host.removeLines key)

/-- `UpdatePeerRequest`, with whether the message has a field of just the name
`endpoint`; decoding does not mind the case of a name. -/
structure UpdatePeerRequest where
  publicKey : String
  allowedIPs : Option (List String)
  endpoint : String
  endpointSpecified : Bool
  deriving DecidableEq, Repr

/-- The endpoint line of an update; no endpoint is `0.0.0.0:0`. -/
def UpdatePeerRequest.endpointValue (request : UpdatePeerRequest) : Option (List Char) :=
  if request.endpointSpecified then
    some (if request.endpoint ≠ "" then request.endpoint.toList else "0.0.0.0:0".toList)
  else none

def updateText (key : Key) (request : UpdatePeerRequest) : List Char :=
  ['\n'].intercalate (Host.updateLines key ((request.allowedIPs.getD []).map String.toList)
    request.endpointValue keepaliveLine)

namespace Client

variable (c : Client)

/-- `addPeerToDevice`: whether the key could be parsed; `none` where a set
operation fails. -/
def addPeerToDevice (d : PeerTable Endpoint) (peer : Peer) : Option (PeerTable Endpoint × Bool) :=
  match parsePublicKey peer.publicKey with
  | none => some (d, false)
  | some key => (c.host.ipcSet d (addText key peer)).map (fun d => (d, true))

/-- `removePeer`. -/
def removePeer (d : PeerTable Endpoint) (publicKey : String) : Option (PeerTable Endpoint) :=
  match parsePublicKey publicKey with
  | none => some d
  | some key => c.host.ipcSet d (removeText key)

/-- A loop that removes peers by their keys. -/
def removeKeys (d : PeerTable Endpoint) : List Key → Option (PeerTable Endpoint)
  | [] => some d
  | key :: keys =>
    match c.host.ipcSet d (removeText key) with
    | none => none
    | some d => removeKeys d keys

/-- The loop of `ensureWireguardPeers` that adds peers: a key that cannot be parsed
ends it. -/
def addPeers (d : PeerTable Endpoint) : List Peer → Option (PeerTable Endpoint)
  | [] => some d
  | peer :: peers =>
    match c.addPeerToDevice d peer with
    | none => none
    | some (d, false) => some d
    | some (d, true) => addPeers d peers

/-- `ensureWireguardPeers`. -/
def ensureWireguardPeers (d : PeerTable Endpoint) (peers : List Peer) :
    Option (PeerTable Endpoint) :=
  match c.removeKeys d d.keys with
  | none => none
  | some d => c.addPeers d peers

/-- `handleUpdatePeer`. -/
def handleUpdatePeer (d : PeerTable Endpoint) (request : UpdatePeerRequest) :
    Option (PeerTable Endpoint) :=
  match parsePublicKey request.publicKey with
  | none => some d
  | some key => c.host.ipcSet d (updateText key request)

end Client

/-- A peer enters `desiredPeerMap`, unless its key cannot be parsed. -/
def putPeer (m : Key → Option Peer) (peer : Peer) : Key → Option Peer :=
  match parsePublicKey peer.publicKey with
  | none => m
  | some key => update m key (some peer)

/-- `desiredPeerMap` of `syncPeers`. -/
def desiredPeerMap (peers : List Peer) : Key → Option Peer :=
  peers.foldl putPeer (fun _ => none)

/-- Its keys. -/
def desiredKeys (peers : List Peer) : List Key :=
  (peers.filterMap (fun peer => parsePublicKey peer.publicKey)).dedup

namespace Client

variable (c : Client)

/-- The loop of `syncPeers` that adds what is missing, in the order of the map. -/
def addMissing (desired : Key → Option Peer) (d : PeerTable Endpoint) :
    List Key → Option (PeerTable Endpoint)
  | [] => some d
  | key :: keys =>
    match desired key with
    | none => addMissing desired d keys
    | some peer =>
      match c.addPeerToDevice d peer with
      | none => none
      | some (d, _) => addMissing desired d keys

/-- `syncPeers`, with the orders in which the two maps are visited. -/
def syncPeers (d : PeerTable Endpoint) (peers : List Peer) (removeOrder addOrder : List Key) :
    Option (PeerTable Endpoint) :=
  if removeOrder.Perm (d.keys.filter (fun k => (desiredPeerMap peers k).isNone)) ∧
      addOrder.Perm ((desiredKeys peers).filter (· ∉ d.keys)) then
    match c.removeKeys d removeOrder with
    | none => none
    | some d => c.addMissing (desiredPeerMap peers) d addOrder
  else none

end Client

/-- What a peer of a message should have. -/
def wanted (peer : Peer) : Wanted Endpoint :=
  { allowed := peer.allowedIPs.filterMap (fun s => network s.toList)
    endpoint := (givenEndpoint peer.endpoint).bind parseAddrPort }

/-- The peers a list asks for. -/
def desiredPeers (peers : List Peer) : PeerMap Endpoint :=
  fun key => (desiredPeerMap peers key).map wanted

/-- What a peer should have after an update: what is not given stays. -/
def UpdatePeerRequest.wanted (request : UpdatePeerRequest) (v : Wanted Endpoint) :
    Wanted Endpoint :=
  { allowed := match request.allowedIPs with
      | none => v.allowed
      | some ips => ips.filterMap (fun s => network s.toList)
    endpoint :=
      if request.endpoint ≠ "" then parseAddrPort request.endpoint.toList
      else if request.endpointSpecified then none
      else v.endpoint }

structure Sys where
  pendingConfigChainId : String
  device : Option (PeerTable Endpoint)
  desired : PeerMap Endpoint

/-- The messages; `none` is one that cannot be decoded. -/
inductive Event
  | loadRemoteConfig (chainId : String)
  | receiveConfig (creation : Creation) (config : Option WgConfig)
  | addPeer (peer : Option Peer)
  | updatePeer (request : Option UpdatePeerRequest)
  | removePeer (publicKey : Option String)
  | sync (peers : Option (List Peer)) (removeOrder addOrder : List Key)
  deriving DecidableEq, Repr

/-- The device after `ensureWireguardInterface`, and whether it succeeds; `none`
where the program ends or the private key is not accepted. -/
def createdDevice (useNativeInterface : Bool) (device : Option (PeerTable Endpoint))
    (config : WgConfig) (creation : Creation) : Option (Option (PeerTable Endpoint) × Bool) :=
  match normalizeInterfaceAddress config.ipAddress with
  | none => some (device, false)
  | some _ =>
    match creation with
    | .noUTUN | .noTUN => some (device, false)
    | .noUAPI => if useNativeInterface then none else some (some empty, true)
    | .notConfigured => none
    | .notUp => some (some empty, false)
    | .noAddress => some (some empty, !useNativeInterface)
    | .created => some (some empty, true)

namespace Client

variable (c : Client)

/-- `handleConfig`, as far as peers go. -/
def handleConfig (s : Sys) (creation : Creation) (config : WgConfig) : Option Sys :=
  match acceptConfig s.pendingConfigChainId config with
  | none => some s
  | some pending =>
    let s := { s with pendingConfigChainId := pending, desired := desiredPeers config.peers }
    match createdDevice c.useNativeInterface s.device config creation with
    | none => none
    | some (device, false) => some { s with device := device }
    | some (none, true) => some s
    | some (some d, true) =>
      match c.ensureWireguardPeers d config.peers with
      | none => none
      | some d => some { s with device := some d }

/-- A handler that changes the device, if there is one. -/
def onDevice (s : Sys) (f : PeerTable Endpoint → Option (PeerTable Endpoint)) : Option Sys :=
  match s.device with
  | none => some s
  | some d => (f d).map (fun d => { s with device := some d })

def step (s : Sys) : Event → Option Sys
  | .loadRemoteConfig chainId => some { s with pendingConfigChainId := chainId }
  | .receiveConfig creation (some config) => c.handleConfig s creation config
  | .addPeer (some peer) =>
    onDevice
      { s with
        desired := match parsePublicKey peer.publicKey with
          | none => s.desired
          | some key => update s.desired key (some (wanted peer)) }
      (fun d => (c.addPeerToDevice d peer).map Prod.fst)
  | .updatePeer (some request) =>
    onDevice
      { s with
        desired := match parsePublicKey request.publicKey with
          | none => s.desired
          | some key => update s.desired key ((s.desired key).map request.wanted) }
      (fun d => c.handleUpdatePeer d request)
  | .removePeer (some publicKey) =>
    onDevice
      { s with
        desired := match parsePublicKey publicKey with
          | none => s.desired
          | some key => update s.desired key none }
      (fun d => c.removePeer d publicKey)
  | .sync (some peers) removeOrder addOrder =>
    onDevice { s with desired := desiredPeers peers }
      (fun d => c.syncPeers d peers removeOrder addOrder)
  | .receiveConfig _ none | .addPeer none | .updatePeer none | .removePeer none
  | .sync none _ _ => some s

end Client

namespace Sys

def init : Sys :=
  { pendingConfigChainId := "", device := none, desired := fun _ => none }

/-- The device has exactly the peers that are asked for. -/
def Follows (s : Sys) : Prop :=
  ∀ d ∈ s.device, Agrees d s.desired

end Sys

/-- A peer of a message: a key that can be parsed and is not the device's own, and
texts without line ends. -/
def Usable (c : Client) (peer : Peer) : Prop :=
  (parsePublicKey peer.publicKey).isSome = true ∧ parsePublicKey peer.publicKey ≠ some c.own ∧
    (∀ s ∈ peer.allowedIPs, OneLine s.toList) ∧ OneLine peer.endpoint.toList
  deriving Decidable

/-- Two peers with different keys and no network in common. -/
def Apart (a b : Peer) : Prop :=
  parsePublicKey a.publicKey ≠ parsePublicKey b.publicKey ∧
    ∀ p ∈ (wanted a).allowed, p ∉ (wanted b).allowed
  deriving Decidable

/-- A list of usable peers that are apart. -/
def WellFormed (c : Client) (peers : List Peer) : Prop :=
  (∀ peer ∈ peers, Usable c peer) ∧ peers.Pairwise Apart
  deriving Decidable

/-- No network that is asked for belongs to another peer. -/
def Unowned (d : PeerTable Endpoint) (key : Key) (nets : List Prefix) : Prop :=
  ∀ p ∈ nets, d.owner p = none ∨ d.owner p = some key
  deriving Decidable

/-- What a peer should have includes what it should have had. -/
def Extends (v w : Wanted Endpoint) : Prop :=
  v.allowed ⊆ w.allowed ∧ (w.endpoint = none → v.endpoint = none)
  deriving Decidable

/-- A peer should have what it should have had. -/
def Unchanged (v w : Wanted Endpoint) : Prop :=
  w.endpoint = v.endpoint ∧ (∀ p ∈ w.allowed, p ∈ v.allowed) ∧ ∀ p ∈ v.allowed, p ∈ w.allowed
  deriving Decidable

/-- An update that can be followed: it is not about the device's own key, its texts
have no line ends, it gives at least one network if it gives any, an endpoint is
given under the name `endpoint` and is not taken away, and no network belongs to
another peer. -/
def Updates (c : Client) (d : PeerTable Endpoint) (key : Key) (request : UpdatePeerRequest) :
    Prop :=
  key ≠ c.own ∧ (∀ s ∈ request.allowedIPs.getD [], OneLine s.toList) ∧
    OneLine request.endpoint.toList ∧ request.allowedIPs ≠ some [] ∧
    (request.endpointSpecified = true ↔ request.endpoint ≠ "") ∧
    Unowned d key ((request.allowedIPs.getD []).filterMap (fun s => network s.toList))

instance (c : Client) (d : PeerTable Endpoint) (key : Key) (request : UpdatePeerRequest) :
    Decidable (Updates c d key request) :=
  instDecidableAnd

/-- The condition on a message. -/
def KeepsPeers (c : Client) (s : Sys) : Event → Prop
  | .receiveConfig creation (some config) =>
    (acceptConfig s.pendingConfigChainId config).isSome = true →
      (normalizeInterfaceAddress config.ipAddress).isSome = true ∧
        creation.succeeds c.useNativeInterface = true ∧ WellFormed c config.peers
  | .addPeer (some peer) =>
    ∀ d ∈ s.device, ∀ key ∈ parsePublicKey peer.publicKey,
      Usable c peer ∧ Unowned d key (wanted peer).allowed ∧
        ∀ v ∈ s.desired key, Extends v (wanted peer)
  | .updatePeer (some request) =>
    ∀ d ∈ s.device, ∀ key ∈ parsePublicKey request.publicKey, Updates c d key request
  | .removePeer (some publicKey) => parsePublicKey publicKey ≠ some c.own
  | .sync (some peers) _ _ =>
    s.device.isSome = true → WellFormed c peers ∧
      ∀ peer ∈ peers, ∀ key ∈ parsePublicKey peer.publicKey, ∀ v ∈ s.desired key,
        Unchanged v (wanted peer)
  | .loadRemoteConfig _ | .receiveConfig _ none | .addPeer none | .updatePeer none
  | .removePeer none | .sync none _ _ => True

instance (c : Client) (s : Sys) (e : Event) : Decidable (KeepsPeers c s e) := by
  unfold KeepsPeers
  split <;> infer_instance

end Peers

end Newt.Clients
