import Newt.Connect
import Newt.Lib.Runs
import Newt.Lib.WireGuardIpc

/-!
# Remote exit node subnets

The server tells the client which subnets lie behind the main tunnel: a connect
brings a list, `newt/wg/subnets/add`, `update` and `remove` change it, and a sync
replaces it.  The client keeps the strings in `activeRemoteSubnets`, allows the
networks to the main peer of its WireGuard device, and, if the main interface is
native, installs routes for them.

The device takes its lines as `WireGuardIpc` has it; a string with a line end in
it makes more than one line.  Routes are those of the main interface: adding one
that is there and removing one that is not are errors, which are logged only,
and they are gone when the interface is.

The messages about subnets and the sync message are decoded into variables of
their own; here they are the decoded list, or `none` if they cannot be decoded.
The system also keeps, for no step of the code to read, the networks the server
asks for.
-/

namespace Newt.Subnets

open Connect JsonDecode Netip WireGuard

/-- What stays the same while the program runs: its settings, its keys, and the
values the device accepts in lines that are not about allowed IPs. -/
structure Client where
  cfg : Settings
  own : Key
  privateKey : Key
  privateKey_length : privateKey.length = 32
  accepts : List Char → List Char → Bool

/-- The network of a subnet string, as the device allows it. -/
def subnetNetwork (subnet : String) : Option Prefix :=
  network subnet.toList

/-- The network of a subnet string, as it is routed: `AddRoutes` trims it and
reads it with `net.ParseCIDR`. -/
def routeNetwork (subnet : String) : Option Prefix :=
  parseCIDR (Text.trimSpace subnet.toList)

/-- One iteration of `AddRoutes`. -/
def addRoute (routes : List Prefix) (subnet : String) : List Prefix :=
  match routeNetwork subnet with
  | none => routes
  | some p => if p ∈ routes then routes else p :: routes

/-- `network.AddRoutes`. -/
def addRoutes (routes : List Prefix) (subnets : List String) : List Prefix :=
  subnets.foldl addRoute routes

/-- One iteration of `RemoveRoutes`. -/
def removeRoute (routes : List Prefix) (subnet : String) : List Prefix :=
  match routeNetwork subnet with
  | none => routes
  | some p => routes.filter (· ≠ p)

/-- `network.RemoveRoutes`. -/
def removeRoutes (routes : List Prefix) (subnets : List String) : List Prefix :=
  subnets.foldl removeRoute routes

/-- Lines of a set operation. -/
def ipcText (lines : List (List Char)) : List Char :=
  ['\n'].intercalate lines

def addText (key : Key) (subnet : String) : List Char :=
  ipcText (publicKeyLine key :: [subnet.toList].map allowedLine)

def replaceText (key : Key) (server : String) (subnets : List String) : List Char :=
  ipcText (publicKeyLine key :: replaceLine ::
    (server.toList :: subnets.map String.toList).map allowedLine)

def endpointLine (endpoint : List Char) : List Char :=
  field "endpoint".toList endpoint

def keepaliveLine : List Char :=
  "persistent_keepalive_interval=5".toList

/-- `wgConfig` of `handleConnect`. -/
def connectText (privateKey key : Key) (server : String) (endpoint : List Char) : List Char :=
  ipcText (privateKeyLine privateKey :: publicKeyLine key :: allowedLine server.toList ::
    [endpointLine endpoint, keepaliveLine])

structure Sys where
  session : Session
  dev : Option Device
  activeRemoteSubnets : List String
  routes : List Prefix
  desired : List Prefix

/-- The networks of a list of subnets. -/
def networks (subnets : List String) : List Prefix :=
  subnets.filterMap subnetNetwork

namespace Sys

/-- The client before the first message. -/
def init : Sys :=
  { session := Session.init, dev := none, activeRemoteSubnets := [], routes := [], desired := [] }

/-- `util.FixKey` of the public key. -/
def peerKey (s : Sys) : Option Key :=
  fixKey (s.session.wgData .publicKey)

/-- The server IP with the length of a host route. -/
def serverRoute (s : Sys) : String :=
  s.session.wgData .serverIP ++ "/32"

end Sys

namespace Client

variable (c : Client)

/-- `closeWgTunnel`, as far as the device, the routes and the subnets go. -/
def closeWgTunnel (s : Sys) : Sys :=
  let s := if c.cfg.useNativeMainInterface then
      { s with
        routes := removeRoutes s.routes
          ((if s.session.wgData .serverIP = "" then [] else [s.serverRoute]) ++
            s.activeRemoteSubnets)
        activeRemoteSubnets := [] }
    else s
  -- The interface goes with the device, and its routes with it.
  match s.dev with
  | none => s
  | some _ => { s with dev := none, routes := [] }

/-- The loop that allows subnets one by one. -/
def allowSubnets (key : Key) (subnets : List String) (d : Device) : Device :=
  subnets.foldl (fun d subnet => ipcSet c.own c.accepts d (addText key subnet)) d

/-- `handleConnect`, as far as the subnets go; `none` where the program ends. -/
def handleConnect (s : Sys) (w : World) (msg : Json) : Option Sys :=
  let (session, course) := s.session.handleConnect c.cfg w msg
  let closed := if s.session.connected then c.closeWgTunnel s else s
  let fresh := networks (WgData.fresh msg .remoteExitNodeSubnets).toList
  let s' : Sys := { closed with session := session, desired := fresh }
  match course with
  | .discarded => some s
  | .undecodable => some { closed with session := session }
  | .noUTUN | .noTUN => some s'
  | .panics => none
  | .badEndpoint => some { s' with dev := some ⟨[], []⟩, routes := [] }
  | .exits _ => none
  | .established r =>
    match s'.peerKey with
    | none => none
    | some key =>
      let d := ipcSet c.own c.accepts ⟨[], []⟩
        (connectText c.privateKey key s'.serverRoute r.text)
      let subnets := (session.wgData .remoteExitNodeSubnets).toList
      some { s' with
             dev := some (c.allowSubnets key subnets d)
             routes := if c.cfg.useNativeMainInterface then
                 addRoutes (addRoutes [] [s'.serverRoute]) subnets
               else []
             activeRemoteSubnets := subnets }

/-- The handler of `newt/wg/subnets/add`. -/
def handleAdd (s : Sys) (subnets : List String) : Option Sys :=
  let s' : Sys := { s with desired := s.desired ++ networks subnets }
  match s.dev with
  | none => some s'
  | some d =>
    if subnets = [] then some s'
    else
      match s.peerKey with
      | none => none
      | some key =>
        some { s' with
               dev := some (c.allowSubnets key subnets d)
               routes := if c.cfg.useNativeMainInterface then addRoutes s.routes subnets
                 else s.routes
               activeRemoteSubnets := s.activeRemoteSubnets ++ subnets }

/-- The set operation that replaces the allowed IPs; none without a public key. -/
def replaceAllowed (s : Sys) (subnets : List String) : Option (Option Device) :=
  match s.dev with
  | none => some none
  | some d =>
    if s.session.wgData .publicKey = "" then some (some d)
    else
      match s.peerKey with
      | none => none
      | some key =>
        some (some (ipcSet c.own c.accepts d (replaceText key s.serverRoute subnets)))

/-- `updateRemoteExitNodeSubnets`. -/
def updateRemoteExitNodeSubnets (s : Sys) (subnets : List String) : Option Sys :=
  let native := c.cfg.useNativeMainInterface
  let active := s.activeRemoteSubnets
  let routes := if native ∧ active ≠ [] then
      removeRoutes s.routes (active.filter (· ∉ subnets))
    else s.routes
  match c.replaceAllowed s subnets with
  | none => none
  | some dev =>
    some { s with
           dev := dev
           routes := if native ∧ subnets ≠ [] then addRoutes routes (subnets.filter (· ∉ active))
             else routes
           activeRemoteSubnets := subnets }

/-- The handler of `newt/wg/subnets/update`. -/
def handleUpdate (s : Sys) (subnets : List String) : Option Sys :=
  let s' : Sys := { s with desired := networks subnets }
  match s.dev with
  | none => some s'
  | some _ => c.updateRemoteExitNodeSubnets s' subnets

/-- The part of `handleSync` about subnets.  There is a proxy manager exactly
while the client is connected. -/
def handleSync (s : Sys) (subnets : List String) : Option Sys :=
  if s.session.wgData .tunnelIP = "" ∨ s.session.connected = false then
    some { s with desired := networks subnets }
  else c.handleUpdate s subnets

/-- The handler of `newt/wg/subnets/remove`. -/
def handleRemove (s : Sys) (subnets : List String) : Option Sys :=
  let s' : Sys := { s with desired := s.desired.filter (· ∉ networks subnets) }
  if subnets = [] then some s'
  else
    let remaining := s.activeRemoteSubnets.filter (· ∉ subnets)
    match c.replaceAllowed s remaining with
    | none => none
    | some dev =>
      some { s' with
             dev := dev
             routes := if c.cfg.useNativeMainInterface then removeRoutes s.routes subnets
               else s.routes
             activeRemoteSubnets := remaining }

end Client

/-- The messages; `none` is a message that cannot be decoded. -/
inductive Event
  | connect (w : World) (msg : Json)
  | add (subnets : Option (List String))
  | update (subnets : Option (List String))
  | remove (subnets : Option (List String))
  | sync (subnets : Option (List String))
  | register (chainId : String)

namespace Client

def step (c : Client) (s : Sys) : Event → Option Sys
  | .connect w msg => c.handleConnect s w msg
  | .add (some subnets) => c.handleAdd s subnets
  | .update (some subnets) => c.handleUpdate s subnets
  | .remove (some subnets) => c.handleRemove s subnets
  | .sync (some subnets) => c.handleSync s subnets
  | .add none | .update none | .remove none | .sync none => some s
  | .register chainId =>
    some { s with session := { s.session with pendingRegisterChainId := chainId } }

end Client

end Newt.Subnets
