import Newt.ConnectMessage
import Newt.Lib.AddressText
import Newt.Lib.HostPort
import Newt.Lib.Text

/-!
# How far a connect gets

`handleConnect` is one long function that builds the main tunnel.  Whatever a
message says, it takes one of a few courses: the message is discarded because
of its chain ID, or it cannot be decoded, or there is no TUN device, or the
endpoint does not split or resolve; the function then returns.  It panics where
`netip.MustParseAddr` gets no address or `device.NewDevice` no TUN, and it ends
the program where `util.FixKey` gets no base64.  Otherwise it runs to its end.

This module has what decides the course: `util.ResolveDomain`, `util.FixKey`
and the beginning of `handleConnect`, with the fields of the client that all
its parts share.  What a connect does to the hole punch manager, the health
monitor, the tunnel's resources and its routes is in modules of their own, each
a function of the course.

The system and the network are parameters of one call: whether the TUN device
and, on darwin, a free `utun` can be had, and what the resolver answers.
-/

namespace Newt.Connect

open JsonDecode Netip Text

/-- The part of the program's configuration a connect reads. -/
structure Settings where
  useNativeMainInterface : Bool
  darwin : Bool
  dns : String
  deriving DecidableEq, Repr

/-- What the system and the network answer during one connect. -/
structure World where
  findUnusedUTUN : Bool
  createTUN : Bool
  lookupIP : List Char → Option (List Addr)

/-- The result of `util.ResolveDomain`: an address and the port, empty if the
endpoint has none. -/
structure Resolved where
  ipAddr : List Char
  port : List Char
  deriving DecidableEq, Repr

/-- The string `util.ResolveDomain` returns. -/
def Resolved.text (r : Resolved) : List Char :=
  if r.port = [] then r.ipAddr else HostPort.joinHostPort r.ipAddr r.port

/-- `net.ParseIP`: an address without a zone. -/
def parseIP (s : List Char) : Option Addr :=
  match parseAddr (String.ofList s) with
  | some (.v6 x zone) => if zone = "" then some (.v6 x zone) else none
  | a => a

/-- The first IPv4 address, or the first address. -/
def preferred (ips : List Addr) : Option (List Char) :=
  match ips.find? (fun ip => ip.as4.isSome) with
  | some ip => some (formatIP ip)
  | none => ips.head?.map formatIP

/-- `util.ResolveDomain`. -/
def resolveDomain (lookupIP : List Char → Option (List Addr)) (domain : List Char) :
    Option Resolved :=
  let domain := trimSpace domain
  let domain := trimPrefix "http://".toList domain
  let domain := trimPrefix "https://".toList domain
  let domain := trimSuffix "/".toList domain
  let (host, port) := (HostPort.splitHostPort domain).getD (domain, [])
  let cleanHost := trimPrefix "[".toList (trimSuffix "]".toList host)
  match parseIP cleanHost with
  | some ip => some { ipAddr := formatIP ip, port := port }
  | none =>
    match lookupIP host with
    | none => none
    | some ips => (preferred ips).map (fun ipAddr => { ipAddr := ipAddr, port := port })

/-- `util.FixKey`, as the bytes it prints in hexadecimal; `none` is the end of
the program (`logger.Fatal`). -/
def fixKey (key : String) : Option (List UInt8) :=
  base64Decode (trimSpace key.toList)

/-- The ways through `handleConnect`. -/
inductive Course
  | discarded
  | undecodable
  | noUTUN
  | noTUN
  | panics
  | badEndpoint
  | exits (resolved : Resolved)
  | established (resolved : Resolved)
  deriving DecidableEq, Repr

/-- The course after the device was created. -/
def endpointCourse (w : World) (data : WgData) : Course :=
  match HostPort.splitHostPort (data .endpoint).toList with
  | none => .badEndpoint
  | some _ =>
    match resolveDomain w.lookupIP (data .endpoint).toList with
    | none => .badEndpoint
    | some r => if (fixKey (data .publicKey)).isNone then .exits r else .established r

/-- The course of a connect whose message was decoded into `data`. -/
def course (cfg : Settings) (w : World) (data : WgData) : Course :=
  if cfg.useNativeMainInterface then
    if cfg.darwin ∧ ¬ w.findUnusedUTUN then .noUTUN
    else if ¬ w.createTUN then .noTUN
    else endpointCourse w data
  else if (parseAddr (data .tunnelIP)).isNone ∨ (parseAddr cfg.dns).isNone then .panics
  -- The error of `CreateNetTUN` is logged only; `NewDevice` then gets a nil TUN.
  else if ¬ w.createTUN then .panics
  else endpointCourse w data

/-- The fields of the client that every part of a connect depends on. -/
structure Session where
  pendingRegisterChainId : String
  connected : Bool
  wgData : WgData

namespace Session

/-- The client before the first message. -/
def init : Session :=
  { pendingRegisterChainId := "", connected := false, wgData := Connect.wgData.zero }

/-- The message carries a chain ID other than the pending one. -/
def Discards (s : Session) (msg : Json) : Prop :=
  chainId msg ≠ "" ∧ chainId msg ≠ s.pendingRegisterChainId
  deriving Decidable

/-- The course of a message that is not discarded. -/
def courseOf (cfg : Settings) (w : World) (s : Session) (msg : Json) : Course :=
  if Connect.wgData.fits msg then course cfg w (s.wgData.unmarshal msg) else .undecodable

/-- `handleConnect`, as far as these fields go, and the course it takes. -/
def handleConnect (cfg : Settings) (w : World) (s : Session) (msg : Json) : Session × Course :=
  if s.Discards msg then (s, .discarded)
  else
    let c := s.courseOf cfg w msg
    ({ pendingRegisterChainId := if chainId msg = "" then s.pendingRegisterChainId else ""
       connected := match c with
         | .established _ => true
         | _ => false
       wgData := s.wgData.unmarshal msg }, c)

end Session

/-- A client in netstack mode. -/
def netstackOnly : Settings :=
  { useNativeMainInterface := false, darwin := false, dns := "9.9.9.9" }

/-- A TUN can be made, and the resolver knows no name. -/
def offline : World :=
  { findUnusedUTUN := true, createTUN := true, lookupIP := fun _ => none }

/-- A connect message with these further members. -/
def connectWith (members : List (String × Json)) : Json :=
  .obj ([("endpoint", .str "203.0.113.5:51820"), ("tunnelIP", .str "100.89.128.4"),
    ("publicKey", .str "AAAAAAAAAAAAAAAAAAAAAAAAAAAAAAAAAAAAAAAAAAA=")] ++ members)

end Newt.Connect
