import Newt.Lib.AddressText
import Newt.SubnetLookup

/-!
# The configuration of the clients' service

What `newt/wg/receive-config` brings: the address of the interface, the peers,
the targets and the certificates, with the chain id of the request it answers.
A message is given as what it decodes to, `none` if it cannot be decoded.

`Creation` is how far `ensureWireguardInterface` gets once it has an address.
-/

namespace Newt

open Netip

namespace Clients

structure CertPair where
  cert : String
  key : String
  deriving DecidableEq, Repr

structure CertData where
  id : String
  cert : String
  key : String
  deriving DecidableEq, Repr

structure Target where
  sourcePrefix : String := ""
  sourcePrefixes : List String := []
  destPrefix : String
  rewriteTo : String := ""
  disableIcmp : Bool := false
  portRange : List PortRange := []
  resourceId : Int := 0
  protocol : String := ""
  httpTargets : List HTTPTarget := []
  tlsCert : String := ""
  tlsKey : String := ""
  tlsCertID : String := ""
  deriving DecidableEq, Repr

structure Peer where
  publicKey : String
  allowedIPs : List String
  endpoint : String
  deriving DecidableEq, Repr

structure WgConfig where
  ipAddress : String
  peers : List Peer := []
  targets : List Target := []
  certs : List CertData := []
  chainId : String := ""
  deriving DecidableEq, Repr

/-- The duplicate check of `handleConfig`: the chain id that is still pending
afterwards, or `none` if the message is discarded. -/
def acceptConfig (pendingConfigChainId : String) (config : WgConfig) : Option String :=
  if config.chainId = "" then some pendingConfigChainId
  else if config.chainId = pendingConfigChainId then some ""
  else none

/-- `normalizeInterfaceAddress`: the prefix whose text it returns; its address is
the tunnel IP. -/
def normalizeInterfaceAddress (raw : String) : Option Prefix :=
  match parsePrefix raw with
  | some p => some p
  | none => (parseAddr raw).bind hostPrefix

/-- How far the creation of an interface gets. -/
inductive Creation
  /-- No unused utun (native interface on darwin). -/
  | noUTUN
  /-- No TUN device, or no netstack. -/
  | noTUN
  /-- A native interface whose UAPI socket cannot be listened on: the program
  ends. -/
  | noUAPI
  /-- The private key is not accepted. -/
  | notConfigured
  | notUp
  /-- A native interface that cannot be given its address. -/
  | noAddress
  | created
  deriving DecidableEq, Repr

/-- `ensureWireguardInterface` returns without an error; the UAPI socket and the
address are for native interfaces only. -/
def Creation.succeeds (useNativeInterface : Bool) : Creation → Bool
  | .created => true
  | .noUAPI | .noAddress => !useNativeInterface
  | .noUTUN | .noTUN | .notConfigured | .notUp => false

end Clients

end Newt
