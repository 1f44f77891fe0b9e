import Newt.Lib.JsonDecode

/-!
# The data of a connect message

`newt/wg/connect` is decoded into `n.wgData`, which lives as long as the
program: `WgData`, with the target lists, the health check targets, the browser
gateway targets and the remote exit node subnets.  Each struct is given by its
fields, their names in the message and their types; `WgData.unmarshal` is
`json.Unmarshal` into the data that is there, and `WgData.fresh` what the
message says by itself.

The chain ID is decoded with the rest but nothing reads it from `n.wgData`; it
is not part of what is observed of the data.
-/

namespace Newt.Connect

open JsonDecode

def string : Decoder String String :=
  .scalar "" Json.readString

def bool : Decoder Bool Bool :=
  .scalar false Json.readBool

def int : Decoder Int Int :=
  .scalar 0 (Json.readInt (-9223372036854775808) 9223372036854775807)

def uint16 : Decoder Int Int :=
  .scalar 0 (Json.readInt 0 65535)

/-- The fields of `healthcheck.Config`. -/
inductive ConfigField
  | id
  | enabled
  | path
  | scheme
  | mode
  | hostname
  | port
  | interval
  | unhealthyInterval
  | timeout
  | followRedirects
  | headers
  | method
  | status
  | tlsServerName
  | healthyThreshold
  | unhealthyThreshold
  deriving DecidableEq, Repr

namespace ConfigField

def all : List ConfigField :=
  [id, enabled, path, scheme, mode, hostname, port, interval, unhealthyInterval, timeout,
    followRedirects, headers, method, status, tlsServerName, healthyThreshold, unhealthyThreshold]

def name : ConfigField → String
  | id => "id"
  | enabled => "hcEnabled"
  | path => "hcPath"
  | scheme => "hcScheme"
  | mode => "hcMode"
  | hostname => "hcHostname"
  | port => "hcPort"
  | interval => "hcInterval"
  | unhealthyInterval => "hcUnhealthyInterval"
  | timeout => "hcTimeout"
  | followRedirects => "hcFollowRedirects"
  | headers => "hcHeaders"
  | method => "hcMethod"
  | status => "hcStatus"
  | tlsServerName => "hcTlsServerName"
  | healthyThreshold => "hcHealthyThreshold"
  | unhealthyThreshold => "hcUnhealthyThreshold"

@[reducible] def Value : ConfigField → Type
  | enabled => Bool
  | path | scheme | mode | hostname | method | tlsServerName => String
  | followRedirects => Option Bool
  | headers => Finmap (fun _ : String => String)
  | id | port | interval | unhealthyInterval | timeout | status | healthyThreshold
  | unhealthyThreshold => Int

def decoder : ∀ f : ConfigField, Decoder f.Value f.Value
  | enabled => bool
  | path | scheme | mode | hostname | method | tlsServerName => string
  | followRedirects => .optional false Json.readBool
  | headers => .mapOf "" Json.readString
  | id | port | interval | unhealthyInterval | timeout | status | healthyThreshold
  | unhealthyThreshold => int

theorem mem_all (f : ConfigField) : f ∈ all := by cases f <;> decide

end ConfigField

/-- `healthcheck.Config`. -/
abbrev Config := ∀ f : ConfigField, f.Value

def config : Decoder Config Config :=
  .record ConfigField.name ConfigField.decoder ConfigField.mem_all

/-- The fields of `BrowserGatewayTarget`. -/
inductive GatewayField
  | id
  | type
  | destination
  | destinationPort
  | authToken
  deriving DecidableEq, Repr

namespace GatewayField

def all : List GatewayField :=
  [id, type, destination, destinationPort, authToken]

def name : GatewayField → String
  | id => "id"
  | type => "type"
  | destination => "destination"
  | destinationPort => "destinationPort"
  | authToken => "authToken"

@[reducible] def Value : GatewayField → Type
  | id | destinationPort => Int
  | type | destination | authToken => String

def decoder : ∀ f : GatewayField, Decoder f.Value f.Value
  | id | destinationPort => int
  | type | destination | authToken => string

theorem mem_all (f : GatewayField) : f ∈ all := by cases f <;> decide

end GatewayField

abbrev BrowserGatewayTarget := ∀ f : GatewayField, f.Value

open GatewayField

def browserGatewayTarget : Decoder BrowserGatewayTarget BrowserGatewayTarget :=
  .record name decoder mem_all

/-- The fields of `TargetsByType`. -/
inductive TargetField
  | udp
  | tcp
  deriving DecidableEq, Repr

namespace TargetField

def all : List TargetField := [udp, tcp]

def name : TargetField → String
  | udp => "udp"
  | tcp => "tcp"

theorem mem_all (f : TargetField) : f ∈ all := by cases f <;> decide

end TargetField

abbrev TargetsByType := TargetField → Slice String

def targetsByType : Decoder TargetsByType (TargetField → List String) :=
  .record TargetField.name (fun _ => string.slice) TargetField.mem_all

/-- The fields of `WgData`. -/
inductive WgField
  | endpoint
  | relayPort
  | publicKey
  | serverIP
  | tunnelIP
  | targets
  | healthCheckTargets
  | browserGatewayTargets
  | remoteExitNodeSubnets
  | chainId
  deriving DecidableEq, Repr

namespace WgField

def all : List WgField :=
  [endpoint, relayPort, publicKey, serverIP, tunnelIP, targets, healthCheckTargets,
    browserGatewayTargets, remoteExitNodeSubnets, chainId]

def name : WgField → String
  | endpoint => "endpoint"
  | relayPort => "relayPort"
  | publicKey => "publicKey"
  | serverIP => "serverIP"
  | tunnelIP => "tunnelIP"
  | targets => "targets"
  | healthCheckTargets => "healthCheckTargets"
  | browserGatewayTargets => "browserGatewayTargets"
  | remoteExitNodeSubnets => "remoteExitNodeSubnets"
  | chainId => "chainId"

@[reducible] def Value : WgField → Type
  | endpoint | publicKey | serverIP | tunnelIP | chainId => String
  | relayPort => Int
  | targets => TargetsByType
  | healthCheckTargets => Slice Config
  | browserGatewayTargets => Slice BrowserGatewayTarget
  | remoteExitNodeSubnets => Slice String

/-- What is observed of a field: the elements of the slices. -/
@[reducible] def View : WgField → Type
  | endpoint | publicKey | serverIP | tunnelIP => String
  | relayPort => Int
  | targets => TargetField → List String
  | healthCheckTargets => List Config
  | browserGatewayTargets => List BrowserGatewayTarget
  | remoteExitNodeSubnets => List String
  | chainId => Unit

def decoder : ∀ f : WgField, Decoder f.Value f.View
  | endpoint | publicKey | serverIP | tunnelIP => string
  | relayPort => uint16
  | targets => targetsByType
  | healthCheckTargets => config.slice
  | browserGatewayTargets => browserGatewayTarget.slice
  | remoteExitNodeSubnets => string.slice
  | chainId => string.unobserved

theorem mem_all (f : WgField) : f ∈ all := by cases f <;> decide

end WgField

abbrev WgData := ∀ f : WgField, f.Value

def wgData : Decoder WgData (∀ f : WgField, f.View) :=
  .record WgField.name WgField.decoder WgField.mem_all

namespace WgData

/-- `json.Unmarshal(jsonData, &n.wgData)`. -/
def unmarshal (data : WgData) (msg : Json) : WgData :=
  wgData.decode data msg

/-- The data a message describes by itself. -/
def fresh (msg : Json) : WgData :=
  unmarshal wgData.zero msg

end WgData

/-- The struct with the chain ID only, which `handleConnect` decodes first. -/
def chainData : Decoder (Unit → String) (Unit → String) :=
  .record (fun _ => "chainId") (fun _ => string)
    (show ∀ u : Unit, u ∈ [()] from fun _ => List.mem_singleton_self _)

/-- The chain ID of a message; an error of its decoding is ignored. -/
def chainId (msg : Json) : String :=
  chainData.decode chainData.zero msg ()

end Newt.Connect
