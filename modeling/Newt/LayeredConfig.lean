import Newt.Lib.JsonDecode
import Newt.Lib.Text

/-!
# The settings of the program and the layers they come from

`loadNewtConfig` resolves every setting from its default, the config file, the
environment and the command line, the later ones first.  Strings that stand for
numbers and durations are parsed at the end.  The CA files of the layers are joined.

Between the environment and the command line one setting is filled from another: a
client certificate without a key and without CA files is taken for a PKCS12 file
(`applyLegacy`).  `effective` is what the four layers give without it, and
`loadNewtConfig_layer_independent` says that the result and its validation depend on
the effective settings alone unless that step has an effect.

A setting is a constructor, with its names in a table.  The command line is the list of
the flags in it with their values, as the flag package reads them.  The map of sources
that `--show-config` prints is left out; with that flag the program exits.
-/

namespace Newt.LayeredConfig

open JsonDecode Option Function

/-- The settings that are strings. -/
inductive TextSetting
  | endpoint
  | id
  | secret
  | provisioningKey
  | newtName
  | dns
  | logLevel
  | updownScript
  | interfaceName
  | nativeMainInterfaceName
  | preferEndpoint
  | healthFile
  | blueprintFile
  | provisioningBlueprintFile
  | dockerSocket
  | authDaemonKey
  | authDaemonPrincipalsFile
  | authDaemonCACertPath
  | tlsClientCert
  | tlsClientKey
  | tlsPrivateKey
  | adminAddr
  | region
  deriving DecidableEq, Repr

/-- The settings that are strings up to the end of `loadNewtConfig`. -/
inductive ParsedSetting
  | mtu
  | port
  | pingInterval
  | pingTimeout
  | udpProxyIdleTimeout
  | dockerEnforce
  deriving DecidableEq, Repr

inductive BoolSetting
  | useNativeInterface
  | useNativeMainInterface
  | noCloud
  | disableClients
  | disableSSH
  | enforceHealthcheckCert
  | authDaemonGenerateRandomPassword
  | metricsEnabled
  | otlpEnabled
  | metricsAsyncBytes
  | pprofEnabled
  deriving DecidableEq, Repr

/-- The names of a setting in the file, the environment and the command line. -/
structure Names where
  jsonKey : String
  envName : Option String
  flagName : String

namespace TextSetting

def all : List TextSetting :=
  [endpoint, id, secret, provisioningKey, newtName, dns, logLevel, updownScript, interfaceName,
    nativeMainInterfaceName, preferEndpoint, healthFile, blueprintFile,
    provisioningBlueprintFile, dockerSocket, authDaemonKey, authDaemonPrincipalsFile,
    authDaemonCACertPath, tlsClientCert, tlsClientKey, tlsPrivateKey, adminAddr, region]

def names : TextSetting → Names
  | endpoint => ⟨"endpoint", "PANGOLIN_ENDPOINT", "endpoint"⟩
  | id => ⟨"id", "NEWT_ID", "id"⟩
  | secret => ⟨"secret", "NEWT_SECRET", "secret"⟩
  | provisioningKey => ⟨"provisioningKey", "NEWT_PROVISIONING_KEY", "provisioning-key"⟩
  | newtName => ⟨"name", "NEWT_NAME", "name"⟩
  | dns => ⟨"dns", "DNS", "dns"⟩
  | logLevel => ⟨"logLevel", "LOG_LEVEL", "log-level"⟩
  | updownScript => ⟨"updownScript", "UPDOWN_SCRIPT", "updown"⟩
  | interfaceName => ⟨"interface", "INTERFACE", "interface"⟩
  | nativeMainInterfaceName => ⟨"interfaceMain", "INTERFACE_MAIN", "interface-main"⟩
  | preferEndpoint => ⟨"preferEndpoint", none, "prefer-endpoint"⟩
  | healthFile => ⟨"healthFile", "HEALTH_FILE", "health-file"⟩
  | blueprintFile => ⟨"blueprintFile", "BLUEPRINT_FILE", "blueprint-file"⟩
  | provisioningBlueprintFile =>
    ⟨"provisioningBlueprintFile", "PROVISIONING_BLUEPRINT_FILE", "provisioning-blueprint-file"⟩
  | dockerSocket => ⟨"dockerSocket", "DOCKER_SOCKET", "docker-socket"⟩
  | authDaemonKey => ⟨"adPreSharedKey", "AD_KEY", "ad-pre-shared-key"⟩
  | authDaemonPrincipalsFile =>
    ⟨"adPrincipalsFile", "AD_PRINCIPALS_FILE", "ad-principals-file"⟩
  | authDaemonCACertPath => ⟨"adCaCertPath", "AD_CA_CERT_PATH", "ad-ca-cert-path"⟩
  | tlsClientCert => ⟨"tlsClientCertFile", "TLS_CLIENT_CERT", "tls-client-cert-file"⟩
  | tlsClientKey => ⟨"tlsClientKey", "TLS_CLIENT_KEY", "tls-client-key"⟩
  | tlsPrivateKey => ⟨"tlsClientCert", "TLS_CLIENT_CERT_PKCS12", "tls-client-cert"⟩
  | adminAddr => ⟨"metricsAdminAddr", "NEWT_ADMIN_ADDR", "metrics-admin-addr"⟩
  | region => ⟨"region", "NEWT_REGION", "region"⟩

def default : TextSetting → String
  | dns => "9.9.9.9"
  | logLevel => "INFO"
  | interfaceName | nativeMainInterfaceName => "newt"
  | authDaemonPrincipalsFile => "/var/run/auth-daemon/principals"
  | authDaemonCACertPath => "/etc/ssh/ca.pem"
  | adminAddr => "127.0.0.1:2112"
  | _ => ""

end TextSetting

namespace ParsedSetting

def all : List ParsedSetting :=
  [mtu, port, pingInterval, pingTimeout, udpProxyIdleTimeout, dockerEnforce]

def names : ParsedSetting → Names
  | mtu => ⟨"mtu", "MTU", "mtu"⟩
  | port => ⟨"port", "PORT", "port"⟩
  | pingInterval => ⟨"pingInterval", "PING_INTERVAL", "ping-interval"⟩
  | pingTimeout => ⟨"pingTimeout", "PING_TIMEOUT", "ping-timeout"⟩
  | udpProxyIdleTimeout =>
    ⟨"udpProxyIdleTimeout", "NEWT_UDP_PROXY_IDLE_TIMEOUT", "udp-proxy-idle-timeout"⟩
  | dockerEnforce =>
    ⟨"dockerEnforceNetworkValidation", "DOCKER_ENFORCE_NETWORK_VALIDATION",
      "docker-enforce-network-validation"⟩

def default : ParsedSetting → String
  | mtu => "1280"
  | port => ""
  | pingInterval => "15s"
  | pingTimeout => "7s"
  | udpProxyIdleTimeout => "90s"
  | dockerEnforce => "false"

end ParsedSetting

namespace BoolSetting

def all : List BoolSetting :=
  [useNativeInterface, useNativeMainInterface, noCloud, disableClients, disableSSH,
    enforceHealthcheckCert, authDaemonGenerateRandomPassword, metricsEnabled, otlpEnabled,
    metricsAsyncBytes, pprofEnabled]

def names : BoolSetting → Names
  | useNativeInterface => ⟨"native", "USE_NATIVE_INTERFACE", "native"⟩
  | useNativeMainInterface => ⟨"nativeMain", "USE_NATIVE_MAIN_INTERFACE", "native-main"⟩
  | noCloud => ⟨"noCloud", "NO_CLOUD", "no-cloud"⟩
  | disableClients => ⟨"disableClients", "DISABLE_CLIENTS", "disable-clients"⟩
  | disableSSH => ⟨"disableSsh", "DISABLE_SSH", "disable-ssh"⟩
  | enforceHealthcheckCert => ⟨"enforceHcCert", "ENFORCE_HC_CERT", "enforce-hc-cert"⟩
  | authDaemonGenerateRandomPassword =>
    ⟨"adGenerateRandomPassword", "AD_GENERATE_RANDOM_PASSWORD", "ad-generate-random-password"⟩
  | metricsEnabled => ⟨"metrics", "NEWT_METRICS_PROMETHEUS_ENABLED", "metrics"⟩
  | otlpEnabled => ⟨"otlp", "NEWT_METRICS_OTLP_ENABLED", "otlp"⟩
  | metricsAsyncBytes => ⟨"metricsAsyncBytes", "NEWT_METRICS_ASYNC_BYTES", "metrics-async-bytes"⟩
  | pprofEnabled => ⟨"pprof", "NEWT_PPROF_ENABLED", "pprof"⟩

end BoolSetting

/-- The fields of `fileSettings`. -/
inductive FileField
  | text (s : TextSetting)
  | parsed (s : ParsedSetting)
  | bool (s : BoolSetting)
  | tlsClientCAs
  deriving DecidableEq, Repr

namespace FileField

def all : List FileField :=
  TextSetting.all.map text ++ ParsedSetting.all.map parsed ++ BoolSetting.all.map bool ++
    [tlsClientCAs]

def name : FileField → String
  | text s | parsed s | bool s => s.names.jsonKey
  | tlsClientCAs => "tlsClientCa"

@[reducible] def Value : FileField → Type
  | text _ => Option String
  | parsed .mtu | parsed .port => Option Int
  | parsed .dockerEnforce => Option Bool
  | parsed .pingInterval | parsed .pingTimeout | parsed .udpProxyIdleTimeout => Option String
  | bool _ => Option Bool
  | tlsClientCAs => Slice String

@[reducible] def View : FileField → Type
  | tlsClientCAs => List String
  | f => f.Value

def string : Decoder (Option String) (Option String) :=
  .optional "" Json.readString

def boolean : Decoder (Option Bool) (Option Bool) :=
  .optional false Json.readBool

def int : Decoder (Option Int) (Option Int) :=
  .optional 0 (Json.readInt (-9223372036854775808) 9223372036854775807)

def decoder : ∀ f : FileField, Decoder f.Value f.View
  | text _ => string
  | parsed .mtu | parsed .port => int
  | parsed .dockerEnforce => boolean
  | parsed .pingInterval | parsed .pingTimeout | parsed .udpProxyIdleTimeout => string
  | bool _ => boolean
  | tlsClientCAs => .slice (.scalar "" Json.readString)

end FileField

/-- `fileSettings`. -/
abbrev FileSettings := ∀ f : FileField, f.Value

namespace FileSettings

/-- The settings of a file that has none. -/
def empty : FileSettings :=
  fun f => f.decoder.zero

/-- A number or a boolean of the file is turned into a string. -/
def parsed (fs : FileSettings) : ParsedSetting → Option String
  | .mtu => (fs (.parsed .mtu)).map (fun n => String.ofList (Text.formatInt n))
  | .port => (fs (.parsed .port)).map (fun n => String.ofList (Text.formatInt n))
  | .pingInterval => fs (.parsed .pingInterval)
  | .pingTimeout => fs (.parsed .pingTimeout)
  | .udpProxyIdleTimeout => fs (.parsed .udpProxyIdleTimeout)
  | .dockerEnforce => (fs (.parsed .dockerEnforce)).map toString

end FileSettings

/-- The config file: it may be missing, have no text but white space, be no JSON, or not
be readable. -/
inductive ConfigFile
  | missing
  | blank
  | json (j : Json)
  | invalid
  | unreadable

open FileField

open FileSettings

/-- `loadFileSettings`; `none` is an error. -/
def loadFileSettings : ConfigFile → Option FileSettings
  | .missing | .blank => some empty
  | .json j =>
    if Decoder.recordFits all name decoder j then
      some (Decoder.decodeRecord all name decoder
        empty j)
    else none
  | .invalid | .unreadable => none

/-- Where the settings come from: the file, `os.Getenv`, the flags of the command line
with their values, and the path that `resolveConfigFilePath` has found. -/
structure Layers where
  file : ConfigFile
  env : String → String
  args : List (String × String)
  configPath : String

/-- `strconv.ParseBool`. -/
def parseBool (s : String) : Option Bool :=
  if s ∈ ["1", "t", "T", "TRUE", "true", "True"] then some true
  else if s ∈ ["0", "f", "F", "FALSE", "false", "False"] then some false
  else none

/-- A variable that is set and not empty. -/
def getenv (env : String → String) (name : Option String) : Option String :=
  (name.map env).filter (· ≠ "")

/-- What the environment says about a boolean; two of them are not read the usual way. -/
def envBool (env : String → String) : BoolSetting → Option Bool
  | .authDaemonGenerateRandomPassword => parseBool (env "AD_GENERATE_RANDOM_PASSWORD")
  | .metricsEnabled =>
    (getenv env "NEWT_METRICS_PROMETHEUS_ENABLED").map (fun v => (parseBool v).getD true)
  | s => (getenv env s.names.envName).map (· == "true")

/-- `strings.Split(s, ",")`, each part without the space around it. -/
def splitList (s : String) : List String :=
  (s.toList.splitOnP (· == ',')).map (fun part => String.ofList (Text.trimSpace part))

/-- The value of a flag: the last one counts. -/
def flagValue (args : List (String × String)) (name : String) : Option String :=
  ((args.filter (fun a => a.1 = name)).getLast?).map Prod.snd

def flagBool (args : List (String × String)) (name : String) : Option Bool :=
  (flagValue args name).bind parseBool

/-- The values of a flag that can be given several times. -/
def flagValues (args : List (String × String)) (name : String) : List String :=
  (args.filter (fun a => a.1 = name)).map Prod.snd

def boolFlags : List String :=
  BoolSetting.all.map (fun s => s.names.flagName) ++ ["auth-daemon", "version", "show-config"]

def stringFlags : List String :=
  TextSetting.all.map (fun s => s.names.flagName) ++
    ParsedSetting.all.map (fun s => s.names.flagName) ++ ["config-file", "tls-client-ca"]

/-- `flag.Parse` does not end the program. -/
def parses (args : List (String × String)) : Bool :=
  args.all (fun a => stringFlags.contains a.1 ||
    (boolFlags.contains a.1 && (parseBool a.2).isSome))

/-- The values of the settings, before the last ones are parsed. -/
@[ext] structure Settings where
  text : TextSetting → String
  parsed : ParsedSetting → String
  bool : BoolSetting → Bool
  tlsClientCAs : List String
  configFile : String

namespace Settings

def defaults (configPath : String) : Settings where
  text := TextSetting.default
  parsed := ParsedSetting.default
  bool := fun _ => false
  tlsClientCAs := []
  configFile := configPath

/-- The layer of the config file: `applyStr` and `applyBool`. -/
def applyFile (c : Settings) (fs : FileSettings) : Settings :=
  { c with
    text := fun s => (fs (.text s)).getD (c.text s)
    parsed := fun s => (fs.parsed s).getD (c.parsed s)
    bool := fun s => (fs (.bool s)).getD (c.bool s)
    tlsClientCAs := c.tlsClientCAs ++ (fs .tlsClientCAs).toList }

/-- The layer of the environment: `applyEnvStr` and `applyEnvBool`. -/
def applyEnv (c : Settings) (env : String → String) : Settings :=
  { c with
    text := fun s => (getenv env s.names.envName).getD (c.text s)
    parsed := fun s => (getenv env s.names.envName).getD (c.parsed s)
    bool := fun s => (envBool env s).getD (c.bool s)
    tlsClientCAs := c.tlsClientCAs ++ ((getenv env "TLS_CLIENT_CAS").map splitList).getD [] }

/-- A certificate stands where the path of a PKCS12 file used to be. -/
def Legacy (c : Settings) : Prop :=
  c.text .tlsPrivateKey = "" ∧ c.text .tlsClientKey = "" ∧ c.tlsClientCAs = [] ∧
    c.text .tlsClientCert ≠ ""
  deriving Decidable

/-- The fallback for `TLSPrivateKey`. -/
def applyLegacy (c : Settings) : Settings :=
  if c.Legacy then
    { c with text := update c.text .tlsPrivateKey (c.text .tlsClientCert) }
  else c

/-- The layer of the command line. -/
def applyFlags (c : Settings) (args : List (String × String)) : Settings where
  text := fun s => (flagValue args s.names.flagName).getD (c.text s)
  parsed := fun s => (flagValue args s.names.flagName).getD (c.parsed s)
  bool := fun s => (flagBool args s.names.flagName).getD (c.bool s)
  tlsClientCAs := c.tlsClientCAs ++ flagValues args "tls-client-ca"
  configFile := (flagValue args "config-file").getD c.configFile

end Settings

/-- `newtpkg.Config`; durations are in nanoseconds. -/
structure Config where
  text : TextSetting → String
  bool : BoolSetting → Bool
  tlsClientCAs : List String
  configFile : String
  port : Nat
  mtu : Int
  dockerEnforceNetworkValidation : Bool
  pingInterval : Int
  pingTimeout : Int
  udpProxyIdleTimeout : Int

section Load

variable (parseDuration : String → Option Int)

/-- `parseDurationEnvOrFlag`. -/
def parseDurationEnvOrFlag (s : String) (defaultVal : Int) : Int :=
  if s = "" then defaultVal
  else
    match parseDuration s with
    | some d => if d ≤ 0 then defaultVal else d
    | none => defaultVal

/-- What `loadNewtConfig` does after the layers; an MTU that is no number ends the
program. -/
def Settings.finish (c : Settings) : Option Config :=
  (Text.atoi (if c.parsed .mtu = "" then "1280" else c.parsed .mtu).toList).map (fun mtu =>
    { text := c.text
      bool := c.bool
      tlsClientCAs := c.tlsClientCAs
      configFile := c.configFile
      -- Without a port, and with one that is no number, it stays 0.
      port := (((Text.atoi (c.parsed .port).toList).getD 0) % 65536).toNat
      mtu := mtu
      dockerEnforceNetworkValidation := (parseBool (c.parsed .dockerEnforce)).getD false
      pingInterval := parseDurationEnvOrFlag parseDuration (c.parsed .pingInterval) 15000000000
      pingTimeout := parseDurationEnvOrFlag parseDuration (c.parsed .pingTimeout) 7000000000
      udpProxyIdleTimeout :=
        parseDurationEnvOrFlag parseDuration (c.parsed .udpProxyIdleTimeout) 90000000000 })

/-- The settings of the file and the environment. -/
def Layers.beforeFlags (l : Layers) (fs : FileSettings) : Settings :=
  ((Settings.defaults l.configPath).applyFile fs).applyEnv l.env

/-- The file and the command line can be read, and the program goes on. -/
def Layers.readSettings (l : Layers) : Option FileSettings :=
  (loadFileSettings l.file).filter (fun _ =>
    parses l.args && flagBool l.args "version" != some true &&
      flagBool l.args "show-config" != some true)

/-- `loadNewtConfig`; `none` stands for the end of the program. -/
def loadNewtConfig (l : Layers) : Option Config :=
  l.readSettings.bind (fun fs =>
    (((l.beforeFlags fs).applyLegacy).applyFlags l.args).finish parseDuration)

end Load

/-- `validateTLSConfig`; `notExist` says which files `os.Stat` does not find. -/
def validateTLSConfig (notExist : String → Bool) (cfg : Config) : Except String Unit := do
  let pkcs12Specified := cfg.text .tlsPrivateKey ≠ ""
  let separateFilesSpecified :=
    cfg.text .tlsClientCert ≠ "" ∨ cfg.text .tlsClientKey ≠ "" ∨ cfg.tlsClientCAs.length > 0
  if pkcs12Specified ∧ separateFilesSpecified then
    throw ("cannot use both PKCS12 format (--tls-client-cert) and separate certificate files " ++
      "(--tls-client-cert-file, --tls-client-key, --tls-client-ca)")
  if (cfg.text .tlsClientCert ≠ "" ∧ cfg.text .tlsClientKey = "") ∨
      (cfg.text .tlsClientCert = "" ∧ cfg.text .tlsClientKey ≠ "") then
    throw "both --tls-client-cert-file and --tls-client-key must be specified together"
  if cfg.text .tlsClientCert ≠ "" ∧ notExist (cfg.text .tlsClientCert) then
    throw ("client certificate file does not exist: " ++ cfg.text .tlsClientCert)
  if cfg.text .tlsClientKey ≠ "" ∧ notExist (cfg.text .tlsClientKey) then
    throw ("client key file does not exist: " ++ cfg.text .tlsClientKey)
  match cfg.tlsClientCAs.find? notExist with
  | some caFile => throw ("CA certificate file does not exist: " ++ caFile)
  | none => pure ()
  if cfg.text .tlsPrivateKey ≠ "" ∧ notExist (cfg.text .tlsPrivateKey) then
    throw ("PKCS12 certificate file does not exist: " ++ cfg.text .tlsPrivateKey)

/-- What the four layers give, each setting on its own and the CA files joined. -/
def effective (l : Layers) : Option Settings :=
  l.readSettings.map (fun fs =>
    { text := fun s => ((flagValue l.args s.names.flagName).or
        ((getenv l.env s.names.envName).or (fs (.text s)))).getD s.default
      parsed := fun s => ((flagValue l.args s.names.flagName).or
        ((getenv l.env s.names.envName).or (fs.parsed s))).getD s.default
      bool := fun s => ((flagBool l.args s.names.flagName).or
        ((envBool l.env s).or (fs (.bool s)))).getD false
      tlsClientCAs := (fs .tlsClientCAs).toList ++
        ((getenv l.env "TLS_CLIENT_CAS").map splitList).getD [] ++
        flagValues l.args "tls-client-ca"
      configFile := (flagValue l.args "config-file").getD l.configPath })

/-- The fallback has an effect: the file and the environment give a certificate and none
of the three other settings, and the command line gives no PKCS12 file. -/
def Layers.FallsBack (l : Layers) : Prop :=
  ∃ fs, l.readSettings = some fs ∧ (l.beforeFlags fs).Legacy ∧
    flagValue l.args "tls-client-cert" = none

namespace Settings

/-- A certificate with its key, or a PKCS12 file alone. -/
def Supplied (c : Settings) : Prop :=
  (c.text .tlsClientCert ≠ "" ∧ c.text .tlsClientKey ≠ "" ∧ c.text .tlsPrivateKey = "") ∨
    (c.text .tlsPrivateKey ≠ "" ∧ c.text .tlsClientCert = "" ∧ c.text .tlsClientKey = "" ∧
      c.tlsClientCAs = [])

/-- The files the settings name exist. -/
def FilesExist (notExist : String → Bool) (c : Settings) : Prop :=
  (∀ s ∈ [.tlsClientCert, .tlsClientKey, .tlsPrivateKey],
      c.text s ≠ "" → notExist (c.text s) = false) ∧
    ∀ caFile ∈ c.tlsClientCAs, notExist caFile = false

/-- The command line hides the fallback when it gives a PKCS12 file. -/
theorem applyFlags_applyLegacy {c : Settings} {args : List (String × String)}
    (h : ¬ (c.Legacy ∧ flagValue args "tls-client-cert" = none)) :
    c.applyLegacy.applyFlags args = c.applyFlags args := by
  by_cases hlegacy : c.Legacy
  · obtain ⟨v, hv⟩ := ne_none_iff_exists'.mp (fun hnone => h ⟨hlegacy, hnone⟩)
    rw [applyLegacy, if_pos hlegacy]
    refine Settings.ext (funext fun s => ?_) rfl rfl rfl rfl
    by_cases hs : s = .tlsPrivateKey
    · subst hs
      show (flagValue args "tls-client-cert").getD _ = (flagValue args "tls-client-cert").getD _
      rw [hv, getD_some, getD_some]
    · show (flagValue args _).getD (update c.text .tlsPrivateKey _ s) = _
      rw [update_of_ne hs]
      rfl
  · rw [applyLegacy, if_neg hlegacy]

/-- What is parsed at the end does not change the strings. -/
theorem text_of_finish {parseDuration : String → Option Int} {c : Settings} {cfg : Config}
    (h : c.finish parseDuration = some cfg) :
    cfg.text = c.text ∧ cfg.tlsClientCAs = c.tlsClientCAs := by
  obtain ⟨mtu, _, rfl⟩ := map_eq_some_iff.mp h
  exact ⟨rfl, rfl⟩

/-- Settings with a certificate and its key, or with a PKCS12 file alone, are valid. -/
theorem validate_of_supplied {c : Settings} {cfg : Config} {notExist : String → Bool}
    (htext : cfg.text = c.text) (hcas : cfg.tlsClientCAs = c.tlsClientCAs) (h : c.Supplied)
    (hexist : c.FilesExist notExist) : validateTLSConfig notExist cfg = .ok () := by
  obtain ⟨hfiles, hcaFiles⟩ := hexist
  have hfind : c.tlsClientCAs.find? notExist = none := by
    rw [List.find?_eq_none]
    intro caFile hmem
    rw [hcaFiles caFile hmem]
    exact Bool.false_ne_true
  rcases h with ⟨hcert, hkey, hpk⟩ | ⟨hpk, hcert, hkey, hnil⟩
  · have hc := hfiles .tlsClientCert (by decide) hcert
    have hk := hfiles .tlsClientKey (by decide) hkey
    simp [validateTLSConfig, htext, hcas, hfind, hpk, hcert, hkey, hc, hk]
    rfl
  · have hp := hfiles .tlsPrivateKey (by decide) hpk
    simp [validateTLSConfig, htext, hcas, hnil, hpk, hcert, hkey, hp]
    rfl

end Settings

open Layers

/-- The layers one after the other give the effective settings. -/
theorem effective_eq (l : Layers) :
    effective l = l.readSettings.map (fun fs => (l.beforeFlags fs).applyFlags l.args) := by
  unfold effective
  congr 1
  funext fs
  simp only [Settings.applyFlags, beforeFlags, Settings.applyEnv, Settings.applyFile,
    Settings.defaults, getD_or, List.nil_append]

/-- Without the fallback the result is a function of the effective settings. -/
theorem loadNewtConfig_eq (parseDuration : String → Option Int) {l : Layers}
    (h : ¬ l.FallsBack) :
    loadNewtConfig parseDuration l =
      (effective l).bind (fun c => c.finish parseDuration) := by
  rw [effective_eq, loadNewtConfig]
  cases hread : l.readSettings with
  | none => rfl
  | some fs =>
    have hno : ¬ ((l.beforeFlags fs).Legacy ∧ flagValue l.args "tls-client-cert" = none) :=
      fun hboth => h ⟨fs, hread, hboth⟩
    rw [bind_some, map_some, bind_some, Settings.applyFlags_applyLegacy hno]

/-- The same layers with an empty PKCS12 file on the command line. -/
def Layers.withoutPkcs12 (l : Layers) : Layers :=
  { l with args := l.args ++ [("tls-client-cert", "")] }

theorem flagValue_append_of_ne {args : List (String × String)} {name other value : String}
    (h : other ≠ name) : flagValue (args ++ [(other, value)]) name = flagValue args name := by
  simp [flagValue, List.filter_append, h]

theorem flagValue_append_self (args : List (String × String)) (name value : String) :
    flagValue (args ++ [(name, value)]) name = some value := by simp [flagValue, List.filter_append]

theorem readSettings_withoutPkcs12 (l : Layers) :
    l.withoutPkcs12.readSettings = l.readSettings := by
  have hparses : parses (l.args ++ [("tls-client-cert", "")]) = parses l.args := by
    rw [parses, List.all_append]
    exact Bool.and_true _
  unfold readSettings withoutPkcs12
  simp only [hparses, flagBool]
  rw [flagValue_append_of_ne (by decide), flagValue_append_of_ne (by decide)]

/-- Where the fallback has an effect, the layers give no PKCS12 file. -/
theorem effective_withoutPkcs12 {l : Layers} (h : l.FallsBack) :
    effective l.withoutPkcs12 = effective l := by
  obtain ⟨fs, hread, hlegacy, hflag⟩ := h
  rw [effective_eq, effective_eq, readSettings_withoutPkcs12, hread]
  refine congrArg some (Settings.ext (funext fun s => ?_) (funext fun s => ?_)
    (funext fun s => ?_) ?_ ?_)
  · show (flagValue (l.args ++ _) _).getD _ = (flagValue l.args _).getD _
    by_cases hs : s = .tlsPrivateKey
    · subst hs
      show (flagValue (l.args ++ _) "tls-client-cert").getD _ =
        (flagValue l.args "tls-client-cert").getD _
      rw [flagValue_append_self, hflag, getD_some, getD_none]
      exact hlegacy.1.symm
    · rw [flagValue_append_of_ne (by cases s <;> first | decide | exact absurd rfl hs)]
      rfl
  · show (flagValue (l.args ++ _) _).getD _ = (flagValue l.args _).getD _
    rw [flagValue_append_of_ne (by cases s <;> decide)]
    rfl
  · show ((flagValue (l.args ++ _) _).bind parseBool).getD _ =
      ((flagValue l.args _).bind parseBool).getD _
    rw [flagValue_append_of_ne (by cases s <;> decide)]
    rfl
  · show _ ++ flagValues (l.args ++ _) _ = _ ++ flagValues l.args _
    simp [flagValues, List.filter_append, withoutPkcs12, beforeFlags]
  · show (flagValue (l.args ++ _) _).getD _ = (flagValue l.args _).getD _
    rw [flagValue_append_of_ne (by decide)]
    rfl

/-- The fallback shows in the result. -/
theorem tlsPrivateKey_of_fallsBack {parseDuration : String → Option Int} {l : Layers}
    {cfg : Config} (h : l.FallsBack) (hload : loadNewtConfig parseDuration l = some cfg) :
    cfg.text .tlsPrivateKey ≠ "" := by
  obtain ⟨fs, hread, hlegacy, hflag⟩ := h
  rw [loadNewtConfig, hread, bind_some] at hload
  rw [(Settings.text_of_finish hload).1]
  show (flagValue l.args "tls-client-cert").getD _ ≠ ""
  rw [hflag, getD_none, Settings.applyLegacy, if_pos hlegacy]
  show update (l.beforeFlags fs).text .tlsPrivateKey _ .tlsPrivateKey ≠ ""
  rw [update_self]
  exact hlegacy.2.2.2

/-- **Settings and layers.**  The configuration that is returned, and with it the verdict
on it, is the one of all layers with the same effective settings, and a certificate
with its key or a PKCS12 file alone is accepted if the files exist: this holds exactly
if the fallback has no effect. -/
theorem loadNewtConfig_layer_independent (parseDuration : String → Option Int)
    (notExist : String → Bool) (l : Layers) (cfg : Config)
    (hload : loadNewtConfig parseDuration l = some cfg) :
    ((∀ l' : Layers, ¬ l'.FallsBack → effective l' = effective l →
        (loadNewtConfig parseDuration l').map (fun c => (c, validateTLSConfig notExist c)) =
          some (cfg, validateTLSConfig notExist cfg)) ∧
      ∀ c ∈ effective l, c.Supplied → c.FilesExist notExist →
        validateTLSConfig notExist cfg = .ok ()) ↔
      ¬ l.FallsBack := by
  refine ⟨fun h hfalls => ?_, fun hno => ⟨fun l' hno' heq => ?_, ?_⟩⟩
  · have hother : ¬ l.withoutPkcs12.FallsBack := by
      intro hfalls'
      obtain ⟨fs, _, _, hflag⟩ := hfalls'
      rw [withoutPkcs12, flagValue_append_self] at hflag
      cases hflag
    have hsame := h.1 l.withoutPkcs12 hother (effective_withoutPkcs12 hfalls)
    obtain ⟨cfg', hload', hpair⟩ := map_eq_some_iff.mp hsame
    obtain rfl : cfg' = cfg := (Prod.mk.inj hpair).1
    refine tlsPrivateKey_of_fallsBack hfalls hload ?_
    obtain ⟨fs, hread, _, _⟩ := hfalls
    rw [loadNewtConfig, readSettings_withoutPkcs12, hread, bind_some] at hload'
    rw [(Settings.text_of_finish hload').1]
    show (flagValue (l.args ++ _) "tls-client-cert").getD _ = ""
    rw [flagValue_append_self, getD_some]
  · rw [loadNewtConfig_eq parseDuration hno', heq, ← loadNewtConfig_eq parseDuration hno, hload]
    rfl
  · intro c hc hsupplied hexist
    rw [loadNewtConfig_eq parseDuration hno, hc, bind_some] at hload
    obtain ⟨htext, hcas⟩ := Settings.text_of_finish hload
    exact Settings.validate_of_supplied htext hcas hsupplied hexist

/-- A certificate and its key on the command line. -/
def flagsOnly : Layers :=
  { file := .missing
    env := fun _ => ""
    args := [("tls-client-cert-file", "cert.pem"), ("tls-client-key", "key.pem")]
    configPath := "config.json" }

/-- The same settings, the certificate from the environment. -/
def certFromEnv : Layers :=
  { file := .missing
    env := fun name => if name = "TLS_CLIENT_CERT" then "cert.pem" else ""
    args := [("tls-client-key", "key.pem")]
    configPath := "config.json" }

theorem flagsOnly_accepted :
    ¬ flagsOnly.FallsBack ∧
      ∃ cfg, loadNewtConfig (fun _ => none) flagsOnly = some cfg ∧
        validateTLSConfig (fun _ => false) cfg = .ok () := by
  have hno : ¬ flagsOnly.FallsBack := by
    intro hfalls
    obtain ⟨fs, hread, hlegacy, _⟩ := hfalls
    obtain rfl : empty = fs := some.inj hread
    exact hlegacy.2.2.2 rfl
  obtain ⟨cfg, hcfg⟩ := isSome_iff_exists.mp
    (show (loadNewtConfig (fun _ => none) flagsOnly).isSome = true by decide)
  have h := (loadNewtConfig_layer_independent (fun _ => none) (fun _ => false) flagsOnly cfg
    hcfg).mpr hno
  refine ⟨hno, cfg, hcfg, h.2 _ rfl ?_ ?_⟩
  · exact Or.inl (by decide)
  · exact ⟨fun _ _ _ => rfl, fun _ _ => rfl⟩

/-- **Two layers for one setting.**  With the certificate in the environment and the key
on the command line the configuration is refused, though its effective settings are
those of a command line with both. -/
theorem certFromEnv_refused :
    effective certFromEnv = effective flagsOnly ∧
      (loadNewtConfig (fun _ => none) flagsOnly).map (validateTLSConfig (fun _ => false)) =
        some (.ok ()) ∧
      (loadNewtConfig (fun _ => none) certFromEnv).map (validateTLSConfig (fun _ => false)) =
        some (.error ("cannot use both PKCS12 format (--tls-client-cert) and separate " ++
          "certificate files (--tls-client-cert-file, --tls-client-key, --tls-client-ca)")) := by
  refine ⟨congrArg some (Settings.ext (funext fun s => ?_) (funext fun s => ?_)
    (funext fun s => ?_) rfl rfl), by decide +kernel, by decide +kernel⟩
  all_goals cases s <;> decide

end Newt.LayeredConfig
