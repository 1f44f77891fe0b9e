import Newt.AuthDaemon
import Newt.ConnectMessage
import Newt.NativeSsh

/-!
# The handler of `newt/pam/connection`

The server asks for credentials to be installed: through the auth daemon of the site,
through a remote daemon, or in the native SSH server.  It waits for a message
`ws/round-trip/complete` with the ID of the request, which has an error if the request
failed.

`handlePam_answers_iff` says which requests get exactly one reply that has an error exactly
if the credentials were not installed.  With a daemon at the site the branch replies and
the common reply follows; and what `ProcessConnection` and `SetCAKey` report is logged only.
-/

namespace Newt.Pam

open Connect JsonDecode NativeSsh CredentialStore

/-- The fields of the metadata. -/
inductive MetadataField
  | sudoMode
  | sudoCommands
  | homedir
  | groups
  deriving DecidableEq, Repr

namespace MetadataField

def all : List MetadataField :=
  [sudoMode, sudoCommands, homedir, groups]

def name : MetadataField → String
  | sudoMode => "sudoMode"
  | sudoCommands => "sudoCommands"
  | homedir => "homedir"
  | groups => "groups"

@[reducible] def Value : MetadataField → Type
  | sudoMode => String
  | sudoCommands | groups => Slice String
  | homedir => Bool

@[reducible] def View : MetadataField → Type
  | sudoMode => String
  | sudoCommands | groups => List String
  | homedir => Bool

def decoder : ∀ f : MetadataField, Decoder f.Value f.View
  | sudoMode => string
  | sudoCommands | groups => string.slice
  | homedir => bool

theorem mem_all (f : MetadataField) : f ∈ all := by cases f <;> decide

end MetadataField

open MetadataField

def metadata : Decoder (∀ f : MetadataField, f.Value) (∀ f : MetadataField, f.View) :=
  .record name decoder mem_all

/-- The fields of `SSHCertData`. -/
inductive CertField
  | messageId
  | agentPort
  | agentHost
  | externalAuthDaemon
  | authDaemonMode
  | caCert
  | username
  | niceId
  | metadata
  deriving DecidableEq, Repr

namespace CertField

def all : List CertField :=
  [messageId, agentPort, agentHost, externalAuthDaemon, authDaemonMode, caCert, username, niceId,
    metadata]

def name : CertField → String
  | messageId => "messageId"
  | agentPort => "agentPort"
  | agentHost => "agentHost"
  | externalAuthDaemon => "externalAuthDaemon"
  | authDaemonMode => "authDaemonMode"
  | caCert => "caCert"
  | username => "username"
  | niceId => "niceId"
  | metadata => "metadata"

@[reducible] def Value : CertField → Type
  | messageId | agentPort => Int
  | agentHost | authDaemonMode | caCert | username | niceId => String
  | externalAuthDaemon => Bool
  | metadata => ∀ f : MetadataField, f.Value

@[reducible] def View : CertField → Type
  | messageId | agentPort => Int
  | agentHost | authDaemonMode | caCert | username | niceId => String
  | externalAuthDaemon => Bool
  | metadata => ∀ f : MetadataField, f.View

def decoder : ∀ f : CertField, Decoder f.Value f.View
  | messageId | agentPort => int
  | agentHost | authDaemonMode | caCert | username | niceId => string
  | externalAuthDaemon => bool
  | metadata => Pam.metadata

theorem mem_all (f : CertField) : f ∈ all := by cases f <;> decide

end CertField

abbrev SSHCertData := ∀ f : CertField, f.Value

def certDecoder : Decoder SSHCertData (∀ f : CertField, f.View) :=
  .record CertField.name CertField.decoder CertField.mem_all

/-- `certData` after `json.Unmarshal`, which succeeds if the message fits. -/
def certData (msg : Json) : SSHCertData :=
  certDecoder.decode certDecoder.zero msg

/-- `authdaemon.ConnectionMetadata` with all its fields. -/
structure ConnectionMetadata extends AuthDaemon.ConnectionMetadata where
  homedir : Bool
  groups : List String
  deriving DecidableEq, Repr

/-- `authdaemon.ConnectionRequest`, which is also the body of a request to a remote
daemon. -/
structure ConnectionRequest where
  caCert : String
  niceId : String
  username : String
  metadata : ConnectionMetadata
  deriving DecidableEq, Repr

/-- The configuration of the auth daemon that `ProcessConnection` reads. -/
structure DaemonConfig where
  caCertPath : String
  force : Bool
  generateRandomPassword : Bool
  principalsFilePath : String

/-- The steps outside the program: an error, or nothing. -/
structure World where
  writeCACertIfNotExists : (path contents : String) → (force : Bool) → Option String
  ensureUser : (username : String) → ConnectionMetadata → (generateRandomPassword : Bool) →
    Option String
  writePrincipals : (path username niceId : String) → Option String
  marshal : ConnectionRequest → Option String
  newRequest : (url : String) → Option String
  /-- The status of the answer. -/
  post : (url authorization : String) → ConnectionRequest → Except String Nat

/-- `ProcessConnection`: what it logs. -/
def processConnection (w : World) (cfg : DaemonConfig) (req : ConnectionRequest) : List String :=
  let caCert :=
    if cfg.caCertPath ≠ "" then w.writeCACertIfNotExists cfg.caCertPath req.caCert cfg.force
    else none
  let user := w.ensureUser req.username req.metadata cfg.generateRandomPassword
  let principals :=
    if cfg.principalsFilePath ≠ "" ∧ req.niceId ≠ "" then
      w.writePrincipals cfg.principalsFilePath req.username req.niceId
    else none
  (caCert.map ("auth-daemon: write CA cert: " ++ ·)).toList ++
    (user.map ("auth-daemon: ensure user: " ++ ·)).toList ++
    (principals.map ("auth-daemon: write principals: " ++ ·)).toList

/-- The fields of the client that the handler reads. -/
structure Client where
  authDaemonServer : Option DaemonConfig
  authDaemonKey : String
  sshCredStore : Option CredentialStore

inductive Mode
  | site
  | remote
  | native
  | unknown
  deriving DecidableEq, Repr

def Mode.ofString (s : String) : Mode :=
  if s = "site" then .site
  else if s = "remote" then .remote
  else if s = "native" then .native
  else .unknown

/-- The message `ws/round-trip/complete`. -/
structure Reply where
  messageId : Int
  error : Option String
  deriving DecidableEq, Repr

namespace SSHCertData

variable (d : SSHCertData)

/-- The mode, with its defaults. -/
def mode : Mode :=
  if d .authDaemonMode ≠ "" then Mode.ofString (d .authDaemonMode)
  else if d .externalAuthDaemon then .remote
  else .site

def connectionMetadata : ConnectionMetadata :=
  { sudoMode := d .metadata .sudoMode
    sudoCommands := (d .metadata .sudoCommands).toList
    homedir := d .metadata .homedir
    groups := (d .metadata .groups).toList }

/-- The request for the credentials of the message. -/
def request : ConnectionRequest :=
  { caCert := d .caCert, niceId := d .niceId, username := d .username,
    metadata := connectionMetadata d }

/-- The native SSH server keeps the CA key and the principals itself. -/
def nativeRequest : ConnectionRequest :=
  { request d with caCert := "", niceId := "" }

def url : String :=
  "https://" ++ d .agentHost ++ ":" ++ toString (d .agentPort) ++ "/connection"

def succeeded : Reply :=
  { messageId := d .messageId, error := none }

def failed (error : String) : Reply :=
  { messageId := d .messageId, error := some error }

end SSHCertData

/-- What the handler leaves: the messages it sent, the store, and what it logged of steps
that failed. -/
structure Outcome where
  replies : List Reply
  sshCredStore : Option CredentialStore
  logged : List String

section Handler

variable {F : Type} (lib : Ssh.Library F) (w : World)

/-- The request to a remote daemon: the text of an error, or nothing. -/
def askRemote (key : String) (d : SSHCertData) : Option String :=
  if key = "" then some "auth daemon key not configured"
  else
    match w.marshal d.request with
    | some err => some ("failed to marshal request: " ++ err)
    | none =>
      match w.newRequest d.url with
      | some err => some ("failed to create request: " ++ err)
      | none =>
        match w.post d.url ("Bearer " ++ key) d.request with
        | .error err => some ("failed to connect to auth daemon: " ++ err)
        | .ok status =>
          if status ≠ 200 then some ("auth daemon returned status " ++ toString status)
          else none

/-- `SetCAKey` and `AddPrincipals` for a native request, with what is logged. -/
def updateStore (s : CredentialStore) (d : SSHCertData) : CredentialStore × List String :=
  match s.setCAKey lib (d .caCert).toList with
  | .ok s' => (s'.addPrincipals (d .username).toList (d .niceId).toList, [])
  | .error err =>
    (s.addPrincipals (d .username).toList (d .niceId).toList,
      ["nativessh: failed to set CA key: " ++ err])

/-- The handler from the switch on. -/
def handleCert (n : Client) (d : SSHCertData) : Outcome :=
  match d.mode with
  | .site =>
    match n.authDaemonServer with
    | some cfg =>
      -- the reply of the branch, and the one after the switch
      ⟨[d.succeeded, d.succeeded], n.sshCredStore, processConnection w cfg d.request⟩
    | none =>
      ⟨[d.failed ("auth daemon server not initialized " ++
        "(enable by running Newt site connector as root)")], n.sshCredStore, []⟩
  | .remote =>
    match askRemote w n.authDaemonKey d with
    | some err => ⟨[d.failed err], n.sshCredStore, []⟩
    | none => ⟨[d.succeeded], n.sshCredStore, []⟩
  | .native =>
    match n.authDaemonServer, n.sshCredStore with
    | some cfg, some s =>
      ⟨[d.succeeded], some (updateStore lib s d).1,
        processConnection w cfg d.nativeRequest ++ (updateStore lib s d).2⟩
    | _, _ =>
      ⟨[d.failed "auth daemon server or SSH credential store not initialized"], n.sshCredStore, []⟩
  | .unknown =>
    ⟨[d.failed ("unknown auth daemon mode: " ++ d .authDaemonMode)], n.sshCredStore, []⟩

/-- The handler of `newt/pam/connection`. -/
def handlePam (n : Client) (msg : Json) : Outcome :=
  if certDecoder.fits msg then handleCert lib w n (certData msg) else ⟨[], n.sshCredStore, []⟩

/-! ## What is installed -/

/-- Every step of `ProcessConnection` that is made succeeds. -/
structure Processed (cfg : DaemonConfig) (req : ConnectionRequest) : Prop where
  caCert : cfg.caCertPath ≠ "" →
    w.writeCACertIfNotExists cfg.caCertPath req.caCert cfg.force = none
  user : w.ensureUser req.username req.metadata cfg.generateRandomPassword = none
  principals : cfg.principalsFilePath ≠ "" → req.niceId ≠ "" →
    w.writePrincipals cfg.principalsFilePath req.username req.niceId = none

/-- The remote daemon is asked and accepts the request. -/
structure Accepted (daemonKey : String) (d : SSHCertData) : Prop where
  key : daemonKey ≠ ""
  marshal : w.marshal d.request = none
  newRequest : w.newRequest d.url = none
  post : w.post d.url ("Bearer " ++ daemonKey) d.request = .ok 200

/-- The store takes the CA key and the principals of the request. -/
structure Stored (s : CredentialStore) (d : SSHCertData) : Prop where
  caKey : (s.setCAKey lib (d .caCert).toList).isOk = true
  username : Text.trimSpace (d .username).toList ≠ []

/-- The credentials of the request are installed. -/
def Installed (n : Client) (d : SSHCertData) : Prop :=
  match d.mode with
  | .site => ∃ cfg, n.authDaemonServer = some cfg ∧ Processed w cfg d.request
  | .remote => Accepted w n.authDaemonKey d
  | .native => ∃ cfg s, n.authDaemonServer = some cfg ∧ n.sshCredStore = some s ∧
      Processed w cfg d.nativeRequest ∧ Stored lib s d
  | .unknown => False

/-- There is exactly one reply, it has the ID of the request, and it has an error exactly if
the credentials are not installed. -/
def Answers (n : Client) (d : SSHCertData) (replies : List Reply) : Prop :=
  ∃ r, replies = [r] ∧ r.messageId = d .messageId ∧
    (r.error.isSome = true ↔ ¬ Installed lib w n d)

variable {lib w} {n : Client} {d : SSHCertData}

theorem askRemote_eq_none_iff {key : String} : askRemote w key d = none ↔ Accepted w key d := by
  constructor
  · intro h
    unfold askRemote at h
    split at h
    · cases h
    · next hkey =>
      split at h
      · cases h
      · next hmarshal =>
        split at h
        · cases h
        · next hnew =>
          split at h
          · cases h
          · next status hpost =>
            by_cases hstatus : status = 200
            · exact ⟨hkey, hmarshal, hnew, hstatus ▸ hpost⟩
            · rw [if_pos hstatus] at h
              cases h
  · intro h
    simp [askRemote, h.key, h.marshal, h.newRequest, h.post]

/-- One reply without an error answers the request if the credentials are installed. -/
theorem answers_succeeded_iff : Answers lib w n d [d.succeeded] ↔ Installed lib w n d := by
  simp [Answers, SSHCertData.succeeded]

/-- One reply with an error answers the request if they are not. -/
theorem answers_failed_iff {err : String} :
    Answers lib w n d [d.failed err] ↔ ¬ Installed lib w n d := by
  simp [Answers, SSHCertData.failed]

theorem not_answers_two {r r' : Reply} : ¬ Answers lib w n d [r, r'] := by simp [Answers]

theorem answers_site (hmode : d.mode = .site) :
    Answers lib w n d (handleCert lib w n d).replies ↔ n.authDaemonServer = none := by
  cases hserver : n.authDaemonServer with
  | none =>
    have hnot : ¬ Installed lib w n d := by simp [Installed, hmode, hserver]
    simp only [handleCert, hmode, hserver, answers_failed_iff, iff_true]
    exact hnot
  | some cfg => simp [handleCert, hmode, hserver, not_answers_two]

theorem answers_remote (hmode : d.mode = .remote) :
    Answers lib w n d (handleCert lib w n d).replies := by
  have hiff : Installed lib w n d ↔ askRemote w n.authDaemonKey d = none := by
    rw [askRemote_eq_none_iff]
    simp [Installed, hmode]
  cases hask : askRemote w n.authDaemonKey d with
  | none =>
    simp only [handleCert, hmode, hask, answers_succeeded_iff]
    exact hiff.mpr hask
  | some err =>
    simp only [handleCert, hmode, hask, answers_failed_iff, hiff]
    exact (nomatch ·)

theorem answers_native (hmode : d.mode = .native) :
    Answers lib w n d (handleCert lib w n d).replies ↔
      (n.authDaemonServer.isSome = true → n.sshCredStore.isSome = true →
        Installed lib w n d) := by
  cases hserver : n.authDaemonServer with
  | none =>
    have hnot : ¬ Installed lib w n d := by simp [Installed, hmode, hserver]
    simp [handleCert, hmode, hserver, answers_failed_iff, hnot]
  | some cfg =>
    cases hstore : n.sshCredStore with
    | none =>
      have hnot : ¬ Installed lib w n d := by simp [Installed, hmode, hstore]
      simp [handleCert, hmode, hserver, hstore, answers_failed_iff, hnot]
    | some s => simp [handleCert, hmode, hserver, hstore, answers_succeeded_iff]

theorem answers_unknown (hmode : d.mode = .unknown) :
    Answers lib w n d (handleCert lib w n d).replies := by
  simp [handleCert, hmode, answers_failed_iff, Installed]

end Handler

/-- A decodable message gets exactly one reply, with an error exactly if its credentials are
not installed, unless there is a daemon for the mode `site`, or the mode is `native`, the
daemon and the store are there and a step fails. -/
theorem handlePam_answers_iff {F : Type} (lib : Ssh.Library F) (w : World) (n : Client)
    (msg : Json) (hfits : certDecoder.fits msg = true) :
    Answers lib w n (certData msg) (handlePam lib w n msg).replies ↔
      ((certData msg).mode = .site → n.authDaemonServer = none) ∧
        ((certData msg).mode = .native → n.authDaemonServer.isSome = true →
          n.sshCredStore.isSome = true → Installed lib w n (certData msg)) := by
  rw [handlePam, if_pos hfits]
  cases hmode : (certData msg).mode with
  | site => simp [answers_site hmode]
  | remote => simp [answers_remote hmode]
  | native => simp [answers_native hmode]
  | unknown => simp [answers_unknown hmode]

/-! ## Requests for alice -/

/-- Every step outside the program succeeds. -/
def willing : World where
  writeCACertIfNotExists _ _ _ := none
  ensureUser _ _ _ := none
  writePrincipals _ _ _ := none
  marshal _ := none
  newRequest _ := none
  post _ _ _ := .ok 200

/-- A client that runs as root, with an auth daemon and the native SSH server. -/
def rootClient : Client where
  authDaemonServer := some
    { caCertPath := "/etc/ssh/ca.pem"
      force := true
      generateRandomPassword := true
      principalsFilePath := "/var/run/auth-daemon/principals" }
  authDaemonKey := ""
  sshCredStore := some new

def certMessage (mode caCert : String) : Json :=
  .obj [("messageId", .num 7), ("authDaemonMode", .str mode), ("caCert", .str caCert),
    ("username", .str "alice"), ("niceId", .str "alice-laptop")]

theorem handlePam_answers_native :
    certDecoder.fits (certMessage "native" "ssh-ed25519 ca") = true ∧
      Answers (libraryAt 0) willing rootClient (certData (certMessage "native" "ssh-ed25519 ca"))
        (handlePam (libraryAt 0) willing rootClient
          (certMessage "native" "ssh-ed25519 ca")).replies := by
  have hfits : certDecoder.fits (certMessage "native" "ssh-ed25519 ca") = true := by decide +kernel
  have hmode : (certData (certMessage "native" "ssh-ed25519 ca")).mode = .native := by
    decide +kernel
  have hinstalled : Installed (libraryAt 0) willing rootClient
      (certData (certMessage "native" "ssh-ed25519 ca")) := by
    simp only [Installed, hmode]
    refine ⟨_, new, rfl, rfl, ⟨fun _ => rfl, rfl, fun _ _ => rfl⟩, ?_, ?_⟩
    · decide +kernel
    · decide +kernel
  refine ⟨hfits, (handlePam_answers_iff (libraryAt 0) willing rootClient _ hfits).mpr ⟨?_, ?_⟩⟩
  · rw [hmode]
    exact (nomatch ·)
  · exact fun _ _ _ => hinstalled

/-- With the daemon of the site two replies are sent; and in the native mode a CA key that
is rejected is reported as a success. -/
theorem handlePam_misreports :
    certDecoder.fits (certMessage "site" "ssh-ed25519 ca") = true ∧
      (handlePam (libraryAt 0) willing rootClient
        (certMessage "site" "ssh-ed25519 ca")).replies = [⟨7, none⟩, ⟨7, none⟩] ∧
      certDecoder.fits (certMessage "native" "no key") = true ∧
      (new.setCAKey (libraryAt 0) "no key".toList).isOk = false ∧
      (handlePam (libraryAt 0) willing rootClient (certMessage "native" "no key")).replies =
        [⟨7, none⟩] ∧
      ¬ Installed (libraryAt 0) willing rootClient (certData (certMessage "native" "no key")) := by
  have hmode : (certData (certMessage "native" "no key")).mode = .native := by decide +kernel
  have hrejected : (new.setCAKey (libraryAt 0) "no key".toList).isOk = false := by
    decide +kernel
  refine ⟨by decide +kernel, by decide +kernel, by decide +kernel, hrejected,
    by decide +kernel, ?_⟩
  simp only [Installed, hmode]
  rintro ⟨cfg, s, -, hstore, -, hstored⟩
  cases hstore
  have hkey : (certData (certMessage "native" "no key") .caCert).toList = "no key".toList := by
    decide +kernel
  have hok := hstored.caKey
  rw [hkey, hrejected] at hok
  cases hok

end Newt.Pam
