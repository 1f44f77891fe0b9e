import Mathlib.Data.List.Nodup
import Newt.Lib.Dial

/-!
# The allowlist of the browser gateway

The package `browsergateway`: the map of the registered targets with `SetTargets`,
`AddTarget` and `RemoveTarget`, the check `isAllowed`, and the three handlers up to the
address they dial.  A request brings texts; the check reads a host and a number in
them, and the dialer reads the text again.

`isAllowed` ranges over the map in any order: it is given the list of the targets in
the order they are visited.

Main result: `dialed_target_registered`, what is dialed is the destination and the
port of a registered target with the token of the request.
-/

namespace Newt.BrowserGateway

open List HostPort Text

inductive TargetType
  | rdp
  | ssh
  | vnc
  | other (name : String)
deriving DecidableEq

structure Target where
  id : Int
  type : TargetType
  destination : List Char
  destinationPort : Int
  authToken : List Char
deriving DecidableEq

/-- A port number, and a destination without brackets. -/
def Target.Dialable (t : Target) : Prop :=
  (1 ≤ t.destinationPort ∧ t.destinationPort ≤ 65535) ∧
    '[' ∉ t.destination ∧ ']' ∉ t.destination
  deriving Decidable

/-- The map `targets`, with one target for an ID. -/
structure Targets where
  entries : List Target
  nodup : (entries.map Target.id).Nodup

def Targets.empty : Targets where
  entries := []
  nodup := nodup_nil

/-- `delete(g.targets, id)`. -/
def Targets.delete (targets : Targets) (id : Int) : Targets where
  entries := targets.entries.filter (fun t => t.id ≠ id)
  nodup := (filter_sublist.map _).nodup targets.nodup

open Targets

/-- `g.targets[t.ID] = t`. -/
def Targets.put (targets : Targets) (t : Target) : Targets where
  entries := t :: (targets.delete t.id).entries
  nodup := by
    refine nodup_cons.mpr ⟨?_, (targets.delete t.id).nodup⟩
    simp [delete]

inductive Op
  | setTargets (targets : List Target)
  | addTarget (t : Target)
  | removeTarget (id : Int)

/-- `SetTargets`, `AddTarget` and `RemoveTarget`. -/
def Targets.apply (targets : Targets) : Op → Targets
  | .setTargets ts => ts.foldl put empty
  | .addTarget t => targets.put t
  | .removeTarget id => targets.delete id

/-- The targets a new gateway has after some operations. -/
def Targets.after (history : List Op) : Targets :=
  history.foldl apply empty

/-- The targets an operation brings. -/
def Op.targets : Op → List Target
  | .setTargets ts => ts
  | .addTarget t => [t]
  | .removeTarget _ => []

/-- The first target of that type, host and port decides. -/
def isAllowed (visit : List Target) (targetType : TargetType) (host : List Char) (port : Int)
    (authToken : List Char) : Bool :=
  match visit.find? (fun t =>
    t.type = targetType ∧ t.destination = host ∧ t.destinationPort = port) with
  | some t => authToken = t.authToken
  | none => false

def isTokenValid (visit : List Target) (targetType : TargetType) (authToken : List Char) : Bool :=
  visit.any (fun t => t.type = targetType ∧ authToken = t.authToken)

/-- How far a handler comes before it connects to anything. -/
inductive Outcome
  /-- The request is answered with an error. -/
  | http (status : Nat) (message : String)
  /-- The session ends with an error. -/
  | failed (message : String)
  /-- A shell on this host. -/
  | native (username : List Char)
  /-- A TCP connection to `target` for the session. -/
  | dial (target : List Char)
  /-- A TCP connection to `target` that only shows whether it can be reached. -/
  | probe (target : List Char)

/-- The address that is dialed. -/
def Outcome.dialed : Outcome → Option (List Char)
  | .dial target | .probe target => some target
  | _ => none

/-- The fields of the RDCleanPath request that are read before the server is dialed. -/
structure RDCleanPathPdu where
  destination : List Char
  proxyAuth : List Char
  x224 : List UInt8

/-- The parameters of the URL; a parameter that is not given is empty. -/
structure Query where
  mode : List Char := []
  host : List Char := []
  port : List Char := []
  username : List Char := []
  authToken : List Char := []
  checkOnly : List Char := []

/-- The address an RDCleanPath request asks for, with the default port. -/
def rdpTarget (destination : List Char) : List Char :=
  match splitHostPort destination with
  | some _ => destination
  | none => joinHostPort destination "3389".toList

def serveSession (visit : List Target) : Except String RDCleanPathPdu → Outcome
  | .error err => .failed ("read RDCleanPath: " ++ err)
  | .ok pdu =>
    if pdu.destination = [] then .failed "RDCleanPath missing destination"
    else if pdu.x224 = [] then .failed "RDCleanPath missing X224 connection PDU"
    else
      let target := rdpTarget pdu.destination
      -- An error leaves both parts empty.
      let split := (splitHostPort target).getD ([], [])
      if isAllowed visit .rdp split.1 (parseInt split.2) pdu.proxyAuth then .dial target
      else
        .failed ("RDP destination " ++ String.ofList target ++
          " is not in the allowed target list or auth token mismatch")

def handleSSH (visit : List Target) (q : Query) : Outcome :=
  if q.mode = "proxy".toList then
    if q.host = [] ∨ q.username = [] then .http 400 "missing host or username"
    else
      let port := if q.port = [] then "22".toList else q.port
      if isAllowed visit .ssh q.host (parseInt port) q.authToken then
        .dial (joinHostPort q.host port)
      else .http 403 "destination not allowed or auth token mismatch"
  else if isTokenValid visit .ssh q.authToken then
    if q.username = [] then .http 400 "missing username" else .native q.username
  else .http 401 "unauthorized"

def handleVNC (visit : List Target) (q : Query) : Outcome :=
  if q.host = [] then .http 400 "missing host"
  else
    let port := if q.port = [] then "5900".toList else q.port
    if isAllowed visit .vnc q.host (parseInt port) q.authToken then
      let target := joinHostPort q.host port
      if q.checkOnly = "1".toList then .probe target else .dial target
    else .http 403 "destination not allowed or auth token mismatch"

inductive Request
  /-- What `readCleanPath` returns. -/
  | rdp (pdu : Except String RDCleanPathPdu)
  | ssh (q : Query)
  | vnc (q : Query)

def Request.type : Request → TargetType
  | .rdp _ => .rdp
  | .ssh _ => .ssh
  | .vnc _ => .vnc

/-- The token that is presented. -/
def Request.token : Request → List Char
  | .rdp (.ok pdu) => pdu.proxyAuth
  | .rdp (.error _) => []
  | .ssh q | .vnc q => q.authToken

variable {targets : Targets} {t : Target}

/-- The handler of a request. -/
def handle (visit : List Target) : Request → Outcome
  | .rdp pdu => serveSession visit pdu
  | .ssh q => handleSSH visit q
  | .vnc q => handleVNC visit q

/-! ## The registered targets -/

theorem mem_put {t t' : Target} (h : t' ∈ (targets.put t).entries) :
    t' ∈ targets.entries ∨ t' = t := by
  rcases mem_cons.mp h with heq | hmem
  · exact .inr heq
  · exact .inl (mem_of_mem_filter hmem)

theorem mem_foldl_put {ts : List Target} (h : t ∈ (ts.foldl put targets).entries) :
    t ∈ targets.entries ∨ t ∈ ts := by
  induction ts generalizing targets with
  | nil => exact .inl h
  | cons t' ts ih =>
    rcases ih h with hput | hmem
    · rcases mem_put hput with hmem | rfl
      · exact .inl hmem
      · exact .inr mem_cons_self
    · exact .inr (mem_cons_of_mem _ hmem)

/-- An operation registers nothing but its own targets. -/
theorem mem_apply {op : Op} (h : t ∈ (targets.apply op).entries) :
    t ∈ targets.entries ∨ t ∈ op.targets := by
  cases op with
  | setTargets ts =>
    rcases mem_foldl_put h with hempty | hmem
    · cases hempty
    · exact .inr hmem
  | addTarget t' =>
    rcases mem_put h with hmem | rfl
    · exact .inl hmem
    · exact .inr mem_cons_self
  | removeTarget id => exact .inl (mem_of_mem_filter h)

theorem mem_foldl_apply {history : List Op}
    (h : t ∈ (history.foldl apply targets).entries) :
    t ∈ targets.entries ∨ ∃ op ∈ history, t ∈ op.targets := by
  induction history generalizing targets with
  | nil => exact .inl h
  | cons op history ih =>
    rcases ih h with happly | ⟨op', hop', hmem⟩
    · rcases mem_apply happly with hmem | hmem
      · exact .inl hmem
      · exact .inr ⟨op, mem_cons_self, hmem⟩
    · exact .inr ⟨op', mem_cons_of_mem _ hop', hmem⟩

/-- A property of all targets the operations bring holds of the registered ones. -/
theorem after_all {p : Target → Prop} {history : List Op}
    (h : ∀ op ∈ history, ∀ t ∈ op.targets, p t) :
    ∀ t ∈ (after history).entries, p t := by
  intro t ht
  rcases mem_foldl_apply ht with hempty | ⟨op, hop, hmem⟩
  · cases hempty
  · exact h op hop t hmem

/-! ## The check and the dialer -/

theorem mem_of_isAllowed {visit : List Target} {targetType : TargetType} {host : List Char}
    {port : Int} {authToken : List Char}
    (h : isAllowed visit targetType host port authToken = true) :
    ∃ t ∈ visit, t.type = targetType ∧ t.destination = host ∧ t.destinationPort = port ∧
      t.authToken = authToken := by
  unfold isAllowed at h
  split at h
  · next t hfind =>
    have hmatch := find?_some hfind
    rw [decide_eq_true_iff] at hmatch
    exact ⟨t, mem_of_find?_eq_some hfind, hmatch.1, hmatch.2.1, hmatch.2.2,
      (of_decide_eq_true h).symm⟩
  · cases h

/-- The dialer, given `target`, connects to a visited target of that type and token. -/
def Grants (services : List Char → Option Int) (visit : List Target) (targetType : TargetType)
    (authToken target : List Char) : Prop :=
  ∃ t ∈ visit, t.type = targetType ∧ t.authToken = authToken ∧
    Dial.dialAddr services target = some (t.destination, t.destinationPort)

section Handlers

variable {services : List Char → Option Int} {visit : List Target}
variable (hvisit : ∀ t ∈ visit, t.Dialable)
include hvisit

variable {targetType : TargetType} {target : List Char}

/-- A check on what `net.SplitHostPort` returns holds for the address as it stands. -/
theorem grants_of_split {target host port authToken : List Char}
    (hsplit : splitHostPort target = some (host, port))
    (h : isAllowed visit targetType host (parseInt port) authToken = true) :
    Grants services visit targetType authToken target := by
  obtain ⟨t, hmem, htype, hhost, hport, htoken⟩ := mem_of_isAllowed h
  obtain ⟨⟨hpos, hle⟩, -⟩ := hvisit t hmem
  refine ⟨t, hmem, htype, htoken, ?_⟩
  rw [hhost]
  exact Dial.dialAddr_of_split services hsplit hport.symm hpos hle

/-- A check on a host and a port text holds for the address they are joined to. -/
theorem grants_of_join {host port authToken : List Char}
    (h : isAllowed visit targetType host (parseInt port) authToken = true) :
    Grants services visit targetType authToken (joinHostPort host port) := by
  obtain ⟨t, hmem, htype, hhost, hport, htoken⟩ := mem_of_isAllowed h
  obtain ⟨⟨hpos, hle⟩, hbrackets⟩ := hvisit t hmem
  refine ⟨t, hmem, htype, htoken, ?_⟩
  rw [← hhost]
  exact Dial.dialAddr_joinHostPort services hbrackets hport.symm hpos hle

/-- An address without a host and a port is never allowed: no target has port 0. -/
theorem not_isAllowed_unsplit {authToken : List Char} :
    isAllowed visit targetType [] (parseInt []) authToken = false := by
  cases h : isAllowed visit targetType [] (parseInt []) authToken with
  | false => rfl
  | true =>
    obtain ⟨t, hmem, -, -, hport, -⟩ := mem_of_isAllowed h
    obtain ⟨⟨hpos, -⟩, -⟩ := hvisit t hmem
    have hzero : parseInt [] = 0 := by decide
    omega

theorem grants_of_serveSession {pdu : RDCleanPathPdu}
    (h : (serveSession visit (.ok pdu)).dialed = some target) :
    Grants services visit .rdp pdu.proxyAuth target := by
  simp only [serveSession] at h
  split_ifs at h with _ _ hallowed
  · cases h
  · cases h
  · cases h
    cases hsplit : splitHostPort (rdpTarget pdu.destination) with
    | none =>
      rw [hsplit, Option.getD_none, not_isAllowed_unsplit hvisit] at hallowed
      cases hallowed
    | some split =>
      rw [hsplit, Option.getD_some] at hallowed
      exact grants_of_split hvisit hsplit hallowed
  · cases h

theorem grants_of_handleSSH {q : Query} (h : (handleSSH visit q).dialed = some target) :
    Grants services visit .ssh q.authToken target := by
  unfold handleSSH at h
  split at h
  · split at h
    · cases h
    · dsimp only at h
      generalize (if q.port = [] then "22".toList else q.port) = port at h
      split at h
      · next hallowed =>
        cases h
        exact grants_of_join hvisit hallowed
      · cases h
  · split_ifs at h <;> cases h

theorem grants_of_handleVNC {q : Query} (h : (handleVNC visit q).dialed = some target) :
    Grants services visit .vnc q.authToken target := by
  unfold handleVNC at h
  split at h
  · cases h
  · dsimp only at h
    generalize (if q.port = [] then "5900".toList else q.port) = port at h
    split at h
    · next hallowed =>
      split_ifs at h <;> cases h <;> exact grants_of_join hvisit hallowed
    · cases h

theorem grants_of_handle {request : Request} (h : (handle visit request).dialed = some target) :
    Grants services visit request.type request.token target := by
  cases request with
  | rdp pdu =>
    cases pdu with
    | error err => cases h
    | ok pdu => exact grants_of_serveSession hvisit h
  | ssh q => exact grants_of_handleSSH hvisit h
  | vnc q => exact grants_of_handleVNC hvisit h

end Handlers

/-- **Only registered targets are dialed**: after every history of operations whose
targets have a port number and a destination without brackets, and in every order in
which the map is ranged over, the address a handler dials is for the dialer the
destination and the port of a target that is registered for this type and has the
token of the request; `services` are the names of services the dialer may look up. -/
theorem dialed_target_registered (services : List Char → Option Int) (history : List Op)
    (hhistory : ∀ op ∈ history, ∀ t ∈ op.targets, t.Dialable) (visit : List Target)
    (hvisit : visit.Perm (after history).entries) (request : Request)
    (target : List Char) (hdial : (handle visit request).dialed = some target) :
    ∃ t ∈ (after history).entries,
      t.type = request.type ∧ t.authToken = request.token ∧
      Dial.dialAddr services target = some (t.destination, t.destinationPort) := by
  have hdialable : ∀ t ∈ visit, t.Dialable := fun t ht =>
    after_all hhistory t (hvisit.mem_iff.mp ht)
  have hgrants : Grants services visit request.type request.token target :=
    grants_of_handle hdialable hdial
  obtain ⟨t, hmem, hgrant⟩ := hgrants
  exact ⟨t, hvisit.mem_iff.mp hmem, hgrant⟩

/-- A database host with an IPv6 address and its port for SSH, and a desktop. -/
def sampleHistory : List Op :=
  [.setTargets [⟨1, .ssh, "fd00::5".toList, 22, "a".toList⟩],
    .addTarget ⟨2, .rdp, "desktop".toList, 3389, "b".toList⟩]

/-- A signed port with zeros in front of it is dialed as port 22. -/
theorem signed_port_dialed :
    (handle (after sampleHistory).entries (.ssh ⟨"proxy".toList, "fd00::5".toList,
      "+0022".toList, "root".toList, "a".toList, []⟩)).dialed = some "[fd00::5]:+0022".toList ∧
    ∃ t ∈ (after sampleHistory).entries, t.type = .ssh ∧ t.authToken = "a".toList ∧
      Dial.dialAddr (fun _ => none) "[fd00::5]:+0022".toList =
        some (t.destination, t.destinationPort) := by
  have hdial : (handle (after sampleHistory).entries (.ssh ⟨"proxy".toList,
      "fd00::5".toList, "+0022".toList, "root".toList, "a".toList, []⟩)).dialed =
        some "[fd00::5]:+0022".toList := by
    decide
  exact ⟨hdial, dialed_target_registered (fun _ => none) sampleHistory (by decide) _
    (List.Perm.refl _) _ _ hdial⟩

end Newt.BrowserGateway
