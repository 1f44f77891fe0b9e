import Mathlib.Data.List.Basic
import Newt.Lib.Runs

/-!
# The configuration version a ping reports

Messages of the server may carry a `configVersion`, and every `newt/ping` of the client
carries one back.  The read pump stores the version of a message before it looks for
its handler, and raises `processingMessage` only while the handler runs; `sendPing`
reads the flag and the version in two steps.

The read pump and each call of `sendPing` stand at a place of their function, and a
step brings one of them to the next.  Pings of an old connection may still be on their
way when the next monitor sends its own, so there is any number of them.  The state
also keeps, for no step of the code to read, the messages whose handlers have returned.

`pings_report_applied_version` says when every ping carries the version of the last of
these messages that had one.
-/

namespace Newt.ConfigVersion

/-- A message of the server; its data is read by the handlers only. -/
structure WSMessage where
  type : String
  configVersion : Option Int := none
  deriving DecidableEq, Repr

/-- The field `ConfigVersion` after the message was decoded. -/
def WSMessage.version (m : WSMessage) : Int :=
  m.configVersion.getD 0

/-- The version of the last of these messages that carried one. -/
def applied (messages : List WSMessage) : Int :=
  ((messages.filterMap WSMessage.configVersion).getLast?).getD 0

/-- The places of the loop of `readPumpWithDisconnectDetection`. -/
inductive PumpPC
  /-- In `ReadMessage`. -/
  | read
  /-- Before `setConfigVersion`. -/
  | decoded (msg : WSMessage)
  /-- Before the lookup of the handler. -/
  | published (msg : WSMessage)
  /-- A handler was found, before `processingMessage = true`. -/
  | found (msg : WSMessage)
  /-- The handler runs. -/
  | handler (msg : WSMessage)
  /-- The handler has returned, before `processingMessage = false`. -/
  | handled
  deriving DecidableEq, Repr

/-- The message whose version is stored and whose handler has not returned. -/
def PumpPC.waiting : PumpPC → Option WSMessage
  | .published msg | .found msg | .handler msg => some msg
  | .read | .decoded _ | .handled => none

/-- A ping with the version it carries, and the messages whose handlers had returned
when the version was read. -/
structure Ping where
  configVersion : Int
  completed : List WSMessage
  deriving DecidableEq, Repr

/-- The places of `sendPing`. -/
inductive PingPC
  | test
  | processing
  | version
  | write (ping : Ping)
  | returned
  deriving DecidableEq, Repr

structure Client where
  handlers : List String
  configVersion : Int := 0
  processingMessage : Bool := false
  pump : PumpPC := .read
  pings : List PingPC := []
  completed : List WSMessage := []
  /-- The pings that were written, the last one first. -/
  sent : List Ping := []
  deriving DecidableEq, Repr

inductive Event
  /-- `ReadMessage` returns; `none` is a message that cannot be decoded. -/
  | receive (msg : Option WSMessage)
  | pump
  | callPing
  /-- A ping moves on; `ok` is false if there is no connection or its write fails. -/
  | ping (i : Nat) (ok : Bool)
  deriving DecidableEq, Repr

namespace Client

/-- The next step of the read pump after it has decoded a message. -/
def onPump (s : Client) : Option Client :=
  match s.pump with
  | .read => none
  | .decoded msg => some { s with configVersion := msg.version, pump := .published msg }
  | .published msg =>
    some { s with pump := if msg.type ∈ s.handlers then .found msg else .read }
  | .found msg => some { s with processingMessage := true, pump := .handler msg }
  | .handler msg => some { s with completed := s.completed ++ [msg], pump := .handled }
  | .handled => some { s with processingMessage := false, pump := .read }

/-- The next step of a ping. -/
def onPing (s : Client) (i : Nat) (ok : Bool) : PingPC → Option Client
  | .test => some { s with pings := s.pings.set i (if ok then .processing else .returned) }
  | .processing =>
    some { s with pings := s.pings.set i (if s.processingMessage then .returned else .version) }
  | .version =>
    some { s with pings := s.pings.set i (.write ⟨s.configVersion, s.completed⟩) }
  | .write ping =>
    some { s with
      pings := s.pings.set i .returned
      sent := if ok then ping :: s.sent else s.sent }
  | .returned => none

def step (s : Client) : Event → Option Client
  | .receive msg =>
    if s.pump = .read then some { s with pump := msg.elim .read .decoded } else none
  | .pump => s.onPump
  | .callPing => some { s with pings := s.pings ++ [.test] }
  | .ping i ok => (s.pings[i]?).bind (s.onPing i ok)

/-- Every ping that was sent carries the version of the last message that had one among
those whose handlers had returned. -/
def Truthful (s : Client) : Prop :=
  ∀ ping ∈ s.sent, ping.configVersion = applied ping.completed
  deriving Decidable

/-- A message that leaves the stored version right: it carries one and has a handler, or
it repeats the one that is in force. -/
def Versioned (s : Client) (msg : WSMessage) : Prop :=
  (msg.configVersion.isSome ∧ msg.type ∈ s.handlers) ∨ msg.version = applied s.completed
  deriving Decidable

/-- No new version waits for its handler. -/
def Settled (s : Client) : Prop :=
  ∀ msg ∈ s.pump.waiting, msg.version = applied s.completed
  deriving Decidable

/-- The condition on a step: the messages that come leave the version right, and no ping
reads it while a new one waits for its handler. -/
def Orderly (s : Client) : Event → Prop
  | .receive (some msg) => s.Versioned msg
  | .ping i _ => s.pings[i]? = some .version → s.Settled
  | _ => True

instance (s : Client) (e : Event) : Decidable (s.Orderly e) := by
  unfold Orderly
  split <;> infer_instance

/-- What the stored version is at each place of the pump. -/
def Stored (s : Client) : Prop :=
  match s.pump with
  | .decoded msg => s.configVersion = applied s.completed ∧ s.Versioned msg
  | .published msg => s.configVersion = msg.version ∧ s.Versioned msg
  | .found msg | .handler msg =>
    s.configVersion = msg.version ∧
      (msg.configVersion.isSome ∨ msg.version = applied s.completed)
  | .read | .handled => s.configVersion = applied s.completed

/-- The invariant: the stored version, and the pings that were sent or are on their way. -/
structure Sound (s : Client) : Prop where
  stored : s.Stored
  truthful : s.Truthful
  writes : ∀ ping, .write ping ∈ s.pings → ping.configVersion = applied ping.completed

end Client

/-- A message with a version is the one in force once its handler has returned. -/
theorem applied_append_of_isSome {msg : WSMessage} (h : msg.configVersion.isSome)
    (messages : List WSMessage) : applied (messages ++ [msg]) = msg.version := by
  obtain ⟨v, hv⟩ := Option.isSome_iff_exists.mp h
  simp [applied, WSMessage.version, hv, List.filterMap_append]

/-- A message without a version changes nothing when its handler returns. -/
theorem applied_append_of_isNone {msg : WSMessage} (h : msg.configVersion = none)
    (messages : List WSMessage) : applied (messages ++ [msg]) = applied messages := by
  simp [applied, h, List.filterMap_append]

namespace Client

variable {s s' : Client}

/-- A step that touches no ping has the stored version to account for. -/
theorem Sound.withPump (h : s.Sound) {t : Client} (hstored : t.Stored)
    (hsent : t.sent = s.sent) (hpings : t.pings = s.pings) : t.Sound where
  stored := hstored
  truthful := by
    unfold Truthful
    rw [hsent]
    exact h.truthful
  writes := by
    rw [hpings]
    exact h.writes

theorem Sound.receive (h : s.Sound) (hread : s.pump = .read) {msg : Option WSMessage}
    (hcond : s.Orderly (.receive msg)) : Sound { s with pump := msg.elim .read .decoded } := by
  have hstored : s.configVersion = applied s.completed := by
    have := h.stored
    rwa [Stored, hread] at this
  cases msg with
  | none => exact h.withPump hstored rfl rfl
  | some m => exact h.withPump ⟨hstored, hcond⟩ rfl rfl

/-- When the handler returns, the version of its message is in force. -/
theorem applied_handled {msg : WSMessage}
    (h : msg.configVersion.isSome ∨ msg.version = applied s.completed) :
    msg.version = applied (s.completed ++ [msg]) := by
  by_cases hsome : msg.configVersion.isSome
  · exact (applied_append_of_isSome hsome s.completed).symm
  · rw [applied_append_of_isNone (Option.not_isSome_iff_eq_none.mp hsome)]
    exact h.resolve_left hsome

theorem Sound.onPump (h : s.Sound) (hs : s.onPump = some s') : s'.Sound := by
  have hstored := h.stored
  cases hpc : s.pump <;> rw [Stored, hpc] at hstored <;> rw [Client.onPump, hpc] at hs <;> cases hs
  case decoded msg => exact h.withPump ⟨rfl, hstored.2⟩ rfl rfl
  case published msg =>
    obtain ⟨hversion, hversioned⟩ := hstored
    by_cases hmem : msg.type ∈ s.handlers
    · rw [if_pos hmem]
      exact h.withPump ⟨hversion, hversioned.imp And.left id⟩ rfl rfl
    · rw [if_neg hmem]
      have hsame : msg.version = applied s.completed :=
        hversioned.resolve_left (fun hboth => hmem hboth.2)
      exact h.withPump (hversion.trans hsame) rfl rfl
  case found msg => exact h.withPump hstored rfl rfl
  case handled => exact h.withPump hstored rfl rfl
  case handler msg =>
    exact h.withPump (hstored.1.trans (applied_handled hstored.2)) rfl rfl

/-- A settled client stores the version in force. -/
theorem Sound.configVersion_eq (h : s.Sound) (hsettled : s.Settled) :
    s.configVersion = applied s.completed := by
  have hstored := h.stored
  cases hpc : s.pump with
  | read | handled =>
    rw [Stored, hpc] at hstored
    exact hstored
  | decoded msg =>
    rw [Stored, hpc] at hstored
    exact hstored.1
  | published msg | found msg | handler msg =>
    rw [Stored, hpc] at hstored
    rw [Settled, hpc] at hsettled
    exact hstored.1.trans (hsettled msg rfl)

/-- A ping that moves to a place where it holds no version, or the right one. -/
theorem Sound.setPing (h : s.Sound) (i : Nat) {pc : PingPC}
    (hpc : ∀ ping, pc = .write ping → ping.configVersion = applied ping.completed)
    {sent : List Ping} (hsent : ∀ ping ∈ sent, ping.configVersion = applied ping.completed) :
    Sound { s with pings := s.pings.set i pc, sent := sent } where
  stored := h.stored
  truthful := hsent
  writes := by
    intro ping hmem
    rcases List.mem_or_eq_of_mem_set hmem with hold | hnew
    · exact h.writes ping hold
    · exact hpc ping hnew.symm

theorem Sound.onPing (h : s.Sound) {i : Nat} {ok : Bool} {pc : PingPC}
    (hi : s.pings[i]? = some pc) (hcond : s.Orderly (.ping i ok))
    (hs : s.onPing i ok pc = some s') : s'.Sound := by
  cases pc with
  | test =>
    cases hs
    exact h.setPing i (by cases ok <;> simp) h.truthful
  | processing =>
    cases hs
    exact h.setPing i (by cases s.processingMessage <;> simp) h.truthful
  | version =>
    cases hs
    refine h.setPing i ?_ h.truthful
    intro ping heq
    obtain rfl := PingPC.write.inj heq
    exact h.configVersion_eq (hcond hi)
  | write ping =>
    cases hs
    have hping := h.writes ping (List.mem_of_getElem? hi)
    refine h.setPing i (by simp) ?_
    cases ok with
    | false => exact h.truthful
    | true => exact List.forall_mem_cons.mpr ⟨hping, h.truthful⟩
  | returned => cases hs

theorem Sound.step (h : s.Sound) {e : Event} (hcond : s.Orderly e) (hs : s.step e = some s') :
    s'.Sound := by
  cases e with
  | receive msg =>
    rw [Client.step] at hs
    split at hs
    · rename_i hread
      cases hs
      exact h.receive hread hcond
    · cases hs
  | pump => exact h.onPump hs
  | callPing =>
    cases hs
    refine ⟨h.stored, h.truthful, ?_⟩
    intro ping hmem
    rcases List.mem_append.mp hmem with hold | hnew
    · exact h.writes ping hold
    · cases List.mem_singleton.mp hnew
  | ping i ok =>
    obtain ⟨pc, hi, hs⟩ := Option.bind_eq_some_iff.mp hs
    exact h.onPing hi hcond hs

theorem sound_start (handlers : List String) : Sound { handlers := handlers } where
  stored := rfl
  truthful := by
    intro ping hmem
    cases hmem
  writes := by
    intro ping hmem
    cases hmem

end Client

open Client

/-- **Pings and versions.**  In every run in which each message carries a version and
has a handler, or repeats the version in force, and in which no ping reads the version
while a new one waits for its handler, every ping that is sent carries the version of
the last message with one whose handler had returned when the version was read. -/
theorem pings_report_applied_version (handlers : List String) (es : List Event) (s : Client)
    (hmeets : Runs.Meets step Orderly { handlers := handlers } es)
    (hrun : Runs.run step { handlers := handlers } es = some s) : s.Truthful :=
  (Runs.run_invariant (fun h hcond hs => Sound.step h hcond hs) (sound_start handlers)
    hmeets hrun).truthful

/-- The steps of the pump from a message to the end of its handler. -/
def handle (msg : WSMessage) : List Event :=
  [.receive (some msg), .pump, .pump, .pump, .pump, .pump]

/-- The steps of a ping that is sent. -/
def sendPing (i : Nat) : List Event :=
  [.callPing, .ping i true, .ping i true, .ping i true, .ping i true]

/-- A message with version 5 and a handler for it. -/
def connectMessage : WSMessage :=
  { type := "newt/wg/connect", configVersion := some 5 }

/-- The state after the message was handled and a ping was sent. -/
def reported : Client :=
  { handlers := [connectMessage.type], configVersion := 5, pings := [.returned],
    completed := [connectMessage], sent := [⟨5, [connectMessage]⟩] }

theorem handled_version_reported :
    Runs.Meets step Orderly { handlers := [connectMessage.type] }
        (handle connectMessage ++ sendPing 0) ∧
      Runs.run step { handlers := [connectMessage.type] }
        (handle connectMessage ++ sendPing 0) = some reported ∧
      reported.Truthful := by
  have hmeets : Runs.Meets step Orderly { handlers := [connectMessage.type] }
      (handle connectMessage ++ sendPing 0) := by decide
  have hrun : Runs.run step { handlers := [connectMessage.type] }
      (handle connectMessage ++ sendPing 0) = some reported := by decide
  exact ⟨hmeets, hrun, pings_report_applied_version _ _ _ hmeets hrun⟩

/-- A message without a version: its handler has returned, and the next ping reports 0
where version 5 is in force. -/
def fallenBack : Client :=
  { handlers := [connectMessage.type, "newt/pong"], pings := [.returned],
    completed := [connectMessage, { type := "newt/pong" }],
    sent := [⟨0, [connectMessage, { type := "newt/pong" }]⟩] }

/-- A ping between the store of a version and the flag: it reports version 5, whose
handler has not started. -/
def reportedEarly : Client :=
  { handlers := [connectMessage.type], configVersion := 5, pings := [.returned],
    pump := .published connectMessage, sent := [⟨5, []⟩] }

/-- **A version that falls back, and a version that is not applied.** -/
theorem pings_report_other_version :
    (Runs.run step { handlers := [connectMessage.type, "newt/pong"] }
        (handle connectMessage ++ handle { type := "newt/pong" } ++ sendPing 0) =
          some fallenBack ∧
      ¬ fallenBack.Truthful) ∧
    (Runs.run step { handlers := [connectMessage.type] }
        ([.receive (some connectMessage), .pump] ++ sendPing 0) = some reportedEarly ∧
      ¬ reportedEarly.Truthful) := by decide

end Newt.ConfigVersion
