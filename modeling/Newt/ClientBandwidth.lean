import Newt.Lib.Float64
import Newt.Lib.Runs
import Newt.Lib.Tasks
import Newt.Lib.Text
import Newt.Lib.WireGuardIpc

/-!
# Bandwidth reports of the clients

Every `LoadRemoteConfig` starts a loop that now and then reads the counters of the
device, works out what each peer has transferred since the last reading, and sends
that.  The loops share the last readings under a lock; the statistics are read and
the time is taken before it, and the report is sent after it.

A loop is at one of five places and the steps of the loops interleave with
each other, with messages that change the peers, and with traffic.  Statistics are
the text the device prints, with any lines about other things.  Megabytes are given
in units of 2⁻²⁰, which are bytes: a `float64` is divided by 1048576 without error.

For no step of the code to read, the system also keeps how many bytes have been
counted for each key in all, and how many there were at the first reading of it.
`KeepsBytes` is the condition under which a step loses no bytes and reports none
twice.
-/

namespace Newt.Clients

namespace Bandwidth

open WireGuard Function Text List

structure PeerReading where
  bytesReceived : Int
  bytesTransmitted : Int
  lastChecked : Nat
  deriving DecidableEq, Repr

structure PeerBandwidth where
  publicKey : List Char
  bytesIn : Int
  bytesOut : Int
  deriving DecidableEq, Repr

/-- The last readings, by the key in hexadecimal. -/
abbrev Readings := List Char → Option PeerReading

/-- The bytes since the last reading; a counter that is lower than it was has been
reset.  No counter is negative, so the difference is an `int64`. -/
def bytesDiff (last current : Int) : Int :=
  let diff := Float64.ofInt (current - last)
  if diff < 0 then Float64.ofInt current else diff

def processPeerBandwidth (lastReadings : Readings) (publicKey : List Char)
    (rxBytes txBytes : Int) (now : Nat) : Readings × Option PeerBandwidth :=
  let currentReading : PeerReading := ⟨rxBytes, txBytes, now⟩
  let readings := update lastReadings publicKey (some currentReading)
  match lastReadings publicKey with
  | none => (readings, none)
  | some lastReading =>
    if lastReading.lastChecked < now then
      let bytesInDiff := bytesDiff lastReading.bytesReceived rxBytes
      let bytesOutDiff := bytesDiff lastReading.bytesTransmitted txBytes
      (readings, if 0 < bytesInDiff ∨ 0 < bytesOutDiff then
          some ⟨publicKey, bytesInDiff, bytesOutDiff⟩
        else none)
    else (readings, none)

def publicKeyField : List Char := "public_key=".toList

def rxField : List Char := "rx_bytes=".toList

def txField : List Char := "tx_bytes=".toList

/-- The variables of the loop over the lines. -/
structure Scan where
  lastReadings : Readings
  peerBandwidths : List PeerBandwidth
  currentPubKey : List Char
  rxBytes : Int
  txBytes : Int

namespace Scan

/-- The current peer is processed, if there is one. -/
def process (now : Nat) (st : Scan) : Scan :=
  if st.currentPubKey ≠ [] then
    let result := processPeerBandwidth st.lastReadings st.currentPubKey st.rxBytes st.txBytes now
    { st with
      lastReadings := result.1
      peerBandwidths := st.peerBandwidths ++ result.2.toList }
  else st

def line (now : Nat) (st : Scan) (line : List Char) : Scan :=
  if publicKeyField.isPrefixOf line then
    { st.process now with
      currentPubKey := trimPrefix publicKeyField line
      rxBytes := 0
      txBytes := 0 }
  else if rxField.isPrefixOf line then
    { st with rxBytes := parseInt (trimPrefix rxField line) }
  else if txField.isPrefixOf line then
    { st with txBytes := parseInt (trimPrefix txField line) }
  else st

end Scan

/-- `util.UnfixKey`; `none` is the end of the program. -/
def unfixKey (hexKey : List Char) : Option (List Char) :=
  (hexDecode hexKey).map base64Encode

/-- The loop that replaces the keys. -/
def unfixKeys : List PeerBandwidth → Option (List PeerBandwidth)
  | [] => some []
  | bandwidth :: rest =>
    match unfixKey bandwidth.publicKey, unfixKeys rest with
    | some key, some rest => some ({ bandwidth with publicKey := key } :: rest)
    | _, _ => none

/-- The keys of `devicePeers`. -/
def devicePeers (lines : List (List Char)) : List (List Char) :=
  (lines.filter publicKeyField.isPrefixOf).map (trimPrefix publicKeyField)

/-- The part of `calculatePeerBandwidth` under the lock, and what it returns. -/
def calculatePeerBandwidth (lastReadings : Readings) (stats : List Char) (now : Nat) :
    Option (Readings × List PeerBandwidth) :=
  let lines := stats.splitOn '\n'
  let st := (lines.foldl (Scan.line now) ⟨lastReadings, [], [], 0, 0⟩).process now
  let readings : Readings := fun publicKey =>
    if publicKey ∈ devicePeers lines then st.lastReadings publicKey else none
  (unfixKeys st.peerBandwidths).map (fun peerBandwidths => (readings, peerBandwidths))

inductive Direction
  | received
  | transmitted
  deriving DecidableEq, Repr

instance {p : Direction → Prop} [DecidablePred p] : Decidable (∀ dir, p dir) :=
  decidable_of_iff (p .received ∧ p .transmitted)
    ⟨fun h dir => match dir with
      | .received => h.1
      | .transmitted => h.2, fun h => ⟨h _, h _⟩⟩

def PeerReading.bytes (reading : PeerReading) : Direction → Int
  | .received => reading.bytesReceived
  | .transmitted => reading.bytesTransmitted

def PeerBandwidth.bytes (bandwidth : PeerBandwidth) : Direction → Int
  | .received => bandwidth.bytesIn
  | .transmitted => bandwidth.bytesOut

/-- The peers of the device and their counters. -/
structure Device where
  keys : List Key
  counter : Key → Direction → Nat
  nodup : keys.Nodup
  valid : ∀ k ∈ keys, k.length = 32
  absent : ∀ k, k ∉ keys → ∀ dir, counter k dir = 0

namespace Device

def empty : Device :=
  { keys := []
    counter := fun _ _ => 0
    nodup := nodup_nil
    valid := fun _ h => absurd h not_mem_nil
    absent := fun _ _ _ => rfl }

/-- A peer is added, unless there is one. -/
def add (d : Device) (key : Key) (hkey : key.length = 32) : Device :=
  if h : key ∈ d.keys then d
  else
    { keys := key :: d.keys
      counter := d.counter
      nodup := nodup_cons.mpr ⟨h, d.nodup⟩
      valid := fun k hk => (mem_cons.mp hk).elim (fun heq => heq ▸ hkey) (d.valid k)
      absent := fun k hk => d.absent k (fun hmem => hk (mem_cons_of_mem _ hmem)) }

/-- The counters of a peer of the device are set. -/
def set (d : Device) (key : Key) (hkey : key ∈ d.keys) (counters : Direction → Nat) : Device :=
  { keys := d.keys
    counter := update d.counter key counters
    nodup := d.nodup
    valid := d.valid
    absent := fun k hk dir => by
      rw [update_of_ne (fun heq : k = key => hk (by rw [heq]; exact hkey))]
      exact d.absent k hk dir }

/-- A peer and its counters go. -/
def remove (d : Device) (key : Key) : Device :=
  { keys := d.keys.filter (· ≠ key)
    counter := update d.counter key (fun _ => 0)
    nodup := d.nodup.filter _
    valid := fun k hk => d.valid k (mem_of_mem_filter hk)
    absent := fun k hk dir => by
      by_cases heq : k = key
      · rw [heq, update_self]
      · rw [update_of_ne heq]
        exact d.absent k (fun hmem => hk (mem_filter.mpr ⟨hmem, by simpa using heq⟩)) dir }

end Device

/-- A line of the statistics about something else. -/
def IsOther (line : List Char) : Prop :=
  '\n' ∉ line ∧ publicKeyField.isPrefixOf line = false ∧ rxField.isPrefixOf line = false ∧
    txField.isPrefixOf line = false
  deriving Decidable

abbrev OtherLines := List { line : List Char // IsOther line }

/-- Statistics: the device as it is read, the lines about other things before the
peers, before the counters of a peer and after them; and the bytes counted by then. -/
structure Stats where
  device : Device
  head : OtherLines
  before : Key → OtherLines
  after : Key → OtherLines
  total : Key → Direction → Nat

namespace Stats

/-- A counter as it is printed. -/
def digits (stats : Stats) (key : Key) (dir : Direction) : List Char :=
  Nat.toDigits 10 (stats.device.counter key dir)

def peerLines (stats : Stats) (key : Key) : List (List Char) :=
  publicKeyLine key :: ((stats.before key).map Subtype.val ++
    (txField ++ stats.digits key .transmitted) :: (rxField ++ stats.digits key .received) ::
      (stats.after key).map Subtype.val)

/-- The text of `IpcGet`, every line with its end. -/
def text (stats : Stats) : List Char :=
  ['\n'].intercalate
    (stats.head.map Subtype.val ++ stats.device.keys.flatMap stats.peerLines ++ [[]])

end Stats

/-- Where a loop is. -/
inductive Loop
  | idle
  | read (stats : Stats)
  | stamped (stats : Stats) (now : Nat)
  | sending (bandwidths : List PeerBandwidth)

structure Sys where
  clock : Nat
  device : Option Device
  lastReadings : Readings
  loops : List Loop
  sent : List PeerBandwidth
  total : Key → Direction → Nat
  start : Key → Option (Direction → Nat)

inductive Event
  | tick (n : Nat)
  | loadRemoteConfig
  | createDevice
  | closeDevice
  | addPeer (key : Key)
  | removePeer (key : Key)
  | reset (key : Key)
  | count (key : Key) (dir : Direction) (n : Nat)
  | read (i : Nat) (head : OtherLines) (before after : Key → OtherLines)
  | readFails (i : Nat)
  | stamp (i : Nat)
  | process (i : Nat)
  | send (i : Nat)
  | sendFails (i : Nat)

namespace Sys

def init : Sys :=
  { clock := 0, device := none, lastReadings := fun _ => none, loops := [], sent := []
    total := fun _ _ => 0, start := fun _ => none }

/-- The first reading of a key is kept. -/
def started (start : Key → Option (Direction → Nat)) (stats : Stats) :
    Key → Option (Direction → Nat) :=
  fun k =>
    match start k with
    | some t => some t
    | none => if k ∈ stats.device.keys then some (stats.total k) else none

def step (s : Sys) : Event → Option Sys
  | .tick n => some { s with clock := s.clock + n }
  | .loadRemoteConfig => some { s with loops := s.loops ++ [.idle] }
  | .createDevice => some { s with device := some Device.empty }
  | .closeDevice => some { s with device := none }
  | .addPeer key =>
    match s.device with
    | none => none
    | some d =>
      if h : key.length = 32 then some { s with device := some (d.add key h) } else none
  | .removePeer key =>
    match s.device with
    | none => none
    | some d => some { s with device := some (d.remove key) }
  | .reset key =>
    match s.device with
    | none => none
    | some d =>
      if h : key ∈ d.keys then some { s with device := some (d.set key h (fun _ => 0)) }
      else none
  | .count key dir n =>
    match s.device with
    | none => none
    | some d =>
      if h : key ∈ d.keys then
        some { s with
               device := some (d.set key h
                 (update (d.counter key) dir ((d.counter key dir + n) % 2 ^ 64)))
               total := update s.total key
                 (update (s.total key) dir (s.total key dir + n)) }
      else none
  | .read i head before after =>
    match s.loops[i]?, s.device with
    | some .idle, none => some { s with loops := s.loops.set i (.sending []) }
    | some .idle, some d =>
      some { s with loops := s.loops.set i (.read ⟨d, head, before, after, s.total⟩) }
    | _, _ => none
  | .readFails i =>
    match s.loops[i]?, s.device with
    | some .idle, some _ => some s
    | _, _ => none
  | .stamp i =>
    match s.loops[i]? with
    | some (.read stats) => some { s with loops := s.loops.set i (.stamped stats s.clock) }
    | _ => none
  | .process i =>
    match s.loops[i]? with
    | some (.stamped stats now) =>
      match calculatePeerBandwidth s.lastReadings stats.text now with
      | none => none
      | some (readings, bandwidths) =>
        some { s with
               lastReadings := readings
               loops := s.loops.set i (.sending bandwidths)
               start := started s.start stats }
    | _ => none
  | .send i =>
    match s.loops[i]? with
    | some (.sending bandwidths) =>
      some { s with loops := s.loops.set i .idle, sent := s.sent ++ bandwidths }
    | _ => none
  | .sendFails i =>
    match s.loops[i]? with
    | some (.sending _) => some { s with loops := s.loops.set i .idle }
    | _ => none

/-- The counter of a peer now; a peer the device does not have has counted nothing. -/
def counter (s : Sys) (k : Key) (dir : Direction) : Nat :=
  match s.device with
  | none => 0
  | some d => d.counter k dir

end Sys

/-- The bytes of a report entry, if it is about the key. -/
def bytesFor (k : Key) (dir : Direction) (bandwidth : PeerBandwidth) : Int :=
  if bandwidth.publicKey = base64Encode k then bandwidth.bytes dir else 0

/-- The bytes of a report that is not sent yet. -/
def Loop.held (k : Key) (dir : Direction) : Loop → Int
  | .sending bandwidths => Tasks.total (bytesFor k dir) bandwidths
  | .idle | .read _ | .stamped _ _ => 0

/-- What the next reading of a counter will find. -/
def due (counter : Int) : Option Int → Int
  | none => 0
  | some last => if last ≤ counter then counter - last else counter

namespace Sys

/-- The last reading of a counter. -/
def last (s : Sys) (k : Key) (dir : Direction) : Option Int :=
  (s.lastReadings (hexEncode k)).map (fun reading => reading.bytes dir)

def due (s : Sys) (k : Key) (dir : Direction) : Int :=
  Bandwidth.due (s.counter k dir) (s.last k dir)

def reported (s : Sys) (k : Key) (dir : Direction) : Int :=
  Tasks.total (bytesFor k dir) s.sent

/-- The bytes of reports on their way and those the next reading will find. -/
def pending (s : Sys) (k : Key) (dir : Direction) : Int :=
  Tasks.total (Loop.held k dir) s.loops + s.due k dir

/-- Reported and pending bytes are those counted since the first reading. -/
def Conserved (s : Sys) : Prop :=
  ∀ k t, s.start k = some t → ∀ dir, s.reported k dir + s.pending k dir = s.total k dir - t dir

end Sys

/-- The number of bytes is a `float64`. -/
def Exact (n : Int) : Prop :=
  Float64.ofInt n = n
  deriving Decidable

/-- The condition on a counter that is read again: it has not changed, or it is read
later, has only grown since, and has not been reset and grown up to the last reading. -/
def Rereads (s : Sys) (stats : Stats) (now : Nat) (k : Key) (dir : Direction)
    (reading : PeerReading) : Prop :=
  let read : Int := stats.device.counter k dir
  let counter : Int := s.counter k dir
  let last := reading.bytes dir
  read = last ∨ reading.lastChecked < now ∧ read ≤ counter ∧
    (last ≤ read ∧ Exact (read - last) ∨ counter < last ∧ Exact read)
  deriving Decidable

variable (s : Sys) (stats : Stats) (now : Nat) (k : Key) (dir : Direction)

/-- The condition on a counter without a last reading: it has only grown since, or,
if its key was forgotten, nothing is due. -/
def FirstReads (s : Sys) (stats : Stats) (k : Key) (dir : Direction) :
    Option (Direction → Nat) → Prop
  | some _ => s.counter k dir = stats.device.counter k dir ∨ s.counter k dir = 0
  | none =>
    stats.device.counter k dir ≤ s.counter k dir ∧
      s.total k dir + stats.device.counter k dir = stats.total k dir + s.counter k dir

instance (t : Option (Direction → Nat)) : Decidable (FirstReads s stats k dir t) := by
  unfold FirstReads
  split <;> infer_instance

def Reads (s : Sys) (stats : Stats) (now : Nat) (k : Key) (dir : Direction) :
    Option PeerReading → Prop
  | some reading => Rereads s stats now k dir reading
  | none => FirstReads s stats k dir (s.start k)

instance (r : Option PeerReading) : Decidable (Reads s stats now k dir r) := by
  unfold Reads
  split <;> infer_instance

/-- The condition on a counter that is processed; it is an `int64`, too. -/
def Accounts (s : Sys) (stats : Stats) (now : Nat) (k : Key) (dir : Direction) : Prop :=
  stats.device.counter k dir < 2 ^ 63 ∧
    Reads s stats now k dir (s.lastReadings (hexEncode k))
  deriving Decidable

/-- The condition on statistics that are processed: it holds of their counters, and
nothing is due of a peer that is not among them. -/
def KeepsProcessed (s : Sys) : Option Loop → Prop
  | some (.stamped stats now) =>
    (∀ k ∈ stats.device.keys, ∀ dir, Accounts s stats now k dir) ∧
      ∀ d ∈ s.device, ∀ k ∈ d.keys, k ∉ stats.device.keys → ∀ dir, s.due k dir = 0
  | _ => True

instance (loop : Option Loop) : Decidable (KeepsProcessed s loop) := by
  unfold KeepsProcessed
  split <;> infer_instance

/-- The condition on traffic: a counter that has been reset does not get up to its
last reading, and a key that was forgotten has no traffic. -/
def KeepsCounted (s : Sys) (key : Key) (dir : Direction) (n : Nat) : Option Int → Prop
  | some last => last ≤ s.counter key dir ∨ (s.counter key dir + n : Int) < last
  | none => s.start key = none

instance (n : Nat) (last : Option Int) : Decidable (KeepsCounted s k dir n last) := by
  unfold KeepsCounted
  split <;> infer_instance

def isEmptyReport : Option Loop → Bool
  | some (.sending bandwidths) => bandwidths.isEmpty
  | none | some .idle | some (.read _) | some (.stamped _ _) => true

/-- The condition on a step: counters are taken away while nothing is due, and only
empty reports fail to be sent. -/
def KeepsBytes (s : Sys) : Event → Prop
  | .createDevice | .closeDevice => ∀ d ∈ s.device, ∀ k ∈ d.keys, ∀ dir, s.due k dir = 0
  | .removePeer key | .reset key => ∀ dir, s.due key dir = 0
  | .count key dir n =>
    s.counter key dir + n < 2 ^ 64 ∧ KeepsCounted s key dir n (s.last key dir)
  | .process i => KeepsProcessed s s.loops[i]?
  | .sendFails i => isEmptyReport s.loops[i]? = true
  | .tick _ | .loadRemoteConfig | .addPeer _ | .read _ _ _ _ | .readFails _ | .stamp _ | .send _ =>
    True

instance (e : Event) : Decidable (KeepsBytes s e) := by
  unfold KeepsBytes
  split <;> infer_instance

end Bandwidth

end Newt.Clients
