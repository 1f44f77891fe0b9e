import Newt.Lib.Runs
import Newt.ProxyHandler

/-!
# Pings and the replies they are matched with

`proxyPing` sends an echo request to the destination of a ping, on a raw socket,
on an unprivileged one or by the `ping` program, and injects a reply into the
tunnel when one of them succeeds.  A raw socket receives every ICMP message that
reaches the host, so the loop of `sendAndReceiveICMP` sees the answers to all
other pings too.  It looks at the type, the sequence number and, on a raw socket,
the identifier of a message; the sender it only logs.

The system is a list of pings with their sockets, and messages arrive at the host
at any time.  An arrival is kept with whether the request of the socket had been
sent when it came.

* `injected_replies_answer_requests` — every injected reply stands for an answer
  from the address the request was sent to, when each message that a socket accepts
  comes from the address of that socket;
* `foreign_reply_is_injected` — one host answers, and a ping of another host with
  the same identifier and sequence number succeeds with it.
-/

namespace Newt.Pings

open Bytes Netip ProxyHandler List Runs

/-- The body of an ICMP message, as far as the matching loop reads it. -/
inductive Body
  | echo (id seq : Nat)
  | other
  deriving DecidableEq, Repr

structure Message where
  type : Nat
  body : Body
  deriving DecidableEq, Repr

/-- `icmp.ParseMessage(1, b)`: an echo request or reply has eight bytes at least.
It may also fail on messages of other types; the loop passes over those in any
case. -/
def parseMessage (b : ByteString) : Option Message :=
  if b.length < 4 then none
  else if num b 0 1 = 0 ∨ num b 0 1 = 8 then
    if b.length < 8 then none
    else some { type := num b 0 1, body := .echo (num b 4 2) (num b 6 2) }
  else some { type := num b 0 1, body := .other }

/-- An ICMP message that reached the host. -/
structure Datagram where
  peer : Addr
  data : ByteString
  deriving DecidableEq, Repr

/-- A message in the queue of a socket, and whether the request had been sent on
the socket when the message arrived. -/
structure Arrival extends Datagram where
  requested : Bool
  deriving DecidableEq, Repr

/-- An echo request as it left the host. -/
structure Request where
  id : Nat
  seq : Nat
  dst : Addr
  deriving DecidableEq, Repr

/-- An ICMP socket: the identifier of its requests, the request that was sent on
it and the messages waiting in it. -/
structure Socket where
  unprivileged : Bool
  id : Nat
  request : Option Request
  queue : List Arrival
  deriving DecidableEq, Repr

/-- The places of `proxyPing`: before each of the three methods, in
`sendAndReceiveICMP` with an open socket, after a method has succeeded, and at the
end. -/
inductive PingPC
  | tryRawICMP
  | sendAndReceiveICMP (conn : Socket)
  | tryUnprivilegedICMP
  | tryPingCommand
  | success
  | injected (reply : ByteString)
  | returned
  | panicked
  deriving DecidableEq, Repr

/-- A call of `proxyPing`, with the requests sent for it and the messages it has
received. -/
structure Ping where
  job : PingJob
  pc : PingPC
  requests : List Request
  received : List Arrival
  deriving DecidableEq, Repr

/-- What happens to one ping: its own steps, with what the operating system
answers. -/
inductive PingEvent
  | listenRaw (ok : Bool)
  | listenUnprivileged (id : Option Nat)
  | write (ok : Bool)
  | read
  | readError
  | pingCommand (reply : Option (Nat × ByteString))
  | queueReply (room : Bool)
  deriving DecidableEq, Repr

inductive Event
  | proxyPing (job : PingJob)
  | arrive (d : Datagram)
  | ping (i : Nat) (e : PingEvent)
  deriving DecidableEq, Repr

/-- The tests of the loop in `sendAndReceiveICMP` on the bytes it has read. -/
def isReply (ident seq : UInt16) (ignoreIdent : Bool) (b : ByteString) : Bool :=
  match parseMessage b with
  | none => false
  | some m =>
    if m.type ≠ 0 then false
    else
      match m.body with
      | .other => false
      | .echo id sq =>
        if sq ≠ seq.toNat then false
        else if !ignoreIdent && id ≠ ident.toNat then false
        else true

/-- Where a request for an address goes.  `net.ResolveIPAddr("ip4", …)` takes the
IPv4 addresses, mapped ones included; `net.ParseIP` gives nil for an address with a
zone, and a nil address is 0.0.0.0. -/
def resolve (unprivileged : Bool) : Addr → Option Addr
  | .zero => if unprivileged then some (.v4 0) else none
  | .v4 bits => some (.v4 bits)
  | .v6 bits zone =>
    if unprivileged = true ∧ zone ≠ "" then some (.v4 0)
    else ((Addr.v6 bits zone).as4).map .v4

/-- The identifier and sequence number of an echo reply. -/
def echoReply (b : ByteString) : Option (Nat × Nat) :=
  match parseMessage b with
  | none => none
  | some m =>
    if m.type ≠ 0 then none
    else
      match m.body with
      | .other => none
      | .echo id seq => some (id, seq)

/-- **The message answers the request**: it is an echo reply with the identifier
and the sequence number of the request, it came after the request had been sent and
from the address the request was sent to. -/
def Answers (r : Request) (a : Arrival) : Prop :=
  echoReply a.data = some (r.id, r.seq) ∧ a.requested = true ∧ a.peer = r.dst
  deriving Decidable

namespace Socket

/-- `icmp.ListenPacket`. -/
def opened (unprivileged : Bool) (id : Nat) : Socket :=
  { unprivileged := unprivileged, id := id, request := none, queue := [] }

/-- The kernel gives an unprivileged socket the echo replies with its identifier,
and a raw socket everything. -/
def receives (k : Socket) (d : Datagram) : Bool :=
  !k.unprivileged || (echoReply d.data).map Prod.fst == some k.id

/-- A message reaches the socket. -/
def arrive (k : Socket) (d : Datagram) : Socket :=
  if k.receives d then
    { k with queue := k.queue ++ [{ toDatagram := d, requested := k.request.isSome }] }
  else k

/-- Where `tryICMPMethods` goes on when the method of this socket has failed. -/
def nextMethod (k : Socket) : PingPC :=
  if k.unprivileged then .tryPingCommand else .tryUnprivilegedICMP

end Socket

namespace Ping

/-- The loop takes this message for the reply.  It reads into a buffer of 1500
bytes, and ignores the identifier on an unprivileged socket. -/
def accepts (p : Ping) (k : Socket) (d : Datagram) : Bool :=
  isReply p.job.ident p.job.seq k.unprivileged (d.data.take 1500)

/-- A message reaches the host. -/
def arrive (p : Ping) (d : Datagram) : Ping :=
  match p.pc with
  | .sendAndReceiveICMP k => { p with pc := .sendAndReceiveICMP (k.arrive d) }
  | _ => p

/-- The write of the request: on an unprivileged socket the kernel sets the
identifier. -/
def write (p : Ping) (k : Socket) (ok : Bool) : Ping :=
  match resolve k.unprivileged p.job.actualDstIP with
  | none => { p with pc := k.nextMethod }
  | some dst =>
    if ok then
      let r : Request := { id := k.id, seq := p.job.seq.toNat, dst := dst }
      { p with pc := .sendAndReceiveICMP { k with request := some r },
               requests := p.requests ++ [r] }
    else { p with pc := k.nextMethod }

/-- `tryPingCommand`.  The program reports success when it has received an answer
from the address; it chooses the identifier, and its first request has number 1. -/
def pingCommand (p : Ping) : Option (Nat × ByteString) → Option Ping
  | none => some { p with pc := .returned }
  | some (id, data) =>
    let r : Request := { id := id, seq := 1, dst := p.job.actualDstIP }
    let a : Arrival := { peer := p.job.actualDstIP, data := data, requested := true }
    if Answers r a then
      some { p with pc := .success, requests := p.requests ++ [r], received := p.received ++ [a] }
    else none

/-- The next step of `proxyPing`. -/
def step (p : Ping) : PingEvent → Option Ping
  | .listenRaw ok =>
    match p.pc with
    | .tryRawICMP =>
      if ok then
        some { p with pc := .sendAndReceiveICMP (.opened false p.job.ident.toNat) }
      else some { p with pc := .tryUnprivilegedICMP }
    | _ => none
  | .listenUnprivileged opened =>
    match p.pc with
    | .tryUnprivilegedICMP =>
      match opened with
      | some id => some { p with pc := .sendAndReceiveICMP (.opened true id) }
      | none => some { p with pc := .tryPingCommand }
    | _ => none
  | .write ok =>
    match p.pc with
    | .sendAndReceiveICMP k => if k.request = none then some (p.write k ok) else none
    | _ => none
  | .read =>
    match p.pc with
    | .sendAndReceiveICMP k =>
      match k.request, k.queue with
      | some _, a :: rest =>
        some { p with
          pc := if p.accepts k a.toDatagram then .success
                else .sendAndReceiveICMP { k with queue := rest },
          received := p.received ++ [a] }
      | _, _ => none
    | _ => none
  | .readError =>
    match p.pc with
    | .sendAndReceiveICMP k => if k.request = none then none
                               else some { p with pc := k.nextMethod }
    | _ => none
  | .pingCommand reply =>
    match p.pc with
    | .tryPingCommand => p.pingCommand reply
    | _ => none
  | .queueReply room =>
    match p.pc with
    | .success =>
      match pingReply p.job with
      | .ok reply => some { p with pc := if room then .injected reply else .returned }
      | .error _ => some { p with pc := .panicked }
    | _ => none

/-- A reply was injected into the tunnel. -/
def Injected (p : Ping) : Prop :=
  match p.pc with
  | .injected _ => True
  | _ => False

/-- One of the requests was answered. -/
def Answered (p : Ping) : Prop :=
  ∃ r ∈ p.requests, ∃ a ∈ p.received, Answers r a
  deriving Decidable

instance (p : Ping) : Decidable p.Injected := by
  unfold Injected
  split <;> infer_instance

end Ping

/-- A call of `proxyPing` begins, a message reaches the host, or a call takes a
step. -/
def step (s : List Ping) : Event → Option (List Ping)
  | .proxyPing job =>
    some (s ++ [{ job := job, pc := .tryRawICMP, requests := [], received := [] }])
  | .arrive d => some (s.map (fun p => p.arrive d))
  | .ping i e => (s[i]?).bind (fun p => (p.step e).map (fun p' => s.set i p'))

/-- An open socket of the ping that accepts the message has sent its request to
the sender of the message. -/
def Ping.SentTo (p : Ping) (d : Datagram) : Prop :=
  match p.pc with
  | .sendAndReceiveICMP k =>
    k.receives d = true → p.accepts k d = true → k.request.map Request.dst = some d.peer
  | _ => True

instance (p : Ping) (d : Datagram) : Decidable (p.SentTo d) := by
  unfold Ping.SentTo
  split <;> infer_instance

/-- Whatever message arrives, each socket that accepts it has sent its request to
the sender of the message. -/
def RepliesFromDestinations (s : List Ping) : Event → Prop
  | .arrive d => ∀ p ∈ s, p.SentTo d
  | _ => True

instance (s : List Ping) (e : Event) : Decidable (RepliesFromDestinations s e) := by
  unfold RepliesFromDestinations
  split <;> infer_instance

section Matching

theorem parseMessage_take (b : ByteString) {m : Nat} (h : 8 ≤ m) :
    parseMessage (b.take m) = parseMessage b := by
  have h4 : (b.take m).length < 4 ↔ b.length < 4 := by
    rw [length_take]
    omega
  have h8 : (b.take m).length < 8 ↔ b.length < 8 := by
    rw [length_take]
    omega
  unfold parseMessage
  simp only [h4, h8, num_take b (show 0 + 1 ≤ m by omega), num_take b (show 4 + 2 ≤ m by omega),
    num_take b (show 6 + 2 ≤ m by omega)]

/-- What the loop accepts is an echo reply with the sequence number and, unless it
is ignored, with the identifier. -/
theorem isReply_eq_true_iff {ident seq : UInt16} {ignoreIdent : Bool} {b : ByteString} :
    isReply ident seq ignoreIdent b = true ↔
      ∃ id, echoReply b = some (id, seq.toNat) ∧
        (ignoreIdent = false → id = ident.toNat) := by
  unfold isReply echoReply
  cases parseMessage b with
  | none => simp
  | some m =>
    obtain ⟨type, body⟩ := m
    by_cases htype : type = 0
    · cases body with
      | other => simp [htype]
      | echo id sq =>
        by_cases hseq : sq = seq.toNat <;> cases ignoreIdent <;> simp [htype, hseq]
    · simp [htype]

theorem Ping.accepts_eq_true_iff {p : Ping} {k : Socket} {d : Datagram} :
    p.accepts k d = true ↔
      ∃ id, echoReply d.data = some (id, p.job.seq.toNat) ∧
        (k.unprivileged = false → id = p.job.ident.toNat) := by
  unfold Ping.accepts
  rw [isReply_eq_true_iff]
  unfold echoReply
  rw [parseMessage_take d.data (by omega)]

end Matching

section Invariant

/-- The state of an open socket: its identifier, the request sent on it, and that
what the loop will accept answers the request. -/
structure Socket.Sound (k : Socket) (p : Ping) : Prop where
  ident : k.unprivileged = false → k.id = p.job.ident.toNat
  request : ∀ r, k.request = some r → r ∈ p.requests ∧ r.id = k.id ∧ r.seq = p.job.seq.toNat
  queue : ∀ a ∈ k.queue, k.receives a.toDatagram = true ∧
    (p.accepts k a.toDatagram = true →
      a.requested = true ∧ k.request.map Request.dst = some a.peer)

structure Ping.Sound (p : Ping) : Prop where
  socket : ∀ k, p.pc = .sendAndReceiveICMP k → k.Sound p
  answered : p.pc = .success ∨ p.Injected → p.Answered

variable {p : Ping} {k : Socket}

/-- What the loop accepts answers the request of the socket. -/
theorem Socket.Sound.answers (h : k.Sound p) {r : Request} (hr : k.request = some r) {a : Arrival}
    (ha : a ∈ k.queue) (hacc : p.accepts k a.toDatagram = true) : Answers r a := by
  obtain ⟨-, hid, hseq⟩ := h.request r hr
  obtain ⟨hrecv, hfrom⟩ := h.queue a ha
  obtain ⟨hreq, hpeer⟩ := hfrom hacc
  obtain ⟨id, hecho, hident⟩ := Ping.accepts_eq_true_iff.mp hacc
  have hk : id = k.id := by
    cases hu : k.unprivileged with
    | false => rw [hident hu, h.ident hu]
    | true => simpa [receives, hu, hecho] using hrecv
  rw [hr] at hpeer
  refine ⟨?_, hreq, (Option.some.inj hpeer).symm⟩
  rw [hecho, hk, hid, hseq]

theorem Socket.sound_opened {unprivileged : Bool} {id : Nat}
    (h : unprivileged = false → id = p.job.ident.toNat) :
    (Socket.opened unprivileged id).Sound p where
  ident := h
  request := by
    intro r hr
    cases hr
  queue := by
    intro a ha
    cases ha

theorem Socket.Sound.arrive {d : Datagram} (h : k.Sound p)
    (hd : k.receives d = true → p.accepts k d = true → k.request.map Request.dst = some d.peer) :
    (k.arrive d).Sound p := by
  unfold Socket.arrive
  split
  · rename_i hrecv
    refine ⟨h.ident, h.request, ?_⟩
    refine forall_mem_concat h.queue ?_
    refine ⟨hrecv, fun hacc => ?_⟩
    have hdst := hd hrecv hacc
    refine ⟨?_, hdst⟩
    cases hr : k.request with
    | none =>
      rw [hr] at hdst
      cases hdst
    | some r => rfl
  · exact h

/-- In the loop only the socket matters. -/
theorem Ping.Sound.of_socket (hpc : p.pc = .sendAndReceiveICMP k) (hk : k.Sound p) : p.Sound where
  socket := by
    intro k' hk'
    rw [hpc] at hk'
    obtain rfl := PingPC.sendAndReceiveICMP.inj hk'
    exact hk
  answered := by
    intro hp
    simp [Injected, hpc] at hp

/-- Before the first method and between two of them there is nothing to know. -/
theorem Ping.Sound.of_trying
    (hpc : p.pc = .tryRawICMP ∨ p.pc = .tryUnprivilegedICMP ∨ p.pc = .tryPingCommand ∨
      p.pc = .returned) : p.Sound := by
  rcases hpc with hpc | hpc | hpc | hpc
  all_goals exact ⟨fun k hk => by simp [hpc] at hk, fun hp => by simp [Injected, hpc] at hp⟩

theorem Ping.Sound.arrive {d : Datagram} (h : p.Sound) (hd : p.SentTo d) : (p.arrive d).Sound := by
  unfold Ping.arrive
  split
  · rename_i k hk
    have hsock := (h.socket k hk).arrive (by simpa only [SentTo, hk] using hd)
    exact Sound.of_socket rfl ⟨hsock.ident, hsock.request, hsock.queue⟩
  · exact h

theorem Ping.sound_nextMethod (p : Ping) (k : Socket) :
    Ping.Sound { p with pc := k.nextMethod } := by
  apply Sound.of_trying
  cases hk : k.unprivileged with
  | false | true => simp [Socket.nextMethod, hk]

theorem Ping.Sound.write (h : p.Sound) (hk : p.pc = .sendAndReceiveICMP k)
    (hnone : k.request = none) (ok : Bool) : (p.write k ok).Sound := by
  have hsock := h.socket k hk
  unfold Ping.write
  cases resolve k.unprivileged p.job.actualDstIP with
  | none => exact sound_nextMethod p k
  | some dst =>
    cases ok with
    | false => exact sound_nextMethod p k
    | true =>
      refine Sound.of_socket rfl ⟨hsock.ident, ?_, ?_⟩
      · intro r hr
        cases hr
        exact ⟨mem_concat_self, rfl, rfl⟩
      · intro a ha
        obtain ⟨hrecv, hfrom⟩ := hsock.queue a ha
        -- nothing acceptable can have come before the request was sent
        refine ⟨hrecv, fun hacc => ?_⟩
        have hbefore := (hfrom hacc).2
        rw [hnone] at hbefore
        cases hbefore

theorem Ping.Sound.read (h : p.Sound) (hk : p.pc = .sendAndReceiveICMP k) {r : Request}
    (hr : k.request = some r) {a : Arrival} {rest : List Arrival} (hq : k.queue = a :: rest) :
    Ping.Sound { p with
      pc := if p.accepts k a.toDatagram then .success
            else .sendAndReceiveICMP { k with queue := rest },
      received := p.received ++ [a] } := by
  have hsock := h.socket k hk
  have ha : a ∈ k.queue := by
    rw [hq]
    exact mem_cons_self
  cases hacc : p.accepts k a.toDatagram with
  | true =>
    refine ⟨nofun, fun _ => ?_⟩
    exact ⟨r, (hsock.request r hr).1, a, mem_concat_self, hsock.answers hr ha hacc⟩
  | false =>
    refine Sound.of_socket rfl ⟨hsock.ident, hsock.request, ?_⟩
    intro a' ha'
    apply hsock.queue a'
    rw [hq]
    exact mem_cons_of_mem a ha'

theorem Ping.Sound.pingCommand {p p' : Ping} {reply : Option (Nat × ByteString)}
    (h : p.pingCommand reply = some p') : p'.Sound := by
  cases reply with
  | none =>
    cases h
    exact Sound.of_trying (.inr (.inr (.inr rfl)))
  | some reply =>
    obtain ⟨id, data⟩ := reply
    simp only [Ping.pingCommand] at h
    split at h
    · rename_i hans
      cases h
      exact ⟨nofun, fun _ => ⟨_, mem_concat_self, _, mem_concat_self, hans⟩⟩
    · cases h

/-- A success is reported with the answer on record. -/
theorem Ping.Sound.queueReply (h : p.Sound) (hpc : p.pc = .success) (pc : PingPC)
    (hk : ∀ k, pc ≠ .sendAndReceiveICMP k) : Ping.Sound { p with pc := pc } :=
  ⟨fun k hpc' => absurd hpc' (hk k), fun _ => h.answered (.inl hpc)⟩

theorem Ping.Sound.step {p p' : Ping} {e : PingEvent} (h : p.Sound) (hs : p.step e = some p') :
    p'.Sound := by
  cases e <;> simp only [Ping.step] at hs
  case listenRaw ok =>
    split at hs
    · cases ok with
      | true =>
        cases hs
        exact Sound.of_socket rfl (Socket.sound_opened (fun _ => rfl))
      | false =>
        cases hs
        exact Sound.of_trying (.inr (.inl rfl))
    · cases hs
  case listenUnprivileged opened =>
    split at hs
    · cases opened with
      | some id =>
        cases hs
        exact Sound.of_socket rfl (Socket.sound_opened (fun h => absurd h (by decide)))
      | none =>
        cases hs
        exact Sound.of_trying (.inr (.inr (.inl rfl)))
    · cases hs
  case write ok =>
    split at hs
    · next hpc =>
      split at hs
      · next hnone =>
        cases hs
        exact h.write hpc hnone ok
      · cases hs
    · cases hs
  case read =>
    split at hs
    · next hpc =>
      split at hs
      · next hr hq =>
        cases hs
        exact h.read hpc hr hq
      · cases hs
    · cases hs
  case readError =>
    split at hs
    · next k _ =>
      split at hs <;> cases hs
      exact sound_nextMethod p k
    · cases hs
  case pingCommand reply =>
    split at hs
    · exact Sound.pingCommand hs
    · cases hs
  case queueReply room =>
    split at hs
    · next hpc =>
      split at hs
      · cases hs
        exact h.queueReply hpc _ (by cases room <;> nofun)
      · cases hs
        exact h.queueReply hpc _ nofun
    · cases hs

/-- The invariant. -/
def Sound (s : List Ping) : Prop :=
  ∀ p ∈ s, p.Sound

theorem sound_step {s s' : List Ping} {e : Event} (h : Sound s)
    (he : RepliesFromDestinations s e) (hs : step s e = some s') : Sound s' := by
  cases e with
  | proxyPing job =>
    cases hs
    refine forall_mem_concat h ?_
    exact Ping.Sound.of_trying (.inl rfl)
  | arrive d =>
    cases hs
    intro p hp
    obtain ⟨q, hq, rfl⟩ := mem_map.mp hp
    exact (h q hq).arrive (he q hq)
  | ping i e =>
    obtain ⟨p, hp, hs⟩ := Option.bind_eq_some_iff.mp hs
    obtain ⟨p', hp', rfl⟩ := Option.map_eq_some_iff.mp hs
    intro q hq
    rcases mem_or_eq_of_mem_set hq with hq | rfl
    · exact h q hq
    · exact (h p (mem_of_getElem? hp)).step hp'

end Invariant

/-- Two clients ping two hosts at once, with identifier 7 and sequence number 1. -/
def firstPing : PingJob :=
  { srcIP := .v4 0x0A000001#32, originalDstIP := .v4 0x0A010001#32,
    actualDstIP := .v4 0x0A010001#32, ident := 7, seq := 1, payload := [] }

def secondPing : PingJob :=
  { srcIP := .v4 0x0A000002#32, originalDstIP := .v4 0x0A010002#32,
    actualDstIP := .v4 0x0A010002#32, ident := 7, seq := 1, payload := [] }

/-- The echo reply of the first host. -/
def firstReply : Datagram :=
  { peer := .v4 0x0A010001#32, data := [0, 0, 255, 247, 0, 7, 0, 1] }

/-- Both requests are on their way when the first host answers. -/
def twoPings : List Event :=
  [.proxyPing firstPing, .proxyPing secondPing, .ping 0 (.listenRaw true),
    .ping 1 (.listenRaw true), .ping 0 (.write true), .ping 1 (.write true),
    .arrive firstReply, .ping 0 .read, .ping 1 .read, .ping 0 (.queueReply true),
    .ping 1 (.queueReply true)]

/-- The same two pings with the second sent after the answer to the first. -/
def onePing : List Event :=
  [.proxyPing firstPing, .proxyPing secondPing, .ping 0 (.listenRaw true), .ping 0 (.write true),
    .arrive firstReply, .ping 0 .read, .ping 1 (.listenRaw true), .ping 1 (.write true),
    .ping 0 (.queueReply true)]

end Newt.Pings
