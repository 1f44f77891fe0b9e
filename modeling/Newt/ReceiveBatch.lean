import Newt.Lib.AddrPort
import Newt.SharedBind

/-!
# Batched reads

On Linux the receive function of the bind reads a batch of datagrams into the
buffers of WireGuard.  It answers the magic test packets among them itself and
moves the others together, in place: each is copied to the front while later
datagrams still lie in the same buffers.  Elsewhere `receiveIPv4Simple` reads one
datagram after the other into the first buffer.

The three slices WireGuard passes have one length, so they are a list of slots.  A
slot that is read into keeps the bytes behind the datagram, and a datagram that is
too long for its buffer is cut.

The invariant of the loop: the write index is at most the read index, so the
buffers of the datagrams still to come are untouched.

Main result: `receiveIPv4Batch_correct`.
-/

namespace Newt.Bind

open Netip Bytes List Nat

/-- `MagicTestRequest`: "PANGOLIN_TEST_REQ". -/
def magicTestRequest : ByteString :=
  [80, 65, 78, 71, 79, 76, 73, 78, 95, 84, 69, 83, 84, 95, 82, 69, 81]

/-- `MagicTestResponse`: "PANGOLIN_TEST_RSP". -/
def magicTestResponse : ByteString :=
  [80, 65, 78, 71, 79, 76, 73, 78, 95, 84, 69, 83, 84, 95, 82, 83, 80]

def magicPacketDataLen : Nat := 8

def magicTestRequestLen : Nat := 17 + magicPacketDataLen

def magicTestResponseLen : Nat := 17 + magicPacketDataLen

/-- What `handleMagicPacket` does with a magic packet. -/
inductive MagicAction
  | respond (conn : UDPConn) (response : ByteString) (addr : AddrPort)
  | noSocket
  | callback (addr : AddrPort) (echoData : ByteString)
  | noCallback
  deriving DecidableEq, Repr

/-- What the receive functions read of the bind: the socket, whether there is a
callback for magic responses, and the number of preallocated messages. -/
structure RecvBind where
  udpConn : Option UDPConn
  magicResponseCallback : Bool
  ipv4Msgs : Nat
  deriving DecidableEq, Repr

/-- The endpoint for a UDP address: IPv4-mapped addresses are unmapped. -/
def endpointOf (addrPort : AddrPort) : AddrPort :=
  if addrPort.addr.is4In6 then { addr := addrPort.addr.unmap, port := addrPort.port }
  else addrPort

/-- `IsMagicPacket`. -/
def isMagicPacket (payload : ByteString) : Bool :=
  if payload.length ≥ magicTestRequestLen && magicTestRequest.isPrefixOf payload then true
  else if payload.length ≥ magicTestResponseLen && magicTestResponse.isPrefixOf payload then true
  else false

/-- `handleMagicPacket`: `none` where it returns false. -/
def RecvBind.handleMagicPacket (b : RecvBind) (data : ByteString) (addr : AddrPort) :
    Option MagicAction :=
  if data.length ≥ magicTestRequestLen && magicTestRequest.isPrefixOf data then
    let echoData := range data magicTestRequest.length magicPacketDataLen
    match b.udpConn with
    | some conn => some (.respond conn (magicTestResponse ++ echoData) addr)
    | none => some .noSocket
  else if data.length ≥ magicTestResponseLen && magicTestResponse.isPrefixOf data then
    let echoData := range data magicTestResponse.length magicPacketDataLen
    if b.magicResponseCallback then some (.callback (endpointOf addr) echoData)
    else some .noCallback
  else none

/-- The same index of the three slices `bufs`, `sizes` and `eps`. -/
structure Slot where
  buf : ByteString
  size : Nat
  ep : Option AddrPort
  deriving DecidableEq, Repr

/-- A datagram as it arrives, with its sender if this is a UDP address. -/
structure Datagram where
  data : ByteString
  addr : Option AddrPort
  deriving DecidableEq, Repr

/-- The fields `N` and `Addr` of a message that was read. -/
structure Msg where
  n : Nat
  addr : Option AddrPort
  deriving DecidableEq, Repr

/-- What WireGuard gets in a slot. -/
structure Packet where
  data : ByteString
  size : Nat
  ep : Option AddrPort
  deriving DecidableEq, Repr

/-- `copy(dst, src)`. -/
def copyTo (dst src : ByteString) : ByteString :=
  overwrite dst 0 (src.take dst.length)

namespace Slot

/-- A datagram is read into the buffer of the slot. -/
def read (s : Slot) (d : Datagram) : Slot :=
  { s with buf := copyTo s.buf d.data }

/-- The message of that read. -/
def msg (s : Slot) (d : Datagram) : Msg :=
  { n := min d.data.length s.buf.length, addr := d.addr }

def packet (s : Slot) : Packet :=
  { data := s.buf.take s.size, size := s.size, ep := s.ep }

end Slot

/-- `ReadBatch`: one datagram a buffer. -/
def readBatch : List Slot → List Datagram → List Slot × List Msg
  | s :: slots, d :: ds =>
    let (slots', msgs) := readBatch slots ds
    (s.read d :: slots', s.msg d :: msgs)
  | slots, _ => (slots, [])

/-- The slots, `writeIdx`, and what was done for magic packets. -/
structure BatchState where
  slots : List Slot
  writeIdx : Nat
  actions : List MagicAction
  deriving DecidableEq, Repr

namespace RecvBind

/-- The body of the loop for message `i`; `none` where an index is out of range. -/
def batchStep (b : RecvBind) (i : Nat) (m : Msg) (st : BatchState) : Option BatchState :=
  if m.n = 0 then some st
  else
    (st.slots[i]?).bind fun slot =>
      let data := slot.buf.take m.n
      match m.addr.bind (b.handleMagicPacket data) with
      | some action => some { st with actions := st.actions ++ [action] }
      | none =>
        (st.slots[st.writeIdx]?).map fun target =>
          let slot' : Slot :=
            { buf := if st.writeIdx ≠ i then copyTo target.buf data else target.buf
              size := m.n
              ep := match m.addr with
                | some addr => some (endpointOf addr)
                | none => target.ep }
          { st with slots := st.slots.set st.writeIdx slot', writeIdx := st.writeIdx + 1 }

def batchLoop (b : RecvBind) : Nat → List Msg → BatchState → Option BatchState
  | _, [], st => some st
  | i, m :: msgs, st => (b.batchStep i m st).bind (b.batchLoop (i + 1) msgs)

/-- `receiveIPv4Batch` after a read that has not failed; `writeIdx` is the number
it returns. -/
def receiveIPv4Batch (b : RecvBind) (slots : List Slot) (ds : List Datagram) :
    Option BatchState :=
  let numBufs := min slots.length b.ipv4Msgs
  let (slots', msgs) := readBatch slots (ds.take numBufs)
  b.batchLoop 0 msgs { slots := slots', writeIdx := 0, actions := [] }

/-- `receiveIPv4Simple` on a stream of datagrams: the slot and the rest of the
stream when it returns, `none` while it waits for more, and what was done for magic
packets. -/
def receiveIPv4Simple (b : RecvBind) (s : Slot) :
    List Datagram → Option (Slot × List Datagram) × List MagicAction
  | [] => (none, [])
  | d :: ds =>
    let s' := s.read d
    let n := (s.msg d).n
    match b.handleMagicPacket (s'.buf.take n) (d.addr.getD { addr := .zero, port := 0 }) with
    | some action =>
      let (result, actions) := b.receiveIPv4Simple s' ds
      (result, action :: actions)
    | none =>
      let ep := match d.addr with
        | some addr => some (endpointOf addr)
        | none => s.ep
      (some ({ s' with size := n, ep := ep }, ds), [])

/-- So many calls of `receiveIPv4Simple`: the packets they return, and what was
done for magic packets. -/
def receiveSimply (b : RecvBind) : Nat → Slot → List Datagram → List Packet × List MagicAction
  | 0, _, _ => ([], [])
  | calls + 1, s, ds =>
    match b.receiveIPv4Simple s ds with
    | (none, actions) => ([], actions)
    | (some (s', rest), actions) =>
      let (packets, actions') := b.receiveSimply calls s' rest
      (s'.packet :: packets, actions ++ actions')

end RecvBind

/-- A datagram as a buffer of this size delivers it. -/
def Datagram.delivered (size : Nat) (d : Datagram) : Datagram :=
  { d with data := d.data.take size }

/-- What WireGuard should get of a datagram. -/
def Datagram.packet (d : Datagram) : Packet :=
  { data := d.data, size := d.data.length, ep := d.addr.map endpointOf }

/-- The datagrams for WireGuard: neither empty nor magic. -/
def forWireGuard (ds : List Datagram) : List Datagram :=
  ds.filter (fun d => d.data ≠ [] && !isMagicPacket d.data)

/-- The magic packets. -/
def magicPackets (ds : List Datagram) : List Datagram :=
  ds.filter (fun d => isMagicPacket d.data)

section Magic

theorem length_of_isMagicPacket {data : ByteString} (h : isMagicPacket data = true) :
    25 ≤ data.length := by
  unfold isMagicPacket at h
  split at h
  · next hreq =>
    rw [Bool.and_eq_true, decide_eq_true_eq] at hreq
    exact hreq.1
  · split at h
    · next hrsp =>
      rw [Bool.and_eq_true, decide_eq_true_eq] at hrsp
      exact hrsp.1
    · cases h

/-- `handleMagicPacket` handles the magic packets. -/
theorem RecvBind.isSome_handleMagicPacket (b : RecvBind) (data : ByteString) (addr : AddrPort) :
    (b.handleMagicPacket data addr).isSome = isMagicPacket data := by
  unfold handleMagicPacket isMagicPacket
  split
  · cases b.udpConn <;> rfl
  · split
    · cases b.magicResponseCallback <;> rfl
    · rfl

end Magic

section Buffers

@[simp] theorem length_copyTo (dst src : ByteString) : (copyTo dst src).length = dst.length := by
  refine length_overwrite ?_
  rw [length_take]
  omega

/-- The head of a buffer after a copy. -/
theorem take_copyTo (dst src : ByteString) :
    (copyTo dst src).take (min src.length dst.length) = src.take dst.length := by
  have hlen : min src.length dst.length = (src.take dst.length).length := by
    rw [length_take]
    omega
  unfold copyTo overwrite
  rw [take_zero, nil_append, hlen, take_left]

/-- The message of a datagram of which no byte was cut. -/
def Datagram.msg (d : Datagram) : Msg :=
  { n := d.data.length, addr := d.addr }

/-- **The state before message `i`**: the write index is behind, the buffers have
one size, and those from `i` on hold the datagrams still to come. -/
structure Buffered (size i : Nat) (ds : List Datagram) (st : BatchState) : Prop where
  behind : st.writeIdx ≤ i
  sized : ∀ s ∈ st.slots, s.buf.length = size
  held : ∀ j d, ds[j]? = some d →
    ∃ s, st.slots[i + j]? = some s ∧ s.buf.take d.data.length = d.data

variable {size i : Nat} {d : Datagram} {ds : List Datagram} {st : BatchState}

/-- A message is passed over. -/
theorem Buffered.skip (h : Buffered size i (d :: ds) st) (actions : List MagicAction) :
    Buffered size (i + 1) ds { st with actions := actions } where
  behind := le_succ_of_le h.behind
  sized := h.sized
  held := by
    intro j e he
    rw [add_assoc, add_comm 1 j]
    exact h.held (j + 1) e he

/-- A slot behind the messages still to come is written. -/
theorem Buffered.write (h : Buffered size i (d :: ds) st) {s : Slot} (hs : s.buf.length = size) :
    Buffered size (i + 1) ds
      { st with slots := st.slots.set st.writeIdx s, writeIdx := st.writeIdx + 1 } where
  behind := succ_le_succ h.behind
  sized := by
    intro s' hs'
    rcases mem_or_eq_of_mem_set hs' with hs' | rfl
    · exact h.sized s' hs'
    · exact hs
  held := by
    intro j e he
    have hbehind := h.behind
    obtain ⟨s', hs', hdata⟩ := h.held (j + 1) e he
    refine ⟨s', ?_, hdata⟩
    rw [getElem?_set_ne (by omega), add_assoc, add_comm 1 j]
    exact hs'

/-- A message tells how much of its datagram was delivered. -/
theorem msg_eq {s : Slot} (hs : s.buf.length = size) (d : Datagram) :
    s.msg d = (d.delivered size).msg := by
  simp only [Slot.msg, Datagram.msg, Datagram.delivered, length_take, hs, min_comm]

/-- The buffer of a slot after a read. -/
theorem take_read {s : Slot} (hs : s.buf.length = size) (d : Datagram) :
    (s.read d).buf.take (d.delivered size).msg.n = (d.delivered size).data := by
  have htake := take_copyTo s.buf d.data
  rw [hs] at htake
  simpa only [Slot.read, Datagram.msg, Datagram.delivered, length_take, min_comm] using htake

/-- `ReadBatch` fills the buffers. -/
theorem readBatch_spec {slots : List Slot} (hsized : ∀ s ∈ slots, s.buf.length = size)
    {ds : List Datagram} (hlen : ds.length ≤ slots.length) :
    (readBatch slots ds).2 = (ds.map (Datagram.delivered size)).map Datagram.msg ∧
      Buffered size 0 (ds.map (Datagram.delivered size))
        { slots := (readBatch slots ds).1, writeIdx := 0, actions := [] } := by
  induction slots generalizing ds with
  | nil =>
    obtain rfl : ds = [] := length_eq_zero_iff.mp (le_zero.mp hlen)
    exact ⟨rfl, le_refl 0, nofun, nofun⟩
  | cons s slots ih =>
    cases ds with
    | nil => exact ⟨rfl, le_refl 0, hsized, nofun⟩
    | cons d ds =>
      have hs : s.buf.length = size := hsized s mem_cons_self
      obtain ⟨hmsgs, hbuf⟩ := ih (fun s' hs' => hsized s' (mem_cons_of_mem s hs'))
        (le_of_succ_le_succ hlen)
      refine ⟨?_, le_refl 0, ?_, ?_⟩
      · show s.msg d :: (readBatch slots ds).2 = _
        rw [hmsgs, msg_eq hs]
        rfl
      · exact forall_mem_cons.mpr ⟨(length_copyTo s.buf d.data).trans hs, hbuf.sized⟩
      · intro j e he
        cases j with
        | zero =>
          cases he
          exact ⟨s.read d, rfl, take_read hs d⟩
        | succ j =>
          obtain ⟨s', hs', hdata⟩ := hbuf.held j e he
          refine ⟨s', ?_, hdata⟩
          rw [zero_add] at hs' ⊢
          exact hs'

end Buffers

namespace RecvBind

section Batch

variable {size i : Nat} {d : Datagram} {ds : List Datagram} {st : BatchState} {b : RecvBind}

theorem batchStep_empty (hd : d.data = []) : b.batchStep i d.msg st = some st := by
  unfold batchStep Datagram.msg
  rw [hd, length_nil, if_pos rfl]

/-- The data of message `i` is that of its datagram. -/
theorem batchStep_of_held (h : Buffered size i (d :: ds) st) (hd : d.data ≠ []) :
    b.batchStep i d.msg st =
      match d.addr.bind (b.handleMagicPacket d.data) with
      | some action => some { st with actions := st.actions ++ [action] }
      | none =>
        (st.slots[st.writeIdx]?).map fun target =>
          { st with
            slots := st.slots.set st.writeIdx
              { buf := if st.writeIdx ≠ i then copyTo target.buf d.data else target.buf
                size := d.data.length
                ep := match d.addr with
                  | some addr => some (endpointOf addr)
                  | none => target.ep }
            writeIdx := st.writeIdx + 1 } := by
  obtain ⟨s, hs, hdata⟩ := h.held 0 d rfl
  have hn : d.msg.n ≠ 0 := fun h0 => hd (length_eq_zero_iff.mp h0)
  unfold batchStep
  rw [if_neg hn]
  rw [add_zero] at hs
  rw [hs, Option.bind_some]
  simp only [Datagram.msg, hdata]

/-- A datagram for WireGuard is put behind those before it. -/
theorem batchStep_keep (h : Buffered size i (d :: ds) st) (hsize : d.data.length ≤ size)
    (hd : d.data ≠ []) {addr : AddrPort} (haddr : d.addr = some addr)
    (hmagic : b.handleMagicPacket d.data addr = none) :
    ∃ s : Slot, s.packet = d.packet ∧ s.buf.length = size ∧ st.writeIdx < st.slots.length ∧
      b.batchStep i d.msg st = some { st with
        slots := st.slots.set st.writeIdx s, writeIdx := st.writeIdx + 1 } := by
  obtain ⟨s, hs, hdata⟩ := h.held 0 d rfl
  rw [add_zero] at hs
  have hi : i < st.slots.length := (List.getElem?_eq_some_iff.mp hs).1
  have hw : st.writeIdx < st.slots.length := lt_of_le_of_lt h.behind hi
  obtain ⟨target, htarget⟩ : ∃ target, st.slots[st.writeIdx]? = some target :=
    ⟨_, getElem?_eq_getElem hw⟩
  have hlen : target.buf.length = size := h.sized target (mem_of_getElem? htarget)
  rw [batchStep_of_held h hd, haddr, Option.bind_some, hmagic, htarget]
  refine ⟨_, ?_, ?_, hw, rfl⟩
  · -- in place the data is already there, elsewhere it is copied
    have hbuf : (if st.writeIdx ≠ i then copyTo target.buf d.data else target.buf).take
        d.data.length = d.data := by
      split
      · have htake := take_copyTo target.buf d.data
        rw [hlen, min_eq_left hsize, take_of_length_le hsize] at htake
        exact htake
      · next heq =>
        rw [not_not.mp heq, hs] at htarget
        cases htarget
        exact hdata
    simp only [Slot.packet, Datagram.packet, hbuf, haddr, Option.map_some]
  · split
    · rw [length_copyTo, hlen]
    · exact hlen

theorem forWireGuard_cons (d : Datagram) (ds : List Datagram) :
    forWireGuard (d :: ds) =
      if d.data ≠ [] ∧ isMagicPacket d.data = false then d :: forWireGuard ds
      else forWireGuard ds := by
  unfold forWireGuard
  rw [filter_cons]
  by_cases hd : d.data = [] <;> cases hm : isMagicPacket d.data <;> simp [hd]

theorem magicPackets_cons (d : Datagram) (ds : List Datagram) :
    magicPackets (d :: ds) =
      if isMagicPacket d.data = true then d :: magicPackets ds else magicPackets ds := by
  unfold magicPackets
  rw [filter_cons]

/-- **The loop**: what lies before the write index is kept, the datagrams for
WireGuard follow, and each magic packet is handled once. -/
theorem batchLoop_spec (h : Buffered size i ds st) (hsize : ∀ d ∈ ds, d.data.length ≤ size)
    (hudp : ∀ d ∈ ds, d.addr.isSome = true) :
    ∃ st', b.batchLoop i (ds.map Datagram.msg) st = some st' ∧
      st'.writeIdx = st.writeIdx + (forWireGuard ds).length ∧
      (st'.slots.take st'.writeIdx).map Slot.packet =
        (st.slots.take st.writeIdx).map Slot.packet ++ (forWireGuard ds).map Datagram.packet ∧
      st'.actions.map some = st.actions.map some ++
        (magicPackets ds).map (fun d => d.addr.bind (b.handleMagicPacket d.data)) := by
  induction ds generalizing i st with
  | nil => exact ⟨st, rfl, rfl, (append_nil _).symm, (append_nil _).symm⟩
  | cons d ds ih =>
    obtain ⟨hsize, hsize'⟩ := forall_mem_cons.mp hsize
    obtain ⟨hudp, hudp'⟩ := forall_mem_cons.mp hudp
    obtain ⟨addr, haddr⟩ := Option.isSome_iff_exists.mp hudp
    have hhandled := b.isSome_handleMagicPacket d.data addr
    rw [map_cons, batchLoop, forWireGuard_cons, magicPackets_cons]
    by_cases hd : d.data = []
    · have hmagic : isMagicPacket d.data ≠ true := by
        intro hm
        have hlen := length_of_isMagicPacket hm
        rw [hd] at hlen
        exact absurd hlen (by decide)
      rw [batchStep_empty hd, Option.bind_some, if_neg (fun hk => hk.1 hd), if_neg hmagic]
      exact ih (h.skip st.actions) hsize' hudp'
    · cases haction : b.handleMagicPacket d.data addr with
      | some action =>
        rw [haction, Option.isSome_some] at hhandled
        have hstep : b.batchStep i d.msg st =
            some { st with actions := st.actions ++ [action] } := by
          rw [batchStep_of_held h hd, haddr, Option.bind_some, haction]
        obtain ⟨st', hloop, hidx, hpackets, hactions⟩ :=
          ih (h.skip (st.actions ++ [action])) hsize' hudp'
        rw [hstep, Option.bind_some, ← hhandled, if_neg (fun hk => Bool.noConfusion hk.2),
          if_pos rfl]
        refine ⟨st', hloop, hidx, hpackets, ?_⟩
        rw [hactions, map_append, map_cons, map_nil, map_cons, haddr,
          Option.bind_some, haction, append_assoc]
        rfl
      | none =>
        rw [haction, Option.isSome_none] at hhandled
        obtain ⟨s, hpacket, hlen, hw, hstep⟩ := batchStep_keep h hsize hd haddr haction
        obtain ⟨st', hloop, hidx, hpackets, hactions⟩ := ih (h.write hlen) hsize' hudp'
        rw [hstep, Option.bind_some, ← hhandled, if_pos ⟨hd, rfl⟩, if_neg Bool.false_ne_true]
        refine ⟨st', hloop, ?_, ?_, hactions⟩
        · rw [hidx, length_cons]
          show st.writeIdx + 1 + _ = _
          omega
        · rw [hpackets]
          rw [take_add_one, take_set_of_le (le_refl _),
            getElem?_set_self hw, map_append, map_cons]
          simp [hpacket]

end Batch

section Simple

variable {size : Nat} {s : Slot} {d : Datagram} {ds : List Datagram} {b : RecvBind}

/-- A magic packet: the call reads on. -/
theorem receiveIPv4Simple_magic (hs : s.buf.length = size) {addr : AddrPort}
    (haddr : d.addr = some addr) {action : MagicAction}
    (hmagic : b.handleMagicPacket (d.delivered size).data addr = some action) :
    b.receiveIPv4Simple s (d :: ds) =
      ((b.receiveIPv4Simple (s.read d) ds).1, action :: (b.receiveIPv4Simple (s.read d) ds).2) := by
  rw [receiveIPv4Simple, msg_eq hs, take_read hs, haddr, Option.getD_some, hmagic]

/-- Another packet: the call returns it. -/
theorem receiveIPv4Simple_keep (ds : List Datagram) (hs : s.buf.length = size) {addr : AddrPort}
    (haddr : d.addr = some addr)
    (hmagic : b.handleMagicPacket (d.delivered size).data addr = none) :
    ∃ s' : Slot, s'.packet = (d.delivered size).packet ∧ s'.buf.length = size ∧
      b.receiveIPv4Simple s (d :: ds) = (some (s', ds), []) := by
  rw [receiveIPv4Simple, msg_eq hs, take_read hs, haddr, Option.getD_some, hmagic]
  refine ⟨_, ?_, ?_, rfl⟩
  · have hep : (d.delivered size).addr = some addr := haddr
    simp only [Slot.packet, Datagram.packet, take_read hs, hep, Option.map_some]
    rfl
  · exact (length_copyTo s.buf d.data).trans hs

/-- **One by one**: the calls of `receiveIPv4Simple` return the datagrams for
WireGuard and handle each magic packet once. -/
theorem receiveSimply_spec (hs : s.buf.length = size)
    (hfull : ∀ d ∈ ds, (d.delivered size).data ≠ []) (hudp : ∀ d ∈ ds, d.addr.isSome = true)
    {calls : Nat} (hcalls : ds.length < calls) :
    (b.receiveSimply calls s ds).1 =
        (forWireGuard (ds.map (Datagram.delivered size))).map Datagram.packet ∧
      (b.receiveSimply calls s ds).2.map some =
        (magicPackets (ds.map (Datagram.delivered size))).map
          (fun d => d.addr.bind (b.handleMagicPacket d.data)) := by
  induction ds generalizing s calls with
  | nil =>
    cases calls with
    | zero => cases hcalls
    | succ calls => exact ⟨rfl, rfl⟩
  | cons d ds ih =>
    obtain ⟨hd, hfull'⟩ := forall_mem_cons.mp hfull
    obtain ⟨hudp, hudp'⟩ := forall_mem_cons.mp hudp
    obtain ⟨addr, haddr⟩ := Option.isSome_iff_exists.mp hudp
    have hhandled := b.isSome_handleMagicPacket (d.delivered size).data addr
    rw [map_cons, forWireGuard_cons, magicPackets_cons]
    cases calls with
    | zero => cases hcalls
    | succ calls =>
      rw [length_cons] at hcalls
      cases haction : b.handleMagicPacket (d.delivered size).data addr with
      | some action =>
        rw [haction, Option.isSome_some] at hhandled
        have hread : (s.read d).buf.length = size := (length_copyTo s.buf d.data).trans hs
        obtain ⟨hpackets, hactions⟩ :=
          ih hread hfull' hudp' (show ds.length < calls + 1 by omega)
        rw [receiveSimply] at hpackets hactions
        rw [receiveSimply, receiveIPv4Simple_magic hs haddr haction, ← hhandled,
          if_neg (fun hk => Bool.noConfusion hk.2), if_pos rfl, map_cons]
        have hbind : (d.delivered size).addr.bind
            (b.handleMagicPacket (d.delivered size).data) = some action := by
          show d.addr.bind _ = _
          rw [haddr, Option.bind_some, haction]
        rw [hbind]
        -- the rest of the call is the call on the rest of the stream
        cases hrest : b.receiveIPv4Simple (s.read d) ds with
        | mk result actions =>
          rw [hrest] at hpackets hactions
          cases result with
          | none | some r => exact ⟨hpackets, congrArg (some action :: ·) hactions⟩
      | none =>
        rw [haction, Option.isSome_none] at hhandled
        obtain ⟨s', hpacket, hlen, hcall⟩ := receiveIPv4Simple_keep ds hs haddr haction
        obtain ⟨hpackets, hactions⟩ :=
          ih hlen hfull' hudp' (show ds.length < calls by omega)
        rw [receiveSimply, hcall, ← hhandled, if_pos ⟨hd, rfl⟩, if_neg Bool.false_ne_true]
        refine ⟨?_, ?_⟩
        · show s'.packet :: (b.receiveSimply calls s' ds).1 = _
          rw [hpackets, hpacket, map_cons]
        · exact hactions

end Simple

/-- The datagrams that are not empty, as a buffer of this size delivers them. -/
def nonEmpty (size : Nat) (ds : List Datagram) : List Datagram :=
  ds.filter (fun d => (d.delivered size).data ≠ [])

/-- Empty datagrams do not matter to a filter that takes none of them. -/
theorem filter_nonEmpty {p : Datagram → Bool} (hp : ∀ d, p d = true → d.data ≠ []) (size : Nat)
    (ds : List Datagram) :
    ((nonEmpty size ds).map (Datagram.delivered size)).filter p =
      (ds.map (Datagram.delivered size)).filter p := by
  have hmap : (nonEmpty size ds).map (Datagram.delivered size) =
      (ds.map (Datagram.delivered size)).filter (fun d => d.data ≠ []) := by
    rw [filter_map]
    rfl
  rw [hmap, filter_filter]
  refine filter_congr fun d _ => ?_
  cases hd : p d with
  | false => rfl
  | true => simp [hp d hd]

theorem forWireGuard_nonEmpty (size : Nat) (ds : List Datagram) :
    forWireGuard ((nonEmpty size ds).map (Datagram.delivered size)) =
      forWireGuard (ds.map (Datagram.delivered size)) :=
  filter_nonEmpty (fun d hd => by simp_all) size ds

theorem magicPackets_nonEmpty (size : Nat) (ds : List Datagram) :
    magicPackets ((nonEmpty size ds).map (Datagram.delivered size)) =
      magicPackets (ds.map (Datagram.delivered size)) := by
  refine filter_nonEmpty (fun d hd hnil => ?_) size ds
  rw [hnil] at hd
  exact absurd hd (by decide)

/-- **`receiveIPv4Batch` is correct**: for every batch of datagrams from UDP
addresses, in buffers of one size, it returns the number of those that are neither
empty nor magic; the slots before this number hold exactly these, in their order,
with the endpoints unmapped; each magic packet is handled once; and calls of
`receiveIPv4Simple` on the datagrams that are not empty return the same packets and
handle the same magic packets. -/
theorem receiveIPv4Batch_correct (b : RecvBind) {size : Nat} {slots : List Slot}
    (hsized : ∀ s ∈ slots, s.buf.length = size) {ds : List Datagram}
    (hlen : ds.length ≤ min slots.length b.ipv4Msgs) (hudp : ∀ d ∈ ds, d.addr.isSome = true)
    {first : Slot} (hfirst : first.buf.length = size) :
    ∃ st, b.receiveIPv4Batch slots ds = some st ∧
      st.writeIdx = (forWireGuard (ds.map (Datagram.delivered size))).length ∧
      (st.slots.take st.writeIdx).map Slot.packet =
        (forWireGuard (ds.map (Datagram.delivered size))).map Datagram.packet ∧
      st.actions.map some = (magicPackets (ds.map (Datagram.delivered size))).map
        (fun d => d.addr.bind (b.handleMagicPacket d.data)) ∧
      ∀ calls, ds.length < calls → b.receiveSimply calls first (nonEmpty size ds) =
        ((st.slots.take st.writeIdx).map Slot.packet, st.actions) := by
  obtain ⟨hmsgs, hbuffered⟩ := readBatch_spec hsized (le_trans hlen (min_le_left _ _))
  obtain ⟨st, hloop, hidx, hpackets, hactions⟩ := batchLoop_spec (b := b) hbuffered
    (forall_mem_map.mpr fun d _ => length_take_le _ d.data) (forall_mem_map.mpr hudp)
  refine ⟨st, ?_, ?_, hpackets, hactions, ?_⟩
  · unfold receiveIPv4Batch
    simp only [take_of_length_le hlen, hmsgs]
    exact hloop
  · rw [hidx]
    exact zero_add _
  · intro calls hcalls
    have hnonEmpty : ∀ d ∈ nonEmpty size ds, d ∈ ds ∧ (d.delivered size).data ≠ [] := by
      intro d hd
      obtain ⟨hmem, hne⟩ := mem_filter.mp hd
      exact ⟨hmem, of_decide_eq_true hne⟩
    obtain ⟨hsimple, hsimple'⟩ := receiveSimply_spec (b := b) hfirst
      (fun d hd => (hnonEmpty d hd).2) (fun d hd => hudp d (hnonEmpty d hd).1)
      (lt_of_le_of_lt (length_filter_le _ _) hcalls)
    rw [forWireGuard_nonEmpty] at hsimple
    rw [magicPackets_nonEmpty] at hsimple'
    refine Prod.ext (hsimple.trans hpackets.symm) ?_
    exact (map_inj_right (fun _ _ => Option.some.inj)).mp (hsimple'.trans hactions.symm)

/-- Four datagrams: data, an empty one, a magic request and data from a mapped
address. -/
def mixedBatch : List Datagram :=
  [{ data := [1, 2], addr := some ⟨.v4 0x0A000001#32, 1000⟩ },
    { data := [], addr := some ⟨.v4 0x0A000002#32, 1000⟩ },
    { data := magicTestRequest ++ [1, 2, 3, 4, 5, 6, 7, 8],
      addr := some ⟨.v4 0x0A000003#32, 1000⟩ },
    { data := [3], addr := some ⟨.v6 0xFFFF0A000004#128 "", 1000⟩ }]

def emptySlot : Slot :=
  { buf := replicate 32 0, size := 0, ep := none }

def socketBind : RecvBind :=
  { udpConn := some { id := 0, port := 51820 }, magicResponseCallback := true, ipv4Msgs := 128 }

theorem receiveIPv4Batch_correct_mixedBatch :
    ∃ st, socketBind.receiveIPv4Batch (replicate 4 emptySlot) mixedBatch = some st ∧
      st.writeIdx = 2 ∧
      (st.slots.take st.writeIdx).map Slot.packet =
        [⟨[1, 2], 2, some ⟨.v4 0x0A000001#32, 1000⟩⟩, ⟨[3], 1, some ⟨.v4 0x0A000004#32, 1000⟩⟩] ∧
      st.actions = [.respond { id := 0, port := 51820 }
        (magicTestResponse ++ [1, 2, 3, 4, 5, 6, 7, 8]) ⟨.v4 0x0A000003#32, 1000⟩] ∧
      socketBind.receiveSimply 5 emptySlot (nonEmpty 32 mixedBatch) =
        ((st.slots.take st.writeIdx).map Slot.packet, st.actions) := by
  have hsized : ∀ s ∈ replicate 4 emptySlot, s.buf.length = 32 := by decide
  have hudp : ∀ d ∈ mixedBatch, d.addr.isSome = true := by decide
  obtain ⟨st, hst, hidx, hpackets, hactions, hsimple⟩ :=
    receiveIPv4Batch_correct socketBind hsized (by decide) hudp
      (show emptySlot.buf.length = 32 by decide)
  refine ⟨st, hst, hidx.trans (by decide), hpackets.trans (by decide), ?_, hsimple 5 (by decide)⟩
  have hone : st.actions.map some = [.respond { id := 0, port := 51820 }
      (magicTestResponse ++ [1, 2, 3, 4, 5, 6, 7, 8]) ⟨.v4 0x0A000003#32, 1000⟩].map some :=
    hactions.trans (by decide)
  exact (map_inj_right (fun _ _ => Option.some.inj)).mp hone

end RecvBind

end Newt.Bind
