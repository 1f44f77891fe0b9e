import Newt.Lib.Address
import Newt.Lib.Bytes

/-!
# Addresses with a port

`netip.AddrPort` of Go's `net/netip`, with its binary form: the bytes of the
address, those of the zone, and the port with its low byte first.
-/

namespace Netip

open Bytes

/-- `netip.AddrPort`. -/
structure AddrPort where
  addr : Addr
  port : UInt16
  deriving DecidableEq, Repr

/-- The zone of an address. -/
def Addr.zone : Addr → String
  | .v6 _ zone => zone
  | _ => ""

/-- The bytes of a zone. -/
def zoneBytes (zone : String) : ByteString :=
  zone.toByteArray.data.toList

/-- `Addr.MarshalBinary`. -/
def Addr.marshalBinary : Addr → ByteString
  | .zero => []
  | .v4 bits => encode 4 bits.toNat
  | .v6 bits zone => encode 16 bits.toNat ++ zoneBytes zone

/-- A port with its low byte first. -/
def littleEndian (port : UInt16) : ByteString :=
  [UInt8.ofNat (port.toNat % 256), UInt8.ofNat (port.toNat / 256)]

/-- The port in two bytes, `uint16(lo) | uint16(hi)<<8`. -/
def portOfBytes (lo hi : UInt8) : UInt16 :=
  UInt16.ofNat (lo.toNat + 256 * hi.toNat)

/-- `AddrPort.MarshalBinary`. -/
def AddrPort.marshalBinary (a : AddrPort) : ByteString :=
  a.addr.marshalBinary ++ littleEndian a.port

/-- `netip.AddrFromSlice`, the zero value where the length is wrong. -/
def addrFromSlice (b : ByteString) : Addr :=
  if b.length = 4 then .v4 (BitVec.ofNat 32 (value b))
  else if b.length = 16 then .v6 (BitVec.ofNat 128 (value b)) ""
  else .zero

theorem addrFromSlice_v4 (bits : BitVec 32) : addrFromSlice (encode 4 bits.toNat) = .v4 bits := by
  have hlt : bits.toNat < 256 ^ 4 := bits.isLt
  unfold addrFromSlice
  rw [if_pos (length_encode 4 _), value_encode, Nat.mod_eq_of_lt hlt, BitVec.ofNat_toNat,
    BitVec.setWidth_eq]

theorem addrFromSlice_v6 (bits : BitVec 128) :
    addrFromSlice (encode 16 bits.toNat) = .v6 bits "" := by
  have hlt : bits.toNat < 256 ^ 16 := bits.isLt
  unfold addrFromSlice
  rw [if_neg (by rw [length_encode]; decide), if_pos (length_encode 16 _), value_encode,
    Nat.mod_eq_of_lt hlt, BitVec.ofNat_toNat, BitVec.setWidth_eq]

/-- Reading a port back. -/
theorem portOfBytes_littleEndian (port : UInt16) :
    portOfBytes (UInt8.ofNat (port.toNat % 256)) (UInt8.ofNat (port.toNat / 256)) = port := by
  have hport : port.toNat < 65536 := port.toNat_lt
  have hlo : (UInt8.ofNat (port.toNat % 256)).toNat = port.toNat % 256 :=
    UInt8.toNat_ofNat_of_lt (by show _ < 256; omega)
  have hhi : (UInt8.ofNat (port.toNat / 256)).toNat = port.toNat / 256 :=
    UInt8.toNat_ofNat_of_lt (by show _ < 256; omega)
  unfold portOfBytes
  rw [hlo, hhi, Nat.mod_add_div]
  exact UInt16.ofNat_toNat

theorem unmap_of_is4In6 {a : Addr} (h : a.is4In6 = true) : a.unmap ≠ a := by
  cases a with
  | zero | v4 bits => cases h
  | v6 bits zone => simp [Addr.unmap, h]

theorem unmap_of_not_is4In6 {a : Addr} (h : a.is4In6 = false) : a.unmap = a := by
  cases a with
  | zero | v4 bits => rfl
  | v6 bits zone => simp [Addr.unmap, h]

theorem unmap_ne_zero {a : Addr} (h : a ≠ .zero) : a.unmap ≠ .zero := by
  cases hmapped : a.is4In6 with
  | false =>
    rw [unmap_of_not_is4In6 hmapped]
    exact h
  | true =>
    cases a with
    | zero => exact absurd rfl h
    | v4 bits => cases hmapped
    | v6 bits zone => simp [Addr.unmap, hmapped]

end Netip
