import Mathlib.Tactic.Common

/-!
# Addresses and prefixes

IP addresses and CIDR prefixes as Go's `net/netip` has them: an address is the
zero value, a 32-bit IPv4 address or a 128-bit IPv6 address with a zone; a
prefix is an address with a prefix length and no zone.  An IPv4-mapped IPv6
address is an IPv6 address, of 128 bits, that `unmap` turns into an IPv4 one.

A `Prefix` is valid by construction: its length is at most the width of its
address.  `prefixFrom` is the only place where an invalid pair is met, and it
answers `none` there.

* `Prefix.masked_eq_iff` — two prefixes have one canonical form exactly when
  family, length and leading bits agree;
* `Prefix.masked_eq_of_covers` and `masked_eq_of_contains` — of the canonical
  prefixes of one length at most one covers a given prefix or contains a given
  address.
-/

namespace Netip

section Bits

variable {w n : Nat}

/-- The leading `n` bits of `x`, moved to the low end. -/
def leading (n : Nat) (x : BitVec w) : BitVec w :=
  x >>> (w - n)

/-- `x` with all but its leading `n` bits cleared. -/
def maskTo (n : Nat) (x : BitVec w) : BitVec w :=
  x &&& (BitVec.allOnes w <<< (w - n))

theorem leading_eq_iff {x y : BitVec w} :
    leading n x = leading n y ↔
      ∀ i, w - n ≤ i → i < w → x.getLsbD i = y.getLsbD i := by
  refine ⟨?_, ?_⟩
  · intro h i hi _
    have hbit := congrArg (fun z : BitVec w => z.getLsbD (i - (w - n))) h
    simpa [leading, Nat.add_sub_cancel' hi] using hbit
  · intro h
    apply BitVec.eq_of_getLsbD_eq
    intro i hi
    by_cases hlt : w - n + i < w
    · simpa [leading] using h (w - n + i) (by omega) hlt
    · simp [leading, BitVec.getLsbD_of_ge _ _ (Nat.le_of_not_lt hlt)]

private theorem getLsbD_maskTo (x : BitVec w) {i : Nat} (hi : i < w) :
    (maskTo n x).getLsbD i = (decide (w - n ≤ i) && x.getLsbD i) := by
  by_cases h : i < w - n
  · simp [maskTo, hi, h, Nat.not_le.mpr h]
  · simp [maskTo, hi, h, Nat.le_of_not_lt h]

/-- Clearing the trailing bits leaves the leading ones. -/
theorem leading_maskTo (n : Nat) (x : BitVec w) :
    leading n (maskTo n x) = leading n x := by
  rw [leading_eq_iff]
  intro i hlo hhi
  simp [getLsbD_maskTo x hhi, hlo]

/-- Two vectors have the same masked form exactly when their leading bits
agree. -/
theorem maskTo_eq_iff {x y : BitVec w} :
    maskTo n x = maskTo n y ↔ leading n x = leading n y := by
  refine ⟨?_, ?_⟩
  · intro h
    rw [← leading_maskTo n x, h, leading_maskTo]
  · intro h
    rw [leading_eq_iff] at h
    apply BitVec.eq_of_getLsbD_eq
    intro i hi
    rw [getLsbD_maskTo x hi, getLsbD_maskTo y hi]
    by_cases hlo : w - n ≤ i
    · simp [hlo, h i hlo hi]
    · simp [hlo]

/-- Equal lengths and equal masked forms, in terms of the leading bits. -/
theorem maskTo_eq_and_iff {m : Nat} {x y : BitVec w} :
    (maskTo m x = maskTo n y ∧ m = n) ↔ (m = n ∧ m ≤ n ∧ leading m x = leading m y) := by
  by_cases hmn : m = n
  · subst hmn
    simp [maskTo_eq_iff]
  · simp [hmn]

theorem maskTo_maskTo (n : Nat) (x : BitVec w) :
    maskTo n (maskTo n x) = maskTo n x := by rw [maskTo_eq_iff, leading_maskTo]

end Bits

/-- `netip.Addr`. -/
inductive Addr where
  | zero
  | v4 (bits : BitVec 32)
  | v6 (bits : BitVec 128) (zone : String)
  deriving DecidableEq, Repr

namespace Addr

/-- `Addr.BitLen`: the width of the address, 0 for the zero value. -/
def bitLen : Addr → Nat
  | zero => 0
  | v4 _ => 32
  | v6 _ _ => 128

/-- `Addr.Is4`: a plain IPv4 address, not a mapped one. -/
def is4 : Addr → Bool
  | v4 _ => true
  | _ => false

/-- `Addr.Is4In6`: an IPv6 address of the form `::ffff:a.b.c.d`. -/
def is4In6 : Addr → Bool
  | v6 bits _ => bits >>> 32 == 0xffff#128
  | _ => false

/-- `Addr.Unmap`: an IPv4-mapped address becomes the IPv4 address it holds. -/
def unmap : Addr → Addr
  | v6 bits zone => if (v6 bits zone).is4In6 then v4 (bits.setWidth 32) else v6 bits zone
  | a => a

/-- `Addr.As4`, with `none` where the library panics: the zero value and every
IPv6 address that is not IPv4-mapped. -/
def as4 (a : Addr) : Option (BitVec 32) :=
  match a.unmap with
  | v4 bits => some bits
  | _ => none

/-- `Addr.IsLoopback`: 127.0.0.0/8 (also in its mapped form) and `::1`. -/
def isLoopback (a : Addr) : Bool :=
  match a.unmap with
  | zero => false
  | v4 bits => bits >>> 24 == 127#32
  | v6 bits _ => bits == 1#128

@[simp] theorem as4_v4 (x : BitVec 32) : (v4 x).as4 = some x := rfl

theorem is4_iff {a : Addr} : a.is4 = true ↔ ∃ x, a = v4 x := by cases a <;> simp [is4]

/-- `As4` returns exactly when the address is IPv4 after unmapping. -/
theorem as4_eq_some_iff {a : Addr} {x : BitVec 32} :
    a.as4 = some x ↔ a.unmap = v4 x := by
  unfold as4
  cases a.unmap <;> simp

end Addr

/-- A valid `netip.Prefix`: an address without zone and a length that is at
most the width of the address. -/
inductive Prefix where
  | v4 (addr : BitVec 32) (len : Fin 33)
  | v6 (addr : BitVec 128) (len : Fin 129)
  deriving DecidableEq, Repr

namespace Prefix

/-- `netip.PrefixFrom` of an IPv4 address and a length of at most 32. -/
def from4 (addr : BitVec 32) (len : Nat) : Prefix :=
  v4 addr (Fin.ofNat 33 len)

/-- `Prefix.Bits`: the prefix length. -/
def bits : Prefix → Nat
  | v4 _ len | v6 _ len => len

/-- `Prefix.Addr`: the address, host bits included. -/
def addr : Prefix → Addr
  | v4 x _ => .v4 x
  | v6 x _ => .v6 x ""

/-- `Prefix.Masked`: the canonical form, with the host bits cleared. -/
def masked : Prefix → Prefix
  | v4 x len => v4 (maskTo len x) len
  | v6 x len => v6 (maskTo len x) len

/-- The prefix contains the address: same family, and the leading bits agree.
The zone plays no part; an IPv4-mapped address counts as IPv6. -/
def contains : Prefix → Addr → Bool
  | v4 x len, .v4 a | v6 x len, .v6 a _ => leading len x == leading len a
  | _, _ => false

/-- The first prefix is a supernet of the second (or the same network). -/
def covers : Prefix → Prefix → Bool
  | v4 x len, v4 y len'
  | v6 x len, v6 y len' => decide (len.val ≤ len'.val) && (leading len x == leading len y)
  | _, _ => false

@[simp] theorem masked_masked (p : Prefix) : p.masked.masked = p.masked := by
  cases p <;> simp [masked, maskTo_maskTo]

@[simp] theorem bits_masked (p : Prefix) : p.masked.bits = p.bits := by cases p <;> rfl

@[simp] theorem contains_masked (p : Prefix) (a : Addr) :
    p.masked.contains a = p.contains a := by
  cases p <;> cases a <;> simp [masked, contains, leading_maskTo]

/-- Canonical forms agree exactly when family, length and leading bits do. -/
theorem masked_eq_iff {p q : Prefix} :
    p.masked = q.masked ↔ p.bits = q.bits ∧ p.covers q = true := by
  cases p with
  | v4 x m =>
    cases q with
    | v4 y n =>
      simp only [masked, bits, covers, v4.injEq, Bool.and_eq_true, decide_eq_true_eq,
        beq_iff_eq, Fin.ext_iff]
      exact maskTo_eq_and_iff
    | v6 y n => simp [masked, covers]
  | v6 x m =>
    cases q with
    | v4 y n => simp [masked, covers]
    | v6 y n =>
      simp only [masked, bits, covers, v6.injEq, Bool.and_eq_true, decide_eq_true_eq,
        beq_iff_eq, Fin.ext_iff]
      exact maskTo_eq_and_iff

/-- **One supernet per length.**  Two prefixes of the same length that cover
one prefix have the same canonical form. -/
theorem masked_eq_of_covers {p q r : Prefix}
    (hp : p.covers r = true) (hq : q.covers r = true) (hbits : p.bits = q.bits) :
    p.masked = q.masked := by
  rw [masked_eq_iff]
  refine ⟨hbits, ?_⟩
  cases r with
  | v4 z k =>
    cases p with
    | v6 x m => simp [covers] at hp
    | v4 x m =>
      cases q with
      | v6 y n => simp [covers] at hq
      | v4 y n =>
        simp only [covers, bits, Bool.and_eq_true, decide_eq_true_eq, beq_iff_eq]
          at hp hq hbits ⊢
        rw [← hbits] at hq
        exact ⟨Nat.le_of_eq hbits, hp.2.trans hq.2.symm⟩
  | v6 z k =>
    cases p with
    | v4 x m => simp [covers] at hp
    | v6 x m =>
      cases q with
      | v4 y n => simp [covers] at hq
      | v6 y n =>
        simp only [covers, bits, Bool.and_eq_true, decide_eq_true_eq, beq_iff_eq]
          at hp hq hbits ⊢
        rw [← hbits] at hq
        exact ⟨Nat.le_of_eq hbits, hp.2.trans hq.2.symm⟩

end Prefix

/-- `netip.PrefixFrom`: `none` where the library returns an invalid prefix.
The zone of the address is dropped. -/
def prefixFrom : Addr → Nat → Option Prefix
  | .zero, _ => none
  | .v4 x, n => if h : n < 33 then some (.v4 x ⟨n, h⟩) else none
  | .v6 x _, n => if h : n < 129 then some (.v6 x ⟨n, h⟩) else none

/-- The host prefix of an address: `PrefixFrom(ip, ip.BitLen())`. -/
def hostPrefix (a : Addr) : Option Prefix :=
  prefixFrom a a.bitLen

open Prefix

/-- The supernets of a host prefix are the prefixes that contain the address. -/
theorem covers_hostPrefix {a : Addr} {h : Prefix} (hh : hostPrefix a = some h) (p : Prefix) :
    p.covers h = p.contains a := by
  cases a with
  | zero => simp [hostPrefix, prefixFrom] at hh
  | v4 a =>
    have hfull : h = .v4 a ⟨32, by decide⟩ := by
      simpa [hostPrefix, prefixFrom, Addr.bitLen] using hh.symm
    subst hfull
    cases p with
    | v4 x m => simp [covers, contains, Nat.le_of_lt_succ m.isLt]
    | v6 x m => rfl
  | v6 a zone =>
    have hfull : h = .v6 a ⟨128, by decide⟩ := by
      simpa [hostPrefix, prefixFrom, Addr.bitLen] using hh.symm
    subst hfull
    cases p with
    | v4 x m => rfl
    | v6 x m => simp [covers, contains, Nat.le_of_lt_succ m.isLt]

/-- Only the zero address has no host prefix, and no prefix contains it. -/
theorem contains_of_hostPrefix_none {a : Addr} (hh : hostPrefix a = none) (p : Prefix) :
    p.contains a = false := by
  cases a with
  | zero => cases p <;> rfl
  | v4 a | v6 a zone => simp [hostPrefix, prefixFrom, Addr.bitLen] at hh

/-- Of the prefixes of one length at most one, up to host bits, contains a
given address. -/
theorem masked_eq_of_contains {p q : Prefix} {a : Addr}
    (hp : p.contains a = true) (hq : q.contains a = true) (hbits : p.bits = q.bits) :
    p.masked = q.masked := by
  cases hh : hostPrefix a with
  | none => simp [contains_of_hostPrefix_none hh] at hp
  | some h =>
    rw [← covers_hostPrefix hh] at hp hq
    exact masked_eq_of_covers hp hq hbits

end Netip
