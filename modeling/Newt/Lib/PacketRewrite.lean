import Newt.Lib.Checksum

/-!
# Rewritten packets

`restored` is a packet with its header checksum and its transport checksum recomputed:
`rewriteAddress` writes an address and restores (`rewriteAddress_eq`).  It depends on
everything but the two checksum fields (`restored_congr`), changes nothing else
(`sameBut_restored`), and both checksums then verify (`headerVerifies_restored`,
`transportVerifies_restored`).
-/

namespace IPv4Packet

open Bytes Netip

/-- Where the transport checksum of a packet is, if the packet has a whole TCP or UDP
header. -/
def xsumOffset (b : ByteString) : Option Nat :=
  if proto b = tcpProto ∧ headerLen b + tcpMinimumSize ≤ b.length then some (headerLen b + 16)
  else if proto b = udpProto ∧ headerLen b + udpMinimumSize ≤ b.length then
    some (headerLen b + 6)
  else none

/-- The sum of the pseudo-header of a packet. -/
def pseudoSum (b : ByteString) : UInt16 :=
  pseudoHeaderChecksum (proto b) (src b) (dst b) (UInt16.ofNat (b.length - headerLen b))

/-- The IP header checksum verifies. -/
def HeaderVerifies (b : ByteString) : Prop :=
  checksum (b.take (headerLen b)) 0 = 0xffff

/-- The transport checksum verifies over the pseudo-header. -/
def TransportVerifies (b : ByteString) : Prop :=
  checksum (b.drop (headerLen b)) (pseudoSum b) = 0xffff

/-- The header checksum recomputed. -/
def withHeaderChecksum (b : ByteString) : ByteString :=
  putNum b 10 2 (~~~checksum ((putNum b 10 2 0).take (headerLen b)) 0).toNat

/-- The transport checksum at `x` recomputed. -/
def withChecksumAt (b : ByteString) (x : Nat) : ByteString :=
  putNum b x 2 (~~~checksum ((putNum b x 2 0).drop (headerLen b)) (pseudoSum b)).toNat

/-- The transport checksum recomputed, if there is one. -/
def withTransportChecksum (b : ByteString) : ByteString :=
  match xsumOffset b with
  | some x => withChecksumAt b x
  | none => b

/-- Both checksums recomputed. -/
def restored (b : ByteString) : ByteString :=
  withTransportChecksum (withHeaderChecksum b)

/-- The positions of the checksums. -/
def ChecksumField (b : ByteString) (k : Nat) : Prop :=
  Within 10 2 k ∨ ∃ x ∈ xsumOffset b, Within x 2 k

/-- The header is inside the packet. -/
structure HasHeader (b : ByteString) : Prop where
  minimum : ipv4MinimumSize ≤ headerLen b
  inside : headerLen b ≤ b.length

variable {b b' : ByteString}

theorem HasHeader.twenty_le (h : HasHeader b) : 20 ≤ headerLen b := h.minimum

theorem HasHeader.twenty_le_length (h : HasHeader b) : 20 ≤ b.length :=
  h.twenty_le.trans h.inside

theorem xsumOffset_bounds {x : Nat} (hx : x ∈ xsumOffset b) :
    headerLen b + 6 ≤ x ∧ x + 2 ≤ b.length ∧ (x - headerLen b) % 2 = 0 := by
  unfold xsumOffset at hx
  split at hx
  · next hsize =>
    cases hx
    have := hsize.2
    simp only [tcpMinimumSize] at this
    omega
  · split at hx
    · next hsize =>
      cases hx
      have := hsize.2
      simp only [udpMinimumSize] at this
      omega
    · cases hx

/-- The fields of the header, where nothing else but checksums changed. -/
structure SameHeader (b b' : ByteString) : Prop where
  length : b'.length = b.length
  headerLen : headerLen b' = headerLen b
  proto : proto b' = proto b
  src : src b' = src b
  dst : dst b' = dst b

theorem SameHeader.xsumOffset_eq (h : SameHeader b b') : xsumOffset b' = xsumOffset b := by
  unfold xsumOffset
  rw [h.proto, h.headerLen, h.length]

theorem SameHeader.pseudoSum_eq (h : SameHeader b b') : pseudoSum b' = pseudoSum b := by
  unfold pseudoSum
  rw [h.proto, h.src, h.dst, h.headerLen, h.length]

theorem sameHeader_of_sameBut {changed : Nat → Prop} (h : SameBut changed b b')
    (hout : ∀ k < 20, k < 10 ∨ 12 ≤ k → ¬ changed k) : SameHeader b b' := by
  have hread : ∀ i n, i + n ≤ 20 → (i + n ≤ 10 ∨ 12 ≤ i) → num b' i n = num b i n := by
    intro i n hlt hfield
    refine h.num_eq (fun k hk => hout k ?_ ?_) <;> obtain ⟨hlow, hhigh⟩ := hk <;> omega
  refine ⟨h.length, ?_, ?_, ?_, ?_⟩
  · unfold headerLen
    rw [hread 0 1 (by omega) (by omega)]
  · unfold proto
    rw [hread 9 1 (by omega) (by omega)]
  · unfold src
    rw [hread 12 4 (by omega) (by omega)]
  · unfold dst
    rw [hread 16 4 (by omega) (by omega)]

/-- Writing behind the fixed part of the header. -/
theorem sameHeader_putNum {i n : Nat} (hlow : 20 ≤ i) (hin : i + n ≤ b.length) (v : Nat) :
    SameHeader b (putNum b i n v) := by
  refine sameHeader_of_sameBut (sameBut_putNum hin v) ?_
  intro k hk _ hwithin
  obtain ⟨hk', -⟩ := hwithin
  omega

theorem not_checksumField (hmin : 20 ≤ headerLen b) {k : Nat} (hk : k < 20)
    (hout : k < 10 ∨ 12 ≤ k) : ¬ ChecksumField b k := by
  intro hfield
  rcases hfield with ⟨hlow, hhigh⟩ | ⟨x, hx, hlow, -⟩
  · omega
  · have hbound := xsumOffset_bounds hx
    omega

theorem sameBut_withHeaderChecksum (h : HasHeader b) :
    SameBut (Within 10 2) b (withHeaderChecksum b) := by
  have hmin := h.twenty_le
  have hin := h.inside
  exact sameBut_putNum (by omega) _

theorem sameHeader_withHeaderChecksum (h : HasHeader b) :
    SameHeader b (withHeaderChecksum b) := by
  refine sameHeader_of_sameBut (sameBut_withHeaderChecksum h) ?_
  intro k hk hout hwithin
  obtain ⟨hlow, hhigh⟩ := hwithin
  omega

theorem sameBut_withTransportChecksum (b : ByteString) :
    SameBut (fun k => ∃ x ∈ xsumOffset b, Within x 2 k) b (withTransportChecksum b) := by
  unfold withTransportChecksum
  split
  · next x hx =>
    refine (sameBut_putNum (xsumOffset_bounds hx).2.1 _).mono ?_
    intro k hk
    exact ⟨x, hx, hk⟩
  · exact SameBut.refl _ b

/-- **Nothing but checksums changes.** -/
theorem sameBut_restored (h : HasHeader b) : SameBut (ChecksumField b) b (restored b) := by
  have hheader := sameHeader_withHeaderChecksum h
  refine SameBut.trans ((sameBut_withHeaderChecksum h).mono (fun k hk => .inl hk)) ?_
  refine (sameBut_withTransportChecksum (withHeaderChecksum b)).mono (fun k hk => .inr ?_)
  rw [← hheader.xsumOffset_eq]
  exact hk

theorem sameHeader_of_checksums (hmin : 20 ≤ headerLen b) (h : SameBut (ChecksumField b) b b') :
    SameHeader b b' :=
  sameHeader_of_sameBut h (fun _ hk hout => not_checksumField hmin hk hout)

theorem HasHeader.of_sameHeader (h : HasHeader b) (hsame : SameHeader b b') : HasHeader b' := by
  refine ⟨?_, ?_⟩
  · rw [hsame.headerLen]
    exact h.minimum
  · rw [hsame.headerLen, hsame.length]
    exact h.inside

/-- The header checksum verifies once it is recomputed. -/
theorem headerVerifies_withHeaderChecksum (h : HasHeader b) :
    HeaderVerifies (withHeaderChecksum b) := by
  have hmin := h.twenty_le
  have hin := h.inside
  unfold HeaderVerifies
  rw [(sameHeader_withHeaderChecksum h).headerLen]
  unfold withHeaderChecksum
  rw [take_putNum (by omega) hin, take_putNum (by omega) hin]
  exact checksum_putNum_not (by decide) (by rw [List.length_take]; omega) 0

/-- The transport checksum is behind the header. -/
theorem take_withTransportChecksum (b : ByteString) :
    (withTransportChecksum b).take (headerLen b) = b.take (headerLen b) := by
  refine (sameBut_withTransportChecksum b).take_eq ?_
  intro k hk hfield
  obtain ⟨x, hx, hlow, -⟩ := hfield
  have hbound := xsumOffset_bounds hx
  omega

variable (h : HasHeader b)

include h

theorem sameHeader_withTransportChecksum : SameHeader b (withTransportChecksum b) := by
  have hmin := h.twenty_le
  refine sameHeader_of_sameBut (sameBut_withTransportChecksum b) ?_
  intro k hk hout hfield
  exact not_checksumField hmin hk hout (.inr hfield)

theorem headerVerifies_restored : HeaderVerifies (restored b) := by
  have hheader := h.of_sameHeader (sameHeader_withHeaderChecksum h)
  have hverifies := headerVerifies_withHeaderChecksum h
  unfold HeaderVerifies at hverifies ⊢
  rw [restored, (sameHeader_withTransportChecksum hheader).headerLen, take_withTransportChecksum]
  exact hverifies

theorem transportVerifies_withTransportChecksum {x : Nat} (hx : xsumOffset b = some x) :
    TransportVerifies (withTransportChecksum b) := by
  obtain ⟨hlow, hhigh, heven⟩ := xsumOffset_bounds hx
  have hsame := sameHeader_withTransportChecksum h
  obtain ⟨y, rfl⟩ : ∃ y, x = headerLen b + y := ⟨x - headerLen b, by omega⟩
  unfold TransportVerifies
  rw [hsame.headerLen, hsame.pseudoSum_eq, withTransportChecksum, hx]
  show checksum ((withChecksumAt b (headerLen b + y)).drop (headerLen b)) (pseudoSum b) = 0xffff
  rw [withChecksumAt, drop_putNum (by omega), drop_putNum (by omega)]
  refine checksum_putNum_not ?_ ?_ _
  · rwa [Nat.add_sub_cancel_left] at heven
  · rw [List.length_drop]
    omega

theorem transportVerifies_restored {x : Nat} (hx : xsumOffset b = some x) :
    TransportVerifies (restored b) := by
  have hsame := sameHeader_withHeaderChecksum h
  exact transportVerifies_withTransportChecksum (h.of_sameHeader hsame)
    (hsame.xsumOffset_eq.trans hx)

/-- The old header checksum does not matter. -/
theorem withHeaderChecksum_congr (hsame : SameBut (ChecksumField b) b b') :
    SameBut (fun k => ∃ x ∈ xsumOffset b, Within x 2 k) (withHeaderChecksum b)
      (withHeaderChecksum b') := by
  have hmin := h.twenty_le
  have hin := h.inside
  have hrest : ∀ v, SameBut (fun k => ∃ x ∈ xsumOffset b, Within x 2 k) (putNum b 10 2 v)
      (putNum b' 10 2 v) := by
    intro v
    refine (hsame.putNum (by omega) v).mono ?_
    intro k hk
    exact hk.1.resolve_left hk.2
  have htake : (putNum b' 10 2 0).take (headerLen b) = (putNum b 10 2 0).take (headerLen b) := by
    refine (hrest 0).take_eq ?_
    intro k hk hfield
    obtain ⟨x, hx, hlow, -⟩ := hfield
    have hbound := xsumOffset_bounds hx
    omega
  unfold withHeaderChecksum
  rw [(sameHeader_of_checksums hmin hsame).headerLen, htake]
  exact hrest _

/-- The old transport checksum does not matter. -/
theorem withTransportChecksum_congr
    (hsame : SameBut (fun k => ∃ x ∈ xsumOffset b, Within x 2 k) b b') :
    withTransportChecksum b' = withTransportChecksum b := by
  have hmin := h.twenty_le
  have hheader := sameHeader_of_checksums hmin (hsame.mono (fun k hk => .inr hk))
  unfold withTransportChecksum
  rw [hheader.xsumOffset_eq]
  cases hx : xsumOffset b with
  | none =>
    refine hsame.eq ?_
    intro k hk
    rw [hx] at hk
    obtain ⟨x, hx, -⟩ := hk
    cases hx
  | some x =>
    have hput : ∀ v, putNum b' x 2 v = putNum b x 2 v := by
      intro v
      refine (hsame.putNum (xsumOffset_bounds hx).2.1 v).eq ?_
      intro k hk
      obtain ⟨⟨y, hy, hwithin⟩, hout⟩ := hk
      rw [hx] at hy
      cases hy
      exact hout hwithin
    show withChecksumAt b' x = withChecksumAt b x
    unfold withChecksumAt
    rw [hput, hput, hheader.headerLen, hheader.pseudoSum_eq]

/-- **What is restored depends on everything but the checksums.** -/
theorem restored_congr (hsame : SameBut (ChecksumField b) b b') : restored b' = restored b := by
  have hheader := sameHeader_withHeaderChecksum h
  refine withTransportChecksum_congr (h.of_sameHeader hheader) ?_
  rw [hheader.xsumOffset_eq]
  exact withHeaderChecksum_congr h hsame

/-- A packet that was restored is not changed by restoring it again. -/
theorem restored_restored : restored (restored b) = restored b :=
  restored_congr h (sameBut_restored h)

omit h

section Rewrite

variable {off : Nat}

theorem setHeaderChecksum_eq (h : HasHeader b) :
    setHeaderChecksum b = .ok (withHeaderChecksum b) := by
  have hmin := h.twenty_le
  have hin := h.inside
  have hlen : (putNum b 10 2 0).length = b.length := length_putNum (by omega)
  have hhl : headerLen (putNum b 10 2 0) = headerLen b := by
    unfold headerLen
    rw [num_putNum_of_disjoint (by omega) (by omega)]
  have hsum : calculateChecksum (putNum b 10 2 0) =
      .ok (checksum ((putNum b 10 2 0).take (headerLen b)) 0) := by
    unfold calculateChecksum
    rw [headerLength_ok (by omega), hhl, ok_bind, sliceTo, if_pos (by omega)]
    rfl
  unfold setHeaderChecksum
  rw [writeNum_ok (by omega), ok_bind, hsum, ok_bind, writeNum_ok (by omega),
    putNum_putNum (by omega)]
  rfl

theorem setTransportChecksum_eq (h : HasHeader b) {y : Nat}
    (hy : 6 ≤ y) (hin : headerLen b + y + 2 ≤ b.length) :
    setTransportChecksum b (headerLen b) y (proto b) =
      .ok (withChecksumAt b (headerLen b + y)) := by
  have hmin := h.twenty_le
  have hlen : (putNum b (headerLen b + y) 2 0).length = b.length := length_putNum hin
  have hsame : SameHeader b (putNum b (headerLen b + y) 2 0) :=
    sameHeader_putNum (by omega) hin 0
  unfold setTransportChecksum
  rw [writeNum_ok hin, ok_bind, sourceAddress_ok (by omega), ok_bind,
    destinationAddress_ok (by omega), ok_bind]
  rw [sliceFrom_ok (by omega), ok_bind, writeNum_ok (by omega), putNum_putNum hin, hsame.src,
    hsame.dst, hlen]
  rfl

theorem updateTransportChecksum_eq (h : HasHeader b) :
    updateTransportChecksum b (headerLen b) = .ok (withTransportChecksum b) := by
  have hmin := h.twenty_le
  have hin := h.inside
  unfold updateTransportChecksum withTransportChecksum xsumOffset
  rw [transportProtocol_ok (by omega), ok_bind]
  by_cases htcp : proto b = tcpProto
  · have hudp : ¬ (proto b = udpProto ∧ headerLen b + udpMinimumSize ≤ b.length) := by
      rw [htcp]
      exact fun hc => absurd hc.1 (by decide)
    rw [if_pos htcp, if_neg hudp]
    by_cases hsize : headerLen b + tcpMinimumSize ≤ b.length
    · rw [if_pos hsize, if_pos ⟨htcp, hsize⟩]
      simp only [tcpMinimumSize] at hsize
      exact setTransportChecksum_eq h (by omega) (by omega)
    · have hshort : ¬ (proto b = tcpProto ∧ headerLen b + tcpMinimumSize ≤ b.length) :=
        fun hc => hsize hc.2
      rw [if_neg hsize, if_neg hshort]
      rfl
  · have hother : ¬ (proto b = tcpProto ∧ headerLen b + tcpMinimumSize ≤ b.length) :=
      fun hc => htcp hc.1
    rw [if_neg htcp, if_neg hother]
    by_cases hudp : proto b = udpProto
    · rw [if_pos hudp]
      by_cases hsize : headerLen b + udpMinimumSize ≤ b.length
      · rw [if_pos hsize, if_pos ⟨hudp, hsize⟩]
        simp only [udpMinimumSize] at hsize
        exact setTransportChecksum_eq h (by omega) (by omega)
      · have hshort : ¬ (proto b = udpProto ∧ headerLen b + udpMinimumSize ≤ b.length) :=
          fun hc => hsize hc.2
        rw [if_neg hsize, if_neg hshort]
        rfl
    · have hnone : ¬ (proto b = udpProto ∧ headerLen b + udpMinimumSize ≤ b.length) :=
        fun hc => hudp hc.1
      rw [if_neg hudp, if_neg hnone]
      rfl

/-- The address at `off` is the source or the destination. -/
def AddressOffset (off : Nat) : Prop := 12 ≤ off ∧ off + 4 ≤ 20

theorem HasHeader.address_fits (h : HasHeader b) (hoff : AddressOffset off) :
    off + 4 ≤ b.length :=
  hoff.2.trans h.twenty_le_length

/-- A packet with another address keeps its header otherwise. -/
theorem HasHeader.putNum (h : HasHeader b) (hoff : AddressOffset off) (v : Nat) :
    HasHeader (Bytes.putNum b off 4 v) ∧ headerLen (Bytes.putNum b off 4 v) = headerLen b ∧
      xsumOffset (Bytes.putNum b off 4 v) = xsumOffset b := by
  have hfit := h.address_fits hoff
  have hlen : (Bytes.putNum b off 4 v).length = b.length := length_putNum hfit
  obtain ⟨hlow, hhigh⟩ := hoff
  have hheader : headerLen (Bytes.putNum b off 4 v) = headerLen b := by
    unfold headerLen
    rw [num_putNum_of_disjoint (by omega) (by omega)]
  have hproto : proto (Bytes.putNum b off 4 v) = proto b := by
    unfold proto
    rw [num_putNum_of_disjoint (by omega) (by omega)]
  refine ⟨⟨?_, ?_⟩, hheader, ?_⟩
  · rw [hheader]
    exact h.minimum
  · rw [hheader, hlen]
    exact h.inside
  · unfold xsumOffset
    rw [hproto, hheader, hlen]

/-- **A rewrite** writes the address and restores the checksums. -/
theorem rewriteAddress_eq (h : HasHeader b) (hoff : AddressOffset off) {newAddr : Addr}
    {a : BitVec 32} (ha : newAddr.as4 = some a) :
    rewriteAddress off b newAddr = .ok (some (restored (putNum b off 4 a.toNat))) := by
  have hmin := h.twenty_le
  have hin := h.inside
  obtain ⟨hheader, hlen, -⟩ := h.putNum hoff a.toNat
  have hsmall : ¬ b.length < ipv4MinimumSize := by
    simp only [ipv4MinimumSize]
    omega
  have has4 : as4 newAddr = .ok a := by
    unfold as4
    rw [ha]
  have hsame := sameHeader_withHeaderChecksum hheader
  have hupdate := updateTransportChecksum_eq (hheader.of_sameHeader hsame)
  rw [hsame.headerLen, hlen] at hupdate
  obtain ⟨hlow, hhigh⟩ := hoff
  unfold rewriteAddress
  rw [if_neg hsmall, headerLength_ok (by omega), ok_bind, has4, ok_bind, writeNum_ok (by omega),
    ok_bind, setHeaderChecksum_eq hheader, ok_bind, hupdate]
  rfl

end Rewrite

end IPv4Packet
