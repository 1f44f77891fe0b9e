import Mathlib.Data.List.Induction
import Newt.Lib.IPv4Packet

/-!
# The algebra of Internet checksums

`combine` is addition modulo 65535 with two representations of zero: commutative and
associative, with 0 neutral, and a word and its complement add up to `0xffff`.  So the
sum of a buffer is the sum of its parts, if they start at even offsets
(`checksum_append`), and a field at an even offset can be taken out of it
(`checksum_putNum`).  What verifies a buffer is that with the complement of the sum of
the rest in the field the whole adds up to `0xffff`: `checksum_putNum_not`.
-/

namespace Bytes

open List

/-- The two byte strings differ at most in the given positions. -/
structure SameBut (changed : Nat → Prop) (b b' : ByteString) : Prop where
  length : b'.length = b.length
  bytes : ∀ k, ¬ changed k → b'[k]? = b[k]?

/-- The `n` positions from `i`. -/
def Within (i n k : Nat) : Prop := i ≤ k ∧ k < i + n

section SameBut

variable {changed changed' : Nat → Prop} {b b' b'' : ByteString} {i n v : Nat}

theorem SameBut.refl (changed : Nat → Prop) (b : ByteString) : SameBut changed b b :=
  ⟨rfl, fun _ _ => rfl⟩

theorem SameBut.trans (h : SameBut changed b b') (h' : SameBut changed b' b'') :
    SameBut changed b b'' :=
  ⟨h'.length.trans h.length, fun k hk => (h'.bytes k hk).trans (h.bytes k hk)⟩

theorem SameBut.mono (h : SameBut changed b b') (hsub : ∀ k, changed k → changed' k) :
    SameBut changed' b b' :=
  ⟨h.length, fun k hk => h.bytes k (fun hc => hk (hsub k hc))⟩

theorem sameBut_putNum (h : i + n ≤ b.length) (v : Nat) :
    SameBut (Within i n) b (putNum b i n v) := by
  refine ⟨length_putNum h, fun k hk => ?_⟩
  unfold putNum
  rw [getElem?_overwrite (by rwa [length_encode]), length_encode]
  exact if_neg hk

variable (h : SameBut changed b b')

include h

/-- What is read outside the changed positions is the same. -/
theorem SameBut.range_eq (hout : ∀ k, Within i n k → ¬ changed k) : range b' i n = range b i n := by
  apply ext_getElem?
  intro k
  rw [getElem?_range, getElem?_range]
  split
  · exact h.bytes _ (hout _ ⟨Nat.le_add_right i k, by omega⟩)
  · rfl

theorem SameBut.num_eq (hout : ∀ k, Within i n k → ¬ changed k) : num b' i n = num b i n := by
  unfold num
  rw [h.range_eq hout]

/-- A field that is written next may differ before. -/
theorem SameBut.putNum (hin : i + n ≤ b.length) (v : Nat) :
    SameBut (fun k => changed k ∧ ¬ Within i n k) (putNum b i n v) (putNum b' i n v) := by
  have hlen := h.length
  refine ⟨?_, fun k hk => ?_⟩
  · rw [length_putNum (by omega), length_putNum hin, hlen]
  · unfold Bytes.putNum
    rw [getElem?_overwrite (by rw [length_encode]; omega),
      getElem?_overwrite (by rwa [length_encode]), length_encode]
    split
    · rfl
    · next hout => exact h.bytes k (fun hc => hk ⟨hc, hout⟩)

theorem SameBut.take_eq (hout : ∀ k < n, ¬ changed k) : b'.take n = b.take n := by
  apply ext_getElem?
  intro k
  rw [getElem?_take, getElem?_take]
  split
  · next hk => exact h.bytes k (hout k hk)
  · rfl

theorem SameBut.drop_eq (hout : ∀ k, n ≤ k → ¬ changed k) : b'.drop n = b.drop n := by
  apply ext_getElem?
  intro k
  rw [getElem?_drop, getElem?_drop]
  exact h.bytes _ (hout _ (Nat.le_add_right n k))

theorem SameBut.eq (hnone : ∀ k, ¬ changed k) : b' = b :=
  ext_getElem? fun k => h.bytes k (hnone k)

omit h

/-- The last write to a field counts. -/
theorem putNum_putNum (h : i + n ≤ b.length) (v w : Nat) :
    putNum (putNum b i n v) i n w = putNum b i n w := by
  refine ((sameBut_putNum h v).putNum h w).eq ?_
  intro k hk
  exact hk.2 hk.1

/-- A write behind the first bytes. -/
theorem overwrite_append_right (b c bs : ByteString) :
    overwrite (b ++ c) (b.length + i) bs = b ++ overwrite c i bs := by
  unfold overwrite
  rw [take_length_add_append, Nat.add_assoc, drop_length_add_append, append_assoc,
    append_assoc, append_assoc]

/-- A field in the first bytes. -/
theorem take_putNum {m : Nat} (h : i + n ≤ m) (hm : m ≤ b.length) (v : Nat) :
    (putNum b i n v).take m = putNum (b.take m) i n v := by
  have hlen : (b.take m).length = m := by
    rw [length_take]
    omega
  apply ext_getElem?
  intro k
  unfold putNum
  rw [getElem?_take, getElem?_overwrite (by rw [length_encode]; omega),
    getElem?_overwrite (by rw [length_encode]; omega), getElem?_take, length_encode]
  by_cases hk : k < m
  · rw [if_pos hk, if_pos hk]
  · rw [if_neg hk, if_neg hk, if_neg (by omega)]

/-- A field in the last bytes. -/
theorem drop_putNum {m : Nat} (h : m + i + n ≤ b.length) (v : Nat) :
    (putNum b (m + i) n v).drop m = putNum (b.drop m) i n v := by
  apply ext_getElem?
  intro k
  unfold putNum
  rw [getElem?_drop, getElem?_overwrite (by rw [length_encode]; omega),
    getElem?_overwrite (by rw [length_encode, length_drop]; omega), getElem?_drop, length_encode]
  by_cases hk : i ≤ k ∧ k < i + n
  · rw [if_pos (by omega), if_pos hk]
    congr 1
    omega
  · rw [if_neg (by omega), if_neg hk]

theorem value_lt (b : ByteString) : value b < 256 ^ b.length := by
  induction b using reverseRecOn with
  | nil => decide
  | append_singleton b x ih =>
    have hx : x.toNat < 256 := x.toNat_lt
    rw [value_append_singleton, length_append, length_singleton, pow_succ]
    omega

/-- The bytes of a number that was read. -/
theorem encode_value (b : ByteString) : encode b.length (value b) = b := by
  induction b using reverseRecOn with
  | nil => rfl
  | append_singleton b x ih =>
    have hx : x.toNat < 256 := x.toNat_lt
    have hdiv : (value b * 256 + x.toNat) / 256 = value b := by omega
    have hmod : (value b * 256 + x.toNat) % 256 = x.toNat := by omega
    rw [value_append_singleton, length_append, length_singleton, encode, hdiv, hmod, ih,
      UInt8.ofNat_toNat]

theorem length_range (h : i + n ≤ b.length) : (range b i n).length = n := by
  unfold range
  rw [length_take, length_drop]
  omega

theorem num_lt (h : i + n ≤ b.length) : num b i n < 256 ^ n := by
  have hlt := value_lt (range b i n)
  rwa [length_range h] at hlt

/-- Writing what is there changes nothing. -/
theorem putNum_num (h : i + n ≤ b.length) : putNum b i n (num b i n) = b := by
  have hbytes : encode n (num b i n) = range b i n := by
    have henc := encode_value (range b i n)
    rwa [length_range h] at henc
  apply ext_getElem?
  intro k
  unfold putNum
  rw [hbytes, getElem?_overwrite (by rwa [length_range h]), length_range h]
  split
  · next hk =>
    rw [getElem?_range, if_pos (by omega)]
    congr 1
    omega
  · rfl

end SameBut

end Bytes

namespace IPv4Packet

open Bytes

section Words

theorem toNat_combine (x y : UInt16) :
    (combine x y).toNat =
      if x.toNat + y.toNat < 65536 then x.toNat + y.toNat else x.toNat + y.toNat - 65535 := by
  have hx : x.toNat < 65536 := x.toNat_lt
  have hy : y.toNat < 65536 := y.toNat_lt
  unfold combine
  rw [UInt16.toNat_ofNat']
  split <;> omega

theorem combine_comm (x y : UInt16) : combine x y = combine y x := by
  unfold combine
  rw [Nat.add_comm]

theorem combine_assoc (x y z : UInt16) : combine (combine x y) z = combine x (combine y z) := by
  have hx : x.toNat < 65536 := x.toNat_lt
  have hz : z.toNat < 65536 := z.toNat_lt
  apply UInt16.toNat_inj.mp
  rw [toNat_combine, toNat_combine, toNat_combine x, toNat_combine y]
  split <;> split <;> split <;> split <;> omega

instance : Std.Commutative combine := ⟨combine_comm⟩

instance : Std.Associative combine := ⟨combine_assoc⟩

theorem combine_right_comm (x y z : UInt16) :
    combine (combine x y) z = combine (combine x z) y := by
  rw [combine_assoc, combine_comm y z, ← combine_assoc]

@[simp] theorem combine_zero (x : UInt16) : combine x 0 = x := by
  have hx : x.toNat < 65536 := x.toNat_lt
  apply UInt16.toNat_inj.mp
  rw [toNat_combine]
  simp [hx]

@[simp] theorem zero_combine (x : UInt16) : combine 0 x = x := by rw [combine_comm, combine_zero]

/-- A word and its complement. -/
@[simp] theorem combine_not (x : UInt16) : combine x (~~~x) = 0xffff := by
  have hx : x.toNat < 65536 := x.toNat_lt
  have hnot : (~~~x).toNat = 65535 - x.toNat := by
    rw [UInt16.toNat_not]
    rfl
  apply UInt16.toNat_inj.mp
  rw [toNat_combine, hnot, if_pos (by omega)]
  show _ = 65535
  omega

/-- `0xffff` is the other zero. -/
theorem combine_allOnes {x : UInt16} (hx : x ≠ 0) : combine x 0xffff = x := by
  have hpos : x.toNat ≠ 0 := fun hzero => hx (UInt16.toNat_inj.mp hzero)
  have hones : (0xffff : UInt16).toNat = 65535 := rfl
  apply UInt16.toNat_inj.mp
  rw [toNat_combine, hones, if_neg (by omega)]
  omega

theorem combine_ofNat {m n : Nat} (h : m + n < 65536) :
    combine (UInt16.ofNat m) (UInt16.ofNat n) = UInt16.ofNat (m + n) := by
  apply UInt16.toNat_inj.mp
  rw [toNat_combine, UInt16.toNat_ofNat', UInt16.toNat_ofNat', UInt16.toNat_ofNat']
  split <;> omega

end Words

section Sums

/-- The initial value is one more word. -/
theorem checksum_eq_combine :
    ∀ (b : ByteString) (initial : UInt16), checksum b initial = combine initial (checksum b 0)
  | [], initial => (combine_zero initial).symm
  | [x], initial => by rw [checksum, checksum, zero_combine]
  | x :: y :: rest, initial => by
      rw [checksum, checksum, checksum_eq_combine rest (combine initial _),
        checksum_eq_combine rest (combine 0 _), zero_combine, combine_assoc]

/-- The words of a buffer from an even offset on are words of the whole. -/
theorem checksum_append :
    ∀ {a : ByteString} (b : ByteString) (initial : UInt16), a.length % 2 = 0 →
      checksum (a ++ b) initial = checksum b (checksum a initial)
  | [], _, _, _ => rfl
  | [_], _, _, heven => absurd heven Nat.one_ne_zero
  | x :: y :: rest, b, initial, heven => by
      have hrest : rest.length % 2 = 0 := by
        rw [List.length_cons, List.length_cons] at heven
        omega
      rw [List.cons_append, List.cons_append, checksum, checksum, checksum_append b _ hrest]

theorem encode_two (v : Nat) :
    encode 2 v = [UInt8.ofNat (v / 256 % 256), UInt8.ofNat (v % 256)] :=
  rfl

/-- The sum of the two bytes of a word. -/
theorem checksum_encode_two (v : Nat) (initial : UInt16) :
    checksum (encode 2 v) initial = combine initial (UInt16.ofNat v) := by
  have hword : UInt16.ofNat ((UInt8.ofNat (v / 256 % 256)).toNat * 256 +
      (UInt8.ofNat (v % 256)).toNat) = UInt16.ofNat v := by
    apply UInt16.toNat_inj.mp
    rw [UInt16.toNat_ofNat', UInt16.toNat_ofNat', UInt8.toNat_ofNat', UInt8.toNat_ofNat']
    omega
  rw [encode_two, checksum, checksum, hword]

variable {b : ByteString} {i : Nat}

/-- **A field at an even offset** is one word of the sum. -/
theorem checksum_putNum (heven : i % 2 = 0) (hin : i + 2 ≤ b.length) (v : Nat)
    (initial : UInt16) :
    checksum (putNum b i 2 v) initial =
      combine (checksum (putNum b i 2 0) initial) (UInt16.ofNat v) := by
  have hlow : (b.take i).length % 2 = 0 := by
    rw [List.length_take]
    omega
  have hsplit : ∀ w, checksum (putNum b i 2 w) initial =
      checksum (b.drop (i + 2)) (combine (checksum (b.take i) initial) (UInt16.ofNat w)) := by
    intro w
    unfold putNum overwrite
    rw [length_encode, List.append_assoc, checksum_append _ _ hlow,
      checksum_append _ _ (by rw [length_encode]), checksum_encode_two]
  have hzero : UInt16.ofNat 0 = 0 := rfl
  rw [hsplit v, hsplit 0, hzero, combine_zero, checksum_eq_combine,
    checksum_eq_combine _ (checksum (b.take i) initial), combine_right_comm]

/-- **The checksum of a buffer verifies** if the field holds the complement of the sum
with a field of zero. -/
theorem checksum_putNum_not (heven : i % 2 = 0) (hin : i + 2 ≤ b.length) (initial : UInt16) :
    checksum (putNum b i 2 (~~~checksum (putNum b i 2 0) initial).toNat) initial = 0xffff := by
  rw [checksum_putNum heven hin, UInt16.ofNat_toNat, combine_not]

end Sums

end IPv4Packet
