import Mathlib.Data.Nat.Basic
import Mathlib.Tactic.Ring

/-!
# Byte strings with checked access

A byte string as a Go program handles it: a slice whose capacity is its length,
big-endian numbers read from and written to ranges of it, and a panic for every
access outside it.

Reads and writes come twice.  `num` and `putNum` are total and carry the
algebra: `num_putNum_self` and `num_putNum_of_disjoint` say what a read sees
after a write.  `readNum` and `writeNum` are the checked forms a program calls;
inside the bounds they agree with the total ones.
-/

namespace Bytes

open List

/-- The run-time panics of the modelled code. -/
inductive Panic
  | outOfRange
  | addressFamily
  deriving DecidableEq, Repr

abbrev ByteString := List UInt8

/-- The value of a byte string as a big-endian number. -/
def value : ByteString → Nat :=
  foldl (fun acc x => acc * 256 + x.toNat) 0

/-- The `n` low bytes of `v`, most significant first. -/
def encode : Nat → Nat → ByteString
  | 0, _ => []
  | n + 1, v => encode n (v / 256) ++ [UInt8.ofNat (v % 256)]

/-- The `n` bytes from offset `i`. -/
def range (b : ByteString) (i n : Nat) : ByteString :=
  (b.drop i).take n

/-- The big-endian number in the `n` bytes from offset `i`. -/
def num (b : ByteString) (i n : Nat) : Nat :=
  value (range b i n)

/-- Overwrite the bytes from offset `i`. -/
def overwrite (b : ByteString) (i : Nat) (bs : ByteString) : ByteString :=
  b.take i ++ bs ++ b.drop (i + bs.length)

/-- Write `v` as a big-endian number into the `n` bytes from offset `i`. -/
def putNum (b : ByteString) (i n v : Nat) : ByteString :=
  overwrite b i (encode n v)

def readNum (b : ByteString) (i n : Nat) : Except Panic Nat :=
  if i + n ≤ b.length then .ok (num b i n) else .error .outOfRange

def writeNum (b : ByteString) (i n v : Nat) : Except Panic ByteString :=
  if i + n ≤ b.length then .ok (putNum b i n v) else .error .outOfRange

/-- The slice `b[i:]`. -/
def sliceFrom (b : ByteString) (i : Nat) : Except Panic ByteString :=
  if i ≤ b.length then .ok (b.drop i) else .error .outOfRange

/-- The slice `b[:n]`. -/
def sliceTo (b : ByteString) (n : Nat) : Except Panic ByteString :=
  if n ≤ b.length then .ok (b.take n) else .error .outOfRange

@[simp] theorem ok_bind {α β : Type} (x : α) (f : α → Except Panic β) :
    (Except.ok x >>= f) = f x :=
  rfl

theorem bind_eq_ok {α β : Type} {x : Except Panic α} {f : α → Except Panic β} {r : β} :
    (x >>= f) = .ok r ↔ ∃ a, x = .ok a ∧ f a = .ok r := by
  cases x with
  | error e => exact ⟨(nomatch ·), fun ⟨_, h, _⟩ => (nomatch h)⟩
  | ok a => exact ⟨fun h => ⟨a, rfl, h⟩, fun ⟨_, h, hf⟩ => Except.ok.inj h ▸ hf⟩

@[simp] theorem length_encode (n v : Nat) : (encode n v).length = n := by
  induction n generalizing v with
  | zero => rfl
  | succ n ih => simp [encode, ih]

theorem value_append_singleton (b : ByteString) (x : UInt8) :
    value (b ++ [x]) = value b * 256 + x.toNat := by simp [value, foldl_append]

/-- Reading back an encoded number keeps its low `n` bytes. -/
theorem value_encode (n v : Nat) : value (encode n v) = v % 256 ^ n := by
  induction n generalizing v with
  | zero => simp [encode, value, Nat.mod_one]
  | succ n ih =>
    have hbyte : (UInt8.ofNat (v % 256)).toNat = v % 256 := by simp
    rw [encode, value_append_singleton, ih, hbyte, pow_succ', Nat.mod_mul]
    ring

variable {b bs : ByteString} {i n v : Nat}

@[simp] theorem length_overwrite {i : Nat} (h : i + bs.length ≤ b.length) :
    (overwrite b i bs).length = b.length := by
  simp only [overwrite, length_append, length_take, length_drop]
  omega

theorem getElem?_range (b : ByteString) (i n k : Nat) :
    (range b i n)[k]? = if k < n then b[i + k]? else none := by
  unfold range
  rw [getElem?_take]
  split
  · rw [getElem?_drop]
  · rfl

theorem getElem?_overwrite {i : Nat} (h : i + bs.length ≤ b.length) (k : Nat) :
    (overwrite b i bs)[k]? =
      if i ≤ k ∧ k < i + bs.length then bs[k - i]? else b[k]? := by
  have htake : (b.take i).length = i := by
    rw [length_take]
    omega
  unfold overwrite
  rw [append_assoc]
  by_cases hlow : k < i
  · rw [getElem?_append_left (by omega), getElem?_take, if_pos hlow, if_neg (by omega)]
  · rw [getElem?_append_right (by omega), htake]
    by_cases hmid : k < i + bs.length
    · rw [getElem?_append_left (by omega), if_pos (by omega)]
    · rw [getElem?_append_right (by omega), getElem?_drop, if_neg (by omega)]
      congr 1
      omega

/-- A write is seen by a read of the same range. -/
theorem range_overwrite_self {i : Nat} (h : i + bs.length ≤ b.length) :
    range (overwrite b i bs) i bs.length = bs := by
  apply ext_getElem?
  intro k
  rw [getElem?_range, getElem?_overwrite h]
  by_cases hk : k < bs.length
  · rw [if_pos hk, if_pos (by omega)]
    congr 1
    omega
  · rw [if_neg hk]
    exact (getElem?_eq_none (by omega)).symm

/-- A write is not seen by a read of a disjoint range. -/
theorem range_overwrite_of_disjoint {i j n : Nat} (h : i + bs.length ≤ b.length)
    (hd : j + n ≤ i ∨ i + bs.length ≤ j) : range (overwrite b i bs) j n = range b j n := by
  apply ext_getElem?
  intro k
  rw [getElem?_range, getElem?_range, getElem?_overwrite h]
  by_cases hk : k < n
  · rw [if_pos hk, if_pos hk, if_neg (by omega)]
  · rw [if_neg hk, if_neg hk]

@[simp] theorem length_putNum (h : i + n ≤ b.length) : (putNum b i n v).length = b.length :=
  length_overwrite (by rwa [length_encode])

theorem num_putNum_self (h : i + n ≤ b.length) : num (putNum b i n v) i n = v % 256 ^ n := by
  have hself : range (overwrite b i (encode n v)) i (encode n v).length = encode n v :=
    range_overwrite_self (by rwa [length_encode])
  rw [length_encode] at hself
  unfold num putNum
  rw [hself, value_encode]

theorem num_putNum_of_disjoint {i n j m v : Nat} (h : i + n ≤ b.length)
    (hd : j + m ≤ i ∨ i + n ≤ j) : num (putNum b i n v) j m = num b j m := by
  unfold num putNum
  rw [range_overwrite_of_disjoint]
  · rwa [length_encode]
  · rwa [length_encode]

theorem readNum_ok {i n : Nat} (h : i + n ≤ b.length) : readNum b i n = .ok (num b i n) :=
  if_pos h

theorem writeNum_ok (h : i + n ≤ b.length) : writeNum b i n v = .ok (putNum b i n v) :=
  if_pos h

theorem sliceFrom_ok {i : Nat} (h : i ≤ b.length) : sliceFrom b i = .ok (b.drop i) :=
  if_pos h

/-- A read in a tail is a read in the whole. -/
theorem num_drop (b : ByteString) (i j n : Nat) : num (b.drop i) j n = num b (i + j) n := by
  unfold num range
  rw [drop_drop]

/-- A read within a head is a read in the whole. -/
theorem num_take (b : ByteString) {i n m : Nat} (h : i + n ≤ m) :
    num (b.take m) i n = num b i n := by
  unfold num range
  rw [drop_take, take_take, Nat.min_eq_left (by omega)]

end Bytes
