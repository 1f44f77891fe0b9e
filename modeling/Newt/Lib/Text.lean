import Mathlib.Algebra.Group.Nat.Defs
import Mathlib.Algebra.Ring.Int.Defs
import Mathlib.Data.List.TakeWhile

/-!
# Text functions of the Go library

White space, fields and decimal numbers as `unicode`, `strings` and `fmt` have
them, on lists of characters: `isSpace`, `trimSpace`, `fields`, `scanInt`
(`fmt.Sscanf` with `%d` into an `int`), `formatInt` (`fmt.Sprintf` with `%d`) and
`parseInt` (`strconv`); also `trimPrefix`, `trimSuffix`, `beforeLast`,
`base64Decode` and `base64Encode`.

Main results: `scanInt_formatInt` and `parseInt_toDigits`, a number that is printed
is read back, `beforeLast_append`, what stands before the last separator, and
`base64Decode_base64Encode`.
-/

namespace Text

open List Nat Option

/-- `unicode.IsSpace`. -/
def isSpace (c : Char) : Bool :=
  let n := c.toNat
  (9 ≤ n && n ≤ 13) || n == 0x20 || n == 0x85 || n == 0xA0 || n == 0x1680 ||
    (0x2000 ≤ n && n ≤ 0x200A) || n == 0x2028 || n == 0x2029 || n == 0x202F || n == 0x205F ||
    n == 0x3000

/-- `strings.TrimSpace`. -/
def trimSpace (s : List Char) : List Char :=
  ((s.dropWhile isSpace).reverse.dropWhile isSpace).reverse

/-- `strings.Fields`. -/
def fields (s : List Char) : List (List Char) :=
  (s.splitOnP isSpace).filter (· ≠ [])

/-- `fmt.Sprintf("%d", n)`. -/
def formatInt : Int → List Char
  | .ofNat n => toDigits 10 n
  | .negSucc n => '-' :: toDigits 10 (n + 1)

/-- The spaces before a number; a new line among them is an error. -/
def skipSpace : List Char → Option (List Char)
  | [] => some []
  | c :: cs =>
    if c = '\n' then none
    else if isSpace c then skipSpace cs
    else some (c :: cs)

/-- The digits of a number, up to the first other character, as an `int` with a
sign. -/
def scanDigits (sign : Int) (s : List Char) : Option Int :=
  let digits := s.takeWhile Char.isDigit
  let value := sign * ofDigitChars 10 digits 0
  if digits = [] then none
  else if -2 ^ 63 ≤ value ∧ value < 2 ^ 63 then some value
  else none

/-- `fmt.Sscanf(s, "%d", &n)`: what follows the number is ignored. -/
def scanInt (s : List Char) : Option Int :=
  match skipSpace s with
  | none => none
  | some ('-' :: cs) => scanDigits (-1) cs
  | some ('+' :: cs) | some cs => scanDigits 1 cs

/-- A decimal digit is neither a space nor a sign nor a colon. -/
theorem isDigit_ne {c : Char} (h : c.isDigit = true) :
    isSpace c = false ∧ c ≠ '\n' ∧ c ≠ '-' ∧ c ≠ '+' ∧ c ≠ ':' := by
  have hrange : 48 ≤ c.toNat ∧ c.toNat ≤ 57 := by
    simpa [Char.isDigit, Char.le_def, UInt32.le_iff_toNat_le] using h
  have hne : ∀ d : Char, d.toNat < 48 ∨ 57 < d.toNat → c ≠ d := by
    intro d hd heq
    subst heq
    omega
  refine ⟨?_, hne _ (by decide), hne _ (by decide), hne _ (by decide), hne _ (by decide)⟩
  simp only [isSpace, Bool.or_eq_false_iff, Bool.and_eq_false_iff, decide_eq_false_iff_not,
    beq_eq_false_iff_ne]
  omega

variable {cs : List Char}

/-- Digits are scanned to the end. -/
theorem scanDigits_of_digits (sign : Int) (hne : cs ≠ [])
    (hall : ∀ c ∈ cs, c.isDigit = true) :
    scanDigits sign cs =
      if -2 ^ 63 ≤ sign * ofDigitChars 10 cs 0 ∧ sign * ofDigitChars 10 cs 0 < 2 ^ 63 then
        some (sign * ofDigitChars 10 cs 0)
      else none := by
  unfold scanDigits
  rw [takeWhile_eq_self_iff.mpr hall]
  exact if_neg hne

theorem scanInt_of_digits (hne : cs ≠ []) (hall : ∀ c ∈ cs, c.isDigit = true) :
    scanInt cs = if (ofDigitChars 10 cs 0 : Int) < 2 ^ 63 then
      some (ofDigitChars 10 cs 0 : Int) else none := by
  have hscan : scanInt cs = scanDigits 1 cs := by
    cases cs with
    | nil => exact absurd rfl hne
    | cons c cs =>
      obtain ⟨hspace, hnl, hminus, hplus, -⟩ := isDigit_ne (hall c mem_cons_self)
      have hskip : skipSpace (c :: cs) = some (c :: cs) := by simp [skipSpace, hnl, hspace]
      unfold scanInt
      rw [hskip]
      split
      · next heq => cases heq
      · next heq =>
        cases heq
        exact absurd rfl hminus
      · next heq =>
        cases heq
        exact absurd rfl hplus
      · next heq =>
        cases heq
        rfl
  rw [hscan, scanDigits_of_digits 1 hne hall, Int.one_mul]
  exact if_congr (and_iff_right (by omega)) rfl rfl

/-- The first character of a printed natural number is a digit. -/
theorem toDigits_eq_cons (n : Nat) :
    ∃ c cs, toDigits 10 n = c :: cs ∧ c.isDigit = true := by
  cases hd : toDigits 10 n with
  | nil => exact absurd hd toDigits_ne_nil
  | cons c cs =>
    refine ⟨c, cs, rfl, ?_⟩
    exact isDigit_of_mem_toDigits (n := n) (by decide) (by decide)
      (hd ▸ mem_cons_self ..)

/-- **Printing and reading back**: a printed number is read as that number if it is an
`int`. -/
theorem scanInt_formatInt (p : Int) :
    scanInt (formatInt p) = if -2 ^ 63 ≤ p ∧ p < 2 ^ 63 then some p else none := by
  have hdigits : ∀ n, ∀ c ∈ toDigits 10 n, c.isDigit = true := fun n c hc =>
    isDigit_of_mem_toDigits (by decide) (by decide) hc
  have hvalue : ∀ n, ofDigitChars 10 (toDigits 10 n) 0 = n := fun n =>
    ofDigitChars_toDigits (by decide) (by decide)
  cases p with
  | ofNat n =>
    have hnonneg : (-2 : Int) ^ 63 ≤ Int.ofNat n := by
      rw [Int.ofNat_eq_natCast]
      omega
    rw [formatInt, scanInt_of_digits toDigits_ne_nil (hdigits n), hvalue]
    exact if_congr (and_iff_right hnonneg).symm rfl rfl
  | negSucc n =>
    have hscan : scanInt ('-' :: toDigits 10 (n + 1)) =
        scanDigits (-1) (toDigits 10 (n + 1)) := by
      have hskip : skipSpace ('-' :: toDigits 10 (n + 1)) =
          some ('-' :: toDigits 10 (n + 1)) := by
        simp [skipSpace, isSpace]
      unfold scanInt
      rw [hskip]
      rfl
    have hneg : (-1 : Int) * (n + 1 : Nat) = Int.negSucc n := by omega
    rw [formatInt, hscan, scanDigits_of_digits (-1) toDigits_ne_nil (hdigits (n + 1)), hvalue,
      hneg]

/-- The loop of `strconv.ParseUint` with base 10: `none` is a syntax error, and a
number out of range is the greatest one. -/
def parseUint (n : Nat) : List Char → Option Nat
  | [] => some n
  | c :: cs =>
    if c.isDigit then
      let n' := 10 * n + (c.toNat - '0'.toNat)
      if n' < 2 ^ 64 then parseUint n' cs else some (2 ^ 64 - 1)
    else none

/-- The number `strconv.ParseInt(s, 10, 64)` and `strconv.Atoi` return, also with an
error: 0 for a text that is not a number, else the nearest `int64`. -/
def parseInt : List Char → Int
  | '-' :: cs => max (-((parseUint 0 cs).getD 0 : Int)) (-2 ^ 63)
  | '+' :: cs | cs => min ((parseUint 0 cs).getD 0 : Int) (2 ^ 63 - 1)

/-- A decimal number without a sign, of any size. -/
def digitsValue (cs : List Char) : Option Nat :=
  if cs ≠ [] ∧ cs.all Char.isDigit then some (ofDigitChars 10 cs 0) else none

/-- `strconv.Atoi`, `none` for an error. -/
def atoi (s : List Char) : Option Int :=
  let value : Option Int := match s with
    | '-' :: cs => (digitsValue cs).map (fun n => -(n : Int))
    | '+' :: cs | cs => (digitsValue cs).map (fun n => (n : Int))
  value.filter (fun v => -2 ^ 63 ≤ v ∧ v < 2 ^ 63)

theorem le_ofDigitChars (cs : List Char) (n : Nat) : n ≤ Nat.ofDigitChars 10 cs n := by
  rw [Nat.ofDigitChars_eq_ofDigitChars_zero]
  exact (Nat.le_mul_of_pos_left n (Nat.pow_pos (by decide))).trans (Nat.le_add_right _ _)

theorem parseUint_digits (hcs : ∀ c ∈ cs, c.isDigit = true) {n : Nat}
    (hlt : ofDigitChars 10 cs n < 2 ^ 64) :
    parseUint n cs = some (ofDigitChars 10 cs n) := by
  induction cs generalizing n with
  | nil => rfl
  | cons c cs ih =>
    rw [ofDigitChars_cons] at hlt ⊢
    have hle : 10 * n + (c.toNat - '0'.toNat) < 2 ^ 64 :=
      lt_of_le_of_lt (le_ofDigitChars cs _) hlt
    rw [parseUint, if_pos (hcs c mem_cons_self)]
    rw [if_pos hle]
    exact ih (fun c hc => hcs c (mem_cons_of_mem _ hc)) hlt

/-- A number below the largest was read from digits only. -/
theorem digits_of_parseUint {n m : Nat} (h : parseUint n cs = some m)
    (hlt : m < 2 ^ 64 - 1) : (∀ c ∈ cs, c.isDigit = true) ∧ ofDigitChars 10 cs n = m := by
  induction cs generalizing n with
  | nil =>
    cases h
    exact ⟨fun c hc => absurd hc not_mem_nil, rfl⟩
  | cons c cs ih =>
    rw [parseUint] at h
    split at h
    · next hdigit =>
      dsimp only at h
      split at h
      · obtain ⟨hall, hvalue⟩ := ih h
        exact ⟨forall_mem_cons.mpr ⟨hdigit, hall⟩, by rw [ofDigitChars_cons, hvalue]⟩
      · cases h
        exact absurd hlt (lt_irrefl _)
    · cases h

/-- A printed number that fits is read back. -/
theorem parseInt_toDigits {n : Nat} (h : n < 2 ^ 63) : parseInt (toDigits 10 n) = n := by
  have hdigits : ∀ c ∈ toDigits 10 n, c.isDigit = true := fun c hc =>
    isDigit_of_mem_toDigits (by decide) (by decide) hc
  have hvalue : ofDigitChars 10 (toDigits 10 n) 0 = n :=
    ofDigitChars_toDigits (by decide) (by decide)
  have hparse : parseUint 0 (toDigits 10 n) = some n := by
    rw [parseUint_digits hdigits (by omega), hvalue]
  obtain ⟨c, cs, hcons, hdigit⟩ := toDigits_eq_cons n
  obtain ⟨-, -, hminus, hplus, -⟩ := isDigit_ne hdigit
  have hunsigned : parseInt (c :: cs) =
      min ((parseUint 0 (c :: cs)).getD 0 : Int) (2 ^ 63 - 1) := by
    unfold parseInt
    split
    · next heq => exact absurd (cons.inj heq).1 hminus
    · next heq => exact absurd (cons.inj heq).1 hplus
    · rfl
  rw [hcons] at hparse ⊢
  rw [hunsigned, hparse, getD_some]
  omega

/-- A printed number has no colon. -/
theorem colon_notMem_formatInt (p : Int) : ':' ∉ formatInt p := by
  have hdigits : ∀ n, ':' ∉ toDigits 10 n := by
    intro n hmem
    have hdigit := isDigit_of_mem_toDigits (by decide) (by decide) hmem
    exact (isDigit_ne hdigit).2.2.2.2 rfl
  cases p with
  | ofNat n => exact hdigits n
  | negSucc n =>
    intro hmem
    rcases mem_cons.mp hmem with heq | hmem
    · cases heq
    · exact hdigits _ hmem

/-- `strings.TrimPrefix`. -/
def trimPrefix (lead s : List Char) : List Char :=
  if lead.isPrefixOf s then s.drop lead.length else s

/-- `strings.TrimSuffix`. -/
def trimSuffix (tail s : List Char) : List Char :=
  if tail.isSuffixOf s then s.take (s.length - tail.length) else s

/-- The pieces of `strings.Split` without the last one, joined again; `none` if
there is no separator. -/
def beforeLast (sep : Char) (s : List Char) : Option (List Char) :=
  let parts := s.splitOn sep
  if parts.length < 2 then none else some ([sep].intercalate parts.dropLast)

theorem beforeLast_append {sep : Char} (a : List Char) {b : List Char} (hb : sep ∉ b) :
    beforeLast sep (a ++ sep :: b) = some a := by
  have hparts : (a ++ sep :: b).splitOn sep = a.splitOn sep ++ [b] := by
    rw [splitOn_append_cons_self, splitOn_eq_singleton hb]
  have hlen : ¬ (a.splitOn sep ++ [b]).length < 2 := by
    have hpos := length_pos_iff.mpr (splitOn_ne_nil sep a)
    rw [length_append, length_singleton]
    omega
  unfold beforeLast
  rw [hparts, if_neg hlen, dropLast_concat, intercalate_splitOn]

/-- What is cut off has no separator. -/
theorem exists_of_beforeLast {sep : Char} {s a : List Char} (h : beforeLast sep s = some a) :
    ∃ b, sep ∉ b ∧ s = a ++ sep :: b := by
  by_cases hsep : sep ∈ s
  · obtain ⟨b, c, heq, hb⟩ := eq_append_cons_of_mem (mem_reverse.mpr hsep)
    have hs : s = c.reverse ++ sep :: b.reverse := by
      have hrev := congrArg reverse heq
      rw [reverse_reverse] at hrev
      rw [hrev]
      simp
    have hb' : sep ∉ b.reverse := fun hmem => hb (mem_reverse.mp hmem)
    rw [hs, beforeLast_append _ hb'] at h
    cases h
    exact ⟨b.reverse, hb', hs⟩
  · unfold beforeLast at h
    rw [splitOn_eq_singleton hsep] at h
    cases h

def base64Digit? (c : Char) : Option Nat :=
  if 'A' ≤ c ∧ c ≤ 'Z' then some (c.toNat - 'A'.toNat)
  else if 'a' ≤ c ∧ c ≤ 'z' then some (c.toNat - 'a'.toNat + 26)
  else if '0' ≤ c ∧ c ≤ '9' then some (c.toNat - '0'.toNat + 52)
  else if c = '+' then some 62
  else if c = '/' then some 63
  else none

/-- Four characters for three bytes; the last four may end in padding. -/
def decodeQuads : List Char → Option (List UInt8)
  | [] => some []
  | [a, b, '=', '='] => do
      let x ← base64Digit? a
      let y ← base64Digit? b
      some [UInt8.ofNat (x * 4 + y / 16)]
  | [a, b, c, '='] => do
      let x ← base64Digit? a
      let y ← base64Digit? b
      let z ← base64Digit? c
      some [UInt8.ofNat (x * 4 + y / 16), UInt8.ofNat (y * 16 + z / 4)]
  | a :: b :: c :: d :: rest => do
      let x ← base64Digit? a
      let y ← base64Digit? b
      let z ← base64Digit? c
      let w ← base64Digit? d
      let bytes ← decodeQuads rest
      some (UInt8.ofNat (x * 4 + y / 16) :: UInt8.ofNat (y * 16 + z / 4) ::
        UInt8.ofNat (z * 64 + w) :: bytes)
  | _ => none

/-- `base64.StdEncoding.DecodeString`, which skips line ends. -/
def base64Decode (s : List Char) : Option (List UInt8) :=
  decodeQuads (s.filter (fun c => c ≠ '\r' ∧ c ≠ '\n'))

example : base64Decode "TWFu\nTQ==".toList = some [77, 97, 110, 77] ∧
    base64Decode "TQ=A".toList = none := by decide

/-- A character of the alphabet of base64. -/
def base64Char (n : Nat) : Char :=
  if n < 26 then Char.ofNat ('A'.toNat + n)
  else if n < 52 then Char.ofNat ('a'.toNat + (n - 26))
  else if n < 62 then Char.ofNat ('0'.toNat + (n - 52))
  else if n = 62 then '+'
  else '/'

/-- `base64.StdEncoding.EncodeToString`. -/
def base64Encode : List UInt8 → List Char
  | [] => []
  | [a] => [base64Char (a.toNat / 4), base64Char (a.toNat % 4 * 16), '=', '=']
  | [a, b] =>
    [base64Char (a.toNat / 4), base64Char (a.toNat % 4 * 16 + b.toNat / 16),
      base64Char (b.toNat % 16 * 4), '=']
  | a :: b :: c :: rest =>
    base64Char (a.toNat / 4) :: base64Char (a.toNat % 4 * 16 + b.toNat / 16) ::
      base64Char (b.toNat % 16 * 4 + c.toNat / 64) :: base64Char (c.toNat % 64) ::
        base64Encode rest

theorem base64Digit?_base64Char : ∀ n < 64, base64Digit? (base64Char n) = some n := by decide

theorem base64Char_ne : ∀ n < 64, base64Char n ≠ '=' ∧ base64Char n ≠ '\r' ∧
    base64Char n ≠ '\n' := by decide

/-- Four characters of the alphabet. -/
theorem decodeQuads_base64Char {x y z w : Nat} (hx : x < 64) (hy : y < 64) (hz : z < 64)
    (hw : w < 64) {rest : List Char} {bytes : List UInt8} (h : decodeQuads rest = some bytes) :
    decodeQuads (base64Char x :: base64Char y :: base64Char z :: base64Char w :: rest) =
      some (UInt8.ofNat (x * 4 + y / 16) :: UInt8.ofNat (y * 16 + z / 4) ::
        UInt8.ofNat (z * 64 + w) :: bytes) := by
  have hpad := (base64Char_ne w hw).1
  rw [decodeQuads]
  · simp only [base64Digit?_base64Char x hx, base64Digit?_base64Char y hy,
      base64Digit?_base64Char z hz, base64Digit?_base64Char w hw, h, bind_eq_bind,
      bind_some]
  · exact fun _ heq _ => hpad heq
  · exact fun heq _ => hpad heq

theorem ofNat_of_mod {n : Nat} {b : UInt8} (h : n % 256 = b.toNat) : UInt8.ofNat n = b := by
  rw [← UInt8.toNat_inj, UInt8.toNat_ofNat']
  exact h

theorem decodeQuads_base64Encode (l : List UInt8) : decodeQuads (base64Encode l) = some l := by
  induction l using base64Encode.induct with
  | case1 => rfl
  | case2 a =>
    have ha := a.toNat_lt
    rw [base64Encode, decodeQuads, base64Digit?_base64Char _ (by omega),
      base64Digit?_base64Char _ (by omega)]
    simp only [bind_eq_bind, bind_some]
    rw [ofNat_of_mod (b := a) (by omega)]
  | case3 a b =>
    have ha := a.toNat_lt
    have hb := b.toNat_lt
    rw [base64Encode, decodeQuads, base64Digit?_base64Char _ (by omega),
      base64Digit?_base64Char _ (by omega), base64Digit?_base64Char _ (by omega)]
    · simp only [bind_eq_bind, bind_some]
      rw [ofNat_of_mod (b := a) (by omega), ofNat_of_mod (b := b) (by omega)]
    · exact (base64Char_ne _ (by omega)).1
  | case4 a b c rest ih =>
    have ha := a.toNat_lt
    have hb := b.toNat_lt
    have hc := c.toNat_lt
    rw [base64Encode, decodeQuads_base64Char (by omega) (by omega) (by omega) (by omega) ih,
      ofNat_of_mod (b := a) (by omega), ofNat_of_mod (b := b) (by omega),
      ofNat_of_mod (b := c) (by omega)]

theorem lineEnds_notMem_base64Encode (l : List UInt8) :
    ∀ c ∈ base64Encode l, c ≠ '\r' ∧ c ≠ '\n' := by
  have hchar : ∀ n < 64, base64Char n ≠ '\r' ∧ base64Char n ≠ '\n' := fun n hn =>
    (base64Char_ne n hn).2
  induction l using base64Encode.induct with
  | case1 => exact fun c hc => absurd hc not_mem_nil
  | case2 a =>
    have ha := a.toNat_lt
    rw [base64Encode]
    simp only [forall_mem_cons]
    exact ⟨hchar _ (by omega), hchar _ (by omega), by decide, by decide, by simp⟩
  | case3 a b =>
    have ha := a.toNat_lt
    have hb := b.toNat_lt
    rw [base64Encode]
    simp only [forall_mem_cons]
    exact ⟨hchar _ (by omega), hchar _ (by omega), hchar _ (by omega), by decide, by simp⟩
  | case4 a b c rest ih =>
    have ha := a.toNat_lt
    have hb := b.toNat_lt
    have hc := c.toNat_lt
    rw [base64Encode]
    simp only [forall_mem_cons]
    exact ⟨hchar _ (by omega), hchar _ (by omega), hchar _ (by omega), hchar _ (by omega), ih⟩

/-- **Encoding and decoding** in base64. -/
theorem base64Decode_base64Encode (l : List UInt8) : base64Decode (base64Encode l) = some l := by
  have hfilter : (base64Encode l).filter (fun c => c ≠ '\r' ∧ c ≠ '\n') = base64Encode l := by
    rw [filter_eq_self]
    intro c hc
    exact decide_eq_true (lineEnds_notMem_base64Encode l c hc)
  rw [base64Decode, hfilter]
  exact decodeQuads_base64Encode l

end Text
