import Mathlib.Algebra.Group.Nat.Defs
import Mathlib.Tactic.SplitIfs
import Newt.Lib.Address

/-!
# The text of addresses and prefixes

`ParseAddr`, `ParsePrefix` and `ParseAddrPort` of Go's `net/netip`, with `none`
for an error: dotted IPv4 without leading zeros, IPv6 in groups of at most four
hexadecimal digits with one ellipsis, an embedded IPv4 tail and a zone, and a
prefix length after the last slash.  `net.IP.To4` is here too, and `net.IP.String`, which
prints addresses: IPv6 groups in hexadecimal, the first longest run of zero
groups left out.

The library scans bytes.  All the bytes it looks for are ASCII, so scanning
characters accepts the same texts.
-/

namespace Netip

open List

def digit? (c : Char) : Option Nat :=
  if '0' ≤ c ∧ c ≤ '9' then some (c.toNat - '0'.toNat) else none

def hexDigit? (c : Char) : Option Nat :=
  if '0' ≤ c ∧ c ≤ '9' then some (c.toNat - '0'.toNat)
  else if 'a' ≤ c ∧ c ≤ 'f' then some (c.toNat - 'a'.toNat + 10)
  else if 'A' ≤ c ∧ c ≤ 'F' then some (c.toNat - 'A'.toNat + 10)
  else none

/-- `parseIPv4Fields`: `val` and `digLen` are those of the current octet,
`fields` the octets before it. -/
def parseIPv4Fields : List Char → (val digLen : Nat) → (fields : List Nat) → Option (List Nat)
  | [], val, _, fields => if fields.length < 3 then none else some (fields ++ [val])
  | c :: rest, val, digLen, fields =>
    match digit? c with
    | some d =>
      if digLen = 1 ∧ val = 0 then none
      else if 255 < val * 10 + d then none
      else parseIPv4Fields rest (val * 10 + d) (digLen + 1) fields
    | none =>
      if c = '.' then
        -- No digit since the start or the last dot, or nothing after this one.
        if digLen = 0 ∨ rest = [] then none
        else if fields.length = 3 then none
        else parseIPv4Fields rest 0 0 (fields ++ [val])
      else none

/-- A number from digits in the given base, most significant first. -/
def ofDigits (base : Nat) (digits : List Nat) : Nat :=
  digits.foldl (fun acc d => acc * base + d) 0

def parseIPv4 (s : List Char) : Option Addr :=
  (parseIPv4Fields s 0 0 []).map (fun fields => .v4 (BitVec.ofNat 32 (ofDigits 256 fields)))

/-- The hexadecimal digits at the head of the text: how many there are, their
value, and the rest.  More than four are an error. -/
def hexGroup : List Char → (off acc : Nat) → Option (Nat × Nat × List Char)
  | [], off, acc => some (off, acc, [])
  | c :: rest, off, acc =>
    match hexDigit? c with
    | some d => if 3 < off then none else hexGroup rest (off + 1) (acc * 16 + d)
    | none => some (off, acc, c :: rest)

/-- The loop of `parseIPv6` over the groups still to read: the groups, the
position of the ellipsis and what is left of the text. -/
def parseIPv6Groups : Nat → List Char → (groups : List Nat) → (ellipsis : Option Nat) →
    Option (List Nat × Option Nat × List Char)
  | 0, s, groups, ellipsis => some (groups, ellipsis, s)
  | left + 1, s, groups, ellipsis =>
    match hexGroup s 0 0 with
    | none => none
    | some (off, acc, rest) =>
      if off = 0 then none
      else if rest.head? = some '.' then
        -- An embedded IPv4 address takes the place of the last two groups.
        if ellipsis = none ∧ groups.length ≠ 6 then none
        else if 6 < groups.length then none
        else match parseIPv4Fields s 0 0 [] with
          | some [a, b, c, d] => some (groups ++ [a * 256 + b, c * 256 + d], ellipsis, [])
          | _ => none
      else
        match rest with
        | [] => some (groups ++ [acc], ellipsis, [])
        | [':'] => none
        | ':' :: ':' :: rest' =>
          if ellipsis.isSome then none
          else if rest' = [] then some (groups ++ [acc], some (groups.length + 1), [])
          else parseIPv6Groups left rest' (groups ++ [acc]) (some (groups.length + 1))
        | ':' :: rest' => parseIPv6Groups left rest' (groups ++ [acc]) ellipsis
        | _ => none

/-- Expand the ellipsis: it must stand for at least one group. -/
def expandEllipsis (groups : List Nat) : Option Nat → Option (List Nat)
  | none => if groups.length < 8 then none else some groups
  | some e =>
    if groups.length < 8 then
      some (groups.take e ++ replicate (8 - groups.length) 0 ++ groups.drop e)
    else none

def parseIPv6 (input : List Char) : Option Addr :=
  let s := input.takeWhile (fun c => c ≠ '%')
  let zone := (input.dropWhile (fun c => c ≠ '%')).drop 1
  if input.contains '%' ∧ zone = [] then none
  else
    let parsed :=
      match s with
      | [':', ':'] => some ([], some 0, [])
      | ':' :: ':' :: rest => parseIPv6Groups 8 rest [] (some 0)
      | _ => parseIPv6Groups 8 s [] none
    match parsed with
    | some (groups, ellipsis, []) =>
      (expandEllipsis groups ellipsis).map (fun gs =>
        .v6 (BitVec.ofNat 128 (ofDigits 65536 gs)) (String.ofList zone))
    | _ => none

/-- `netip.ParseAddr`: the first of `.`, `:` and `%` decides the family. -/
def parseAddr (s : String) : Option Addr :=
  match s.toList.find? (fun c => c = '.' ∨ c = ':' ∨ c = '%') with
  | some '.' => parseIPv4 s.toList
  | some ':' => parseIPv6 s.toList
  | _ => none

/-- The number after the slash: digits only, no leading zero. -/
def parseBits (s : List Char) : Option Nat :=
  if s = [] then none
  else if 1 < s.length ∧ s.head? = some '0' then none
  else (s.mapM digit?).map (ofDigits 10)

/-- `netip.ParsePrefix`: cut at the last slash.  An address with a zone is an
error. -/
def parsePrefix (s : String) : Option Prefix :=
  let tail := s.toList.reverse.takeWhile (fun c => c ≠ '/')
  let front := (s.toList.reverse.dropWhile (fun c => c ≠ '/')).drop 1
  if ¬ s.toList.contains '/' then none
  else
    match parseAddr (String.ofList front.reverse) with
    | none => none
    | some (.v6 x zone) =>
      if zone ≠ "" then none
      else (parseBits tail.reverse).bind (prefixFrom (.v6 x zone))
    | some a => (parseBits tail.reverse).bind (prefixFrom a)

/-- `netip.ParseAddrPort`: cut at the last colon.  Brackets are for IPv6 addresses,
and for them only. -/
def parseAddrPort (s : List Char) : Option (Addr × Nat) :=
  let port := (s.reverse.takeWhile (fun c => c ≠ ':')).reverse
  let ip := ((s.reverse.dropWhile (fun c => c ≠ ':')).drop 1).reverse
  if ':' ∉ s ∨ ip = [] ∨ port = [] then none
  else
    match ((port.mapM digit?).map (ofDigits 10)).filter (fun n => n ≤ 65535) with
    | none => none
    | some n =>
      if ip.head? = some '[' then
        if ip.length < 2 ∨ ip.getLast? ≠ some ']' then none
        else
          match parseAddr (String.ofList (ip.drop 1).dropLast) with
          | some (.v6 x zone) => some (.v6 x zone, n)
          | _ => none
      else
        match parseAddr (String.ofList ip) with
        | some (.v4 x) => some (.v4 x, n)
        | _ => none

/-- The network of `net.ParseCIDR`: cut at the first slash; the number may have
leading zeros. -/
def parseCIDR (s : List Char) : Option Prefix :=
  match s.dropWhile (fun c => c ≠ '/') with
  | [] => none
  | _ :: mask =>
    match parseAddr (String.ofList (s.takeWhile (fun c => c ≠ '/'))) with
    | none => none
    | some a =>
      let zone := match a with
        | .v6 _ zone => zone
        | _ => ""
      if zone ≠ "" ∨ mask = [] then none
      else ((mask.mapM digit?).bind (fun ds => prefixFrom a (ofDigits 10 ds))).map Prefix.masked

/-- `net.IP.To4` on a 4-byte or 16-byte address. -/
def to4 (ip : List UInt8) : Option (BitVec 32) :=
  let quad (bytes : List UInt8) := BitVec.ofNat 32 (ofDigits 256 (bytes.map UInt8.toNat))
  if ip.length = 4 then some (quad ip)
  else if ip.length = 16 ∧ (ip.take 10).all (· = 0) ∧ (ip.drop 10).take 2 = [0xff, 0xff] then
    some (quad (ip.drop 12))
  else none

/-- The digits of a group, without leading zeros. -/
def hexText (g : Nat) : List Char :=
  ([g / 4096 % 16, g / 256 % 16, g / 16 % 16].dropWhile (· = 0) ++ [g % 16]).map Nat.digitChar

def groups (x : BitVec 128) : List Nat :=
  (range 8).map (fun i => x.toNat / 65536 ^ (7 - i) % 65536)

/-- Where the first longest run of at least two zero groups starts, and its
length; length zero if there is none. -/
def zeroRun (gs : List Nat) : Nat × Nat :=
  (range gs.length).foldl (fun best i =>
    let len := ((gs.drop i).takeWhile (· = 0)).length
    if 2 ≤ len ∧ best.2 < len then (i, len) else best) (0, 0)

def joinGroups (gs : List Nat) : List Char :=
  [':'].intercalate (gs.map hexText)

def formatIPv6 (x : BitVec 128) : List Char :=
  let gs := groups x
  let (start, len) := zeroRun gs
  if len = 0 then joinGroups gs
  else joinGroups (gs.take start) ++ [':', ':'] ++ joinGroups (gs.drop (start + len))

def formatIPv4 (x : BitVec 32) : List Char :=
  ['.'].intercalate ((range 4).map (fun i => Nat.toDigits 10 (x.toNat / 256 ^ (3 - i) % 256)))

/-- `net.IP.String`. -/
def formatIP (a : Addr) : List Char :=
  match a.unmap with
  | .zero => "<nil>".toList
  | .v4 x => formatIPv4 x
  | .v6 x _ => formatIPv6 x

theorem mem_intercalate_singleton {c s : Char} {ls : List (List Char)}
    (h : c ∈ [s].intercalate ls) : c = s ∨ ∃ l ∈ ls, c ∈ l := by
  induction ls with
  | nil => cases h
  | cons l ls ih =>
    cases ls with
    | nil =>
      rw [intercalate_singleton] at h
      exact .inr ⟨l, mem_cons_self, h⟩
    | cons k ls =>
      rw [intercalate_cons_cons, mem_append, mem_append] at h
      rcases h with (h | h) | h
      · exact .inr ⟨l, mem_cons_self, h⟩
      · exact .inl (mem_singleton.mp h)
      · rcases ih h with h | ⟨m, hm, h⟩
        · exact .inl h
        · exact .inr ⟨m, mem_cons_of_mem _ hm, h⟩

theorem length_le_count_intercalate (s : Char) (ls : List (List Char)) :
    ls.length ≤ ([s].intercalate ls).count s + 1 := by
  induction ls with
  | nil => exact Nat.zero_le _
  | cons l ls ih =>
    cases ls with
    | nil => simp
    | cons k ls =>
      rw [intercalate_cons_cons, count_append, count_append, count_singleton_self]
      have hlen : (l :: k :: ls).length = (k :: ls).length + 1 := length_cons
      omega

theorem digitChar_ne (n : Nat) : n.digitChar ≠ ':' ∧ n.digitChar ≠ '[' := by
  have hsmall : ∀ n < 16, n.digitChar ≠ ':' ∧ n.digitChar ≠ '[' := by decide
  by_cases hn : n < 16
  · exact hsmall n hn
  · have hlarge : n.digitChar = '*' := by
      unfold Nat.digitChar
      simp (disch := omega) only [if_neg]
    rw [hlarge]
    decide

theorem mem_joinGroups {c : Char} {gs : List Nat} (h : c ∈ joinGroups gs) : c ≠ '[' := by
  rcases mem_intercalate_singleton h with rfl | ⟨l, hl, hc⟩
  · decide
  · obtain ⟨g, _, rfl⟩ := mem_map.mp hl
    obtain ⟨n, _, rfl⟩ := mem_map.mp hc
    exact (digitChar_ne n).2

theorem mem_formatIPv4 {c : Char} {x : BitVec 32} (h : c ∈ formatIPv4 x) : c ≠ ':' ∧ c ≠ '[' := by
  rcases mem_intercalate_singleton h with rfl | ⟨l, hl, hc⟩
  · decide
  · obtain ⟨i, _, rfl⟩ := mem_map.mp hl
    have hdigit := Nat.isDigit_of_mem_toDigits (by decide) (by decide) hc
    refine ⟨?_, ?_⟩ <;>
      · intro heq
        rw [heq] at hdigit
        revert hdigit
        decide

theorem bracket_notMem_formatIP (a : Addr) : '[' ∉ formatIP a := by
  intro h
  unfold formatIP at h
  split at h
  · revert h
    decide
  · exact (mem_formatIPv4 h).2 rfl
  · unfold formatIPv6 at h
    dsimp only at h
    split_ifs at h
    · exact mem_joinGroups h rfl
    · rw [mem_append, mem_append] at h
      rcases h with (h | h) | h
      · exact mem_joinGroups h rfl
      · revert h
        decide
      · exact mem_joinGroups h rfl

/-- The text of an address has no colon, or is IPv6 and has at least two. -/
theorem two_le_count_formatIP {a : Addr} (h : ':' ∈ formatIP a) : 2 ≤ (formatIP a).count ':' := by
  revert h
  unfold formatIP
  split
  · decide
  · intro h
    exact absurd rfl (mem_formatIPv4 h).1
  · next x zone _ =>
    intro _
    unfold formatIPv6
    dsimp only
    split_ifs
    · have hcount := length_le_count_intercalate ':' ((groups x).map hexText)
      have hlen : ((groups x).map hexText).length = 8 := by simp [groups]
      unfold joinGroups
      omega
    · rw [count_append, count_append]
      have htwo : ([':', ':'] : List Char).count ':' = 2 := by decide
      omega

example : parseCIDR "10.1.2.3/08".toList = some (.v4 0x0A000000 8) ∧
    parsePrefix "10.1.2.3/08" = none := by decide

example : formatIP (.v6 0x20010db8000000000000000000000001 "") = "2001:db8::1".toList := by decide

example : parsePrefix "192.168.1.10/32" = some (.v4 0xC0A8010A 32) := by decide

example : parseAddr "2001:db8::1" =
    some (.v6 0x20010db8000000000000000000000001 "") := by decide

example : parseAddr "::ffff:10.0.0.1%eth0" =
    some (.v6 0x00000000000000000000ffff0a000001 "eth0") := by decide

example : parseAddr "10.0.01.1" = none ∧ parseAddr "1:2:3:4:5:6:7::8" = none := by decide

end Netip
