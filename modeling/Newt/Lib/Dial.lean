import Newt.Lib.HostPort
import Newt.Lib.Text

/-!
# The address a dialer connects to

How `net.Dial` reads the host and the port of a TCP address.  `parsePort` is the
dialer's own reader of port numbers, with its 32-bit arithmetic; a port that is not
a number is looked up among the names of services.

Main results: `parsePort_of_parseInt`, the dialer and `strconv.Atoi` agree on port
numbers, whatever their spelling; `dialAddr_of_split` and `dialAddr_joinHostPort`,
an address is dialed as it was checked.
-/

namespace Dial

open Text HostPort Option

/-- The digits of a port; `none` asks for a lookup.  A large number stops the loop. -/
def portDigits (n : Nat) : List Char → Option Nat
  | [] => some n
  | c :: cs =>
    if c.isDigit then
      if 2 ^ 30 ≤ n then some (2 ^ 32 - 1)
      else
        -- The product and the sum are taken in 32 bits.
        let product := n * 10 % 2 ^ 32
        let sum := (product + (c.toNat - '0'.toNat)) % 2 ^ 32
        if sum < product then some (2 ^ 32 - 1) else portDigits sum cs
    else none

/-- `parsePort` of the package `net`. -/
def parsePort : List Char → Option Int
  | '+' :: cs => (portDigits 0 cs).map (fun (n : Nat) => min (n : Int) (2 ^ 30 - 1))
  | '-' :: cs => (portDigits 0 cs).map (fun (n : Nat) => -(min (n : Int) (2 ^ 30)))
  | cs => (portDigits 0 cs).map (fun (n : Nat) => min (n : Int) (2 ^ 30 - 1))

/-- `net.LookupPort`, where `services` finds the port of a named service. -/
def lookupPort (services : List Char → Option Int) (service : List Char) : Option Int :=
  match (parsePort service).or (services service) with
  | some port => if 0 ≤ port ∧ port ≤ 65535 then some port else none
  | none => none

/-- The host and the port that `net.Dial("tcp", addr)` connects to. -/
def dialAddr (services : List Char → Option Int) (addr : List Char) : Option (List Char × Int) :=
  if addr = [] then some ([], 0)
  else
    match splitHostPort addr with
    | some (host, port) => (lookupPort services port).map (fun number => (host, number))
    | none => none

theorem portDigits_digits {cs : List Char} (hcs : ∀ c ∈ cs, c.isDigit = true) {n : Nat}
    (hlt : Nat.ofDigitChars 10 cs n < 2 ^ 30) :
    portDigits n cs = some (Nat.ofDigitChars 10 cs n) := by
  induction cs generalizing n with
  | nil => rfl
  | cons c cs ih =>
    rw [Nat.ofDigitChars_cons] at hlt ⊢
    have hle : 10 * n + (c.toNat - '0'.toNat) < 2 ^ 30 :=
      lt_of_le_of_lt (le_ofDigitChars cs _) hlt
    have hproduct : n * 10 % 2 ^ 32 = 10 * n := by omega
    have hsum : (10 * n + (c.toNat - '0'.toNat)) % 2 ^ 32 = 10 * n + (c.toNat - '0'.toNat) := by
      omega
    rw [portDigits, if_pos (hcs c List.mem_cons_self), if_neg (by omega)]
    dsimp only
    rw [hproduct, hsum, if_neg (by omega)]
    exact ih (fun c hc => hcs c (List.mem_cons_of_mem _ hc)) hlt

theorem digits_notMem {cs : List Char} (hcs : ∀ c ∈ cs, c.isDigit = true) {d : Char}
    (hd : d.isDigit = false) : d ∉ cs := by
  intro hmem
  rw [hcs d hmem] at hd
  cases hd

/-- **The two readers of a port agree on port numbers**: a text that `strconv.Atoi`
reads as a number between 1 and 65535 is that number for the dialer, and it has no
bracket and no colon. -/
theorem parsePort_of_parseInt {service : List Char} {port : Int}
    (h : parseInt service = port) (hpos : 1 ≤ port) (hle : port ≤ 65535) :
    parsePort service = some port ∧ ':' ∉ service ∧ '[' ∉ service ∧ ']' ∉ service := by
  -- Both readers see the same digits, and there are no others.
  have hdigits : ∀ cs, min ((parseUint 0 cs).getD 0 : Int) (2 ^ 63 - 1) = port →
      (∀ c ∈ cs, c.isDigit = true) ∧
      (portDigits 0 cs).map (fun (n : Nat) => min (n : Int) (2 ^ 30 - 1)) = some port := by
    intro cs hmin
    cases hparse : parseUint 0 cs with
    | none =>
      rw [hparse, getD_none] at hmin
      omega
    | some n =>
      rw [hparse, getD_some] at hmin
      obtain ⟨hall, hvalue⟩ := digits_of_parseUint hparse (by omega)
      refine ⟨hall, ?_⟩
      rw [portDigits_digits hall (by omega), hvalue, map_some]
      congr 1
      omega
  unfold parseInt at h
  split at h
  · omega
  · next cs =>
    obtain ⟨hall, hport⟩ := hdigits cs h
    refine ⟨hport, ?_⟩
    simp [digits_notMem hall (d := ':') (by decide), digits_notMem hall (d := '[') (by decide),
      digits_notMem hall (d := ']') (by decide)]
  · next hminus hplus =>
    obtain ⟨hall, hport⟩ := hdigits service h
    refine ⟨?_, digits_notMem hall (by decide), digits_notMem hall (by decide),
      digits_notMem hall (by decide)⟩
    unfold parsePort
    split
    · next cs => exact absurd rfl (hplus cs)
    · next cs => exact absurd rfl (hminus cs)
    · exact hport

/-- **An address is dialed as it was checked**: the dialer connects to the host that
`net.SplitHostPort` returns and to the number `strconv.Atoi` reads in the port. -/
theorem dialAddr_of_split (services : List Char → Option Int) {addr host service : List Char}
    {port : Int} (hsplit : splitHostPort addr = some (host, service))
    (h : parseInt service = port) (hpos : 1 ≤ port) (hle : port ≤ 65535) :
    dialAddr services addr = some (host, port) := by
  have hne : addr ≠ [] := by
    intro heq
    rw [heq] at hsplit
    cases hsplit
  have hlookup : lookupPort services service = some port := by
    unfold lookupPort
    rw [(parsePort_of_parseInt h hpos hle).1, some_or]
    dsimp only
    rw [if_pos ⟨by omega, hle⟩]
  unfold dialAddr
  rw [if_neg hne, hsplit]
  dsimp only
  rw [hlookup, map_some]

/-- The same for a host and a port text that are joined. -/
theorem dialAddr_joinHostPort (services : List Char → Option Int) {host service : List Char}
    {port : Int} (hhost : '[' ∉ host ∧ ']' ∉ host) (h : parseInt service = port)
    (hpos : 1 ≤ port) (hle : port ≤ 65535) :
    dialAddr services (joinHostPort host service) = some (host, port) :=
  dialAddr_of_split services
    (splitHostPort_joinHostPort hhost (parsePort_of_parseInt h hpos hle).2) h hpos hle

end Dial
