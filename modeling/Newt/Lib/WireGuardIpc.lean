import Newt.Lib.AddressText
import Newt.Lib.HostPort

/-!
# Setting the peers of a WireGuard device

A set operation of WireGuard's configuration protocol is a text of lines
`key=value`.  A `public_key` line selects a peer, and makes it if need be; the
lines after it are about that peer.  The lines are applied up to the first one
that is invalid.

What the lines do to a device is a `Backend`, over any type of devices.  One of
them is `Device`, of which only the peers and the allowed networks are kept: a
network is allowed to one peer at most, in its masked form, and setting it for
another peer moves it.  The key of the device is a parameter, and so is whether
the values of lines about other things (the endpoint, the keep-alive interval)
are accepted, which change neither.

Main results: `allowed_set_add`, `allowed_set_replace` and `allowed_set_up`, the
networks of a peer after an operation that adds networks, replaces them, or
configures the device.
-/

namespace WireGuard

open Netip List HostPort

abbrev Key := List UInt8

/-- Keys are compared byte by byte. -/
instance : LawfulBEq Key := inferInstance

/-- What the lines of a set operation are about: the device, a peer, which may
have been made by this operation, or a peer that is to be ignored. -/
inductive Cursor
  | device
  | peer (key : Key) (created : Bool)
  | ignored
  deriving DecidableEq, Repr

def hexEncode (key : Key) : List Char :=
  key.flatMap (fun b => [(b.toNat / 16).digitChar, (b.toNat % 16).digitChar])

def hexDecode : List Char → Option Key
  | [] => some []
  | c :: d :: rest => do
      let x ← hexDigit? c
      let y ← hexDigit? d
      let bytes ← hexDecode rest
      some (UInt8.ofNat (x * 16 + y) :: bytes)
  | _ => none

/-- A key is 32 bytes in hexadecimal. -/
def parseKey (value : List Char) : Option Key :=
  (hexDecode value).filter (fun key => key.length = 32)

/-- The lines of a text, without the carriage returns at their ends. -/
def textLines (text : List Char) : List (List Char) :=
  (text.splitOn '\n').map (fun line =>
    if line.getLast? = some '\r' then line.dropLast else line)

/-- Text that can stand in a line. -/
def OneLine (s : List Char) : Prop :=
  '\n' ∉ s ∧ '\r' ∉ s
  deriving Decidable

theorem OneLine.append {s t : List Char} (hs : OneLine s) (ht : OneLine t) : OneLine (s ++ t) := by
  refine ⟨?_, ?_⟩
  all_goals
    rw [mem_append, not_or]
  · exact ⟨hs.1, ht.1⟩
  · exact ⟨hs.2, ht.2⟩

theorem textLines_intercalate {lines : List (List Char)} (hne : lines ≠ [])
    (h : ∀ l ∈ lines, OneLine l) : textLines (['\n'].intercalate lines) = lines := by
  unfold textLines
  rw [splitOn_intercalate '\n' (fun l hl => (h l hl).1) hne]
  refine (map_congr_left (fun l hl => ?_)).trans (map_id lines)
  rw [if_neg (fun hlast => (h l hl).2 (mem_of_getLast? hlast))]
  rfl

theorem hexDigit?_digitChar : ∀ n : Nat, n < 16 → hexDigit? n.digitChar = some n := by decide

theorem hexDecode_hexEncode (key : Key) : hexDecode (hexEncode key) = some key := by
  induction key with
  | nil => rfl
  | cons b key ih =>
    have hcons : hexEncode (b :: key) =
        (b.toNat / 16).digitChar :: (b.toNat % 16).digitChar :: hexEncode key := rfl
    have hb : b.toNat < 256 := b.toNat_lt
    have hbyte : UInt8.ofNat (b.toNat / 16 * 16 + b.toNat % 16) = b := by
      rw [Nat.div_add_mod']
      exact UInt8.ofNat_toNat
    rw [hcons, hexDecode, hexDigit?_digitChar _ (by omega), hexDigit?_digitChar _ (by omega), ih]
    simp only [Option.bind_eq_bind, Option.bind_some, hbyte]

theorem oneLine_hexEncode (key : Key) : OneLine (hexEncode key) := by
  have hdigit : ∀ n : Nat, n < 16 → n.digitChar ≠ '\n' ∧ n.digitChar ≠ '\r' := by decide
  refine ⟨?_, ?_⟩
  all_goals
    intro hmem
    obtain ⟨b, _, hc⟩ := mem_flatMap.mp hmem
    have hb : b.toNat < 256 := b.toNat_lt
    rcases mem_cons.mp hc with hc | hc
  · exact (hdigit _ (by omega)).1 hc.symm
  · exact (hdigit _ (by omega)).1 (mem_singleton.mp hc).symm
  · exact (hdigit _ (by omega)).2 hc.symm
  · exact (hdigit _ (by omega)).2 (mem_singleton.mp hc).symm

theorem parseKey_hexEncode {key : Key} (h : key.length = 32) :
    parseKey (hexEncode key) = some key := by
  unfold parseKey
  rw [hexDecode_hexEncode]
  simp [h]

/-- A line of a set operation. -/
def field (name value : List Char) : List Char :=
  name ++ '=' :: value

def privateKeyLine (key : Key) : List Char :=
  field "private_key".toList (hexEncode key)

def publicKeyLine (key : Key) : List Char :=
  field "public_key".toList (hexEncode key)

def allowedLine (value : List Char) : List Char :=
  field "allowed_ip".toList value

def replaceLine : List Char :=
  field "replace_allowed_ips".toList "true".toList

theorem oneLine_field {name value : List Char} (hname : OneLine name) (hvalue : OneLine value) :
    OneLine (field name value) :=
  hname.append (OneLine.append (s := ['=']) (by decide) hvalue)

theorem oneLine_publicKey (key : Key) : OneLine (publicKeyLine key) :=
  oneLine_field (by decide) (oneLine_hexEncode key)

theorem oneLine_allowed {values : List (List Char)} (hvalues : ∀ v ∈ values, OneLine v) :
    ∀ l ∈ values.map allowedLine, OneLine l :=
  forall_mem_map.mpr (fun v hv => oneLine_field (by decide) (hvalues v hv))

variable {D : Type}

/-- What a line does to the peer it is about. -/
def Cursor.apply (c : Cursor) (f : D → Key → D) (d : D) : D :=
  match c with
  | .peer key _ => f d key
  | .device | .ignored => d

/-- A device, as set operations see it: its own key, its peers, and what the lines
about a peer do. -/
structure Backend (D : Type) where
  own : Key
  peers : D → List Key
  /-- Make a peer, if it is not there. -/
  withPeer : D → Key → D
  allow : D → Key → Prefix → D
  disallowAll : D → Key → D
  removePeer : D → Key → D
  /-- What a line about something else does to a peer; `none` if it is not accepted. -/
  other : List Char → List Char → Option (D → Key → D)
  /-- Whether a line about the device itself is accepted. -/
  accepts : List Char → List Char → Bool

namespace Backend

variable (b : Backend D)

/-- The line `public_key`; a peer with the key of the device is ignored. -/
def select (d : D) (key : Key) : D × Cursor :=
  if key = b.own then (d, .ignored)
  else (b.withPeer d key, .peer key (decide (key ∉ b.peers d)))

/-- The lines about a peer; `none` is an error. -/
def peerField (d : D) (c : Cursor) (name value : List Char) : Option (D × Cursor) :=
  if name = "allowed_ip".toList then
    (parsePrefix (String.ofList value)).map (fun p => (c.apply (b.allow · · p) d, c))
  else if name = "replace_allowed_ips".toList then
    if value ≠ "true".toList then none else some (c.apply b.disallowAll d, c)
  else if name = "remove".toList then
    if value ≠ "true".toList then none
    else match c with
      | .peer key _ => some (b.removePeer d key, .ignored)
      | c => some (d, c)
  else if name = "update_only".toList then
    if value ≠ "true".toList then none
    else match c with
      | .peer key true => some (b.removePeer d key, .ignored)
      | c => some (d, c)
  else (b.other name value).map (fun f => (c.apply f d, c))

/-- One line; `none` is an error. -/
def setField (d : D) (c : Cursor) (name value : List Char) : Option (D × Cursor) :=
  if name = "public_key".toList then (parseKey value).map (b.select d)
  else match c with
    | .device =>
      if name = "private_key".toList then (parseKey value).map (fun _ => (d, .device))
      else if b.accepts name value then some (d, .device)
      else none
    | c => b.peerField d c name value

/-- The lines of an operation, up to an empty one or an error, and whether there was
no error. -/
def setLines (d : D) (c : Cursor) : List (List Char) → D × Bool
  | [] => (d, true)
  | line :: lines =>
    if line = [] then (d, true)
    else match splitFirst '=' line with
      | none => (d, false)
      | some (name, value) =>
        match b.setField d c name value with
        | none => (d, false)
        | some (d', c') => setLines d' c' lines

/-- `Device.IpcSet`. -/
def ipcSet (d : D) (text : List Char) : D × Bool :=
  b.setLines d .device (textLines text)

variable {b} {d : D} {c : Cursor} {key : Key} {created : Bool} {name : List Char}
  (value : List Char) (lines : List (List Char))

theorem ipcSet_lines {line : List Char} {lines : List (List Char)}
    (h : ∀ l ∈ line :: lines, OneLine l) :
    b.ipcSet d (['\n'].intercalate (line :: lines)) = b.setLines d .device (line :: lines) := by
  unfold ipcSet
  rw [textLines_intercalate (cons_ne_nil _ _) h]

theorem setLines_field (hname : '=' ∉ name) :
    b.setLines d c (field name value :: lines) =
      (b.setField d c name value).elim (d, false) (fun r => b.setLines r.1 r.2 lines) := by
  unfold field
  rw [setLines, if_neg (by simp), splitFirst_append hname]
  dsimp only
  cases b.setField d c name value <;> rfl

theorem setLines_privateKey (hkey : key.length = 32) :
    b.setLines d .device (privateKeyLine key :: lines) = b.setLines d .device lines := by
  unfold privateKeyLine
  rw [setLines_field _ _ (by decide)]
  unfold setField
  rw [if_neg (by decide), parseKey_hexEncode hkey]
  rfl

/-- A peer other than the device itself is selected. -/
theorem setLines_publicKey (hkey : key.length = 32) (hown : key ≠ b.own) :
    b.setLines d c (publicKeyLine key :: lines) =
      b.setLines (b.withPeer d key) (.peer key (decide (key ∉ b.peers d))) lines := by
  unfold publicKeyLine
  rw [setLines_field _ _ (by decide)]
  unfold setField select
  rw [if_pos rfl, parseKey_hexEncode hkey, Option.map_some, if_neg hown]
  rfl

theorem setField_peer (hname : name ≠ "public_key".toList) :
    b.setField d (.peer key created) name value =
      b.peerField d (.peer key created) name value := by
  unfold setField
  rw [if_neg hname]

theorem setLines_allowed :
    b.setLines d (.peer key created) (allowedLine value :: lines) =
      (parsePrefix (String.ofList value)).elim (d, false)
        (fun p => b.setLines (b.allow d key p) (.peer key created) lines) := by
  unfold allowedLine
  rw [setLines_field _ _ (by decide), setField_peer _ (by decide)]
  unfold peerField
  rw [if_pos rfl]
  cases parsePrefix (String.ofList value) <;> rfl

theorem setLines_replace :
    b.setLines d (.peer key created) (replaceLine :: lines) =
      b.setLines (b.disallowAll d key) (.peer key created) lines := by
  unfold replaceLine
  rw [setLines_field _ _ (by decide)]
  rfl

theorem setLines_remove :
    b.setLines d (.peer key created) (field "remove".toList "true".toList :: lines) =
      b.setLines (b.removePeer d key) .ignored lines := by
  rw [setLines_field _ _ (by decide)]
  rfl

theorem setLines_updateOnly :
    b.setLines d (.peer key created) (field "update_only".toList "true".toList :: lines) =
      if created then b.setLines (b.removePeer d key) .ignored lines
      else b.setLines d (.peer key created) lines := by
  rw [setLines_field _ _ (by decide)]
  cases created <;> rfl

/-- The names of the lines that every device understands. -/
def names : List (List Char) :=
  ["public_key".toList, "allowed_ip".toList, "replace_allowed_ips".toList, "remove".toList,
    "update_only".toList]

theorem setLines_other (heq : '=' ∉ name) (hname : name ∉ names) :
    b.setLines d (.peer key created) (field name value :: lines) =
      (b.other name value).elim (d, false)
        (fun f => b.setLines (f d key) (.peer key created) lines) := by
  simp only [names, mem_cons, not_or] at hname
  rw [setLines_field _ _ heq, setField_peer _ hname.1]
  unfold peerField
  rw [if_neg hname.2.1, if_neg hname.2.2.1, if_neg hname.2.2.2.1, if_neg hname.2.2.2.2.1]
  cases b.other name value <;> rfl

end Backend

structure Device where
  peers : List Key
  allowed : List (Prefix × Key)
  deriving DecidableEq

namespace Device

/-- The networks allowed to a peer. -/
def allowedIPs (d : Device) (key : Key) : List Prefix :=
  (d.allowed.filter (fun a => a.2 = key)).map Prod.fst

/-- Allow a network to a peer, and to no other. -/
def allow (d : Device) (key : Key) (p : Prefix) : Device :=
  { d with allowed := (p.masked, key) :: d.allowed.filter (fun a => a.1 ≠ p.masked) }

def disallowAll (d : Device) (key : Key) : Device :=
  { d with allowed := d.allowed.filter (fun a => a.2 ≠ key) }

def withPeer (d : Device) (key : Key) : Device :=
  { d with peers := d.peers.insert key }

def removePeer (d : Device) (key : Key) : Device :=
  { d.disallowAll key with peers := d.peers.filter (· ≠ key) }

/-- Lines about other things, if they are accepted, change neither peers nor networks. -/
def backend (own : Key) (accepts : List Char → List Char → Bool) : Backend Device where
  own := own
  peers := peers
  withPeer := withPeer
  allow := allow
  disallowAll := disallowAll
  removePeer := removePeer
  other name value := if accepts name value then some (fun d _ => d) else none
  accepts := accepts

theorem mem_allowedIPs {d : Device} {key : Key} {p : Prefix} :
    p ∈ d.allowedIPs key ↔ (p, key) ∈ d.allowed := by
  unfold allowedIPs
  rw [mem_map]
  refine ⟨?_, fun h => ⟨(p, key), mem_filter.mpr ⟨h, by simp⟩, rfl⟩⟩
  intro ⟨a, ha, heq⟩
  obtain ⟨ha, hkey⟩ := mem_filter.mp ha
  rw [← heq, ← of_decide_eq_true hkey]
  exact ha

theorem mem_allowedIPs_allow {d : Device} {key : Key} {p q : Prefix} :
    q ∈ (d.allow key p).allowedIPs key ↔ q = p.masked ∨ q ∈ d.allowedIPs key := by
  rw [mem_allowedIPs, mem_allowedIPs]
  unfold allow
  simp only [mem_cons, Prod.mk.injEq, and_true, mem_filter, decide_eq_true_eq]
  by_cases hq : q = p.masked
  · simp [hq]
  · simp [hq]

theorem allowedIPs_disallowAll (d : Device) (key : Key) :
    (d.disallowAll key).allowedIPs key = [] := by
  unfold allowedIPs disallowAll
  simp

end Device

/-- `Device.IpcSet`, for what it does to the device. -/
def ipcSet (own : Key) (accepts : List Char → List Char → Bool) (d : Device) (text : List Char) :
    Device :=
  ((Device.backend own accepts).ipcSet d text).1

/-- The network of a value, as a device allows it. -/
def network (value : List Char) : Option Prefix :=
  (parsePrefix (String.ofList value)).map Prefix.masked

section Operations

open Backend

variable {own key : Key} {accepts : List Char → List Char → Bool} {created : Bool}

/-- Lines that allow networks allow just those. -/
theorem mem_allowedIPs_setLines {values : List (List Char)}
    (hvalues : ∀ v ∈ values, (network v).isSome = true) (d : Device) (q : Prefix) :
    q ∈ ((Device.backend own accepts).setLines d (.peer key created)
        (values.map allowedLine)).1.allowedIPs key ↔
      q ∈ d.allowedIPs key ∨ some q ∈ values.map network := by
  induction values generalizing d with
  | nil => simp [setLines]
  | cons v values ih =>
    obtain ⟨n, hn⟩ := Option.isSome_iff_exists.mp (hvalues v mem_cons_self)
    obtain ⟨p, hp, rfl⟩ := Option.map_eq_some_iff.mp hn
    rw [map_cons, setLines_allowed, hp, Option.elim_some]
    rw [ih (fun u hu => hvalues u (mem_cons_of_mem _ hu)), map_cons, mem_cons, hn, Option.some_inj]
    show q ∈ (d.allow key p).allowedIPs key ∨ _ ↔ _
    rw [Device.mem_allowedIPs_allow, or_assoc]
    exact or_left_comm

/-- Other lines about a peer leave the device alone, whether accepted or not. -/
theorem setLines_others {lines : List (List Char)}
    (h : ∀ l ∈ lines, ∃ name value, l = field name value ∧ '=' ∉ name ∧ name ∉ names)
    (d : Device) :
    ((Device.backend own accepts).setLines d (.peer key created) lines).1 = d := by
  induction lines with
  | nil => rfl
  | cons l lines ih =>
    obtain ⟨name, value, rfl, heq, hname⟩ := h l mem_cons_self
    have hother : (Device.backend own accepts).other name value =
        if accepts name value then some (fun d _ => d) else none := rfl
    rw [setLines_other _ _ heq hname, hother]
    split
    · exact ih (fun k hk => h k (mem_cons_of_mem _ hk))
    · rfl

variable (h : key.length = 32) (hown : key ≠ own) (d : Device) (q : Prefix)

include h hown

/-- **First configuration**: the operation that sets up a device with one peer. -/
theorem allowed_set_up {privateKey : Key} (hprivate : privateKey.length = 32)
    {value : List Char} (hline : OneLine value)
    (hvalue : (network value).isSome = true) {others : List (List Char)}
    (hlines : ∀ l ∈ others, OneLine l)
    (hothers : ∀ l ∈ others, ∃ name v, l = field name v ∧ '=' ∉ name ∧ name ∉ names) :
    q ∈ (ipcSet own accepts d (['\n'].intercalate
        (privateKeyLine privateKey :: publicKeyLine key :: allowedLine value :: others))).allowedIPs
          key ↔
      q ∈ d.allowedIPs key ∨ some q = network value := by
  obtain ⟨n, hn⟩ := Option.isSome_iff_exists.mp hvalue
  obtain ⟨p, hp, rfl⟩ := Option.map_eq_some_iff.mp hn
  unfold ipcSet
  rw [ipcSet_lines, setLines_privateKey _ hprivate, setLines_publicKey _ h hown, setLines_allowed,
    hp, Option.elim_some, setLines_others hothers, hn, Option.some_inj]
  · exact Device.mem_allowedIPs_allow.trans or_comm
  · exact forall_mem_cons.mpr ⟨oneLine_field (by decide) (oneLine_hexEncode privateKey),
      forall_mem_cons.mpr ⟨oneLine_publicKey key,
        forall_mem_cons.mpr ⟨oneLine_field (by decide) hline, hlines⟩⟩⟩

variable {values : List (List Char)} (hlines : ∀ v ∈ values, OneLine v)
  (hvalues : ∀ v ∈ values, (network v).isSome = true)

include hlines hvalues

/-- **Adding**: a peer's networks after an operation that allows values to it. -/
theorem allowed_set_add :
    q ∈ (ipcSet own accepts d
        (['\n'].intercalate (publicKeyLine key :: values.map allowedLine))).allowedIPs key ↔
      q ∈ d.allowedIPs key ∨ some q ∈ values.map network := by
  unfold ipcSet
  rw [ipcSet_lines, setLines_publicKey _ h hown, mem_allowedIPs_setLines hvalues]
  · rfl
  · exact forall_mem_cons.mpr ⟨oneLine_publicKey key, oneLine_allowed hlines⟩

/-- **Replacing**: a peer's networks after an operation that replaces them. -/
theorem allowed_set_replace :
    q ∈ (ipcSet own accepts d (['\n'].intercalate
        (publicKeyLine key :: replaceLine :: values.map allowedLine))).allowedIPs key ↔
      some q ∈ values.map network := by
  unfold ipcSet
  rw [ipcSet_lines, setLines_publicKey _ h hown, setLines_replace, mem_allowedIPs_setLines hvalues]
  · show q ∈ ((d.withPeer key).disallowAll key).allowedIPs key ∨ _ ↔ _
    rw [Device.allowedIPs_disallowAll]
    simp
  · exact forall_mem_cons.mpr
      ⟨oneLine_publicKey key, forall_mem_cons.mpr ⟨by decide, oneLine_allowed hlines⟩⟩

end Operations

end WireGuard
