import Mathlib.Logic.Function.Basic
import Newt.Lib.WireGuardIpc

/-!
# The peers of a WireGuard device and the peers it is asked for

Set operations again, for what they make of the peers: their keys, the networks
allowed to them and their endpoints.  An operation with an invalid line fails, and
only operations that succeed are followed here.  How an endpoint is read is up to
the device's bind and a parameter.

A `PeerMap` says which peers there should be, and `Agrees` ties a device to a map.

* `ipcSet_add`, `ipcSet_update` and `ipcSet_remove` — what the three kinds of
  operations do to the peers.
-/

namespace WireGuard

open Netip List Function Option Prefix

/-- What a peer should have. -/
structure Wanted (E : Type) where
  allowed : List Prefix
  endpoint : Option E
  deriving DecidableEq

abbrev PeerMap (E : Type) := Key → Option (Wanted E)

/-- The peers a device has; a network is allowed to one of them at most. -/
structure PeerTable (E : Type) where
  keys : List Key
  owner : Prefix → Option Key
  endpoint : Key → Option E

variable {E : Type}

namespace PeerTable

def empty : PeerTable E :=
  { keys := [], owner := fun _ => none, endpoint := fun _ => none }

def allow (d : PeerTable E) (key : Key) (p : Prefix) : PeerTable E :=
  { d with owner := update d.owner p.masked (some key) }

def disallowAll (d : PeerTable E) (key : Key) : PeerTable E :=
  { d with owner := fun p => if d.owner p = some key then none else d.owner p }

def setEndpoint (d : PeerTable E) (key : Key) (e : E) : PeerTable E :=
  { d with endpoint := update d.endpoint key (some e) }

def withEndpoint (d : PeerTable E) (key : Key) : Option E → PeerTable E
  | none => d
  | some e => d.setEndpoint key e

def removePeer (d : PeerTable E) (key : Key) : PeerTable E :=
  { d.disallowAll key with
    keys := d.keys.filter (· ≠ key)
    endpoint := update d.endpoint key none }

def allowAll (d : PeerTable E) (key : Key) (ps : List Prefix) : PeerTable E :=
  ps.foldl (fun d p => d.allow key p) d

/-- Make a peer, if it is not there. -/
def withPeer (d : PeerTable E) (key : Key) : PeerTable E :=
  { d with keys := d.keys.insert key }

variable (d : PeerTable E) (key : Key)

/-- Only the endpoint of the peer may change. -/
theorem withEndpoint_parts (e : Option E) : (d.withEndpoint key e).keys = d.keys ∧
    (d.withEndpoint key e).owner = d.owner ∧
    (d.withEndpoint key e).endpoint = update d.endpoint key (e.or (d.endpoint key)) := by
  cases e with
  | none => exact ⟨rfl, rfl, (update_eq_self key d.endpoint).symm⟩
  | some e => exact ⟨rfl, rfl, rfl⟩

/-- A peer that is made to be removed. -/
theorem removePeer_withPeer : (d.withPeer key).removePeer key = d.removePeer key := by
  have hfilter : (d.keys.insert key).filter (· ≠ key) = d.keys.filter (· ≠ key) := by
    by_cases hmem : key ∈ d.keys
    · rw [insert_of_mem hmem]
    · rw [insert_of_not_mem hmem, filter_cons_of_neg (by simp)]
  unfold removePeer
  rw [show (d.withPeer key).keys = d.keys.insert key from rfl, hfilter]
  rfl

/-- Networks change no peer and no endpoint. -/
theorem allowAll_rest (ps : List Prefix) :
    (d.allowAll key ps).keys = d.keys ∧ (d.allowAll key ps).endpoint = d.endpoint := by
  induction ps generalizing d with
  | nil => exact ⟨rfl, rfl⟩
  | cons p ps ih => exact ih (d.allow key p)

/-- They are taken from whoever has them. -/
theorem allowAll_owner (ps : List Prefix) (q : Prefix) :
    (d.allowAll key ps).owner q = if q ∈ ps.map masked then some key else d.owner q := by
  induction ps generalizing d with
  | nil => rfl
  | cons p ps ih =>
    rw [map_cons]
    show ((d.allow key p).allowAll key ps).owner q = _
    rw [ih]
    show (if _ then _ else update d.owner p.masked (some key) q) = _
    simp only [mem_cons, or_comm (b := q ∈ _), ite_or, update_apply]

/-- Networks that no other peer has are taken from none. -/
theorem allowAll_other {d : PeerTable E} {key : Key} {ps : List Prefix}
    (howner : ∀ p ∈ ps.map masked, d.owner p = none ∨ d.owner p = some key) {k : Key}
    (hk : k ≠ key) (p : Prefix) : (d.allowAll key ps).owner p = some k ↔ d.owner p = some k := by
  rw [allowAll_owner]
  split
  · next hp =>
    refine iff_of_false (fun h => hk (some.inj h).symm) ?_
    intro hold
    rcases howner p hp with hnone | hkey
    · rw [hnone] at hold
      cases hold
    · rw [hkey] at hold
      exact hk (some.inj hold).symm
  · rfl

theorem disallowAll_self (p : Prefix) : (d.disallowAll key).owner p ≠ some key := by
  simp only [disallowAll]
  split
  · exact fun h => nomatch h
  · assumption

theorem disallowAll_other {key k : Key} (hk : k ≠ key) (p : Prefix) :
    (d.disallowAll key).owner p = some k ↔ d.owner p = some k := by
  simp only [disallowAll]
  split
  · next howner =>
    rw [howner]
    exact iff_of_false (fun h => nomatch h) (fun h => hk (some.inj h).symm)
  · rfl

end PeerTable

/-- A device has the peers of a map, with their networks and endpoints. -/
structure Agrees (d : PeerTable E) (m : PeerMap E) : Prop where
  keys : ∀ k, k ∈ d.keys ↔ (m k).isSome = true
  owner : ∀ p k, d.owner p = some k ↔ ∃ w, m k = some w ∧ p ∈ w.allowed
  endpoint : ∀ k, d.endpoint k = (m k).bind Wanted.endpoint

namespace Agrees

variable {d d' : PeerTable E} {m : PeerMap E}

theorem empty : Agrees (PeerTable.empty : PeerTable E) (fun _ => none) := by
  refine ⟨?_, ?_, ?_⟩
  · intro k
    exact iff_of_false not_mem_nil (by simp)
  · intro p k
    refine iff_of_false (by simp [PeerTable.empty]) ?_
    intro ⟨w, hw, _⟩
    cases hw
  · intro k
    rfl

variable (h : Agrees d m)

include h

/-- One peer changes, and the device has just what it should have of it. -/
theorem change {key : Key} {w : Option (Wanted E)} (hkey : key ∈ d'.keys ↔ w.isSome = true)
    (hnets : ∀ p, d'.owner p = some key ↔ ∃ v, w = some v ∧ p ∈ v.allowed)
    (hendpoint : d'.endpoint key = w.bind Wanted.endpoint)
    (hothers : ∀ k, k ≠ key → (k ∈ d'.keys ↔ k ∈ d.keys) ∧
      (∀ p, d'.owner p = some k ↔ d.owner p = some k) ∧ d'.endpoint k = d.endpoint k) :
    Agrees d' (update m key w) := by
  have hall : ∀ k, (k ∈ d'.keys ↔ (update m key w k).isSome = true) ∧
      (∀ p, d'.owner p = some k ↔ ∃ v, update m key w k = some v ∧ p ∈ v.allowed) ∧
      d'.endpoint k = (update m key w k).bind Wanted.endpoint := by
    intro k
    by_cases hk : k = key
    · subst hk
      rw [update_self]
      exact ⟨hkey, hnets, hendpoint⟩
    · obtain ⟨hkeys, howner, hend⟩ := hothers k hk
      rw [update_of_ne hk, hkeys, hend]
      exact ⟨h.keys k, fun p => (howner p).trans (h.owner p k), h.endpoint k⟩
  exact ⟨fun k => (hall k).1, fun p k => (hall k).2.1 p, fun k => (hall k).2.2⟩

/-- A peer is removed. -/
theorem removePeer (key : Key) : Agrees (d.removePeer key) (update m key none) := by
  refine h.change ?_ ?_ ?_ ?_
  · simp [PeerTable.removePeer]
  · intro p
    exact iff_of_false (d.disallowAll_self key p) (fun ⟨v, hv, _⟩ => nomatch hv)
  · exact update_self ..
  · intro k hk
    refine ⟨?_, d.disallowAll_other hk, update_of_ne hk ..⟩
    simp [PeerTable.removePeer, hk]

open PeerTable

/-- A peer gets networks, all it then has, on a device that is otherwise the same. -/
theorem allowAll {d₀ : PeerTable E} {key : Key} {ps : List Prefix} (hkey : key ∈ d₀.keys)
    (hend : d₀.endpoint = d.endpoint)
    (hkept : ∀ p, d₀.owner p = some key → p ∈ ps.map masked)
    (hothers : ∀ k, k ≠ key → (k ∈ d₀.keys ↔ k ∈ d.keys) ∧
      ∀ p, (d₀.allowAll key ps).owner p = some k ↔ d.owner p = some k) :
    Agrees (d₀.allowAll key ps)
      (update m key (some ⟨ps.map masked, (m key).bind Wanted.endpoint⟩)) := by
  obtain ⟨hkeys, hends⟩ := d₀.allowAll_rest key ps
  refine h.change ?_ ?_ ?_ ?_
  · rw [hkeys]
    exact iff_of_true hkey rfl
  · intro p
    rw [allowAll_owner]
    refine Iff.trans ?_ ⟨fun hp => ⟨_, rfl, hp⟩, fun ⟨v, hv, hp⟩ => some.inj hv ▸ hp⟩
    split
    · next hp => exact iff_of_true rfl hp
    · next hp => exact iff_of_false (fun hold => hp (hkept p hold)) hp
  · rw [hends, hend]
    exact h.endpoint key
  · intro k hk
    rw [hkeys, hends, hend]
    exact ⟨(hothers k hk).1, (hothers k hk).2, rfl⟩

/-- A peer, made if need be, gets networks. -/
theorem grow {key : Key} {ps : List Prefix}
    (howner : ∀ p ∈ ps.map masked, d.owner p = none ∨ d.owner p = some key)
    (hkept : ∀ v, m key = some v → v.allowed ⊆ ps.map masked) :
    Agrees ((d.withPeer key).allowAll key ps)
      (update m key (some ⟨ps.map masked, (m key).bind Wanted.endpoint⟩)) := by
  refine h.allowAll (mem_insert_self ..) rfl (fun p hold => ?_) (fun k hk => ⟨?_, ?_⟩)
  · obtain ⟨v, hv, hmem⟩ := (h.owner p key).mp hold
    exact hkept v hv hmem
  · exact mem_insert_iff.trans ⟨fun hor => hor.resolve_left hk, .inr⟩
  · exact allowAll_other (d := d.withPeer key) howner hk

/-- The networks of a peer are replaced. -/
theorem replace {key : Key} {v : Wanted E} (hv : m key = some v) {ps : List Prefix}
    (howner : ∀ p ∈ ps.map masked, d.owner p = none ∨ d.owner p = some key) :
    Agrees ((d.disallowAll key).allowAll key ps)
      (update m key (some { v with allowed := ps.map masked })) := by
  have hend : v.endpoint = (m key).bind Wanted.endpoint := by
    rw [hv]
    rfl
  rw [hend]
  refine h.allowAll ((h.keys key).mpr (by rw [hv]; rfl)) rfl
    (fun p hold => absurd hold (d.disallowAll_self key p)) (fun k hk => ⟨Iff.rfl, fun p => ?_⟩)
  refine (allowAll_other (fun p hp => ?_) hk p).trans (d.disallowAll_other hk p)
  simp only [disallowAll]
  split
  · exact .inl rfl
  · exact howner p hp

/-- The endpoint of a peer is set, or left as it is. -/
theorem withEndpoint {key : Key} {v : Wanted E} (hv : m key = some v) (e : Option E) :
    Agrees (d.withEndpoint key e)
      (update m key (some { v with endpoint := e.or v.endpoint })) := by
  obtain ⟨hkeys, howner, hend⟩ := d.withEndpoint_parts key e
  refine h.change ?_ ?_ ?_ ?_
  · rw [hkeys]
    exact iff_of_true ((h.keys key).mpr (by rw [hv]; rfl)) rfl
  · intro p
    rw [howner, h.owner, hv]
    refine ⟨?_, ?_⟩
    · intro ⟨w, hw, hp⟩
      cases hw
      exact ⟨_, rfl, hp⟩
    · intro ⟨w, hw, hp⟩
      cases hw
      exact ⟨v, rfl, hp⟩
  · rw [hend, update_self, h.endpoint, hv]
    rfl
  · intro k hk
    rw [hkeys, howner, hend, update_of_ne hk]
    exact ⟨Iff.rfl, fun _ => Iff.rfl, rfl⟩

/-- A map that wants the same. -/
theorem congr {m' : PeerMap E} (hsome : ∀ k, (m' k).isSome = (m k).isSome)
    (hsame : ∀ k w w', m k = some w → m' k = some w' →
      w'.endpoint = w.endpoint ∧ ∀ p, p ∈ w'.allowed ↔ p ∈ w.allowed) : Agrees d m' := by
  refine ⟨?_, ?_, ?_⟩
  · intro k
    rw [hsome]
    exact h.keys k
  · intro p k
    rw [h.owner]
    refine ⟨?_, ?_⟩
    · intro ⟨w, hw, hp⟩
      obtain ⟨w', hw'⟩ := isSome_iff_exists.mp ((hsome k).trans (by rw [hw]; rfl))
      exact ⟨w', hw', ((hsame k w w' hw hw').2 p).mpr hp⟩
    · intro ⟨w', hw', hp⟩
      obtain ⟨w, hw⟩ := isSome_iff_exists.mp ((hsome k).symm.trans (by rw [hw']; rfl))
      exact ⟨w, hw, ((hsame k w w' hw hw').2 p).mp hp⟩
  · intro k
    rw [h.endpoint]
    have hk := hsome k
    cases hw : m k with
    | none =>
      cases hw' : m' k with
      | none => rfl
      | some w' =>
        rw [hw, hw'] at hk
        cases hk
    | some w =>
      rw [hw] at hk
      obtain ⟨w', hw'⟩ := isSome_iff_exists.mp hk
      rw [hw']
      exact ((hsame k w w' hw hw').1).symm

/-- Two devices that agree with one map have the same peers. -/
theorem same (h' : Agrees d' m) :
    (∀ k, k ∈ d.keys ↔ k ∈ d'.keys) ∧ d.owner = d'.owner ∧ d.endpoint = d'.endpoint := by
  refine ⟨?_, ?_, ?_⟩
  · intro k
    rw [h.keys, h'.keys]
  · funext p
    refine ext fun k => ?_
    rw [h.owner, h'.owner]
  · funext k
    rw [h.endpoint, h'.endpoint]

end Agrees

/-- A device's own key, whether it accepts the values of lines about other things,
and how its bind reads endpoints. -/
structure Host (E : Type) where
  own : Key
  accepts : List Char → List Char → Bool
  parseEndpoint : List Char → Option E

namespace Host

open Backend

variable (host : Host E)

/-- What the lines do to the peers. -/
def backend : Backend (PeerTable E) where
  own := host.own
  peers := PeerTable.keys
  withPeer := PeerTable.withPeer
  allow := PeerTable.allow
  disallowAll := PeerTable.disallowAll
  removePeer := PeerTable.removePeer
  other name value :=
    if name = "endpoint".toList then
      (host.parseEndpoint value).map (fun e d key => d.setEndpoint key e)
    else if host.accepts name value then some (fun d _ => d)
    else none
  accepts := host.accepts

/-- `Device.IpcSet`, if it succeeds. -/
def ipcSet (d : PeerTable E) (text : List Char) : Option (PeerTable E) :=
  match host.backend.ipcSet d text with
  | (d', true) => some d'
  | (_, false) => none

variable {host} {d d' : PeerTable E} {c : Cursor} {key : Key} {created : Bool}

variable {name value : List Char}

theorem ipcSet_eq_some_iff {line : List Char} {lines : List (List Char)}
    (hlines : ∀ l ∈ line :: lines, OneLine l) :
    host.ipcSet d (['\n'].intercalate (line :: lines)) = some d' ↔
      host.backend.setLines d .device (line :: lines) = (d', true) := by
  unfold ipcSet
  rw [ipcSet_lines hlines]
  split
  · next h => rw [h, some_inj, Prod.mk.injEq, and_iff_left rfl]
  · next h =>
    rw [h]
    exact iff_of_false (nomatch ·) (fun heq => nomatch (Prod.mk.inj heq).2)

/-- A line that is not an error goes on. -/
theorem exists_of_elim {α : Type} {o : Option α} {f : α → PeerTable E × Bool}
    (h : o.elim (d, false) f = (d', true)) : ∃ a, o = some a ∧ f a = (d', true) := by
  cases o with
  | none => cases h
  | some a => exact ⟨a, rfl, h⟩

theorem setLines_endpoint (value : List Char) (lines : List (List Char)) :
    host.backend.setLines d (.peer key created) (field "endpoint".toList value :: lines) =
      (host.parseEndpoint value).elim (d, false) (fun e =>
        host.backend.setLines (d.setEndpoint key e) (.peer key created) lines) := by
  have hother : host.backend.other "endpoint".toList value =
      (host.parseEndpoint value).map (fun e d key => d.setEndpoint key e) := by
    dsimp only [backend]
    rw [if_pos rfl]
  rw [setLines_other _ _ (by decide) (by decide), hother]
  cases host.parseEndpoint value <;> rfl

/-- A line about something else at the end. -/
theorem setLines_last (heq : '=' ∉ name) (hname : name ∉ "endpoint".toList :: names)
    (h : host.backend.setLines d (.peer key created) [field name value] = (d', true)) :
    d' = d := by
  rw [mem_cons, not_or] at hname
  have hother : host.backend.other name value =
      if host.accepts name value then some (fun d _ => d) else none := if_neg hname.1
  rw [setLines_other _ _ heq hname.2, hother] at h
  split at h <;> cases h
  rfl

theorem peerField_ignored {r : PeerTable E × Cursor}
    (h : host.backend.peerField d .ignored name value = some r) : r = (d, .ignored) := by
  unfold peerField at h
  split_ifs at h
  · obtain ⟨p, _, hr⟩ := map_eq_some_iff.mp h
    exact hr.symm
  · exact (some.inj h).symm
  · exact (some.inj h).symm
  · exact (some.inj h).symm
  · obtain ⟨f, _, hr⟩ := map_eq_some_iff.mp h
    exact hr.symm

/-- Lines about a peer that is ignored change nothing. -/
theorem setLines_ignored {lines : List (List Char)}
    (hlines : ∀ l ∈ lines, ∃ name value, l = field name value ∧ '=' ∉ name ∧
      name ≠ "public_key".toList)
    (h : host.backend.setLines d .ignored lines = (d', true)) : d' = d := by
  induction lines with
  | nil =>
    cases h
    rfl
  | cons l lines ih =>
    obtain ⟨name, value, rfl, heq, hname⟩ := hlines l mem_cons_self
    have hfield : host.backend.setField d .ignored name value =
        host.backend.peerField d .ignored name value := by
      unfold setField
      rw [if_neg hname]
    rw [setLines_field _ _ heq, hfield] at h
    obtain ⟨r, hr, h⟩ := exists_of_elim h
    rw [peerField_ignored hr] at h
    exact ih (fun l hl => hlines l (mem_cons_of_mem _ hl)) h

/-- A list of `allowed_ip` lines. -/
theorem setLines_allowAll {values lines : List (List Char)}
    (h : host.backend.setLines d (.peer key created) (values.map allowedLine ++ lines) =
      (d', true)) :
    ∃ ps, values.map (fun v => parsePrefix (String.ofList v)) = ps.map some ∧
      host.backend.setLines (d.allowAll key ps) (.peer key created) lines = (d', true) := by
  induction values generalizing d with
  | nil => exact ⟨[], rfl, h⟩
  | cons v values ih =>
    rw [map_cons, cons_append, setLines_allowed] at h
    obtain ⟨p, hp, h⟩ := exists_of_elim h
    obtain ⟨ps, hps, h⟩ := ih h
    exact ⟨p :: ps, by rw [map_cons, map_cons, hp, hps], h⟩

/-- The end of an operation: perhaps an `endpoint` line, and a line about something
else. -/
theorem setLines_end {endpoint : Option (List Char)} (heq : '=' ∉ name)
    (hname : name ∉ "endpoint".toList :: names)
    (h : host.backend.setLines d (.peer key created)
      ((endpoint.map (field "endpoint".toList)).toList ++ [field name value]) = (d', true)) :
    ∃ e, endpoint.map host.parseEndpoint = e.map some ∧ d' = d.withEndpoint key e := by
  cases endpoint with
  | none => exact ⟨none, rfl, setLines_last heq hname h⟩
  | some v =>
    rw [map_some, toList_some, singleton_append, setLines_endpoint] at h
    obtain ⟨e, he, h⟩ := exists_of_elim h
    exact ⟨some e, by rw [map_some, he]; rfl, setLines_last heq hname h⟩

section Operations

variable {values : List (List Char)} {endpoint : Option (List Char)} {name value : List Char}

/-- The lines of an operation that adds to a peer. -/
def addLines (key : Key) (values : List (List Char)) (endpoint : Option (List Char))
    (last : List Char) : List (List Char) :=
  publicKeyLine key :: (values.map allowedLine ++
    ((endpoint.map (field "endpoint".toList)).toList ++ [last]))

/-- The lines of an operation that updates a peer. -/
def updateLines (key : Key) (values : List (List Char)) (endpoint : Option (List Char))
    (last : List Char) : List (List Char) :=
  publicKeyLine key :: field "update_only".toList "true".toList ::
    ((if values = [] then [] else
        replaceLine ::
          values.map allowedLine) ++
      ((endpoint.map (field "endpoint".toList)).toList ++ [last]))

/-- The lines of an operation that removes a peer. -/
def removeLines (key : Key) : List (List Char) :=
  [publicKeyLine key, field "remove".toList "true".toList]

theorem oneLine_end (hendpoint : ∀ v ∈ endpoint, OneLine v) (hlast : OneLine (field name value)) :
    ∀ l ∈ (endpoint.map (field "endpoint".toList)).toList ++ [field name value], OneLine l := by
  refine forall_mem_append.mpr ⟨fun l hl => ?_, forall_mem_singleton.mpr hlast⟩
  obtain ⟨v, hv, rfl⟩ := map_eq_some_iff.mp (mem_toList.mp hl)
  exact oneLine_field (by decide) (hendpoint v hv)

variable (hkey : key.length = 32) (hown : key ≠ host.own) (hvalues : ∀ v ∈ values, OneLine v)
  (hendpoint : ∀ v ∈ endpoint, OneLine v) (hlast : OneLine (field name value)) (heq : '=' ∉ name)
  (hname : name ∉ "endpoint".toList :: names)

include hvalues hendpoint hlast

theorem oneLine_updateLines (key : Key) :
    ∀ l ∈ updateLines key values endpoint (field name value), OneLine l := by
  refine forall_mem_cons.mpr ⟨oneLine_publicKey key, forall_mem_cons.mpr ⟨by decide,
    forall_mem_append.mpr ⟨?_, oneLine_end hendpoint hlast⟩⟩⟩
  split
  · exact fun l hl => absurd hl not_mem_nil
  · exact forall_mem_cons.mpr ⟨by decide, oneLine_allowed hvalues⟩

include hkey hown heq hname

/-- **Adding to a peer**, which is made if need be. -/
theorem ipcSet_add
    (h : host.ipcSet d (['\n'].intercalate (addLines key values endpoint (field name value))) =
      some d') :
    ∃ ps e, values.map (fun v => parsePrefix (String.ofList v)) = ps.map some ∧
      endpoint.map host.parseEndpoint = e.map some ∧
      d' = ((d.withPeer key).allowAll key ps).withEndpoint key e := by
  unfold addLines at h
  rw [ipcSet_eq_some_iff, setLines_publicKey _ hkey hown] at h
  · obtain ⟨ps, hps, h⟩ := setLines_allowAll h
    obtain ⟨e, he, h⟩ := setLines_end heq hname h
    exact ⟨ps, e, hps, he, h⟩
  · exact forall_mem_cons.mpr ⟨oneLine_publicKey key,
      forall_mem_append.mpr ⟨oneLine_allowed hvalues, oneLine_end hendpoint hlast⟩⟩

/-- **Updating a peer** the device has. -/
theorem ipcSet_update (hmem : key ∈ d.keys)
    (h : host.ipcSet d (['\n'].intercalate (updateLines key values endpoint (field name value))) =
      some d') :
    ∃ ps e, values.map (fun v => parsePrefix (String.ofList v)) = ps.map some ∧
      endpoint.map host.parseEndpoint = e.map some ∧
      d' = ((if values = [] then d else d.disallowAll key).allowAll key ps).withEndpoint key e := by
  have hlines := oneLine_updateLines hvalues hendpoint hlast key
  unfold updateLines at h hlines
  have hpeer : host.backend.withPeer d key = d :=
    congrArg (fun keys => { d with keys := keys }) (insert_of_mem hmem)
  have hknown : decide (key ∉ host.backend.peers d) = false := decide_eq_false (not_not.mpr hmem)
  rw [ipcSet_eq_some_iff hlines, setLines_publicKey _ hkey hown, hknown, setLines_updateOnly,
    if_neg (by decide), hpeer] at h
  by_cases hnil : values = []
  · subst hnil
    rw [if_pos rfl, nil_append] at h
    obtain ⟨e, he, h⟩ := setLines_end heq hname h
    exact ⟨[], e, rfl, he, h⟩
  · rw [if_neg hnil] at h ⊢
    rw [cons_append, setLines_replace] at h
    obtain ⟨ps, hps, h⟩ := setLines_allowAll h
    obtain ⟨e, he, h⟩ := setLines_end heq hname h
    exact ⟨ps, e, hps, he, h⟩

/-- Updating a peer the device does not have: it is made and removed again. -/
theorem ipcSet_update_unknown (hmem : key ∉ d.keys)
    (h : host.ipcSet d (['\n'].intercalate (updateLines key values endpoint (field name value))) =
      some d') : d' = d.removePeer key := by
  have hlines := oneLine_updateLines hvalues hendpoint hlast key
  unfold updateLines at h hlines
  have hnew : decide (key ∉ host.backend.peers d) = true := decide_eq_true hmem
  rw [ipcSet_eq_some_iff hlines, setLines_publicKey _ hkey hown, hnew, setLines_updateOnly,
    if_pos rfl] at h
  refine (setLines_ignored ?_ h).trans (d.removePeer_withPeer key)
  refine forall_mem_append.mpr ⟨?_, forall_mem_append.mpr ⟨fun l hl => ?_,
    forall_mem_singleton.mpr ⟨name, value, rfl, heq, fun h => hname (by rw [h]; decide)⟩⟩⟩
  · split
    · exact fun l hl => absurd hl not_mem_nil
    · exact forall_mem_cons.mpr ⟨⟨_, _, rfl, by decide, by decide⟩,
        forall_mem_map.mpr fun v _ => ⟨_, _, rfl, by decide, by decide⟩⟩
  · obtain ⟨v, _, rfl⟩ := map_eq_some_iff.mp (mem_toList.mp hl)
    exact ⟨_, _, rfl, by decide, by decide⟩

omit hvalues hendpoint hlast heq hname

/-- **Removing a peer.** -/
theorem ipcSet_remove (d : PeerTable E) :
    host.ipcSet d (['\n'].intercalate (removeLines key)) =
      some (d.removePeer key) := by
  have hlines : ∀ l ∈ removeLines key, OneLine l :=
    forall_mem_cons.mpr ⟨oneLine_publicKey key, forall_mem_singleton.mpr (by decide)⟩
  unfold removeLines at hlines ⊢
  rw [ipcSet_eq_some_iff hlines, setLines_publicKey _ hkey hown, setLines_remove]
  exact Prod.ext (d.removePeer_withPeer key) rfl

end Operations

end Host

end WireGuard
