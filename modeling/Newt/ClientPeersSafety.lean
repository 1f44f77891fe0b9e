import Mathlib.Data.List.Pairwise
import Newt.ClientPeers

/-!
# The device follows the peers that are asked for

`Agrees` of the WireGuard library, carried through the messages.  The loops of a
configuration and of a sync add peers one by one; `restrict` is the part of what is
asked for that has been reached.

* `peers_follow_desired` — in runs of messages that meet `KeepsPeers` the device
  has the peers that are asked for, and a sync leaves what a fresh configuration
  would;
* `sync_keeps_old_networks` — a sync that changes the networks of a peer.
-/

namespace Newt.Clients

open Netip WireGuard List Function Option

theorem length_of_parsePublicKey {s : String} {key : Key} (h : parsePublicKey s = some key) :
    key.length = 32 := by
  obtain ⟨_, hlen⟩ := filter_eq_some_iff.mp h
  exact of_decide_eq_true hlen

namespace Peers

/-- Texts that are parsed one by one give the networks of the list. -/
theorem filterMap_network {ips : List String} {ps : List Prefix}
    (h : (ips.map String.toList).map (fun v => parsePrefix (String.ofList v)) = ps.map some) :
    ips.filterMap (fun s => network s.toList) = ps.map Prefix.masked := by
  induction ips generalizing ps with
  | nil =>
    cases ps with
    | nil => rfl
    | cons p ps => cases h
  | cons s ips ih =>
    cases ps with
    | nil => cases h
    | cons p ps =>
      obtain ⟨hp, hps⟩ := List.cons.inj h
      have hnet : network s.toList = some p.masked := congrArg (Option.map Prefix.masked) hp
      simp only [filterMap_cons, hnet, ih hps, map_cons]

theorem oneLine_keepalive : OneLine keepaliveLine := by decide

theorem oneLine_givenEndpoint {endpoint : String} (h : OneLine endpoint.toList) :
    ∀ v ∈ givenEndpoint endpoint, OneLine v := by
  intro v hv
  unfold givenEndpoint at hv
  split at hv <;> cases hv
  exact h

theorem oneLine_ips {ips : List String} (h : ∀ s ∈ ips, OneLine s.toList) :
    ∀ v ∈ ips.map String.toList, OneLine v := by
  intro v hv
  obtain ⟨s, hs, rfl⟩ := mem_map.mp hv
  exact h s hs

theorem bind_of_map {o : Option (List Char)} {e : Option Endpoint}
    (h : o.map parseAddrPort = e.map some) : o.bind parseAddrPort = e := by
  cases o with
  | none =>
    cases e with
    | none => rfl
    | some e => cases h
  | some v =>
    cases e with
    | none => cases h
    | some e => exact some.inj h

section Device

variable {c : Client} {d d' : PeerTable Endpoint} {m : PeerMap Endpoint} {peer : Peer} {key : Key}

/-- One peer is added. -/
theorem agrees_addPeerToDevice (h : Agrees d m) (hkey : parsePublicKey peer.publicKey = some key)
    (husable : Usable c peer) (howner : Unowned d key (wanted peer).allowed)
    (hkept : ∀ v, m key = some v → Extends v (wanted peer)) {ok : Bool}
    (hstep : c.addPeerToDevice d peer = some (d', ok)) :
    ok = true ∧ Agrees d' (update m key (some (wanted peer))) := by
  obtain ⟨_, hown, hips, hend⟩ := husable
  unfold Client.addPeerToDevice at hstep
  rw [hkey] at hstep
  obtain ⟨d'', hset, hpair⟩ := map_eq_some_iff.mp hstep
  cases hpair
  have hne : key ≠ c.host.own := fun heq => hown (by rw [hkey, heq]; rfl)
  obtain ⟨ps, e, hps, he, rfl⟩ := Host.ipcSet_add (length_of_parsePublicKey hkey) hne
    (oneLine_ips hips) (oneLine_givenEndpoint hend) oneLine_keepalive (by decide) (by decide) hset
  have hnets : (wanted peer).allowed = ps.map Prefix.masked := filterMap_network hps
  have hendpoint : (wanted peer).endpoint = e := bind_of_map he
  refine ⟨rfl, ?_⟩
  have hgrown := h.grow (by rw [← hnets]; exact howner)
    (fun v hv => by rw [← hnets]; exact (hkept v hv).1)
  have hset := hgrown.withEndpoint (update_self ..) e
  rw [update_idem] at hset
  have hwant : (⟨ps.map Prefix.masked, e.or ((m key).bind Wanted.endpoint)⟩ : Wanted Endpoint) =
      wanted peer := by
    have hor : e.or ((m key).bind Wanted.endpoint) = e := by
      cases e with
      | some e => rfl
      | none =>
        cases hm : m key with
        | none => rfl
        | some v => exact (hkept v hm).2 hendpoint
    rw [hor, ← hnets, ← hendpoint]
  rw [← hwant]
  exact hset

/-- A peer is removed. -/
theorem agrees_removeKey (h : Agrees d m) (hkey : key.length = 32) (hown : key ≠ c.own)
    (hstep : c.host.ipcSet d (removeText key) = some d') :
    Agrees d' (update m key none) := by
  unfold removeText at hstep
  rw [Host.ipcSet_remove hkey hown] at hstep
  cases hstep
  exact h.removePeer key

/-- A loop that removes peers. -/
theorem agrees_removeKeys (h : Agrees d m) {keys : List Key}
    (hkeys : ∀ k ∈ keys, k.length = 32 ∧ k ≠ c.own) (hstep : c.removeKeys d keys = some d') :
    Agrees d' (fun k => if k ∈ keys then none else m k) := by
  induction keys generalizing d m with
  | nil =>
    cases hstep
    exact h
  | cons key keys ih =>
    unfold Client.removeKeys at hstep
    split at hstep
    · cases hstep
    · next hset =>
      obtain ⟨hlen, hown⟩ := hkeys key mem_cons_self
      have hrest := ih (agrees_removeKey h hlen hown hset)
        (fun k hk => hkeys k (mem_cons_of_mem _ hk)) hstep
      convert hrest using 1
      funext k
      simp only [mem_cons, or_comm (b := k ∈ keys), ite_or, update_apply]

end Device

/-- The part of a map for some keys. -/
def restrict (m : PeerMap Endpoint) (keys : List Key) : PeerMap Endpoint :=
  fun k => if k ∈ keys then m k else none

theorem update_restrict (m : PeerMap Endpoint) (key : Key) (keys : List Key) :
    update (restrict m keys) key (m key) = restrict m (key :: keys) := by
  funext k
  simp only [restrict, update_apply, mem_cons, ite_or]
  split_ifs with hk
  · rw [hk]
  · rfl
  · rfl

theorem restrict_eq_self {m : PeerMap Endpoint} {keys : List Key}
    (h : ∀ k, (m k).isSome = true → k ∈ keys) : restrict m keys = m := by
  funext k
  unfold restrict
  split
  · rfl
  · next hk =>
    cases hm : m k with
    | none => rfl
    | some v => exact absurd (h k (by rw [hm]; rfl)) hk

section Lists

variable {peers : List Peer} {peer : Peer} {key : Key}

theorem putPeer_apply (m : Key → Option Peer) (a : Peer) (key : Key) :
    putPeer m a key = if parsePublicKey a.publicKey = some key then some a else m key := by
  unfold putPeer
  cases parsePublicKey a.publicKey with
  | none => rfl
  | some k => simp only [update_apply, some.injEq, eq_comm]

/-- The peer of a key is the last one of the list that has it. -/
theorem desiredPeerMap_apply (peers : List Peer) (key : Key) : desiredPeerMap peers key =
    peers.reverse.find? (fun peer => parsePublicKey peer.publicKey = some key) := by
  have hfold : ∀ m : Key → Option Peer, peers.foldl putPeer m key =
      (peers.reverse.find? (fun peer => parsePublicKey peer.publicKey = some key)).or (m key) := by
    induction peers with
    | nil => exact fun m => rfl
    | cons a peers ih =>
      intro m
      rw [foldl_cons, ih, putPeer_apply, reverse_cons, find?_append,
        Option.or_assoc, find?_singleton]
      by_cases hkey : parsePublicKey a.publicKey = some key
      · rw [if_pos hkey, if_pos (decide_eq_true hkey), Option.some_or]
      · rw [if_neg hkey, if_neg (by rw [decide_eq_true_eq]; exact hkey), none_or]
  exact (hfold _).trans or_none

theorem mem_of_desiredPeerMap (h : desiredPeerMap peers key = some peer) :
    peer ∈ peers ∧ parsePublicKey peer.publicKey = some key := by
  rw [desiredPeerMap_apply] at h
  have hkey := find?_some h
  exact ⟨mem_reverse.mp (mem_of_find?_eq_some h), of_decide_eq_true hkey⟩

theorem isSome_desiredPeerMap_iff :
    (desiredPeerMap peers key).isSome = true ↔
      ∃ peer ∈ peers, parsePublicKey peer.publicKey = some key := by
  simp only [desiredPeerMap_apply, find?_isSome, mem_reverse, decide_eq_true_eq]

/-- The keys of a list of peers. -/
def publicKeys (peers : List Peer) : List Key :=
  peers.filterMap (fun peer => parsePublicKey peer.publicKey)

theorem mem_publicKeys_iff :
    key ∈ publicKeys peers ↔ (desiredPeerMap peers key).isSome = true := by
  unfold publicKeys
  rw [mem_filterMap, isSome_desiredPeerMap_iff]

theorem mem_desiredKeys_iff :
    key ∈ desiredKeys peers ↔ (desiredPeerMap peers key).isSome = true :=
  mem_dedup.trans mem_publicKeys_iff

theorem apart_symm {a b : Peer} (h : Apart a b) : Apart b a :=
  ⟨h.1.symm, fun p hp hmem => h.2 p hmem hp⟩

variable {c : Client}

theorem WellFormed.eq_or_apart (h : WellFormed c peers) {a b : Peer} (ha : a ∈ peers)
    (hb : b ∈ peers) : a = b ∨ Apart a b := by
  by_cases heq : a = b
  · exact .inl heq
  · have : Std.Symm Apart := ⟨fun _ _ => apart_symm⟩
    exact .inr (h.2.forall ha hb heq)

theorem WellFormed.nodup (h : WellFormed c peers) : (publicKeys peers).Nodup := by
  refine pairwise_filterMap.mpr (h.2.imp fun {a b} hapart k hk k' hk' heq => ?_)
  exact hapart.1 (hk.trans (heq ▸ hk'.symm))

/-- Keys are distinct, so the map has every peer of the list. -/
theorem WellFormed.desiredPeerMap_eq (h : WellFormed c peers) (hmem : peer ∈ peers)
    (hkey : parsePublicKey peer.publicKey = some key) : desiredPeerMap peers key = some peer := by
  obtain ⟨peer', hpeer'⟩ :=
    isSome_iff_exists.mp (isSome_desiredPeerMap_iff.mpr ⟨peer, hmem, hkey⟩)
  obtain ⟨hmem', hkey'⟩ := mem_of_desiredPeerMap hpeer'
  rcases h.eq_or_apart hmem' hmem with rfl | hapart
  · exact hpeer'
  · exact absurd (hkey'.trans hkey.symm) hapart.1

/-- Different peers of the map have no network in common. -/
theorem WellFormed.disjoint (h : WellFormed c peers) (hmem : peer ∈ peers)
    (hkey : parsePublicKey peer.publicKey = some key) {k : Key} {v : Wanted Endpoint}
    (hk : k ≠ key) (hv : desiredPeers peers k = some v) :
    ∀ p ∈ (wanted peer).allowed, p ∉ v.allowed := by
  obtain ⟨b, hb, rfl⟩ := map_eq_some_iff.mp hv
  obtain ⟨hmem', hkey'⟩ := mem_of_desiredPeerMap hb
  rcases h.eq_or_apart hmem hmem' with rfl | hapart
  · exact absurd (some.inj (hkey'.symm.trans hkey)) hk
  · exact hapart.2

variable {d d' : PeerTable Endpoint} {keys : List Key}

variable (hpeers : WellFormed c peers)

include hpeers

/-- The next peer of a list is added. -/
theorem agrees_addNext (h : Agrees d (restrict (desiredPeers peers) keys)) (hmem : peer ∈ peers)
    (hkey : parsePublicKey peer.publicKey = some key) (hnew : key ∉ keys) {ok : Bool}
    (hstep : c.addPeerToDevice d peer = some (d', ok)) :
    ok = true ∧ Agrees d' (restrict (desiredPeers peers) (key :: keys)) := by
  have hnone : restrict (desiredPeers peers) keys key = none := if_neg hnew
  have howner : Unowned d key (wanted peer).allowed := by
    intro p hp
    cases hown : d.owner p with
    | none => exact .inl rfl
    | some k =>
      obtain ⟨v, hv, hpv⟩ := (h.owner p k).mp hown
      by_cases hk : k = key
      · exact .inr (by rw [hk])
      · unfold restrict at hv
        split at hv
        · exact absurd hpv (hpeers.disjoint hmem hkey hk hv p hp)
        · cases hv
  have hadded := agrees_addPeerToDevice h hkey (hpeers.1 peer hmem) howner
    (fun v hv => by rw [hnone] at hv; cases hv) hstep
  have hwant : desiredPeers peers key = some (wanted peer) := by
    unfold desiredPeers
    rw [hpeers.desiredPeerMap_eq hmem hkey]
    rfl
  refine ⟨hadded.1, ?_⟩
  rw [← update_restrict, hwant]
  exact hadded.2

/-- The loop of a configuration. -/
theorem agrees_addPeers {rest : List Peer} (hrest : ∀ peer ∈ rest, peer ∈ peers)
    (hnodup : (publicKeys rest).Nodup) (hnew : ∀ k ∈ publicKeys rest, k ∉ keys)
    (h : Agrees d (restrict (desiredPeers peers) keys)) (hstep : c.addPeers d rest = some d') :
    Agrees d' (restrict (desiredPeers peers) ((publicKeys rest).reverse ++ keys)) := by
  induction rest generalizing d keys with
  | nil =>
    cases hstep
    exact h
  | cons peer rest ih =>
    obtain ⟨hmem, hrest⟩ := forall_mem_cons.mp hrest
    obtain ⟨key, hkey⟩ := isSome_iff_exists.mp (hpeers.1 peer hmem).1
    have hcons : publicKeys (peer :: rest) = key :: publicKeys rest := filterMap_cons_some hkey
    rw [hcons] at hnodup hnew ⊢
    obtain ⟨hnotin, hnodup⟩ := nodup_cons.mp hnodup
    obtain ⟨hkeyNew, hnew⟩ := forall_mem_cons.mp hnew
    rw [reverse_cons, append_assoc, singleton_append]
    unfold Client.addPeers at hstep
    split at hstep
    · cases hstep
    · next hadd => cases (agrees_addNext hpeers h hmem hkey hkeyNew hadd).1
    · next hadd =>
      refine ih hrest hnodup (fun k hk hin => ?_)
        (agrees_addNext hpeers h hmem hkey hkeyNew hadd).2 hstep
      rcases mem_cons.mp hin with rfl | hin
      · exact hnotin hk
      · exact hnew k hk hin

omit hpeers

/-- The loop of a sync that adds what is missing is one that adds the peers of its keys. -/
theorem addMissing_eq {order : List Key}
    (h : ∀ k ∈ order, (desiredPeerMap peers k).isSome = true) :
    publicKeys (order.filterMap (desiredPeerMap peers)) = order ∧
      ∀ d, c.addMissing (desiredPeerMap peers) d order =
        c.addPeers d (order.filterMap (desiredPeerMap peers)) := by
  induction order with
  | nil => exact ⟨rfl, fun _ => rfl⟩
  | cons key order ih =>
    obtain ⟨hsome, hrest⟩ := forall_mem_cons.mp h
    obtain ⟨peer, hpeer⟩ := isSome_iff_exists.mp hsome
    obtain ⟨-, hkey⟩ := mem_of_desiredPeerMap hpeer
    obtain ⟨hkeys, hloop⟩ := ih hrest
    rw [filterMap_cons_some hpeer]
    have hcons : publicKeys (peer :: order.filterMap (desiredPeerMap peers)) = key :: publicKeys _ :=
      filterMap_cons_some hkey
    refine ⟨by rw [hcons, hkeys], fun d => ?_⟩
    rw [Client.addMissing, Client.addPeers, hpeer]
    simp only [Client.addPeerToDevice, hkey]
    cases c.host.ipcSet d (addText key peer) with
    | none => rfl
    | some d => exact hloop d

include hpeers

/-- A fresh configuration. -/
theorem agrees_ensureWireguardPeers
    (hstep : c.ensureWireguardPeers PeerTable.empty peers = some d') :
    Agrees d' (desiredPeers peers) := by
  have hempty : Agrees PeerTable.empty (restrict (desiredPeers peers) []) := Agrees.empty
  have hagrees := agrees_addPeers hpeers (fun _ hmem => hmem) hpeers.nodup
    (fun _ _ => not_mem_nil) hempty hstep
  rw [restrict_eq_self] at hagrees
  · exact hagrees
  · intro k hk
    unfold desiredPeers at hk
    rw [isSome_map] at hk
    rw [append_nil, mem_reverse]
    exact mem_publicKeys_iff.mpr hk

omit hpeers

variable {m : PeerMap Endpoint}

/-- What is left after the removals of a sync, if no peer changes. -/
theorem agrees_kept (h : Agrees d m) {order : List Key}
    (horder : order.Perm (d.keys.filter (fun k => (desiredPeerMap peers k).isNone)))
    (hsame : ∀ peer ∈ peers, ∀ key ∈ parsePublicKey peer.publicKey, ∀ v ∈ m key,
      Unchanged v (wanted peer))
    (hkept : Agrees d' (fun k => if k ∈ order then none else m k)) :
    Agrees d' (restrict (desiredPeers peers) d.keys) := by
  have hmem : ∀ k, k ∈ order ↔ (m k).isSome = true ∧ (desiredPeerMap peers k).isSome = false := by
    intro k
    rw [horder.mem_iff, mem_filter, h.keys, isNone_iff_eq_none,
      isSome_eq_false_iff, isNone_iff_eq_none]
  refine hkept.congr ?_ ?_
  · intro k
    have hk := h.keys k
    unfold restrict desiredPeers
    by_cases hin : k ∈ d.keys
    · rw [if_pos hin, isSome_map]
      by_cases hrem : k ∈ order
      · rw [if_pos hrem, ((hmem k).mp hrem).2]
        rfl
      · rw [if_neg hrem, hk.mp hin]
        rw [hmem, not_and, Bool.not_eq_false] at hrem
        exact hrem (hk.mp hin)
    · have hnone : (m k).isSome = false := by
        rw [← Bool.not_eq_true, ← hk]
        exact hin
      rw [if_neg hin]
      split
      · rfl
      · exact hnone.symm
  · intro k w w' hw hw'
    split at hw
    · cases hw
    · unfold restrict at hw'
      split at hw'
      · obtain ⟨peer, hpeer, rfl⟩ := map_eq_some_iff.mp hw'
        obtain ⟨hpeers, hkey⟩ := mem_of_desiredPeerMap hpeer
        obtain ⟨hend, hsub, hsup⟩ := hsame peer hpeers k hkey w hw
        exact ⟨hend, fun p => ⟨hsub p, hsup p⟩⟩
      · cases hw'

/-- **A sync** that changes no peer it keeps. -/
theorem agrees_syncPeers (h : Agrees d m) (hvalid : ∀ k ∈ d.keys, k.length = 32 ∧ k ≠ c.own)
    (hpeers : WellFormed c peers)
    (hsame : ∀ peer ∈ peers, ∀ key ∈ parsePublicKey peer.publicKey, ∀ v ∈ m key,
      Unchanged v (wanted peer))
    {removeOrder addOrder : List Key}
    (hstep : c.syncPeers d peers removeOrder addOrder = some d') :
    Agrees d' (desiredPeers peers) := by
  unfold Client.syncPeers at hstep
  split at hstep
  · next horders =>
    obtain ⟨hremove, hadd⟩ := horders
    have hmem : ∀ k, k ∈ addOrder ↔ k ∈ desiredKeys peers ∧ k ∉ d.keys := by
      intro k
      rw [hadd.mem_iff, mem_filter, decide_eq_true_eq]
    split at hstep
    · cases hstep
    · next hremoved =>
      have hkept := agrees_removeKeys h
        (fun k hk => hvalid k (mem_of_mem_filter (hremove.subset hk))) hremoved
      obtain ⟨hkeys, hloop⟩ := addMissing_eq (c := c)
        (fun k hk => mem_desiredKeys_iff.mp ((hmem k).mp hk).1)
      rw [hloop] at hstep
      have hagrees := agrees_addPeers hpeers (fun peer hpeer => ?_) ?_ ?_
        (agrees_kept h hremove hsame hkept) hstep
      · rw [hkeys, restrict_eq_self] at hagrees
        · exact hagrees
        · intro k hk
          unfold desiredPeers at hk
          rw [isSome_map] at hk
          rw [mem_append, mem_reverse, hmem, mem_desiredKeys_iff]
          exact or_iff_not_imp_right.mpr fun hin => ⟨hk, hin⟩
      · obtain ⟨k, -, hk⟩ := mem_filterMap.mp hpeer
        exact (mem_of_desiredPeerMap hk).1
      · rw [hkeys]
        exact hadd.nodup_iff.mpr ((nodup_dedup _).filter _)
      · rw [hkeys]
        exact fun k hk => ((hmem k).mp hk).2
  · cases hstep

end Lists

section Update

variable {c : Client} {d d' : PeerTable Endpoint} {m : PeerMap Endpoint} {key : Key}
  {request : UpdatePeerRequest}

/-- The endpoint after an update. -/
theorem endpoint_wanted {e : Option Endpoint}
    (hspec : request.endpointSpecified = true ↔ request.endpoint ≠ "")
    (he : request.endpointValue.map parseAddrPort = e.map some) (v : Wanted Endpoint) :
    e.or v.endpoint = (request.wanted v).endpoint := by
  unfold UpdatePeerRequest.endpointValue at he
  unfold UpdatePeerRequest.wanted
  by_cases hend : request.endpoint = ""
  · have hnot : ¬request.endpointSpecified = true := fun hs => hspec.mp hs hend
    rw [if_neg hnot] at he
    rw [if_neg (not_not_intro hend), if_neg hnot]
    cases e with
    | none => rfl
    | some e => cases he
  · rw [if_pos (hspec.mpr hend), if_pos hend] at he
    rw [if_pos hend]
    cases e with
    | none => cases he
    | some e => exact (some.inj he).symm

theorem oneLine_endpointValue (h : OneLine request.endpoint.toList) :
    ∀ v ∈ request.endpointValue, OneLine v := by
  intro v hv
  unfold UpdatePeerRequest.endpointValue at hv
  split at hv <;> cases hv
  split
  · exact h
  · decide

/-- **An update.** -/
theorem agrees_handleUpdatePeer (h : Agrees d m)
    (hkey : parsePublicKey request.publicKey = some key) (hupdates : Updates c d key request)
    (hstep : c.handleUpdatePeer d request = some d') :
    Agrees d' (update m key ((m key).map request.wanted)) := by
  obtain ⟨hown, hips, hend, hsome, hspec, howner⟩ := hupdates
  have hlen := length_of_parsePublicKey hkey
  unfold Client.handleUpdatePeer at hstep
  rw [hkey] at hstep
  by_cases hmem : key ∈ d.keys
  · obtain ⟨v, hv⟩ := isSome_iff_exists.mp ((h.keys key).mp hmem)
    obtain ⟨ps, e, hps, he, rfl⟩ := Host.ipcSet_update hlen hown (oneLine_ips hips)
      (oneLine_endpointValue hend) oneLine_keepalive (by decide) (by decide) hmem hstep
    have hendpoint := endpoint_wanted hspec he v
    rw [hv, map_some]
    cases hgiven : request.allowedIPs with
    | none =>
      rw [hgiven] at hps
      cases ps with
      | nil =>
        have hwant : request.wanted v = { v with endpoint := e.or v.endpoint } := by
          rw [hendpoint]
          unfold UpdatePeerRequest.wanted
          rw [hgiven]
        rw [hwant]
        exact h.withEndpoint hv e
      | cons p ps => cases hps
    | some ips =>
      rw [hgiven] at hps howner
      have hnets := filterMap_network hps
      have hne : ¬(getD (some ips) []).map String.toList = [] := by
        intro hnil
        rw [map_eq_nil_iff] at hnil
        exact hsome (hgiven.trans (congrArg some hnil))
      have hwant : request.wanted v =
          ⟨ps.map Prefix.masked, e.or v.endpoint⟩ := by
        rw [hendpoint, ← hnets]
        unfold UpdatePeerRequest.wanted
        rw [hgiven]
        rfl
      have hset := (h.replace hv (by rw [← hnets]; exact howner)).withEndpoint
        (update_self ..) e
      rw [update_idem] at hset
      rw [if_neg hne, hwant]
      exact hset
  · have hnone : m key = none := by
      rw [h.keys, Bool.not_eq_true, isSome_eq_false_iff, isNone_iff_eq_none] at hmem
      exact hmem
    rw [Host.ipcSet_update_unknown hlen hown (oneLine_ips hips) (oneLine_endpointValue hend)
      oneLine_keepalive (by decide) (by decide) hmem hstep, hnone]
    exact h.removePeer key

end Update

/-- Keys that a set operation about a peer can be for. -/
def Valid (c : Client) (m : PeerMap Endpoint) : Prop :=
  ∀ k, (m k).isSome = true → k.length = 32 ∧ k ≠ c.own

theorem Valid.update {c : Client} {m : PeerMap Endpoint} (h : Valid c m) {key : Key}
    {w : Option (Wanted Endpoint)} (hkey : w.isSome = true → key.length = 32 ∧ key ≠ c.own) :
    Valid c (update m key w) := by
  intro k hk
  by_cases heq : k = key
  · subst heq
    rw [update_self] at hk
    exact hkey hk
  · rw [update_of_ne heq] at hk
    exact h k hk

theorem valid_desiredPeers {c : Client} {peers : List Peer} (h : WellFormed c peers) :
    Valid c (desiredPeers peers) := by
  intro k hk
  unfold desiredPeers at hk
  rw [isSome_map] at hk
  obtain ⟨peer, hmem, hkey⟩ := isSome_desiredPeerMap_iff.mp hk
  refine ⟨length_of_parsePublicKey hkey, ?_⟩
  intro hown
  exact (h.1 peer hmem).2.1 (by rw [hkey, hown])

/-- The device has the peers that are asked for, and they are not its own. -/
def Sound (c : Client) (s : Sys) : Prop :=
  ∀ d ∈ s.device, Agrees d s.desired ∧ Valid c s.desired

theorem sound_init (c : Client) : Sound c Sys.init := by
  intro d hd
  cases hd

section Step

variable {c : Client} {s s' : Sys}

variable (h : Sound c s)

include h

theorem Sound.onDevice {m : PeerMap Endpoint}
    {f : PeerTable Endpoint → Option (PeerTable Endpoint)}
    (hf : ∀ d ∈ s.device, ∀ d', Agrees d s.desired → Valid c s.desired → f d = some d' →
      Agrees d' m ∧ Valid c m)
    (hstep : Client.onDevice { s with desired := m } f = some s') : Sound c s' := by
  cases hdev : s.device with
  | none =>
    simp only [Client.onDevice, hdev] at hstep
    cases hstep
    intro d hd
    cases hd
  | some d =>
    simp only [Client.onDevice, hdev] at hstep
    obtain ⟨d', hd', rfl⟩ := map_eq_some_iff.mp hstep
    obtain ⟨hagrees, hvalid⟩ := h d hdev
    intro d'' hd''
    cases hd''
    exact hf d hdev d' hagrees hvalid hd'

theorem Sound.handleConfig {creation : Creation} {config : WgConfig}
    (hcond : KeepsPeers c s (.receiveConfig creation (some config)))
    (hstep : c.handleConfig s creation config = some s') : Sound c s' := by
  unfold Client.handleConfig at hstep
  cases haccept : acceptConfig s.pendingConfigChainId config with
  | none =>
    rw [haccept] at hstep
    cases hstep
    exact h
  | some pending =>
    obtain ⟨haddr, hcreated, hpeers⟩ := hcond (by rw [haccept]; rfl)
    have hdevice : createdDevice c.useNativeInterface s.device config creation =
        some (some PeerTable.empty, true) := by
      obtain ⟨p, hp⟩ := isSome_iff_exists.mp haddr
      unfold createdDevice
      rw [hp]
      cases creation <;> cases hnative : c.useNativeInterface <;> rw [hnative] at hcreated <;>
        first | rfl | cases hcreated
    rw [haccept] at hstep
    dsimp only at hstep
    rw [hdevice] at hstep
    dsimp only at hstep
    split at hstep
    · cases hstep
    · next hensure =>
      cases hstep
      intro d hd
      cases hd
      exact ⟨agrees_ensureWireguardPeers hpeers hensure, valid_desiredPeers hpeers⟩

theorem Sound.addPeer {peer : Peer} (hcond : KeepsPeers c s (.addPeer (some peer)))
    (hstep : c.step s (.addPeer (some peer)) = some s') : Sound c s' := by
  refine h.onDevice ?_ hstep
  intro d hd d' hagrees hvalid hmap
  obtain ⟨⟨d'', ok⟩, hadd, rfl⟩ := map_eq_some_iff.mp hmap
  cases hkey : parsePublicKey peer.publicKey with
  | none =>
    unfold Client.addPeerToDevice at hadd
    rw [hkey] at hadd
    cases hadd
    exact ⟨hagrees, hvalid⟩
  | some key =>
    obtain ⟨husable, howner, hextends⟩ := hcond d hd key hkey
    refine ⟨(agrees_addPeerToDevice hagrees hkey husable howner hextends hadd).2,
      hvalid.update (fun _ => ⟨length_of_parsePublicKey hkey, ?_⟩)⟩
    intro hown
    exact husable.2.1 (by rw [hkey, hown])

theorem Sound.updatePeer {request : UpdatePeerRequest}
    (hcond : KeepsPeers c s (.updatePeer (some request)))
    (hstep : c.step s (.updatePeer (some request)) = some s') : Sound c s' := by
  refine h.onDevice ?_ hstep
  intro d hd d' hagrees hvalid hupdate
  cases hkey : parsePublicKey request.publicKey with
  | none =>
    unfold Client.handleUpdatePeer at hupdate
    rw [hkey] at hupdate
    cases hupdate
    exact ⟨hagrees, hvalid⟩
  | some key =>
    have hupdates := hcond d hd key hkey
    exact ⟨agrees_handleUpdatePeer hagrees hkey hupdates hupdate,
      hvalid.update (fun _ => ⟨length_of_parsePublicKey hkey, hupdates.1⟩)⟩

theorem Sound.removePeer {publicKey : String}
    (hcond : KeepsPeers c s (.removePeer (some publicKey)))
    (hstep : c.step s (.removePeer (some publicKey)) = some s') : Sound c s' := by
  refine h.onDevice ?_ hstep
  intro d hd d' hagrees hvalid hremove
  unfold Client.removePeer at hremove
  cases hkey : parsePublicKey publicKey with
  | none =>
    rw [hkey] at hremove
    cases hremove
    exact ⟨hagrees, hvalid⟩
  | some key =>
    rw [hkey] at hremove
    have hown : key ≠ c.own := fun heq => hcond (by rw [hkey, heq])
    exact ⟨agrees_removeKey hagrees (length_of_parsePublicKey hkey) hown hremove,
      hvalid.update (fun hnone => nomatch hnone)⟩

theorem Sound.sync {peers : List Peer} {removeOrder addOrder : List Key}
    (hcond : KeepsPeers c s (.sync (some peers) removeOrder addOrder))
    (hstep : c.step s (.sync (some peers) removeOrder addOrder) = some s') : Sound c s' := by
  refine h.onDevice ?_ hstep
  intro d hd d' hagrees hvalid hsync
  obtain ⟨hpeers, hsame⟩ := hcond (by rw [hd]; rfl)
  exact ⟨agrees_syncPeers hagrees (fun k hk => hvalid k ((hagrees.keys k).mp hk)) hpeers
    hsame hsync, valid_desiredPeers hpeers⟩

/-- **Every message** that meets the condition keeps the device on what is asked
for. -/
theorem Sound.step {e : Event} (hcond : KeepsPeers c s e) (hstep : c.step s e = some s') :
    Sound c s' := by
  rcases e with chainId | ⟨creation, _ | config⟩ | (_ | peer) | (_ | request) | (_ | publicKey) |
    ⟨_ | peers, removeOrder, addOrder⟩
  · cases hstep
    exact h
  · cases hstep
    exact h
  · exact h.handleConfig hcond hstep
  · cases hstep
    exact h
  · exact h.addPeer hcond hstep
  · cases hstep
    exact h
  · exact h.updatePeer hcond hstep
  · cases hstep
    exact h
  · exact h.removePeer hcond hstep
  · cases hstep
    exact h
  · exact h.sync hcond hstep

end Step

/-- **The device's peers.**  In runs of messages that meet the condition the device
has exactly the peers that are asked for, and a next sync that meets it leaves the
device as a fresh configuration with its list would. -/
theorem peers_follow_desired (c : Client) (es : List Event) (s : Sys)
    (hmeets : Runs.Meets c.step (KeepsPeers c) Sys.init es)
    (hrun : Runs.run c.step Sys.init es = some s) :
    s.Follows ∧ ∀ peers removeOrder addOrder s' d d',
      KeepsPeers c s (.sync (some peers) removeOrder addOrder) →
      c.step s (.sync (some peers) removeOrder addOrder) = some s' → s'.device = some d →
      c.ensureWireguardPeers PeerTable.empty peers = some d' →
      (∀ k, k ∈ d.keys ↔ k ∈ d'.keys) ∧ d.owner = d'.owner ∧ d.endpoint = d'.endpoint := by
  have hsound : Sound c s :=
    Runs.run_invariant (fun h hcond hstep => Sound.step h hcond hstep) (sound_init c) hmeets hrun
  refine ⟨fun d hd => (hsound d hd).1, ?_⟩
  intro peers removeOrder addOrder s' d d' hcond hstep hd hfresh
  have hnext := (hsound.step hcond hstep d hd).1
  have hdesired : s'.desired = desiredPeers peers := by
    simp only [Client.step, Client.onDevice] at hstep
    split at hstep
    · cases hstep
      rfl
    · obtain ⟨_, _, rfl⟩ := map_eq_some_iff.mp hstep
      rfl
  rw [hdesired] at hnext
  have hdev : s.device.isSome = true := by
    cases hs : s.device with
    | none =>
      simp only [Client.step, Client.onDevice, hs] at hstep
      cases hstep
      cases hd
    | some _ => rfl
  exact hnext.same (agrees_ensureWireguardPeers (hcond hdev).1 hfresh)

/-- A service on a userspace interface. -/
def userspaceClient : Client :=
  { own := replicate 32 1, accepts := fun _ _ => true, useNativeInterface := false }

/-- The peer of the key of zeros. -/
def zeroPeer (ips : List String) : Peer :=
  { publicKey := "AAAAAAAAAAAAAAAAAAAAAAAAAAAAAAAAAAAAAAAAAAA="
    allowedIPs := ips
    endpoint := "192.0.2.1:51820" }

def zeroKey : Key := replicate 32 0

/-- The peer of the key of twos. -/
def twoPeer (ips : List String) : Peer :=
  { publicKey := "AgICAgICAgICAgICAgICAgICAgICAgICAgICAgICAgI=", allowedIPs := ips, endpoint := "" }

def configure (peers : List Peer) : Event :=
  .receiveConfig .created (some { ipAddress := "100.64.0.1/24", peers := peers })

/-- A peer is added, another one updated, and the first one removed. -/
def renewedPeers : List Event :=
  [configure [zeroPeer ["10.0.0.1/32"]], .addPeer (some (twoPeer ["10.0.1.0/24"])),
    .updatePeer (some ⟨(zeroPeer []).publicKey, some ["10.0.0.2/32"], "", false⟩),
    .removePeer (some (twoPeer []).publicKey)]

/-- The peers of a sync after them. -/
def syncedPeers : List Peer :=
  [zeroPeer ["10.0.0.2/32"], twoPeer ["10.0.1.0/24", "10.0.2.0/24"]]

theorem renewedPeers_follow :
    ∃ s s' d d', Runs.run userspaceClient.step Sys.init renewedPeers = some s ∧ s.Follows ∧
      userspaceClient.step s (.sync (some syncedPeers) [] [replicate 32 2]) = some s' ∧
      s'.device = some d ∧
      userspaceClient.ensureWireguardPeers PeerTable.empty syncedPeers = some d' ∧
      d.owner = d'.owner := by
  have hmeets : Runs.Meets userspaceClient.step (KeepsPeers userspaceClient) Sys.init
      renewedPeers := by
    decide +kernel
  obtain ⟨s, hrun, hcond, hdevice⟩ :
      ∃ s, Runs.run userspaceClient.step Sys.init renewedPeers = some s ∧
        KeepsPeers userspaceClient s (.sync (some syncedPeers) [] [replicate 32 2]) ∧
        ((userspaceClient.step s (.sync (some syncedPeers) [] [replicate 32 2])).bind
          Sys.device).isSome = true := by
    decide +kernel
  obtain ⟨d, hd⟩ := isSome_iff_exists.mp hdevice
  obtain ⟨s', hstep, hd⟩ := bind_eq_some_iff.mp hd
  have hfresh : (userspaceClient.ensureWireguardPeers PeerTable.empty syncedPeers).isSome =
      true := by
    decide +kernel
  obtain ⟨d', hd'⟩ := isSome_iff_exists.mp hfresh
  obtain ⟨hfollows, hsync⟩ := peers_follow_desired userspaceClient renewedPeers s hmeets hrun
  exact ⟨s, s', d, d', hrun, hfollows, hstep, hd, hd', (hsync _ _ _ s' d d' hcond hstep hd hd').2.1⟩

/-- The network of a peer moves with a sync. -/
def movedNetwork : List Event :=
  [configure [zeroPeer ["10.0.0.1/32"]], .sync (some [zeroPeer ["10.0.0.2/32"]]) [] []]

def oldNetwork : Prefix := .from4 0x0a000001 32

def newNetwork : Prefix := .from4 0x0a000002 32

/-- **A sync that changes the networks of a peer.**  It compares keys only: the
device keeps the old network and does not get the new one, where a fresh
configuration with the same list has the new one alone. -/
theorem sync_keeps_old_networks :
    ∃ s d d', Runs.run userspaceClient.step Sys.init movedNetwork = some s ∧ s.device = some d ∧
      d.owner oldNetwork = some zeroKey ∧ d.owner newNetwork = none ∧ ¬s.Follows ∧
      userspaceClient.ensureWireguardPeers PeerTable.empty [zeroPeer ["10.0.0.2/32"]] = some d' ∧
      d'.owner oldNetwork = none ∧ d'.owner newNetwork = some zeroKey := by
  obtain ⟨s, hrun, ⟨d, hd, hold, hnew⟩, hdesired⟩ :
      ∃ s, Runs.run userspaceClient.step Sys.init movedNetwork = some s ∧
        (∃ d, s.device = some d ∧ d.owner oldNetwork = some zeroKey ∧
          d.owner newNetwork = none) ∧
        (s.desired zeroKey).map Wanted.allowed = some [newNetwork] := by
    decide +kernel
  obtain ⟨d', hd', hold', hnew'⟩ : ∃ d',
      userspaceClient.ensureWireguardPeers PeerTable.empty [zeroPeer ["10.0.0.2/32"]] = some d' ∧
        d'.owner oldNetwork = none ∧ d'.owner newNetwork = some zeroKey := by
    decide +kernel
  refine ⟨s, d, d', hrun, hd, hold, hnew, ?_, hd', hold', hnew'⟩
  intro hfollows
  obtain ⟨w, hw, hallowed⟩ := map_eq_some_iff.mp hdesired
  have hmem : newNetwork ∈ w.allowed := by
    rw [hallowed]
    exact mem_cons_self
  rw [((hfollows d hd).owner newNetwork zeroKey).mpr ⟨w, hw, hmem⟩] at hnew
  cases hnew

end Peers

end Newt.Clients
