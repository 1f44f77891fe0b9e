import Newt.RemoteSubnets

/-!
# Device, routes and list agree with the server

`Synced` is what the handlers aim at: the strings in `activeRemoteSubnets` name
the networks the server asks for, the main peer of the device is allowed just
these and the server, and so are the routes of a native interface.

The handlers compare strings, while the device and the routes know networks, and
they give up half-way when something fails.  `Regular` says when that does no
harm: a connect is established or there is nothing to show, strings are plain,
and a string that goes does not take along a network that stays.

Main result: `subnets_stay_synced`, in every run of such steps the state stays
synced.
-/

namespace Newt.Subnets

open Connect JsonDecode Netip WireGuard List WgData Runs

/-- The list, the device and the routes show what the server asks for. -/
structure Synced (c : Client) (s : Sys) : Prop where
  named : ∀ a ∈ s.activeRemoteSubnets, (subnetNetwork a).isSome = true
  listed : ∀ p, p ∈ s.desired ↔ some p ∈ s.activeRemoteSubnets.map subnetNetwork
  allowed : ∀ d, s.dev = some d → ∃ key server, s.peerKey = some key ∧
    subnetNetwork s.serverRoute = some server ∧
    ∀ p, p ∈ d.allowedIPs key ↔ p = server ∨ p ∈ s.desired
  routed : c.cfg.useNativeMainInterface = true → s.dev.isSome = true →
    ∃ server, subnetNetwork s.serverRoute = some server ∧
      ∀ p, p ∈ s.routes ↔ p = server ∨ p ∈ s.desired

/-- A string in one line that the device and, if it is used, the route table
read as the same network. -/
def Plain (c : Client) (subnet : String) : Prop :=
  OneLine subnet.toList ∧ (subnetNetwork subnet).isSome = true ∧
    (c.cfg.useNativeMainInterface = true → routeNetwork subnet = subnetNetwork subnet)
  deriving Decidable

/-- The public key is the key of another peer. -/
def KeyUsable (c : Client) (publicKey : String) : Prop :=
  ∃ key, fixKey publicKey = some key ∧ key.length = 32 ∧ key ≠ c.own
  deriving Decidable

/-- Replacing the list loses no network: one that goes is not the server's, and
not one of a string that stays. -/
def Separate (c : Client) (s : Sys) (subnets : List String) : Prop :=
  c.cfg.useNativeMainInterface = true →
    ∀ a ∈ s.activeRemoteSubnets, a ∉ subnets →
      subnetNetwork a ≠ subnetNetwork s.serverRoute ∧
        ∀ b ∈ subnets, b ∈ s.activeRemoteSubnets → subnetNetwork b ≠ subnetNetwork a
  deriving Decidable

/-- When a connect that takes a course does no harm.  One that fails leaves no
device, so there must be nothing to show; one that fails after it made the device
leaves it without the server. -/
def Harmless (c : Client) (s : Sys) (msg : Json) : Course → Prop
  | .discarded => True
  | .undecodable => s.session.connected = true → c.cfg.useNativeMainInterface = true →
      s.activeRemoteSubnets = []
  | .noUTUN | .noTUN => networks (fresh msg .remoteExitNodeSubnets).toList = [] ∧
      (s.session.connected = true ∧ c.cfg.useNativeMainInterface = true ∨
        s.activeRemoteSubnets = [])
  | .panics | .badEndpoint | .exits _ => False
  | .established r => OneLine r.text ∧
      KeyUsable c (s.session.wgData.unmarshal msg .publicKey) ∧
      Plain c (s.session.wgData.unmarshal msg .serverIP ++ "/32") ∧
      -- The message replaces the subnets of the one before.
      (s.session.wgData.unmarshal msg .remoteExitNodeSubnets).toList =
        (fresh msg .remoteExitNodeSubnets).toList ∧
      ∀ a ∈ (fresh msg .remoteExitNodeSubnets).toList, Plain c a

/-- When a message does no harm. -/
def Regular (c : Client) (s : Sys) : Event → Prop
  | .connect w msg =>
    s.session.Discards msg ∨ Harmless c s msg (s.session.courseOf c.cfg w msg)
  | .add (some subnets) => s.dev.isSome = true ∧ ∀ a ∈ subnets, Plain c a
  | .update (some subnets) =>
    s.dev.isSome = true ∧ (∀ a ∈ subnets, Plain c a) ∧ Separate c s subnets
  | .sync (some subnets) =>
    (s.session.wgData .tunnelIP ≠ "" ∧ s.session.connected = true) ∧
      s.dev.isSome = true ∧ (∀ a ∈ subnets, Plain c a) ∧ Separate c s subnets
  | .remove (some subnets) =>
    (∀ a ∈ s.activeRemoteSubnets, ∀ b ∈ subnets, subnetNetwork a = subnetNetwork b →
      a ∈ subnets) ∧
    (c.cfg.useNativeMainInterface = true → ∀ b ∈ subnets,
      routeNetwork b = subnetNetwork b ∧ subnetNetwork b ≠ subnetNetwork s.serverRoute)
  | .add none | .update none | .remove none | .sync none | .register _ => True

instance (c : Client) (s : Sys) (msg : Json) (r : Course) : Decidable (Harmless c s msg r) := by
  unfold Harmless
  split <;> infer_instance

instance (c : Client) (s : Sys) (e : Event) : Decidable (Regular c s e) := by
  unfold Regular
  split <;> infer_instance

/-- The invariant: synced, with plain strings, and a device that was set up by an
established connect. -/
structure Sound (c : Client) (s : Sys) : Prop extends Synced c s where
  plain : ∀ a ∈ s.activeRemoteSubnets, Plain c a
  connected : s.dev.isSome = true → s.session.connected = true
  usable : s.dev.isSome = true →
    KeyUsable c (s.session.wgData .publicKey) ∧ Plain c s.serverRoute

theorem sound_init (c : Client) : Sound c Sys.init where
  named _ ha := (nomatch ha)
  listed _ := ⟨(nomatch ·), (nomatch ·)⟩
  allowed _ h := (nomatch h)
  routed _ h := (nomatch h)
  plain _ ha := (nomatch ha)
  connected h := (nomatch h)
  usable h := (nomatch h)

variable {subnets : List String} {p : Prefix} {routes : List Prefix} {msg : Json}

theorem mem_networks : p ∈ networks subnets ↔ some p ∈ subnets.map subnetNetwork := by
  unfold networks
  rw [mem_filterMap, mem_map]

theorem mem_addRoutes :
    p ∈ addRoutes routes subnets ↔ p ∈ routes ∨ some p ∈ subnets.map routeNetwork := by
  induction subnets generalizing routes with
  | nil => simp [addRoutes]
  | cons a subnets ih =>
    have hhead : p ∈ addRoute routes a ↔ p ∈ routes ∨ some p = routeNetwork a := by
      unfold addRoute
      cases routeNetwork a with
      | none => simp
      | some q =>
        dsimp only
        split
        · next hq =>
          refine ⟨.inl, fun h => h.elim id (fun heq => ?_)⟩
          rw [Option.some.inj heq]
          exact hq
        · rw [mem_cons, Option.some_inj]
          exact or_comm
    show p ∈ addRoutes (addRoute routes a) subnets ↔ _
    rw [ih, hhead, map_cons, mem_cons, or_assoc]

theorem mem_removeRoutes :
    p ∈ removeRoutes routes subnets ↔ p ∈ routes ∧ some p ∉ subnets.map routeNetwork := by
  induction subnets generalizing routes with
  | nil => simp [removeRoutes]
  | cons a subnets ih =>
    have hhead : p ∈ removeRoute routes a ↔ p ∈ routes ∧ some p ≠ routeNetwork a := by
      unfold removeRoute
      cases routeNetwork a with
      | none | some q => simp
    show p ∈ removeRoutes (removeRoute routes a) subnets ↔ _
    rw [ih, hhead, map_cons, mem_cons, not_or, and_assoc]

section Device

variable {c : Client} {key : Key} (hlen : key.length = 32) (hown : key ≠ c.own)
include hlen hown

theorem mem_allowSubnets {subnets : List String} (hplain : ∀ a ∈ subnets, Plain c a) (d : Device)
    (p : Prefix) :
    p ∈ (c.allowSubnets key subnets d).allowedIPs key ↔
      p ∈ d.allowedIPs key ∨ some p ∈ subnets.map subnetNetwork := by
  induction subnets generalizing d with
  | nil => simp [Client.allowSubnets]
  | cons a subnets ih =>
    obtain ⟨hline, hsome, _⟩ := hplain a mem_cons_self
    show p ∈ (c.allowSubnets key subnets
      (ipcSet c.own c.accepts d (addText key a))).allowedIPs key ↔ _
    unfold addText ipcText
    rw [ih (fun b hb => hplain b (mem_cons_of_mem _ hb)),
      allowed_set_add hlen hown d p (fun v hv => mem_singleton.mp hv ▸ hline)
        (fun v hv => mem_singleton.mp hv ▸ hsome)]
    simp only [map_cons, map_nil, mem_cons, not_mem_nil, or_false]
    exact or_assoc

theorem mem_replaceText {server : String} {subnets : List String} (hserver : Plain c server)
    (hplain : ∀ a ∈ subnets, Plain c a) (d : Device) (p : Prefix) :
    p ∈ (ipcSet c.own c.accepts d (replaceText key server subnets)).allowedIPs key ↔
      some p = subnetNetwork server ∨ some p ∈ subnets.map subnetNetwork := by
  have hlines : ∀ v ∈ server.toList :: subnets.map String.toList, OneLine v :=
    forall_mem_cons.mpr ⟨hserver.1, forall_mem_map.mpr (fun a ha => (hplain a ha).1)⟩
  have hvalues : ∀ v ∈ server.toList :: subnets.map String.toList, (network v).isSome = true :=
    forall_mem_cons.mpr
      ⟨hserver.2.1, forall_mem_map.mpr (fun a ha => (hplain a ha).2.1)⟩
  have hnetworks : network ∘ String.toList = subnetNetwork := by
    funext subnet
    rw [Function.comp_apply, subnetNetwork]
  unfold replaceText ipcText
  rw [allowed_set_replace hlen hown d p hlines hvalues, map_cons, mem_cons, map_map,
    hnetworks, subnetNetwork]

theorem mem_connectText {server : String} {endpoint : List Char} (hserver : Plain c server)
    (hendpoint : OneLine endpoint) (p : Prefix) :
    p ∈ (ipcSet c.own c.accepts ⟨[], []⟩
        (connectText c.privateKey key server endpoint)).allowedIPs key ↔
      some p = subnetNetwork server := by
  have hlines : ∀ l ∈ [endpointLine endpoint, keepaliveLine], OneLine l :=
    forall_mem_cons.mpr
      ⟨oneLine_field (by decide) hendpoint, forall_mem_singleton.mpr (by decide)⟩
  have hothers : ∀ l ∈ [endpointLine endpoint, keepaliveLine],
      ∃ name v, l = field name v ∧ '=' ∉ name ∧ name ∉ Backend.names :=
    forall_mem_cons.mpr
      ⟨⟨"endpoint".toList, endpoint, rfl, by decide, by decide⟩, forall_mem_singleton.mpr
        ⟨"persistent_keepalive_interval".toList, ['5'], rfl, by decide, by decide⟩⟩
  unfold connectText ipcText
  rw [allowed_set_up hlen hown _ _ c.privateKey_length hserver.1 hserver.2.1 hlines hothers]
  exact or_iff_right (nomatch ·)

end Device

/-- A list of networks is that of the server and the active subnets. -/
def Shows (s : Sys) (nets : List Prefix) : Prop :=
  ∀ p, p ∈ nets ↔
    some p = subnetNetwork s.serverRoute ∨ some p ∈ s.activeRemoteSubnets.map subnetNetwork

variable {c : Client} {s : Sys}

theorem KeyUsable.ne_empty {publicKey : String} (h : KeyUsable c publicKey) : publicKey ≠ "" := by
  intro hempty
  obtain ⟨key, hkey, hlen, _⟩ := h
  have hnil : fixKey "" = some [] := by decide
  rw [hempty, hnil] at hkey
  rw [← Option.some.inj hkey] at hlen
  cases hlen

theorem Synced.shows_allowed (h : Synced c s) {d : Device} {key : Key} (hd : s.dev = some d)
    (hkey : s.peerKey = some key) : Shows s (d.allowedIPs key) := by
  obtain ⟨k, server, hk, hserver, hallowed⟩ := h.allowed d hd
  obtain rfl := Option.some.inj (hk.symm.trans hkey)
  intro p
  rw [hallowed, h.listed, hserver, Option.some_inj]

theorem Synced.shows_routes (h : Synced c s) (hnative : c.cfg.useNativeMainInterface = true)
    (hdev : s.dev.isSome = true) : Shows s s.routes := by
  obtain ⟨server, hserver, hroutes⟩ := h.routed hnative hdev
  intro p
  rw [hroutes, h.listed, hserver, Option.some_inj]

/-- A state is sound if its device and its routes show the active subnets. -/
theorem sound_of_shows (hconnected : s.dev.isSome = true → s.session.connected = true)
    (husable : s.dev.isSome = true →
      KeyUsable c (s.session.wgData .publicKey) ∧ Plain c s.serverRoute)
    (hplain : ∀ a ∈ s.activeRemoteSubnets, Plain c a)
    (hlisted : ∀ p, p ∈ s.desired ↔ some p ∈ s.activeRemoteSubnets.map subnetNetwork)
    (hallowed : ∀ d key, s.dev = some d → s.peerKey = some key → Shows s (d.allowedIPs key))
    (hroutes : c.cfg.useNativeMainInterface = true → s.dev.isSome = true → Shows s s.routes) :
    Sound c s where
  named a ha := (hplain a ha).2.1
  listed := hlisted
  plain := hplain
  connected := hconnected
  usable := husable
  allowed d hd := by
    obtain ⟨⟨key, hkey, _⟩, hserver⟩ := husable (Option.isSome_of_mem hd)
    obtain ⟨server, hs⟩ := Option.isSome_iff_exists.mp hserver.2.1
    refine ⟨key, server, hkey, hs, fun p => ?_⟩
    rw [hallowed d key hd hkey p, hs, hlisted, Option.some_inj]
  routed hnative hdev := by
    obtain ⟨server, hs⟩ := Option.isSome_iff_exists.mp (husable hdev).2.2.1
    refine ⟨server, hs, fun p => ?_⟩
    rw [hroutes hnative hdev p, hs, hlisted, Option.some_inj]

theorem map_routeNetwork (hplain : ∀ a ∈ subnets, Plain c a)
    (hnative : c.cfg.useNativeMainInterface = true) :
    subnets.map routeNetwork = subnets.map subnetNetwork :=
  map_congr_left (fun a ha => (hplain a ha).2.2 hnative)

theorem Sound.handleAdd (h : Sound c s) (hreg : Regular c s (.add (some subnets))) :
    ∃ s', c.handleAdd s subnets = some s' ∧ Sound c s' := by
  obtain ⟨hdev, hplain⟩ := hreg
  obtain ⟨d, hd⟩ := Option.isSome_iff_exists.mp hdev
  obtain ⟨⟨key, hkey, hlen, hown⟩, hserver⟩ := h.usable hdev
  unfold Client.handleAdd
  rw [hd, show s.peerKey = some key from hkey]
  dsimp only
  split
  · next hnil =>
    refine ⟨_, rfl, ?_⟩
    rw [hnil, show networks [] = [] from rfl, append_nil, ← hd]
    exact h
  · refine ⟨_, rfl, sound_of_shows (fun _ => h.connected hdev)
      (fun _ => ⟨⟨key, hkey, hlen, hown⟩, hserver⟩) ?_ ?_ ?_ ?_⟩
    · intro a ha
      exact (mem_append.mp ha).elim (h.plain a) (hplain a)
    · intro p
      rw [mem_append, h.listed, mem_networks, map_append, mem_append]
    · intro d' key' hd' hkey' p
      cases hd'
      obtain rfl := Option.some.inj (hkey.symm.trans hkey')
      rw [mem_allowSubnets hlen hown hplain, h.shows_allowed hd hkey p, map_append,
        mem_append, or_assoc]
      rfl
    · intro hnative _ p
      rw [if_pos hnative, mem_addRoutes, map_routeNetwork hplain hnative,
        h.shows_routes hnative hdev p, map_append, mem_append, or_assoc]
      rfl

/-- Replacing the allowed IPs leaves the server and the given subnets. -/
theorem Sound.replaceAllowed (h : Sound c s) (hplain : ∀ a ∈ subnets, Plain c a) :
    ∃ dev, c.replaceAllowed s subnets = some dev ∧ dev.isSome = s.dev.isSome ∧
      ∀ d key, dev = some d → s.peerKey = some key →
        ∀ p, p ∈ d.allowedIPs key ↔
          some p = subnetNetwork s.serverRoute ∨ some p ∈ subnets.map subnetNetwork := by
  unfold Client.replaceAllowed
  cases hd : s.dev with
  | none => exact ⟨none, rfl, rfl, fun _ _ h => (nomatch h)⟩
  | some d =>
    obtain ⟨husable, hserver⟩ := h.usable (Option.isSome_of_mem hd)
    have hne := husable.ne_empty
    obtain ⟨key, hkey, hlen, hown⟩ := husable
    rw [show s.peerKey = some key from hkey]
    dsimp only
    rw [if_neg hne]
    refine ⟨_, rfl, rfl, fun d' key' hd' hkey' p => ?_⟩
    cases hd'
    cases hkey'
    exact mem_replaceText hlen hown hserver hplain d p

/-- A guard that asks for a list to be handed on makes no difference if the empty
list does nothing. -/
theorem guarded_eq {native : Bool} {xs : List String} {a b : List Prefix} (hnative : native = true)
    (hnil : xs = [] → a = b) : (if native = true ∧ xs ≠ [] then a else b) = a := by
  split
  · rfl
  · next h => exact (hnil (not_not.mp (fun hne => h ⟨hnative, hne⟩))).symm

/-- Removing the strings that go and adding those that come makes the routes
those of the new list. -/
theorem mem_updated {active subnets : List String} {server : Option Prefix}
    (hroutes : ∀ p, p ∈ routes ↔ some p = server ∨ some p ∈ active.map subnetNetwork)
    (hseparate : ∀ a ∈ active, a ∉ subnets → subnetNetwork a ≠ server ∧
      ∀ b ∈ subnets, b ∈ active → subnetNetwork b ≠ subnetNetwork a) (p : Prefix) :
    (p ∈ routes ∧ some p ∉ (active.filter (· ∉ subnets)).map subnetNetwork) ∨
        some p ∈ (subnets.filter (· ∉ active)).map subnetNetwork ↔
      some p = server ∨ some p ∈ subnets.map subnetNetwork := by
  simp only [mem_map, mem_filter, decide_eq_true_eq] at *
  refine ⟨fun h => ?_, fun h => ?_⟩
  · rcases h with ⟨hp, hstays⟩ | ⟨b, ⟨hb, _⟩, hbp⟩
    · rcases (hroutes p).mp hp with hp | ⟨a, ha, hap⟩
      · exact .inl hp
      · by_cases hmem : a ∈ subnets
        · exact .inr ⟨a, hmem, hap⟩
        · exact absurd ⟨a, ⟨ha, hmem⟩, hap⟩ hstays
    · exact .inr ⟨b, hb, hbp⟩
  · rcases h with hp | ⟨b, hb, hbp⟩
    · refine .inl ⟨(hroutes p).mpr (.inl hp), fun hgoes => ?_⟩
      obtain ⟨a, ⟨ha, hgone⟩, hap⟩ := hgoes
      exact (hseparate a ha hgone).1 (hap.trans hp)
    · by_cases hact : b ∈ active
      · refine .inl ⟨(hroutes p).mpr (.inr ⟨b, hact, hbp⟩), fun hgoes => ?_⟩
        obtain ⟨a, ⟨ha, hgone⟩, hap⟩ := hgoes
        exact (hseparate a ha hgone).2 b hb hact (hbp.trans hap.symm)
      · exact .inr ⟨b, ⟨hb, hact⟩, hbp⟩

theorem Sound.handleUpdate (h : Sound c s) (hreg : Regular c s (.update (some subnets))) :
    ∃ s', c.handleUpdate s subnets = some s' ∧ Sound c s' := by
  obtain ⟨hdev, hplain, hseparate⟩ := hreg
  obtain ⟨d, hd⟩ := Option.isSome_iff_exists.mp hdev
  obtain ⟨dev, hreplace, hsome, hallowed⟩ := h.replaceAllowed hplain
  unfold Client.handleUpdate
  rw [hd]
  dsimp only
  unfold Client.updateRemoteExitNodeSubnets
  rw [← hd, show c.replaceAllowed { s with desired := networks subnets } subnets = some dev
    from hreplace]
  refine ⟨_, rfl, sound_of_shows (fun _ => h.connected hdev) (fun _ => h.usable hdev) hplain
    (fun _ => mem_networks) hallowed ?_⟩
  intro hnative _ p
  have hgone : ∀ a ∈ s.activeRemoteSubnets.filter (· ∉ subnets), Plain c a :=
    fun a ha => h.plain a (mem_filter.mp ha).1
  have hcome : ∀ a ∈ subnets.filter (· ∉ s.activeRemoteSubnets), Plain c a :=
    fun a ha => hplain a (mem_filter.mp ha).1
  rw [guarded_eq hnative (fun hnil => by rw [hnil]; rfl),
    guarded_eq hnative (fun hnil => by rw [hnil]; rfl), mem_addRoutes, mem_removeRoutes,
    map_routeNetwork hgone hnative, map_routeNetwork hcome hnative]
  exact mem_updated (h.shows_routes hnative hdev) (hseparate hnative) p

theorem Sound.handleSync (h : Sound c s) (hreg : Regular c s (.sync (some subnets))) :
    ∃ s', c.handleSync s subnets = some s' ∧ Sound c s' := by
  obtain ⟨⟨hip, hconnected⟩, hreg⟩ := hreg
  unfold Client.handleSync
  rw [if_neg (not_or.mpr ⟨hip, by rw [hconnected]; decide⟩)]
  exact h.handleUpdate hreg

/-- The strings that stay name the networks that stay, if no string that goes has
an alias that stays. -/
theorem mem_remaining {active subnets : List String}
    (halias : ∀ a ∈ active, ∀ b ∈ subnets, subnetNetwork a = subnetNetwork b → a ∈ subnets)
    (p : Prefix) :
    some p ∈ (active.filter (· ∉ subnets)).map subnetNetwork ↔
      some p ∈ active.map subnetNetwork ∧ some p ∉ subnets.map subnetNetwork := by
  simp only [mem_map, mem_filter, decide_eq_true_eq]
  refine ⟨fun h => ?_, fun h => ?_⟩
  · obtain ⟨a, ⟨ha, hstays⟩, hap⟩ := h
    refine ⟨⟨a, ha, hap⟩, fun hgoes => ?_⟩
    obtain ⟨b, hb, hbp⟩ := hgoes
    exact hstays (halias a ha b hb (hap.trans hbp.symm))
  · obtain ⟨⟨a, ha, hap⟩, hgone⟩ := h
    exact ⟨a, ⟨ha, fun hmem => hgone ⟨a, hmem, hap⟩⟩, hap⟩

theorem Sound.handleRemove (h : Sound c s) (hreg : Regular c s (.remove (some subnets))) :
    ∃ s', c.handleRemove s subnets = some s' ∧ Sound c s' := by
  obtain ⟨halias, hnetworks⟩ := hreg
  have hplain : ∀ a ∈ s.activeRemoteSubnets.filter (· ∉ subnets), Plain c a :=
    fun a ha => h.plain a (mem_filter.mp ha).1
  obtain ⟨dev, hreplace, hsome, hallowed⟩ := h.replaceAllowed hplain
  unfold Client.handleRemove
  dsimp only
  split
  · next hnil =>
    refine ⟨_, rfl, ?_⟩
    rw [hnil, show networks [] = [] from rfl, filter_eq_self.mpr (by simp)]
    exact h
  · rw [hreplace]
    refine ⟨_, rfl, sound_of_shows (fun hdev => h.connected (hsome ▸ hdev))
      (fun hdev => h.usable (hsome ▸ hdev)) hplain ?_ hallowed ?_⟩
    · intro p
      rw [mem_remaining halias, mem_filter, decide_eq_true_eq, h.listed, mem_networks]
    · intro hnative hdev p
      have hmap : subnets.map routeNetwork = subnets.map subnetNetwork :=
        map_congr_left (fun b hb => (hnetworks hnative b hb).1)
      have hserver : some p = subnetNetwork s.serverRoute → some p ∉ subnets.map subnetNetwork := by
        intro hp hmem
        obtain ⟨b, hb, hbp⟩ := mem_map.mp hmem
        exact (hnetworks hnative b hb).2 (hbp.trans hp)
      rw [if_pos hnative, mem_removeRoutes, hmap, h.shows_routes hnative (hsome ▸ hdev) p,
        mem_remaining halias, or_and_right, and_iff_left_of_imp hserver]
      rfl

/-- A state without a device only has to list what is asked for. -/
theorem sound_of_closed (hdev : s.dev = none) (hplain : ∀ a ∈ s.activeRemoteSubnets, Plain c a)
    (hlisted : ∀ p, p ∈ s.desired ↔ some p ∈ s.activeRemoteSubnets.map subnetNetwork) :
    Sound c s := by
  have hno : s.dev.isSome ≠ true := by rw [hdev]; decide
  exact sound_of_shows (fun h => absurd h hno) (fun h => absurd h hno) hplain hlisted
    (fun d _ h => absurd (Option.isSome_of_mem h) hno) (fun _ h => absurd h hno)

/-- A tunnel that is closed has no device, and a native one no routes. -/
theorem closeWgTunnel_parts (c : Client) (s : Sys) : (c.closeWgTunnel s).dev = none ∧
    (c.closeWgTunnel s).desired = s.desired ∧ (c.closeWgTunnel s).activeRemoteSubnets =
      if c.cfg.useNativeMainInterface then [] else s.activeRemoteSubnets := by
  unfold Client.closeWgTunnel
  cases c.cfg.useNativeMainInterface <;> cases hd : s.dev <;> simp [hd]

/-- What is left when a connect begins: no device, and the subnets unless they
were those of a native interface. -/
theorem Sound.closed (h : Sound c s) {t : Sys}
    (ht : t = if s.session.connected then c.closeWgTunnel s else s) :
    t.dev = none ∧ t.desired = s.desired ∧ t.activeRemoteSubnets =
      if s.session.connected = true ∧ c.cfg.useNativeMainInterface = true then []
      else s.activeRemoteSubnets := by
  subst ht
  cases hconn : s.session.connected with
  | true =>
    simpa using closeWgTunnel_parts c s
  | false =>
    have hdev : s.dev.isSome ≠ true := by
      intro hsome
      rw [h.connected hsome] at hconn
      cases hconn
    simp only [Bool.false_eq_true, if_false, false_and]
    exact ⟨Option.not_isSome_iff_eq_none.mp hdev, trivial, trivial⟩

/-- A connect that gets no interface leaves nothing to show. -/
theorem sound_of_failed {t : Sys} {session : Session} (hdev : t.dev = none)
    (hactive : t.activeRemoteSubnets =
      if s.session.connected = true ∧ c.cfg.useNativeMainInterface = true then []
      else s.activeRemoteSubnets) (hharmless : Harmless c s msg .noTUN) :
    Sound c { t with
      session := session
      desired := networks (fresh msg .remoteExitNodeSubnets).toList } := by
  obtain ⟨hfresh, hclosed⟩ := hharmless
  have hnil : t.activeRemoteSubnets = [] := by
    rw [hactive]
    split
    · rfl
    · next hkept => exact hclosed.resolve_left hkept
  rw [hfresh]
  refine sound_of_closed hdev ?_ ?_
  · rw [hnil]
    exact fun _ ha => (nomatch ha)
  · rw [hnil]
    exact fun _ => ⟨(nomatch ·), (nomatch ·)⟩

/-- An established connect sets up what the message asks for. -/
theorem sound_of_established {r : Resolved} {session : Session} {key : Key}
    (hdata : session.wgData = s.session.wgData.unmarshal msg)
    (hconnected : session.connected = true) (hharmless : Harmless c s msg (.established r))
    (hkey : fixKey (session.wgData .publicKey) = some key) :
    Sound c { session := session
              dev := some (c.allowSubnets key (session.wgData .remoteExitNodeSubnets).toList
                (ipcSet c.own c.accepts ⟨[], []⟩ (connectText c.privateKey key
                  (session.wgData .serverIP ++ "/32") r.text)))
              routes := if c.cfg.useNativeMainInterface then
                  addRoutes (addRoutes [] [session.wgData .serverIP ++ "/32"])
                    (session.wgData .remoteExitNodeSubnets).toList
                else []
              activeRemoteSubnets := (session.wgData .remoteExitNodeSubnets).toList
              desired := networks (fresh msg .remoteExitNodeSubnets).toList } := by
  obtain ⟨hline, husable, hserver, hlist, hplain⟩ := hharmless
  rw [← hdata] at husable hserver hlist
  obtain ⟨k, hk, hlen, hown⟩ := husable
  obtain rfl := Option.some.inj (hk.symm.trans hkey)
  rw [hlist]
  refine sound_of_shows (fun _ => hconnected) (fun _ => ⟨⟨k, hk, hlen, hown⟩, hserver⟩) hplain
    (fun _ => mem_networks) ?_ ?_
  · intro d key' hd hkey' p
    cases hd
    obtain rfl := Option.some.inj (hk.symm.trans hkey')
    rw [mem_allowSubnets hlen hown hplain, mem_connectText hlen hown hserver hline]
    rfl
  · intro hnative _ p
    rw [if_pos hnative, mem_addRoutes, mem_addRoutes, map_routeNetwork hplain hnative,
      map_singleton, mem_singleton, hserver.2.2 hnative]
    simp only [not_mem_nil, false_or]
    rfl

theorem Sound.handleConnect {w : World} (h : Sound c s) (hreg : Regular c s (.connect w msg)) :
    ∃ s', c.handleConnect s w msg = some s' ∧ Sound c s' := by
  unfold Client.handleConnect Session.handleConnect
  by_cases hdiscards : s.session.Discards msg
  · rw [if_pos hdiscards]
    exact ⟨s, rfl, h⟩
  · rw [if_neg hdiscards]
    have hharmless := hreg.resolve_left hdiscards
    obtain ⟨hdev, hdesired, hactive⟩ := h.closed rfl
    generalize hcourse : s.session.courseOf c.cfg w msg = course at hharmless ⊢
    generalize (if s.session.connected then c.closeWgTunnel s else s) = t at hdev hdesired hactive ⊢
    cases course with
    | discarded => exact ⟨s, rfl, h⟩
    | undecodable =>
      have hkept : t.activeRemoteSubnets = s.activeRemoteSubnets := by
        rw [hactive]
        split
        · next hclosed => rw [hharmless hclosed.1 hclosed.2]
        · rfl
      refine ⟨_, rfl, sound_of_closed hdev ?_ ?_⟩
      · rw [hkept]
        exact h.plain
      · rw [hkept, hdesired]
        exact h.listed
    | noUTUN | noTUN => exact ⟨_, rfl, sound_of_failed hdev hactive hharmless⟩
    | panics | badEndpoint | exits r => exact hharmless.elim
    | established r =>
      obtain ⟨key, hkey, _⟩ := hharmless.2.1
      dsimp only [Sys.peerKey, Sys.serverRoute]
      rw [hkey]
      exact ⟨_, rfl, sound_of_established rfl rfl hharmless hkey⟩

/-- Every regular message is handled, and keeps the state sound. -/
theorem Sound.step (h : Sound c s) {e : Event} (hreg : Regular c s e) :
    ∃ s', c.step s e = some s' ∧ Sound c s' := by
  cases e with
  | connect w msg =>
    rw [Client.step]
    exact h.handleConnect hreg
  | add subnets =>
    cases subnets with
    | none => exact ⟨s, rfl, h⟩
    | some subnets => exact h.handleAdd hreg
  | update subnets =>
    cases subnets with
    | none => exact ⟨s, rfl, h⟩
    | some subnets => exact h.handleUpdate hreg
  | remove subnets =>
    cases subnets with
    | none => exact ⟨s, rfl, h⟩
    | some subnets => exact h.handleRemove hreg
  | sync subnets =>
    cases subnets with
    | none => exact ⟨s, rfl, h⟩
    | some subnets => exact h.handleSync hreg
  | register chainId =>
    exact ⟨_, rfl, ⟨h.named, h.listed, h.allowed, h.routed⟩, h.plain, h.connected, h.usable⟩

/-- A client with a native or a netstack interface. -/
def client (native : Bool) : Client where
  cfg := { netstackOnly with useNativeMainInterface := native }
  own := replicate 32 1
  privateKey := replicate 32 2
  privateKey_length := rfl
  accepts _ _ := true

/-- A connect message with these subnets. -/
def connectWithSubnets (subnets : List String) : Json :=
  connectWith [("serverIP", .str "100.89.128.1"),
    ("remoteExitNodeSubnets", .arr (subnets.map .str))]

/-- Every kind of message, and a second connect. -/
def changes : List Event :=
  [.connect offline (connectWithSubnets ["192.168.0.0/16"]), .add (some ["10.0.0.0/8"]),
    .update (some ["10.0.0.0/8", "172.16.0.0/12"]), .remove (some ["10.0.0.0/8"]),
    .sync (some ["192.168.7.0/24"]), .add none, .register "chain",
    .connect offline (connectWithSubnets ["10.1.0.0/16"])]

/-- The networks allowed to the main peer. -/
def Sys.mainAllowed (s : Sys) : Option (List Prefix) :=
  s.dev.bind (fun d => s.peerKey.map d.allowedIPs)

theorem Synced.mem_mainAllowed {nets : List Prefix} (h : Synced c s)
    (hnets : s.mainAllowed = some nets) (hp : p ∈ s.desired) : p ∈ nets := by
  obtain ⟨d, hd, hmap⟩ := Option.bind_eq_some_iff.mp hnets
  obtain ⟨key, hkey, rfl⟩ := Option.map_eq_some_iff.mp hmap
  rw [h.shows_allowed hd hkey p]
  exact .inr ((h.listed p).mp hp)

end Newt.Subnets
