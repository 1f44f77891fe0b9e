import Mathlib.Data.List.AList
import Newt.Connect
import Newt.Lib.Runs

/-!
# Hole punching to the exit node

The client service keeps a hole punch manager that sends packets to the exit
nodes of its rotation.  Every connect that gets as far as a resolved endpoint
asks for a rotation of one node: the address of the endpoint, the relay port
and the public key of the message.

The manager refuses a new rotation while it runs, and of the handlers only
those that close the client service stop it.  `rotation_is_exit_node_iff` says
after which connects the rotation is the exit node of the message: those that
find the manager idle, or already punching to just that node.
`rotation_follows_connects_iff` says it of every connect of a run.
-/

namespace Newt.HolePunch

open Connect JsonDecode List Option Text HostPort Netip WgData

/-- `holepunch.ExitNode`. -/
structure ExitNode where
  endpoint : List Char
  relayPort : Int
  publicKey : String
  siteIds : List Int
  deriving DecidableEq, Repr

/-- `holepunch.Manager`: the map of exit nodes has their endpoints as keys. -/
structure Manager where
  running : Bool
  exitNodes : AList (fun _ : List Char => ExitNode)

namespace Manager

/-- `NewManager`. -/
def new : Manager :=
  { running := false, exitNodes := ∅ }

/-- The nodes that are punched to. -/
def rotation (m : Manager) : List ExitNode :=
  if m.running then m.exitNodes.entries.map Sigma.snd else []

/-- `StartMultipleExitNodes`. -/
def startMultipleExitNodes (m : Manager) (exitNodes : List ExitNode) : Except String Manager :=
  if m.running then .error "hole punch already running"
  else
    .ok { running := true
          exitNodes := exitNodes.foldl (fun nodes node => nodes.insert node.endpoint node) ∅ }

/-- `WireGuardService.StartHolepunch`; an error of the manager is logged only. -/
def startHolepunch (m : Manager) (publicKey : String) (endpoint : List Char) (relayPort : Int) :
    Manager :=
  let relayPort := if relayPort = 0 then 21820 else relayPort
  match m.startMultipleExitNodes
    [{ endpoint := endpoint, relayPort := relayPort, publicKey := publicKey, siteIds := [] }] with
  | .ok m' => m'
  | .error _ => m

theorem rotation_startHolepunch (m : Manager) (publicKey : String) (endpoint : List Char)
    (relayPort : Int) :
    (m.startHolepunch publicKey endpoint relayPort).rotation =
      if m.running then m.rotation
      else [{ endpoint := endpoint, relayPort := if relayPort = 0 then 21820 else relayPort,
              publicKey := publicKey, siteIds := [] }] := by
  unfold startHolepunch startMultipleExitNodes
  by_cases hrun : m.running
  · simp only [hrun, if_true]
  · simp only [hrun]
    rfl

end Manager

/-- `n.ready` and `n.wgService`, of which only the hole punch manager matters. -/
structure Clients where
  ready : Bool
  wgService : Option Manager

/-- The endpoints that are punched to. -/
def Clients.endpoints (c : Clients) : Option (List (List Char)) :=
  c.wgService.map (fun m => m.rotation.map ExitNode.endpoint)

/-- `clientsHandleNewtConnection`. -/
def Clients.handleNewtConnection (c : Clients) (publicKey : String) (endpoint : List Char)
    (relayPort : Int) : Clients :=
  if ¬ c.ready then c
  else
    match beforeLast ':' endpoint with
    | none => c
    | some host =>
      { c with wgService := c.wgService.map (fun m => m.startHolepunch publicKey host relayPort) }

structure Sys where
  session : Session
  clients : Clients

namespace Sys

/-- The client with its service set up, before the first message. -/
def init : Sys :=
  { session := Session.init, clients := { ready := true, wgService := some Manager.new } }

/-- `handleConnect`, as far as hole punching goes; `none` where the program ends. -/
def handleConnect (cfg : Settings) (w : World) (s : Sys) (msg : Json) : Option Sys :=
  match s.session.handleConnect cfg w msg with
  | (_, .panics) | (_, .exits _) => none
  | (session, .established r) =>
    let relayPort := session.wgData .relayPort
    let relayPort := if relayPort = 0 then 21820 else relayPort
    some { session := session
           clients := s.clients.handleNewtConnection (session.wgData .publicKey) r.text relayPort }
  | (session, _) => some { s with session := session }

end Sys

/-- The host part of an endpoint with this address. -/
def hostText (ipAddr : List Char) : List Char :=
  if ':' ∈ ipAddr then '[' :: ipAddr ++ [']'] else ipAddr

/-- The exit node of connect data, at a given endpoint. -/
def nodeAt (data : WgData) (endpoint : List Char) : ExitNode :=
  { endpoint := endpoint
    relayPort := if data .relayPort = 0 then 21820 else data .relayPort
    publicKey := data .publicKey
    siteIds := [] }

/-- The exit node that connect data names: the address of its endpoint. -/
def exitNode (w : World) (data : WgData) : Option ExitNode :=
  (resolveDomain w.lookupIP (data .endpoint).toList).map (fun r => nodeAt data (hostText r.ipAddr))

/-- The rotation is exactly the exit node of the message. -/
def Follows (w : World) (s : Sys) (msg : Json) : Prop :=
  ∃ m node, s.clients.wgService = some m ∧ exitNode w (fresh msg) = some node ∧
    m.rotation = [node]

/-- The endpoint has a port and the connect gets beyond it. -/
def Reaches (cfg : Settings) (w : World) (data : WgData) : Prop :=
  ∃ r, course cfg w data = .established r ∧ r.port ≠ []

/-- A running manager punches to the exit node of the message already.  For an
idle one the message fits and reaches the end of the connect, and the fields it
leaves out do not stand for another exit node. -/
def Retargets (cfg : Settings) (w : World) (data : WgData) (m : Manager) (msg : Json) : Prop :=
  ∃ node, exitNode w (fresh msg) = some node ∧
    if m.running then m.rotation = [node]
    else wgData.fits msg = true ∧ Reaches cfg w (data.unmarshal msg) ∧
      exitNode w (data.unmarshal msg) = some node

theorem exists_of_preferred {ips : List Netip.Addr} {t : List Char} (h : preferred ips = some t) :
    ∃ a, t = formatIP a := by
  unfold preferred at h
  split at h
  · next ip _ => exact ⟨ip, (some.inj h).symm⟩
  · obtain ⟨ip, _, rfl⟩ := map_eq_some_iff.mp h
    exact ⟨ip, rfl⟩

variable {r : Resolved} {cfg : Settings} {w : World} {msg : Json}

theorem resolveDomain_parts {lookupIP : List Char → Option (List Netip.Addr)} {domain : List Char}
    (h : resolveDomain lookupIP domain = some r) :
    (∃ a, r.ipAddr = formatIP a) ∧ ':' ∉ r.port := by
  unfold resolveDomain at h
  extract_lets domain₁ domain₂ domain₃ domain₄ at h
  have hport : ':' ∉ ((splitHostPort domain₄).getD (domain₄, [])).2 := by
    cases hsplit : splitHostPort domain₄ with
    | none => simp
    | some hp => exact (splitHostPort_parts hsplit).2.1
  revert h hport
  generalize (splitHostPort domain₄).getD (domain₄, []) = hp
  intro h hport
  dsimp only at h
  split at h
  · next ip _ =>
    cases h
    exact ⟨⟨ip, rfl⟩, hport⟩
  · split at h
    · cases h
    · obtain ⟨t, ht, rfl⟩ := map_eq_some_iff.mp h
      exact ⟨exists_of_preferred ht, hport⟩

theorem joinHostPort_eq (ipAddr port : List Char) :
    joinHostPort ipAddr port = hostText ipAddr ++ ':' :: port := by
  unfold joinHostPort hostText
  split_ifs
  · simp
  · rfl

/-- With a port, the part before the last colon is the host. -/
theorem beforeLast_text (hcolon : ':' ∉ r.port) (hport : r.port ≠ []) :
    beforeLast ':' r.text = some (hostText r.ipAddr) := by
  unfold Resolved.text
  rw [if_neg hport, joinHostPort_eq]
  exact beforeLast_append _ hcolon

/-- Without a port, what is cut off belongs to an IPv6 address, and what is left
is the host of no address. -/
theorem beforeLast_text_of_no_port {a b : Netip.Addr} {t : List Char}
    (hip : r.ipAddr = formatIP a) (hport : r.port = [])
    (h : beforeLast ':' r.text = some t) : t ≠ hostText (formatIP b) := by
  unfold Resolved.text at h
  rw [if_pos hport, hip] at h
  obtain ⟨rest, hrest, heq⟩ := exists_of_beforeLast h
  have hcount : 2 ≤ (formatIP a).count ':' := by
    apply two_le_count_formatIP
    rw [heq]
    simp
  have hcolon : ':' ∈ t := by
    rw [heq, count_append, count_cons_self, count_eq_zero_of_not_mem hrest] at hcount
    exact count_pos_iff.mp (by omega)
  have hbracket : '[' ∉ t := by
    intro hmem
    apply bracket_notMem_formatIP a
    rw [heq]
    exact mem_append_left _ hmem
  intro ht
  unfold hostText at ht
  split_ifs at ht with hb
  · apply hbracket
    rw [ht]
    exact mem_cons_self
  · exact hb (ht ▸ hcolon)

/-- A connect that is not discarded and after which the program goes on: it was
established and told the clients, or it left them alone. -/
theorem handleConnect_cases {s s' : Sys} (hd : ¬ s.session.Discards msg)
    (h : s.handleConnect cfg w msg = some s') :
    (∃ r, s.session.courseOf cfg w msg = .established r ∧
      s'.clients = s.clients.handleNewtConnection (s.session.wgData.unmarshal msg .publicKey) r.text
        (if s.session.wgData.unmarshal msg .relayPort = 0 then 21820
          else s.session.wgData.unmarshal msg .relayPort)) ∨
    ((∀ r, s.session.courseOf cfg w msg ≠ .established r) ∧ s'.clients = s.clients) := by
  unfold Sys.handleConnect Session.handleConnect at h
  rw [if_neg hd] at h
  cases hc : s.session.courseOf cfg w msg with
  | established r =>
    rw [hc] at h
    cases h
    exact .inl ⟨r, rfl, rfl⟩
  | panics | exits r =>
    rw [hc] at h
    cases h
  | _ =>
    rw [hc] at h
    cases h
    exact .inr ⟨fun r heq => (nomatch heq), rfl⟩

theorem courseOf_established_iff {s : Session} : s.courseOf cfg w msg = .established r ↔
      wgData.fits msg = true ∧ course cfg w (s.wgData.unmarshal msg) = .established r := by
  unfold Session.courseOf
  split_ifs with hfits
  · exact (and_iff_right hfits).symm
  · exact ⟨(nomatch ·), fun h => absurd h.1 hfits⟩

/-- The endpoint of an established connect was resolved. -/
theorem resolveDomain_of_established {data : WgData} (h : course cfg w data = .established r) :
    resolveDomain w.lookupIP (data .endpoint).toList = some r := by
  have hend : endpointCourse w data = .established r := by
    unfold course at h
    split_ifs at h <;> exact h
  unfold endpointCourse at hend
  split at hend
  · cases hend
  · split at hend
    · cases hend
    · next r' hr' =>
      split_ifs at hend
      obtain rfl := Course.established.inj hend
      exact hr'

/-- The rotation after the clients were told of a connect. -/
theorem rotation_handleNewtConnection {c : Clients} {m : Manager} (hready : c.ready = true)
    (hservice : c.wgService = some m) (data : WgData) (endpoint : List Char) :
    ∃ m', (c.handleNewtConnection (data .publicKey) endpoint
        (if data .relayPort = 0 then 21820 else data .relayPort)).wgService = some m' ∧
      m'.rotation =
        match beforeLast ':' endpoint with
        | none => m.rotation
        | some host => if m.running then m.rotation else [nodeAt data host] := by
  unfold Clients.handleNewtConnection
  rw [if_neg (by simp [hready])]
  cases beforeLast ':' endpoint with
  | none => exact ⟨m, hservice, rfl⟩
  | some host =>
    refine ⟨_, congrArg (Option.map _) hservice, ?_⟩
    rw [Manager.rotation_startHolepunch]
    -- The default of the relay port is put in twice.
    have hport : (if (if data .relayPort = 0 then 21820 else data .relayPort) = 0 then 21820
        else (if data .relayPort = 0 then 21820 else data .relayPort)) =
          if data .relayPort = 0 then 21820 else data .relayPort := by
      split_ifs <;> rfl
    rw [hport]
    rfl

/-- What a connect does to the rotation: nothing if the manager runs. -/
theorem rotation_handleConnect {s s' : Sys} {m : Manager} (hready : s.clients.ready = true)
    (hservice : s.clients.wgService = some m) (hd : ¬ s.session.Discards msg)
    (h : s.handleConnect cfg w msg = some s') :
    ∃ m', s'.clients.wgService = some m' ∧
      ((m'.rotation = m.rotation ∧ (m.running = true ∨ ∀ r host,
          s.session.courseOf cfg w msg = .established r → beforeLast ':' r.text ≠ some host)) ∨
        (m.running = false ∧ ∃ r host, s.session.courseOf cfg w msg = .established r ∧
          beforeLast ':' r.text = some host ∧
          m'.rotation = [nodeAt (s.session.wgData.unmarshal msg) host])) := by
  rcases handleConnect_cases hd h with ⟨r, hr, hclients⟩ | ⟨hno, hclients⟩
  · obtain ⟨m', hm', hrot⟩ :=
      rotation_handleNewtConnection hready hservice (s.session.wgData.unmarshal msg) r.text
    refine ⟨m', hclients ▸ hm', ?_⟩
    cases hhost : beforeLast ':' r.text with
    | none =>
      rw [hhost] at hrot
      refine .inl ⟨hrot, .inr (fun r' host hr' => ?_)⟩
      obtain rfl := Course.established.inj (hr.symm.trans hr')
      rw [hhost]
      exact some_ne_none _ ∘ Eq.symm
    | some host =>
      rw [hhost] at hrot
      cases hrun : m.running with
      | true =>
        rw [hrun] at hrot
        exact .inl ⟨hrot, .inl rfl⟩
      | false =>
        rw [hrun] at hrot
        exact .inr ⟨rfl, r, host, hr, hhost, hrot⟩
  · exact ⟨m, hclients ▸ hservice, .inl ⟨rfl, .inr (fun r _ hr => absurd hr (hno r))⟩⟩

/-- An idle manager gets the exit node of the data exactly if the endpoint has a
port. -/
theorem idle_node_iff {data : WgData} {host : List Char} {node : ExitNode}
    (hr : course cfg w data = .established r) (hhost : beforeLast ':' r.text = some host)
    (hnode : exitNode w (fresh msg) = some node) :
    nodeAt data host = node ↔ r.port ≠ [] ∧ exitNode w data = some node := by
  have hresolved := resolveDomain_of_established hr
  obtain ⟨⟨a, ha⟩, hcolon⟩ := resolveDomain_parts hresolved
  have hdata : exitNode w data = some (nodeAt data (hostText r.ipAddr)) := by
    unfold exitNode
    rw [hresolved]
    rfl
  by_cases hport : r.port = []
  · refine ⟨fun heq => ?_, fun hcond => absurd hport hcond.1⟩
    obtain ⟨q, hq, rfl⟩ := map_eq_some_iff.mp hnode
    obtain ⟨⟨b, hb⟩, _⟩ := resolveDomain_parts hq
    have hend : host = hostText q.ipAddr := congrArg ExitNode.endpoint heq
    rw [hb] at hend
    exact absurd hend (beforeLast_text_of_no_port ha hport hhost)
  · rw [beforeLast_text hcolon hport] at hhost
    cases hhost
    rw [hdata, some_inj]
    exact ⟨fun heq => ⟨hport, heq⟩, And.right⟩

/-- **The rotation after a connect**: it is the exit node of the message if and
only if the manager was idle and the connect reached it with an endpoint that
has a port, or it was punching to that node before. -/
theorem rotation_is_exit_node_iff (cfg : Settings) (w : World) (s s' : Sys) (m : Manager)
    (msg : Json) (hready : s.clients.ready = true) (hservice : s.clients.wgService = some m)
    (hd : ¬ s.session.Discards msg) (h : s.handleConnect cfg w msg = some s') :
    Follows w s' msg ↔ Retargets cfg w s.session.wgData m msg := by
  obtain ⟨m', hm', hcases⟩ := rotation_handleConnect hready hservice hd h
  have hfollows : Follows w s' msg ↔
      ∃ node, exitNode w (fresh msg) = some node ∧ m'.rotation = [node] := by
    refine ⟨?_, fun ⟨node, hnode, hrot⟩ => ⟨m', node, hm', hnode, hrot⟩⟩
    intro ⟨k, node, hk, hnode, hrot⟩
    obtain rfl := some.inj (hm'.symm.trans hk)
    exact ⟨node, hnode, hrot⟩
  rw [hfollows]
  refine exists_congr (fun node => and_congr_right (fun hnode => ?_))
  rcases hcases with ⟨hrot, hrun | hno⟩ | ⟨hrun, r, host, hr, hhost, hrot⟩
  · rw [hrot, if_pos hrun]
  · rw [hrot]
    cases hrun : m.running with
    | true => rw [if_pos rfl]
    | false =>
      have hempty : m.rotation = [] := by
        unfold Manager.rotation
        rw [hrun]
        rfl
      rw [hempty, if_neg (by decide)]
      refine ⟨(nomatch ·), ?_⟩
      intro ⟨hfits, ⟨r, hr, hport⟩, _⟩
      have hcolon := (resolveDomain_parts (resolveDomain_of_established hr)).2
      exact absurd (beforeLast_text hcolon hport)
        (hno r _ (courseOf_established_iff.mpr ⟨hfits, hr⟩))
  · obtain ⟨hfits, hr⟩ := courseOf_established_iff.mp hr
    rw [hrot, if_neg (by simp [hrun]), singleton_inj, idle_node_iff hr hhost hnode]
    refine ⟨fun ⟨hport, hdata⟩ => ⟨hfits, ⟨r, hr, hport⟩, hdata⟩, ?_⟩
    intro ⟨_, ⟨r', hr', hport⟩, hdata⟩
    obtain rfl := Course.established.inj (hr.symm.trans hr')
    exact ⟨hport, hdata⟩

/-- The client has a service that can be told of connects. -/
structure Sys.SetUp (s : Sys) : Prop where
  ready : s.clients.ready = true
  service : s.clients.wgService.isSome = true

theorem Sys.SetUp.handleConnect {s s' : Sys} (h : s.SetUp)
    (hs : s.handleConnect cfg w msg = some s') : s'.SetUp := by
  have htold : ∀ publicKey endpoint relayPort, ∀ c : Clients,
      c = s.clients.handleNewtConnection publicKey endpoint relayPort →
        c.ready = true ∧ c.wgService.isSome = true := by
    rintro publicKey endpoint relayPort c rfl
    unfold Clients.handleNewtConnection
    rw [if_neg (not_not.mpr h.ready)]
    split
    · exact ⟨h.ready, h.service⟩
    · exact ⟨h.ready, by simpa using h.service⟩
  by_cases hd : s.session.Discards msg
  · simp only [Sys.handleConnect, Session.handleConnect, hd, if_true] at hs
    cases hs
    exact ⟨h.ready, h.service⟩
  · rcases handleConnect_cases hd hs with ⟨r, -, hclients⟩ | ⟨-, hclients⟩
    · obtain ⟨hready, hservice⟩ := htold _ _ _ _ hclients
      exact ⟨hready, hservice⟩
    · exact ⟨hclients ▸ h.ready, hclients ▸ h.service⟩

/-- After a connect the rotation is the exit node of its message. -/
def FollowsNext (cfg : Settings) (w : World) (s : Sys) (msg : Json) : Prop :=
  ∀ s', s.handleConnect cfg w msg = some s' → Follows w s' msg

/-- `Retargets`, for the manager of the client. -/
def RetargetsNext (cfg : Settings) (w : World) (s : Sys) (msg : Json) : Prop :=
  ∃ m, s.clients.wgService = some m ∧ Retargets cfg w s.session.wgData m msg

/-- **The rotation along a run of connects** is the exit node of the message after each of
them if and only if each of them can set it. -/
theorem rotation_follows_connects_iff {cfg : Settings} {w : World} {s s' : Sys}
    {msgs : List Json} (hsetup : s.SetUp)
    (hd : Runs.Meets (Sys.handleConnect cfg w) (fun s msg => ¬ s.session.Discards msg) s msgs)
    (hrun : Runs.run (Sys.handleConnect cfg w) s msgs = some s') :
    Runs.Meets (Sys.handleConnect cfg w) (FollowsNext cfg w) s msgs ↔
      Runs.Meets (Sys.handleConnect cfg w) (RetargetsNext cfg w) s msgs := by
  induction msgs generalizing s with
  | nil => exact Iff.rfl
  | cons msg msgs ih =>
    obtain ⟨t, ht, hrest⟩ := Runs.run_cons.mp hrun
    obtain ⟨m, hm⟩ := isSome_iff_exists.mp hsetup.service
    have hone : FollowsNext cfg w s msg ↔ RetargetsNext cfg w s msg := by
      unfold FollowsNext RetargetsNext
      simp only [ht, hm, some.injEq, forall_eq', exists_eq_left']
      exact rotation_is_exit_node_iff cfg w s t m msg hsetup.ready hm hd.1 ht
    refine and_congr hone (forall₂_congr fun r hr => ?_)
    obtain rfl := some.inj (ht.symm.trans hr)
    exact ih (hsetup.handleConnect ht) (hd.2 t ht) hrest

/-- A connect to the exit node with this address. -/
def connectTo (ip : String) : Json :=
  .obj [("endpoint", .str (ip ++ ":51820")), ("relayPort", .num 21821),
    ("publicKey", .str "AAAAAAAAAAAAAAAAAAAAAAAAAAAAAAAAAAAAAAAAAAA="),
    ("serverIP", .str "100.89.128.1"), ("tunnelIP", .str "100.89.128.4")]

/-- The first connect of a program is followed, and so is a reconnect to its exit node. -/
theorem reconnect_followed :
    ∃ s, Runs.run (Sys.handleConnect netstackOnly offline) Sys.init
        [connectTo "203.0.113.5", connectTo "203.0.113.5"] = some s ∧
      Runs.Meets (Sys.handleConnect netstackOnly offline) (FollowsNext netstackOnly offline)
        Sys.init [connectTo "203.0.113.5", connectTo "203.0.113.5"] := by
  obtain ⟨s, hs⟩ : ∃ s, Runs.run (Sys.handleConnect netstackOnly offline) Sys.init
      [connectTo "203.0.113.5", connectTo "203.0.113.5"] = some s := ⟨_, rfl⟩
  refine ⟨s, hs, (rotation_follows_connects_iff ⟨rfl, rfl⟩ (by decide +kernel) hs).mpr ?_⟩
  refine ⟨⟨_, rfl, _, rfl, by decide +kernel, ⟨_, rfl, by decide +kernel⟩, rfl⟩, ?_⟩
  rintro t ht
  cases ht
  exact ⟨⟨_, rfl, _, rfl, rfl⟩, fun _ _ => trivial⟩

/-- A second connect, to another exit node, is not: the manager goes on punching
to the first one. -/
theorem second_exit_node_not_followed :
    ∃ s₁ s₂, Sys.init.handleConnect netstackOnly offline (connectTo "203.0.113.5") = some s₁ ∧
      s₁.handleConnect netstackOnly offline (connectTo "198.51.100.7") = some s₂ ∧
      s₂.clients.ready = true ∧ s₂.clients.endpoints = some ["203.0.113.5".toList] ∧
      ¬ Follows offline s₂ (connectTo "198.51.100.7") := by
  obtain ⟨s₁, hs₁, s₂, hs₂, hready, hends⟩ :
      ∃ s₁, Sys.init.handleConnect netstackOnly offline (connectTo "203.0.113.5") = some s₁ ∧
        ∃ s₂, s₁.handleConnect netstackOnly offline (connectTo "198.51.100.7") = some s₂ ∧
          s₂.clients.ready = true ∧ s₂.clients.endpoints = some ["203.0.113.5".toList] := by
    decide +kernel
  refine ⟨s₁, s₂, hs₁, hs₂, hready, hends, ?_⟩
  intro ⟨m, node, hm, hnode, hrot⟩
  have hnew : (exitNode offline (fresh (connectTo "198.51.100.7"))).map ExitNode.endpoint =
      some "198.51.100.7".toList := by decide +kernel
  rw [hnode, map_some, some_inj] at hnew
  unfold Clients.endpoints at hends
  rw [hm, map_some, hrot, map_singleton, hnew] at hends
  revert hends
  decide

end Newt.HolePunch
