import Newt.Connect

/-!
# What a connect leaves configured

A connect decodes its message into `n.wgData`, where everything an earlier
message set and this one does not mention is still there, and it adds the health
check targets of the result to the monitor, which keeps those it has.  The
monitor is reached only if the connect is established.

The desired configuration is the data and the set of monitored targets.  Two
fields of a monitored target are references it shares with the list it came
from, the header map and the redirect flag; they are observed in the list.

Main result: `configuration_from_message_iff`, for every two states and every
message that decodes: the configuration is the one the message describes, the
same from both, if and only if nothing in either state is stale.
-/

namespace Newt.Connect

open JsonDecode Function WgData Option

/-- The targets of `healthcheck.Monitor`, by their IDs. -/
abbrev Monitor := Finmap (fun _ : Int => Config)

namespace Monitor

/-- A default for a field that is empty. -/
def setDefault (f : ConfigField) [DecidableEq f.Value] (empty value : f.Value) (c : Config) :
    Config :=
  if c f = empty then update c f value else c

/-- The defaults of `addTargetUnsafe`. -/
def fieldDefaults (c : Config) : Config :=
  let c := setDefault .scheme "" "http" c
  let c := setDefault .mode "" "http" c
  let c := setDefault .method "" "GET" c
  let c := setDefault .interval 0 30 c
  let c := setDefault .unhealthyInterval 0 30 c
  let c := setDefault .timeout 0 5 c
  let c := setDefault .healthyThreshold 0 1 c
  setDefault .unhealthyThreshold 0 1 c

/-- The configuration `addTargetUnsafe` stores. -/
def withDefaults (c : Config) : Config :=
  let c := fieldDefaults c
  if (c .headers).keys = ∅ ∧ c .path ≠ "" then update c .headers ∅ else c

/-- `addTargetUnsafe`: a target with the same ID is replaced. -/
def addTargetUnsafe (m : Monitor) (c : Config) : Monitor :=
  m.insert (withDefaults c .id) (withDefaults c)

/-- `AddTargets`, which cannot fail. -/
def addTargets (m : Monitor) (configs : List Config) : Monitor :=
  configs.foldl addTargetUnsafe m

/-- A target without the fields it shares with the list. -/
def observe (c : Config) : Config :=
  update (update c .headers ∅) .followRedirects none

def monitored (m : Monitor) (id : Int) : Option Config :=
  (m.lookup id).map observe

end Monitor

structure ConfigSys where
  session : Session
  monitor : Monitor

/-- The desired configuration: the data as it is observed, and the targets that
are monitored. -/
structure Configuration where
  data : ∀ f : WgField, f.View
  monitored : Int → Option Config

namespace ConfigSys

def init : ConfigSys :=
  { session := Session.init, monitor := ∅ }

/-- `handleConnect`, as far as the data and the health monitor go; `none` where
the program ends. -/
def handleConnect (cfg : Settings) (w : World) (s : ConfigSys) (msg : Json) : Option ConfigSys :=
  match s.session.handleConnect cfg w msg with
  | (_, .panics) | (_, .exits _) => none
  | (session, .established _) =>
    some { session := session
           monitor := s.monitor.addTargets (session.wgData .healthCheckTargets).toList }
  | (session, _) => some { s with session := session }

def configuration (s : ConfigSys) : Configuration :=
  { data := wgData.view s.session.wgData, monitored := s.monitor.monitored }

end ConfigSys

/-- The health check targets a message lists. -/
def listed (msg : Json) : List Config :=
  (fresh msg .healthCheckTargets).toList

open Monitor

/-- The configuration a message describes, whatever there was before. -/
def desired (msg : Json) : Configuration :=
  { data := wgData.view (fresh msg)
    monitored := monitored (addTargets ∅ (listed msg)) }

/-- The connect of a message by itself runs to its end. -/
def Establishes (cfg : Settings) (w : World) (msg : Json) : Prop :=
  ∃ r, course cfg w (fresh msg) = .established r

/-- Nothing of the state shows after the message: what the message leaves out
is empty in the data, and the monitor has no target that the message does not
list; if the connect does not get to the monitor, it has just those. -/
def NothingStale (cfg : Settings) (w : World) (s : ConfigSys) (msg : Json) : Prop :=
  wgData.fresh s.session.wgData [msg] = true ∧
    (Establishes cfg w msg → ∀ id ∈ s.monitor.keys, id ∈ (listed msg).map (fun c => c .id)) ∧
    (¬ Establishes cfg w msg →
      s.monitor.monitored = monitored (addTargets ∅ (listed msg)))

theorem view_unmarshal_iff {data : WgData} {msg : Json} (hfits : wgData.fits msg = true) :
    wgData.view (data.unmarshal msg) = wgData.view (fresh msg) ↔
      wgData.fresh data [msg] = true :=
  wgData.view_eq_iff data [msg] (fun _ hj => List.mem_singleton.mp hj ▸ hfits)

theorem config_view (c : Config) : config.view c = c := by
  funext f
  cases f <;> rfl

/-- The fields that decide the course, and the list of health checks, are seen. -/
theorem of_view_eq {d d' : WgData} (h : wgData.view d = wgData.view d') :
    (∀ cfg w, course cfg w d = course cfg w d') ∧
      (d .healthCheckTargets).toList = (d' .healthCheckTargets).toList := by
  have hendpoint : d .endpoint = d' .endpoint := congrFun h .endpoint
  have hkey : d .publicKey = d' .publicKey := congrFun h .publicKey
  have htunnel : d .tunnelIP = d' .tunnelIP := congrFun h .tunnelIP
  have hchecks : (d .healthCheckTargets).toList.map config.view =
      (d' .healthCheckTargets).toList.map config.view := congrFun h .healthCheckTargets
  have hid : config.view = id := funext config_view
  rw [hid, List.map_id, List.map_id] at hchecks
  refine ⟨fun cfg w => ?_, hchecks⟩
  unfold course endpointCourse
  rw [hendpoint, hkey, htunnel]

namespace Monitor

theorem setDefault_of_ne {f g : ConfigField} [DecidableEq f.Value] (hne : g ≠ f)
    (empty value : f.Value) (c : Config) : setDefault f empty value c g = c g := by
  unfold setDefault
  split
  · exact update_of_ne hne _ _
  · rfl

theorem withDefaults_id (c : Config) : withDefaults c .id = c .id := by
  have hid : fieldDefaults c .id = c .id := by
    unfold fieldDefaults
    simp (disch := decide) only [setDefault_of_ne]
  unfold withDefaults
  split
  · rw [update_of_ne (by decide), hid]
  · exact hid

theorem addTargets_eq_insertAll (m : Monitor) (cs : List Config) :
    m.addTargets cs = insertAll (cs.map (fun c => (withDefaults c .id, withDefaults c))) m := by
  unfold addTargets insertAll
  rw [List.foldl_map]
  rfl

/-- The targets that are added hide the old ones exactly if they have all their
IDs. -/
theorem monitored_addTargets_iff {m : Monitor} {cs : List Config} :
    (m.addTargets cs).monitored = (addTargets ∅ cs).monitored ↔
      ∀ id ∈ m.keys, id ∈ cs.map (fun c => c .id) := by
  have hkeys : (cs.map (fun c => (withDefaults c .id, withDefaults c))).map Prod.fst =
      cs.map (fun c => c .id) := by
    rw [List.map_map]
    exact List.map_congr_left (fun c _ => withDefaults_id c)
  rw [addTargets_eq_insertAll, addTargets_eq_insertAll]
  refine ⟨fun heq id hid => ?_, fun h => ?_⟩
  · by_contra hout
    have hlookup := congrFun heq id
    unfold monitored at hlookup
    rw [lookup_insertAll_of_notMem (hkeys ▸ hout), lookup_insertAll_of_notMem (hkeys ▸ hout),
      Finmap.lookup_empty, map_none, map_eq_none_iff,
      Finmap.lookup_eq_none] at hlookup
    exact hlookup (Finmap.mem_keys.mp hid)
  · rw [insertAll_eq_iff.mpr (fun id hid => hkeys ▸ h id hid)]

end Monitor

namespace ConfigSys

variable {cfg : Settings} {w : World} {s s' : ConfigSys} {msg : Json}

/-- What a connect that decodes its message does: the data is the message on
top of the old data, and the monitor hears of it if it is established. -/
theorem handleConnect_parts (hfits : wgData.fits msg = true) (hd : ¬ s.session.Discards msg)
    (h : s.handleConnect cfg w msg = some s') :
    s'.session.wgData = s.session.wgData.unmarshal msg ∧
      ((∃ r, course cfg w (s.session.wgData.unmarshal msg) = .established r) ∧
          s'.monitor = s.monitor.addTargets
            (s.session.wgData.unmarshal msg .healthCheckTargets).toList ∨
        (¬ ∃ r, course cfg w (s.session.wgData.unmarshal msg) = .established r) ∧
          s'.monitor = s.monitor) := by
  have hcourse : s.session.courseOf cfg w msg =
      course cfg w (s.session.wgData.unmarshal msg) := if_pos hfits
  unfold handleConnect Session.handleConnect at h
  rw [if_neg hd, hcourse] at h
  cases hc : course cfg w (s.session.wgData.unmarshal msg) with
  | established r =>
    rw [hc] at h
    cases h
    exact ⟨rfl, Or.inl ⟨⟨r, rfl⟩, rfl⟩⟩
  | panics | exits r =>
    rw [hc] at h
    cases h
  | _ =>
    rw [hc] at h
    cases h
    exact ⟨rfl, Or.inr ⟨fun ⟨_, heq⟩ => (nomatch heq), rfl⟩⟩

/-- One history: the message's own configuration if and only if nothing is stale. -/
theorem configuration_eq_desired_iff (hfits : wgData.fits msg = true)
    (hd : ¬ s.session.Discards msg) (h : s.handleConnect cfg w msg = some s') :
    s'.configuration = desired msg ↔ NothingStale cfg w s msg := by
  obtain ⟨hdata, hmonitor⟩ := handleConnect_parts hfits hd h
  have hsplit : s'.configuration = desired msg ↔
      wgData.view (s.session.wgData.unmarshal msg) = wgData.view (fresh msg) ∧
        s'.monitor.monitored = monitored (addTargets ∅ (listed msg)) := by
    unfold configuration desired
    rw [Configuration.mk.injEq, hdata]
  rw [hsplit]
  unfold NothingStale
  rw [← view_unmarshal_iff hfits]
  refine and_congr_right (fun hview => ?_)
  -- The data looks the same, so the connect takes the course of the message itself.
  obtain ⟨hcourse, hlist⟩ := of_view_eq hview
  rw [hcourse] at hmonitor
  rcases hmonitor with ⟨hest, hmon⟩ | ⟨hest, hmon⟩
  · rw [hmon, hlist, show (fresh msg .healthCheckTargets).toList = listed msg from rfl,
      monitored_addTargets_iff]
    exact ⟨fun hids => ⟨fun _ => hids, fun hno => absurd hest hno⟩, fun hcond => hcond.1 hest⟩
  · rw [hmon]
    exact ⟨fun heq => ⟨fun hyes => absurd hyes hest, fun _ => heq⟩, fun hcond => hcond.2 hest⟩

/-- **The configuration after a connect**: two histories leave the one the
message describes if and only if nothing in either is stale. -/
theorem configuration_from_message_iff (cfg : Settings) (w₁ w₂ : World)
    (s₁ s₂ s₁' s₂' : ConfigSys) (msg : Json) (hfits : wgData.fits msg = true)
    (hd₁ : ¬ s₁.session.Discards msg) (hd₂ : ¬ s₂.session.Discards msg)
    (h₁ : s₁.handleConnect cfg w₁ msg = some s₁') (h₂ : s₂.handleConnect cfg w₂ msg = some s₂') :
    (s₁'.configuration = s₂'.configuration ∧ s₁'.configuration = desired msg) ↔
      NothingStale cfg w₁ s₁ msg ∧ NothingStale cfg w₂ s₂ msg := by
  rw [← configuration_eq_desired_iff hfits hd₁ h₁, ← configuration_eq_desired_iff hfits hd₂ h₂]
  refine ⟨fun ⟨hsame, hdesired⟩ => ⟨hdesired, hsame ▸ hdesired⟩, ?_⟩
  intro ⟨hfirst, hsecond⟩
  exact ⟨hfirst.trans hsecond.symm, hfirst⟩

/-- One health check target and one subnet. -/
def withCheck (path subnet : String) : Json :=
  connectWith [("healthCheckTargets", .arr [.obj [("id", .num 7), ("hcPath", .str path)]]),
    ("remoteExitNodeSubnets", .arr [.str subnet])]

/-- A message that sets what the one before it set replaces it all. -/
theorem full_message_replaces :
    ∃ s s₁ s₂, init.handleConnect netstackOnly offline (withCheck "/old" "10.0.0.0/8") = some s ∧
      init.handleConnect netstackOnly offline (withCheck "/new" "10.1.0.0/16") = some s₁ ∧
      s.handleConnect netstackOnly offline (withCheck "/new" "10.1.0.0/16") = some s₂ ∧
      s₁.configuration = s₂.configuration ∧
      s₁.configuration = desired (withCheck "/new" "10.1.0.0/16") := by
  obtain ⟨s, hs, hd, hfresh, hids, hsome⟩ :
      ∃ s, init.handleConnect netstackOnly offline (withCheck "/old" "10.0.0.0/8") = some s ∧
        ¬ s.session.Discards (withCheck "/new" "10.1.0.0/16") ∧
        wgData.fresh s.session.wgData [withCheck "/new" "10.1.0.0/16"] = true ∧
        (∀ id ∈ s.monitor.keys,
          id ∈ (listed (withCheck "/new" "10.1.0.0/16")).map (fun c => c .id)) ∧
        (s.handleConnect netstackOnly offline (withCheck "/new" "10.1.0.0/16")).isSome = true := by
    decide +kernel
  have hest : Establishes netstackOnly offline (withCheck "/new" "10.1.0.0/16") :=
    ⟨{ ipAddr := "203.0.113.5".toList, port := "51820".toList }, by decide +kernel⟩
  obtain ⟨s₂, hs₂⟩ := isSome_iff_exists.mp hsome
  obtain ⟨s₁, hs₁⟩ : ∃ s₁, init.handleConnect netstackOnly offline
      (withCheck "/new" "10.1.0.0/16") = some s₁ :=
    isSome_iff_exists.mp (by decide +kernel)
  refine ⟨s, s₁, s₂, hs, hs₁, hs₂, ?_⟩
  refine (configuration_from_message_iff netstackOnly offline offline init s s₁ s₂ _
    (by decide +kernel) (by decide +kernel) hd hs₁ hs₂).mpr ⟨?_, ?_⟩
  · exact ⟨by decide +kernel, fun _ => by decide +kernel, fun hno => absurd hest hno⟩
  · exact ⟨hfresh, fun _ => hids, fun hno => absurd hest hno⟩

/-- A message without subnets and health checks leaves those of the one before. -/
theorem absent_fields_survive :
    ∃ s s₁ s₂, init.handleConnect netstackOnly offline (withCheck "/old" "10.0.0.0/8") = some s ∧
      wgData.fits (connectWith []) = true ∧
      init.handleConnect netstackOnly offline (connectWith []) = some s₁ ∧
      s.handleConnect netstackOnly offline (connectWith []) = some s₂ ∧
      s₂.configuration.data .remoteExitNodeSubnets = ["10.0.0.0/8"] ∧
      (s₂.configuration.monitored 7).isSome = true ∧
      ¬ (s₁.configuration = s₂.configuration ∧ s₁.configuration = desired (connectWith [])) := by
  obtain ⟨s, hs, s₂, hs₂, hsubnets, hcheck⟩ :
      ∃ s, init.handleConnect netstackOnly offline (withCheck "/old" "10.0.0.0/8") = some s ∧
        ∃ s₂, s.handleConnect netstackOnly offline (connectWith []) = some s₂ ∧
          s₂.configuration.data .remoteExitNodeSubnets = ["10.0.0.0/8"] ∧
          (s₂.configuration.monitored 7).isSome = true := by
    decide +kernel
  obtain ⟨s₁, hs₁⟩ : ∃ s₁, init.handleConnect netstackOnly offline (connectWith []) = some s₁ :=
    isSome_iff_exists.mp (by decide +kernel)
  refine ⟨s, s₁, s₂, hs, by decide +kernel, hs₁, hs₂, hsubnets, hcheck, ?_⟩
  intro ⟨hsame, hdesired⟩
  have hnone : (desired (connectWith [])).data .remoteExitNodeSubnets = [] := by decide +kernel
  rw [← hdesired, hsame, hsubnets] at hnone
  cases hnone

end ConfigSys

end Newt.Connect
