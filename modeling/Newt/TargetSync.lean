import Newt.Lib.HostPort
import Newt.Lib.Runs
import Newt.Lib.Text
import Newt.ProxyManager

/-!
# Targets from the server

A target string is `listenPort:host:targetPort`.  `updateTargets` reads it with
`parseTargetString`, which knows bracketed IPv6 hosts, and may replace the
address by what the updown script prints.  `handleSync` brings the table of the
proxy manager to a list of such strings: it splits them at their colons itself,
compares the pieces with the table, and then adds and removes through
`updateTargets`, for which it prints its pieces back to strings.

The part of `handleSync` that is about targets is modelled.  What the updown
script prints, or its error, comes with each call, as the answer of the network
stack does; what it prints for a removal is only logged.

Main result: `entry_handleSync`, the entry a sync leaves for each port.
-/

namespace Newt.Proxy

open List Function ProxyManager HostPort Text

/-- The action argument of `updateTargets` and of the updown script. -/
inductive Action
  | add
  | remove
  | unknown (name : String)
  deriving DecidableEq, Repr

def Action.text : Action → String
  | .add => "add"
  | .remove => "remove"
  | .unknown name => name

def Proto.text : Proto → String
  | .tcp => "tcp"
  | .udp => "udp"
  | .unsupported name => name

/-- What command lines do at one call: the output, or an error. -/
abbrev Commands := List String → Except String String

/-- `config.UpdownScript`, and what commands do at each addition of a sync, which has
one for a port at most. -/
structure Updown where
  script : String
  exec : Proto → Int → Commands

/-- The lists of target strings of a sync message. -/
structure SyncTargets where
  tcp : List String
  udp : List String
  deriving DecidableEq, Repr

/-- `parseTargetString`; `none` is an error. -/
def parseTargetString (target : String) : Option (Int × String) :=
  match splitFirst ':' target.toList with
  | none => none
  | some (listenPortStr, remainder) =>
    match scanInt listenPortStr with
    | none => none
    | some listenPort =>
      if listenPort ≤ 0 ∨ listenPort > 65535 then none
      else
        match splitHostPort remainder with
        | none => none
        | some (host, targetPort) =>
          if host = [] ∨ targetPort = [] then none
          else some (listenPort, String.ofList (joinHostPort host targetPort))

/-- The way `handleSync` reads a target string. -/
def splitTarget (target : String) : Option (Int × String) :=
  match target.toList.splitOn ':' with
  | [listenPortStr, host, targetPort] =>
    (scanInt listenPortStr).map fun port =>
      (port, String.ofList (host ++ ':' :: targetPort))
  | _ => none

/-- `fmt.Sprintf("%d:%s", port, target)`. -/
def targetStr (port : Int) (target : String) : String :=
  String.ofList (formatInt port ++ ':' :: target.toList)

/-- A map from ports to addresses with the strings that a parser accepts; of two
strings for one port the later one counts. -/
def collect (parse : String → Option (Int × String)) (targets : List String) (m : PortMap) :
    PortMap :=
  targets.foldl
    (fun m t =>
      match parse t with
      | some (port, target) => m.insert port target
      | none => m) m

/-- `desiredTCP` and `desiredUDP`. -/
def desiredTargets (targets : List String) : PortMap :=
  collect splitTarget targets ∅

section Script

variable (script : String) (exec : Commands) (proto : Proto) (target : String)

def executeUpdownScript (action : Action) : Except String String :=
  if script = "" then .ok target
  else
    match fields script.toList with
    | [] => .error "invalid updown script command"
    | parts =>
      match exec (parts.map String.ofList ++ [action.text, proto.text, target]) with
      | .error err => .error err
      | .ok output =>
        let newTarget := String.ofList (trimSpace output.toList)
        if newTarget ≠ "" then .ok newTarget else .ok target

/-- The address that is added for a parsed target. -/
def processedTarget : String :=
  if script ≠ "" then
    match executeUpdownScript script exec proto target .add with
    | .error _ => target
    | .ok newTarget => if newTarget ≠ "" then newTarget else target
  else target

end Script

/-- The address that a sync adds for a port. -/
def Updown.processed (u : Updown) (proto : Proto) (port : Int) (target : String) : String :=
  processedTarget u.script (u.exec proto port) proto target

section Sync

variable (u : Updown) (tunnelIP : String) (proto : Proto)

/-- `updateTargets`: each string comes with the answer of the stack to its listen and
with what commands do when the script is run for it. -/
def updateTargets (script : String) (action : Action) :
    ProxyManager → List (String × Option Int × Commands) →
      Option (ProxyManager × Option ManagerError)
  | pm, [] => some (pm, none)
  | pm, (t, listen, exec) :: ts =>
    match parseTargetString t with
    | none => updateTargets script action pm ts
    | some (port, target) =>
      match action with
      | .add =>
        match (pm.removeTarget proto tunnelIP port).1.addTarget proto tunnelIP port
            (processedTarget script exec proto target) listen with
        | none => none
        | some (pm', _) => updateTargets script action pm' ts
      | .remove =>
        match pm.removeTarget proto tunnelIP port with
        | (pm', some err) => some (pm', some err)
        | (pm', none) => updateTargets script action pm' ts
      | .unknown _ => updateTargets script action pm ts

/-- `updateTargets` for one printed target, as `handleSync` calls it. -/
def updateTarget (action : Action) (pm : ProxyManager) (port : Int) (target : String)
    (listen : Option Int) : Option ProxyManager :=
  (updateTargets tunnelIP proto u.script action pm
    [(targetStr port target, listen, u.exec proto port)]).map Prod.fst

variable (current : Option PortMap) (desired : PortMap)

/-- The loop body that removes a port that is not desired. -/
def removeMissing (pm : ProxyManager) (port : Int) : Option ProxyManager :=
  match desired.lookup port, current.bind fun m => m.lookup port with
  | none, some target => updateTarget u tunnelIP proto .remove pm port target none
  | _, _ => some pm

/-- The loop body that adds a desired port or changes its address. -/
def addMissing (pm : ProxyManager) (e : Int × Option Int) : Option ProxyManager :=
  match desired.lookup e.1, current.bind fun m => m.lookup e.1 with
  | none, _ => some pm
  | some target, none => updateTarget u tunnelIP proto .add pm e.1 target e.2
  | some target, some currentTarget =>
    if currentTarget = target then some pm
    else
      (updateTarget u tunnelIP proto .remove pm e.1 currentTarget none).bind fun pm =>
        updateTarget u tunnelIP proto .add pm e.1 target e.2

/-- The orders of the two ranges, with the answers of the stack. -/
structure SyncOrder where
  remove : List Int
  add : List (Int × Option Int)
  deriving DecidableEq, Repr

/-- The two loops for one protocol. -/
def syncTargets (order : SyncOrder) (pm : ProxyManager) : Option ProxyManager :=
  if order.remove.Perm ((current.map AList.keys).getD []) ∧
      (order.add.map Prod.fst).Perm desired.keys then
    (Runs.run (removeMissing u tunnelIP proto current desired) pm order.remove).bind fun pm =>
      Runs.run (addMissing u tunnelIP proto current desired) pm order.add
  else none

/-- The targets part of `handleSync` of a client that has a proxy manager. -/
def handleSync (targets : SyncTargets) (tcpOrder udpOrder : SyncOrder) (pm : ProxyManager) :
    Option ProxyManager :=
  if tunnelIP = "" then some pm
  else
    let currentTCP := pm.tcp.targets.lookup tunnelIP
    let currentUDP := pm.udp.targets.lookup tunnelIP
    (syncTargets u tunnelIP .tcp currentTCP (desiredTargets targets.tcp) tcpOrder pm).bind
      (syncTargets u tunnelIP .udp currentUDP (desiredTargets targets.udp) udpOrder)

end Sync

/-! ## What the calls do to the entries -/

namespace ProxyManager

/-- The side of a protocol. -/
def side (pm : ProxyManager) : Proto → Side
  | .tcp => pm.tcp
  | .udp => pm.udp
  | .unsupported _ => ⟨∅, []⟩

/-- The address recorded for a protocol, a listen IP and a port. -/
def entry (pm : ProxyManager) (k : Proto × String × Int) : Option String :=
  (pm.side k.1).targets.entry k.2.1 k.2.2

end ProxyManager

theorem entry_removeTargetSide (s : Side) (listenIP ip : String) (port p : Int) :
    (removeTargetSide s listenIP port).1.targets.entry ip p =
      if ip = listenIP ∧ p = port then none else s.targets.entry ip p := by
  unfold removeTargetSide
  cases hlookup : s.targets.lookup listenIP with
  | none =>
    by_cases heq : ip = listenIP ∧ p = port
    · rw [if_pos heq, heq.1]
      simp [Targets.entry, hlookup]
    · rw [if_neg heq]
  | some ports => exact Targets.entry_delete hlookup port ip p

/-- A listener is opened when a target is added. -/
def ProxyManager.Listens (pm : ProxyManager) (listen : Option Int) : Prop :=
  pm.running = true ∧ pm.configured = true ∧ listen.isSome = true
  deriving Decidable

/-- What `AddTarget` leaves of a side: the address is recorded, also when the listen
fails, and a listener is new if there is one. -/
theorem addTargetSide_eq {pm : ProxyManager} {s : Side} {listenIP addr : String} {port : Int}
    {listen : Option Int} {r : Side × Option ManagerError}
    (h : pm.addTargetSide s listenIP port addr listen = some r) :
    r.1.targets = s.targets.add listenIP port addr ∧
      if pm.Listens listen then
        ∃ bound, s.Bindable port bound ∧
          r.1.listeners = s.listeners ++ [{ port := bound, targetAddr := addr }]
      else r.1.listeners = s.listeners := by
  simp only [addTargetSide, startTarget] at h
  split_ifs at h with hrunning hconfigured
  · cases listen with
    | none =>
      cases h
      simp [Listens]
    | some bound =>
      dsimp only at h
      split_ifs at h with hbind
      cases h
      rw [if_pos ⟨hrunning, hconfigured, rfl⟩]
      exact ⟨rfl, bound, hbind, rfl⟩
  · cases h
    simp [Listens, hconfigured]
  · cases h
    simp [Listens, hrunning]

namespace ProxyManager

variable {pm : ProxyManager} {listenIP : String} {port : Int}

/-- `RemoveTarget` changes the side of its protocol. -/
theorem side_removeTarget (proto : Proto) :
    (pm.removeTarget proto listenIP port).1.side =
      update pm.side proto (removeTargetSide (pm.side proto) listenIP port).1 := by
  funext proto'
  rw [update_apply]
  cases proto <;> cases proto' <;> simp [side, removeTarget, removeTargetSide]

/-- `AddTarget` changes the side of its protocol. -/
theorem side_addTarget {proto : Proto} {addr : String} {listen : Option Int}
    {r : ProxyManager × Option ManagerError} (hproto : proto = .tcp ∨ proto = .udp)
    (h : pm.addTarget proto listenIP port addr listen = some r) :
    ∃ s, pm.addTargetSide (pm.side proto) listenIP port addr listen = some s ∧
      r.1.side = update pm.side proto s.1 := by
  rcases hproto with rfl | rfl
  all_goals
    obtain ⟨s, hs, rfl⟩ := Option.map_eq_some_iff.mp h
    refine ⟨s, hs, ?_⟩
    funext proto'
    rw [update_apply]
    cases proto' <;> simp [side]

/-- The entries when one side changes at one key. -/
theorem entry_of_side {pm' : ProxyManager} {proto : Proto} {s : Side} {value : Option String}
    (hside : pm'.side = update pm.side proto s)
    (hentry : ∀ ip p, s.targets.entry ip p =
      if ip = listenIP ∧ p = port then value else (pm.side proto).targets.entry ip p) :
    pm'.entry = update pm.entry (proto, listenIP, port) value := by
  funext ⟨proto', ip, p⟩
  rw [update_apply]
  unfold entry
  rw [hside]
  by_cases hproto : proto' = proto
  · subst hproto
    simpa using hentry ip p
  · simp [hproto]

/-- `RemoveTarget` deletes one entry. -/
theorem entry_removeTarget (proto : Proto) :
    (pm.removeTarget proto listenIP port).1.entry =
      update pm.entry (proto, listenIP, port) none :=
  entry_of_side (side_removeTarget proto) fun ip p =>
    entry_removeTargetSide (pm.side proto) listenIP ip port p

/-- `AddTarget` records one entry. -/
theorem entry_addTarget {proto : Proto} {addr : String} {listen : Option Int}
    {r : ProxyManager × Option ManagerError} (hproto : proto = .tcp ∨ proto = .udp)
    (h : pm.addTarget proto listenIP port addr listen = some r) :
    r.1.entry = update pm.entry (proto, listenIP, port) (some addr) := by
  obtain ⟨s, hs, hside⟩ := side_addTarget hproto h
  refine entry_of_side hside fun ip p => ?_
  rw [(addTargetSide_eq hs).1, Targets.entry_add]

end ProxyManager

variable {target address : String}

/-- What `parseTargetString` accepts, and what it returns. -/
theorem parseTargetString_eq_some_iff {port : Int} :
    parseTargetString target = some (port, address) ↔
      ∃ text rest host targetPort, splitFirst ':' target.toList = some (text, rest) ∧
        scanInt text = some port ∧ (1 ≤ port ∧ port ≤ 65535) ∧
        splitHostPort rest = some (host, targetPort) ∧ (host ≠ [] ∧ targetPort ≠ []) ∧
        address = String.ofList (joinHostPort host targetPort) := by
  constructor
  · intro h
    unfold parseTargetString at h
    split at h
    · cases h
    · next text rest hsplit =>
      split at h
      · cases h
      · next p hscan =>
        split_ifs at h with hrange
        split at h
        · cases h
        · next host targetPort hparts =>
          split_ifs at h with hempty
          cases h
          exact ⟨text, rest, host, targetPort, hsplit, hscan, by omega, hparts,
            not_or.mp hempty, rfl⟩
  · rintro ⟨text, rest, host, targetPort, hsplit, hscan, hrange, hparts, hne, rfl⟩
    simp only [parseTargetString, hsplit, hscan, hparts]
    rw [if_neg (by omega), if_neg (not_or.mpr hne)]

theorem splitFirst_targetStr (port : Int) (target : String) :
    splitFirst ':' (targetStr port target).toList =
      some (formatInt port, target.toList) := by
  rw [targetStr, String.toList_ofList]
  exact splitFirst_append (colon_notMem_formatInt port)

/-- A printed target is read back with its port. -/
theorem parse_targetStr {port q : Int} {target addr : String}
    (h : parseTargetString (targetStr port target) = some (q, addr)) : q = port := by
  obtain ⟨text, rest, host, targetPort, hsplit, hscan, -⟩ := parseTargetString_eq_some_iff.mp h
  rw [splitFirst_targetStr] at hsplit
  cases hsplit
  rw [scanInt_formatInt] at hscan
  split_ifs at hscan
  exact (Option.some.inj hscan).symm

/-- **What was parsed is parsed again** when it is printed. -/
theorem parse_targetStr_of_parse {port : Int}
    (h : parseTargetString target = some (port, address)) :
    parseTargetString (targetStr port address) = some (port, address) := by
  obtain ⟨-, rest, host, targetPort, -, -, hrange, hparts, hne, rfl⟩ :=
    parseTargetString_eq_some_iff.mp h
  obtain ⟨hhost, hport⟩ := splitHostPort_parts hparts
  refine parseTargetString_eq_some_iff.mpr ⟨_, _, host, targetPort, splitFirst_targetStr .., ?_,
    hrange, ?_, hne, rfl⟩
  · rw [scanInt_formatInt, if_pos (by omega)]
  · rw [String.toList_ofList]
    exact splitHostPort_joinHostPort hhost hport

/-- `listenPort:host:targetPort` where the listen port is a decimal numeral and nothing
else, as it is documented. -/
def targetForm (target : String) : Option (Int × String) :=
  match splitFirst ':' target.toList with
  | none => none
  | some (listenPort, remainder) =>
    match digitsValue listenPort with
    | none => none
    | some n =>
      if 1 ≤ n ∧ n ≤ 65535 then
        match splitHostPort remainder with
        | none => none
        | some (host, targetPort) =>
          if host = [] ∨ targetPort = [] then none
          else some (n, String.ofList (joinHostPort host targetPort))
      else none

/-- **The strings that are accepted** are those of the form, unless a port number is read
off a text before the first colon that has other characters too, with a host and a port
after it. -/
theorem parseTargetString_eq_form_iff (target : String) :
    parseTargetString target = targetForm target ↔
      ∀ text rest, splitFirst ':' target.toList = some (text, rest) →
        (∃ port, scanInt text = some port ∧ 1 ≤ port ∧ port ≤ 65535) →
        (∃ host targetPort, splitHostPort rest = some (host, targetPort) ∧
          host ≠ [] ∧ targetPort ≠ []) → ∀ c ∈ text, c.isDigit = true := by
  cases hsplit : splitFirst ':' target.toList with
  | none => simp [parseTargetString, targetForm, hsplit]
  | some parts =>
    obtain ⟨text, rest⟩ := parts
    by_cases hdigits : ∀ c ∈ text, c.isDigit = true
    · refine iff_of_true ?_ ?_
      · unfold parseTargetString targetForm
        rw [hsplit]
        dsimp only
        by_cases hnil : text = []
        · subst hnil
          rfl
        · have hvalue : digitsValue text = some (Nat.ofDigitChars 10 text 0) :=
            if_pos ⟨hnil, all_eq_true.mpr hdigits⟩
          rw [hvalue, scanInt_of_digits hnil hdigits]
          generalize Nat.ofDigitChars 10 text 0 = n
          dsimp only
          by_cases hrange : 1 ≤ n ∧ n ≤ 65535
          · rw [if_pos (by omega), if_pos hrange]
            exact if_neg (by omega)
          · rw [if_neg hrange]
            split
            · rfl
            · next port hport =>
              split_ifs at hport
              cases hport
              exact if_pos (by omega)
      · intro text' rest' heq _ _
        cases heq
        exact hdigits
    · have hform : targetForm target = none := by
        simp [targetForm, hsplit, digitsValue, hdigits]
      rw [hform, Option.eq_none_iff_forall_ne_some]
      constructor
      · rintro hnone text' rest' heq ⟨port, hscan, hrange⟩ ⟨host, targetPort, hparts, hne⟩
        cases heq
        exact absurd (parseTargetString_eq_some_iff.mpr
          ⟨text, rest, host, targetPort, hsplit, hscan, hrange, hparts, hne, rfl⟩)
          (hnone (port, _))
      · intro h ⟨port, address⟩ hsome
        obtain ⟨text', rest', host, targetPort, hsplit', hscan, hrange, hparts, hne, -⟩ :=
          parseTargetString_eq_some_iff.mp hsome
        cases hsplit.symm.trans hsplit'
        exact hdigits (h text rest rfl ⟨port, hscan, hrange⟩ ⟨host, targetPort, hparts, hne⟩)

/-- What follows the digits is ignored, and so are spaces and a sign before them. -/
theorem other_texts_accepted :
    parseTargetString "80abc:10.0.0.1:90" = some (80, "10.0.0.1:90") ∧
      targetForm "80abc:10.0.0.1:90" = none ∧
      parseTargetString " +80:10.0.0.1:90" = some (80, "10.0.0.1:90") ∧
      targetForm " +80:10.0.0.1:90" = none := by decide

/-- A printed target can be removed again. -/
def Removable (port : Int) (target : String) : Prop :=
  (parseTargetString (targetStr port target)).isSome = true
  deriving Decidable

/-- What adding a printed target records, if it can be added. -/
def addedEntry (u : Updown) (proto : Proto) (port : Int) (target : String) : Option String :=
  (parseTargetString (targetStr port target)).map fun r => u.processed proto port r.2

section Loops

variable {u : Updown} {tunnelIP : String} {proto : Proto} {pm pm' : ProxyManager} {port : Int}
  {target : String} {listen : Option Int}

/-- A printed target that is not parsed again is passed over. -/
theorem updateTarget_of_not {action : Action} (h : ¬ Removable port target) :
    updateTarget u tunnelIP proto action pm port target listen = some pm := by
  rw [Removable, Option.not_isSome_iff_eq_none] at h
  simp only [updateTarget, updateTargets, h, Option.map_some]

/-- The removal of a printed target. -/
theorem updateTarget_remove (h : Removable port target) :
    updateTarget u tunnelIP proto .remove pm port target listen =
      some (pm.removeTarget proto tunnelIP port).1 := by
  obtain ⟨⟨q, addr⟩, hparse⟩ := Option.isSome_iff_exists.mp h
  cases parse_targetStr hparse
  simp only [updateTarget, updateTargets, hparse]
  split <;> simp [*]

/-- The addition of a string: the address is recorded under its port. -/
theorem updateTargets_add {script : String} {exec : Commands} {t : String}
    (hparse : parseTargetString t = some (port, target)) :
    updateTargets tunnelIP proto script .add pm [(t, listen, exec)] =
      ((pm.removeTarget proto tunnelIP port).1.addTarget proto tunnelIP port
        (processedTarget script exec proto target) listen).map fun r => (r.1, none) := by
  simp only [updateTargets, hparse]
  cases (pm.removeTarget proto tunnelIP port).1.addTarget proto tunnelIP port
    (processedTarget script exec proto target) listen <;> rfl

theorem updateTarget_add {addr : String}
    (hparse : parseTargetString (targetStr port target) = some (port, addr)) :
    updateTarget u tunnelIP proto .add pm port target listen =
      ((pm.removeTarget proto tunnelIP port).1.addTarget proto tunnelIP port
        (u.processed proto port addr) listen).map Prod.fst := by
  rw [updateTarget, updateTargets_add hparse, Option.map_map]
  rfl

theorem entry_updateTarget_remove
    (h : updateTarget u tunnelIP proto .remove pm port target listen = some pm') :
    pm'.entry = update pm.entry (proto, tunnelIP, port)
      (if Removable port target then none else pm.entry (proto, tunnelIP, port)) := by
  split
  · next hremovable =>
    rw [updateTarget_remove hremovable] at h
    cases h
    exact entry_removeTarget proto
  · next hnot =>
    rw [updateTarget_of_not hnot] at h
    cases h
    rw [update_eq_self]

theorem entry_updateTarget_add (hproto : proto = .tcp ∨ proto = .udp)
    (h : updateTarget u tunnelIP proto .add pm port target listen = some pm') :
    pm'.entry = update pm.entry (proto, tunnelIP, port)
      ((addedEntry u proto port target).or (pm.entry (proto, tunnelIP, port))) := by
  cases hparse : parseTargetString (targetStr port target) with
  | none =>
    rw [updateTarget_of_not (by simp [Removable, hparse])] at h
    cases h
    simp [addedEntry, hparse]
  | some parsed =>
    obtain ⟨q, addr⟩ := parsed
    cases parse_targetStr hparse
    rw [updateTarget_add hparse] at h
    obtain ⟨r, hadd, rfl⟩ := Option.map_eq_some_iff.mp h
    rw [entry_addTarget hproto hadd, entry_removeTarget, update_idem]
    simp [addedEntry, hparse]

variable {current : Option PortMap} {desired : PortMap}

/-- The value the first loop leaves at a port. -/
def afterRemove (port : Int) (current desired value : Option String) : Option String :=
  match desired, current with
  | none, some target => if Removable port target then none else value
  | _, _ => value

/-- The value the second loop leaves at a port. -/
def afterAdd (u : Updown) (proto : Proto) (port : Int) (current desired value : Option String) :
    Option String :=
  match desired, current with
  | none, _ => value
  | some target, none => (addedEntry u proto port target).or value
  | some target, some currentTarget =>
    if currentTarget = target then value
    else
      (addedEntry u proto port target).or
        (if Removable port currentTarget then none else value)

theorem entry_removeMissing (pm pm' : ProxyManager) (port : Int)
    (h : removeMissing u tunnelIP proto current desired pm port = some pm') :
    pm'.entry = update pm.entry (proto, tunnelIP, port)
      (afterRemove port (current.bind fun m => m.lookup port) (desired.lookup port)
        (pm.entry (proto, tunnelIP, port))) := by
  unfold removeMissing at h
  unfold afterRemove
  split at h
  · rw [entry_updateTarget_remove h]
  · cases h
    rw [update_eq_self]

theorem entry_addMissing (hproto : proto = .tcp ∨ proto = .udp) (pm pm' : ProxyManager)
    (e : Int × Option Int) (h : addMissing u tunnelIP proto current desired pm e = some pm') :
    pm'.entry = update pm.entry (proto, tunnelIP, e.1)
      (afterAdd u proto e.1 (current.bind fun m => m.lookup e.1) (desired.lookup e.1)
        (pm.entry (proto, tunnelIP, e.1))) := by
  unfold addMissing at h
  unfold afterAdd
  split at h
  · cases h
    rw [update_eq_self]
  · exact entry_updateTarget_add hproto h
  · split at h
    · rename_i heq
      cases h
      simp [heq]
    · rename_i hne
      obtain ⟨pm₁, hremove, hadd⟩ := Option.bind_eq_some_iff.mp h
      rw [entry_updateTarget_add hproto hadd, entry_updateTarget_remove hremove,
        update_idem, update_self]
      simp [hne]

/-- The entry a sync leaves for a port, from the entry before and the desired
address. -/
def syncedEntry (u : Updown) (proto : Proto) (port : Int) (current desired : Option String) :
    Option String :=
  match desired with
  | none => current.filter fun v => ¬ Removable port v
  | some target =>
    if current = some target then current
    else
      (addedEntry u proto port target).or (current.filter fun v => ¬ Removable port v)

/-- The two loops together, at one port. -/
theorem afterAdd_afterRemove (current desired : Option String) :
    afterAdd u proto port current desired (afterRemove port current desired current) =
      syncedEntry u proto port current desired := by
  unfold afterAdd afterRemove syncedEntry
  cases desired with
  | none =>
    cases current with
    | none => rfl
    | some v => by_cases hv : Removable port v <;> simp [Option.filter, hv]
  | some target =>
    cases current with
    | none => simp
    | some v =>
      by_cases heq : v = target
      · simp [heq]
      · by_cases hv : Removable port v <;> simp [Option.filter, hv, heq]

/-- The ports the first loop goes over. -/
theorem mem_keys_current {port : Int} :
    port ∈ (current.map AList.keys).getD [] ↔ (current.bind fun m => m.lookup port) ≠ none := by
  cases current with
  | none => simp
  | some m =>
    rw [Option.map_some, Option.getD_some, Option.bind_some, ← AList.mem_keys]
    exact (AList.lookup_eq_none.not_left).symm

theorem nodup_keys_current : ((current.map AList.keys).getD []).Nodup := by
  cases current with
  | none => exact nodup_nil
  | some m => exact AList.keys_nodup m

/-- A loop over distinct ports whose iterations change the entry of their own port
changes the entries for the tunnel IP, and no others. -/
theorem entry_loop {ε : Type} {step : ProxyManager → ε → Option ProxyManager} {port : ε → Int}
    {g : Int → Option String → Option String}
    (hstep : ∀ (pm pm' : ProxyManager) (e : ε), step pm e = some pm' →
      pm'.entry = update pm.entry (proto, tunnelIP, port e)
        (g (port e) (pm.entry (proto, tunnelIP, port e))))
    {es : List ε} (hnd : (es.map port).Nodup)
    (hrest : ∀ p, p ∉ es.map port → ∀ value, g p value = value)
    (hrun : Runs.run step pm es = some pm') (k : Proto × String × Int) :
    pm'.entry k =
      if k.1 = proto ∧ k.2.1 = tunnelIP then g k.2.2 (pm.entry k) else pm.entry k := by
  have hkeys : (es.map fun e => (proto, tunnelIP, port e)).Nodup :=
    Nodup.of_map (fun k => k.2.2) (by rwa [map_map])
  rw [Runs.run_pointwise (g := fun k => g k.2.2) hstep hkeys hrun k]
  obtain ⟨proto', ip, p⟩ := k
  by_cases hk : proto' = proto ∧ ip = tunnelIP
  · obtain ⟨rfl, rfl⟩ := hk
    refine Eq.trans ?_ (if_pos ⟨rfl, rfl⟩).symm
    split
    · rfl
    · next hnotin =>
      refine (hrest p (fun hmem => hnotin ?_) _).symm
      obtain ⟨e, he, rfl⟩ := mem_map.mp hmem
      exact mem_map_of_mem he
  · refine Eq.trans (if_neg fun hmem => hk ?_) (if_neg hk).symm
    obtain ⟨e, -, heq⟩ := mem_map.mp hmem
    cases heq
    exact ⟨rfl, rfl⟩

/-- The loops for one protocol change its entries for the tunnel IP, each in its
own way, and no others. -/
theorem entry_syncTargets {order : SyncOrder} (hproto : proto = .tcp ∨ proto = .udp)
    (hcurrent : ∀ p, (current.bind fun m => m.lookup p) = pm.entry (proto, tunnelIP, p))
    (h : syncTargets u tunnelIP proto current desired order pm = some pm')
    (k : Proto × String × Int) :
    pm'.entry k =
      if k.1 = proto ∧ k.2.1 = tunnelIP then
        syncedEntry u proto k.2.2 (pm.entry k) (desired.lookup k.2.2)
      else pm.entry k := by
  unfold syncTargets at h
  split at h
  · rename_i hperm
    obtain ⟨hremove, hadd⟩ := hperm
    obtain ⟨pm₁, hrun₁, hrun₂⟩ := Option.bind_eq_some_iff.mp h
    have hnd₁ : (order.remove.map id).Nodup := by
      rw [map_id]
      exact hremove.nodup_iff.mpr nodup_keys_current
    have hrest₁ : ∀ p, p ∉ order.remove.map id → ∀ value, afterRemove p
        (current.bind fun m => m.lookup p) (desired.lookup p) value = value := by
      intro p hp value
      rw [map_id, hremove.mem_iff, mem_keys_current, not_not] at hp
      rw [hp]
      cases desired.lookup p <;> rfl
    have hrest₂ : ∀ p, p ∉ order.add.map Prod.fst → ∀ value, afterAdd u proto p
        (current.bind fun m => m.lookup p) (desired.lookup p) value = value := by
      intro p hp value
      rw [hadd.mem_iff, AList.mem_keys.symm] at hp
      rw [AList.lookup_eq_none.mpr hp]
      rfl
    rw [entry_loop (entry_addMissing hproto) (hadd.nodup_iff.mpr (AList.keys_nodup desired)) hrest₂
      hrun₂, entry_loop entry_removeMissing hnd₁ hrest₁ hrun₁]
    split
    · rename_i hk
      obtain ⟨proto', ip, p⟩ := k
      obtain ⟨rfl, rfl⟩ := hk
      rw [← hcurrent p]
      exact afterAdd_afterRemove _ _
    · rfl
  · cases h

end Loops

/-- The target strings of a protocol. -/
def SyncTargets.of (targets : SyncTargets) : Proto → List String
  | .tcp => targets.tcp
  | .udp => targets.udp
  | .unsupported _ => []

/-- **What a sync does to the table**: every entry for the tunnel IP becomes its
`syncedEntry`, and no other entry changes. -/
theorem entry_handleSync {u : Updown} {tunnelIP : String} {targets : SyncTargets}
    {tcpOrder udpOrder : SyncOrder} {pm pm' : ProxyManager} (htunnel : tunnelIP ≠ "")
    (h : handleSync u tunnelIP targets tcpOrder udpOrder pm = some pm')
    (k : Proto × String × Int) :
    pm'.entry k =
      if k.2.1 = tunnelIP then
        syncedEntry u k.1 k.2.2 (pm.entry k) ((desiredTargets (targets.of k.1)).lookup k.2.2)
      else pm.entry k := by
  simp only [handleSync, htunnel, if_false] at h
  obtain ⟨pm₁, htcp, hudp⟩ := Option.bind_eq_some_iff.mp h
  have hentry₁ := entry_syncTargets (Or.inl rfl) (fun _ => rfl) htcp
  have hcurrent : ∀ p, ((pm.udp.targets.lookup tunnelIP).bind fun m => m.lookup p) =
      pm₁.entry (.udp, tunnelIP, p) := by
    intro p
    rw [hentry₁, if_neg (by simp)]
    rfl
  rw [entry_syncTargets (Or.inr rfl) hcurrent hudp k, hentry₁ k]
  obtain ⟨proto, ip, p⟩ := k
  by_cases hip : ip = tunnelIP
  · cases proto with
    | tcp | udp => simp [hip, SyncTargets.of]
    | unsupported name =>
      simp [hip, SyncTargets.of, entry, side, Targets.entry, desiredTargets, collect, syncedEntry]
  · simp [hip]

/-- **Parsed targets are printed for their removal as they were parsed**: the string is
parsed to the same port and address, and a sync that does not want the port deletes the
entry. -/
theorem parsed_target_printed {port : Int} (h : parseTargetString target = some (port, address)) :
    parseTargetString (targetStr port address) = some (port, address) ∧
      ∀ (u : Updown) (tunnelIP : String) (targets : SyncTargets) (tcpOrder udpOrder : SyncOrder)
        (pm pm' : ProxyManager) (proto : Proto), tunnelIP ≠ "" →
        handleSync u tunnelIP targets tcpOrder udpOrder pm = some pm' →
        pm.entry (proto, tunnelIP, port) = some address →
        (desiredTargets (targets.of proto)).lookup port = none →
        pm'.entry (proto, tunnelIP, port) = none := by
  have hprinted := parse_targetStr_of_parse h
  refine ⟨hprinted, ?_⟩
  intro u tunnelIP targets tcpOrder udpOrder pm pm' proto htunnel hsync hentry hdesired
  have hremovable : Removable port address := by
    rw [Removable, hprinted]
    rfl
  rw [entry_handleSync htunnel hsync, if_pos rfl, hentry, hdesired]
  exact if_neg (by simpa using hremovable)

/-- A script that prints nothing. -/
def silentScript : Updown :=
  { script := "/etc/newt/updown.sh", exec := fun _ _ _ => .ok "" }

/-- A manager that runs, with one TCP target for the tunnel IP. -/
def oneTarget (port : Int) (addr : String) : ProxyManager :=
  { new true "" with
    tcp := { targets := Targets.add ∅ "100.89.0.2" port addr, listeners := [⟨port, addr⟩] }
    running := true }

/-- A target with an IPv6 host, and a sync without targets that removes it. -/
theorem parsed_ipv6_target_printed :
    parseTargetString "8080:[fd00::1]:443" = some (8080, "[fd00::1]:443") ∧
      parseTargetString (targetStr 8080 "[fd00::1]:443") = some (8080, "[fd00::1]:443") ∧
      ∃ pm', handleSync silentScript "100.89.0.2" ⟨[], []⟩ ⟨[8080], []⟩ ⟨[], []⟩
          (oneTarget 8080 "[fd00::1]:443") = some pm' ∧
        (oneTarget 8080 "[fd00::1]:443").entry (.tcp, "100.89.0.2", 8080) =
          some "[fd00::1]:443" ∧
        pm'.entry (.tcp, "100.89.0.2", 8080) = none := by
  have h : parseTargetString "8080:[fd00::1]:443" = some (8080, "[fd00::1]:443") := by decide
  obtain ⟨hprinted, hremoved⟩ := parsed_target_printed h
  refine ⟨h, hprinted, ?_⟩
  simp only [← and_assoc]
  refine Exists.imp (fun pm' hs => ⟨hs, ?_⟩) (by decide +kernel)
  exact hremoved _ _ _ _ _ _ pm' .tcp (by decide) hs.1 hs.2 (by decide)

end Newt.Proxy
