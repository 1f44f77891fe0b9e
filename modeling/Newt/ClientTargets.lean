import Mathlib.Data.List.ReduceOption
import Newt.ClientConfig
import Newt.ProxyHandler
import Newt.SubnetRefinement

/-!
# Targets of the clients

The server sends the client lists of targets, and each source prefix of a target
becomes a rule of the proxy handler.  There are four ways to install a list: with
the configuration (`newt/wg/receive-config`), with `newt/wg/targets/add`, as the
new part of `newt/wg/targets/update`, and with a sync.  Three of them skip a
prefix they cannot parse; the first one stops there.

The handlers run one after the other.

* `rules_follow_messages` — after any further messages about targets the table
  implements the map they are folded into;
* `targets_installed_alike_iff` — when the four ways give the same rules.
-/

namespace Newt

open Netip List RuleMap ProxyHandler Option

namespace Clients

/-- The `certs` of the service; before the first list it is empty. -/
abbrev CertTable := String → Option CertPair

/-- `resolveSourcePrefixes`. -/
def resolveSourcePrefixes (target : Target) : List String :=
  if 0 < target.sourcePrefixes.length then target.sourcePrefixes
  else if target.sourcePrefix ≠ "" then [target.sourcePrefix]
  else []

/-- `resolveTLS`: the certificate and the key for a target. -/
def resolveTLS (certs : CertTable) (target : Target) : String × String :=
  if target.tlsCertID = "" then (target.tlsCert, target.tlsKey)
  else
    match certs target.tlsCertID with
    | none => (target.tlsCert, target.tlsKey)
    | some pair => (pair.cert, pair.key)

/-- The loop of `SetCerts` and `AddCerts`. -/
def putCerts (m : CertTable) (certs : List CertData) : CertTable :=
  certs.foldl (fun m c => Function.update m c.id (some ⟨c.cert, c.key⟩)) m

/-- `SetCerts`. -/
def setCerts (certs : List CertData) : CertTable :=
  putCerts (fun _ => none) certs

/-- `AddCerts`. -/
def addCerts (m : CertTable) (certs : List CertData) : CertTable :=
  if certs.length = 0 then m else putCerts m certs

/-- `RemoveCerts`. -/
def removeCerts (m : CertTable) (ids : List String) : CertTable :=
  if ids.length = 0 then m else ids.foldl (fun m id => Function.update m id none) m

/-- The rule for a target and one of its source prefixes. -/
def targetRule (certs : CertTable) (target : Target) (sourcePrefix destPrefix : Prefix) :
    SubnetRule :=
  let (tlsCert, tlsKey) := resolveTLS certs target
  { sourcePrefix := sourcePrefix
    destPrefix := destPrefix
    rewriteTo := target.rewriteTo
    portRanges := target.portRange
    disableIcmp := target.disableIcmp
    resourceId := target.resourceId
    protocol := target.protocol
    httpTargets := target.httpTargets
    tlsCert := tlsCert
    tlsKey := tlsKey }

section Loops

variable {σ : Type}

/-- The inner loop of the handlers that skip a source prefix they cannot parse:
what is done with each of the others. -/
def forEachSource (f : σ → Target → Prefix → Prefix → σ) (target : Target) (destPrefix : Prefix)
    (s : σ) (sources : List String) : σ :=
  sources.foldl (fun s sp =>
    match parsePrefix sp with
    | none => s
    | some sourcePrefix => f s target sourcePrefix destPrefix) s

/-- The loop over targets of the handlers that skip. -/
def forEachPrefix (f : σ → Target → Prefix → Prefix → σ) (s : σ) (targets : List Target) : σ :=
  targets.foldl (fun s target =>
    match parsePrefix target.destPrefix with
    | none => s
    | some destPrefix => forEachSource f target destPrefix s (resolveSourcePrefixes target)) s

end Loops

section Handlers

variable {T : Type → Type} [PrefixTable T]

/-- The loop of `handleAddTarget`. -/
def addTargets (certs : CertTable) (p : ProxyHandler T) (targets : List Target) : ProxyHandler T :=
  forEachPrefix (fun p target sourcePrefix destPrefix =>
    p.changeRules (.add (targetRule certs target sourcePrefix destPrefix))) p targets

/-- The loop of `handleRemoveTarget`. -/
def removeTargets (p : ProxyHandler T) (targets : List Target) : ProxyHandler T :=
  forEachPrefix (fun p _ sourcePrefix destPrefix =>
    p.changeRules (.remove sourcePrefix destPrefix)) p targets

/-- The loops of `handleUpdateTarget`. -/
def updateTargets (certs : CertTable) (p : ProxyHandler T) (oldTargets newTargets : List Target) :
    ProxyHandler T :=
  addTargets certs (removeTargets p oldTargets) newTargets

/-- `syncTargets` with a netstack. -/
def syncTargets (certs : CertTable) (p : ProxyHandler T) (desiredTargets : List Target) :
    ProxyHandler T :=
  let rules := forEachPrefix (fun rules target sourcePrefix destPrefix =>
    rules ++ [targetRule certs target sourcePrefix destPrefix]) [] desiredTargets
  p.changeRules (.replaceAll rules)

/-- The inner loop of `ensureTargets`, with the prefix of its error. -/
def ensureSources (certs : CertTable) (target : Target) (destPrefix : Prefix) :
    ProxyHandler T → List String → ProxyHandler T × Option String
  | p, [] => (p, none)
  | p, sp :: sources =>
    match parsePrefix sp with
    | none => (p, some sp)
    | some sourcePrefix =>
      ensureSources certs target destPrefix
        (p.changeRules (.add (targetRule certs target sourcePrefix destPrefix))) sources

/-- `ensureTargets` with a netstack: the first prefix that cannot be parsed ends
it, with an error that names the prefix. -/
def ensureTargets (certs : CertTable) :
    ProxyHandler T → List Target → ProxyHandler T × Option String
  | p, [] => (p, none)
  | p, target :: targets =>
    match parsePrefix target.destPrefix with
    | none => (p, some target.destPrefix)
    | some destPrefix =>
      match ensureSources certs target destPrefix p (resolveSourcePrefixes target) with
      | (p, none) => ensureTargets certs p targets
      | (p, some sp) => (p, some sp)

end Handlers

/-- An entry for each source prefix, `none` if it cannot be parsed. -/
def sourceEntries (target : Target) (destPrefix : Prefix) (sources : List String) :
    List (Option (Target × Prefix × Prefix)) :=
  sources.map (fun sp =>
    (parsePrefix sp).map (fun sourcePrefix => (target, sourcePrefix, destPrefix)))

/-- What the loops see of a list of targets: the entries of the source prefixes,
and one for a destination prefix that cannot be parsed. -/
def entries (targets : List Target) : List (Option (Target × Prefix × Prefix)) :=
  targets.flatMap (fun target =>
    match parsePrefix target.destPrefix with
    | none => [none]
    | some destPrefix => sourceEntries target destPrefix (resolveSourcePrefixes target))

theorem entries_cons_none {target : Target} (h : parsePrefix target.destPrefix = none)
    (targets : List Target) : entries (target :: targets) = none :: entries targets := by
  unfold entries
  rw [flatMap_cons, h]
  rfl

theorem entries_cons_some {target : Target} {destPrefix : Prefix}
    (h : parsePrefix target.destPrefix = some destPrefix) (targets : List Target) :
    entries (target :: targets) =
      sourceEntries target destPrefix (resolveSourcePrefixes target) ++ entries targets := by
  unfold entries
  rw [flatMap_cons, h]

theorem mem_of_entry {targets : List Target} {e : Target × Prefix × Prefix}
    (h : some e ∈ entries targets) : e.1 ∈ targets := by
  obtain ⟨target, htarget, he⟩ := mem_flatMap.mp h
  split at he
  · simp at he
  · obtain ⟨sp, _, he⟩ := mem_map.mp he
    obtain ⟨sourcePrefix, _, rfl⟩ := map_eq_some_iff.mp he
    exact htarget

section Loops

variable {σ : Type} {f : σ → Target → Prefix → Prefix → σ}

theorem forEachSource_eq (target : Target) (destPrefix : Prefix) (s : σ) (sources : List String) :
    forEachSource f target destPrefix s sources =
      (sourceEntries target destPrefix sources).reduceOption.foldl
        (fun s e => f s e.1 e.2.1 e.2.2) s := by
  induction sources generalizing s with
  | nil => rfl
  | cons sp sources ih =>
    unfold forEachSource sourceEntries at ih ⊢
    rw [foldl_cons, ih, map_cons]
    cases parsePrefix sp with
    | none | some sourcePrefix => rfl

/-- The loops that skip go over the entries that could be parsed. -/
theorem forEachPrefix_eq (s : σ) (targets : List Target) :
    forEachPrefix f s targets =
      (entries targets).reduceOption.foldl (fun s e => f s e.1 e.2.1 e.2.2) s := by
  induction targets generalizing s with
  | nil => rfl
  | cons target targets ih =>
    unfold forEachPrefix at ih ⊢
    rw [foldl_cons, ih]
    cases h : parsePrefix target.destPrefix with
    | none => rw [entries_cons_none h, reduceOption_cons_of_none]
    | some destPrefix =>
      rw [entries_cons_some h, reduceOption_append, foldl_append, ← forEachSource_eq]

/-- Two loops that skip, over values that are related. -/
theorem forEachPrefix_rel {τ : Type} {g : τ → Target → Prefix → Prefix → τ} {R : σ → τ → Prop}
    {targets : List Target}
    (hstep : ∀ {s t}, ∀ target ∈ targets, ∀ sourcePrefix destPrefix, R s t →
      R (f s target sourcePrefix destPrefix) (g t target sourcePrefix destPrefix))
    {s : σ} {t : τ} (h : R s t) :
    R (forEachPrefix f s targets) (forEachPrefix g t targets) := by
  rw [forEachPrefix_eq, forEachPrefix_eq]
  refine foldl_rel h (fun e he s t => ?_)
  exact hstep e.1 (mem_of_entry (reduceOption_mem_iff.mp he)) e.2.1 e.2.2

end Loops

/-- The rule of an entry. -/
def entryRule (certs : CertTable) (e : Target × Prefix × Prefix) : SubnetRule :=
  targetRule certs e.1 e.2.1 e.2.2

/-- The rules of the entries that could be parsed. -/
def entryRules (certs : CertTable) (es : List (Option (Target × Prefix × Prefix))) :
    List SubnetRule :=
  es.reduceOption.map (entryRule certs)

theorem entryRules_append (certs : CertTable) (es es' : List (Option (Target × Prefix × Prefix))) :
    entryRules certs (es ++ es') = entryRules certs es ++ entryRules certs es' := by
  unfold entryRules
  rw [reduceOption_append, map_append]

section Handlers

variable {T : Type → Type} [PrefixTable T] {certs : CertTable}

theorem ensureSources_eq (certs : CertTable) (target : Target) (destPrefix : Prefix)
    (p : ProxyHandler T) (sources : List String) :
    (ensureSources certs target destPrefix p sources).1 =
        (entryRules certs ((sourceEntries target destPrefix sources).takeWhile
          isSome)).foldl (fun p r => p.changeRules (.add r)) p ∧
      ((ensureSources certs target destPrefix p sources).2 = none ↔
        (sourceEntries target destPrefix sources).takeWhile isSome =
          sourceEntries target destPrefix sources) := by
  induction sources generalizing p with
  | nil => exact ⟨rfl, iff_of_true rfl rfl⟩
  | cons sp sources ih =>
    unfold ensureSources sourceEntries
    rw [map_cons]
    cases parsePrefix sp with
    | none => exact ⟨rfl, iff_of_false (by simp) (by simp)⟩
    | some sourcePrefix =>
      obtain ⟨hfst, hsnd⟩ := ih
        (p.changeRules (.add (targetRule certs target sourcePrefix destPrefix)))
      refine ⟨hfst, hsnd.trans ?_⟩
      simp [sourceEntries]

/-- `ensureTargets` goes over the entries before the first that could not be
parsed. -/
theorem ensureTargets_eq (p : ProxyHandler T) (targets : List Target) :
    (ensureTargets certs p targets).1 =
      (entryRules certs ((entries targets).takeWhile isSome)).foldl
        (fun p r => p.changeRules (.add r)) p := by
  induction targets generalizing p with
  | nil => rfl
  | cons target targets ih =>
    cases hdest : parsePrefix target.destPrefix with
    | none =>
      rw [entries_cons_none hdest, ensureTargets, hdest]
      rfl
    | some destPrefix =>
      obtain ⟨hfst, hsnd⟩ := ensureSources_eq certs target destPrefix p
        (resolveSourcePrefixes target)
      rw [entries_cons_some hdest, ensureTargets, hdest]
      dsimp only
      generalize sourceEntries target destPrefix (resolveSourcePrefixes target) = es
        at hfst hsnd ⊢
      rw [takeWhile_append]
      generalize ensureSources certs target destPrefix p (resolveSourcePrefixes target) = res
        at hfst hsnd ⊢
      obtain ⟨p', err⟩ := res
      cases err with
      | none =>
        have hall : es.takeWhile isSome = es := hsnd.mp rfl
        rw [hall] at hfst ⊢
        rw [ih, if_pos rfl, entryRules_append, foldl_append, ← hfst]
      | some sp =>
        have hlen : (es.takeWhile isSome).length ≠ es.length := fun h =>
          nomatch hsnd.mpr (( takeWhile_prefix _).eq_of_length h)
        rw [if_neg hlen, ← hfst]

/-- The list of rules a sync collects. -/
theorem syncTargets_eq (certs : CertTable) (p : ProxyHandler T) (targets : List Target) :
    syncTargets certs p targets =
      p.changeRules (.replaceAll (entryRules certs (entries targets))) := by
  unfold syncTargets entryRules
  rw [forEachPrefix_eq, foldl_append_eq_append, nil_append, ← flatMap_def, ← map_eq_flatMap]
  rfl

end Handlers

/-- A rule map and a handler that implements it. -/
structure Serves {T : Type → Type} [PrefixTable T] (p : ProxyHandler T) (m : RuleMap) : Prop where
  enabled : p.enabled = true
  refines : p.subnetLookup.Refines m

section Refinement

variable {T : Type → Type} [PrefixTable T] [LawfulPrefixTable T] {p : ProxyHandler T}
  {m : RuleMap} {certs : CertTable}

theorem serves_fresh (httpHandler : Bool) :
    Serves (fresh httpHandler : ProxyHandler T) empty :=
  ⟨rfl, SubnetLookup.refines_new⟩

theorem Serves.changeRules (h : Serves p m) (op : RuleOp) :
    Serves (p.changeRules op) (m.apply op) := by
  unfold ProxyHandler.changeRules
  rw [h.enabled]
  exact ⟨rfl, h.refines.apply op⟩

end Refinement

/-- Messages about targets; `none` is one that cannot be decoded. -/
inductive TargetMessage
  | add (targets : Option (List Target))
  | remove (targets : Option (List Target))
  | update (request : Option (List Target × List Target))
  | sync (data : Option (List CertData × List Target))
  deriving DecidableEq, Repr

/-- The service, as far as targets and certificates go.  Without a netstack (a
native interface, or none yet) there is no rule table. -/
structure Service (T : Type → Type) where
  useNativeInterface : Bool
  pendingConfigChainId : String
  certs : CertTable
  tnet : Option (ProxyHandler T)

namespace Service

variable {T : Type → Type} [PrefixTable T]

/-- `GetProxySubnetRules` of the netstack. -/
def rules (s : Service T) : List SubnetRule :=
  match s.tnet with
  | none => []
  | some p => p.subnetLookup.getAllRules

/-- The handlers of messages about targets, and the part of a sync about them. -/
def handleTargets (s : Service T) : TargetMessage → Service T
  | .add (some targets) => { s with tnet := s.tnet.map (fun p => addTargets s.certs p targets) }
  | .remove (some targets) => { s with tnet := s.tnet.map (fun p => removeTargets p targets) }
  | .update (some (oldTargets, newTargets)) =>
    { s with tnet := s.tnet.map (fun p => updateTargets s.certs p oldTargets newTargets) }
  | .sync (some (certs, targets)) =>
    { s with
      certs := setCerts certs
      tnet := s.tnet.map (fun p => syncTargets (setCerts certs) p targets) }
  | .add none | .remove none | .update none | .sync none => s

/-- `ensureWireguardInterface`, as far as the netstack goes, and whether it
succeeds; `none` where the program ends. -/
def ensureWireguardInterface (s : Service T) (config : WgConfig) (creation : Creation) :
    Option (Service T × Bool) :=
  match normalizeInterfaceAddress config.ipAddress with
  | none => some (s, false)
  | some _ =>
    if s.useNativeInterface then
      match creation with
      | .noUTUN | .noTUN => some (s, false)
      | .noUAPI => none
      | .notConfigured | .notUp | .noAddress => some ({ s with tnet := none }, false)
      | .created => some ({ s with tnet := none }, true)
    else
      match creation with
      | .noUTUN | .noTUN => some ({ s with tnet := none }, false)
      | .notConfigured | .notUp =>
        some ({ s with tnet := newProxyHandler ⟨true, true, true⟩ }, false)
      | .noUAPI | .noAddress | .created =>
        some ({ s with tnet := newProxyHandler ⟨true, true, true⟩ }, true)

/-- `handleConfig`, as far as targets and certificates go. -/
def handleConfig (s : Service T) (creation : Creation) : Option WgConfig → Option (Service T)
  | none => some s
  | some config =>
    match acceptConfig s.pendingConfigChainId config with
    | none => some s
    | some pending =>
      let s := { s with pendingConfigChainId := pending, certs := setCerts config.certs }
      match s.ensureWireguardInterface config creation with
      | none => none
      | some (s, false) => some s
      | some (s, true) =>
        some { s with
               tnet := s.tnet.map (fun p => (ensureTargets s.certs p config.targets).1) }

end Service

/-- What the messages ask for: the rule for each pair of masked prefixes, with the
certificates it is resolved with. -/
structure Desired where
  certs : CertTable
  rules : RuleMap

namespace Desired

def addTargets (certs : CertTable) (m : RuleMap) (targets : List Target) : RuleMap :=
  forEachPrefix (fun m target sourcePrefix destPrefix =>
    m.add (targetRule certs target sourcePrefix destPrefix)) m targets

def removeTargets (m : RuleMap) (targets : List Target) : RuleMap :=
  forEachPrefix (fun m _ sourcePrefix destPrefix => m.remove sourcePrefix destPrefix) m targets

/-- A message folded into the map. -/
def handle (d : Desired) : TargetMessage → Desired
  | .add (some targets) => { d with rules := addTargets d.certs d.rules targets }
  | .remove (some targets) => { d with rules := removeTargets d.rules targets }
  | .update (some (oldTargets, newTargets)) =>
    { d with rules := addTargets d.certs (removeTargets d.rules oldTargets) newTargets }
  | .sync (some (certs, targets)) =>
    { certs := setCerts certs, rules := addTargets (setCerts certs) empty targets }
  | .add none | .remove none | .update none | .sync none => d

end Desired

section Refinement

variable {T : Type → Type} [PrefixTable T] [LawfulPrefixTable T] {p : ProxyHandler T}
  {m : RuleMap}

theorem Serves.addTargets (h : Serves p m) (certs : CertTable) (targets : List Target) :
    Serves (addTargets certs p targets) (Desired.addTargets certs m targets) :=
  forEachPrefix_rel (fun target _ sourcePrefix destPrefix h =>
    h.changeRules (.add (targetRule certs target sourcePrefix destPrefix))) h

theorem Serves.removeTargets (h : Serves p m) (targets : List Target) :
    Serves (removeTargets p targets) (Desired.removeTargets m targets) :=
  forEachPrefix_rel (fun _ _ sourcePrefix destPrefix h =>
    h.changeRules (.remove sourcePrefix destPrefix)) h

/-- The map of a list of targets is the one of its rules. -/
theorem Desired.addTargets_eq (certs : CertTable) (m : RuleMap) (targets : List Target) :
    Desired.addTargets certs m targets =
      (entryRules certs (entries targets)).foldl add m := by
  unfold Desired.addTargets entryRules
  rw [forEachPrefix_eq, foldl_map]
  rfl

theorem Serves.syncTargets (h : Serves p m) (certs : CertTable) (targets : List Target) :
    Serves (syncTargets certs p targets) (Desired.addTargets certs empty targets) := by
  rw [syncTargets_eq, Desired.addTargets_eq]
  exact h.changeRules (.replaceAll _)

theorem Serves.ensureTargets (h : Serves p m) (certs : CertTable) (targets : List Target) :
    Serves (ensureTargets certs p targets).1
      ((entryRules certs ((entries targets).takeWhile isSome)).foldl add m) := by
  rw [ensureTargets_eq]
  exact foldl_rel h (fun r _ _ _ h => h.changeRules (.add r))

/-- The service has a netstack, and its rules are those that are asked for. -/
structure Service.Follows (s : Service T) (d : Desired) : Prop where
  certs : s.certs = d.certs
  serves : ∃ p, s.tnet = some p ∧ Serves p d.rules

variable {s : Service T} {d : Desired}

theorem Service.Follows.mem_rules (h : s.Follows d) {r : SubnetRule} :
    r ∈ s.rules ↔ d.rules r.key = some r := by
  obtain ⟨p, hp, hserves⟩ := h.serves
  unfold Service.rules
  rw [hp]
  exact hserves.refines.mem_getAllRules

/-- One message about targets. -/
theorem Service.Follows.handle (h : s.Follows d) (msg : TargetMessage) :
    (s.handleTargets msg).Follows (d.handle msg) := by
  obtain ⟨p, hp, hserves⟩ := h.serves
  have hmap : ∀ f : ProxyHandler T → ProxyHandler T, s.tnet.map f = some (f p) := by
    intro f
    rw [hp]
    rfl
  cases msg with
  | add targets =>
    cases targets with
    | none => exact h
    | some targets => exact ⟨h.certs, _, hmap _, h.certs ▸ hserves.addTargets s.certs targets⟩
  | remove targets =>
    cases targets with
    | none => exact h
    | some targets => exact ⟨h.certs, _, hmap _, hserves.removeTargets targets⟩
  | update request =>
    cases request with
    | none => exact h
    | some request =>
      exact ⟨h.certs, _, hmap _,
        h.certs ▸ (hserves.removeTargets request.1).addTargets s.certs request.2⟩
  | sync data =>
    cases data with
    | none => exact h
    | some data => exact ⟨rfl, _, hmap _, hserves.syncTargets (setCerts data.1) data.2⟩

/-- **Further messages are a fold over the map.** -/
theorem rules_follow_messages (h : s.Follows d) (msgs : List TargetMessage) :
    (msgs.foldl Service.handleTargets s).Follows (msgs.foldl Desired.handle d) := by
  induction msgs generalizing s d with
  | nil => exact h
  | cons msg msgs ih => exact ih (h.handle msg)

end Refinement

/-- The ways to install a list of targets; an update has an old part too. -/
inductive Route
  | receiveConfig
  | add
  | update (oldTargets : List Target)
  | sync

/-- A list of targets installed on an empty table. -/
def installed {T : Type → Type} [PrefixTable T] (certs : CertTable) (targets : List Target) :
    Route → ProxyHandler T
  | .receiveConfig => (ensureTargets certs (.fresh true) targets).1
  | .add => addTargets certs (.fresh true) targets
  | .update oldTargets => updateTargets certs (.fresh true) oldTargets targets
  | .sync => syncTargets certs (.fresh true) targets

/-- The service with a list of targets installed. -/
def Service.install {T : Type → Type} [PrefixTable T] (certs : CertTable) (targets : List Target)
    (via : Route) : Service T :=
  { useNativeInterface := false, pendingConfigChainId := "", certs := certs,
    tnet := some (installed certs targets via) }

/-- The last rule of a list with a key. -/
def lastRule (rules : List SubnetRule) (k : RuleKey) : Option SubnetRule :=
  rules.reverse.find? (fun r => r.key = k)

theorem foldl_add_eq (rules : List SubnetRule) (m : RuleMap) (k : RuleKey) :
    rules.foldl add m k = (lastRule rules k).or (m k) := by
  induction rules generalizing m with
  | nil => rfl
  | cons r rules ih =>
    rw [foldl_cons, ih]
    unfold lastRule
    rw [reverse_cons, find?_append]
    by_cases hk : r.key = k
    · subst hk
      cases rules.reverse.find? (fun r' => r'.key = r.key) <;> simp [add]
    · have hne : k ≠ r.key := fun h => hk h.symm
      simp [add, hk, hne]

/-- The rules of the entries before the first one that cannot be parsed. -/
def rulesBefore (certs : CertTable) (targets : List Target) : List SubnetRule :=
  entryRules certs ((entries targets).takeWhile isSome)

/-- The rules of the entries after it. -/
def rulesAfter (certs : CertTable) (targets : List Target) : List SubnetRule :=
  entryRules certs ((entries targets).dropWhile isSome)

/-- Nothing that comes after the first prefix that cannot be parsed changes what
the rules before it say. -/
def NothingBehind (certs : CertTable) (targets : List Target) : Prop :=
  ∀ r ∈ rulesAfter certs targets,
    lastRule (rulesAfter certs targets) r.key = lastRule (rulesBefore certs targets) r.key
  deriving Decidable

variable (certs : CertTable) (targets : List Target)

theorem entryRules_split :
    entryRules certs (entries targets) = rulesBefore certs targets ++ rulesAfter certs targets := by
  unfold rulesBefore rulesAfter
  rw [← entryRules_append, takeWhile_append_dropWhile]

theorem lastRule_eq_none_iff {rules : List SubnetRule} {k : RuleKey} :
    lastRule rules k = none ↔ ∀ r ∈ rules, r.key ≠ k := by
  unfold lastRule
  rw [find?_eq_none]
  simp

/-- The condition says that the map of all entries is the one of those before the
first that cannot be parsed. -/
theorem nothingBehind_iff :
    NothingBehind certs targets ↔
      Desired.addTargets certs empty targets =
        (rulesBefore certs targets).foldl add empty := by
  rw [Desired.addTargets_eq, entryRules_split, foldl_append]
  refine ⟨?_, ?_⟩
  · intro h
    funext k
    rw [foldl_add_eq]
    cases hlast : lastRule (rulesAfter certs targets) k with
    | none => rfl
    | some r =>
      have hmem : r ∈ rulesAfter certs targets :=
        mem_reverse.mp (mem_of_find?_eq_some hlast)
      have hkey : r.key = k := of_decide_eq_true (find?_some hlast :)
      have hbefore := h r hmem
      rw [hkey, hlast] at hbefore
      rw [foldl_add_eq, ← hbefore]
      rfl
  · intro h r hr
    have hk := congrFun h r.key
    rw [foldl_add_eq, foldl_add_eq _ empty, show empty r.key = none from rfl, or_none] at hk
    cases hlast : lastRule (rulesAfter certs targets) r.key with
    | none => exact absurd rfl (lastRule_eq_none_iff.mp hlast r hr)
    | some r' =>
      rw [hlast] at hk
      exact hk

theorem Desired.removeTargets_empty (targets : List Target) :
    Desired.removeTargets empty targets = empty := by
  unfold Desired.removeTargets
  rw [forEachPrefix_eq]
  exact foldl_fixed' (fun _ => Function.update_eq_self _ empty) _

variable {T : Type → Type}

/-- What the messages do to an empty table. -/
theorem handleTargets_installed [PrefixTable T] {s : Service T}
    (hempty : s.tnet = some (.fresh true)) (certs : List CertData)
    (oldTargets targets : List Target) :
    (s.handleTargets (.add (some targets))).tnet = some (installed s.certs targets .add) ∧
    (s.handleTargets (.update (some (oldTargets, targets)))).tnet =
      some (installed s.certs targets (.update oldTargets)) ∧
    (s.handleTargets (.sync (some (certs, targets)))).tnet =
      some (installed (setCerts certs) targets .sync) := by
  unfold Service.handleTargets
  rw [hempty]
  exact ⟨rfl, rfl, rfl⟩

variable {config : WgConfig}

/-- All that `ensureWireguardInterface` can do. -/
theorem ensureWireguardInterface_cases [PrefixTable T] {s s' : Service T} {creation : Creation}
    {ok : Bool}
    (h : s.ensureWireguardInterface config creation = some (s', ok)) :
    ∃ tnet, s' = { s with tnet := tnet } ∧
      ((normalizeInterfaceAddress config.ipAddress = none ∧ tnet = s.tnet ∧ ok = false) ∨
        (normalizeInterfaceAddress config.ipAddress).isSome = true ∧
          (s.useNativeInterface = true ∧ (tnet = s.tnet ∧ ok = false ∨ tnet = none) ∨
            s.useNativeInterface = false ∧
              (tnet = none ∧ ok = false ∨ tnet = some (.fresh true)))) := by
  unfold Service.ensureWireguardInterface at h
  cases haddress : normalizeInterfaceAddress config.ipAddress with
  | none =>
    rw [haddress] at h
    cases h
    exact ⟨_, rfl, .inl ⟨rfl, rfl, rfl⟩⟩
  | some p =>
    rw [haddress] at h
    by_cases hnative : s.useNativeInterface = true
    · rw [if_pos hnative] at h
      cases creation <;> cases h <;>
        first
          | exact ⟨_, rfl, .inr ⟨rfl, .inl ⟨hnative, .inl ⟨rfl, rfl⟩⟩⟩⟩
          | exact ⟨_, rfl, .inr ⟨rfl, .inl ⟨hnative, .inr rfl⟩⟩⟩
    · rw [if_neg hnative] at h
      have hnative := Bool.eq_false_iff.mpr hnative
      cases creation <;> cases h <;>
        first
          | exact ⟨_, rfl, .inr ⟨rfl, .inr ⟨hnative, .inl ⟨rfl, rfl⟩⟩⟩⟩
          | exact ⟨_, rfl, .inr ⟨rfl, .inr ⟨hnative, .inr rfl⟩⟩⟩

/-- What becomes of the netstack when a configuration has a usable address. -/
def RenewsNetstack {T : Type → Type} [PrefixTable T] (s : Service T) (config : WgConfig)
    (tnet : Option (ProxyHandler T)) : Prop :=
  s.useNativeInterface = true ∧ (tnet = s.tnet ∨ tnet = none) ∨
    s.useNativeInterface = false ∧ (tnet = none ∨ tnet = some (.fresh true) ∨
      tnet = some (installed (setCerts config.certs) config.targets .receiveConfig))

/-- All that a configuration can do. -/
theorem handleConfig_cases [PrefixTable T] {s s' : Service T} {creation : Creation}
    (h : s.handleConfig creation (some config) = some s') :
    (acceptConfig s.pendingConfigChainId config = none ∧ s' = s) ∨
      ∃ pending tnet, acceptConfig s.pendingConfigChainId config = some pending ∧
        s' = { s with
               pendingConfigChainId := pending
               certs := setCerts config.certs
               tnet := tnet } ∧
        ((normalizeInterfaceAddress config.ipAddress = none ∧ tnet = s.tnet) ∨
          (normalizeInterfaceAddress config.ipAddress).isSome = true ∧
            RenewsNetstack s config tnet) := by
  unfold Service.handleConfig at h
  dsimp only at h
  split at h
  · next haccept =>
    cases h
    exact .inl ⟨haccept, rfl⟩
  · next pending haccept =>
    right
    split at h
    · cases h
    · next hcreate =>
      cases h
      obtain ⟨tnet, rfl, hends⟩ := ensureWireguardInterface_cases hcreate
      refine ⟨pending, tnet, haccept, rfl, ?_⟩
      rcases hends with ⟨hnone, htnet, _⟩ | ⟨hsome, ⟨hnative, htnet⟩ | ⟨hnative, htnet⟩⟩
      · exact .inl ⟨hnone, htnet⟩
      · exact .inr ⟨hsome, .inl ⟨hnative, htnet.imp And.left id⟩⟩
      · exact .inr ⟨hsome, .inr ⟨hnative, htnet.imp And.left .inl⟩⟩
    · next hcreate =>
      cases h
      obtain ⟨tnet, rfl, hends⟩ := ensureWireguardInterface_cases hcreate
      rcases hends with ⟨_, _, hok⟩ | ⟨hsome, ⟨hnative, htnet⟩ | ⟨hnative, htnet⟩⟩
      · cases hok
      · rcases htnet with ⟨_, hok⟩ | rfl
        · cases hok
        · exact ⟨pending, none, haccept, rfl, .inr ⟨hsome, .inl ⟨hnative, .inr rfl⟩⟩⟩
      · rcases htnet with ⟨_, hok⟩ | rfl
        · cases hok
        · exact ⟨pending, _, haccept, rfl, .inr ⟨hsome, .inr ⟨hnative, .inr (.inr rfl)⟩⟩⟩

/-- What a configuration does, once the interface is created. -/
theorem handleConfig_installed [PrefixTable T] {s : Service T}
    (hnative : s.useNativeInterface = false) {pending : String}
    (haccept : acceptConfig s.pendingConfigChainId config = some pending) {p : Prefix}
    (haddress : normalizeInterfaceAddress config.ipAddress = some p) :
    s.handleConfig .created (some config) =
      some { s with
             pendingConfigChainId := pending
             certs := setCerts config.certs
             tnet := some (installed (setCerts config.certs) config.targets .receiveConfig) } := by
  unfold Service.handleConfig
  dsimp only
  rw [haccept]
  unfold Service.ensureWireguardInterface
  rw [haddress, hnative]
  rfl

section Installation

variable {T : Type → Type} [PrefixTable T] [LawfulPrefixTable T]

variable (certs : CertTable) (targets : List Target)

theorem follows_install {via : Route} (hvia : via ≠ .receiveConfig) :
    (Service.install certs targets via : Service T).Follows
      ⟨certs, Desired.addTargets certs empty targets⟩ := by
  have hfresh : Serves (fresh true : ProxyHandler T) empty := serves_fresh true
  refine ⟨rfl, _, rfl, ?_⟩
  cases via with
  | receiveConfig => exact absurd rfl hvia
  | add => exact hfresh.addTargets certs targets
  | update oldTargets =>
    have hremoved := hfresh.removeTargets oldTargets
    rw [Desired.removeTargets_empty] at hremoved
    exact hremoved.addTargets certs targets
  | sync => exact hfresh.syncTargets certs targets

theorem follows_receiveConfig :
    (Service.install certs targets .receiveConfig : Service T).Follows
      ⟨certs, (rulesBefore certs targets).foldl add empty⟩ :=
  ⟨rfl, _, rfl, (serves_fresh true).ensureTargets certs targets⟩

/-- Maps that hold the same rules are equal. -/
theorem eq_of_same_rules {m m' : RuleMap} (hm : m.Keyed) (hm' : m'.Keyed)
    (h : ∀ r : SubnetRule, m r.key = some r ↔ m' r.key = some r) : m = m' := by
  funext k
  refine Option.ext fun r => ⟨fun hk => ?_, fun hk => ?_⟩
  · obtain rfl := hm k r hk
    exact (h r).mp hk
  · obtain rfl := hm' k r hk
    exact (h r).mpr hk

omit [LawfulPrefixTable T] in
theorem Service.Follows.keyed {s : Service T} {d : Desired} (h : s.Follows d) : d.rules.Keyed := by
  obtain ⟨p, _, hserves⟩ := h.serves
  exact hserves.refines.keyed

/-- **When the four ways give the same rules.**  A list of targets gives the same
rules whichever way it is installed, and further messages are folded into the map
of these rules, exactly if nothing behind the first prefix that cannot be parsed
changes what the rules before it say. -/
theorem targets_installed_alike_iff :
    ((∀ (via via' : Route) (r : SubnetRule),
        r ∈ (Service.install certs targets via : Service T).rules ↔
          r ∈ (Service.install certs targets via' : Service T).rules) ∧
      ∀ (via : Route) (msgs : List TargetMessage) (r : SubnetRule),
        r ∈ (msgs.foldl Service.handleTargets
            (Service.install certs targets via : Service T)).rules ↔
          (msgs.foldl Desired.handle
            ⟨certs, Desired.addTargets certs empty targets⟩).rules r.key = some r) ↔
      NothingBehind certs targets := by
  have hconfig := follows_receiveConfig (T := T) certs targets
  rw [nothingBehind_iff]
  refine ⟨?_, ?_⟩
  · intro ⟨hsame, _⟩
    have hadd : (Service.install certs targets .add : Service T).Follows _ :=
      follows_install certs targets (fun h => nomatch h)
    refine eq_of_same_rules hadd.keyed hconfig.keyed fun r => ?_
    rw [← hadd.mem_rules, ← hconfig.mem_rules]
    exact hsame .add .receiveConfig r
  · intro heq
    have hall : ∀ via : Route, (Service.install certs targets via : Service T).Follows
        ⟨certs, Desired.addTargets certs empty targets⟩ := by
      intro via
      by_cases hvia : via = .receiveConfig
      · subst hvia
        rw [heq]
        exact hconfig
      · exact follows_install certs targets hvia
    refine ⟨?_, ?_⟩
    · intro via via' r
      rw [(hall via).mem_rules, (hall via').mem_rules]
    · intro via msgs r
      exact (rules_follow_messages (hall via) msgs).mem_rules

end Installation

/-- A target that cannot be installed, and one that can. -/
def unparsableTarget : Target :=
  { sourcePrefix := "10.0.0.0/8", destPrefix := "intranet" }

def parsableTarget : Target :=
  { sourcePrefixes := ["10.0.0.0/8"], destPrefix := "192.168.0.0/16" }

theorem config_stops_at_unparsable_target :
    ¬ ∀ r : SubnetRule,
      r ∈ (Service.install (fun _ => none) [unparsableTarget, parsableTarget] .receiveConfig :
          Service ListTable).rules ↔
        r ∈ (Service.install (fun _ => none) [unparsableTarget, parsableTarget] .add :
          Service ListTable).rules := by
  intro h
  have hrule := (h (targetRule (fun _ => none) parsableTarget (.from4 0x0a000000#32 8)
    (.from4 0xc0a80000#32 16))).mpr (by decide +kernel)
  revert hrule
  decide +kernel

/-- With the same targets the other way round nothing is lost. -/
theorem unparsable_target_last_alike :
    LawfulPrefixTable ListTable ∧
    ∀ (via : Route) (msgs : List TargetMessage) (r : SubnetRule),
      r ∈ (msgs.foldl Service.handleTargets
          (Service.install (fun _ => none) [parsableTarget, unparsableTarget] via :
            Service ListTable)).rules ↔
        (msgs.foldl Desired.handle
          ⟨fun _ => none, Desired.addTargets (fun _ => none) empty
            [parsableTarget, unparsableTarget]⟩).rules r.key = some r :=
  ⟨inferInstance, ((targets_installed_alike_iff (fun _ => none)
    [parsableTarget, unparsableTarget]).mpr (by decide +kernel)).2⟩

end Clients

end Newt
