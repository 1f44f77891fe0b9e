import Newt.ClientTargets
import Newt.Lib.HostPort
import Newt.Lib.Runs

/-!
# Certificates of the installed rules

A target may name a certificate by its id instead of carrying it.  The id is
resolved when the rule is built and the pair is copied into the rule; the table of
certificates is changed by messages of its own.  `HandleConn` builds the TLS
configuration of a rule from the rule's pair and keeps it in a cache under the
two texts joined by a bar.

The system keeps, for no step of the code to read, the target each installed rule
came from.  What `tls.X509KeyPair` makes of two texts is a parameter, and so is
the self-signed configuration that stands in for a pair that is none.

* `KeepsCertificates` — a message about certificates, or a configuration that is
  given up after its certificates were taken, changes no pair that an installed
  rule was built from; and no certificate has a bar in it;
* `certificates_current` — in runs of such messages every rule presents what is
  stored under its id.
-/

namespace Newt

open Netip Function List

namespace Clients

/-- The target each pair of masked prefixes was installed for. -/
abbrev Origin := RuleKey → Option Target

namespace Origin

def put (o : Origin) (target : Target) (sourcePrefix destPrefix : Prefix) : Origin :=
  update o (sourcePrefix.masked, destPrefix.masked) (some target)

def drop (o : Origin) (_ : Target) (sourcePrefix destPrefix : Prefix) : Origin :=
  update o (sourcePrefix.masked, destPrefix.masked) none

def handle (o : Origin) : TargetMessage → Origin
  | .add (some targets) => forEachPrefix put o targets
  | .remove (some targets) => forEachPrefix drop o targets
  | .update (some (oldTargets, newTargets)) =>
    forEachPrefix put (forEachPrefix drop o oldTargets) newTargets
  | .sync (some (_, targets)) => forEachPrefix put (fun _ => none) targets
  | .add none | .remove none | .update none | .sync none => o

/-- The targets of a configuration, as far as they are installed. -/
def configured (targets : List Target) : Origin :=
  ((entries targets).takeWhile Option.isSome).reduceOption.foldl
    (fun o e => o.put e.1 e.2.1 e.2.2) (fun _ => none)

end Origin

/-- `tls.X509KeyPair` and the self-signed configuration. -/
structure Tls (C : Type) where
  x509KeyPair : String → String → Option C
  fallback : C

/-- The key of the cache of TLS configurations. -/
def cacheKey (cert key : String) : String :=
  cert ++ "|" ++ key

section Cache

variable {C : Type} (tls : Tls C)

/-- The configuration for a certificate and a key. -/
def Tls.config (cert key : String) : C :=
  (tls.x509KeyPair cert key).getD tls.fallback

/-- `getTLSConfig`. -/
def getTLSConfig (tlsCache : String → Option C) (rule : SubnetRule) : C × (String → Option C) :=
  match tlsCache (cacheKey rule.tlsCert rule.tlsKey) with
  | some cfg => (cfg, tlsCache)
  | none =>
    match tls.x509KeyPair rule.tlsCert rule.tlsKey with
    | none => (tls.fallback, tlsCache)
    | some cfg =>
      (cfg, update tlsCache (cacheKey rule.tlsCert rule.tlsKey) (some cfg))

/-- The TLS part of `HandleConn`, with the port the connection arrived on. -/
def handleConn (tlsCache : String → Option C) (rule : SubnetRule) (port : UInt16) :
    String → Option C :=
  if rule.protocol = "https" ∧ port = 443 then (getTLSConfig tls tlsCache rule).2 else tlsCache

end Cache

namespace Certs

structure Sys (T : Type → Type) (C : Type) where
  service : Service T
  origin : Origin
  tlsCache : String → Option C

inductive Event
  | loadRemoteConfig (chainId : String)
  | receiveConfig (creation : Creation) (config : Option WgConfig)
  | targets (msg : TargetMessage)
  | addCerts (certs : Option (List CertData))
  | removeCerts (ids : Option (List String))
  | accept (rule : SubnetRule) (port : UInt16)
  deriving DecidableEq, Repr

variable {T : Type → Type} [PrefixTable T] {C : Type}

/-- A configuration gets as far as the creation of an interface. -/
def reachesInterface (pendingConfigChainId : String) : Option WgConfig → Bool
  | none => false
  | some config =>
    (acceptConfig pendingConfigChainId config).isSome &&
      (normalizeInterfaceAddress config.ipAddress).isSome

namespace Sys

def init (useNativeInterface : Bool) : Sys T C :=
  { service := { useNativeInterface := useNativeInterface, pendingConfigChainId := "",
                 certs := fun _ => none, tnet := none }
    origin := fun _ => none
    tlsCache := fun _ => none }

def step (tls : Tls C) (s : Sys T C) : Event → Option (Sys T C)
  | .loadRemoteConfig chainId =>
    some { s with service := { s.service with pendingConfigChainId := chainId } }
  | .receiveConfig creation config =>
    match s.service.handleConfig creation config with
    | none => none
    | some service =>
      -- The cache goes with the netstack it belongs to.
      if reachesInterface s.service.pendingConfigChainId config then
        some { service := service
               origin := Origin.configured ((config.map WgConfig.targets).getD [])
               tlsCache := fun _ => none }
      else some { s with service := service }
  | .targets msg =>
    some { s with service := s.service.handleTargets msg, origin := s.origin.handle msg }
  | .addCerts (some certs) =>
    some { s with service := { s.service with certs := addCerts s.service.certs certs } }
  | .removeCerts (some ids) =>
    some { s with service := { s.service with certs := removeCerts s.service.certs ids } }
  | .addCerts none | .removeCerts none => some s
  | .accept rule port => some { s with tlsCache := handleConn tls s.tlsCache rule port }

/-- Every installed rule that came from a target with an id has the pair that is
stored under the id now, or the target's own if there is none, and a new
connection is served with it. -/
def Current (tls : Tls C) (s : Sys T C) : Prop :=
  ∀ r ∈ s.service.rules, ∃ target, s.origin r.key = some target ∧
    (target.tlsCertID ≠ "" →
      (r.tlsCert, r.tlsKey) = resolveTLS s.service.certs target ∧
      (getTLSConfig tls s.tlsCache r).1 =
        tls.config (resolveTLS s.service.certs target).1 (resolveTLS s.service.certs target).2)

instance [DecidableEq C] (tls : Tls C) (s : Sys T C) : Decidable (s.Current tls) := by
  unfold Current
  infer_instance

/-- Another table of certificates gives every installed rule the pair it has. -/
def SamePairs (s : Sys T C) (certs : CertTable) : Prop :=
  ∀ r ∈ s.service.rules, ∀ target ∈ s.origin r.key,
    resolveTLS certs target = resolveTLS s.service.certs target
  deriving Decidable

end Sys

/-- A text without a bar, as certificates in PEM are. -/
def BarFree (text : String) : Prop :=
  '|' ∉ text.toList
  deriving Decidable

def BarFreeCerts (certs : List CertData) : Prop :=
  ∀ c ∈ certs, BarFree c.cert
  deriving Decidable

def BarFreeTargets (targets : List Target) : Prop :=
  ∀ target ∈ targets, BarFree target.tlsCert
  deriving Decidable

/-- The condition on a message. -/
def KeepsCertificates (s : Sys T C) : Event → Prop
  | .loadRemoteConfig _ | .receiveConfig _ none => True
  | .receiveConfig _ (some config) =>
    BarFreeCerts config.certs ∧ BarFreeTargets config.targets ∧
      ((acceptConfig s.service.pendingConfigChainId config).isSome = true →
        normalizeInterfaceAddress config.ipAddress = none → s.SamePairs (setCerts config.certs))
  | .targets (.add (some targets)) => BarFreeTargets targets
  | .targets (.update (some request)) => BarFreeTargets request.2
  | .targets (.sync (some data)) => BarFreeCerts data.1 ∧ BarFreeTargets data.2
  | .targets _ => True
  | .addCerts (some certs) =>
    BarFreeCerts certs ∧ s.SamePairs (addCerts s.service.certs certs)
  | .removeCerts (some ids) => s.SamePairs (removeCerts s.service.certs ids)
  | .addCerts none | .removeCerts none => True
  | .accept rule _ => BarFree rule.tlsCert

instance (s : Sys T C) (e : Event) : Decidable (KeepsCertificates s e) := by
  unfold KeepsCertificates
  split <;> infer_instance

/-- Every rule of a map has the pair of the target it came from. -/
def Presents (certs : CertTable) (m : RuleMap) (o : Origin) : Prop :=
  ∀ k r, m k = some r → ∃ target, o k = some target ∧
    (r.tlsCert, r.tlsKey) = resolveTLS certs target ∧ BarFree r.tlsCert

def BarFreeTable (certs : CertTable) : Prop :=
  ∀ id pair, certs id = some pair → BarFree pair.cert

theorem BarFreeTable.resolveTLS {certs : CertTable} (h : BarFreeTable certs) {target : Target}
    (htarget : BarFree target.tlsCert) : BarFree (resolveTLS certs target).1 := by
  unfold Clients.resolveTLS
  split
  · exact htarget
  · split
    · exact htarget
    · next pair hpair => exact h _ pair hpair

theorem BarFreeTable.update {m : CertTable} (h : BarFreeTable m) (id : String)
    {pair : Option CertPair} (hpair : ∀ p ∈ pair, BarFree p.cert) :
    BarFreeTable (update m id pair) := by
  intro id' p hp
  by_cases hid : id' = id
  · subst hid
    rw [update_self] at hp
    exact hpair p hp
  · rw [update_of_ne hid] at hp
    exact h id' p hp

theorem BarFreeTable.putCerts {m : CertTable} (h : BarFreeTable m) {certs : List CertData}
    (hcerts : BarFreeCerts certs) : BarFreeTable (putCerts m certs) := by
  induction certs generalizing m with
  | nil => exact h
  | cons c certs ih =>
    refine ih (h.update c.id fun p hp => ?_)
      (fun c' hc' => hcerts c' (mem_cons_of_mem c hc'))
    cases hp
    exact hcerts c mem_cons_self

theorem barFreeTable_setCerts {certs : List CertData} (h : BarFreeCerts certs) :
    BarFreeTable (setCerts certs) := by
  refine BarFreeTable.putCerts ?_ h
  intro _ _ hpair
  cases hpair

theorem BarFreeTable.addCerts {m : CertTable} (h : BarFreeTable m) {certs : List CertData}
    (hcerts : BarFreeCerts certs) : BarFreeTable (addCerts m certs) := by
  unfold Clients.addCerts
  split
  · exact h
  · exact h.putCerts hcerts

theorem BarFreeTable.removeCerts {m : CertTable} (h : BarFreeTable m) (ids : List String) :
    BarFreeTable (removeCerts m ids) := by
  have hfold : BarFreeTable (ids.foldl (fun m id => Function.update m id none) m) := by
    induction ids generalizing m with
    | nil => exact h
    | cons id ids ih => exact ih (h.update id fun _ hp => nomatch hp)
  unfold Clients.removeCerts
  split
  · exact h
  · exact hfold

section Rules

variable {certs : CertTable} {m : RuleMap} {o : Origin}

theorem presents_empty (certs : CertTable) (o : Origin) : Presents certs RuleMap.empty o := by
  intro k r h
  cases h

section

variable (h : Presents certs m o)
include h

theorem Presents.add (hcerts : BarFreeTable certs) {target : Target}
    (htarget : BarFree target.tlsCert) (sourcePrefix destPrefix : Prefix) :
    Presents certs (m.add (targetRule certs target sourcePrefix destPrefix))
      (o.put target sourcePrefix destPrefix) := by
  intro k r hr
  have hkey : (targetRule certs target sourcePrefix destPrefix).key =
    (sourcePrefix.masked, destPrefix.masked) := rfl
  unfold RuleMap.add at hr
  rw [hkey] at hr
  unfold Origin.put
  by_cases hk : k = (sourcePrefix.masked, destPrefix.masked)
  · subst hk
    rw [update_self] at hr ⊢
    cases hr
    exact ⟨target, rfl, rfl, hcerts.resolveTLS htarget⟩
  · rw [update_of_ne hk] at hr ⊢
    exact h k r hr

theorem Presents.remove (target : Target) (sourcePrefix destPrefix : Prefix) :
    Presents certs (m.remove sourcePrefix destPrefix)
      (o.drop target sourcePrefix destPrefix) := by
  intro k r hr
  unfold RuleMap.remove at hr
  unfold Origin.drop
  by_cases hk : k = (sourcePrefix.masked, destPrefix.masked)
  · subst hk
    rw [update_self] at hr
    cases hr
  · rw [update_of_ne hk] at hr ⊢
    exact h k r hr

theorem Presents.addTargets (hcerts : BarFreeTable certs) {targets : List Target}
    (htargets : BarFreeTargets targets) :
    Presents certs (Desired.addTargets certs m targets) (forEachPrefix Origin.put o targets) :=
  forEachPrefix_rel (fun target htarget sourcePrefix destPrefix h =>
    h.add hcerts (htargets target htarget) sourcePrefix destPrefix) h

theorem Presents.removeTargets (targets : List Target) :
    Presents certs (Desired.removeTargets m targets) (forEachPrefix Origin.drop o targets) :=
  forEachPrefix_rel (fun target _ sourcePrefix destPrefix h =>
    h.remove target sourcePrefix destPrefix) h

end

theorem presents_configured (hcerts : BarFreeTable certs) {targets : List Target}
    (htargets : BarFreeTargets targets) :
    Presents certs ((rulesBefore certs targets).foldl RuleMap.add RuleMap.empty)
      (Origin.configured targets) := by
  unfold rulesBefore entryRules Origin.configured
  rw [foldl_map]
  refine foldl_rel (presents_empty certs _) (fun e he m o h => ?_)
  have hmem : some e ∈ entries targets :=
    (takeWhile_sublist _).subset (reduceOption_mem_iff.mp he)
  exact h.add hcerts (htargets e.1 (mem_of_entry hmem)) e.2.1 e.2.2

/-- The same rules under another table that gives them the same pairs. -/
theorem Presents.congr (h : Presents certs m o) {certs' : CertTable}
    (hsame : ∀ k r, m k = some r → ∀ target ∈ o k,
      resolveTLS certs' target = resolveTLS certs target) :
    Presents certs' m o := by
  intro k r hr
  obtain ⟨target, htarget, hpair, hfree⟩ := h k r hr
  refine ⟨target, htarget, ?_, hfree⟩
  rw [hsame k r hr target htarget]
  exact hpair

end Rules

/-- Joined texts can be taken apart again if the first one has no bar. -/
theorem cacheKey_inj {cert cert' key key' : String} (hcert : BarFree cert)
    (hcert' : BarFree cert') (h : cacheKey cert key = cacheKey cert' key') :
    cert = cert' ∧ key = key' := by
  have hsplit : ∀ {cert key : String}, BarFree cert →
      HostPort.splitFirst '|' (cacheKey cert key).toList = some (cert.toList, key.toList) := by
    intro cert key hfree
    unfold cacheKey
    rw [String.toList_append, String.toList_append, append_assoc]
    exact HostPort.splitFirst_append hfree
  have heq : HostPort.splitFirst '|' (cacheKey cert key).toList = _ := hsplit hcert
  rw [h, hsplit hcert'] at heq
  obtain ⟨hc, hk⟩ := Prod.mk.inj (Option.some.inj heq)
  exact ⟨(String.toList_inj.mp hc).symm, (String.toList_inj.mp hk).symm⟩

/-- What the cache holds is what its key was made from. -/
def CacheSound (tls : Tls C) (tlsCache : String → Option C) : Prop :=
  ∀ name cfg, tlsCache name = some cfg → ∃ cert key, name = cacheKey cert key ∧ BarFree cert ∧
    tls.x509KeyPair cert key = some cfg

section Cache

variable {tls : Tls C} {tlsCache : String → Option C}

theorem CacheSound.getTLSConfig_fst (h : CacheSound tls tlsCache) {rule : SubnetRule}
    (hrule : BarFree rule.tlsCert) :
    (getTLSConfig tls tlsCache rule).1 = tls.config rule.tlsCert rule.tlsKey := by
  unfold getTLSConfig Tls.config
  split
  · next cfg hcfg =>
    obtain ⟨cert, key, hname, hcert, hpair⟩ := h _ cfg hcfg
    obtain ⟨rfl, rfl⟩ := cacheKey_inj hrule hcert hname
    rw [hpair]
    rfl
  · split
    · next hnone => rw [hnone]; rfl
    · next cfg hcfg => rw [hcfg]; rfl

theorem CacheSound.handleConn (h : CacheSound tls tlsCache) {rule : SubnetRule}
    (hrule : BarFree rule.tlsCert) (port : UInt16) :
    CacheSound tls (handleConn tls tlsCache rule port) := by
  unfold Clients.handleConn
  split
  · unfold getTLSConfig
    split
    · exact h
    · split
      · exact h
      · next cfg hcfg =>
        intro name cfg' hname
        dsimp only at hname
        by_cases heq : name = cacheKey rule.tlsCert rule.tlsKey
        · subst heq
          rw [update_self] at hname
          cases hname
          exact ⟨rule.tlsCert, rule.tlsKey, rfl, hrule, hcfg⟩
        · rw [update_of_ne heq] at hname
          exact h name cfg' hname
  · exact h

end Cache

namespace Sys

/-- The invariant. -/
structure Sound (tls : Tls C) (s : Sys T C) : Prop where
  native : s.service.useNativeInterface = true → s.service.tnet = none
  rules : ∀ p, s.service.tnet = some p →
    ∃ m, Serves p m ∧ Presents s.service.certs m s.origin
  certs : BarFreeTable s.service.certs
  cache : CacheSound tls s.tlsCache

variable {tls : Tls C} {s s' : Sys T C}

theorem sound_init (tls : Tls C) (useNativeInterface : Bool) :
    (init useNativeInterface : Sys T C).Sound tls := by
  refine ⟨fun _ => rfl, ?_, ?_, ?_⟩
  · intro p hp
    cases hp
  · intro _ _ h
    cases h
  · intro _ _ h
    cases h

variable [LawfulPrefixTable T]

theorem Sound.mem_rules (h : s.Sound tls) {r : SubnetRule} (hr : r ∈ s.service.rules) :
    ∃ target, s.origin r.key = some target ∧
      (r.tlsCert, r.tlsKey) = resolveTLS s.service.certs target ∧ BarFree r.tlsCert := by
  cases hp : s.service.tnet with
  | none =>
    unfold Service.rules at hr
    rw [hp] at hr
    cases hr
  | some p =>
    obtain ⟨m, hserves, hpresents⟩ := h.rules p hp
    unfold Service.rules at hr
    rw [hp] at hr
    exact hpresents r.key r (hserves.refines.mem_getAllRules.mp hr)

theorem Sound.current (h : s.Sound tls) : s.Current tls := by
  intro r hr
  obtain ⟨target, htarget, hpair, hfree⟩ := h.mem_rules hr
  refine ⟨target, htarget, fun _ => ⟨hpair, ?_⟩⟩
  rw [h.cache.getTLSConfig_fst hfree, ← hpair]

/-- Another table that gives every rule the same pair. -/
theorem Sound.recertify (h : s.Sound tls) {certs : CertTable} (hcerts : BarFreeTable certs)
    (hsame : s.SamePairs certs) :
    Sound tls { s with service := { s.service with certs := certs } } := by
  refine ⟨h.native, ?_, hcerts, h.cache⟩
  intro p hp
  obtain ⟨m, hserves, hpresents⟩ := h.rules p hp
  refine ⟨m, hserves, hpresents.congr fun k r hk target htarget => ?_⟩
  have hkey : r.key = k := hserves.refines.keyed k r hk
  have hr : r ∈ s.service.rules := by
    unfold Service.rules
    rw [show s.service.tnet = some p from hp]
    exact hserves.refines.mem_getAllRules.mpr (by rw [hkey]; exact hk)
  exact hsame r hr target (by rw [hkey]; exact htarget)

omit [LawfulPrefixTable T] in
/-- The rules of the netstack are changed, with the record of their targets. -/
theorem Sound.retarget (h : s.Sound tls) {certs : CertTable} (hcerts : BarFreeTable certs)
    {origin : Origin} {f : ProxyHandler T → ProxyHandler T}
    (hf : ∀ p m, Serves p m → Presents s.service.certs m s.origin →
      ∃ m', Serves (f p) m' ∧ Presents certs m' origin) :
    Sound tls { s with
                service := { s.service with certs := certs, tnet := s.service.tnet.map f }
                origin := origin } := by
  refine ⟨?_, ?_, hcerts, h.cache⟩
  · intro hnative
    rw [h.native hnative]
    rfl
  · intro p' hp'
    obtain ⟨p, hp, rfl⟩ := Option.map_eq_some_iff.mp hp'
    obtain ⟨m, hserves, hpresents⟩ := h.rules p hp
    exact hf p m hserves hpresents

theorem Sound.targets (h : s.Sound tls) {msg : TargetMessage}
    (hcond : KeepsCertificates s (.targets msg)) :
    Sound tls { s with service := s.service.handleTargets msg, origin := s.origin.handle msg } := by
  cases msg with
  | add targets =>
    cases targets with
    | none => exact h
    | some targets =>
      exact h.retarget h.certs fun p m hserves hpresents =>
        ⟨_, hserves.addTargets _ targets, hpresents.addTargets h.certs hcond⟩
  | remove targets =>
    cases targets with
    | none => exact h
    | some targets =>
      exact h.retarget h.certs fun p m hserves hpresents =>
        ⟨_, hserves.removeTargets targets, hpresents.removeTargets targets⟩
  | update request =>
    cases request with
    | none => exact h
    | some request =>
      exact h.retarget h.certs fun p m hserves hpresents =>
        ⟨_, (hserves.removeTargets request.1).addTargets _ request.2,
          (hpresents.removeTargets request.1).addTargets h.certs hcond⟩
  | sync data =>
    cases data with
    | none => exact h
    | some data =>
      have hcerts := barFreeTable_setCerts hcond.1
      exact h.retarget hcerts fun p m hserves _ =>
        ⟨_, hserves.syncTargets _ data.2, (presents_empty _ _).addTargets hcerts hcond.2⟩

/-- A configuration with a usable address: the rules are those of its targets, or
there are none. -/
theorem Sound.configure (h : s.Sound tls) {config : WgConfig} (hcerts : BarFreeCerts config.certs)
    (htargets : BarFreeTargets config.targets) {tnet : Option (ProxyHandler T)}
    (htnet : RenewsNetstack s.service config tnet) (pending : String) :
    Sound tls { service := { s.service with
                             pendingConfigChainId := pending
                             certs := setCerts config.certs
                             tnet := tnet }
                origin := Origin.configured config.targets
                tlsCache := fun _ => none } := by
  have hfree := barFreeTable_setCerts hcerts
  refine ⟨?_, ?_, hfree, fun _ _ hnone => nomatch hnone⟩
  · intro hnative
    rcases htnet with ⟨_, htnet⟩ | ⟨hfalse, _⟩
    · rw [h.native hnative, or_self] at htnet
      exact htnet
    · rw [hfalse] at hnative
      cases hnative
  · intro p hp
    rcases htnet with ⟨hnative, htnet⟩ | ⟨_, rfl | rfl | rfl⟩
    · rw [h.native hnative, or_self] at htnet
      cases htnet.symm.trans hp
    · cases hp
    · cases hp
      exact ⟨_, serves_fresh true, presents_empty _ _⟩
    · cases hp
      exact ⟨_, (serves_fresh true).ensureTargets _ config.targets,
        presents_configured hfree htargets⟩

theorem Sound.receiveConfig (h : s.Sound tls) {creation : Creation} {config : Option WgConfig}
    (hcond : KeepsCertificates s (.receiveConfig creation config))
    (hstep : s.step tls (.receiveConfig creation config) = some s') : s'.Sound tls := by
  simp only [step] at hstep
  split at hstep
  · cases hstep
  · next service hservice =>
    cases config with
    | none =>
      cases hservice
      cases hstep
      exact h
    | some config =>
      obtain ⟨hcerts, htargets, hsame⟩ := hcond
      have hreach : reachesInterface s.service.pendingConfigChainId (some config) =
        ((acceptConfig s.service.pendingConfigChainId config).isSome &&
          (normalizeInterfaceAddress config.ipAddress).isSome) := rfl
      rcases handleConfig_cases hservice with ⟨haccept, rfl⟩ |
        ⟨pending, tnet, haccept, rfl, ⟨haddress, rfl⟩ | ⟨haddress, htnet⟩⟩
      · rw [hreach, haccept] at hstep
        cases hstep
        exact h
      · rw [hreach, haccept, haddress] at hstep
        cases hstep
        have hrecert := h.recertify (barFreeTable_setCerts hcerts)
          (hsame (by rw [haccept]; rfl) haddress)
        exact ⟨hrecert.native, hrecert.rules, hrecert.certs, hrecert.cache⟩
      · rw [hreach, haccept, haddress] at hstep
        cases hstep
        exact h.configure hcerts htargets htnet pending

theorem Sound.step (h : s.Sound tls) {e : Event} (hcond : KeepsCertificates s e)
    (hstep : s.step tls e = some s') : s'.Sound tls := by
  cases e with
  | loadRemoteConfig chainId =>
    cases hstep
    exact ⟨h.native, h.rules, h.certs, h.cache⟩
  | receiveConfig creation config => exact h.receiveConfig hcond hstep
  | targets msg =>
    cases hstep
    exact h.targets hcond
  | addCerts certs =>
    cases certs with
    | none =>
      cases hstep
      exact h
    | some certs =>
      cases hstep
      exact h.recertify (h.certs.addCerts hcond.1) hcond.2
  | removeCerts ids =>
    cases ids with
    | none =>
      cases hstep
      exact h
    | some ids =>
      cases hstep
      exact h.recertify (h.certs.removeCerts ids) hcond
  | accept rule port =>
    cases hstep
    exact ⟨h.native, h.rules, h.certs, h.cache.handleConn hcond port⟩

/-- **Rules present the certificates that are stored.** -/
theorem certificates_current (tls : Tls C) (useNativeInterface : Bool) (es : List Event)
    (s : Sys T C)
    (hmeets : Runs.Meets (step (T := T) tls) KeepsCertificates (init useNativeInterface) es)
    (hrun : Runs.run (step tls) (init useNativeInterface) es = some s) : s.Current tls :=
  (Runs.run_invariant (fun h hcond hstep => Sound.step h hcond hstep)
    (sound_init tls useNativeInterface) hmeets hrun).current

/-- A target with a certificate given by its id. -/
def webTarget : Target :=
  { sourcePrefix := "10.0.0.0/8", destPrefix := "192.168.1.5/32", protocol := "https",
    tlsCertID := "web" }

/-- Its rule with a certificate. -/
def webRule (cert key : String) : SubnetRule :=
  { sourcePrefix := .from4 0x0a000000#32 8, destPrefix := .from4 0xc0a80105#32 32,
    protocol := "https", tlsCert := cert, tlsKey := key }

/-- Every two texts are a pair. -/
def textPairs : Tls (String × String) :=
  { x509KeyPair := fun cert key => some (cert, key), fallback := ("", "") }

def webConfig : WgConfig :=
  { ipAddress := "100.90.0.1/24", targets := [webTarget], certs := [⟨"web", "old", "k1"⟩] }

theorem renewed_certificate_not_presented :
    ∃ s : Sys ListTable (String × String),
      Runs.run (step textPairs) (init false)
        [.receiveConfig .created (some webConfig), .addCerts (some [⟨"web", "new", "k2"⟩])] =
          some s ∧
      webRule "old" "k1" ∈ s.service.rules ∧
      resolveTLS s.service.certs webTarget = ("new", "k2") ∧ ¬ s.Current textPairs := by
  decide +kernel

/-- A sync that brings the renewed certificate builds the rules anew. -/
def renewedBySync : List Event :=
  [.receiveConfig .created (some webConfig), .accept (webRule "old" "k1") 443,
    .targets (.sync (some ([⟨"web", "new", "k2"⟩], [webTarget])))]

theorem renewedBySync_current :
    ∃ s : Sys ListTable (String × String),
      Runs.run (step textPairs) (init false) renewedBySync = some s ∧
      s.service.rules = [webRule "new" "k2"] ∧ s.Current textPairs := by
  have hmeets : Runs.Meets (step textPairs) KeepsCertificates
      (init false : Sys ListTable (String × String)) renewedBySync := by decide +kernel
  simp only [← and_assoc]
  refine Exists.imp (fun s h => ⟨h, certificates_current textPairs false _ s hmeets h.1⟩) ?_
  decide +kernel

end Sys

end Certs

end Clients

end Newt
