import Newt.LayeredConfig
import Newt.Lib.Runs

/-!
# Saving and reloading the config file

The program starts with settings from the file, the environment and the command line,
may exchange a provisioning key for credentials, and writes its credentials into the
file (`saveConfig`).  On SIGHUP it reads the file again: other credentials than the
client's close the tunnel and restart the process, and another value of `blocked` is
put into force.

`start` is the way from the layers to the running process, `connected` the save of a
new connection and `reload` the handler of SIGHUP.  Nobody else writes the file, so it
always has the contents it had at the start or was last given by `saveConfig`.

`sighup_changes_nothing` says when a reload has no effect in any reachable state.
-/

namespace Newt.ConfigReload

open JsonDecode LayeredConfig List Option Decoder

/-- The fields of `websocket.Config`. -/
inductive ConfigField
  | id
  | secret
  | endpoint
  | tlsClientCert
  | provisioningKey
  | name
  | blocked
  deriving DecidableEq, Repr

namespace ConfigField

def all : List ConfigField :=
  [id, secret, endpoint, tlsClientCert, provisioningKey, name, blocked]

def key : ConfigField → String
  | id => "id"
  | secret => "secret"
  | endpoint => "endpoint"
  | tlsClientCert => "tlsClientCert"
  | provisioningKey => "provisioningKey"
  | name => "name"
  | blocked => "blocked"

@[reducible] def Value : ConfigField → Type
  | blocked => Bool
  | id | secret | endpoint | tlsClientCert | provisioningKey | name => String

def decoder : ∀ f : ConfigField, Decoder f.Value f.Value
  | blocked => .scalar false Json.readBool
  | id | secret | endpoint | tlsClientCert | provisioningKey | name => .scalar "" Json.readString

/-- The field a key of the file names. -/
def ofKey (k : String) : Option ConfigField :=
  field? all key k

end ConfigField

/-- `websocket.Config`. -/
abbrev Config := ∀ f : ConfigField, f.Value

namespace Config

def zero : Config :=
  fun f => f.decoder.zero

/-- `json.Unmarshal` into a new configuration; `none` is an error. -/
def unmarshal (j : Json) : Option Config :=
  if recordFits ConfigField.all ConfigField.key ConfigField.decoder j then
    some (decodeRecord ConfigField.all ConfigField.key ConfigField.decoder zero j)
  else none

end Config

/-- `websocket.Client`, as far as the file is concerned. -/
structure Client where
  config : Config
  configNeedsSave : Bool

/-- The members of an object as a Go map: of equal keys the last one counts. -/
def setKey (k : String) (v : Json) (m : List (String × Json)) : List (String × Json) :=
  m.filter (fun kv => kv.1 ≠ k) ++ [(k, v)]

def deleteKey (k : String) (m : List (String × Json)) : List (String × Json) :=
  m.filter (fun kv => kv.1 ≠ k)

def toMap (members : List (String × Json)) : List (String × Json) :=
  members.foldl (fun m kv => setKey kv.1 kv.2 m) []

/-- The settings that are in the file; `none` is the nil map that `null` leaves. -/
def existingSettings : ConfigFile → Option (List (String × Json))
  | .json (.obj members) => some (toMap members)
  | .json .null => none
  | _ => some []

/-- `setOrDelete` in `saveConfig`. -/
def setOrDelete (k value : String) (m : List (String × Json)) : List (String × Json) :=
  if value ≠ "" then setKey k (.str value) m else deleteKey k m

/-- `json.MarshalIndent` of a map: its keys are sorted. -/
def marshal (m : List (String × Json)) : Json :=
  .obj (m.mergeSort (fun a b => decide (a.1 ≤ b.1)))

namespace Client

/-- What `saveConfig` makes of the settings in the file. -/
def store (c : Client) (existing : List (String × Json)) : List (String × Json) :=
  let existing := setKey "id" (.str (c.config .id)) existing
  let existing := setKey "secret" (.str (c.config .secret)) existing
  let existing := setKey "endpoint" (.str (c.config .endpoint)) existing
  let existing := setOrDelete "tlsClientCert" (c.config .tlsClientCert) existing
  let existing := setOrDelete "provisioningKey" (c.config .provisioningKey) existing
  setOrDelete "name" (c.config .name) existing

/-- `saveConfig`; `writes` says whether the file can be written, and `none` is the
assignment to a nil map. -/
def saveConfig (c : Client) (file : ConfigFile) (writes : Bool) : Option (Client × ConfigFile) :=
  if c.configNeedsSave then
    (existingSettings file).map (fun existing =>
      if writes then
        ({ c with configNeedsSave := false }, .json (marshal (c.store existing)))
      else (c, file))
  else some (c, file)

/-- There is a provisioning key and no credentials. -/
def Provisions (c : Client) : Prop :=
  c.config .provisioningKey ≠ "" ∧ (c.config .id = "" ∨ c.config .secret = "")
  deriving Decidable

/-- The client after the exchange of a provisioning key. -/
def provisioned (c : Client) (newtID secret : String) : Client where
  config
    | .id => newtID
    | .secret => secret
    | .provisioningKey | .name => ""
    | .endpoint => c.config .endpoint
    | .tlsClientCert => c.config .tlsClientCert
    | .blocked => c.config .blocked
  configNeedsSave := true

/-- `provisionIfNeeded`, with the ID and the secret the server answers with; `none` is
an error or a panic. -/
def provisionIfNeeded (c : Client) (file : ConfigFile) (exchange : Option (String × String))
    (writes : Bool) : Option (Client × ConfigFile) :=
  if c.Provisions then
    exchange.bind (fun r =>
      if r.1 = "" ∨ r.2 = "" then none
      else (c.provisioned r.1 r.2).saveConfig file writes)
  else some (c, file)

/-- `loadConfig` looks whether the file has to be written. -/
def needsSave : ConfigFile → Bool
  | .missing | .blank => true
  | _ => false

/-- The client `Init` creates, before the provisioning. -/
def init (cfg : LayeredConfig.Config) (file : ConfigFile) : Client where
  config
    | .id => cfg.text .id
    | .secret => cfg.text .secret
    | .endpoint => cfg.text .endpoint
    | .tlsClientCert =>
      -- A certificate with its key comes before a PKCS12 file.
      if cfg.text .tlsClientCert ≠ "" ∧ cfg.text .tlsClientKey ≠ "" then ""
      else cfg.text .tlsPrivateKey
    | .provisioningKey => cfg.text .provisioningKey
    | .name => cfg.text .newtName
    | .blocked => false
  configNeedsSave := needsSave file

end Client

/-- The running process. -/
structure Process where
  file : ConfigFile
  client : Client
  connectionBlocked : Bool
  /-- The tunnel and the clients were closed and the process restarted. -/
  restarted : Bool

namespace Process

/-- The file of the client, at `cfg.ConfigFile`: the one that was read, unless the flags
name another path, with another file. -/
def clientFile (l : Layers) (other : ConfigFile) (cfg : LayeredConfig.Config) : ConfigFile :=
  if cfg.configFile = l.configPath then l.file else other

/-- From the layers to `Newt.Start`: `loadNewtConfig`, `validateTLSConfig` and `Init`.
`none` stands for a program that ends before. -/
def start (parseDuration : String → Option Int) (notExist : String → Bool) (l : Layers)
    (other : ConfigFile) (exchange : Option (String × String)) (writes : Bool) :
    Option Process :=
  (loadNewtConfig parseDuration l).bind (fun cfg =>
    match validateTLSConfig notExist cfg, clientFile l other cfg with
    | .error _, _ | _, .unreadable => none
    | .ok (), file =>
      ((Client.init cfg file).provisionIfNeeded file exchange writes).map (fun r =>
        { file := r.2
          client := r.1
          connectionBlocked := r.1.config .blocked
          restarted := false }))

/-- The credentials that are compared. -/
def SameCredentials (c d : Config) : Prop :=
  c .endpoint = d .endpoint ∧ c .id = d .id ∧ c .secret = d .secret
  deriving Decidable

/-- The handler of SIGHUP, for the configuration in the file. -/
def apply (s : Process) (newCfg : Config) : Process :=
  if SameCredentials newCfg s.client.config then
    { s with connectionBlocked := newCfg .blocked }
  else { s with restarted := true }

/-- The handler of SIGHUP: a file that cannot be read or decoded is ignored. -/
def reload (s : Process) : Process :=
  match s.file with
  | .json j => (Config.unmarshal j).elim s s.apply
  | _ => s

inductive Event
  | sighup
  /-- A connection is established and the configuration saved. -/
  | connected (writes : Bool)

def step (s : Process) (e : Event) : Option Process :=
  if s.restarted then none
  else
    match e with
    | .sighup => some s.reload
    | .connected writes =>
      (s.client.saveConfig s.file writes).map (fun r => { s with client := r.1, file := r.2 })

end Process

/-- The values the members of an object give to a field. -/
def values (f : ConfigField) (m : List (String × Json)) : List Json :=
  m.filterMap (fun kv => if ConfigField.ofKey kv.1 = some f then some kv.2 else none)

/-- No key is another spelling of a field's key. -/
def Plain (m : List (String × Json)) : Prop :=
  ∀ kv ∈ m, ∀ f, ConfigField.ofKey kv.1 = some f → kv.1 = f.key

section Values

variable {f : ConfigField} {k : String} {m : List (String × Json)}

theorem ofKey_key (f : ConfigField) : ConfigField.ofKey f.key = some f := by cases f <;> decide

theorem values_append (m m' : List (String × Json)) :
    values f (m ++ m') = values f m ++ values f m' :=
  filterMap_append

theorem values_singleton_self (f : ConfigField) (v : Json) : values f [(f.key, v)] = [v] := by
  simp [values, ofKey_key]

theorem values_singleton_of_ne (hk : ConfigField.ofKey k ≠ some f) (v : Json) :
    values f [(k, v)] = [] := by simp [values, hk]

/-- Deleting the key of another field changes nothing for this one. -/
theorem values_deleteKey_of_ne (hk : ConfigField.ofKey k ≠ some f) :
    values f (deleteKey k m) = values f m := by
  unfold values deleteKey
  rw [filterMap_filter]
  refine filterMap_congr fun kv _ => ?_
  by_cases hkv : kv.1 = k
  · simp [hkv, hk]
  · simp [hkv]

/-- Without other spellings, deleting the key of a field deletes all its values. -/
theorem values_deleteKey_self (h : Plain m) : values f (deleteKey f.key m) = [] := by
  refine filterMap_eq_nil_iff.mpr (fun kv hkv => ?_)
  obtain ⟨hmem, hne⟩ := mem_filter.mp hkv
  rw [if_neg]
  intro hf
  exact of_decide_eq_true hne (h kv hmem f hf)

theorem values_setKey_of_ne (hk : ConfigField.ofKey k ≠ some f) (v : Json) :
    values f (setKey k v m) = values f m := by
  show values f (deleteKey k m ++ [(k, v)]) = _
  rw [values_append, values_deleteKey_of_ne hk, values_singleton_of_ne hk, append_nil]

theorem values_setKey_self (h : Plain m) (v : Json) : values f (setKey f.key v m) = [v] := by
  show values f (deleteKey f.key m ++ [(f.key, v)]) = _
  rw [values_append, values_deleteKey_self h, values_singleton_self, nil_append]

theorem values_setOrDelete_of_ne (hk : ConfigField.ofKey k ≠ some f) (v : String) :
    values f (setOrDelete k v m) = values f m := by
  unfold setOrDelete
  split
  · exact values_setKey_of_ne hk _
  · exact values_deleteKey_of_ne hk

theorem Plain.setKey (h : Plain m) {v : Json}
    (hk : ∀ f, ConfigField.ofKey k = some f → k = f.key) : Plain (setKey k v m) := by
  refine Runs.forall_mem_concat ?_ hk
  exact fun kv hold => h kv (mem_of_mem_filter hold)

theorem Plain.setKey_key (h : Plain m) (g : ConfigField) (v : Json) :
    Plain (ConfigReload.setKey g.key v m) := by
  refine h.setKey (fun f hf => ?_)
  rw [ofKey_key] at hf
  rw [some.inj hf]

/-- In a map there is one value for a field, the last one in the file. -/
theorem values_foldl_setKey (members : List (String × Json)) (hmembers : Plain members)
    (h : Plain m) :
    values f (members.foldl (fun m kv => setKey kv.1 kv.2 m) m) =
      ((values f members).getLast?.map (fun v => [v])).getD (values f m) := by
  induction members generalizing m with
  | nil => rfl
  | cons kv members ih =>
    have hrest : Plain members := fun kv hkv => hmembers kv (mem_cons_of_mem _ hkv)
    have hkv := hmembers kv mem_cons_self
    rw [foldl_cons, ih hrest (h.setKey hkv), ← singleton_append (l := members), values_append]
    by_cases hf : ConfigField.ofKey kv.1 = some f
    · obtain ⟨k', v⟩ := kv
      obtain rfl : k' = f.key := hkv f hf
      rw [values_setKey_self h, values_singleton_self, getLast?_append]
      cases (values f members).getLast? <;> rfl
    · obtain ⟨k', v⟩ := kv
      rw [values_setKey_of_ne hf, values_singleton_of_ne hf, nil_append]

theorem values_toMap {members : List (String × Json)} (h : Plain members) :
    values f (toMap members) = (values f members).getLast?.toList := by
  have hempty : Plain [] := by
    intro kv hkv
    cases hkv
  rw [toMap, values_foldl_setKey members h hempty]
  cases (values f members).getLast? <;> rfl

theorem plain_foldl_setKey (members : List (String × Json)) (hmembers : Plain members)
    (h : Plain m) : Plain (members.foldl (fun m kv => setKey kv.1 kv.2 m) m) :=
  foldlRecOn members _ h (fun _ h kv hkv => h.setKey (hmembers kv hkv))

/-- Each field is decoded from the values its keys have. -/
theorem unmarshal_obj {members : List (String × Json)} {new : Config}
    (h : Config.unmarshal (.obj members) = some new) (f : ConfigField) :
    new f = (values f members).foldl f.decoder.decode f.decoder.zero := by
  unfold Config.unmarshal at h
  split at h <;> cases h
  have hread : members.foldl (assign ConfigField.all ConfigField.key
      ConfigField.decoder) Config.zero f =
        (values f members).foldl f.decoder.decode f.decoder.zero :=
    foldl_assign_apply members Config.zero f
  exact hread

/-- What a configuration that was written and read back has in a field, if the map has
at most one value for it. -/
theorem unmarshal_marshal {new : Config} (h : Config.unmarshal (marshal m) = some new)
    {v : Option Json} (hv : values f m = v.toList) :
    new f = v.toList.foldl f.decoder.decode f.decoder.zero := by
  rw [unmarshal_obj h]
  have hperm : (values f (m.mergeSort (fun a b => decide (a.1 ≤ b.1)))).Perm (values f m) :=
    (mergeSort_perm m _).filterMap _
  rw [hv] at hperm
  cases v with
  | none =>
    rw [hperm.eq_nil]
    rfl
  | some v =>
    rw [perm_singleton.mp hperm]
    rfl

/-- The last value of a boolean decides alone if all of them give false. -/
theorem foldl_readBool_getLast {vs : List Json}
    (h : vs.foldl (fun x j => (Json.readBool j).getD x) false = false) :
    vs.getLast?.toList.foldl (fun x j => (Json.readBool j).getD x) false = false := by
  rcases eq_nil_or_concat vs with rfl | ⟨ws, v, rfl⟩
  · rfl
  · rw [concat_eq_append, foldl_concat] at h
    rw [concat_eq_append, getLast?_concat]
    show (Json.readBool v).getD false = false
    cases hread : Json.readBool v with
    | none => rfl
    | some b =>
      rw [hread] at h
      exact h

end Values

open Process

/-- What the file says does not differ from what is in force. -/
def Agrees (j : Json) (c : Config) : Prop :=
  ∀ new, Config.unmarshal j = some new → SameCredentials new c ∧ new .blocked = false

/-- The credentials that are saved are the ones that are read back, and `blocked` is as
it was. -/
theorem agrees_store (c : Client) {m : List (String × Json)} (hplain : Plain m)
    {v : Option Json} (hv : values .blocked m = v.toList)
    (hblocked : v.toList.foldl (fun x j => (Json.readBool j).getD x) false = false) :
    Agrees (marshal (c.store m)) c.config := by
  have hplain1 := hplain.setKey_key .id (.str (c.config .id))
  have hplain2 := hplain1.setKey_key .secret (.str (c.config .secret))
  have hid : values .id (c.store m) = [.str (c.config .id)] := by
    unfold Client.store
    simp (disch := decide) only [values_setOrDelete_of_ne, values_setKey_of_ne]
    exact values_setKey_self hplain _
  have hsecret : values .secret (c.store m) = [.str (c.config .secret)] := by
    unfold Client.store
    simp (disch := decide) only [values_setOrDelete_of_ne, values_setKey_of_ne]
    exact values_setKey_self hplain1 _
  have hendpoint : values .endpoint (c.store m) = [.str (c.config .endpoint)] := by
    unfold Client.store
    simp (disch := decide) only [values_setOrDelete_of_ne]
    exact values_setKey_self hplain2 _
  have hkept : values .blocked (c.store m) = v.toList := by
    unfold Client.store
    simp (disch := decide) only [values_setOrDelete_of_ne, values_setKey_of_ne, hv]
  intro new hnew
  refine ⟨⟨?_, ?_, ?_⟩, ?_⟩
  · exact unmarshal_marshal hnew (v := some _) hendpoint
  · exact unmarshal_marshal hnew (v := some _) hid
  · exact unmarshal_marshal hnew (v := some _) hsecret
  · exact (unmarshal_marshal hnew hkept).trans hblocked

/-- A file that `saveConfig` can write credentials into: no key of it is another spelling
of a key of the configuration, and it does not set `blocked`. -/
def Rewritable : ConfigFile → Prop
  | .json j => Plain j.members ∧ ∃ new, Config.unmarshal j = some new ∧ new .blocked = false
  | _ => True

theorem agrees_store_existing (c : Client) {file : ConfigFile} (h : Rewritable file)
    {existing : List (String × Json)} (hexisting : existingSettings file = some existing) :
    Agrees (marshal (c.store existing)) c.config := by
  have hempty : Plain [] := by
    intro kv hkv
    cases hkv
  have hnil : Agrees (marshal (c.store [])) c.config := agrees_store c hempty (v := none) rfl rfl
  cases file with
  | json j =>
    cases j with
    | obj members =>
      cases hexisting
      obtain ⟨hplain, new, hnew, hblocked⟩ := h
      rw [unmarshal_obj hnew] at hblocked
      exact agrees_store c (plain_foldl_setKey members hplain hempty)
        (values_toMap hplain) (foldl_readBool_getLast hblocked)
    | null => cases hexisting
    | _ =>
      cases hexisting
      exact hnil
  | _ =>
    cases hexisting
    exact hnil

/-- The condition on the start.  Where the client has a config file, it does not set
`blocked`, and the credentials that were resolved are the ones it has; or they come
from a provisioning key, and the file can be written. -/
def InForce (parseDuration : String → Option Int) (l : Layers) (other : ConfigFile)
    (writes : Bool) : Prop :=
  ∀ cfg j, loadNewtConfig parseDuration l = some cfg → clientFile l other cfg = .json j →
    if (Client.init cfg (.json j)).Provisions then writes = true ∧ Rewritable (.json j)
    else Agrees j (Client.init cfg (.json j)).config

/-- What a save does: nothing, or the credentials are in the file. -/
theorem saveConfig_cases {c : Client} {file : ConfigFile} {writes : Bool}
    {r : Client × ConfigFile} (h : c.saveConfig file writes = some r) :
    (r = (c, file) ∧ (c.configNeedsSave = false ∨ writes = false)) ∨
      (c.configNeedsSave = true ∧ ∃ existing, existingSettings file = some existing ∧
        r = ({ c with configNeedsSave := false }, .json (marshal (c.store existing)))) := by
  unfold Client.saveConfig at h
  by_cases hneeds : c.configNeedsSave = true
  · rw [if_pos hneeds] at h
    obtain ⟨existing, hexisting, hr⟩ := map_eq_some_iff.mp h
    cases writes with
    | false => exact .inl ⟨hr.symm, .inr rfl⟩
    | true => exact .inr ⟨hneeds, existing, hexisting, hr.symm⟩
  · rw [if_neg hneeds] at h
    exact .inl ⟨(some.inj h).symm, .inl (Bool.eq_false_iff.mpr hneeds)⟩

namespace Process

variable {s s' : Process}

/-- The invariant: the file agrees with the client, and a client that has to be saved
has no settings in its file yet. -/
structure Sound (s : Process) : Prop where
  running : s.restarted = false
  unblocked : s.connectionBlocked = false
  unsaved : s.client.configNeedsSave = true → ∀ j, s.file ≠ .json j
  agrees : ∀ j, s.file = .json j → Agrees j s.client.config

/-- A reload that finds what is in force changes nothing. -/
theorem Sound.reload (h : s.Sound) : s.reload = s := by
  unfold Process.reload
  cases hfile : s.file with
  | json j =>
    show (Config.unmarshal j).elim s s.apply = s
    cases hnew : Config.unmarshal j with
    | none => rfl
    | some new =>
      obtain ⟨hsame, hblocked⟩ := h.agrees j hfile new hnew
      show s.apply new = s
      rw [Process.apply, if_pos hsame, hblocked, ← h.unblocked]
  | _ => rfl

variable {file : ConfigFile}

/-- The process after its credentials were saved. -/
theorem sound_saved (c : Client) (h : Rewritable file)
    {existing : List (String × Json)} (hexisting : existingSettings file = some existing) :
    Sound { file := .json (marshal (c.store existing)),
            client := { c with configNeedsSave := false }, connectionBlocked := false,
            restarted := false } where
  running := rfl
  unblocked := rfl
  unsaved := by
    intro hneeds
    cases hneeds
  agrees := by
    intro j hj
    obtain rfl := ConfigFile.json.inj hj
    exact agrees_store_existing c h hexisting

theorem rewritable_of_unsaved (h : ∀ j, file ≠ .json j) :
    Rewritable file := by
  cases file with
  | json j => exact absurd rfl (h j)
  | missing | blank | invalid | unreadable => trivial

/-- A save writes into a file that has no settings, if it writes at all. -/
theorem Sound.connected (h : s.Sound) {writes : Bool} {r : Client × ConfigFile}
    (hsave : s.client.saveConfig s.file writes = some r) :
    Sound { s with client := r.1, file := r.2 } := by
  rcases saveConfig_cases hsave with ⟨rfl, _⟩ | ⟨hneeds, existing, hexisting, rfl⟩
  · exact h
  · have hsound := sound_saved s.client (rewritable_of_unsaved (h.unsaved hneeds)) hexisting
    exact ⟨h.running, h.unblocked, hsound.unsaved, hsound.agrees⟩

theorem Sound.step (h : s.Sound) {e : Event} (hs : s.step e = some s') : s'.Sound := by
  have hrunning : ¬ s.restarted = true := by
    rw [h.running]
    exact Bool.false_ne_true
  unfold Process.step at hs
  rw [if_neg hrunning] at hs
  cases e with
  | sighup =>
    cases hs
    rw [h.reload]
    exact h
  | connected writes =>
    obtain ⟨r, hsave, rfl⟩ := map_eq_some_iff.mp hs
    exact h.connected hsave

/-- The process after the exchange of a provisioning key. -/
theorem sound_provisioned {c : Client} {writes : Bool}
    {newtID secret : String} {r : Client × ConfigFile} (hc : c.config .blocked = false)
    (hfile : (∀ j, file ≠ .json j) ∨ (writes = true ∧ Rewritable file))
    (hsave : (c.provisioned newtID secret).saveConfig file writes = some r) :
    Sound { file := r.2, client := r.1, connectionBlocked := r.1.config .blocked,
            restarted := false } := by
  have hrewritable : Rewritable file := hfile.elim rewritable_of_unsaved And.right
  rcases saveConfig_cases hsave with ⟨rfl, hnone⟩ | ⟨_, existing, hexisting, rfl⟩
  · -- The file could not be written, so there was none.
    have hwrites : writes = false := hnone.resolve_left (fun hneeds => nomatch hneeds)
    have hmissing : ∀ j, file ≠ .json j :=
      hfile.resolve_right (fun hboth => Bool.false_ne_true (hwrites.symm.trans hboth.1))
    exact ⟨rfl, hc, fun _ => hmissing, fun j hj => absurd hj (hmissing j)⟩
  · have hsound := sound_saved (c.provisioned newtID secret) hrewritable hexisting
    exact ⟨rfl, hc, hsound.unsaved, hsound.agrees⟩

theorem sound_start {parseDuration : String → Option Int} {notExist : String → Bool} {l : Layers}
    {other : ConfigFile} {exchange : Option (String × String)} {writes : Bool}
    (hcond : InForce parseDuration l other writes)
    (hstart : start parseDuration notExist l other exchange writes = some s) : s.Sound := by
  obtain ⟨cfg, hload, hstart⟩ := bind_eq_some_iff.mp hstart
  split at hstart
  · cases hstart
  · cases hstart
  generalize hclient : clientFile l other cfg = file at hstart
  obtain ⟨r, hinit, rfl⟩ := map_eq_some_iff.mp hstart
  unfold Client.provisionIfNeeded at hinit
  by_cases hprov : (Client.init cfg file).Provisions
  · rw [if_pos hprov] at hinit
    obtain ⟨answer, _, hsave⟩ := bind_eq_some_iff.mp hinit
    split at hsave
    · cases hsave
    refine sound_provisioned rfl ?_ hsave
    by_cases hjson : ∃ j, file = .json j
    · obtain ⟨j, rfl⟩ := hjson
      have h := hcond cfg j hload hclient
      rw [if_pos hprov] at h
      exact .inr h
    · exact .inl (not_exists.mp hjson)
  · rw [if_neg hprov] at hinit
    cases hinit
    refine ⟨rfl, rfl, fun hneeds j hj => ?_, fun j hj => ?_⟩
    · subst hj
      cases hneeds
    · subst hj
      have h := hcond cfg j hload hclient
      rwa [if_neg hprov] at h

end Process

/-- **Reloads of an unchanged file.**  If the file did not set `blocked` at the start and
the credentials were the file's own, or came from a provisioning key and could be
saved, or if there was no file, SIGHUP changes nothing in any state the process
reaches. -/
theorem sighup_changes_nothing (parseDuration : String → Option Int) (notExist : String → Bool)
    (l : Layers) (other : ConfigFile) (exchange : Option (String × String)) (writes : Bool)
    (s₀ s : Process) (es : List Event) (hcond : InForce parseDuration l other writes)
    (hstart : start parseDuration notExist l other exchange writes = some s₀)
    (hrun : Runs.run step s₀ es = some s) : s.reload = s :=
  (Runs.run_always (fun h hs => Sound.step h hs) (sound_start hcond hstart) hrun).reload

/-- The layers of a program with a config file and nothing on the command line. -/
def fileLayers (members : List (String × Json)) (env : String → String) : Layers :=
  { file := .json (.obj members), env := env, args := [], configPath := "config.json" }

def credentials : List (String × Json) :=
  [("id", .str "site"), ("secret", .str "s3cret"), ("endpoint", .str "https://pangolin")]

/-- The members of a file are read as they stand in it. -/
theorem credentials_in_force :
    InForce (fun _ => none) (fileLayers credentials (fun _ => "")) .missing true := by
  intro cfg j hload hj
  have hpath : (loadNewtConfig (fun _ => none) (fileLayers credentials (fun _ => ""))).map
      (fun c => c.configFile) = some (fileLayers credentials (fun _ => "")).configPath := by
    decide +kernel
  rw [hload, map_some, some.injEq] at hpath
  rw [clientFile, if_pos hpath] at hj
  obtain rfl := ConfigFile.json.inj hj
  have htext : (loadNewtConfig (fun _ => none) (fileLayers credentials (fun _ => ""))).map
      (fun c => (c.text .provisioningKey, c.text .id, c.text .secret, c.text .endpoint)) =
        some ("", "site", "s3cret", "https://pangolin") := by
    decide +kernel
  have hfile : (Config.unmarshal (.obj credentials)).map
      (fun c => (c .blocked, c .id, c .secret, c .endpoint)) =
        some (false, "site", "s3cret", "https://pangolin") := by
    decide +kernel
  rw [hload, map_some, some.injEq, Prod.mk.injEq, Prod.mk.injEq, Prod.mk.injEq] at htext
  obtain ⟨hkey, hid, hsecret, hendpoint⟩ := htext
  rw [if_neg (fun hprov => hprov.1 hkey)]
  intro new hnew
  rw [hnew, map_some, some.injEq, Prod.mk.injEq, Prod.mk.injEq, Prod.mk.injEq] at hfile
  obtain ⟨hblocked, hid', hsecret', hendpoint'⟩ := hfile
  exact ⟨⟨hendpoint'.trans hendpoint.symm, hid'.trans hid.symm,
    hsecret'.trans hsecret.symm⟩, hblocked⟩

theorem sighup_with_credentials_in_file :
    ∃ s₀ s, start (fun _ => none) (fun _ => false) (fileLayers credentials (fun _ => "")) .missing
        none true = some s₀ ∧
      Runs.run step s₀ [.sighup, .connected true, .sighup] = some s ∧ s.reload = s := by
  have hsome : ((start (fun _ => none) (fun _ => false) (fileLayers credentials (fun _ => ""))
      .missing none true).bind (fun s₀ =>
        Runs.run step s₀ [.sighup, .connected true, .sighup])).isSome = true := by
    decide +kernel
  obtain ⟨s, hs⟩ := isSome_iff_exists.mp hsome
  obtain ⟨s₀, hstart, hrun⟩ := bind_eq_some_iff.mp hs
  exact ⟨s₀, s, hstart, hrun, sighup_changes_nothing _ _ _ _ _ _ _ _ _ credentials_in_force
    hstart hrun⟩

/-- The credentials in the environment. -/
def credentialsEnv (name : String) : String :=
  if name = "NEWT_ID" then "site"
  else if name = "NEWT_SECRET" then "s3cret"
  else if name = "PANGOLIN_ENDPOINT" then "https://pangolin"
  else ""

/-- **Reloads that change something.**  With its credentials in the environment the
process restarts on the first SIGHUP, and with `blocked` in the file from the start the
first SIGHUP begins to block connections. -/
theorem sighup_changes_unchanged_file :
    (start (fun _ => none) (fun _ => false) (fileLayers [("dns", .str "1.1.1.1")] credentialsEnv)
        .missing none true).map (fun s => (s.restarted, s.reload.restarted)) = some (false, true) ∧
      (start (fun _ => none) (fun _ => false)
        (fileLayers (credentials ++ [("blocked", .bool true)]) (fun _ => "")) .missing none
          true).map
          (fun s => (s.connectionBlocked, s.reload.connectionBlocked)) = some (false, true) := by
  decide +kernel

end Newt.ConfigReload
