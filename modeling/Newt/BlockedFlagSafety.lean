import Newt.BlockedFlag
import Newt.Lib.Runs

/-!
# Lost updates of the blocked flag

When no reload and no handler is under way, every place should hold the value of
the last file that was loaded.  The start takes `false` whatever the file says.
A reload is lost for a proxy manager that was created with the old value and is
published after the reload has looked for the current one, and for a proxy
handler whose creator has read the old value and applies it after the reload.

Main results: `blocked_everywhere_when_quiet`, for runs that start with an
unblocked file and in which these races do not happen, and
`blocked_file_ignored_at_start`.
-/

namespace Newt.Blocked

open Function ReloadPC

/-- The reload will set a proxy manager if it is the current one. -/
def ReloadPC.setsPM : ReloadPC → Nat → Prop
  | .stored _, _ => True
  | .settingPM _ q, pm => q = pm
  | _, _ => False

/-- The reload has not reached the service. -/
def ReloadPC.beforeService : ReloadPC → Prop
  | .stored _ | .settingPM _ _ | .clients _ => True
  | _ => False

/-- The reload has set the service and will set a proxy handler if it is the
current one. -/
def ReloadPC.setsPH : ReloadPC → Nat → Prop
  | .readTnet _, _ => True
  | .settingPH _ q, ph => q = ph
  | _, _ => False

/-- The value the reload has taken over from the file. -/
def ReloadPC.value : ReloadPC → Option Bool
  | .idle => none
  | .loaded v | .stored v | .settingPM v _ | .clients v | .readTnet v | .settingPH v _ => some v

/-- The reload sets nothing yet. -/
structure ReloadPC.Resting (pc : ReloadPC) : Prop where
  noPM : ∀ p, ¬ pc.setsPM p
  noPH : ∀ ph, ¬ pc.setsPH ph
  noService : ¬ pc.beforeService
  notStored : ∀ v, pc ≠ .stored v

theorem ReloadPC.resting_idle : Resting .idle where
  noPM _ := id
  noPH _ := id
  noService := id
  notStored _ h := nomatch h

theorem ReloadPC.resting_loaded (v : Bool) : Resting (.loaded v) where
  noPM _ := id
  noPH _ := id
  noService := id
  notStored _ h := nomatch h

namespace Sys

/-- With no reload and no handler under way every place has the value of the
last loaded file. -/
def Agreed (s : Sys) : Prop :=
  s.handler = .idle → s.reload = .idle →
    (∀ pm ∈ s.currentPM, s.pmBlocked pm = s.lastLoaded) ∧
      ∀ sv ∈ s.service, sv.blocked = s.lastLoaded ∧
        ∀ ph ∈ sv.tnet, s.phBlocked ph = s.lastLoaded

/-- The step is in none of the races: the reload does not look for the current
proxy manager while one with another value is about to be published, it does not
clear a proxy handler that a handler is about to set, and no interface is left
half created while the service is blocked. -/
def raceFree (s : Sys) : Event → Bool
  | .reloadStep =>
    match s.reload, s.handler with
    | .stored v, .publishing pm => s.pmBlocked pm == v
    | .settingPH v ph, .applying q => q != ph || v
    | _, _ => true
  | .createInterface .unconfigured =>
    match s.service with
    | some sv => !sv.blocked
    | none => true
  | _ => true

def NoRace (s : Sys) (e : Event) : Prop :=
  s.raceFree e = true
  deriving Decidable

/-- What is known of the current proxy handler, by the place of the handler that
creates it. -/
def HandlerSound (s : Sys) (sv : Service) (ph : Nat) : Prop :=
  match s.handler with
  | .created _ => s.reload.setsPH ph ∨ s.phBlocked ph = sv.blocked ∨ s.phBlocked ph = false
  | .applying _ => s.reload.setsPH ph ∨ sv.blocked = true
  | _ => s.reload.setsPH ph ∨ s.phBlocked ph = sv.blocked

/-- The invariant: each place has the value of `connectionBlocked` or is about to
get it. -/
structure Sound (s : Sys) : Prop where
  value : ∀ v ∈ s.reload.value, v = s.lastLoaded
  flag : (∀ v, s.reload ≠ .loaded v) → s.connectionBlocked = s.lastLoaded
  pm : ∀ p ∈ s.currentPM, p < s.nextPM ∧
    (s.reload.setsPM p ∨ s.pmBlocked p = s.connectionBlocked)
  publishing : ∀ p, s.handler = .publishing p → p < s.nextPM ∧
    ((∃ v, s.reload = .stored v) ∨ s.pmBlocked p = s.connectionBlocked)
  service : ∀ sv ∈ s.service, s.reload.beforeService ∨ sv.blocked = s.connectionBlocked
  handler : ∀ sv ∈ s.service, ∀ ph ∈ sv.tnet, s.HandlerSound sv ph
  creating : ∀ ph, s.handler = .created ph ∨ s.handler = .applying ph →
    ∃ sv, s.service = some sv ∧ sv.tnet = some ph

variable {s s' : Sys}

/-- The start, if the file does not block. -/
theorem sound_start {file : ConfigFile} (clients : Bool) (hfile : file.blocked = false) :
    (start file clients).Sound := by
  have hload : (Config.loadConfig {} file).blocked = false := by cases file <;> rfl
  refine ⟨?_, ?_, ?_, ?_, ?_, ?_, ?_⟩
  · intro v hv
    cases hv
  · intro _
    exact hload.trans hfile.symm
  · intro p hp
    cases hp
  · intro p hp
    cases hp
  · intro sv hsv
    refine .inr ?_
    cases clients with
    | true =>
      cases hsv
      rfl
    | false => cases hsv
  · intro sv hsv ph hph
    cases clients with
    | true =>
      cases hsv
      cases hph
    | false => cases hsv
  · intro ph hph
    rcases hph with hph | hph <;> cases hph

/-- The current proxy manager has the value if the reload is not about to set it. -/
theorem Sound.pm_eq (h : s.Sound) (hsets : ∀ p, ¬ s.reload.setsPM p) {p : Nat}
    (hp : p ∈ s.currentPM) : p < s.nextPM ∧ s.pmBlocked p = s.connectionBlocked :=
  ⟨(h.pm p hp).1, (h.pm p hp).2.resolve_left (hsets p)⟩

/-- So has one that is about to be published, unless the reload has yet to look. -/
theorem Sound.publishing_eq (h : s.Sound) (hstored : ∀ v, s.reload ≠ .stored v) {p : Nat}
    (hp : s.handler = .publishing p) : p < s.nextPM ∧ s.pmBlocked p = s.connectionBlocked := by
  refine ⟨(h.publishing p hp).1, (h.publishing p hp).2.resolve_left ?_⟩
  intro hex
  obtain ⟨v, hv⟩ := hex
  exact hstored v hv

/-- The interface that is under way is the service's. -/
theorem Sound.tnet_eq {q : Nat} {sv : Service} (h : s.Sound)
    (hq : s.handler = .created q ∨ s.handler = .applying q) (hsv : s.service = some sv) :
    sv.tnet = some q := by
  obtain ⟨sv', hsv', htnet⟩ := h.creating q hq
  rw [Option.some.inj (hsv.symm.trans hsv')]
  exact htnet

/-- At rest the invariant is agreement. -/
theorem Sound.agreed (h : s.Sound) : s.Agreed := by
  intro hhandler hreload
  have hflag : s.connectionBlocked = s.lastLoaded := h.flag (by simp [hreload])
  have hrest : s.reload.Resting := hreload ▸ resting_idle
  refine ⟨?_, ?_⟩
  · intro pm hpm
    exact (h.pm_eq hrest.noPM hpm).2.trans hflag
  · intro sv hsv
    have hservice : sv.blocked = s.connectionBlocked :=
      (h.service sv hsv).resolve_left hrest.noService
    refine ⟨hservice.trans hflag, ?_⟩
    intro ph hph
    have hsound := h.handler sv hsv ph hph
    simp only [HandlerSound, hhandler, hreload, setsPH, false_or] at hsound
    exact hsound.trans (hservice.trans hflag)

/-- A proxy handler the reload will set is sound wherever its creator is. -/
theorem HandlerSound.of_setsPH {sv : Service} {ph : Nat} (h : s.reload.setsPH ph) :
    s.HandlerSound sv ph := by
  unfold HandlerSound
  split <;> exact .inl h

theorem HandlerSound.mono {sv : Service} {ph : Nat} (h : s.HandlerSound sv ph)
    (hhandler : s'.handler = s.handler) (hph : s'.phBlocked ph = s.phBlocked ph)
    (hsets : s.reload.setsPH ph → s'.reload.setsPH ph) : s'.HandlerSound sv ph := by
  unfold HandlerSound at h ⊢
  rw [hhandler, hph]
  split at h <;> exact h.imp_left hsets

/-- A reload that sets nothing goes to another place, or begins with a file. -/
theorem Sound.rest {pc : ReloadPC} {lastLoaded : Bool} (h : s.Sound)
    (hrest : s.reload.Resting) (hvalue : ∀ w ∈ pc.value, w = lastLoaded)
    (hflag : (∀ v, pc ≠ .loaded v) → s.connectionBlocked = lastLoaded) :
    Sound { s with lastLoaded := lastLoaded, reload := pc } := by
  refine ⟨hvalue, hflag, ?_, ?_, ?_, ?_, h.creating⟩
  · intro p hp
    obtain ⟨hlt, heq⟩ := h.pm_eq hrest.noPM hp
    exact ⟨hlt, .inr heq⟩
  · intro p hp
    obtain ⟨hlt, heq⟩ := h.publishing_eq hrest.notStored hp
    exact ⟨hlt, .inr heq⟩
  · intro sv hsv
    exact .inr ((h.service sv hsv).resolve_left hrest.noService)
  · intro sv hsv ph hph
    exact (h.handler sv hsv ph hph).mono rfl rfl (fun hs => absurd hs (hrest.noPH ph))

/-- A file is loaded. -/
theorem Sound.load {v : Bool} (h : s.Sound) (hidle : s.reload = .idle) :
    Sound { s with lastLoaded := v, reload := .loaded v } := by
  refine h.rest (hidle ▸ resting_idle) ?_ ?_
  · intro w hw
    exact (Option.some.inj hw).symm
  · intro hne
    exact absurd rfl (hne v)

section Reload

variable {v : Bool}

/-- The store to `connectionBlocked`. -/
theorem Sound.store (h : s.Sound) (hpc : s.reload = .loaded v) :
    Sound { s with connectionBlocked := v, reload := .stored v } := by
  have hv : v = s.lastLoaded := h.value v (by rw [hpc]; rfl)
  have hrest : s.reload.Resting := hpc ▸ resting_loaded v
  refine ⟨?_, fun _ => hv, ?_, ?_, fun sv hsv => .inl trivial, ?_, h.creating⟩
  · intro w hw
    exact (Option.some.inj hw).symm.trans hv
  · intro p hp
    exact ⟨(h.pm p hp).1, .inl trivial⟩
  · intro p hp
    exact ⟨(h.publishing p hp).1, .inl ⟨v, rfl⟩⟩
  · intro sv hsv ph hph
    exact (h.handler sv hsv ph hph).mono rfl rfl (fun hs => absurd hs (hrest.noPH ph))

/-- The reload looks for the current proxy manager; none with an old value is
about to be published. -/
theorem Sound.loadPM {pc : ReloadPC} (h : s.Sound) (hpc : s.reload = .stored v)
    (hrace : ∀ p, s.handler = .publishing p → s.pmBlocked p = v) (hvalue : pc.value = some v)
    (hsets : ∀ p ∈ s.currentPM, pc.setsPM p) (hbefore : pc.beforeService) :
    Sound { s with reload := pc } := by
  have hv : v = s.lastLoaded := h.value v (by rw [hpc]; rfl)
  have hflag : s.connectionBlocked = s.lastLoaded := h.flag (by simp [hpc])
  refine ⟨?_, fun _ => hflag, ?_, ?_, fun _ _ => .inl hbefore, ?_, h.creating⟩
  · intro w hw
    exact (Option.some.inj (hvalue.symm.trans hw)).symm.trans hv
  · intro p hp
    exact ⟨(h.pm p hp).1, .inl (hsets p hp)⟩
  · intro p hp
    exact ⟨(h.publishing p hp).1, .inr ((hrace p hp).trans (hv.trans hflag.symm))⟩
  · intro sv hsv ph hph
    refine (h.handler sv hsv ph hph).mono rfl rfl ?_
    simp [hpc, setsPH]

/-- The reload sets the proxy manager it has found. -/
theorem Sound.setPM {q : Nat} (h : s.Sound) (hpc : s.reload = .settingPM v q) :
    Sound { s with pmBlocked := update s.pmBlocked q v, reload := .clients v } := by
  have hv : v = s.lastLoaded := h.value v (by rw [hpc]; rfl)
  have hflag : s.connectionBlocked = s.lastLoaded := h.flag (by simp [hpc])
  have hupdate : ∀ p, s.reload.setsPM p ∨ s.pmBlocked p = s.connectionBlocked →
      update s.pmBlocked q v p = s.connectionBlocked := by
    intro p hp
    by_cases hpq : p = q
    · rw [hpq, update_self, hflag, hv]
    · rw [update_of_ne hpq]
      refine hp.resolve_left ?_
      simpa [hpc, setsPM] using Ne.symm hpq
  refine ⟨?_, fun _ => hflag, ?_, ?_, ?_, ?_, h.creating⟩
  · intro w hw
    exact (Option.some.inj hw).symm.trans hv
  · intro p hp
    exact ⟨(h.pm p hp).1, .inr (hupdate p (h.pm p hp).2)⟩
  · intro p hp
    refine ⟨(h.publishing p hp).1, .inr (hupdate p (.inr ?_))⟩
    refine (h.publishing p hp).2.resolve_left ?_
    simp [hpc]
  · intro sv hsv
    exact .inl trivial
  · intro sv hsv ph hph
    refine (h.handler sv hsv ph hph).mono rfl rfl ?_
    simp [hpc, setsPH]

/-- The reload is past the proxy manager. -/
def ReloadPC.PastPM (pc : ReloadPC) : Prop :=
  match pc with
  | .clients _ | .readTnet _ | .settingPH _ _ => True
  | _ => False

variable (h : s.Sound)

include h

/-- A step of the reload past the proxy manager: what is left to show is about the
service. -/
theorem Sound.pastPM {pc : ReloadPC} {service : Option Service} {phBlocked : Nat → Bool}
    (hpast : ReloadPC.PastPM s.reload) (hvalue : ∀ w ∈ pc.value, w = s.lastLoaded)
    (hservice : ∀ sv ∈ service, sv.blocked = s.lastLoaded)
    (hhandler : ∀ sv ∈ service, ∀ ph ∈ sv.tnet,
      HandlerSound { s with service := service, phBlocked := phBlocked, reload := pc } sv ph)
    (htnet : service.map Service.tnet = s.service.map Service.tnet) :
    Sound { s with service := service, phBlocked := phBlocked, reload := pc } := by
  have hnot : (∀ p, ¬ s.reload.setsPM p) ∧ (∀ v, s.reload ≠ .stored v) ∧
      ∀ v, s.reload ≠ .loaded v := by
    cases hpc : s.reload <;> simp [hpc, ReloadPC.PastPM, setsPM] at hpast ⊢
  obtain ⟨hsets, hstored, hloaded⟩ := hnot
  have hflag := h.flag hloaded
  refine ⟨hvalue, fun _ => hflag, ?_, ?_, ?_, hhandler, ?_⟩
  · intro p hp
    obtain ⟨hlt, heq⟩ := h.pm_eq hsets hp
    exact ⟨hlt, .inr heq⟩
  · intro p hp
    obtain ⟨hlt, heq⟩ := h.publishing_eq hstored hp
    exact ⟨hlt, .inr heq⟩
  · intro sv hsv
    exact .inr ((hservice sv hsv).trans hflag.symm)
  · intro ph hph
    obtain ⟨sv, hsv, hsvph⟩ := h.creating ph hph
    rw [hsv, Option.map_some, hsvph] at htnet
    obtain ⟨sv', hsv', heq⟩ := Option.map_eq_some_iff.mp htnet
    exact ⟨sv', hsv', heq⟩

/-- The reload sets the service. -/
theorem Sound.setService {sv : Service} (hpc : s.reload = .clients v) (hsv : s.service = some sv) :
    Sound { s with service := some { sv with blocked := v }, reload := .readTnet v } := by
  have hv : v = s.lastLoaded := h.value v (by rw [hpc]; rfl)
  refine h.pastPM (by rw [hpc]; trivial) ?_ ?_ ?_ ?_
  · intro w hw
    exact (Option.some.inj hw).symm.trans hv
  · intro sv' hsv'
    cases hsv'
    exact hv
  · intro sv' hsv' ph hph
    exact .of_setsPH trivial
  · rw [hsv]
    rfl

/-- The service has the value once the reload has set it. -/
theorem Sound.service_eq (hbefore : ¬ s.reload.beforeService)
    (hloaded : ∀ v, s.reload ≠ .loaded v) {sv : Service} (hsv : sv ∈ s.service) :
    sv.blocked = s.lastLoaded :=
  ((h.service sv hsv).resolve_left hbefore).trans (h.flag hloaded)

/-- The reload reads the netstack of the service. -/
theorem Sound.readTnet {pc : ReloadPC} (hpc : s.reload = .readTnet v)
    (hvalue : ∀ w ∈ pc.value, w = v)
    (hsets : ∀ ph, s.service.bind Service.tnet = some ph → pc.setsPH ph) :
    Sound { s with reload := pc } := by
  have hv : v = s.lastLoaded := h.value v (by rw [hpc]; rfl)
  refine h.pastPM (by rw [hpc]; trivial) (fun w hw => (hvalue w hw).trans hv) ?_ ?_ rfl
  · intro sv hsv
    exact h.service_eq (by simp [hpc, beforeService]) (by simp [hpc]) hsv
  · intro sv hsv ph hph
    exact .of_setsPH (hsets ph (Option.bind_eq_some_iff.mpr ⟨sv, hsv, hph⟩))

/-- The reload sets the proxy handler it has found, and no handler is about to
set it back. -/
theorem Sound.setPH {q : Nat} (hpc : s.reload = .settingPH v q)
    (hrace : s.handler = .applying q → v = true) :
    Sound { s with phBlocked := update s.phBlocked q v, reload := .idle } := by
  have hv : v = s.lastLoaded := h.value v (by rw [hpc]; rfl)
  have hservice : ∀ sv ∈ s.service, sv.blocked = s.lastLoaded :=
    fun sv hsv => h.service_eq (by simp [hpc, beforeService]) (by simp [hpc]) hsv
  refine h.pastPM (by rw [hpc]; trivial) (fun w hw => nomatch hw) hservice ?_ rfl
  intro sv hsv ph hph
  by_cases hpq : ph = q
  · subst hpq
    have hset : update s.phBlocked ph v ph = sv.blocked := by rw [update_self, hservice sv hsv, hv]
    unfold HandlerSound
    split
    · exact .inr (.inl hset)
    · rename_i q' hq'
      have hqq : q' = ph := Option.some.inj ((h.tnet_eq (.inr hq') hsv).symm.trans hph)
      refine .inr ?_
      rw [hservice sv hsv, ← hv]
      exact hrace (hqq ▸ hq')
    · exact .inr hset
  · refine (h.handler sv hsv ph hph).mono rfl (update_of_ne hpq _ _) ?_
    simpa [hpc, setsPH] using Ne.symm hpq

/-- The next step of the reload. -/
theorem Sound.onReload (hrace : s.NoRace .reloadStep) (hstep : s.onReload = some s') :
    s'.Sound := by
  unfold Sys.onReload at hstep
  unfold NoRace raceFree at hrace
  split at hstep
  · cases hstep
  · rename_i v hpc
    split at hstep
    · rename_i heq
      cases hstep
      have hv : v = s.lastLoaded := h.value v (by rw [hpc]; rfl)
      exact h.rest (hpc ▸ resting_loaded v) (fun w hw => nomatch hw) (fun _ => heq ▸ hv)
    · cases hstep
      exact h.store hpc
  · rename_i v hpc
    have hold : ∀ p, s.handler = .publishing p → s.pmBlocked p = v := by
      intro p hp
      simpa [hpc, hp] using hrace
    split at hstep
    · rename_i hcur
      cases hstep
      exact h.loadPM hpc hold rfl (by simp [hcur]) trivial
    · rename_i pm hcur
      cases hstep
      exact h.loadPM hpc hold rfl (by simp [hcur, setsPM]) trivial
  · rename_i v q hpc
    cases hstep
    exact h.setPM hpc
  · rename_i v hpc
    split at hstep
    · rename_i hservice
      cases hstep
      exact h.pastPM (by rw [hpc]; trivial) (fun w hw => nomatch hw) (by simp [hservice])
        (by simp [hservice]) rfl
    · rename_i sv hservice
      cases hstep
      exact h.setService hpc hservice
  · rename_i v hpc
    split at hstep
    · rename_i htnet
      cases hstep
      exact h.readTnet hpc (fun w hw => nomatch hw) (by simp [htnet])
    · rename_i ph htnet
      cases hstep
      exact h.readTnet hpc (fun w hw => (Option.some.inj hw).symm)
        (by simp [htnet, setsPH])
  · rename_i v q hpc
    cases hstep
    refine h.setPH hpc ?_
    intro happly
    simpa [hpc, happly] using hrace

end Reload

section Handlers

/-- `closeWgTunnel` leaves no current proxy manager. -/
theorem Sound.closeTunnel (h : s.Sound) : Sound { s with currentPM := none } :=
  ⟨h.value, h.flag, fun _ hp => (nomatch hp), h.publishing, h.service, h.handler, h.creating⟩

/-- `closeClients` leaves no service. -/
theorem Sound.closeClients (h : s.Sound) (hidle : s.handler = .idle) :
    Sound { s with service := none } := by
  refine ⟨h.value, h.flag, h.pm, h.publishing, fun sv hsv => (nomatch hsv),
    fun sv hsv => (nomatch hsv), ?_⟩
  intro ph hph
  simp [hidle] at hph

/-- Without an interface under way the proxy handler has the service's value or
is about to get it. -/
theorem handlerSound_iff {sv : Service} {ph : Nat} (hcreated : ∀ q, s.handler ≠ .created q)
    (happlying : ∀ q, s.handler ≠ .applying q) :
    s.HandlerSound sv ph ↔ s.reload.setsPH ph ∨ s.phBlocked ph = sv.blocked := by
  unfold HandlerSound
  split
  · rename_i q hq
    exact absurd hq (hcreated q)
  · rename_i q hq
    exact absurd hq (happlying q)
  · exact Iff.rfl

variable (h : s.Sound)

include h

/-- A new proxy manager, with the current value. -/
theorem Sound.createPM (hidle : s.handler = .idle) :
    Sound { s with
            pmBlocked := update s.pmBlocked s.nextPM s.connectionBlocked
            nextPM := s.nextPM + 1
            handler := .publishing s.nextPM } := by
  refine ⟨h.value, h.flag, ?_, ?_, h.service, ?_, ?_⟩
  · intro p hp
    obtain ⟨hlt, hset⟩ := h.pm p hp
    refine ⟨Nat.lt_succ_of_lt hlt, hset.imp_right ?_⟩
    intro heq
    exact (update_of_ne (Nat.ne_of_lt hlt) _ _).trans heq
  · intro p hp
    cases hp
    exact ⟨Nat.lt_succ_self _, .inr (update_self ..)⟩
  · intro sv hsv ph hph
    have hsound := h.handler sv hsv ph hph
    rw [handlerSound_iff (by simp [hidle]) (by simp [hidle])] at hsound
    exact (handlerSound_iff (by simp) (by simp)).mpr hsound
  · intro ph hph
    rcases hph with hph | hph <;> cases hph

/-- The proxy manager becomes the current one. -/
theorem Sound.publish {q : Nat} (hpc : s.handler = .publishing q) :
    Sound { s with currentPM := some q, handler := .idle } := by
  obtain ⟨hlt, hset⟩ := h.publishing q hpc
  refine ⟨h.value, h.flag, ?_, fun p hp => (nomatch hp), h.service, ?_, ?_⟩
  · intro p hp
    cases hp
    refine ⟨hlt, hset.imp_left ?_⟩
    intro ⟨v, hv⟩
    rw [hv]
    trivial
  · intro sv hsv ph hph
    have hsound := h.handler sv hsv ph hph
    rw [handlerSound_iff (by simp [hpc]) (by simp [hpc])] at hsound
    exact (handlerSound_iff (by simp) (by simp)).mpr hsound
  · intro ph hph
    rcases hph with hph | hph <;> cases hph

/-- A new client interface, blocked or not yet blocked. -/
theorem Sound.createInterface {sv : Service} {result : Interface} (hidle : s.handler = .idle)
    (hsv : s.service = some sv) (hrace : s.NoRace (.createInterface result)) :
    (s.createInterface sv result).Sound := by
  have hservice : ∀ sv' ∈ (s.createInterface sv result).service,
      s.reload.beforeService ∨ sv'.blocked = s.connectionBlocked := by
    intro sv' hsv'
    cases result <;> cases hsv' <;> exact h.service sv hsv
  cases result with
  | none =>
    refine ⟨h.value, h.flag, h.pm, h.publishing, hservice, ?_, ?_⟩
    · intro sv' hsv' ph hph
      cases hsv'
      cases hph
    · intro ph hph
      simp [Sys.createInterface, hidle] at hph
  | unconfigured =>
    have hfalse : sv.blocked = false := by simpa [NoRace, raceFree, hsv] using hrace
    refine ⟨h.value, h.flag, h.pm, h.publishing, hservice, ?_, ?_⟩
    · intro sv' hsv' ph hph
      cases hsv'
      cases hph
      refine (handlerSound_iff (by simp [Sys.createInterface, hidle])
        (by simp [Sys.createInterface, hidle])).mpr (.inr ?_)
      exact (update_self ..).trans hfalse.symm
    · intro ph hph
      simp [Sys.createInterface, hidle] at hph
  | ready =>
    refine ⟨h.value, h.flag, h.pm, fun p hp => (nomatch hp), hservice, ?_, ?_⟩
    · intro sv' hsv' ph hph
      cases hsv'
      cases hph
      exact .inr (.inr (update_self ..))
    · intro ph hph
      rcases hph with hph | hph
      · cases hph
        exact ⟨_, rfl, rfl⟩
      · cases hph

/-- The creator of an interface reads the service's flag. -/
theorem Sound.loadBlocked {sv : Service} {q : Nat} (hpc : s.handler = .created q)
    (hsv : s.service = some sv) :
    Sound { s with handler := if sv.blocked then .applying q else .idle } := by
  refine ⟨h.value, h.flag, h.pm, ?_, h.service, ?_, ?_⟩
  · intro p hp
    cases hb : sv.blocked <;> simp [hb] at hp
  · intro sv₁ hsv₁ ph hph
    obtain rfl : sv₁ = sv := Option.some.inj (Eq.trans (Eq.symm hsv₁) hsv)
    have hsound := h.handler sv₁ hsv ph hph
    simp only [HandlerSound, hpc] at hsound
    cases hb : sv₁.blocked with
    | true => exact .inr hb
    | false =>
      rw [hb, or_self] at hsound
      refine (handlerSound_iff (by simp) (by simp)).mpr ?_
      rw [hb]
      exact hsound
  · intro ph hph
    cases hb : sv.blocked with
    | true =>
      simp only [hb, if_true, reduceCtorEq, HandlerPC.applying.injEq, false_or] at hph
      exact ⟨sv, hsv, hph ▸ h.tnet_eq (.inl hpc) hsv⟩
    | false => simp [hb] at hph

/-- The creator of an interface applies the flag it has read. -/
theorem Sound.applyBlocked {q : Nat} (hpc : s.handler = .applying q) :
    Sound { s with phBlocked := update s.phBlocked q true, handler := .idle } := by
  refine ⟨h.value, h.flag, h.pm, fun p hp => (nomatch hp), h.service, ?_, ?_⟩
  · intro sv hsv ph hph
    obtain rfl : ph = q := Option.some.inj (Eq.trans (Eq.symm hph) (h.tnet_eq (.inr hpc) hsv))
    have hsound := h.handler sv hsv ph hph
    simp only [HandlerSound, hpc] at hsound
    refine (handlerSound_iff (by simp) (by simp)).mpr (hsound.imp_right ?_)
    intro hb
    exact (update_self ..).trans hb.symm
  · intro ph hph
    rcases hph with hph | hph <;> cases hph

end Handlers

/-- Every step outside the races keeps the invariant. -/
theorem Sound.step {e : Event} (h : s.Sound) (hrace : s.NoRace e)
    (hstep : s.step e = some s') : s'.Sound := by
  cases e <;> simp only [Sys.step] at hstep
  case reload file =>
    split at hstep
    · cases hstep
      exact h
    · rename_i v hidle
      cases hstep
      exact h.load hidle
    · cases hstep
  case reloadStep => exact h.onReload hrace hstep
  case closeTunnel =>
    split at hstep <;> cases hstep
    exact h.closeTunnel
  case closeClients =>
    split at hstep
    · rename_i hidle
      cases hstep
      exact h.closeClients hidle
    · cases hstep
  case createPM =>
    split at hstep
    · rename_i hidle
      cases hstep
      exact h.createPM hidle
    · cases hstep
  case publish =>
    split at hstep
    · rename_i q hpc
      cases hstep
      exact h.publish hpc
    · cases hstep
  case createInterface result =>
    split at hstep
    · rename_i sv hidle hsv
      cases hstep
      exact h.createInterface hidle hsv hrace
    · cases hstep
  case loadBlocked =>
    split at hstep
    · rename_i q sv hpc hsv
      cases hstep
      exact h.loadBlocked hpc hsv
    · cases hstep
  case applyBlocked =>
    split at hstep
    · rename_i q hpc
      cases hstep
      exact h.applyBlocked hpc
    · cases hstep

/-- **One value everywhere**: after a start with a file that does not block and
without the races, whenever no reload and no handler is under way the proxy
manager, the service and its proxy handler have the value of the last loaded
file. -/
theorem blocked_everywhere_when_quiet {file : ConfigFile} {clients : Bool} {s : Sys}
    {es : List Event} (hfile : file.blocked = false)
    (hmeets : Runs.Meets step NoRace (start file clients) es)
    (hrun : Runs.run step (start file clients) es = some s) : s.Agreed :=
  (Runs.run_invariant (fun h hrace hstep => h.step hrace hstep) (sound_start clients hfile) hmeets
    hrun).agreed

/-- A tunnel and a client interface, a reload that blocks, and a new proxy manager
while the reload is under way. -/
def blockedReload : List Event :=
  [.createPM, .publish, .createInterface .ready, .loadBlocked, .reload (some true), .reloadStep,
    .reloadStep, .closeTunnel, .createPM, .reloadStep, .publish, .reloadStep, .reloadStep,
    .reloadStep]

/-- A proxy manager that is created after the reload has stored its value gets
it. -/
theorem reload_reaches_new_manager :
    ∃ s, Runs.Meets step NoRace (start (.contents false) true) blockedReload ∧
      Runs.run step (start (.contents false) true) blockedReload = some s ∧
      s.handler = .idle ∧ s.reload = .idle ∧ s.currentPM = some 1 ∧ s.pmBlocked 1 = true ∧
      s.Agreed := by
  have hmeets : Runs.Meets step NoRace (start (.contents false) true) blockedReload := by
    decide +kernel
  exact ⟨_, hmeets, rfl, by decide +kernel, by decide +kernel, by decide +kernel,
    by decide +kernel, blocked_everywhere_when_quiet rfl hmeets rfl⟩

/-- A file that blocks is ignored at the start: nothing is under way and the
service is not blocked. -/
theorem blocked_file_ignored_at_start :
    (start (.contents true) true).handler = .idle ∧
      (start (.contents true) true).reload = .idle ∧
      ¬ (start (.contents true) true).Agreed := by
  refine ⟨rfl, rfl, ?_⟩
  intro h
  have hblocked := ((h rfl rfl).2 _ rfl).1
  revert hblocked
  decide +kernel

end Sys

end Newt.Blocked
