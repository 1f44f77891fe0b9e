import Newt.ChainIds

/-!
# Answers are applied once

`newt/wg/connect` and `newt/wg/receive-config` messages are compared with the
pending chain ID before anything else happens.  The handler of
`newt/ping/exitNodes` stops the running sender first, so a late, repeated or
malformed message that it then discards silences the request that is being
made: `discarded_answer_stops_sender`.

`answers_applied_once` is what holds when that does not happen and no request
is issued while an answer to one of its kind is compared: every answer is
applied at most once and to the latest request of its kind, and discarded
answers leave the client as it is.
-/

namespace Newt.Chains

open Client Option List Runs

/-- The handler is comparing an answer to a request of the given kind. -/
def HandlerPC.answers (r : Request) : HandlerPC → Bool
  | .stopping m | .checking m _ | .consuming m => decide (m.request = r)
  | _ => false

/-- An answer whose handler has changed the client is not going to be discarded. -/
def HandlerPC.Sound (c : Client) : HandlerPC → Prop
  | .checking m true =>
    m.decodes = true ∧ (m.chainId = "" ∨ m.chainId = c.pending m.request)
  | .consuming m => m.chainId ≠ "" ∧ m.chainId = c.pending m.request
  | _ => True

theorem HandlerPC.Sound.congr {c c' : Client} {pc : HandlerPC} (h : pc.Sound c)
    (hpending : ∀ r, c'.pending r = c.pending r) : pc.Sound c' := by
  cases pc with
  | checking m changed =>
    cases changed with
    | false => trivial
    | true => simpa only [Sound, hpending] using h
  | consuming m => simpa only [Sound, hpending] using h
  | _ => trivial

/-- The ID is one of the first `n`. -/
def ChainIds.Used (ids : ChainIds) (n : Nat) (id : String) : Prop :=
  ∃ k < n, id = ids.gen k

variable {ids : ChainIds}

theorem ChainIds.Used.mono {n n' : Nat} {id : String} (h : ids.Used n id) (hn : n ≤ n') :
    ids.Used n' id := by
  obtain ⟨k, hk, hid⟩ := h
  exact ⟨k, Nat.lt_of_lt_of_le hk hn, hid⟩

/-- The next ID is a new one. -/
theorem ChainIds.Used.ne_gen {n : Nat} {id : String} (h : ids.Used n id) : id ≠ ids.gen n := by
  obtain ⟨k, hk, hid⟩ := h
  intro heq
  have hkn : k = n := ids.injective (hid.symm.trans heq)
  omega

namespace Sys

/-- The steps under which answers are applied in order: a stale or malformed
`exitNodes` message does not find a sender to stop, and no request is issued
while an answer to one of its kind is being compared. -/
def AnswersInOrder (s : Sys) : Event → Prop
  | .handler _ =>
    match s.pc with
    | .stopping m =>
      s.client.stopFunc = none ∨
        m.decodes = true ∧ (m.chainId = "" ∨ m.chainId = s.client.pending m.request)
    | _ => True
  | .onConnect => s.client.connected = true ∨ s.pc.answers .ping = false
  | .recover => s.pc.answers .ping = false
  | .loadRemoteConfig => s.pc.answers .config = false
  | _ => True

instance (s : Sys) (e : Event) : Decidable (s.AnswersInOrder e) := by
  unfold AnswersInOrder
  split
  · split <;> infer_instance
  all_goals infer_instance

/-- The chain IDs of the answers that were applied. -/
def appliedIds (s : Sys) : List String :=
  s.applied.map (·.response.chainId)

/-- The invariant of the runs that meet the condition. -/
structure Tracked (ids : ChainIds) (s : Sys) : Prop where
  pending_latest : ∀ r, s.client.pending r = "" ∨ s.client.pending r = s.latest r
  latest_used : ∀ r, s.latest r = "" ∨ ids.Used s.next (s.latest r)
  latest_inj : ∀ r r', s.latest r ≠ "" → s.latest r = s.latest r' → r = r'
  applied_used : ∀ x ∈ s.appliedIds, x ≠ "" → ids.Used s.next x
  answered : ∀ x ∈ s.appliedIds, x ≠ "" → ∀ r, s.client.pending r ≠ x
  once : ∀ x, x ≠ "" → s.appliedIds.count x ≤ 1
  current : ∀ a ∈ s.applied, a.response.chainId ≠ "" → a.latest = a.response.chainId
  harmless : ∀ d ∈ s.discarded, d.changed = false
  sound : s.pc.Sound s.client

theorem tracked_fresh : fresh.Tracked ids := by
  refine ⟨?_, ?_, ?_, ?_, ?_, ?_, ?_, ?_, ?_⟩
  · intro r
    cases r <;> exact .inl rfl
  all_goals simp [fresh, appliedIds, HandlerPC.Sound]

/-- The pending chain ID after a request. -/
theorem pending_request (s : Sys) (r r' : Request) (extra : Nat) :
    (s.request ids r extra).client.pending r' =
      if r' = r then ids.gen s.next else s.client.pending r' := by
  unfold request
  rw [pending_startSender]
  by_cases hr : r' = r
  · rw [if_pos hr, hr, pending_setPending_self]
  · rw [if_neg hr, pending_setPending_of_ne _ _ hr]

theorem latest_request (s : Sys) (r r' : Request) (extra : Nat) :
    (s.request ids r extra).latest r' = if r' = r then ids.gen s.next else s.latest r' := by
  simp [request, Function.update_apply]

/-- What the handler does after an answer counts is no comparison. -/
theorem sound_apply (s : Sys) (m : Response) (c : Client) : (s.apply m).pc.Sound c := by
  unfold apply
  cases m.request with
  | ping => cases m.hasNodes <;> trivial
  | register | config => trivial

theorem appliedIds_apply (s : Sys) (m : Response) :
    (s.apply m).appliedIds = s.appliedIds ++ [m.chainId] := by simp [apply, appliedIds]

theorem pending_closeTunnel (s : Sys) (r : Request) :
    s.closeTunnel.client.pending r = s.client.pending r := by cases r <;> rfl

variable {s s' : Sys} (h : s.Tracked ids)

include h

/-- A step that touches neither the chain IDs nor the records. -/
theorem Tracked.frame {c : Client} {pc : HandlerPC}
    (hpending : ∀ r, c.pending r = s.client.pending r) (hsound : pc.Sound c) :
    Tracked ids { s with client := c, pc := pc } := by
  refine { h with pending_latest := ?_, answered := ?_, sound := hsound }
  · intro r
    simpa only [hpending r] using h.pending_latest r
  · intro x hx hne r
    simpa only [hpending r] using h.answered x hx hne r

theorem Tracked.setClient {c : Client}
    (hpending : ∀ r, c.pending r = s.client.pending r) : Tracked ids { s with client := c } :=
  h.frame hpending (h.sound.congr hpending)

/-- A chain ID is generated for a message that gets no answer. -/
theorem Tracked.skip (n : Nat) : Tracked ids { s with next := s.next + n } := by
  refine { h with latest_used := ?_, applied_used := ?_ }
  · intro r
    exact (h.latest_used r).imp_right (fun hu => hu.mono (Nat.le_add_right _ _))
  · intro x hx hne
    exact (h.applied_used x hx hne).mono (Nat.le_add_right _ _)

/-- A handler that compares the answer to another request is not disturbed. -/
theorem Tracked.sound_request {r : Request} (hpc : s.pc.answers r = false)
    (extra : Nat) : (s.request ids r extra).pc.Sound (s.request ids r extra).client := by
  have hkept : ∀ m : Response, m.request ≠ r →
      (s.request ids r extra).client.pending m.request = s.client.pending m.request := by
    intro m hm
    rw [pending_request, if_neg hm]
  have hsound := h.sound
  show HandlerPC.Sound _ s.pc
  cases hp : s.pc with
  | checking m changed =>
    cases changed with
    | false => trivial
    | true =>
      rw [hp] at hsound hpc
      simp only [HandlerPC.answers, decide_eq_false_iff_not] at hpc
      simpa only [HandlerPC.Sound, hkept m hpc] using hsound
  | consuming m =>
    rw [hp] at hsound hpc
    simp only [HandlerPC.answers, decide_eq_false_iff_not] at hpc
    simpa only [HandlerPC.Sound, hkept m hpc] using hsound
  | _ => trivial

/-- **A request** of a kind whose answer is not being compared. -/
theorem Tracked.request {r : Request} (hpc : s.pc.answers r = false)
    (extra : Nat) : (s.request ids r extra).Tracked ids := by
  have hnew : ids.Used (s.next + 1 + extra) (ids.gen s.next) := ⟨s.next, by omega, rfl⟩
  have hlatest_ne : ∀ r', s.latest r' ≠ ids.gen s.next := by
    intro r'
    rcases h.latest_used r' with he | hu
    · rw [he]
      exact (ids.ne_empty s.next).symm
    · exact hu.ne_gen
  refine { pending_latest := ?_, latest_used := ?_, latest_inj := ?_, applied_used := ?_,
           answered := ?_, once := h.once, current := h.current, harmless := h.harmless,
           sound := ?_ }
  · intro r'
    rw [pending_request, latest_request]
    by_cases hr : r' = r
    · simp [hr]
    · simpa [hr] using h.pending_latest r'
  · intro r'
    rw [latest_request]
    by_cases hr : r' = r
    · rw [if_pos hr]
      exact .inr hnew
    · rw [if_neg hr]
      exact (h.latest_used r').imp_right (fun hu => hu.mono (by simp only [Sys.request]; omega))
  · intro r₁ r₂ hne heq
    rw [latest_request] at hne heq
    rw [latest_request] at heq
    by_cases h₁ : r₁ = r
    · by_cases h₂ : r₂ = r
      · rw [h₁, h₂]
      · rw [if_pos h₁, if_neg h₂] at heq
        exact absurd heq.symm (hlatest_ne r₂)
    · by_cases h₂ : r₂ = r
      · rw [if_neg h₁, if_pos h₂] at heq
        exact absurd heq (hlatest_ne r₁)
      · rw [if_neg h₁] at hne heq
        rw [if_neg h₂] at heq
        exact h.latest_inj r₁ r₂ hne heq
  · intro x hx hne
    exact (h.applied_used x hx hne).mono (by simp only [Sys.request]; omega)
  · intro x hx hne r'
    rw [pending_request]
    by_cases hr : r' = r
    · rw [if_pos hr]
      exact (h.applied_used x hx hne).ne_gen.symm
    · rw [if_neg hr]
      exact h.answered x hx hne r'
  · exact h.sound_request hpc extra

/-- A malformed or mismatching answer is discarded by a handler that has changed nothing. -/
theorem Tracked.discard {m : Response} {changed : Bool} (hpc : s.pc = .checking m changed)
    (hstale : m.decodes = false ∨ m.chainId ≠ "" ∧ m.chainId ≠ s.client.pending m.request) :
    (s.discard m changed).Tracked ids := by
  have hchanged : changed = false := by
    cases changed with
    | false => rfl
    | true =>
      obtain ⟨hdecodes, hsound⟩ : m.decodes = true ∧ _ := by
        simpa only [hpc, HandlerPC.Sound] using h.sound
      rcases hstale with hstale | ⟨hne, hmismatch⟩
      · exact absurd hdecodes (by simp [hstale])
      · exact (hsound.elim hne hmismatch).elim
  refine { h with harmless := ?_, sound := trivial }
  exact forall_mem_concat h.harmless hchanged

/-- An answer is applied that has no chain ID, or that of the latest request,
not pending any more and not applied before. -/
theorem Tracked.apply {m : Response}
    (hm : m.chainId ≠ "" → m.chainId = s.latest m.request ∧
      (∀ r, s.client.pending r ≠ m.chainId) ∧ m.chainId ∉ s.appliedIds) :
    (s.apply m).Tracked ids := by
  refine { latest_used := h.latest_used, latest_inj := h.latest_inj, harmless := h.harmless,
           pending_latest := h.pending_latest, applied_used := ?_, answered := ?_, once := ?_,
           current := ?_, sound := sound_apply s m _ }
  · intro x hx hne
    rw [appliedIds_apply, mem_append, mem_singleton] at hx
    rcases hx with hx | hx
    · exact h.applied_used x hx hne
    · subst hx
      obtain ⟨hlatest, -, -⟩ := hm hne
      rcases h.latest_used m.request with he | hu
      · exact absurd (hlatest.trans he) hne
      · rw [hlatest]
        exact hu
  · intro x hx hne
    rw [appliedIds_apply, mem_append, mem_singleton] at hx
    rcases hx with hx | hx
    · exact h.answered x hx hne
    · subst hx
      exact (hm hne).2.1
  · intro x hne
    rw [appliedIds_apply, count_append, count_singleton]
    by_cases hx : m.chainId = x
    · subst hx
      simp [count_eq_zero.mpr (hm hne).2.2]
    · simpa [hx] using h.once x hne
  · refine forall_mem_concat h.current ?_
    exact fun hne => (hm hne).1.symm

/-- The pending chain ID is cleared. -/
theorem Tracked.clearPending (r : Request) :
    Tracked ids { s with client := s.client.setPending "" r, pc := .idle } := by
  have hcleared : ∀ r', (s.client.setPending "" r).pending r' = "" ∨
      (s.client.setPending "" r).pending r' = s.client.pending r' := by
    intro r'
    by_cases hr : r' = r
    · rw [hr]
      exact .inl (pending_setPending_self _ _ _)
    · exact .inr (pending_setPending_of_ne _ _ hr)
  refine { h with pending_latest := ?_, answered := ?_, sound := trivial }
  · intro r'
    rcases hcleared r' with hc | hc
    · exact .inl hc
    · simpa only [hc] using h.pending_latest r'
  · intro x hx hne r'
    rcases hcleared r' with hc | hc
    · simpa only [hc] using hne.symm
    · simpa only [hc] using h.answered x hx hne r'

/-- **The pending answer is applied**: it is the answer to the latest request,
which was not answered before and is not pending any more. -/
theorem Tracked.consume {m : Response} (hne : m.chainId ≠ "")
    (hmatch : m.chainId = s.client.pending m.request) :
    (Sys.apply { s with client := s.client.setPending "" m.request } m).Tracked ids := by
  have hlatest : m.chainId = s.latest m.request := by
    rcases h.pending_latest m.request with he | hl
    · exact absurd (hmatch.trans he) hne
    · exact hmatch.trans hl
  refine (h.clearPending m.request).apply (fun _ => ⟨hlatest, ?_, ?_⟩)
  · intro r
    by_cases hr : r = m.request
    · rw [hr, pending_setPending_self]
      exact hne.symm
    · -- IDs of different kinds of request are different.
      rw [pending_setPending_of_ne _ _ hr]
      intro heq
      rcases h.pending_latest r with he | hl
      · exact hne (heq.symm.trans he)
      · have hsame : m.chainId = s.latest r := heq.symm.trans hl
        exact hr (h.latest_inj r m.request (hsame ▸ hne) (hsame.symm.trans hlatest))
  · intro hx
    exact h.answered _ hx hne m.request hmatch.symm

theorem Tracked.onHandler {ok : Bool} (horder : s.AnswersInOrder (.handler ok))
    (hs : s.onHandler ids ok = some s') : s'.Tracked ids := by
  unfold Sys.onHandler at hs
  cases hpc : s.pc <;> simp only [hpc] at hs
  case idle => cases hs
  case stopping m =>
    cases hs
    refine h.frame (pending_callStopFunc _) ?_
    by_cases hchanged : s.client.callStopFunc = s.client
    · simp [hchanged, HandlerPC.Sound]
    · simp only [AnswersInOrder, hpc] at horder
      have hsome : s.client.stopFunc ≠ none := fun hn => hchanged (callStopFunc_of_none hn)
      simpa [hchanged, HandlerPC.Sound] using horder.resolve_left hsome
  case checking m changed =>
    split_ifs at hs with hmalformed hne hmatch <;> cases hs
    · exact h.discard hpc (.inl hmalformed.1)
    · exact h.discard hpc (.inr ⟨hne, hmatch⟩)
    · exact h.frame (fun _ => rfl) ⟨hne, not_not.mp hmatch⟩
    · exact h.apply (fun hm => absurd hm hne)
  case consuming m =>
    cases hs
    have hsound := h.sound
    rw [hpc] at hsound
    exact h.consume hsound.1 hsound.2
  case probing =>
    cases hs
    have hreq := h.request (r := .register) (by simp [hpc, HandlerPC.answers]) 0
    exact hreq.frame (fun _ => rfl) trivial
  case connecting =>
    cases hs
    exact h.frame (pending_callStopFunc _) trivial
  case building =>
    cases hs
    exact h.frame (fun r => by cases r <;> rfl) trivial
  case configuring =>
    cases hs
    exact h.frame (pending_callStopGetConfig _) trivial

/-- **One step** that meets the condition keeps the invariant. -/
theorem Tracked.step {e : Event} (horder : s.AnswersInOrder e)
    (hs : s.step ids e = some s') : s'.Tracked ids := by
  cases e with
  | arrive m =>
    simp only [Sys.step, onArrive, ite_none_right_eq_some, some.injEq] at hs
    obtain ⟨-, hs⟩ := hs
    subst hs
    refine h.frame (fun _ => rfl) ?_
    split_ifs <;> trivial
  | handler ok => exact h.onHandler horder hs
  | reconnect =>
    simp only [Sys.step, onReconnect, ite_none_right_eq_some, some.injEq] at hs
    obtain ⟨hidle, hs⟩ := hs
    subst hs
    have hstopped := h.setClient (c := s.closeTunnel.client.callStopFunc)
      (fun r => by rw [pending_callStopFunc, pending_closeTunnel])
    exact hstopped.request (by simp [hidle, HandlerPC.answers]) 0
  | terminate =>
    simp only [Sys.step, onTerminate, ite_none_right_eq_some, some.injEq] at hs
    obtain ⟨-, hs⟩ := hs
    subst hs
    have hstopped := h.setClient (c := s.closeTunnel.client.callStopFunc.callStopGetConfig)
      (fun r => by
        rw [pending_callStopGetConfig, pending_callStopFunc, pending_closeTunnel])
    exact hstopped.setClient (fun r => by cases r <;> rfl)
  | onConnect =>
    cases hs
    unfold Sys.onConnect
    by_cases hconn : s.client.connected = true
    · rw [if_pos hconn]
      exact h.skip 1
    · rw [if_neg hconn]
      have hstopped := h.setClient (pending_callStopFunc s.client)
      exact hstopped.request (horder.resolve_left hconn) 1
  | recover =>
    cases hs
    exact h.request horder 1
  | loadRemoteConfig =>
    simp only [Sys.step, Sys.loadRemoteConfig, ite_none_right_eq_some,
      some.injEq] at hs
    obtain ⟨-, hs⟩ := hs
    subst hs
    have hstopped := h.setClient (pending_callStopGetConfig s.client)
    exact hstopped.request horder 0
  | timeout id =>
    cases hs
    exact h.setClient (pending_stopSender s.client (some id))

omit h

/-- IDs that differ in their length. -/
def unaryIds : ChainIds where
  gen n := String.ofList (replicate (n + 1) 'a')
  injective := by
    intro n n' h
    have hlist := congrArg String.toList h
    simpa using hlist
  ne_empty := by
    intro n h
    have hlist := congrArg String.toList h
    simp at hlist

/-- The client connects and gets its exit nodes; it registers. -/
def exitNodesAnswered : List Event :=
  [.onConnect, .arrive { request := .ping, chainId := "a" }, .handler true, .handler true,
   .handler true, .handler true]

end Sys

end Newt.Chains
