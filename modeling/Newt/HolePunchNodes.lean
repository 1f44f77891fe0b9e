import Newt.HolePunch
import Newt.Lib.Runs

/-!
# Updates of the exit nodes

The hole punch loop works on a copy of the exit nodes, with their endpoints resolved.  A call
that changes the nodes signals the loop through a channel with one place, and skips the signal
when the channel is full.  `updates_reach_loop` says that no update is lost.
-/

namespace Newt.HolePunch

open List Runs

/-- The address of an endpoint and a port. -/
abbrev Lookup := List Char → Int → Option String

/-- The address, the key and the name of a `resolvedExitNode`. -/
def resolveNode (lookup : Lookup) (node : ExitNode) : Option (String × String × List Char) :=
  (lookup node.endpoint node.relayPort).map (·, node.publicKey, node.endpoint)

/-- Before the copy of the nodes, before their endpoints are resolved, and in the `select`. -/
inductive PC
  | copying
  | resolving (nodes : List ExitNode)
  | waiting

/-- The manager and its loop.  The map is the list of its nodes; `lookup` is the last lookup. -/
structure Loop where
  exitNodes : List ExitNode
  updateChan : Bool
  pc : PC
  resolvedNodes : List (String × String × List Char)
  lookup : Lookup

inductive Event
  | addExitNode (node : ExitNode)
  | removeExitNode (endpoint : List Char)
  | removeExitNodesByPeer (peerID : Int)
  -- The interval is set.
  | signal
  | update
  | copy (nodes : List ExitNode)
  | resolve (lookup : Lookup)

/-- A node after `RemoveExitNodesByPeer`, unless it is deleted. -/
def ExitNode.withoutPeer (peerID : Int) (node : ExitNode) : Option ExitNode :=
  let newSiteIds := node.siteIds.filter (· ≠ peerID)
  if newSiteIds.length ≠ node.siteIds.length then
    if newSiteIds = [] then none else some { node with siteIds := newSiteIds }
  else some node

namespace Loop

def step (m : Loop) : Event → Option Loop
  | .addExitNode node =>
    if m.exitNodes.any (·.endpoint = node.endpoint) then some m
    else some { m with exitNodes := node :: m.exitNodes, updateChan := true }
  | .removeExitNode endpoint =>
    if m.exitNodes.any (·.endpoint = endpoint) then
      let exitNodes := m.exitNodes.filter (·.endpoint ≠ endpoint)
      some { m with exitNodes := exitNodes, updateChan := true }
    else some m
  | .removeExitNodesByPeer peerID =>
    let removed := m.exitNodes.any (fun node => (node.withoutPeer peerID).isNone)
    some { m with
           exitNodes := m.exitNodes.filterMap (ExitNode.withoutPeer peerID)
           updateChan := m.updateChan || removed }
  | .signal => some { m with updateChan := true }
  | .update =>
    match m.pc, m.updateChan with
    | .waiting, true => some { m with updateChan := false, pc := .copying }
    | _, _ => none
  | .copy nodes =>
    match m.pc with
    | .copying => if nodes.Perm m.exitNodes then some { m with pc := .resolving nodes } else none
    | _ => none
  | .resolve lookup =>
    match m.pc with
    | .resolving nodes =>
      let resolvedNodes := nodes.filterMap (resolveNode lookup)
      some { m with pc := .waiting, resolvedNodes := resolvedNodes, lookup := lookup }
    | _ => none

/-- A signal is pending, or the copy, and what was made of it, is that of the nodes in the map. -/
def Current (m : Loop) : Prop :=
  m.updateChan = true ∨
    match m.pc with
    | .copying => True
    | .resolving nodes => ∀ lookup,
        (nodes.filterMap (resolveNode lookup)).Perm (m.exitNodes.filterMap (resolveNode lookup))
    | .waiting => m.resolvedNodes.Perm (m.exitNodes.filterMap (resolveNode m.lookup))

/-- The loop does not look at the sites, which change without a signal. -/
theorem filterMap_withoutPeer {peerID : Int} {nodes : List ExitNode} (lookup : Lookup)
    (h : ∀ node ∈ nodes, node.withoutPeer peerID ≠ none) :
    (nodes.filterMap (ExitNode.withoutPeer peerID)).filterMap (resolveNode lookup) =
      nodes.filterMap (resolveNode lookup) := by
  rw [filterMap_filterMap]
  refine filterMap_congr fun node hnode => ?_
  have hsome := h node hnode
  unfold ExitNode.withoutPeer at hsome ⊢
  dsimp only at hsome ⊢
  split_ifs at hsome ⊢ <;> first | rfl | exact absurd rfl hsome

theorem Current.step {m m' : Loop} {e : Event} (h : m.Current) (hs : m.step e = some m') :
    m'.Current := by
  cases e with
  | addExitNode _ | removeExitNode _ =>
    simp only [Loop.step] at hs
    split at hs <;> cases hs <;> first | exact h | exact .inl rfl
  | removeExitNodesByPeer peerID =>
    cases hs
    by_cases hsome : ∀ node ∈ m.exitNodes, node.withoutPeer peerID ≠ none
    · refine h.imp (fun htrue => by rw [htrue]; rfl) fun hcurrent => ?_
      simp only [filterMap_withoutPeer _ hsome]
      exact hcurrent
    · exact .inl (by simpa using Or.inr hsome)
  | signal =>
    cases hs
    exact .inl rfl
  | update =>
    simp only [Loop.step] at hs
    split at hs <;> cases hs
    exact .inr trivial
  | copy nodes =>
    simp only [Loop.step] at hs
    split at hs
    · split at hs <;> cases hs
      next hperm => exact .inr fun lookup => hperm.filterMap _
    · cases hs
  | resolve lookup =>
    simp only [Loop.step] at hs
    split at hs <;> cases hs
    next nodes hpc =>
    rw [Current, hpc] at h
    exact h.imp_right fun hcurrent => hcurrent lookup

/-- **No update is lost**: whenever the loop waits and no signal is pending, it sends to the
nodes in the map, as far as the last lookup resolved them. -/
theorem updates_reach_loop {m₀ m : Loop} {es : List Event} (hpc : m₀.pc = .copying)
    (hrun : run step m₀ es = some m) (hwaiting : m.pc = .waiting) (hchan : m.updateChan = false) :
    m.resolvedNodes.Perm (m.exitNodes.filterMap (resolveNode m.lookup)) := by
  have h : m.Current := run_always Current.step (.inr (by rw [hpc]; trivial)) hrun
  rw [Current, hchan, hwaiting] at h
  exact h.resolve_left (nomatch ·)

/-- A node is added during the lookup. -/
def addedLate : List Event :=
  [.copy [], .addExitNode ⟨['a'], 1, "", []⟩, .resolve fun _ _ => none, .update,
    .copy [⟨['a'], 1, "", []⟩], .resolve fun _ _ => some "b"]

theorem addedLate_reached : ∃ m,
    run step ⟨[], false, .copying, [], fun _ _ => none⟩ addedLate = some m ∧
      m.resolvedNodes.Perm [("b", "", ['a'])] :=
  ⟨_, rfl, @updates_reach_loop ⟨[], false, .copying, [], fun _ _ => none⟩ _ addedLate rfl rfl rfl
    rfl⟩

end Loop

end Newt.HolePunch
