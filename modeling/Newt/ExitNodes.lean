import Mathlib.Data.List.DropRight
import Mathlib.Data.List.Basic

/-!
# Pinging the exit nodes

`PingExitNodes` measures the exit nodes the server offers.  A single node and a preferred
one are returned unpinged.  The others are pinged three times each, and a client that is
already connected leaves out the node it was connected to as long as another one is
healthy.

`contract` says what the function is for, in terms of the attempts.  The code works on
rounded milliseconds, remembers one index only, and takes the first node for a preferred
endpoint that names none.  `pingExitNodes_eq_contract_iff` says exactly when it keeps the
contract.
-/

namespace Newt.ExitNodes

open List

structure ExitNode where
  id : Int
  name : String
  endpoint : List Char
  /-- The bits of a `float64`. -/
  weight : UInt64
  wasPreviouslyConnected : Bool
deriving DecidableEq, Repr

structure ExitNodePingResult where
  exitNodeID : Int
  latencyMs : Nat
  weight : UInt64
  error : String
  name : String
  endpoint : List Char
  wasPreviouslyConnected : Bool
deriving DecidableEq, Repr

/-- What attempt `j` on node `i` gives: an error, or the latency in nanoseconds. -/
abbrev Get := (i j : Nat) → (url : List Char) → Except String Nat

def pingAttempts : Nat := 3

def nanosPerMilli : Nat := 1000000

def pingURL (endpoint : List Char) : List Char :=
  let url :=
    if "http://".toList.isPrefixOf endpoint || "https://".toList.isPrefixOf endpoint then endpoint
    else "http://".toList ++ endpoint
  if "/ping".toList.isSuffixOf url then url
  else url.rdropWhile (· = '/') ++ "/ping".toList

/-- The result for a node that is not pinged. -/
def ExitNode.direct (node : ExitNode) : ExitNodePingResult :=
  { exitNodeID := node.id, latencyMs := 0, weight := node.weight, error := "", name := node.name,
    endpoint := node.endpoint, wasPreviouslyConnected := node.wasPreviouslyConnected }

/-- The variables of the loop over the attempts. -/
structure Tally where
  totalLatency : Nat := 0
  lastErr : Option String := none
  successes : Nat := 0

def Tally.add (y : Tally) : Except String Nat → Tally
  | .error err => { y with lastErr := some err }
  | .ok latency =>
    { y with totalLatency := y.totalLatency + latency, successes := y.successes + 1 }

structure NodeResult where
  node : ExitNode
  latency : Nat
  err : Option String

def pingNode (get : Get) (i : Nat) (node : ExitNode) : NodeResult :=
  let url := pingURL node.endpoint
  let y : Tally := (List.range pingAttempts).foldl (fun y j => y.add (get i j url)) {}
  let avgLatency := if 0 < y.successes then y.totalLatency / y.successes else 0
  if y.successes = 0 then { node := node, latency := 0, err := y.lastErr }
  else { node := node, latency := avgLatency, err := none }

def NodeResult.toPingResult (res : NodeResult) : ExitNodePingResult :=
  { exitNodeID := res.node.id, latencyMs := res.latency / nanosPerMilli,
    weight := res.node.weight, error := res.err.getD "",
    name := res.node.name, endpoint := res.node.endpoint,
    wasPreviouslyConnected := res.node.wasPreviouslyConnected }

/-- The index of the last result with the flag. -/
def previouslyConnectedNodeIdx (results : List ExitNodePingResult) : Option Nat :=
  results.zipIdx.foldl (fun idx x => if x.1.wasPreviouslyConnected then some x.2 else idx) none

def ExitNodePingResult.good (res : ExitNodePingResult) : Bool :=
  0 < res.latencyMs && res.error = ""

/-- The results but the one with that index. -/
def others (results : List ExitNodePingResult) : List ExitNodePingResult :=
  match previouslyConnectedNodeIdx results with
  | none => results
  | some idx => results.eraseIdx idx

/-- The last part of `PingExitNodes`, for a client that is already connected. -/
def excludePrevious (results : List ExitNodePingResult) : List ExitNodePingResult :=
  let goodNodeCount := (others results).countP ExitNodePingResult.good
  if previouslyConnectedNodeIdx results ≠ none ∧ 0 < goodNodeCount then others results else results

section

variable (get : Get) (exitNodes : List ExitNode) (preferEndpoint : List Char)
  (alreadyConnected : Bool)

def pingExitNodes : List ExitNodePingResult :=
  match exitNodes with
  | [] => []
  | first :: rest =>
    if rest = [] ∨ preferEndpoint ≠ [] then
      let selected :=
        if preferEndpoint ≠ [] then
          ((first :: rest).find? (fun node => node.endpoint = preferEndpoint)).getD first
        else first
      [selected.direct]
    else
      let results := (first :: rest).zipIdx.map (fun x => pingNode get x.2 x.1)
      let pingResults := results.map NodeResult.toPingResult
      if alreadyConnected then excludePrevious pingResults else pingResults

/-! ## The contract -/

/-- The outcomes of the attempts on a node. -/
def attempts (i : Nat) (node : ExitNode) : List (Except String Nat) :=
  (List.range pingAttempts).map (fun j => get i j (pingURL node.endpoint))

def succeeded (os : List (Except String Nat)) : List Nat :=
  os.filterMap Except.toOption

def errorOf : Except String Nat → Option String
  | .error err => some err
  | .ok _ => none

/-- The average latency of the attempts that succeeded, or the last error. -/
def measured (i : Nat) (node : ExitNode) : ExitNodePingResult :=
  let os := attempts get i node
  let latencies := succeeded os
  { node.direct with
    latencyMs := latencies.foldl (· + ·) 0 / latencies.length / nanosPerMilli
    error := if latencies = [] then ((os.filterMap errorOf).getLast?).getD "" else "" }

/-- One result a node, in order. -/
def measuredAll : List ExitNodePingResult :=
  exitNodes.zipIdx.map (fun x => measured get x.2 x.1)

/-- The node that is returned unpinged. -/
def named : Option ExitNode :=
  match exitNodes with
  | [node] => some node
  | _ =>
    if preferEndpoint ≠ [] then exitNodes.find? (fun node => node.endpoint = preferEndpoint)
    else none

/-- For a node that was not connected before an attempt succeeded. -/
def OtherReached : Prop :=
  ∃ x ∈ exitNodes.zipIdx, x.1.wasPreviouslyConnected = false ∧ succeeded (attempts get x.2 x.1) ≠ []
  deriving Decidable

/-- What `PingExitNodes` is documented to return. -/
def contract : List ExitNodePingResult :=
  match named exitNodes preferEndpoint with
  | some node => [node.direct]
  | none =>
    if alreadyConnected = true ∧ OtherReached get exitNodes then
      (measuredAll get exitNodes).filter (fun r => !r.wasPreviouslyConnected)
    else measuredAll get exitNodes

/-- The function returns what it is documented to. -/
def KeepsContract : Prop :=
  pingExitNodes get exitNodes preferEndpoint alreadyConnected =
    contract get exitNodes preferEndpoint alreadyConnected
  deriving Decidable

/-- The exclusion on rounded results is the one of the contract: no node has the flag; or
a node without it was reached, only one has it and another one took a millisecond; or none
was reached, and none but the last with the flag took a millisecond. -/
def ExcludesAlike : Prop :=
  (∀ r ∈ measuredAll get exitNodes, r.wasPreviouslyConnected = false) ∨
    if OtherReached get exitNodes then
      (measuredAll get exitNodes).countP (·.wasPreviouslyConnected) = 1 ∧
        ∃ r ∈ others (measuredAll get exitNodes), r.good = true
    else ∀ r ∈ others (measuredAll get exitNodes), r.good = false
  deriving Decidable

/-- All the contract keeps is the first node, which answers within a millisecond. -/
def KeepsFirst : Prop :=
  ∃ first ∈ exitNodes.head?, first.wasPreviouslyConnected = false ∧
    measured get 0 first = first.direct ∧
    ∀ node ∈ exitNodes.tail, node.wasPreviouslyConnected = true
  deriving Decidable

end

/-! ## The loop over the attempts -/

/-- The variables of the loop, from the outcomes. -/
theorem foldl_add (os : List (Except String Nat)) :
    os.foldl Tally.add {} =
      ⟨(succeeded os).foldl (· + ·) 0, (os.filterMap errorOf).getLast?, (succeeded os).length⟩ := by
  induction os using List.reverseRecOn with
  | nil => rfl
  | append_singleton os o ih =>
    rw [foldl_append, ih]
    cases o <;> simp [Tally.add, succeeded, errorOf, Except.toOption, filterMap_cons]

theorem toPingResult_pingNode (get : Get) (i : Nat) (node : ExitNode) :
    (pingNode get i node).toPingResult = measured get i node := by
  have hfold : (List.range pingAttempts).foldl
      (fun y j => y.add (get i j (pingURL node.endpoint))) ({} : Tally) =
        (attempts get i node).foldl Tally.add {} := by
    rw [attempts, foldl_map]
  unfold pingNode measured
  dsimp only
  rw [hfold, foldl_add]
  by_cases hnone : succeeded (attempts get i node) = []
  · simp [hnone, NodeResult.toPingResult, ExitNode.direct]
  · have hpos : 0 < (succeeded (attempts get i node)).length := length_pos_of_ne_nil hnone
    simp [hnone, hpos, NodeResult.toPingResult, ExitNode.direct]

/-! ## The exclusion -/

/-- What the index is: that of a result with the flag, if there is one. -/
theorem previouslyConnectedNodeIdx_cases (results : List ExitNodePingResult) :
    (previouslyConnectedNodeIdx results = none ∧
      ∀ r ∈ results, r.wasPreviouslyConnected = false) ∨
    ∃ before r after, results = before ++ r :: after ∧
      previouslyConnectedNodeIdx results = some before.length ∧
      r.wasPreviouslyConnected = true := by
  induction results using List.reverseRecOn with
  | nil => exact .inl ⟨rfl, fun r hr => absurd hr not_mem_nil⟩
  | append_singleton results last ih =>
    have hidx : previouslyConnectedNodeIdx (results ++ [last]) =
        if last.wasPreviouslyConnected then some results.length
        else previouslyConnectedNodeIdx results := by
      simp [previouslyConnectedNodeIdx, zipIdx_append]
    cases hlast : last.wasPreviouslyConnected with
    | true => exact .inr ⟨results, last, [], rfl, by rw [hidx, hlast, if_pos rfl], hlast⟩
    | false =>
      rw [hlast] at hidx
      rcases ih with ⟨hnone, hall⟩ | ⟨before, r, after, rfl, hsome, hr⟩
      · exact .inl ⟨hidx.trans hnone, forall_mem_append.mpr ⟨hall, forall_mem_singleton.mpr hlast⟩⟩
      · exact .inr ⟨before, r, after ++ [last], by simp, hidx.trans hsome, hr⟩

/-- What the code leaves out is all the contract does if nothing else has the flag. -/
theorem eq_filter_iff {before after : List ExitNodePingResult} {r : ExitNodePingResult}
    (hr : r.wasPreviouslyConnected = true) :
    before ++ after = (before ++ r :: after).filter (fun x => !x.wasPreviouslyConnected) ↔
      (before ++ r :: after).countP (·.wasPreviouslyConnected) = 1 := by
  have hcount : (before ++ r :: after).countP (·.wasPreviouslyConnected) =
      (before ++ after).countP (·.wasPreviouslyConnected) + 1 := by
    rw [countP_append, countP_append, countP_cons_of_pos hr]
    rfl
  rw [filter_append, filter_cons_of_neg (by simp [hr]), ← filter_append, hcount,
    Nat.add_eq_right, countP_eq_zero, eq_comm, filter_eq_self]
  simp

/-- **The exclusion**, with any results and any condition. -/
theorem excludePrevious_eq_iff (results : List ExitNodePingResult) (reached : Prop)
    [Decidable reached] :
    excludePrevious results =
        (if reached then results.filter (fun r => !r.wasPreviouslyConnected) else results) ↔
      (∀ r ∈ results, r.wasPreviouslyConnected = false) ∨
        if reached then
          results.countP (·.wasPreviouslyConnected) = 1 ∧ ∃ r ∈ others results, r.good = true
        else ∀ r ∈ others results, r.good = false := by
  rcases previouslyConnectedNodeIdx_cases results with
    ⟨hnone, hall⟩ | ⟨before, r, after, rfl, hidx, hr⟩
  · refine iff_of_true ?_ (.inl hall)
    have hfilter : results.filter (fun r => !r.wasPreviouslyConnected) = results :=
      filter_eq_self.mpr fun x hx => by rw [hall x hx]; rfl
    rw [hfilter, ite_self]
    simp [excludePrevious, hnone]
  · have hmem : r ∈ before ++ r :: after := mem_append_right before mem_cons_self
    have hflags : ¬ ∀ x ∈ before ++ r :: after, x.wasPreviouslyConnected = false :=
      fun hall => Bool.false_ne_true ((hall r hmem).symm.trans hr)
    have hothers : others (before ++ r :: after) = before ++ after := by
      simp [others, hidx, eraseIdx_append_of_length_le]
    have hcode : excludePrevious (before ++ r :: after) =
        if ∃ x ∈ before ++ after, x.good = true then before ++ after
        else before ++ r :: after := by
      unfold excludePrevious
      simp only [hidx, hothers, ne_eq, reduceCtorEq, not_false_eq_true, true_and, countP_pos_iff]
    rw [or_iff_right hflags, hcode, hothers]
    split_ifs with hgood hreached hreached
    · exact (eq_filter_iff hr).trans (and_iff_left hgood).symm
    · obtain ⟨x, hx, hgood⟩ := hgood
      refine iff_of_false (fun h => ?_) (fun h => ?_)
      · simpa using congrArg length h
      · exact Bool.false_ne_true ((h x hx).symm.trans hgood)
    · refine iff_of_false (fun h => ?_) (fun h => hgood h.2)
      rw [h] at hmem
      simp [hr] at hmem
    · exact iff_of_true rfl fun x hx => eq_false_of_ne_true fun h => hgood ⟨x, hx, h⟩

/-! ## The contract and the code -/

section Main

variable {get : Get} {first second : ExitNode} {rest : List ExitNode}

/-- Several nodes without a preferred one are pinged. -/
theorem pingExitNodes_of_two (alreadyConnected : Bool) :
    pingExitNodes get (first :: second :: rest) [] alreadyConnected =
      if alreadyConnected then excludePrevious (measuredAll get (first :: second :: rest))
      else measuredAll get (first :: second :: rest) := by
  have hnot : ¬ (second :: rest = [] ∨ ([] : List Char) ≠ []) := by simp
  unfold pingExitNodes measuredAll
  dsimp only
  rw [if_neg hnot]
  simp only [map_map, Function.comp_def, toPingResult_pingNode]

theorem wasPreviouslyConnected_measured (i : Nat) (node : ExitNode) :
    (measured get i node).wasPreviouslyConnected = node.wasPreviouslyConnected :=
  rfl

/-- The contract keeps the first of several nodes only, as if it were unpinged. -/
theorem direct_eq_kept_iff :
    [first.direct] = (measuredAll get (first :: rest)).filter (fun r => !r.wasPreviouslyConnected) ↔
      KeepsFirst get (first :: rest) := by
  unfold measuredAll KeepsFirst
  rw [zipIdx_cons, map_cons]
  cases hflag : first.wasPreviouslyConnected with
  | true =>
    -- the one that is kept is not flagged
    refine iff_of_false (fun h => ?_) (by simp [hflag])
    have hmem := h ▸ mem_singleton_self first.direct
    rw [filter_cons_of_neg (by simp [wasPreviouslyConnected_measured, hflag])] at hmem
    simp [ExitNode.direct, hflag] at hmem
  | false =>
    have hrest := forall_mem_map (f := Prod.fst) (l := rest.zipIdx 1)
      (P := fun node : ExitNode => node.wasPreviouslyConnected = true)
    rw [zipIdx_map_fst] at hrest
    rw [filter_cons_of_pos (by simp [wasPreviouslyConnected_measured, hflag]), cons_eq_cons,
      eq_comm, @eq_comm _ [], filter_eq_nil_iff, forall_mem_map]
    simp [hflag, hrest, wasPreviouslyConnected_measured]

/-- **The contract of `PingExitNodes`** is kept exactly if a node is named, or there is none;
or no endpoint is preferred, and the client is not yet connected or the exclusion on rounded
results agrees with the one on nodes; or the endpoint names none of the nodes and the contract
keeps the first one only, with no latency. -/
theorem pingExitNodes_eq_contract_iff (get : Get) (exitNodes : List ExitNode)
    (preferEndpoint : List Char) (alreadyConnected : Bool) :
    KeepsContract get exitNodes preferEndpoint alreadyConnected ↔
      (named exitNodes preferEndpoint).isSome = true ∨ exitNodes = [] ∨
        if preferEndpoint = [] then alreadyConnected = false ∨ ExcludesAlike get exitNodes
        else alreadyConnected = true ∧ OtherReached get exitNodes ∧ KeepsFirst get exitNodes := by
  unfold KeepsContract contract
  rcases exitNodes with _ | ⟨first, _ | ⟨second, rest⟩⟩
  · simp [pingExitNodes, named, measuredAll]
  · have hselected : ([first].find? (fun node => node.endpoint = preferEndpoint)).getD first =
        first := by
      rw [find?_singleton]
      split_ifs <;> rfl
    simp only [pingExitNodes, named, true_or, if_true, hselected, ite_self, Option.isSome_some]
  · by_cases hprefer : preferEndpoint = []
    · subst hprefer
      rw [pingExitNodes_of_two]
      cases alreadyConnected with
      | false => simp [named]
      | true =>
        simpa [named, ExcludesAlike] using
          excludePrevious_eq_iff _ (OtherReached get (first :: second :: rest))
    · unfold pingExitNodes named
      cases hfind : (first :: second :: rest).find? (·.endpoint = preferEndpoint) with
      | some node => simp [hprefer, hfind]
      | none =>
        simp only [hprefer, hfind, ne_eq, not_false_eq_true, or_true, if_true, if_false,
          Option.getD_none, Option.isSome_none, Bool.false_eq_true, reduceCtorEq, false_or]
        rw [← and_assoc]
        split_ifs with hkept
        · rw [direct_eq_kept_iff, and_iff_right hkept]
        · refine iff_of_false (fun h => ?_) (fun h => hkept h.1)
          simpa [measuredAll] using congrArg length h

/-- A node with this number. -/
def nodeAt (id : Int) (endpoint : String) (wasPreviouslyConnected : Bool) : ExitNode :=
  { id := id, name := endpoint, endpoint := endpoint.toList, weight := 0,
    wasPreviouslyConnected := wasPreviouslyConnected }

/-- Every attempt on node `i` takes `latencies[i]` microseconds, or fails. -/
def answering (latencies : List Nat) : Get := fun i _ _ =>
  match latencies[i]? with
  | some micros => .ok (micros * 1000)
  | none => .error "Get: connection refused"

/-- A preferred endpoint that names no node; a node that answers within a millisecond; two
nodes that were connected before; and one of these as the only healthy one. -/
theorem pingExitNodes_breaks_contract :
    let flagged := [nodeAt 1 "a" true, nodeAt 2 "b" true, nodeAt 3 "c" false]
    ¬ KeepsContract (answering [5000, 5000]) [nodeAt 1 "a" false, nodeAt 2 "b" false]
        "c".toList false ∧
      ¬ KeepsContract (answering [20000, 900]) [nodeAt 1 "a" true, nodeAt 2 "b" false] [] true ∧
      ¬ KeepsContract (answering [5000, 5000, 5000]) flagged [] true ∧
      ¬ KeepsContract (answering [5000, 5000]) flagged [] true := by
  decide +kernel

end Main

end Newt.ExitNodes
