import Mathlib.Data.List.Basic

/-!
# Host and port in one string

`net.SplitHostPort` and `net.JoinHostPort` on the characters of a string.  A
host with a colon stands in brackets.

Main result: `splitHostPort_joinHostPort`, what is joined is split again.
-/

namespace HostPort

open List

/-- What stands before and after the first `c`. -/
def splitFirst (c : Char) : List Char → Option (List Char × List Char)
  | [] => none
  | x :: xs => if x = c then some ([], xs) else (splitFirst c xs).map (fun p => (x :: p.1, p.2))

theorem splitFirst_append {c : Char} {l r : List Char} (h : c ∉ l) :
    splitFirst c (l ++ c :: r) = some (l, r) := by
  induction l with
  | nil => simp [splitFirst]
  | cons x l ih =>
    rw [mem_cons, not_or] at h
    simp [splitFirst, ih h.2, Ne.symm h.1]

/-- `net.SplitHostPort`: `none` is an error. -/
def splitHostPort (hostport : List Char) : Option (List Char × List Char) :=
  match hostport with
  | '[' :: rest =>
    -- The first bracket that closes stands just before the last colon.
    match splitFirst ']' rest with
    | some (host, ':' :: port) =>
      if ':' ∈ port ∨ '[' ∈ rest ∨ ']' ∈ port then none else some (host, port)
    | _ => none
  | _ =>
    match splitFirst ':' hostport with
    | some (host, port) =>
      if ':' ∈ port ∨ '[' ∈ hostport ∨ ']' ∈ hostport then none else some (host, port)
    | none => none

/-- `net.JoinHostPort`. -/
def joinHostPort (host port : List Char) : List Char :=
  if ':' ∈ host then '[' :: host ++ ']' :: ':' :: port else host ++ ':' :: port

/-- A host without brackets and a port without brackets and colons are joined to a
string that splits into them. -/
theorem splitHostPort_joinHostPort {host port : List Char} (hhost : '[' ∉ host ∧ ']' ∉ host)
    (hport : ':' ∉ port ∧ '[' ∉ port ∧ ']' ∉ port) :
    splitHostPort (joinHostPort host port) = some (host, port) := by
  obtain ⟨hopen, hclose⟩ := hhost
  obtain ⟨hcolon, hopen', hclose'⟩ := hport
  unfold joinHostPort
  split
  · -- The host has a colon and stands in brackets.
    have hsplit := splitFirst_append (r := ':' :: port) hclose
    simp only [splitHostPort, cons_append, hsplit]
    rw [if_neg]
    simp [hcolon, hopen, hopen', hclose']
  · next hnocolon =>
    have hsplit := splitFirst_append (r := port) hnocolon
    have hnobracket : ∀ rest, host ++ ':' :: port ≠ '[' :: rest := by
      intro rest heq
      cases host with
      | nil => cases heq
      | cons c cs =>
        obtain ⟨rfl, -⟩ := cons.inj heq
        exact hopen mem_cons_self
    unfold splitHostPort
    split
    · next rest heq => exact absurd heq (hnobracket rest)
    · rw [hsplit]
      dsimp only
      rw [if_neg]
      simp [hcolon, hopen, hopen', hclose, hclose']

theorem eq_of_splitFirst {c : Char} {s l r : List Char} (h : splitFirst c s = some (l, r)) :
    s = l ++ c :: r ∧ c ∉ l := by
  induction s generalizing l with
  | nil => cases h
  | cons x s ih =>
    unfold splitFirst at h
    split at h
    · next hx =>
      cases h
      exact ⟨by rw [hx, nil_append], not_mem_nil⟩
    · next hx =>
      obtain ⟨p, hp, heq⟩ := Option.map_eq_some_iff.mp h
      cases heq
      obtain ⟨hs, hc⟩ := ih hp
      refine ⟨by rw [hs]; rfl, fun hmem => ?_⟩
      rcases mem_cons.mp hmem with heq | hmem
      · exact hx heq.symm
      · exact hc hmem

/-- What is split has no brackets left, and no colon in the port. -/
theorem splitHostPort_parts {hostport host port : List Char}
    (h : splitHostPort hostport = some (host, port)) :
    ('[' ∉ host ∧ ']' ∉ host) ∧ ':' ∉ port ∧ '[' ∉ port ∧ ']' ∉ port := by
  unfold splitHostPort at h
  split at h
  · split at h
    · next hsplit =>
      split_ifs at h with hbad
      cases h
      obtain ⟨hrest, hclose⟩ := eq_of_splitFirst hsplit
      simp only [hrest, mem_append, mem_cons, not_or] at hbad
      tauto
    · cases h
  · split at h
    · next hsplit =>
      split_ifs at h with hbad
      cases h
      obtain ⟨hrest, -⟩ := eq_of_splitFirst hsplit
      simp only [hrest, mem_append, mem_cons, not_or] at hbad
      tauto
    · cases h

end HostPort
