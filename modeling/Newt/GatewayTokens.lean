import Newt.BrowserGateway

/-!
# The token check of the browser gateway and the order of its map

`isAllowed` ranges over the targets in any order and lets the first one with the type,
host and port decide.  What is meant is a fact about the set of targets: some target that
is registered has the type, host, port and token.

`lastWritten` is the abstract map, the target last written under an ID, and the targets of
the gateway are its values (`mem_after_iff`).  `isAllowed_exact_iff` says for which
requests the answer is the meant one in every order: those that do not find both a target
with their token and one with another.
-/

namespace Newt.BrowserGateway

open List Targets

/-- The target last written under an ID, after one more operation. -/
def Op.write (id : Int) (before : Option Target) : Op → Option Target
  | .setTargets ts => ts.foldl (fun written t => if t.id = id then some t else written) none
  | .addTarget t => if t.id = id then some t else before
  | .removeTarget id' => if id' = id then none else before

/-- The target last written under an ID. -/
def lastWritten (history : List Op) (id : Int) : Option Target :=
  history.foldl (fun before op => op.write id before) none

/-- A target for this type, host and port. -/
def Target.For (t : Target) (targetType : TargetType) (host : List Char) (port : Int) : Prop :=
  t.type = targetType ∧ t.destination = host ∧ t.destinationPort = port
  deriving Decidable

/-- The target last written under some ID has that type, host, port and token. -/
def Registered (history : List Op) (targetType : TargetType) (host : List Char) (port : Int)
    (authToken : List Char) : Prop :=
  ∃ id t, lastWritten history id = some t ∧ t.For targetType host port ∧ t.authToken = authToken

variable {targets : Targets} {written : Int → Option Target}

/-- If the target last written under some ID is for this type, host and port and has the
token, so do all others for this type, host and port. -/
def Unambiguous (history : List Op) (targetType : TargetType) (host : List Char) (port : Int)
    (authToken : List Char) : Prop :=
  Registered history targetType host port authToken →
    ∀ id t, lastWritten history id = some t → t.For targetType host port →
      t.authToken = authToken

/-! ## The map -/

theorem mem_delete_iff {id : Int} {t : Target} :
    t ∈ (targets.delete id).entries ↔ t ∈ targets.entries ∧ t.id ≠ id := by simp [delete]

theorem mem_put_iff {t t' : Target} :
    t' ∈ (targets.put t).entries ↔ t' = t ∨ t' ∈ targets.entries ∧ t'.id ≠ t.id := by
  rw [← mem_delete_iff]
  exact mem_cons

/-- A map and the target it has under each ID. -/
def Represents (targets : Targets) (written : Int → Option Target) : Prop :=
  ∀ id t, written id = some t ↔ t ∈ targets.entries ∧ t.id = id

theorem represents_empty : Represents empty (fun _ => none) := by
  intro id t
  simp [empty]

variable (h : Represents targets written)

include h

theorem Represents.put (t : Target) :
    Represents (targets.put t) (fun id => if t.id = id then some t else written id) := by
  intro id t'
  rw [mem_put_iff]
  dsimp only
  split
  · next hid =>
    constructor
    · intro heq
      cases heq
      exact ⟨Or.inl rfl, hid⟩
    · rintro ⟨rfl | ⟨-, hne⟩, hid'⟩
      · rfl
      · exact absurd (hid'.trans hid.symm) hne
  · next hid =>
    rw [h id t']
    constructor
    · rintro ⟨hmem, hid'⟩
      exact ⟨Or.inr ⟨hmem, fun heq => hid (heq.symm.trans hid')⟩, hid'⟩
    · rintro ⟨rfl | ⟨hmem, -⟩, hid'⟩
      · exact absurd hid' hid
      · exact ⟨hmem, hid'⟩

theorem Represents.foldl_put (ts : List Target) :
    Represents (ts.foldl Targets.put targets)
      (fun id => ts.foldl (fun w t => if t.id = id then some t else w) (written id)) := by
  induction ts generalizing targets written with
  | nil => exact h
  | cons t ts ih => exact ih (h.put t)

theorem Represents.delete (id : Int) :
    Represents (targets.delete id) (fun id' => if id = id' then none else written id') := by
  intro id' t
  rw [mem_delete_iff]
  dsimp only
  split
  · next heq =>
    constructor
    · intro hnone
      cases hnone
    · rintro ⟨⟨-, hne⟩, hid'⟩
      exact absurd (hid'.trans heq.symm) hne
  · next hne =>
    rw [h id' t]
    constructor
    · rintro ⟨hmem, hid'⟩
      exact ⟨⟨hmem, fun heq => hne (heq.symm.trans hid')⟩, hid'⟩
    · rintro ⟨⟨hmem, -⟩, hid'⟩
      exact ⟨hmem, hid'⟩

theorem Represents.apply (op : Op) :
    Represents (targets.apply op) (fun id => op.write id (written id)) := by
  cases op with
  | setTargets ts => exact represents_empty.foldl_put ts
  | addTarget t => exact h.put t
  | removeTarget id => exact h.delete id

theorem Represents.foldl_apply (history : List Op) :
    Represents (history.foldl Targets.apply targets)
      (fun id => history.foldl (fun before op => op.write id before) (written id)) := by
  induction history generalizing targets written with
  | nil => exact h
  | cons op history ih => exact ih (h.apply op)

omit h

/-- The map of the gateway is the abstract one. -/
theorem represents_after (history : List Op) :
    Represents (Targets.after history) (lastWritten history) :=
  represents_empty.foldl_apply history

theorem mem_after_iff {history : List Op} {t : Target} :
    t ∈ (after history).entries ↔ ∃ id, lastWritten history id = some t := by
  constructor
  · exact fun h => ⟨t.id, (represents_after history t.id t).mpr ⟨h, rfl⟩⟩
  · rintro ⟨id, h⟩
    exact ((represents_after history id t).mp h).1

/-! ## The check -/

section Check

variable {visit : List Target} {targetType : TargetType} {host : List Char} {port : Int}
variable {authToken : List Char}

/-- The first target for the request decides. -/
theorem isAllowed_cons (t : Target) (visit : List Target) :
    isAllowed (t :: visit) targetType host port authToken =
      if t.For targetType host port then decide (authToken = t.authToken)
      else isAllowed visit targetType host port authToken := by
  unfold isAllowed
  by_cases h : t.For targetType host port
  · have hfind : decide (t.type = targetType ∧ t.destination = host ∧
        t.destinationPort = port) = true := decide_eq_true h
    rw [if_pos h, find?_cons, hfind]
  · have hfind : decide (t.type = targetType ∧ t.destination = host ∧
        t.destinationPort = port) = false := decide_eq_false h
    rw [if_neg h, find?_cons, hfind]

/-- If all targets for the request have its token, it is allowed as soon as there is one. -/
theorem isAllowed_of_forall
    (hall : ∀ t ∈ visit, t.For targetType host port → t.authToken = authToken)
    (hsome : ∃ t ∈ visit, t.For targetType host port) :
    isAllowed visit targetType host port authToken = true := by
  induction visit with
  | nil =>
    obtain ⟨t, ht, -⟩ := hsome
    cases ht
  | cons t visit ih =>
    rw [isAllowed_cons]
    split
    · next hfor => exact decide_eq_true (hall t mem_cons_self hfor).symm
    · next hnot =>
      obtain ⟨t', ht', hfor'⟩ := hsome
      rcases mem_cons.mp ht' with rfl | ht'
      · exact absurd hfor' hnot
      · exact ih (fun x hx => hall x (mem_cons_of_mem t hx)) ⟨t', ht', hfor'⟩

/-- Any target for the request may be the one that decides. -/
theorem exists_visit_first (authToken : List Char) {t : Target} (h : t ∈ visit)
    (hfor : t.For targetType host port) :
    ∃ visit' : List Target, visit'.Perm visit ∧
      isAllowed visit' targetType host port authToken = decide (authToken = t.authToken) := by
  refine ⟨t :: visit.erase t, (perm_cons_erase h).symm, ?_⟩
  rw [isAllowed_cons, if_pos hfor]

end Check

section Main

variable {history : List Op} {targetType : TargetType} {host : List Char} {port : Int}
variable {authToken : List Char} {visit : List Target}

theorem registered_iff : Registered history targetType host port authToken ↔
    ∃ t ∈ (after history).entries, t.For targetType host port ∧
      t.authToken = authToken := by
  constructor
  · rintro ⟨id, t, hid, hfor, htoken⟩
    exact ⟨t, mem_after_iff.mpr ⟨id, hid⟩, hfor, htoken⟩
  · rintro ⟨t, ht, hfor, htoken⟩
    obtain ⟨id, hid⟩ := mem_after_iff.mp ht
    exact ⟨id, t, hid, hfor, htoken⟩

theorem isAllowed_iff_registered (h : Unambiguous history targetType host port authToken)
    (hvisit : visit.Perm (after history).entries) :
    isAllowed visit targetType host port authToken = true ↔
      Registered history targetType host port authToken := by
  constructor
  · intro hallowed
    obtain ⟨t, ht, htype, hhost, hport, htoken⟩ := mem_of_isAllowed hallowed
    exact registered_iff.mpr ⟨t, hvisit.mem_iff.mp ht, ⟨htype, hhost, hport⟩, htoken⟩
  · intro hreg
    obtain ⟨t, ht, hfor, -⟩ := registered_iff.mp hreg
    refine isAllowed_of_forall (fun t' ht' hfor' => ?_) ⟨t, hvisit.mem_iff.mpr ht, hfor⟩
    obtain ⟨id, hid⟩ := mem_after_iff.mp (hvisit.mem_iff.mp ht')
    exact h hreg id t' hid hfor'

/-- **The token check and the order of the map**: the answer to a request is in every
order whether such a target is registered, exactly if the request is not ambiguous; and
exactly then it is the same in all orders. -/
theorem isAllowed_exact_iff (history : List Op) (targetType : TargetType) (host : List Char)
    (port : Int) (authToken : List Char) :
    ((∀ visit : List Target, visit.Perm (after history).entries →
        (isAllowed visit targetType host port authToken = true ↔
          Registered history targetType host port authToken)) ↔
      Unambiguous history targetType host port authToken) ∧
    ((∀ visit visit' : List Target, visit.Perm (after history).entries →
        visit'.Perm (after history).entries →
        isAllowed visit targetType host port authToken =
          isAllowed visit' targetType host port authToken) ↔
      Unambiguous history targetType host port authToken) := by
  refine ⟨⟨?_, fun h visit hvisit => isAllowed_iff_registered h hvisit⟩, ?_, ?_⟩
  · intro hexact hreg id t hid hfor
    -- visit this target first
    obtain ⟨visit, hvisit, hanswer⟩ :=
      exists_visit_first authToken (mem_after_iff.mpr ⟨id, hid⟩) hfor
    have hallowed := (hexact visit hvisit).mpr hreg
    rw [hanswer] at hallowed
    exact (of_decide_eq_true hallowed).symm
  · intro hsame hreg id t hid hfor
    obtain ⟨t', ht', hfor', htoken'⟩ := registered_iff.mp hreg
    obtain ⟨visit, hvisit, hanswer⟩ :=
      exists_visit_first authToken (mem_after_iff.mpr ⟨id, hid⟩) hfor
    obtain ⟨visit', hvisit', hanswer'⟩ :=
      exists_visit_first authToken ht' hfor'
    have hallowed := hsame visit visit' hvisit hvisit'
    rw [hanswer, hanswer', decide_eq_true htoken'.symm] at hallowed
    exact (of_decide_eq_true hallowed).symm
  · intro h visit visit' hvisit hvisit'
    apply Bool.eq_iff_iff.mpr
    rw [isAllowed_iff_registered h hvisit, isAllowed_iff_registered h hvisit']

end Main

/-- A host with one token for two users, and a desktop. -/
def sharedToken : List Op :=
  [.setTargets [⟨1, .ssh, "db".toList, 22, "a".toList⟩, ⟨2, .ssh, "db".toList, 22, "a".toList⟩],
    .addTarget ⟨3, .rdp, "desktop".toList, 3389, "b".toList⟩]

theorem isAllowed_exact_sharedToken :
    Registered sharedToken .ssh "db".toList 22 "a".toList ∧
      ∀ visit : List Target, visit.Perm (after sharedToken).entries →
        (isAllowed visit .ssh "db".toList 22 "a".toList = true ↔
          Registered sharedToken .ssh "db".toList 22 "a".toList) := by
  have hreg : Registered sharedToken .ssh "db".toList 22 "a".toList :=
    ⟨1, ⟨1, .ssh, "db".toList, 22, "a".toList⟩, by decide, by decide, rfl⟩
  refine ⟨hreg, (isAllowed_exact_iff sharedToken .ssh "db".toList 22 "a".toList).1.mpr ?_⟩
  intro _ id t hid hfor
  have hall : ∀ t ∈ (after sharedToken).entries, t.For .ssh "db".toList 22 →
      t.authToken = "a".toList := by
    decide
  exact hall t (mem_after_iff.mpr ⟨id, hid⟩) hfor

/-- A host that two users reach with a token each. -/
def twoTokens : List Op :=
  [.addTarget ⟨1, .ssh, "db".toList, 22, "a".toList⟩,
    .addTarget ⟨2, .ssh, "db".toList, 22, "b".toList⟩]

/-- Both tokens are registered; which of them is let in depends on the order. -/
theorem isAllowed_depends_on_order :
    Registered twoTokens .ssh "db".toList 22 "a".toList ∧
      Registered twoTokens .ssh "db".toList 22 "b".toList ∧
      ∃ visit visit' : List Target, visit.Perm (after twoTokens).entries ∧
        visit'.Perm (after twoTokens).entries ∧
        isAllowed visit .ssh "db".toList 22 "a".toList = true ∧
        isAllowed visit .ssh "db".toList 22 "b".toList = false ∧
        isAllowed visit' .ssh "db".toList 22 "a".toList = false ∧
        isAllowed visit' .ssh "db".toList 22 "b".toList = true := by
  refine ⟨⟨1, ⟨1, .ssh, "db".toList, 22, "a".toList⟩, by decide, by decide, rfl⟩,
    ⟨2, ⟨2, .ssh, "db".toList, 22, "b".toList⟩, by decide, by decide, rfl⟩,
    (after twoTokens).entries.reverse, (after twoTokens).entries,
    reverse_perm _, List.Perm.refl _, ?_⟩
  decide

end Newt.BrowserGateway
