import Mathlib.Data.List.AList
import Newt.Lib.JsonDecode
import Newt.Lib.Runs
import Newt.Lib.Tasks
import Newt.Lib.Text

/-!
# The principals file

The auth daemon keeps the principals of the users in a file, a JSON object of lists.
`writePrincipals` reads it, adds the name and the nice ID of a user to the user's list and
writes it again, without a lock; `GetPrincipals` is what sshd asks for.

Calls run in a pool.  Between its read and the end of its write a call is busy; the file is
empty while it is written.  `principals_extended` is about calls that are not busy at the
same time.
-/

namespace Newt.Principals

open JsonDecode List Runs Tasks

/-- `map[string][]string`; `none` is the nil slice. -/
abbrev Table := AList (fun _ : String => Option (List String))

/-- The file is missing, or it has a text, which may be JSON. -/
inductive File
  | missing
  | text (json : Option Json)

/-- A value as a `[]string`; what is not a string becomes the empty one. -/
def strings : Json → Option (List String)
  | .arr elems => some (elems.map (fun j => j.readString.getD ""))
  | _ => none

/-- The value is decoded as a `[]string` without an error. -/
def isStrings : Json → Bool
  | .null => true
  | .arr elems => elems.all (fun j => j.isNull || j.readString.isSome)
  | _ => false

/-- The text is decoded without an error. -/
def fits : Json → Bool
  | .null => true
  | .obj members => members.all (fun kv => isStrings kv.2)
  | _ => false

/-- `json.Unmarshal` into an empty map, as far as it comes: of equal keys the last one
counts, and `null` leaves the nil map, which is `none`. -/
def unmarshal : Json → Option Table
  | .null => none
  | j => some (j.members.map (fun kv => ⟨kv.1, strings kv.2⟩)).reverse.toAList

/-- `json.Marshal`, which also sorts the keys.  A nil slice is written as `null`. -/
def marshal (data : Table) : Json :=
  .obj (data.entries.map (fun e => (e.1, e.2.elim .null (fun list => .arr (list.map .str)))))

def Table.list (data : Table) (user : String) : List String :=
  (data.lookup user).join.getD []

def getPrincipals (file : File) (user : String) : Except String (List String) :=
  match file with
  | .missing => .ok []
  | .text none => .error "parse principals file: "
  | .text (some j) =>
    if fits j then .ok ((unmarshal j).elim [] (Table.list · user))
    else .error "parse principals file: "

/-- The map a call starts from: an error of the read or of the decoding is ignored. -/
def existing : File → (readable : Bool) → Option Table
  | .text (some j), true => unmarshal j
  | _, _ => some ∅

/-- The loop over the new principals of a user. -/
def extend (list names : List String) : List String :=
  names.foldl (fun list p => if p = "" ∨ p ∈ list then list else list ++ [p]) list

/-- What a call writes; `none` is the assignment to the nil map.  The user has a name, so
the list is not nil. -/
def body (file : File) (readable : Bool) (username niceId : String) : Option Json :=
  (existing file readable).map (fun data =>
    marshal (data.insert username (some (extend (Table.list data username) [username, niceId]))))

/-- Where a call is; `truncate` and `write` are the two steps of `os.WriteFile`, the first
of them with `os.MkdirAll`. -/
inductive PC
  | read
  | truncate (body : Json)
  | write (body : Json)
  | returned (ok : Bool)
  | panicked

structure Call where
  username : String
  niceId : String
  pc : PC

def Call.reads (c : Call) : Bool :=
  match c.pc with
  | .read => true
  | _ => false

/-- What a call that has read the file is going to write, and for whom. -/
def Call.pending (c : Call) : Option (String × String × Json) :=
  match c.pc with
  | .truncate body | .write body => some (c.username, c.niceId, body)
  | .read | .returned _ | .panicked => none

/-- The file, the calls, and the users and nice IDs that were written, in this order. -/
structure Sys where
  file : File
  calls : List Call := []
  written : List (String × String) := []

def trim (s : String) : String :=
  String.ofList (Text.trimSpace s.toList)

inductive Event
  | call (username niceId : String)
  /-- A call makes its next step, which may fail. -/
  | go (i : Nat) (ok : Bool)

namespace Sys

def goto (s : Sys) (i : Nat) (c : Call) (pc : PC) : Sys :=
  { s with calls := s.calls.set i { c with pc := pc } }

def step (s : Sys) : Event → Option Sys
  | .call username niceId =>
    let pc := if trim username = "" then .returned true else .read
    some { s with calls := s.calls ++ [⟨trim username, trim niceId, pc⟩] }
  | .go i ok =>
    match s.calls[i]? with
    | none => none
    | some c =>
      match c.pc with
      | .read =>
        some (s.goto i c ((body s.file ok c.username c.niceId).elim .panicked .truncate))
      | .truncate body =>
        if ok then some { s.goto i c (.write body) with file := .text none }
        else some (s.goto i c (.returned false))
      | .write body =>
        if ok then
          some { s.goto i c (.returned true) with
            file := .text (some body), written := s.written ++ [(c.username, c.niceId)] }
        else some (s.goto i c (.returned false))
      | .returned _ | .panicked => none

/-- No call is between its read and the end of its write. -/
def Idle (s : Sys) : Prop :=
  (s.calls.filterMap Call.pending).isEmpty = true

instance (s : Sys) : Decidable s.Idle :=
  inferInstanceAs (Decidable (_ = true))

/-- The steps succeed, and a call reads the file only while no other one is busy. -/
def Undisturbed (s : Sys) : Event → Prop
  | .call _ _ => True
  | .go i ok => ok = true ∧ (s.calls[i]?.any Call.reads = true → s.Idle)

instance (s : Sys) (e : Event) : Decidable (s.Undisturbed e) := by
  unfold Undisturbed
  split <;> infer_instance

end Sys

/-- The list `GetPrincipals` returns, if it returns one. -/
def File.list (file : File) (user : String) : List String :=
  ((getPrincipals file user).toOption).getD []

/-- The text, if it is JSON, is an object of lists of strings. -/
def File.Plain : File → Prop
  | .missing | .text none => True
  | .text (some j) => fits j = true ∧ j.isNull = false

instance : DecidablePred File.Plain
  | .missing | .text none => isTrue trivial
  | .text (some _) => instDecidableAnd

/-- The principals that were given for a user. -/
def given (written : List (String × String)) (user : String) : List String :=
  written.flatMap (fun c => if c.1 = user then [c.1, c.2] else [])

/-- What the calls leave of the file they began with. -/
structure Extended (file : File) (s : Sys) : Prop where
  noPanic : ∀ c ∈ s.calls, c.pc ≠ .panicked
  lists : s.Idle → ∀ user, ∃ added, s.file.list user = file.list user ++ added ∧ added.Nodup ∧
    ∀ p, p ∈ added ↔ p ∉ file.list user ∧ p ≠ "" ∧ p ∈ given s.written user
  returns : s.Idle → s.written ≠ [] → ∀ user, (getPrincipals s.file user).isOk = true
  /-- A call that is repeated changes nothing. -/
  repeated : s.Idle → ∀ c ∈ s.written, ∃ j, body s.file true c.1 c.2 = some j ∧
    (File.text (some j)).list = s.file.list

/-! ## One call -/

theorem extend_spec (list names : List String) :
    ∃ added, extend list names = list ++ added ∧ added.Nodup ∧
      ∀ p, p ∈ added ↔ p ∉ list ∧ p ≠ "" ∧ p ∈ names := by
  induction names generalizing list with
  | nil => exact ⟨[], (append_nil list).symm, nodup_nil, by simp⟩
  | cons q names ih =>
    by_cases hskip : q = "" ∨ q ∈ list
    · obtain ⟨added, heq, hnodup, hmem⟩ := ih list
      refine ⟨added, ?_, hnodup, fun p => ?_⟩
      · rw [extend, foldl_cons, if_pos hskip]
        exact heq
      · rw [hmem, mem_cons]
        grind
    · obtain ⟨added, heq, hnodup, hmem⟩ := ih (list ++ [q])
      refine ⟨q :: added, ?_, ?_, fun p => ?_⟩
      · rw [append_assoc, singleton_append] at heq
        rw [extend, foldl_cons, if_neg hskip]
        exact heq
      · refine nodup_cons.mpr ⟨fun hin => ?_, hnodup⟩
        exact ((hmem q).mp hin).1 mem_concat_self
      · rw [mem_cons, hmem, mem_cons, mem_append, mem_singleton]
        grind

theorem extend_of_mem {list names : List String} (h : ∀ p ∈ names, p = "" ∨ p ∈ list) :
    extend list names = list := by
  obtain ⟨added, heq, -, hmem⟩ := extend_spec list names
  have hnil : added = [] := by
    refine eq_nil_iff_forall_not_mem.mpr (fun p hp => ?_)
    obtain ⟨hout, hne, hin⟩ := (hmem p).mp hp
    exact (h p hin).elim hne hout
  rw [heq, hnil, append_nil]

theorem fits_marshal (data : Table) : fits (marshal data) = true := by
  rw [marshal, fits, all_map, all_eq_true]
  intro e _
  cases he : e.2 <;> simp [he, isStrings, Json.readString]

theorem getPrincipals_marshal (data : Table) (user : String) :
    getPrincipals (.text (some (marshal data))) user = .ok (Table.list data user) := by
  have hback : (marshal data).members.map (fun kv => ⟨kv.1, strings kv.2⟩) = data.entries := by
    rw [marshal, Json.members, map_map]
    refine (map_congr_left fun e _ => ?_).trans (map_id _)
    obtain ⟨key, list⟩ := e
    cases list <;> simp [strings, Json.readString, Function.comp_def]
  rw [getPrincipals, if_pos (fits_marshal data)]
  show Except.ok (Table.list (reverse _).toAList user) = _
  rw [hback, Table.list, AList.lookup_to_alist,
    perm_dlookup user ((perm_nodupKeys (reverse_perm _)).mpr data.nodupKeys)
      (reverse_perm _)]
  rfl

/-- A call that reads such a file adds to the list of its own user. -/
theorem File.Plain.body {file : File} (h : file.Plain) (username niceId : String) :
    ∃ data, body file true username niceId = some (marshal data) ∧ ∀ user,
      Table.list data user =
        extend (file.list user) (if username = user then [username, niceId] else []) := by
  obtain ⟨data, hexisting, hlist⟩ :
      ∃ data, existing file true = some data ∧ ∀ user, file.list user = Table.list data user := by
    cases file with
    | missing => exact ⟨∅, rfl, fun _ => rfl⟩
    | text json =>
      cases json with
      | none => exact ⟨∅, rfl, fun _ => rfl⟩
      | some j =>
        obtain ⟨hfits, hnull⟩ := h
        cases j with
        | null => cases hnull
        | obj members =>
          refine ⟨_, rfl, fun user => ?_⟩
          rw [File.list, getPrincipals, if_pos hfits]
          rfl
        | _ => cases hfits
  refine ⟨_, congrArg (Option.map _) hexisting, fun user => ?_⟩
  rw [hlist]
  by_cases huser : username = user
  · subst huser
    rw [if_pos rfl, Table.list, AList.lookup_insert]
    rfl
  · rw [if_neg huser, Table.list, AList.lookup_insert_ne (Ne.symm huser)]
    rfl

/-! ## Runs -/

theorem given_append (written : List (String × String)) (username niceId user : String) :
    given (written ++ [(username, niceId)]) user =
      given written user ++ if username = user then [username, niceId] else [] := by
  rw [given, flatMap_append, flatMap_singleton]
  rfl

theorem extend_append (list names names' : List String) :
    extend list (names ++ names') = extend (extend list names) names' :=
  foldl_append

/-- The file has the lists of the calls that were made, and at most one call is busy. -/
structure Sound (file : File) (s : Sys) : Prop where
  noPanic : ∀ c ∈ s.calls, c.pc ≠ .panicked
  turn : (s.calls.filterMap Call.pending = [] ∧ s.file.Plain ∧
      (s.written ≠ [] → ∀ user, (getPrincipals s.file user).isOk = true) ∧
      ∀ user, s.file.list user = extend (file.list user) (given s.written user)) ∨
    ∃ username niceId data,
      s.calls.filterMap Call.pending = [(username, niceId, marshal data)] ∧ ∀ user,
        Table.list data user =
          extend (file.list user) (given (s.written ++ [(username, niceId)]) user)

variable {file : File} {s s' : Sys} {i : Nat} {c : Call}

/-- The call that is about to write is the busy one. -/
theorem Sound.busy (h : Sound file s) (hi : s.calls[i]? = some c) {text : Json}
    (hc : c.pending = some (c.username, c.niceId, text)) :
    ∃ data, text = marshal data ∧
      s.calls.filterMap Call.pending = [(c.username, c.niceId, marshal data)] ∧
      ∀ user, Table.list data user =
        extend (file.list user) (given (s.written ++ [(c.username, c.niceId)]) user) := by
  have hmem := mem_filterMap.mpr ⟨c, mem_of_getElem? hi, hc⟩
  rcases h.turn with ⟨hnone, -⟩ | ⟨username, niceId, data, hone, hlist⟩
  · rw [hnone] at hmem
    cases hmem
  · rw [hone] at hmem
    cases mem_singleton.mp hmem
    exact ⟨data, rfl, hone, hlist⟩

/-- A call that reads while no other one is busy becomes the busy one. -/
theorem Sound.read (h : Sound file s) (hi : s.calls[i]? = some c) (hpc : c.pc = .read)
    (hidle : s.Idle) :
    Sound file
      (s.goto i c ((body s.file true c.username c.niceId).elim .panicked .truncate)) := by
  have hnone : s.calls.filterMap Call.pending = [] := isEmpty_iff.mp hidle
  rcases h.turn with ⟨-, hplain, -, hlist⟩ | ⟨_, _, _, hone, -⟩
  · obtain ⟨data, hbody, hdata⟩ := hplain.body c.username c.niceId
    rw [hbody]
    refine ⟨forall_mem_set h.noPanic (nomatch ·),
      .inr ⟨c.username, c.niceId, data, ?_, fun user => ?_⟩⟩
    · have hperm := filterMap_set_perm
        (b := { c with pc := .truncate (marshal data) }) Call.pending hi
      rw [hnone, Call.pending, hpc] at hperm
      exact perm_singleton.mp hperm
    · rw [hdata, hlist, given_append, extend_append]
      rfl
  · rw [hone] at hnone
    cases hnone

theorem Sound.truncate (h : Sound file s) (hi : s.calls[i]? = some c) {text : Json}
    (hpc : c.pc = .truncate text) :
    Sound file { s.goto i c (.write text) with file := .text none } := by
  obtain ⟨data, rfl, hone, hlist⟩ := h.busy hi (by rw [Call.pending, hpc])
  refine ⟨forall_mem_set h.noPanic (nomatch ·),
    .inr ⟨c.username, c.niceId, data, ?_, hlist⟩⟩
  exact (filterMap_set_of_eq Call.pending hi (by rw [Call.pending, Call.pending, hpc])).trans
    hone

/-- The text is in the file, and no call is busy. -/
theorem Sound.write (h : Sound file s) (hi : s.calls[i]? = some c) {text : Json}
    (hpc : c.pc = .write text) :
    Sound file { s.goto i c (.returned true) with
      file := .text (some text), written := s.written ++ [(c.username, c.niceId)] } := by
  obtain ⟨data, rfl, hone, hlist⟩ := h.busy hi (by rw [Call.pending, hpc])
  refine ⟨forall_mem_set h.noPanic (nomatch ·), .inl ⟨?_, ?_, ?_, ?_⟩⟩
  · exact filterMap_set_of_singleton Call.pending hone hi (by rw [Call.pending, hpc])
  · exact ⟨fits_marshal data, rfl⟩
  · intro _ user
    rw [getPrincipals_marshal]
    rfl
  · intro user
    rw [File.list, getPrincipals_marshal]
    exact hlist user

theorem Sound.step {e : Event} (h : Sound file s) (hund : s.Undisturbed e)
    (hs : s.step e = some s') : Sound file s' := by
  cases e with
  | call username niceId =>
    cases hs
    refine ⟨forall_mem_concat h.noPanic ?_, ?_⟩
    · split <;> exact (nomatch ·)
    · rw [filterMap_append, filterMap_cons_none (by split <;> rfl), filterMap_nil, append_nil]
      exact h.turn
  | go i ok =>
    obtain ⟨rfl, hread⟩ := hund
    simp only [Sys.step] at hs
    split at hs
    · cases hs
    · next c hi =>
      split at hs
      · next hpc =>
        cases hs
        exact h.read hi hpc (hread (by rw [hi, Option.any_some, Call.reads, hpc]))
      · next hpc =>
        cases hs
        exact h.truncate hi hpc
      · next hpc =>
        cases hs
        exact h.write hi hpc
      · cases hs
      · cases hs

theorem Sound.extended (h : Sound file s) : Extended file s := by
  have hidle : s.Idle → s.file.Plain ∧
      (s.written ≠ [] → ∀ user, (getPrincipals s.file user).isOk = true) ∧
      ∀ user, s.file.list user = extend (file.list user) (given s.written user) := by
    intro hidle
    rcases h.turn with ⟨-, hturn⟩ | ⟨_, _, _, hone, -⟩
    · exact hturn
    · rw [Sys.Idle, hone] at hidle
      cases hidle
  refine ⟨h.noPanic, fun hi user => ?_, fun hi => (hidle hi).2.1, fun hi c hc => ?_⟩
  · rw [(hidle hi).2.2]
    exact extend_spec _ _
  · obtain ⟨hplain, -, hlist⟩ := hidle hi
    obtain ⟨data, hbody, hdata⟩ := hplain.body c.1 c.2
    refine ⟨_, hbody, funext fun user => ?_⟩
    rw [File.list, getPrincipals_marshal]
    refine (hdata user).trans (extend_of_mem fun p hp => ?_)
    split at hp
    · next huser =>
      have hgiven : p ∈ given s.written user :=
        mem_flatMap.mpr ⟨c, hc, by rwa [if_pos huser]⟩
      obtain ⟨added, heq, -, hmem⟩ := extend_spec (file.list user) (given s.written user)
      rw [hlist, heq, mem_append, hmem]
      tauto
    · cases hp

open Sys

/-- **What the calls add to the file**, whatever it was and however many calls there are, if it
is not `null`, has no values but lists of strings, can be read, and no call reads it while
another one is busy. -/
theorem principals_extended (file : File) (hplain : file.Plain) {events : List Event} {s : Sys}
    (hund : Runs.Meets step Sys.Undisturbed { file := file } events)
    (hrun : run step { file := file } events = some s) : Extended file s := by
  have hinit : Sound file { file := file } :=
    ⟨fun _ hc => (nomatch hc), .inl ⟨rfl, hplain, fun hne => absurd rfl hne, fun user => rfl⟩⟩
  exact (run_invariant (fun h hund hs => h.step hund hs) hinit hund hrun).extended

/-- A file with the principals of bob. -/
def bobs : File :=
  .text (some (.obj [("bob", .arr [.str "bob", .str "usr-2"])]))

/-- Two calls for alice one after the other. -/
def alone : List Event :=
  [.call "alice" " usr-1 ", .go 0 true, .go 0 true, .go 0 true, .call "alice" "usr-1",
    .go 1 true, .go 1 true, .go 1 true]

theorem principals_extended_alice :
    ∃ s, run step { file := bobs } alone = some s ∧
      s.file.list "alice" = ["alice", "usr-1"] ∧ s.file.list "bob" = ["bob", "usr-2"] ∧
      Extended bobs s := by
  simp only [← and_assoc]
  refine Exists.imp
    (fun s h => ⟨h, principals_extended bobs (by decide) (by decide +kernel) h.1.1⟩) ?_
  simp only [and_assoc]
  decide +kernel

/-- Two calls that read before either of them writes. -/
def overlapping : List Event :=
  [.call "alice" "usr-1", .call "bob" "usr-2", .go 0 true, .go 1 true, .go 0 true, .go 0 true,
    .go 1 true, .go 1 true]

/-- A call that cannot read the file. -/
def unread : List Event :=
  [.call "alice" "usr-1", .go 0 false, .go 0 true, .go 0 true]

/-- A call that finds `null` panics.  The others report success: of two calls that overlap the
first is lost, and a file that cannot be read is overwritten. -/
theorem principals_lost :
    (∃ s, run step { file := .text (some .null) }
        [.call "alice" "usr-1", .go 0 true] = some s ∧ ¬ Extended (.text (some .null)) s) ∧
    (∃ s, run step { file := .missing } overlapping = some s ∧
      ¬ Extended .missing s) ∧
    ∃ s, run step { file := bobs } unread = some s ∧ ¬ Extended bobs s := by
  refine ⟨⟨_, rfl, fun h => h.noPanic _ (mem_singleton_self _) rfl⟩, ?_, ?_⟩
  · obtain ⟨s, hs, hidle, hlost, hin⟩ : ∃ s, run step { file := .missing }
        overlapping = some s ∧ s.Idle ∧ s.file.list "alice" = [] ∧
        "alice" ∈ given s.written "alice" := by
      decide +kernel
    refine ⟨s, hs, fun h => ?_⟩
    obtain ⟨added, heq, -, hmem⟩ := h.lists hidle "alice"
    have hadded := (hmem "alice").mpr ⟨by decide, by decide, hin⟩
    rw [hlost] at heq
    rw [(append_eq_nil_iff.mp heq.symm).2] at hadded
    cases hadded
  · obtain ⟨s, hs, hidle, hlost⟩ : ∃ s, run step { file := bobs } unread = some s ∧
        s.Idle ∧ s.file.list "bob" = [] := by
      decide +kernel
    refine ⟨s, hs, fun h => ?_⟩
    obtain ⟨added, heq, -⟩ := h.lists hidle "bob"
    rw [hlost] at heq
    exact absurd (append_eq_nil_iff.mp heq.symm).1 (by decide)

end Newt.Principals
