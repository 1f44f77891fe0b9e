import Newt.Lib.Sudoers

/-!
# The sudoers file of a user

For every connection the auth daemon brings the system's user in line with the
metadata: a user that is missing is created, one that exists is reconciled.  Both
paths end in a switch over the sudo mode that writes the user's file under
`/etc/sudoers.d` or removes it.  A file is written aside, checked with `visudo` and
moved into place; whatever fails on the way is logged and leaves the old file.

Here is what becomes of that file, for any outcome of the lookup, of `useradd` and of
each step of writing and removing it.

* `sudoers_within_iff` — when the file grants no more than the metadata and the two
  paths agree;
* `created_user_keeps_old_grants` — a new user without commands and with an old file.
-/

namespace Newt.AuthDaemon

open Sudoers List Text

inductive SudoMode
  | full
  | commands
  | other
  deriving DecidableEq, Repr

def SudoMode.ofString (s : String) : SudoMode :=
  if s = "full" then .full
  else if s = "commands" then .commands
  else .other

structure ConnectionMetadata where
  sudoMode : String
  sudoCommands : List String
  deriving DecidableEq, Repr

inductive Lookup
  | found
  | unknown
  | failed
  deriving DecidableEq, Repr

/-- What succeeds: the lookup of the user, `useradd`, the steps of writing a file, and
the removal of a file. -/
structure Tools where
  lookup : Lookup
  useradd : Bool
  writeTmp : Bool
  visudo : Bool
  rename : Bool
  remove : Bool
  deriving DecidableEq, Repr

inductive Error
  | lookup
  | useradd
  | writeTmp
  | visudo
  | rename
  | noCommands
  deriving DecidableEq, Repr

/-- The content of the file, if there is one. -/
abbrev File := Option (List Char)

def writeSudoersFile (tools : Tools) (file : File) (content : List Char) : File × Option Error :=
  if !tools.writeTmp then (file, some .writeTmp)
  else if !tools.visudo then (file, some .visudo)
  else if !tools.rename then (file, some .rename)
  else (some content, none)

def configurePasswordlessSudo (tools : Tools) (username : List Char) (file : File) :
    File × Option Error :=
  writeSudoersFile tools file
    ("# Created by Pangolin auth-daemon\n".toList ++ username ++
      " ALL=(ALL) NOPASSWD:ALL\n".toList)

/-- One iteration of `configureSudoCommands`: the text so far and its commands. -/
def addCommand (username : List Char) (acc : List Char × Nat) (command : String) :
    List Char × Nat :=
  let c := trimSpace command.toList
  if c = [] then acc
  else (acc.1 ++ (username ++ " ALL=(ALL) NOPASSWD: ".toList ++ c ++ "\n".toList), acc.2 + 1)

def restrictedHeader : List Char :=
  "# Created by Pangolin auth-daemon (restricted commands)\n".toList

def configureSudoCommands (tools : Tools) (username : List Char) (commands : List String)
    (file : File) : File × Option Error :=
  let (content, n) := commands.foldl (addCommand username) (restrictedHeader, 0)
  if n = 0 then (file, some .noCommands)
  else writeSudoersFile tools file content

def removeSudoers (tools : Tools) (file : File) : File :=
  if tools.remove then none else file

open SudoMode

/-- `createUser`; an error of the switch is only logged. -/
def createUser (tools : Tools) (username : List Char) (metadata : ConnectionMetadata)
    (file : File) : File × Option Error :=
  if !tools.useradd then (file, some .useradd)
  else
    match ofString metadata.sudoMode with
    | .full => ((configurePasswordlessSudo tools username file).1, none)
    | .commands =>
      if 0 < metadata.sudoCommands.length then
        ((configureSudoCommands tools username metadata.sudoCommands file).1, none)
      else (file, none)
    | .other => (removeSudoers tools file, none)

def reconcileUser (tools : Tools) (username : List Char) (metadata : ConnectionMetadata)
    (file : File) : File × Option Error :=
  match ofString metadata.sudoMode with
  | .full => ((configurePasswordlessSudo tools username file).1, none)
  | .commands =>
    if 0 < metadata.sudoCommands.length then
      ((configureSudoCommands tools username metadata.sudoCommands file).1, none)
    else (removeSudoers tools file, none)
  | .other => (removeSudoers tools file, none)

def ensureUser (tools : Tools) (username : List Char) (metadata : ConnectionMetadata)
    (file : File) : File × Option Error :=
  if username = [] then (file, none)
  else
    match tools.lookup with
    | .failed => (file, some .lookup)
    | .unknown => createUser tools username metadata file
    | .found => reconcileUser tools username metadata file

namespace ConnectionMetadata

variable (metadata : ConnectionMetadata)

def mode : SudoMode :=
  ofString metadata.sudoMode

/-- The commands that are not blank. -/
def commands : List (List Char) :=
  (metadata.sudoCommands.map (fun c => trimSpace c.toList)).filter (· ≠ [])

end ConnectionMetadata

/-- The file grants no more than the metadata: with the mode for commands, some of the
commands, each with a line of its own and none of them everything; in the other modes
but `full`, there is no file. -/
def Within (user : List Char) (metadata : ConnectionMetadata) : File → Prop
  | none => True
  | some text =>
    match metadata.mode with
    | .full => True
    | .commands =>
      metadata.commands ≠ [] ∧ ∃ granted : List (List Char),
        granted.Sublist metadata.commands ∧ grants user text = granted.map some ∧
          "ALL".toList ∉ granted
    | .other => False

/-- The file after the path for new users, once the user is created, is the one after
the path for users that exist. -/
def PathsAgree (tools : Tools) (user : List Char) (metadata : ConnectionMetadata)
    (file : File) : Prop :=
  (createUser { tools with useradd := true } user metadata file).1 =
    (reconcileUser tools user metadata file).1

namespace Tools

variable (tools : Tools)

/-- A file can be written. -/
def writes : Bool :=
  tools.writeTmp && tools.visudo && tools.rename

/-- The switch of a path leaves the file as it is; that of `createUser` also without
commands. -/
def switchKeeps (creates : Bool) (metadata : ConnectionMetadata) : Bool :=
  match metadata.mode with
  | .full => !tools.writes
  | .commands =>
    if metadata.sudoCommands = [] then creates || !tools.remove
    else metadata.commands = [] || !tools.writes
  | .other => !tools.remove

/-- A call leaves the file as it is. -/
def keepsFile (metadata : ConnectionMetadata) : Bool :=
  match tools.lookup with
  | .failed => true
  | .unknown => !tools.useradd || tools.switchKeeps true metadata
  | .found => tools.switchKeeps false metadata

end Tools

/-- The condition: a file that is left as it is grants no more than the metadata; the
commands of one that is written have no line end and no unescaped special character,
and none of them is `ALL`; and without commands there is no old file, or it cannot be
removed. -/
def Holds (tools : Tools) (user : List Char) (metadata : ConnectionMetadata) (file : File) : Prop :=
  (tools.keepsFile metadata = true → Within user metadata file) ∧
    (metadata.mode = .commands → tools.keepsFile metadata = false →
      ∀ c ∈ metadata.commands, ('\n' ∉ c ∧ single c = true) ∧ c ≠ "ALL".toList) ∧
    (metadata.mode = .commands → metadata.sudoCommands = [] → file = none ∨ tools.remove = false)

/-! ### What the functions leave -/

section Files

variable {tools : Tools} {metadata : ConnectionMetadata} {file : File} {user : List Char}

theorem writeSudoersFile_fst (content : List Char) :
    (writeSudoersFile tools file content).1 = if tools.writes then some content else file := by
  unfold writeSudoersFile Tools.writes
  cases tools.writeTmp <;> cases tools.visudo <;> cases tools.rename <;> rfl

/-- The text of a file for commands. -/
def restrictedText (user : List Char) (commands : List (List Char)) : List Char :=
  restrictedHeader ++ commands.flatMap (fun c => userSpec user c ++ ['\n'])

theorem addCommand_eq (acc : List Char × Nat) (command : String) :
    addCommand user acc command =
      let c := trimSpace command.toList
      if c = [] then acc else (acc.1 ++ (userSpec user c ++ ['\n']), acc.2 + 1) := by
  have hline : ∀ c : List Char, user ++ " ALL=(ALL) NOPASSWD: ".toList ++ c ++ "\n".toList =
      userSpec user c ++ ['\n'] := by
    intro c
    have htext : " ALL=(ALL) NOPASSWD: ".toList = " ALL=(ALL) NOPASSWD:".toList ++ [' '] := rfl
    unfold userSpec lead
    rw [htext]
    simp only [append_assoc, singleton_append]
    rfl
  unfold addCommand
  dsimp only
  rw [hline]

/-- **The loop of `configureSudoCommands`** makes a line for each command that is not
blank. -/
theorem foldl_addCommand (commands : List String) (text : List Char) (n : Nat) :
    commands.foldl (addCommand user) (text, n) =
      (text ++ (ConnectionMetadata.commands ⟨"", commands⟩).flatMap
          (fun c => userSpec user c ++ ['\n']),
        n + (ConnectionMetadata.commands ⟨"", commands⟩).length) := by
  induction commands generalizing text n with
  | nil => simp [ConnectionMetadata.commands]
  | cons command commands ih =>
    have hcons : ConnectionMetadata.commands ⟨"", command :: commands⟩ =
        (if trimSpace command.toList = [] then [] else [trimSpace command.toList]) ++
          ConnectionMetadata.commands ⟨"", commands⟩ := by
      unfold ConnectionMetadata.commands
      rw [map_cons, filter_cons]
      by_cases hblank : trimSpace command.toList = [] <;> simp [hblank]
    rw [foldl_cons, addCommand_eq, hcons]
    by_cases hblank : trimSpace command.toList = []
    · rw [if_pos hblank, if_pos hblank, nil_append]
      exact ih text n
    · rw [if_neg hblank, if_neg hblank, ih]
      simp only [singleton_append, flatMap_cons, length_cons, append_assoc, Prod.mk.injEq, true_and]
      omega

theorem configureSudoCommands_fst :
    (configureSudoCommands tools user metadata.sudoCommands file).1 =
      if metadata.commands = [] || !tools.writes then file
      else some (restrictedText user metadata.commands) := by
  have hcommands : metadata.commands = ConnectionMetadata.commands ⟨"", metadata.sudoCommands⟩ :=
    rfl
  unfold configureSudoCommands
  rw [foldl_addCommand, ← hcommands]
  dsimp only
  by_cases hnil : metadata.commands = []
  · rw [hnil]
    rfl
  · have hlen : 0 + metadata.commands.length ≠ 0 := by
      rw [Nat.zero_add]
      exact fun h => hnil (length_eq_zero_iff.mp h)
    rw [if_neg hlen, writeSudoersFile_fst]
    cases tools.writes <;> simp [hnil, restrictedText]

/-- What a switch writes. -/
def written (user : List Char) (metadata : ConnectionMetadata) : File :=
  match metadata.mode with
  | .full => some ("# Created by Pangolin auth-daemon\n".toList ++ user ++
      " ALL=(ALL) NOPASSWD:ALL\n".toList)
  | .commands =>
    if metadata.commands = [] then none else some (restrictedText user metadata.commands)
  | .other => none

theorem commands_of_sudoCommands_nil (h : metadata.sudoCommands = []) : metadata.commands = [] := by
  unfold ConnectionMetadata.commands
  rw [h]
  rfl

theorem reconcileUser_fst :
    (reconcileUser tools user metadata file).1 =
      if tools.switchKeeps false metadata then file else written user metadata := by
  unfold reconcileUser Tools.switchKeeps written
  rw [show ofString metadata.sudoMode = metadata.mode from rfl]
  cases metadata.mode with
  | full =>
    rw [configurePasswordlessSudo, writeSudoersFile_fst]
    cases tools.writes <;> rfl
  | commands =>
    by_cases hnil : metadata.sudoCommands = []
    · rw [if_pos hnil, if_pos (commands_of_sudoCommands_nil hnil), hnil]
      unfold removeSudoers
      cases tools.remove <;> rfl
    · rw [if_neg hnil, if_pos (length_pos_iff.mpr hnil), configureSudoCommands_fst]
      by_cases hcommands : metadata.commands = [] <;> simp [hcommands]
  | other =>
    unfold removeSudoers
    cases tools.remove <;> rfl

/-- The switches of the two paths keep the file alike but for an empty list. -/
theorem switchKeeps_eq (hdiffer : ¬(metadata.mode = .commands ∧ metadata.sudoCommands = [])) :
    tools.switchKeeps true metadata = tools.switchKeeps false metadata := by
  unfold Tools.switchKeeps
  cases hmode : metadata.mode with
  | full => rfl
  | commands =>
    have hne : metadata.sudoCommands ≠ [] := fun hnil => hdiffer ⟨hmode, hnil⟩
    rw [if_neg hne, if_neg hne]
  | other => rfl

theorem createUser_fst :
    (createUser tools user metadata file).1 =
      if !tools.useradd || tools.switchKeeps true metadata then file
      else written user metadata := by
  cases hadd : tools.useradd with
  | false =>
    unfold createUser
    rw [hadd]
    rfl
  | true =>
    by_cases hdiffer : metadata.mode = .commands ∧ metadata.sudoCommands = []
    · obtain ⟨hmode, hnil⟩ := hdiffer
      have hkeeps : tools.switchKeeps true metadata = true := by
        unfold Tools.switchKeeps
        rw [hmode]
        rw [if_pos hnil]
        rfl
      unfold createUser
      rw [show ofString metadata.sudoMode = metadata.mode from rfl, hadd, hmode, hnil,
        hkeeps]
      rfl
    · -- Anywhere else the two switches are the same.
      have hsame : (createUser tools user metadata file).1 =
          (reconcileUser tools user metadata file).1 := by
        unfold createUser reconcileUser
        rw [show ofString metadata.sudoMode = metadata.mode from rfl, hadd]
        cases hmode : metadata.mode with
        | full => rfl
        | commands =>
          have hne : metadata.sudoCommands ≠ [] := fun hnil => hdiffer ⟨hmode, hnil⟩
          simp [hne, length_pos_iff]
        | other => rfl
      rw [hsame, reconcileUser_fst, switchKeeps_eq hdiffer]
      rfl

theorem ensureUser_fst (hne : user ≠ []) :
    (ensureUser tools user metadata file).1 =
      if tools.keepsFile metadata then file else written user metadata := by
  unfold ensureUser Tools.keepsFile
  rw [if_neg hne]
  cases tools.lookup with
  | failed => rfl
  | unknown => exact createUser_fst
  | found => exact reconcileUser_fst

end Files

/-! ### The condition -/

section Condition

variable {tools : Tools} {u : UserName} {metadata : ConnectionMetadata} {file : File}

theorem grants_restrictedHeader (user text : List Char) :
    grants user (restrictedHeader ++ text) = grants user text := by
  have hheader : restrictedHeader =
      "# Created by Pangolin auth-daemon (restricted commands)".toList ++ ['\n'] := by
    decide
  have hskipped : grants user "# Created by Pangolin auth-daemon (restricted commands)".toList =
      [] := by
    unfold grants
    rw [splitOn_eq_singleton (by decide)]
    rfl
  rw [hheader, append_assoc, singleton_append, grants_append, hskipped]
  rfl

theorem trimSpace_of_mem_commands : ∀ c ∈ metadata.commands, trimSpace c = c := by
  intro c hc
  obtain ⟨command, _, rfl⟩ := mem_map.mp (mem_of_mem_filter hc)
  exact trimSpace_trimSpace _

/-- What a switch writes grants no more than the metadata exactly if every command is
one command. -/
theorem within_written_iff :
    Within u.text metadata (written u.text metadata) ↔ (metadata.mode = .commands →
      ∀ c ∈ metadata.commands, ('\n' ∉ c ∧ single c = true) ∧ c ≠ "ALL".toList) := by
  unfold written
  cases hmode : metadata.mode with
  | full =>
    refine iff_of_true ?_ (fun h => nomatch h)
    unfold Within
    rw [hmode]
    trivial
  | other => exact iff_of_true trivial (fun h => nomatch h)
  | commands =>
    by_cases hnil : metadata.commands = []
    · rw [if_pos hnil, hnil]
      exact iff_of_true trivial (fun _ c hc => absurd hc not_mem_nil)
    · rw [if_neg hnil]
      unfold Within
      rw [hmode]
      dsimp only
      unfold restrictedText
      rw [grants_restrictedHeader]
      refine ⟨?_, ?_⟩
      · intro ⟨_, granted, hsub, hgrants, hall⟩ _ c hc
        obtain ⟨rfl, hsingles⟩ := singles_of_grants hsub hgrants
        exact ⟨hsingles c hc, fun heq => hall (heq ▸ hc)⟩
      · intro h
        have hcommands := h rfl
        refine ⟨hnil, metadata.commands, List.Sublist.refl _,
          grants_of_singles trimSpace_of_mem_commands (fun c hc => (hcommands c hc).1), ?_⟩
        intro hmem
        exact (hcommands _ hmem).2 rfl

/-- The two paths differ where there is nothing to write and an old file to remove. -/
theorem pathsAgree_iff {user : List Char} :
    PathsAgree tools user metadata file ↔
      (metadata.mode = .commands → metadata.sudoCommands = [] →
        file = none ∨ tools.remove = false) := by
  unfold PathsAgree
  rw [createUser_fst, reconcileUser_fst]
  by_cases hdiffer : metadata.mode = .commands ∧ metadata.sudoCommands = []
  · obtain ⟨hmode, hnil⟩ := hdiffer
    have hwritten : written user metadata = none := by
      unfold written
      rw [hmode]
      rw [if_pos (commands_of_sudoCommands_nil hnil)]
    rw [hwritten]
    simp only [Tools.switchKeeps, hmode, hnil, if_true, Bool.true_or, Bool.or_true, Bool.false_or,
      forall_const]
    cases tools.remove with
    | false | true => simp
  · have hkeeps : ({ tools with useradd := true } : Tools).switchKeeps true metadata =
        tools.switchKeeps false metadata := switchKeeps_eq hdiffer
    refine iff_of_true ?_ (fun hmode hnil => absurd ⟨hmode, hnil⟩ hdiffer)
    rw [hkeeps]
    rfl

end Condition

/-- **The sudoers file.**  After `ensureUser` the user's file grants no more than the
metadata, and the two paths agree, exactly if the condition holds. -/
theorem sudoers_within_iff (tools : Tools) (u : UserName) (metadata : ConnectionMetadata)
    (file : File) :
    Within u.text metadata (ensureUser tools u.text metadata file).1 ∧
        PathsAgree tools u.text metadata file ↔
      Holds tools u.text metadata file := by
  unfold Holds
  rw [ensureUser_fst u.nonempty, pathsAgree_iff, ← and_assoc]
  refine and_congr_left' ?_
  cases hkeeps : tools.keepsFile metadata with
  | true =>
    rw [if_pos rfl]
    exact ⟨fun h => ⟨fun _ => h, fun _ hfalse => nomatch hfalse⟩, fun h => h.1 rfl⟩
  | false =>
    rw [if_neg Bool.false_ne_true, within_written_iff]
    exact ⟨fun h => ⟨(nomatch ·), fun hmode _ => h hmode⟩,
      fun h hmode => h.2 hmode rfl⟩

/-- A user of the system. -/
def alice : UserName where
  text := "alice".toList
  nonempty := by decide
  oneLine := by decide
  visible := by
    intro c hc
    obtain rfl : 'a' = c := Option.some.inj hc
    decide

def working : Tools :=
  { lookup := .found, useradd := true, writeTmp := true, visudo := true, rename := true
    remove := true }

/-- The file of an earlier user of the name who could do everything. -/
def oldFile : List Char :=
  "# Created by Pangolin auth-daemon\nalice ALL=(ALL) NOPASSWD:ALL\n".toList

/-- Two commands, one of them with blanks around it. -/
def twoCommands : ConnectionMetadata :=
  { sudoMode := "commands"
    sudoCommands := ["/usr/bin/id", "  ", " /bin/systemctl restart a\\,b "] }

theorem twoCommands_within :
    Within alice.text twoCommands (ensureUser working alice.text twoCommands (some oldFile)).1 ∧
      PathsAgree working alice.text twoCommands (some oldFile) :=
  (sudoers_within_iff working alice twoCommands (some oldFile)).mpr
    ⟨fun h => absurd h (by decide +kernel), fun _ _ => by decide +kernel,
      fun _ h => absurd h (by decide)⟩

def noCommands : ConnectionMetadata :=
  { sudoMode := "commands", sudoCommands := [] }

/-- **A new user without commands** keeps the file of an earlier user: with the mode
for commands and an empty list `createUser` does nothing, where `reconcileUser`
removes the file. -/
theorem created_user_keeps_old_grants :
    (ensureUser { working with lookup := .unknown } alice.text noCommands (some oldFile)).1 =
        some oldFile ∧
      grants alice.text oldFile = [some "ALL".toList] ∧
      ¬Within alice.text noCommands
        (ensureUser { working with lookup := .unknown } alice.text noCommands (some oldFile)).1 ∧
      (reconcileUser working alice.text noCommands (some oldFile)).1 = none ∧
      ¬PathsAgree working alice.text noCommands (some oldFile) := by
  have hkept : (ensureUser { working with lookup := .unknown } alice.text noCommands
      (some oldFile)).1 = some oldFile := by
    decide +kernel
  refine ⟨hkept, by decide +kernel, ?_, by decide +kernel, ?_⟩
  · rw [hkept]
    intro hwithin
    exact hwithin.1 (by decide +kernel)
  · unfold PathsAgree
    decide +kernel

end Newt.AuthDaemon
