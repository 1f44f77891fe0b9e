import Mathlib.Data.List.Infix
import Newt.LayeredConfig

/-!
# The config file that is read and the one that is written

`resolveConfigFilePath` runs before the flag package and reads the arguments itself: the
first one that looks like `--config-file` counts, wherever it stands.  For the flag package
the last one counts, unless it is the value of another flag.  Settings are read from the
former file and credentials are saved to the latter, where an empty path is replaced once
more (`getConfigPath`).

`config_file_agrees_iff` says for which arguments these are the same file.
-/

namespace Newt.ConfigFilePath

open LayeredConfig List Option

/-- A text up to its first `=`, and what follows it. -/
def cutValue : List Char → List Char × Option (List Char)
  | [] => ([], none)
  | c :: cs => if c = '=' then ([], some cs) else (c :: (cutValue cs).1, (cutValue cs).2)

def readNamed (cs : List Char) : String × Option String :=
  (String.ofList (cutValue cs).1, (cutValue cs).2.map String.ofList)

/-- The name and the value of a flag; an argument that is none ends the flags. -/
def readFlag (arg : String) : Option (String × Option String) :=
  match arg.toList with
  | ['-'] | ['-', '-'] => none
  | '-' :: '-' :: cs | '-' :: cs => some (readNamed cs)
  | _ => none

/-- The flags and their values.  A flag that is not boolean takes the next argument. -/
def readFlags : List String → Option (List (String × String))
  | [] => some []
  | arg :: rest =>
    match readFlag arg with
    | none => some []
    | some (name, value) =>
      match value.or (if boolFlags.contains name then some "true" else none), rest with
      | some value, rest | none, value :: rest => (readFlags rest).map ((name, value) :: ·)
      | none, [] => none

/-- `flag.Parse`.  A flag with bad syntax has no name that is defined. -/
def flagParse (args : List String) : Option (List (String × String)) :=
  (readFlags args).filter parses

inductive OS
  | darwin
  | windows
  | other

/-- The value of an argument that looks like the option, with the argument after it. -/
def optionValue (arg : String) (next : Option String) : Option String :=
  if arg = "--config-file" ∨ arg = "-config-file" then next
  else
    ((arg.toList.dropPrefix? "--config-file=".toList).or
      (arg.toList.dropPrefix? "-config-file=".toList)).map String.ofList

/-- The loop of `resolveConfigFilePath`. -/
def scanArgs : List String → Option String
  | [] => none
  | arg :: rest => (optionValue arg rest.head?).or (scanArgs rest)

section Paths

variable (join : List String → String) (os : OS) (env : String → String)

/-- The path without an option; only the directory on Windows is not the same twice. -/
def fallback (windowsDir : String) : String :=
  if env "CONFIG_FILE" ≠ "" then env "CONFIG_FILE"
  else
    join [match os with
      | .darwin => join [env "HOME", "Library", "Application Support", "newt-client"]
      | .windows => windowsDir
      | .other => join [env "HOME", ".config", "newt-client"], "config.json"]

def resolveConfigFilePath (args : List String) : String :=
  (scanArgs args).getD (fallback join os env (join [env "PROGRAMDATA", "newt", "newt-client"]))

/-- `getConfigPath` of the websocket package, for the client type `newt`. -/
def getConfigPath (overridePath : String) : String :=
  if overridePath ≠ "" then overridePath
  else fallback join os env (join [join [env "PROGRAMDATA", "olm"], "newt-client"])

/-- `cfg.ConfigFile` after `flag.Parse`. -/
def configFile (args : List String) (flags : List (String × String)) : String :=
  ((Settings.defaults (resolveConfigFilePath join os env args)).applyFlags flags).configFile

/-- The file that is read is the one of the option, and the one that is written. -/
structure Agrees (args : List String) (flags : List (String × String)) : Prop where
  value : configFile join os env args flags = resolveConfigFilePath join os env args
  saved : getConfigPath join os env (configFile join os env args flags) =
    resolveConfigFilePath join os env args

end Paths

section Scan

variable {arg : String} {value next : Option String} {flags : List (String × String)}

theorem cutValue_eq (cs : List Char) :
    cs = (cutValue cs).1 ++ (cutValue cs).2.elim [] ('=' :: ·) := by
  induction cs with
  | nil => rfl
  | cons c cs ih =>
    unfold cutValue
    split
    · next h => rw [h]; rfl
    · exact congrArg (c :: ·) ih

/-- The text of the option, with one or two dashes. -/
theorem option_text (h : readFlag arg = some ("config-file", value)) :
    ∃ lead ∈ ["--config-file", "-config-file"], arg.toList =
      lead.toList ++ (value.map String.toList).elim [] ('=' :: ·) := by
  have hcut : ∀ cs, readNamed cs = ("config-file", value) →
      cs = "config-file".toList ++ (value.map String.toList).elim [] ('=' :: ·) := by
    intro cs hcs
    obtain ⟨hname, rfl⟩ := Prod.mk.inj hcs
    rw [← hname, String.toList_ofList, Option.map_map]
    refine (cutValue_eq cs).trans ?_
    cases (cutValue cs).2 <;> simp
  unfold readFlag at h
  split at h
  · cases h
  · cases h
  · next harg => exact ⟨_, mem_cons_self, by rw [harg, hcut _ (some.inj h)]; rfl⟩
  · next harg =>
    exact ⟨_, mem_cons_of_mem _ mem_cons_self, by
      rw [harg, hcut _ (some.inj h)]; rfl⟩
  · cases h

/-- The loop finds the option. -/
theorem optionValue_of_readFlag (h : readFlag arg = some ("config-file", value)) :
    optionValue arg next = value.or next := by
  obtain ⟨lead, hlead, harg⟩ := option_text h
  cases value with
  | none =>
    have hlead' : arg = "--config-file" ∨ arg = "-config-file" := by
      rw [String.toList_injective (harg.trans (append_nil _))]
      simpa using hlead
    rw [optionValue, if_pos hlead', none_or]
  | some v =>
    have hne : ¬ (arg = "--config-file" ∨ arg = "-config-file") := by
      rintro (rfl | rfl) <;> cases h
    have hdrop : ∀ lead : List Char, arg.toList = lead ++ v.toList →
        arg.toList.dropPrefix? lead = some v.toList := fun lead heq =>
      dropPrefix?_eq_some_iff.mpr ⟨lead, heq, beq_self_eq_true _⟩
    rw [optionValue, if_neg hne]
    rcases mem_pair.mp hlead with rfl | rfl
    · rw [hdrop "--config-file=".toList harg]
      exact congrArg some v.ofList_toList
    · rw [hdrop "-config-file=".toList harg, harg]
      exact congrArg some v.ofList_toList

/-- And nothing that is not read as the option. -/
theorem optionValue_eq_none (h : (readFlag arg).map Prod.fst ≠ some "config-file") :
    optionValue arg next = none := by
  by_contra hsome
  refine h ?_
  unfold optionValue at hsome
  split at hsome
  · next harg => rcases harg with rfl | rfl <;> rfl
  · obtain ⟨v, hv⟩ := ne_none_iff_exists'.mp (mt map_eq_none_iff.mpr hsome)
    rcases or_eq_some_iff.mp hv with hv | ⟨-, hv⟩ <;>
      obtain ⟨lead, harg, hlead⟩ := dropPrefix?_eq_some_iff.mp hv <;>
      rw [readFlag, harg, eq_of_beq hlead] <;> rfl

/-- No other flag has a value that reads as the option. -/
def Unmasked (flags : List (String × String)) : Prop :=
  ∀ f ∈ flags, f.1 ≠ "config-file" → (readFlag f.2).map Prod.fst ≠ some "config-file"
  deriving Decidable

/-- The first argument that reads as the option, wherever it stands, has this value. -/
def FirstOption (args : List String) (path : String) : Prop :=
  ∃ before arg after value, args = before ++ arg :: after ∧
    (∀ a ∈ before, (readFlag a).map Prod.fst ≠ some "config-file") ∧
    readFlag arg = some ("config-file", value) ∧ value.or after.head? = some path

/-- The loop finds it. -/
theorem scanArgs_eq_some_iff {args : List String} {path : String} :
    scanArgs args = some path ↔ FirstOption args path := by
  induction args with
  | nil => exact iff_of_false (nomatch ·) fun ⟨_, _, _, _, h, _⟩ => by simp at h
  | cons arg rest ih =>
    rw [scanArgs]
    by_cases hopt : (readFlag arg).map Prod.fst = some "config-file"
    · obtain ⟨⟨name, value⟩, hread, rfl⟩ := map_eq_some_iff.mp hopt
      rw [optionValue_of_readFlag hread]
      constructor
      · intro h
        refine ⟨[], arg, rest, value, rfl, fun _ h => absurd h not_mem_nil, hread, ?_⟩
        cases rest with
        | nil => rwa [scanArgs, or_none] at h
        | cons next rest => cases value <;> exact h
      · rintro ⟨before, arg', after, value', hargs, hbefore, hread', hvalue⟩
        cases before with
        | nil =>
          cases hargs
          cases hread.symm.trans hread'
          rw [hvalue, some_or]
        | cons a before =>
          cases hargs
          exact absurd hopt (hbefore _ mem_cons_self)
    · rw [optionValue_eq_none hopt, none_or, ih]
      constructor
      · rintro ⟨before, arg', after, value, rfl, hbefore, hfound⟩
        exact ⟨arg :: before, arg', after, value, rfl, forall_mem_cons.mpr ⟨hopt, hbefore⟩, hfound⟩
      · rintro ⟨before, arg', after, value, hargs, hbefore, hread, hvalue⟩
        cases before with
        | nil =>
          cases hargs
          rw [hread] at hopt
          exact absurd rfl hopt
        | cons a before =>
          cases hargs
          exact ⟨before, arg', after, value, rfl, (forall_mem_cons.mp hbefore).2, hread, hvalue⟩

theorem flagValues_cons (f : String × String) :
    flagValues (f :: flags) "config-file" =
      if f.1 = "config-file" then f.2 :: flagValues flags "config-file"
      else flagValues flags "config-file" := by
  simp only [flagValues, filter_cons, decide_eq_true_eq]
  split <;> rfl

theorem flagValue_eq (flags : List (String × String)) :
    flagValue flags "config-file" = (flagValues flags "config-file").getLast? :=
  getLast?_map.symm

/-- An option among the flags is found; the first one, when no other value hides it. -/
theorem scanArgs_of_readFlags (args : List String) (hread : readFlags args = some flags)
    (hopt : flagValues flags "config-file" ≠ []) :
    ∃ path, scanArgs args = some path ∧
      (Unmasked flags → (flagValues flags "config-file").head? = some path) := by
  induction args using readFlags.induct generalizing flags with
  | case1 =>
    cases hread
    exact absurd rfl hopt
  | case2 arg rest hflag =>
    rw [readFlags, hflag] at hread
    cases hread
    exact absurd rfl hopt
  | case3 arg name value hflag given rest hgiven ih =>
    simp only [readFlags, hflag, hgiven] at hread
    obtain ⟨fs, hfs, rfl⟩ := map_eq_some_iff.mp hread
    rw [flagValues_cons] at hopt ⊢
    by_cases hname : name = "config-file"
    · subst hname
      -- the option is not boolean, so the value is its own
      rw [if_neg (by decide), or_none] at hgiven
      rw [scanArgs, optionValue_of_readFlag hflag, hgiven]
      exact ⟨given, rfl, fun _ => rfl⟩
    · rw [if_neg hname] at hopt ⊢
      rw [scanArgs, optionValue_eq_none (by rw [hflag]; simpa using hname), none_or]
      exact (ih hfs hopt).imp fun _ => .imp_right fun hfirst hplain =>
        hfirst (forall_mem_cons.mp hplain).2
  | case4 arg name value hflag given rest hgiven ih =>
    simp only [readFlags, hflag, hgiven] at hread
    obtain ⟨fs, hfs, rfl⟩ := map_eq_some_iff.mp hread
    rw [flagValues_cons] at hopt ⊢
    by_cases hname : name = "config-file"
    · subst hname
      rw [scanArgs, optionValue_of_readFlag hflag, (or_eq_none_iff.mp hgiven).1]
      exact ⟨given, rfl, fun _ => rfl⟩
    · rw [if_neg hname] at hopt ⊢
      obtain ⟨path, hpath, hfirst⟩ := ih hfs hopt
      rw [scanArgs, optionValue_eq_none (by rw [hflag]; simpa using hname), none_or,
        scanArgs, hpath]
      -- the loop also looks at the value
      refine ⟨(optionValue given rest.head?).getD path, ?_, fun hplain => ?_⟩
      · cases optionValue given rest.head? <;> rfl
      · obtain ⟨hvalue, hplain⟩ := forall_mem_cons.mp hplain
        rw [optionValue_eq_none (hvalue hname)]
        exact hfirst hplain
  | case5 arg name value hflag hgiven =>
    simp only [readFlags, hflag, hgiven] at hread
    cases hread

end Scan

section Agree

variable (join : List String → String) (os : OS) (env : String → String) {args : List String}
  {flags : List (String × String)}

theorem value_agrees_iff (hread : readFlags args = some flags) :
    configFile join os env args flags = resolveConfigFilePath join os env args ↔
      ∀ last ∈ flagValue flags "config-file", scanArgs args = some last := by
  have hvalue : configFile join os env args flags =
      (flagValue flags "config-file").getD (resolveConfigFilePath join os env args) := rfl
  cases hflag : flagValue flags "config-file" with
  | none => exact iff_of_true (by rw [hvalue, hflag]; rfl) fun _ h => (nomatch h)
  | some last =>
    have hopt : flagValues flags "config-file" ≠ [] := by
      intro hnil
      rw [flagValue_eq, hnil] at hflag
      cases hflag
    obtain ⟨path, hpath, -⟩ := scanArgs_of_readFlags args hread hopt
    rw [hvalue, hflag, resolveConfigFilePath, hpath]
    simp [eq_comm]

/-- The path that is written is the one that is read unless this one is empty. -/
theorem saved_agrees_iff (hjoin : ∀ parts, (∃ part ∈ parts, part ≠ "") → join parts ≠ "") :
    getConfigPath join os env (resolveConfigFilePath join os env args) =
      resolveConfigFilePath join os env args ↔ scanArgs args ≠ some "" := by
  have hfallback : ∀ windowsDir, fallback join os env windowsDir ≠ "" := by
    intro windowsDir
    unfold fallback
    split
    · next henv => exact henv
    · exact hjoin _ ⟨"config.json", by simp, by decide⟩
  unfold getConfigPath resolveConfigFilePath
  cases hscan : scanArgs args with
  | none => simp [hfallback]
  | some path => by_cases hpath : path = "" <;> simp [hpath, hfallback]

end Agree

/-- **Where the files agree.**  `filepath.Join` is empty only if all its elements are.  For
all arguments that `flag.Parse` accepts, the file that is read is the one that is written
exactly if the first argument that reads as the option has the value of the last option
among the flags, if there is one, and does not have an empty value.  If no value of another
flag reads as the option, this is so exactly if the first and the last option have the same
value and it is not empty. -/
theorem config_file_agrees_iff (join : List String → String) (os : OS) (env : String → String)
    (args : List String) (flags : List (String × String))
    (hjoin : ∀ parts, (∃ part ∈ parts, part ≠ "") → join parts ≠ "")
    (hparse : flagParse args = some flags) :
    (Agrees join os env args flags ↔
      (∀ last ∈ flagValue flags "config-file", FirstOption args last) ∧ ¬ FirstOption args "") ∧
    (Unmasked flags → flagValues flags "config-file" ≠ [] →
      (Agrees join os env args flags ↔ ∃ path ≠ "",
        (flagValues flags "config-file").head? = some path ∧
          (flagValues flags "config-file").getLast? = some path)) := by
  have hread : readFlags args = some flags := (filter_eq_some_iff.mp hparse).1
  have hmain : Agrees join os env args flags ↔
      (∀ last ∈ flagValue flags "config-file", scanArgs args = some last) ∧
        scanArgs args ≠ some "" := by
    rw [← value_agrees_iff join os env hread, ← saved_agrees_iff join os env hjoin]
    constructor
    · rintro ⟨hvalue, hsaved⟩
      rw [hvalue] at hsaved
      exact ⟨hvalue, hsaved⟩
    · rintro ⟨hvalue, hsaved⟩
      exact ⟨hvalue, by rw [hvalue]; exact hsaved⟩
  refine ⟨by simpa only [ne_eq, scanArgs_eq_some_iff] using hmain,
    fun hplain hopt => hmain.trans ?_⟩
  obtain ⟨path, hpath, hfirst⟩ := scanArgs_of_readFlags args hread hopt
  rw [hfirst hplain, hpath, flagValue_eq, getLast?_eq_some_getLast hopt]
  constructor
  · rintro ⟨hsame, hne⟩
    exact ⟨path, fun h => hne (congrArg some h), rfl, (hsame _ rfl).symm⟩
  · rintro ⟨p, hne, hp, hlast⟩
    cases hp
    exact ⟨fun _ h => hlast.symm.trans h, fun h => hne (some.inj h)⟩

/-- An element of a path comes to the ones before it, the last first: `..` takes the last
one away, unless this is a `..` too. -/
def cleanElem (rooted : Bool) (elems : List (List Char)) (elem : List Char) :
    List (List Char) :=
  if elem = [] ∨ elem = ['.'] then elems
  else if elem = ['.', '.'] then
    match elems with
    | [] => if rooted then [] else [elem]
    | last :: rest => if last = ['.', '.'] then elem :: elems else rest
  else elem :: elems

/-- `filepath.Clean` on Unix. -/
def clean (path : List Char) : List Char :=
  let rooted := path.head? == some '/'
  let elems := ((path.splitOn '/').foldl (cleanElem rooted) []).reverse
  match (if rooted then ['/'] else []) ++ ['/'].intercalate elems with
  | [] => ['.']
  | cs => cs

/-- `filepath.Join` on Unix. -/
def join (parts : List String) : String :=
  match parts.filter (· ≠ "") with
  | [] => ""
  | parts => String.ofList (clean (['/'].intercalate (parts.map String.toList)))

theorem join_ne_empty (parts : List String) (h : ∃ part ∈ parts, part ≠ "") :
    join parts ≠ "" := by
  obtain ⟨part, hmem, hne⟩ := h
  have hkept : part ∈ parts.filter (· ≠ "") := mem_filter.mpr ⟨hmem, decide_eq_true hne⟩
  unfold join
  split
  · next hnil => exact absurd (hnil ▸ hkept) not_mem_nil
  · intro hempty
    have hcs := congrArg String.toList hempty
    rw [String.toList_ofList, clean] at hcs
    split at hcs
    · cases hcs
    · next hcons => exact hcons hcs

theorem config_file_agrees_twice :
    ∃ flags, flagParse ["--name", "site", "--config-file", "a.json", "-config-file=a.json", "up",
        "--config-file=b.json"] = some flags ∧
      Agrees join .other (fun _ => "") ["--name", "site", "--config-file", "a.json",
        "-config-file=a.json", "up", "--config-file=b.json"] flags := by
  obtain ⟨flags, hparse, hplain, hvalues⟩ : ∃ flags, flagParse ["--name", "site", "--config-file",
      "a.json", "-config-file=a.json", "up", "--config-file=b.json"] = some flags ∧
      Unmasked flags ∧ flagValues flags "config-file" = ["a.json", "a.json"] := by
    decide +kernel
  refine ⟨flags, hparse, ((config_file_agrees_iff join .other (fun _ => "") _ flags join_ne_empty
    hparse).2 hplain ?_).mpr ?_⟩
  · rw [hvalues]
    decide
  · rw [hvalues]
    exact ⟨"a.json", by decide, rfl, rfl⟩

/-- **Options that disagree**: two different ones, the option as the value of another flag, and
an empty one, which is read from nowhere and saved to the default path. -/
theorem config_files_differ :
    (∀ args ∈ [["--config-file=a.json", "--config-file=b.json"],
        ["--name", "--config-file=a.json", "--config-file=b.json"]],
      ∃ flags, flagParse args = some flags ∧
        resolveConfigFilePath join .other (fun _ => "") args = "a.json" ∧
        configFile join .other (fun _ => "") args flags = "b.json") ∧
    ∃ flags, flagParse ["--config-file="] = some flags ∧
      resolveConfigFilePath join .other (fun _ => "") ["--config-file="] = "" ∧
      getConfigPath join .other (fun _ => "")
        (configFile join .other (fun _ => "") ["--config-file="] flags) =
          ".config/newt-client/config.json" := by decide +kernel

end Newt.ConfigFilePath
