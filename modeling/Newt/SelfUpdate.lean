import Mathlib.Logic.Function.Basic
import Mathlib.Data.List.Basic

/-!
# The update of the program's own binary

`CheckAndSelfUpdate` asks the server for the latest version, downloads it into a file next
to the executable, checks it and renames it over the executable.  Whatever it asks of the
network and of the file system can fail.

A `World` is the file system with its past, the temporary files that were created, those
that the program tried to remove and the steps that failed.  `update_safe_iff` says, in
terms of what the call finds, which failures the update does not survive.
-/

namespace Newt.SelfUpdate

open List Function

abbrev Bytes := List UInt8

abbrev Files := String → Option Bytes

/-- The steps that can fail. -/
inductive Step
  | container
  | development
  | executable
  | evalSymlinks
  | marshal
  | joinPath
  | versionRequest
  | version
  | versionStatus
  | decode
  | success
  | writeTest
  | closeTest
  | removeTest
  | downloadRequest
  | download
  | downloadStatus
  | createTemp
  | copy
  | close
  | openTemp
  | hash
  | verify
  | closeVerified
  | chmod
  | rename
  | removeTemp
  | reexec
  deriving DecidableEq, Repr

/-- The error of a step, as far as the text is fixed. -/
def Step.text : Step → String
  | container => "auto-update unsupported in container images; pull a new image tag instead"
  | development => "cannot auto-update a development build (version_replaceme)"
  | executable => "failed to determine current executable path: "
  | evalSymlinks => "failed to resolve symlinks for executable path: "
  | marshal => "failed to marshal version request: "
  | joinPath => "failed to build version URL: "
  | versionRequest => "failed to create version request: "
  | version => "failed to request version info: "
  | versionStatus => "server returned status "
  | decode => "failed to parse version response: "
  | success => "server error: "
  | writeTest => "cannot write to "
  | downloadRequest => "failed to create download request: "
  | download => "failed to download new binary: "
  | downloadStatus => "download failed with status "
  | copy => "failed to write downloaded binary: "
  | close => "failed to close temp file: "
  | verify => "binary integrity check failed: "
  | chmod => "failed to set executable permission: "
  | rename => "failed to replace binary (you may need to run as root): "
  | closeTest | removeTest | createTemp | openTemp | hash | closeVerified | removeTemp
  | reexec => ""

/-- What the call finds, and what comes of everything it asks for. -/
structure Env where
  systemSubstrate : String
  currentVersion : String
  exePath : String
  files : Files
  /-- The step succeeds, as far as nothing else decides that. -/
  ok : Step → Bool
  versionStatus : Nat
  /-- `versionResponse`. -/
  success : Bool
  currentIsLatest : Bool
  sha256 : String
  /-- The names `os.CreateTemp` finds, for two patterns. -/
  testName : String
  tmpName : String
  testName_ne : testName ≠ tmpName
  downloadStatus : Nat
  /-- The whole download, and how much of it `io.Copy` writes before an error. -/
  body : Bytes
  copied : Option Nat
  /-- The digest of a content in hexadecimal. -/
  digest : Bytes → String
  /-- What `postUpdateAdvantech` writes, and where. -/
  router : List (String × Bytes)

/-- The file system, with the moments before. -/
structure Disk where
  files : Files
  past : List Files := []

namespace Disk

def change (d : Disk) (files : Files) : Disk where
  files := files
  past := d.past ++ [d.files]

def write (d : Disk) (path : String) (content : Option Bytes) : Disk :=
  d.change (update d.files path content)

/-- `os.Rename`. -/
def rename (d : Disk) (path path' : String) : Disk :=
  d.change (update (update d.files path' (d.files path)) path none)

end Disk

structure World where
  disk : Disk
  created : List String := []
  /-- What the program tried to remove. -/
  removed : List String := []
  failed : List Step := []

def World.fails (w : World) (step : Step) : World :=
  { w with failed := w.failed ++ [step] }

/-- How a call ends; `replaced` is the start of the new binary in its place. -/
inductive Outcome
  | panics
  | returned (err : Option String)
  | replaced
  deriving DecidableEq, Repr

structure Run where
  outcome : Outcome
  world : World

def World.fail (w : World) (step : Step) : Run :=
  ⟨.returned (some step.text), w.fails step⟩

/-- `strings.EqualFold`, for hexadecimal digits. -/
def equalFold (s t : String) : Bool :=
  s.toList.map Char.toLower = t.toList.map Char.toLower

/-- The first of some steps that fails. -/
def firstFailure (steps : List (Step × Bool)) : Option Step :=
  (steps.find? (fun s => !s.2)).map Prod.fst

namespace Env

/-- A step whose result is not looked at. -/
def ignore (e : Env) (w : World) (step : Step) : World :=
  { w with failed := if e.ok step then w.failed else w.failed ++ [step] }

/-- `os.CreateTemp`, which does not open a file that exists. -/
def createTemp (e : Env) (w : World) (step : Step) (name : String) : Option World :=
  if e.ok step = true ∧ w.disk.files name = none then
    some { w with disk := w.disk.write name (some []), created := w.created ++ [name] }
  else none

/-- `os.Remove`. -/
def remove (e : Env) (w : World) (step : Step) (path : String) : World :=
  { w with
    disk := if e.ok step then w.disk.write path none else w.disk
    removed := w.removed ++ [path] }

/-- `verifySHA256`, with the deferred `Close`. -/
def verifySHA256 (e : Env) (w : World) (path expected : String) : World × Bool :=
  match if e.ok .openTemp then w.disk.files path else none with
  | none => (w, false)
  | some data => (e.ignore w .closeVerified, e.ok .hash && equalFold (e.digest data) expected)

/-- `os.WriteFile`, which empties the file first. -/
def writeFile (d : Disk) (f : String × Bytes) : Disk :=
  (d.write f.1 (some [])).write f.1 (some f.2)

/-- `postUpdateAdvantech`, on a router only. -/
def postUpdate (e : Env) (d : Disk) : Disk :=
  if e.systemSubstrate = "ADVANTECH_ROUTER_APP" then e.router.foldl writeFile d else d

/-- The check of the digest, if one is announced. -/
def verified (e : Env) (w : World) : World × Bool :=
  if e.sha256 = "" then (w, true) else e.verifySHA256 w e.tmpName e.sha256

/-- From the temporary file to the new start. -/
def install (e : Env) (w : World) : Run :=
  let w := { w with disk := w.disk.write e.tmpName (some (e.copied.elim e.body e.body.take)) }
  match firstFailure [(.copy, e.copied.isNone), (.close, e.ok .close)] with
  | some step => w.fail step
  | none =>
    let (w, ok) := e.verified w
    match firstFailure [(.verify, ok), (.chmod, e.ok .chmod), (.rename, e.ok .rename)] with
    | some step => w.fail step
    | none =>
      let w := { w with disk := e.postUpdate (w.disk.rename e.tmpName e.exePath) }
      if e.ok .reexec then ⟨.replaced, w⟩ else w.fail .reexec

/-- The download up to its first byte. -/
def downloadSteps (e : Env) : List (Step × Bool) :=
  [(.downloadRequest, e.ok .downloadRequest), (.download, e.ok .download),
    (.downloadStatus, e.downloadStatus = 200)]

/-- From the download on. -/
def download (e : Env) (w : World) : Run :=
  match firstFailure e.downloadSteps with
  | some step => w.fail step
  | none =>
    match e.createTemp w .createTemp e.tmpName with
    -- The error is not looked at, and the name of a nil file is asked for.
    | none => ⟨.panics, w.fails .createTemp⟩
    | some w =>
      let run := e.install w
      -- The deferred removal, which a process that is replaced does not come to.
      if run.outcome = .replaced then run
      else { run with world := e.remove run.world .removeTemp e.tmpName }

/-- From the test whether the directory can be written. -/
def update (e : Env) (w : World) : Run :=
  match e.createTemp w .writeTest e.testName with
  | none => w.fail .writeTest
  | some w =>
    let w := e.ignore w .closeTest
    e.download (e.ignore (e.remove w .removeTest e.testName) .removeTest)

/-- The request for the latest version. -/
def requestSteps (e : Env) : List (Step × Bool) :=
  [(.container, e.systemSubstrate ≠ "CONTAINER"),
    (.development, e.currentVersion ≠ "version_replaceme"), (.executable, e.ok .executable),
    (.evalSymlinks, e.ok .evalSymlinks && (e.files e.exePath).isSome),
    (.marshal, e.ok .marshal), (.joinPath, e.ok .joinPath),
    (.versionRequest, e.ok .versionRequest), (.version, e.ok .version)]

/-- The answer, unless it says that there are no updates. -/
def answerSteps (e : Env) : List (Step × Bool) :=
  [(.versionStatus, e.versionStatus = 200), (.decode, e.ok .decode), (.success, e.success)]

def checkAndSelfUpdate (e : Env) : Run :=
  let w : World := { disk := { files := e.files } }
  match firstFailure e.requestSteps with
  | some step => w.fail step
  | none =>
    if e.versionStatus = 204 ∨ e.versionStatus = 404 then ⟨.returned none, w⟩
    else
      match firstFailure e.answerSteps with
      | some step => w.fail step
      | none => if e.currentIsLatest then ⟨.returned none, w⟩ else e.update w

/-- What may be at the path of the executable: the old binary, or the complete download with
the digest the server announced. -/
def Binary (e : Env) (content : Option Bytes) : Prop :=
  content = e.files e.exePath ∨
    content = some e.body ∧ (e.sha256 ≠ "" → equalFold (e.digest e.body) e.sha256 = true)

/-- At every moment so far. -/
def Keeps (e : Env) (d : Disk) : Prop :=
  ∀ files ∈ d.past ++ [d.files], e.Binary (files e.exePath)

end Env

/-- What a call should be. -/
structure Run.Safe (e : Env) (r : Run) : Prop where
  noPanic : r.outcome ≠ .panics
  keeps : e.Keeps r.world.disk
  errors : r.world.failed ≠ [] → ∃ text, r.outcome = .returned (some text)
  removes : r.outcome ≠ .replaced → ∀ path ∈ r.world.created, path ∈ r.world.removed

/-! ## The condition -/

namespace Env

/-- A temporary file of this name can be created. -/
def CanCreate (e : Env) (step : Step) (name : String) : Prop :=
  e.ok step = true ∧ e.files name = none
  deriving Decidable

/-- The call comes to the file for the download. -/
def Downloads (e : Env) : Prop :=
  (∀ s ∈ e.requestSteps ++ e.answerSteps ++ e.downloadSteps, s.2 = true) ∧
    e.currentIsLatest = false ∧ e.CanCreate .writeTest e.testName
  deriving Decidable

/-- A download that is in its file replaces the executable. -/
def Installs (e : Env) : Prop :=
  e.copied = none ∧ e.ok .close = true ∧
    (e.sha256 = "" ∨ e.ok .openTemp = true ∧ e.ok .hash = true ∧
      equalFold (e.digest e.body) e.sha256 = true) ∧
    e.ok .chmod = true ∧ e.ok .rename = true
  deriving Decidable

/-- The steps whose errors are ignored succeed. -/
def Tidy (e : Env) : Prop :=
  e.ok .closeTest = true ∧ e.ok .removeTest = true ∧
    (e.sha256 = "" ∨ e.ok .closeVerified = true)
  deriving Decidable

/-- On a router no file of its own is the executable, unless it holds what that may be. -/
def SparesBinary (e : Env) : Prop :=
  e.systemSubstrate = "ADVANTECH_ROUTER_APP" →
    ∀ f ∈ e.router, f.1 = e.exePath → e.Binary (some []) ∧ e.Binary (some f.2)

end Env

variable {e : Env} {d : Disk} {w w' : World} {step : Step} {path : String}

/-- No step fails exactly if all succeed. -/
theorem firstFailure_eq_none_iff {steps : List (Step × Bool)} :
    firstFailure steps = none ↔ ∀ s ∈ steps, s.2 = true := by
  simp [firstFailure]

/-! ## The executable -/

namespace Env

/-- A change of the file system keeps the executable if it leaves one there. -/
theorem keeps_change {files : Files} :
    e.Keeps (d.change files) ↔ e.Keeps d ∧ e.Binary (files e.exePath) := by
  unfold Keeps Disk.change
  rw [forall_mem_append, forall_mem_singleton]

/-- A file is written. -/
theorem keeps_write {content : Option Bytes} :
    e.Keeps (d.write path content) ↔ e.Keeps d ∧ (path = e.exePath → e.Binary content) := by
  rw [Disk.write, keeps_change]
  refine and_congr_right fun h => ?_
  by_cases hpath : path = e.exePath
  · rw [← hpath, update_self]
    exact ⟨fun hb _ => hb, fun hb => hb rfl⟩
  · rw [update_of_ne (Ne.symm hpath)]
    exact ⟨fun _ heq => absurd heq hpath, fun _ => h _ mem_concat_self⟩

/-- A file that is not the executable is removed. -/
theorem keeps_remove (hne : path ≠ e.exePath) (step : Step) :
    e.Keeps (e.remove w step path).disk ↔ e.Keeps w.disk := by
  unfold remove
  split
  · exact keeps_write.trans (and_iff_left fun heq => absurd heq hne)
  · rfl

/-- The files of a router. -/
theorem keeps_postUpdate (h : e.Keeps d) : e.Keeps (e.postUpdate d) ↔ e.SparesBinary := by
  have hfold : ∀ (fs : List (String × Bytes)) (d : Disk), e.Keeps (fs.foldl writeFile d) ↔
      e.Keeps d ∧ ∀ f ∈ fs, f.1 = e.exePath → e.Binary (some []) ∧ e.Binary (some f.2) := by
    intro fs
    induction fs with
    | nil => simp
    | cons f fs ih =>
      intro d
      rw [foldl_cons, ih, writeFile, keeps_write, keeps_write, forall_mem_cons]
      simp only [imp_and, and_assoc]
  unfold postUpdate SparesBinary
  split
  · next hrouter => simp only [hfold, h, hrouter, true_and, true_implies]
  · next hrouter => exact ⟨fun _ hr => absurd hr hrouter, fun _ => h⟩

/-- The executable exists, so that its name is not that of a new file. -/
theorem Keeps.ne_of_none (h : e.Keeps d) (hexe : (e.files e.exePath).isSome = true)
    (hnone : d.files path = none) : path ≠ e.exePath := by
  rintro rfl
  rcases h _ mem_concat_self with hold | ⟨hnew, -⟩
  · rw [← hold, hnone] at hexe
    cases hexe
  · rw [hnone] at hnew
    cases hnew

/-! ## The installation -/

/-- What comes of the check of a file. -/
theorem verified_eq {data : Bytes} (hdata : w.disk.files e.tmpName = some data) :
    e.verified w =
      (if e.sha256 = "" ∨ e.ok .openTemp = false then w else e.ignore w .closeVerified,
        decide (e.sha256 = "" ∨ e.ok .openTemp = true ∧ e.ok .hash = true ∧
          equalFold (e.digest data) e.sha256 = true)) := by
  unfold verified verifySHA256
  by_cases hsha : e.sha256 = ""
  · simp [hsha]
  · cases hopen : e.ok .openTemp <;> simp [hsha, hdata]

/-- An installation that does not come to the replacement fails, and the executable stays. -/
theorem install_of_not (hnot : ¬ e.Installs) :
    ∃ (w' : World) (step : Step), e.install w = w'.fail step ∧
      w'.created = w.created ∧ w'.removed = w.removed ∧
      w'.disk = w.disk.write e.tmpName (some (e.copied.elim e.body e.body.take)) := by
  unfold install
  dsimp only
  rw [verified_eq (update_self _ _ _)]
  split
  · exact ⟨_, _, rfl, rfl, rfl, rfl⟩
  · next hcopied =>
    split
    · refine ⟨_, _, rfl, ?_⟩
      split_ifs <;> exact ⟨rfl, rfl, rfl⟩
    · next hdone =>
      simp only [firstFailure_eq_none_iff, forall_mem_cons, decide_eq_true_eq,
        Option.isNone_iff_eq_none] at hcopied hdone
      obtain ⟨hnone, hclose, -⟩ := hcopied
      rw [hnone] at hdone
      exact absurd ⟨hnone, hclose, hdone.1, hdone.2.1, hdone.2.2.1⟩ hnot

/-- One that does, up to the new start. -/
theorem install_of_installs (h : e.Installs) :
    ∃ w' : World, e.install w = (if e.ok .reexec then ⟨.replaced, w'⟩ else w'.fail .reexec) ∧
      w'.created = w.created ∧ w'.removed = w.removed ∧
      w'.disk = e.postUpdate ((w.disk.write e.tmpName (some e.body)).rename e.tmpName e.exePath) ∧
      (w'.failed = [] ↔ w.failed = [] ∧ (e.sha256 = "" ∨ e.ok .closeVerified = true)) := by
  obtain ⟨hcopied, hclose, hsha, hchmod, hrename⟩ := h
  unfold install
  dsimp only
  rw [verified_eq (update_self _ _ _), hcopied]
  simp only [Option.isNone_none, Option.elim_none, hclose, hsha, hchmod, hrename, decide_true]
  refine ⟨_, rfl, ?_, ?_, ?_, ?_⟩
  · split_ifs <;> rfl
  · split_ifs <;> rfl
  · split_ifs <;> rfl
  · rcases hsha with hsha | ⟨hopen, -⟩
    · simp [hsha]
    · by_cases hempty : e.sha256 = ""
      · simp [hempty]
      · cases hok : e.ok .closeVerified <;> simp [hempty, hopen, ignore, hok]

/-- The new binary in its place. -/
theorem Keeps.rename (h : e.Keeps d) (hne : e.tmpName ≠ e.exePath) (hinstalls : e.Installs) :
    e.Keeps ((d.write e.tmpName (some e.body)).rename e.tmpName e.exePath) := by
  refine keeps_change.mpr ⟨keeps_write.mpr ⟨h, fun heq => absurd heq hne⟩, ?_⟩
  rw [update_of_ne hne.symm, update_self]
  exact .inr ⟨update_self _ _ _, fun hsha => (hinstalls.2.2.1.resolve_left hsha).2.2⟩

end Env

/-! ## The call -/

open Env

/-- A call that stops at a step it looks at is safe, if it has been so far. -/
theorem safe_fail (h : e.Keeps w.disk) (hremoved : ∀ path ∈ w.created, path ∈ w.removed) :
    (w.fail step).Safe e where
  noPanic := (nomatch ·)
  keeps := h
  errors _ := ⟨_, rfl⟩
  removes _ := hremoved

/-- With the removal of its file as well. -/
theorem safe_fail_remove_iff (hne : path ≠ e.exePath) (hcreated : w'.created = w.created ++ [path])
    (hremoved' : w'.removed = w.removed) (hremoved : ∀ path ∈ w.created, path ∈ w.removed) :
    Run.Safe e { w'.fail step with world := e.remove (w'.fails step) .removeTemp path } ↔
      e.Keeps w'.disk := by
  refine ⟨fun hsafe => (keeps_remove hne _).mp hsafe.keeps, fun h => ⟨(nomatch ·),
    (keeps_remove hne _).mpr h, fun _ => ⟨_, rfl⟩, fun _ => ?_⟩⟩
  show ∀ p ∈ w'.created, p ∈ w'.removed ++ [path]
  rw [hcreated, hremoved']
  exact forall_mem_append.mpr ⟨fun p hp => mem_append_left _ (hremoved p hp),
    fun p hp => mem_append_right _ hp⟩

/-- **The installation**, with the removal of its file. -/
theorem safe_install_iff (h : e.Keeps w'.disk) (hne : e.tmpName ≠ e.exePath)
    (hw : w' = { w with disk := w'.disk, created := w.created ++ [e.tmpName] })
    (hremoved : ∀ path ∈ w.created, path ∈ w.removed) :
    Run.Safe e (if (e.install w').outcome = .replaced then e.install w'
      else { e.install w' with world := e.remove (e.install w').world .removeTemp e.tmpName }) ↔
      (e.Installs → e.SparesBinary ∧
        (e.ok .reexec = true → w.failed = [] ∧ (e.sha256 = "" ∨ e.ok .closeVerified = true))) := by
  have hcreated' : w'.created = w.created ++ [e.tmpName] := by rw [hw]
  have hremoved' : w'.removed = w.removed := by rw [hw]
  have hfailed' : w'.failed = w.failed := by rw [hw]
  by_cases hinstalls : e.Installs
  · obtain ⟨v, hinstall, hcreated, hremoves, hdisk, hfailed⟩ :=
      install_of_installs hinstalls (w := w')
    have hspares : e.Keeps v.disk ↔ e.SparesBinary := by
      rw [hdisk]
      exact keeps_postUpdate (h.rename hne hinstalls)
    rw [hinstall, imp_iff_right hinstalls, ← hspares, ← hfailed', ← hfailed]
    cases e.ok .reexec with
    | true =>
      refine ⟨fun hsafe => ⟨hsafe.keeps, fun _ => ?_⟩, fun hcond => ⟨(nomatch ·), hcond.1,
        fun hne => absurd (hcond.2 rfl) hne, fun hne => absurd rfl hne⟩⟩
      by_contra hne
      obtain ⟨text, htext⟩ := hsafe.errors hne
      cases htext
    | false =>
      refine (safe_fail_remove_iff hne (hcreated.trans hcreated') (hremoves.trans hremoved')
        hremoved).trans ?_
      simp
  · obtain ⟨v, step, hinstall, hcreated, hremoves, hdisk⟩ := install_of_not hinstalls (w := w')
    rw [hinstall]
    refine iff_of_true ?_ fun hcontra => absurd hcontra hinstalls
    refine (safe_fail_remove_iff hne (hcreated.trans hcreated') (hremoves.trans hremoved')
      hremoved).mpr ?_
    rw [hdisk]
    exact keeps_write.mpr ⟨h, fun heq => absurd heq hne⟩

/-- **The download**, in a world where the test has left nothing that matters. -/
theorem safe_download_iff (h : e.Keeps w.disk) (hexe : (e.files e.exePath).isSome = true)
    (hremoved : ∀ path ∈ w.created, path ∈ w.removed)
    (hname : w.disk.files e.tmpName = e.files e.tmpName) :
    (e.download w).Safe e ↔ ((∀ s ∈ e.downloadSteps, s.2 = true) →
      e.CanCreate .createTemp e.tmpName ∧ (e.Installs → e.SparesBinary ∧
        (e.ok .reexec = true → w.failed = [] ∧ (e.sha256 = "" ∨ e.ok .closeVerified = true)))) := by
  unfold download
  rw [← firstFailure_eq_none_iff]
  cases hsteps : firstFailure e.downloadSteps with
  | some step => exact ⟨fun _ hnone => (nomatch hnone), fun _ => safe_fail h hremoved⟩
  | none =>
    rw [imp_iff_right rfl]
    unfold createTemp CanCreate
    rw [hname]
    by_cases hcreate : e.ok .createTemp = true ∧ e.files e.tmpName = none
    · have hne : e.tmpName ≠ e.exePath := h.ne_of_none hexe (hname.trans hcreate.2)
      have hkeeps : e.Keeps (w.disk.write e.tmpName (some [])) :=
        keeps_write.mpr ⟨h, fun heq => absurd heq hne⟩
      rw [if_pos hcreate, and_iff_right hcreate]
      exact safe_install_iff hkeeps hne rfl hremoved
    · rw [if_neg hcreate]
      exact ⟨fun hsafe => absurd rfl hsafe.noPanic, fun hcond => absurd hcond.1 hcreate⟩

/-- **From the write test on.** -/
theorem safe_update_iff (hexe : (e.files e.exePath).isSome = true) :
    (e.update { disk := { files := e.files } }).Safe e ↔ (e.CanCreate .writeTest e.testName →
      (∀ s ∈ e.downloadSteps, s.2 = true) → e.CanCreate .createTemp e.tmpName ∧
        (e.Installs → e.SparesBinary ∧ (e.ok .reexec = true → e.Tidy))) := by
  have hkeeps : e.Keeps { files := e.files } := forall_mem_singleton.mpr (Or.inl rfl)
  unfold Env.update Env.createTemp
  by_cases htest : e.ok .writeTest = true ∧ e.files e.testName = none
  · have hne : e.testName ≠ e.exePath := hkeeps.ne_of_none hexe htest.2
    rw [if_pos htest, imp_iff_right (show e.CanCreate .writeTest e.testName from htest)]
    refine (safe_download_iff ?_ hexe ?_ ?_).trans ?_
    · exact (keeps_remove hne _).mpr (keeps_write.mpr ⟨hkeeps, fun heq => absurd heq hne⟩)
    · exact fun path hpath => hpath
    · have hname := e.testName_ne.symm
      unfold Env.ignore Env.remove
      split <;> simp only [Disk.write, Disk.change, update_of_ne hname]
    · unfold Env.ignore Env.remove Tidy
      cases e.ok .closeTest <;> cases e.ok .removeTest <;> simp
  · rw [if_neg htest]
    exact iff_of_true (safe_fail hkeeps (forall_mem_nil _)) fun h => absurd h htest

/-- **What the update survives.**  A call is safe unless it comes to the file for the
download and cannot create it; or the replacement succeeds and a file of a router is the
executable, or is followed by the new start although a step whose error is ignored failed. -/
theorem update_safe_iff (e : Env) :
    e.checkAndSelfUpdate.Safe e ↔ (e.Downloads → e.CanCreate .createTemp e.tmpName ∧
      (e.Installs → e.SparesBinary ∧ (e.ok .reexec = true → e.Tidy))) := by
  have hkeeps : e.Keeps { files := e.files } := forall_mem_singleton.mpr (Or.inl rfl)
  have hstop : ∀ step : Step, (World.fail { disk := { files := e.files } } step).Safe e :=
    fun step => safe_fail hkeeps (forall_mem_nil _)
  have hnothing : Run.Safe e ⟨.returned none, { disk := { files := e.files } }⟩ :=
    ⟨(nomatch ·), hkeeps, fun hne => absurd rfl hne, fun _ => forall_mem_nil _⟩
  unfold checkAndSelfUpdate Downloads
  simp only [forall_mem_append, ← firstFailure_eq_none_iff]
  cases hrequest : firstFailure e.requestSteps with
  | some step => exact iff_of_true (hstop step) fun hd => nomatch hd.1.1.1
  | none =>
    have hexe : (e.files e.exePath).isSome = true := by
      have hdone := firstFailure_eq_none_iff.mp hrequest
      simp only [requestSteps, forall_mem_cons, Bool.and_eq_true] at hdone
      exact hdone.2.2.2.1.2
    dsimp only
    split
    · next hstatus =>
      refine iff_of_true hnothing fun hd => ?_
      have hok := (firstFailure_eq_none_iff.mp hd.1.1.2) _ mem_cons_self
      rcases hstatus with hstatus | hstatus <;> simp [hstatus] at hok
    · cases hanswer : firstFailure e.answerSteps with
      | some step => exact iff_of_true (hstop step) fun hd => nomatch hd.1.1.2
      | none =>
        cases hlatest : e.currentIsLatest with
        | true => exact iff_of_true hnothing fun hd => nomatch hd.2.1
        | false =>
          refine (safe_update_iff hexe).trans ?_
          rw [← firstFailure_eq_none_iff]
          simp only [true_and]
          exact ⟨fun h hd => h hd.2 hd.1, fun h htest hsteps => h ⟨hsteps, htest⟩⟩

/-- A newer version, with steps that fail. -/
def newer (failing : List Step) : Env where
  systemSubstrate := ""
  currentVersion := "1.0.0"
  exePath := "newt"
  files := fun path => if path = "newt" then some [1] else none
  ok := fun step => step ∉ failing
  versionStatus := 200
  success := true
  currentIsLatest := false
  sha256 := "AB"
  testName := ".newt-write-test-1"
  tmpName := ".newt-update-1"
  testName_ne := by decide
  downloadStatus := 200
  body := [2]
  copied := none
  digest := fun _ => "ab"
  router := []

/-- The executable is replaced; with a chmod that fails it is not, which is safe as well. -/
theorem update_safe_newer :
    (newer []).checkAndSelfUpdate.outcome = .replaced ∧
      (newer []).checkAndSelfUpdate.Safe (newer []) ∧
      (newer [.removeTest, .chmod]).checkAndSelfUpdate.Safe (newer [.removeTest, .chmod]) :=
  ⟨by decide, (update_safe_iff (newer [])).mpr fun _ => ⟨by decide, fun _ =>
      ⟨fun hrouter => absurd hrouter (by decide), by decide⟩⟩,
    (update_safe_iff _).mpr fun _ => ⟨by decide, fun h => absurd h (by decide)⟩⟩

/-- Without the second file the call panics, and a write test that stays behind is not
reported. -/
theorem update_not_safe :
    (newer [.createTemp]).checkAndSelfUpdate.outcome = .panics ∧
      ¬ (newer [.createTemp]).checkAndSelfUpdate.Safe (newer [.createTemp]) ∧
      (newer [.removeTest]).checkAndSelfUpdate.outcome = .replaced ∧
      ¬ (newer [.removeTest]).checkAndSelfUpdate.Safe (newer [.removeTest]) := by
  refine ⟨by decide, fun h => h.noPanic (by decide), by decide, fun h => ?_⟩
  obtain ⟨text, htext⟩ := h.errors (by decide)
  cases htext

end Newt.SelfUpdate
