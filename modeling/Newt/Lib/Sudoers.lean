import Mathlib.Data.List.DropRight
import Newt.Lib.Text

/-!
# User specifications of sudoers files

A sudoers file is read line by line.  Blank lines and comments say nothing; a line
`user ALL=(ALL) NOPASSWD: command` allows one command without a password.  Commas
separate commands and a colon starts another specification, unless they are escaped
with a backslash; a `#` starts a comment; and a line that ends in a backslash goes on
in the next one.  `command?` is the command of a line that allows just one, and
`grants` are those of a text, with `none` for a line of any other kind.

* `grants_userSpec` — what a line made of a user and a text allows;
* `singles_of_grants` and `grants_of_singles` — a list of such lines allows no more
  than the texts it was made of exactly if none of them has a line end or an unescaped
  special character.
-/

namespace Text

open List

theorem trimSpace_eq (s : List Char) :
    trimSpace s = (s.dropWhile isSpace).rdropWhile isSpace :=
  rfl

/-- Trimming a trimmed text. -/
theorem trimSpace_trimSpace (s : List Char) : trimSpace (trimSpace s) = trimSpace s := by
  have hhead : (trimSpace s).dropWhile isSpace = trimSpace s := by
    cases htrim : trimSpace s with
    | nil => rfl
    | cons c cs =>
      have hprefix : trimSpace s <+: s.dropWhile isSpace := rdropWhile_prefix ..
      rw [htrim] at hprefix
      obtain ⟨rest, hrest⟩ := hprefix
      refine dropWhile_cons_of_neg ?_
      have hdrop : (c :: (cs ++ rest)).dropWhile isSpace = c :: (cs ++ rest) := by
        rw [← cons_append, hrest, dropWhile_idempotent]
      intro hspace
      have hlen := congrArg length hdrop
      rw [dropWhile_cons_of_pos hspace] at hlen
      have hle := (dropWhile_suffix (l := cs ++ rest) isSpace).length_le
      rw [length_cons] at hlen
      omega
  rw [trimSpace_eq (trimSpace s), hhead, trimSpace_eq s]
  exact rdropWhile_idempotent ..

theorem trimSpace_space (s : List Char) : trimSpace (' ' :: s) = trimSpace s := by
  rw [trimSpace_eq, dropWhile_cons_of_pos (by decide)]
  rfl

/-- Lines have no line end. -/
theorem notMem_of_mem_splitOn {sep : Char} {s l : List Char} (h : l ∈ s.splitOn sep) : sep ∉ l := by
  induction hn : s.length using Nat.strong_induction_on generalizing s with
  | _ n ih =>
    subst hn
    by_cases hsep : sep ∈ s
    · obtain ⟨a, b, rfl⟩ := append_of_mem hsep
      rw [splitOn_append_cons_self] at h
      rw [length_append, length_cons] at ih
      rcases mem_append.mp h with h | h
      · exact ih a.length (by omega) h rfl
      · exact ih b.length (by omega) h rfl
    · rw [splitOn_eq_singleton hsep, mem_singleton] at h
      rw [h]
      exact hsep

end Text

namespace Sudoers

open List

/-- The name of a user: a line of the user database has no line end, and does not
begin with a blank or as a comment. -/
structure UserName where
  text : List Char
  nonempty : text ≠ []
  oneLine : '\n' ∉ text
  visible : ∀ c ∈ text.head?, c ≠ ' ' ∧ c ≠ '\t' ∧ c ≠ '#'

/-- A comment.  A user ID and an `#include` begin with a `#`, too. -/
def isComment : List Char → Bool
  | '#' :: rest => !((rest.head?.any Char.isDigit) || "include".toList.isPrefixOf rest)
  | _ => false

/-- A line that says nothing. -/
def skipped (line : List Char) : Bool :=
  let line := line.dropWhile (fun c => c = ' ' || c = '\t')
  line.isEmpty || isComment line

/-- No unescaped character that ends a command, and no backslash at the end. -/
def single : List Char → Bool
  | [] => true
  | ['\\'] => false
  | '\\' :: _ :: cs => single cs
  | c :: cs => c ≠ ',' && c ≠ ':' && c ≠ '#' && single cs

/-- The beginning of a user specification. -/
def lead (user : List Char) : List Char :=
  user ++ " ALL=(ALL) NOPASSWD:".toList

/-- The command of a line that allows the user one command and nothing else. -/
def command? (user line : List Char) : Option (List Char) :=
  let rest := line.drop (lead user).length
  if (lead user).isPrefixOf line ∧ single rest then some (Text.trimSpace rest) else none

/-- What the lines of a text allow. -/
def grants (user text : List Char) : List (Option (List Char)) :=
  ((text.splitOn '\n').filter (fun line => !skipped line)).map (command? user)

/-- A user specification. -/
def userSpec (user command : List Char) : List Char :=
  lead user ++ ' ' :: command

theorem grants_append (user a b : List Char) :
    grants user (a ++ '\n' :: b) = grants user a ++ grants user b := by
  unfold grants
  rw [splitOn_append_cons_self, filter_append, map_append]

/-- A command that is read has no line end. -/
theorem newline_notMem_of_grants {user text c : List Char} (h : some c ∈ grants user text) :
    '\n' ∉ c := by
  obtain ⟨line, hline, hcommand⟩ := mem_map.mp h
  have hnot := Text.notMem_of_mem_splitOn (mem_of_mem_filter hline)
  unfold command? at hcommand
  dsimp only at hcommand
  split at hcommand <;> cases hcommand
  intro hmem
  refine hnot (mem_of_mem_drop (i := (lead user).length) ?_)
  rw [Text.trimSpace_eq] at hmem
  exact (dropWhile_suffix _).subset (( rdropWhile_prefix ..).subset hmem)

variable {u : UserName}

theorem skipped_userSpec (command : List Char) : skipped (userSpec u.text command) = false := by
  obtain ⟨c, cs, htext⟩ := exists_cons_of_ne_nil u.nonempty
  obtain ⟨hspace, htab, hhash⟩ := u.visible c (by rw [htext]; rfl)
  have hspec : userSpec u.text command =
      c :: (cs ++ (" ALL=(ALL) NOPASSWD:".toList ++ ' ' :: command)) := by
    unfold userSpec lead
    rw [htext, append_assoc]
    rfl
  have hcomment : ∀ rest, isComment (c :: rest) = false := by
    intro rest
    unfold isComment
    split
    · next heq => exact absurd (cons.inj heq).1 hhash
    · rfl
  unfold skipped
  rw [hspec, dropWhile_cons_of_neg (by simp [hspace, htab])]
  dsimp only
  rw [hcomment]
  rfl

theorem newline_notMem_lead (u : UserName) : '\n' ∉ lead u.text := by
  unfold lead
  rw [mem_append, not_or]
  exact ⟨u.oneLine, by decide⟩

theorem single_space (cs : List Char) : single (' ' :: cs) = single cs := by
  rw [single]
  · simp
  · exact fun h => absurd h (by decide)
  · exact fun _ _ h => absurd h (by decide)

/-- **The line of a command** that has no line end. -/
theorem grants_userSpec {command : List Char} (h : '\n' ∉ command) :
    grants u.text (userSpec u.text command) =
      [if single command then some (Text.trimSpace command) else none] := by
  have hline : '\n' ∉ userSpec u.text command := by
    unfold userSpec
    rw [mem_append, mem_cons, not_or, not_or]
    exact ⟨newline_notMem_lead u, by decide, h⟩
  have hlead : (lead u.text).isPrefixOf (userSpec u.text command) = true :=
    isPrefixOf_iff_prefix.mpr (prefix_append _ _)
  have hrest : (userSpec u.text command).drop (lead u.text).length = ' ' :: command :=
    drop_left
  unfold grants
  rw [splitOn_eq_singleton hline, filter_cons_of_pos (by rw [skipped_userSpec]; rfl),
    filter_nil, map_cons, map_nil]
  unfold command?
  dsimp only
  rw [hlead, hrest, single_space, Text.trimSpace_space]
  simp only [true_and]

/-- A command makes at least one line that says something. -/
theorem length_grants_pos (command : List Char) :
    1 ≤ (grants u.text (userSpec u.text command)).length := by
  induction hn : command.length using Nat.strong_induction_on generalizing command with
  | _ n ih =>
    subst hn
    by_cases h : '\n' ∈ command
    · obtain ⟨a, b, rfl⟩ := append_of_mem h
      have hspec : userSpec u.text (a ++ '\n' :: b) = userSpec u.text a ++ '\n' :: b := by
        unfold userSpec
        rw [append_assoc, cons_append]
      have hfirst := ih a.length (by rw [length_append, length_cons]; omega) a rfl
      rw [hspec, grants_append, length_append]
      omega
    · rw [grants_userSpec h]
      exact Nat.le_refl 1

theorem grants_flatMap (cmds : List (List Char)) :
    grants u.text (cmds.flatMap (fun c => userSpec u.text c ++ ['\n'])) =
      cmds.flatMap (fun c => grants u.text (userSpec u.text c)) := by
  induction cmds with
  | nil => rfl
  | cons c cmds ih =>
    rw [flatMap_cons, flatMap_cons, append_assoc, singleton_append, grants_append, ih]

theorem length_le_flatMap {α β : Type*} {g : α → List β} (hg : ∀ a, 1 ≤ (g a).length)
    (l : List α) : l.length ≤ (l.flatMap g).length := by
  induction l with
  | nil => exact Nat.le_refl 0
  | cons a l ih =>
    have ha := hg a
    rw [flatMap_cons, length_append, length_cons]
    omega

/-- If each element gives something and all together give one thing each, each gives
its own. -/
theorem eq_of_flatMap_eq_map {α β : Type*} {g : α → List β} {f : α → β}
    (hg : ∀ a, 1 ≤ (g a).length) {l : List α} (h : l.flatMap g = l.map f) :
    ∀ a ∈ l, g a = [f a] := by
  induction l with
  | nil => exact fun a ha => absurd ha not_mem_nil
  | cons a l ih =>
    rw [flatMap_cons, map_cons] at h
    have hlen := congrArg length h
    rw [length_append, length_cons, length_map] at hlen
    have hone : (g a).length = 1 := by
      have ha := hg a
      have hl := length_le_flatMap hg l
      omega
    obtain ⟨b, hb⟩ := length_eq_one_iff.mp hone
    rw [hb, singleton_append] at h
    obtain ⟨rfl, htail⟩ := cons.inj h
    exact forall_mem_cons.mpr ⟨hb, ih htail⟩

/-- **Lines that allow no more than the texts** they were made of: there are at least
as many lines as texts, so every text has its own, without a line end or an unescaped
special character. -/
theorem singles_of_grants {cmds sub : List (List Char)} (hsub : sub.Sublist cmds)
    (h : grants u.text (cmds.flatMap (fun c => userSpec u.text c ++ ['\n'])) = sub.map some) :
    sub = cmds ∧ ∀ c ∈ cmds, '\n' ∉ c ∧ single c = true := by
  have hpos : ∀ c, 1 ≤ (grants u.text (userSpec u.text c)).length := length_grants_pos
  rw [grants_flatMap] at h
  have hall : sub = cmds := by
    refine hsub.eq_of_length_le ?_
    have hle := length_le_flatMap hpos cmds
    rw [h, length_map] at hle
    exact hle
  subst hall
  refine ⟨rfl, ?_⟩
  intro c hc
  have hown := eq_of_flatMap_eq_map hpos h c hc
  have hmem : some c ∈ grants u.text (userSpec u.text c) := by
    rw [hown]
    exact mem_singleton_self _
  have hline := newline_notMem_of_grants hmem
  refine ⟨hline, ?_⟩
  rw [grants_userSpec hline] at hown
  by_contra hnot
  rw [if_neg hnot] at hown
  cases hown

/-- Lines made of trimmed texts without line ends and unescaped special characters. -/
theorem grants_of_singles {cmds : List (List Char)} (htrim : ∀ c ∈ cmds, Text.trimSpace c = c)
    (h : ∀ c ∈ cmds, '\n' ∉ c ∧ single c = true) :
    grants u.text (cmds.flatMap (fun c => userSpec u.text c ++ ['\n'])) = cmds.map some := by
  rw [grants_flatMap]
  induction cmds with
  | nil => rfl
  | cons c cmds ih =>
    obtain ⟨hline, hsingle⟩ := h c mem_cons_self
    rw [flatMap_cons, map_cons, grants_userSpec hline, if_pos hsingle,
      htrim c mem_cons_self, ih (fun c hc => htrim c (mem_cons_of_mem _ hc))
        (fun c hc => h c (mem_cons_of_mem _ hc))]
    rfl

end Sudoers
