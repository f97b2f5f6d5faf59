import FlintlockRunner.Base.Shell
import Mathlib.Data.List.AList
import Mathlib.Data.List.Sort

/-!
# Command lines for a guest's shell (`transport/ssh.go`, `executor/executor.go`)

An SSH session takes one string, so `commandLine` writes the working directory,
the environment and the arguments of a Command into a line for the guest's shell,
and `makeDirs` writes a line of its own. What is written into them comes from
Jobs and from the configuration. Everything but the names of variables goes
through single quotes, and the shell reads the line as the commands that were
meant, with exactly these words (`command_lines_exact`).

A Go string is a sequence of bytes, and so it is here.
-/

namespace FlintlockRunner

open List

namespace Transport

open Shell (Bytes ascii)

/-- `Command`, as far as a command line is made from it. -/
structure Command where
  path : Bytes
  args : List Bytes
  dir : Bytes
  env : AList fun _ : Bytes => Bytes

/-- `shellQuote`, and the quoting of `relToRoot`. -/
def shellQuote (s : Bytes) : Bytes := Shell.quote s

variable (cmd : Command)

/-- The keys of the environment, by `sort.Strings`. -/
def Command.keys : List Bytes := cmd.env.keys.insertionSort (· ≤ ·)

/-- The value of a key of the environment. -/
def Command.value (k : Bytes) : Bytes := (cmd.env.lookup k).getD []

/-- The directory, the variables, and then the command in place of the shell. -/
def commandLine : Bytes :=
  (if cmd.dir ≠ [] then ascii "cd " ++ shellQuote cmd.dir ++ ascii " && " else [])
  ++ cmd.keys.flatMap (fun k =>
    ascii "export " ++ k ++ ascii "=" ++ shellQuote (cmd.value k) ++ ascii " && ")
  ++ ascii "exec " ++ shellQuote cmd.path
  ++ cmd.args.flatMap fun arg => ascii " " ++ shellQuote arg

end Transport

namespace Executor

open Shell (Bytes ascii)

/-- A directory as a path relative to the root: `strings.TrimLeft` of its
slashes. -/
def relPath (dir : Bytes) : Bytes := ascii "./" ++ dir.dropWhile (· ∈ ascii "/")

def relToRoot (dir : Bytes) : Bytes := Shell.quote (relPath dir)

/-- The script of `makeDirs`. -/
def makeDirsScript (buildsDir cacheDir : Bytes) : Bytes :=
  ascii "mkdir -p -- " ++ relToRoot buildsDir ++ ascii " " ++ relToRoot cacheDir ++ ascii "\n"

end Executor

namespace Transport

open Shell (Bytes ascii Piece Simple)

/-- The strings have no NUL and the keys of the environment are names. -/
structure Command.Valid (cmd : Command) : Prop where
  path : 0 ∉ cmd.path
  args : ∀ arg ∈ cmd.args, 0 ∉ arg
  dir : 0 ∉ cmd.dir
  names : ∀ k ∈ cmd.env, Shell.isName k = true
  values : ∀ k value, cmd.env.lookup k = some value → 0 ∉ value

/-! ## The words of the lines -/

variable (l : Bytes)

/-- A word without a special byte. -/
def plainWord : Bool := l ≠ [] && l.all (Shell.kind · = .plain)

theorem spells_plainWord {l : Bytes} (h : plainWord l = true) :
    Shell.Spells l (Shell.unquoted l) := by
  obtain ⟨hne, hplain⟩ := Bool.and_eq_true_iff.mp h
  exact Shell.spells_plain (of_decide_eq_true hne) fun b hb =>
    of_decide_eq_true (all_eq_true.mp hplain b hb)

/-- A fixed word. -/
def fixedPiece (s : String) (h : plainWord (ascii s) = true) : Piece :=
  ⟨ascii s, Shell.unquoted (ascii s), spells_plainWord h⟩

/-- A quoted string. -/
def quotedPiece (h : 0 ∉ l) : Piece :=
  ⟨shellQuote l, Shell.quoted l, Shell.spells_quote h⟩

/-- A variable and its quoted value. -/
def assignmentPiece (k value : Bytes) (hk : Shell.isName k = true) (h : 0 ∉ value) : Piece where
  bytes := k ++ ascii "=" ++ shellQuote value
  word := Shell.unquoted (k ++ ascii "=") ++ Shell.quoted value
  spells := by
    obtain ⟨hne, hbytes⟩ := Shell.nameByte_of_isName hk
    refine (Shell.spells_plain (List.append_ne_nil_of_left_ne_nil hne _) fun b hb => ?_).append
      (Shell.spells_quote h)
    rcases List.mem_append.mp hb with hb | hb
    · exact Shell.kind_of_nameByte (hbytes b hb)
    · rw [List.mem_singleton.mp hb]
      rfl

@[simp] theorem text_unquoted : Shell.text (Shell.unquoted l) = l := by
  simp [Shell.text, Shell.unquoted, Function.comp_def]

@[simp] theorem text_quoted : Shell.text (Shell.quoted l) = l := by
  simp [Shell.text, Shell.quoted, Function.comp_def]

/-- `cd` to a directory. -/
def cdCommand (dir : Bytes) (h : 0 ∉ dir) : Simple :=
  ⟨fixedPiece "cd" (by decide), [quotedPiece dir h], by decide⟩

/-- `export` of a variable. -/
def exportCommand (k value : Bytes) (hk : Shell.isName k = true) (h : 0 ∉ value) : Simple :=
  ⟨fixedPiece "export" (by decide), [assignmentPiece k value hk h], by decide⟩

variable (path : Bytes) (args : List Bytes)

/-- `exec` of a program. -/
def execCommand (hpath : 0 ∉ path)
    (hargs : ∀ arg ∈ args, 0 ∉ arg) : Simple :=
  ⟨fixedPiece "exec" (by decide), quotedPiece path hpath :: args.pmap quotedPiece hargs, by decide⟩

variable {cmd : Command}

theorem Command.mem_keys {k : Bytes} : k ∈ cmd.keys ↔ k ∈ cmd.env :=
  (perm_insertionSort _ _).mem_iff

theorem Command.Valid.value (h : cmd.Valid) (k : Bytes) : 0 ∉ cmd.value k := by
  unfold Command.value
  cases hk : cmd.env.lookup k with
  | none => exact not_mem_nil
  | some value => exact h.values k value hk

/-- The commands of `commandLine` in front of `exec`. -/
def Command.setup (cmd : Command) (h : cmd.Valid) : List Simple :=
  (if cmd.dir ≠ [] then [cdCommand cmd.dir h.dir] else [])
  ++ cmd.keys.pmap (fun k hk => exportCommand k (cmd.value k) hk (h.value k))
    fun k hk => h.names k (Command.mem_keys.mp hk)

theorem map_pmap_eq {α β γ : Type} {p : α → Prop} {f : ∀ a, p a → β} {g : β → γ} {g' : α → γ}
    {l : List α} (H : ∀ a ∈ l, p a) (hg : ∀ a h, g (f a h) = g' a) :
    (l.pmap f H).map g = l.map g' := by
  rw [map_pmap]
  simp only [hg]
  exact pmap_eq_map H

theorem bytes_cdCommand (dir : Bytes) (h : 0 ∉ dir) :
    (cdCommand dir h).bytes = ascii "cd " ++ shellQuote dir := by
  simp [cdCommand, Simple.bytes, fixedPiece, quotedPiece, ascii]

theorem bytes_exportCommand (k value : Bytes) (hk : Shell.isName k = true) (h : 0 ∉ value) :
    (exportCommand k value hk h).bytes =
      ascii "export " ++ k ++ ascii "=" ++ shellQuote value := by
  simp [exportCommand, Simple.bytes, fixedPiece, assignmentPiece, ascii]

theorem bytes_execCommand (hpath : 0 ∉ path)
    (hargs : ∀ arg ∈ args, 0 ∉ arg) :
    (execCommand path args hpath hargs).bytes =
      ascii "exec " ++ shellQuote path ++ args.flatMap fun arg => ascii " " ++ shellQuote arg := by
  have hwords : (args.pmap quotedPiece hargs).map (fun p => ascii " " ++ p.bytes) =
      args.map fun arg => ascii " " ++ shellQuote arg := map_pmap_eq hargs fun _ _ => rfl
  rw [execCommand, Simple.bytes, flatMap_cons, flatMap_def, hwords]
  simp [fixedPiece, quotedPiece, ascii, flatMap_def]

theorem commandLine_eq (h : cmd.Valid) :
    commandLine cmd = (cmd.setup h).flatMap (fun c => c.bytes ++ ascii " && ") ++
      (execCommand cmd.path cmd.args h.path h.args).bytes := by
  have hexports : (cmd.keys.pmap (fun k hk => exportCommand k (cmd.value k) hk (h.value k))
      fun k hk => h.names k (Command.mem_keys.mp hk)).map (fun c => c.bytes ++ ascii " && ") =
        cmd.keys.map fun k =>
          ascii "export " ++ k ++ ascii "=" ++ shellQuote (cmd.value k) ++ ascii " && " :=
    map_pmap_eq _ fun k hk => by rw [bytes_exportCommand]
  have hcd : (if cmd.dir ≠ [] then [cdCommand cmd.dir h.dir] else []).flatMap
      (fun c => c.bytes ++ ascii " && ") =
        if cmd.dir ≠ [] then ascii "cd " ++ shellQuote cmd.dir ++ ascii " && " else [] := by
    split
    · simp [bytes_cdCommand]
    · rfl
  rw [Command.setup, flatMap_append, hcd, flatMap_def, hexports, bytes_execCommand,
    commandLine, flatMap_def]
  simp only [append_assoc]

theorem words_exportCommand (k value : Bytes) (hk : Shell.isName k = true) (h : 0 ∉ value) :
    (exportCommand k value hk h).words = [ascii "export", k ++ 61 :: value] := by
  have heq : ascii "=" = [61] := rfl
  simp [exportCommand, Simple.words, fixedPiece, assignmentPiece, Shell.text, Shell.unquoted,
    Shell.quoted, Function.comp_def, heq]

theorem words_setup (h : cmd.Valid) :
    (cmd.setup h).map Simple.words =
      (if cmd.dir ≠ [] then [[ascii "cd", cmd.dir]] else []) ++
        cmd.keys.map fun k => [ascii "export", k ++ 61 :: cmd.value k] := by
  have hexports := map_pmap_eq (fun k hk => h.names k (Command.mem_keys.mp hk))
    fun k hk => words_exportCommand k (cmd.value k) hk (h.value k)
  rw [Command.setup, map_append, hexports]
  split
  · simp [cdCommand, Simple.words, fixedPiece, quotedPiece]
  · rfl

theorem words_execCommand (hpath : 0 ∉ path)
    (hargs : ∀ arg ∈ args, 0 ∉ arg) :
    (execCommand path args hpath hargs).words = ascii "exec" :: path :: args := by
  have hwords : (args.pmap quotedPiece hargs).map (fun p => Shell.text p.word) = args.map id :=
    map_pmap_eq hargs fun arg _ => text_quoted arg
  simp only [execCommand, Simple.words, map_cons, hwords]
  simp [fixedPiece, quotedPiece]

theorem parse_commandLine (h : cmd.Valid) :
    Shell.parse (commandLine cmd) =
      some ((if cmd.dir ≠ [] then [[ascii "cd", cmd.dir]] else []) ++
        (cmd.keys.map fun k => [ascii "export", k ++ 61 :: cmd.value k]) ++
        [ascii "exec" :: cmd.path :: cmd.args]) := by
  rw [commandLine_eq h, Shell.parse_chain, map_append, words_setup, map_singleton,
    words_execCommand]

/-! ## `makeDirs` -/

theorem not_mem_relPath {dir : Bytes} (h : 0 ∉ dir) : 0 ∉ Executor.relPath dir := by
  intro hmem
  rcases mem_append.mp hmem with hmem | hmem
  · exact absurd hmem (by decide)
  · exact h ((dropWhile_sublist _).mem hmem)

theorem parse_makeDirsScript {buildsDir cacheDir : Bytes} (hbuilds : 0 ∉ buildsDir)
    (hcache : 0 ∉ cacheDir) :
    Shell.parse (Executor.makeDirsScript buildsDir cacheDir) =
      some [[ascii "mkdir", ascii "-p", ascii "--", Executor.relPath buildsDir,
        Executor.relPath cacheDir]] := by
  let mkdir : Simple :=
    ⟨fixedPiece "mkdir" (by decide),
      [fixedPiece "-p" (by decide), fixedPiece "--" (by decide),
        quotedPiece _ (not_mem_relPath hbuilds), quotedPiece _ (not_mem_relPath hcache)],
      by decide⟩
  have hbytes : Executor.makeDirsScript buildsDir cacheDir = Shell.line mkdir [] ++ ascii "\n" := by
    simp [mkdir, Shell.line, Simple.bytes, fixedPiece, quotedPiece, Executor.makeDirsScript,
      Executor.relToRoot, shellQuote, ascii]
  rw [hbytes, (Shell.parse_line mkdir []).2]
  simp [mkdir, Simple.words, fixedPiece, quotedPiece]

/-! ## Both lines -/

/-- The guest's shell reads a command line as `cd`, one `export` for each variable
in the order of their names, and `exec`, each with exactly the strings of the
Command; and the line of `makeDirs` as one `mkdir` of two directories. -/
theorem command_lines_exact :
    (∀ cmd : Command, cmd.Valid →
      Shell.parse (commandLine cmd) =
          some ((if cmd.dir ≠ [] then [[ascii "cd", cmd.dir]] else []) ++
            (cmd.keys.map fun k => [ascii "export", k ++ 61 :: cmd.value k]) ++
            [ascii "exec" :: cmd.path :: cmd.args]) ∧
        cmd.keys.Perm cmd.env.keys ∧ cmd.keys.Pairwise (· ≤ ·) ∧
        ∀ k value, cmd.env.lookup k = some value →
          Shell.assigned (k ++ 61 :: cmd.value k) = (k, value)) ∧
    ∀ buildsDir cacheDir : Bytes, 0 ∉ buildsDir → 0 ∉ cacheDir →
      Shell.parse (Executor.makeDirsScript buildsDir cacheDir) =
        some [[ascii "mkdir", ascii "-p", ascii "--",
          ascii "./" ++ buildsDir.dropWhile (· ∈ ascii "/"),
          ascii "./" ++ cacheDir.dropWhile (· ∈ ascii "/")]] := by
  refine ⟨fun cmd h => ⟨parse_commandLine h, perm_insertionSort _ _,
    pairwise_insertionSort _ _, fun k value hk => ?_⟩,
    fun _ _ hbuilds hcache => parse_makeDirsScript hbuilds hcache⟩
  have hname := h.names k (AList.lookup_isSome.mp (Option.isSome_of_eq_some hk))
  rw [Shell.assigned_append (Shell.nameByte_of_isName hname).2, Command.value, hk,
    Option.getD_some]

/-- A Command made to break out of its line. -/
def hostileCommand : Command where
  path := ascii "/bin/sh"
  args := [ascii "-c", [], ascii "it's; $(reboot) `id` > /etc/passwd\n&& halt"]
  dir := ascii "/builds/a b'"
  env := AList.singleton (ascii "KEY") (ascii "'; rm -rf /; '")

theorem hostileCommand_valid : hostileCommand.Valid := by
  refine ⟨by decide, by decide, by decide, fun k hk => ?_, fun k value hk => ?_⟩
  · have hkey : k ∈ hostileCommand.env.keys := hk
    rw [mem_singleton.mp hkey]
    decide
  · have hentry : ⟨k, value⟩ ∈ hostileCommand.env.entries := AList.mem_lookup_iff.mp hk
    cases mem_singleton.mp hentry
    decide

theorem command_lines_exact_hostile :
    Shell.parse (commandLine hostileCommand) =
        some ([[ascii "cd", hostileCommand.dir],
          [ascii "export", ascii "KEY='; rm -rf /; '"]] ++
          [ascii "exec" :: hostileCommand.path :: hostileCommand.args]) ∧
      Shell.parse (Executor.makeDirsScript (ascii "/b'; halt") (ascii "//c d")) =
        some [[ascii "mkdir", ascii "-p", ascii "--", ascii "./b'; halt", ascii "./c d"]] :=
  ⟨(command_lines_exact.1 hostileCommand hostileCommand_valid).1,
    command_lines_exact.2 _ _ (by decide) (by decide)⟩

end Transport

end FlintlockRunner
