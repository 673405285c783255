import FlagScale.Runner.Pool
import FlagScale.Posix.Test

/-!
# How the shell reads the generated scripts

`generate_run_script` and `generate_stop_script` paste the configuration's paths, the
package directory and the command into the script text with no quoting.  Read by the shell
(`Posix.Shell`), the scripts mean what they were built to mean when

* the paths of the configuration, the package directory and the host are *plain* words
  (letters, digits and `/._-+,:@%=`), so every path built from them is one too,
* the command has no `"`, `\`, `$`, backquote or NUL (which the shell drops), and
* `before_start` and `after_stop` are complete lines: read from the start of a command,
  they end at the start of a command.

Then each line of the run script reads as the words written into it (`runScript_reads`),
`cmd="..."` assigns the command itself, and the stop script tests and reads the pid file as
one word (`stopScript_reads`), so its `if` runs `pkill -P $pid` exactly when the pid file is
a regular file (`stopScript_if`).  Once the run script's `echo $! > pid` has written that file,
the stop script takes this branch when the pid directory is absolute or it runs in the
directory the run script wrote from, `pkg_dir` after the `cd` (`stopScript_if_recorded`).

A command with a `"` assigns something else, and a pid directory with a blank in it makes
`[ -f ... ]` a usage error, which sends the stop script to `pkill -f 'python'` although the
pid file exists; so does a relative pid directory read from another working directory.
-/

namespace FlagScale
namespace Runner

open Python Posix Lexer

/-- The strings the scripts embed as words are plain. -/
structure PlainPaths (c : ScriptConfig) (pkgDir host : String) : Prop where
  saveDir : isPlain c.saveDir = true
  logDir : isPlain c.logDir = true
  pidsDir : isPlain c.pidsDir = true
  tensorboardDir : isPlain c.tensorboardDir = true
  wandbSaveDir : isPlain c.wandbSaveDir = true
  pkgDir : isPlain pkgDir = true
  host : isPlain host = true

/-- A line of plain words. -/
def line (ws : List String) : List Token := ws.map Token.plain ++ [.newline]

/-- What the shell reads in the line that runs the command. -/
def launchTokens (c : ScriptConfig) (host : String) (r : Int) (background withTest : Bool) :
    List Token :=
  let run := [Token.plain "bash", Token.plain "-c", .word (.param "cmd" true :: lits "; sync" true)]
  let redirect := [.op ">>", Token.plain (hostOutputFile c host r), .word [.lit '2' false], .op ">&",
    .word [.lit '1' false]]
  if withTest then run ++ [.newline]
  else if background then
    Token.plain "nohup" :: run ++ redirect ++
      [.op "&", Token.plain "echo", .word [.param "!" false], .op ">", Token.plain (hostPidFile c host r),
        .newline]
  else run ++ redirect ++ [.newline]

/-- What the shell reads in the run script, line by line; `bs` is what it reads in the
`before_start` line. -/
def runTokens (c : ScriptConfig) (pkgDir host : String) (r : Int) (cmd : String)
    (background withTest : Bool) (bs : List Token) : List Token :=
  [[.newline, .newline], bs,
    line ["mkdir", "-p", c.saveDir], line ["mkdir", "-p", c.logDir], line ["mkdir", "-p", c.pidsDir],
    line ["mkdir", "-p", c.tensorboardDir], line ["mkdir", "-p", c.wandbSaveDir], [.newline],
    line ["cd", pkgDir], [.newline],
    line ["export", "PYTHONPATH=" ++ pathJoin (pathJoin pkgDir "flagscale") "compress" ++ ":" ++
      pathJoin (pathJoin pkgDir "flagscale") "train" ++ ":" ++ pkgDir], [.newline],
    [.word (lits "cmd=" false ++ lits cmd true), .newline], [.newline],
    launchTokens c host r background withTest, [.newline]].flatten

/-- The `then` branch of the stop script as the shell reads it. -/
def stopThen (pid : String) : List Token :=
  [.newline, .word (lits "pid=" false ++ [.expansion ("$(cat " ++ pid ++ ")") false]), .newline,
    Token.plain "pkill", Token.plain "-P", .word [.param "pid" false], .newline]

/-- The `else` branch of the stop script as the shell reads it. -/
def stopElse : List Token :=
  [.newline, Token.plain "pkill", Token.plain "-f", .word (lits "python" true), .newline]

/-- What the shell reads in the stop script, line by line; `as` is what it reads in the
`after_stop` line. -/
def stopTokens (pid : String) (as : List Token) : List Token :=
  [[.newline, .newline],
    [Token.plain "if", Token.plain "[", Token.plain "-f", Token.plain pid, Token.plain "]", .op ";",
      Token.plain "then", .newline],
    [.word (lits "pid=" false ++ [.expansion ("$(cat " ++ pid ++ ")") false]), .newline],
    [Token.plain "pkill", Token.plain "-P", .word [.param "pid" false], .newline],
    line ["else"], [Token.plain "pkill", Token.plain "-f", .word (lits "python" true), .newline],
    line ["fi"], as].flatten

/-! ## Plain paths -/

section Plain

variable {c : ScriptConfig} {pkgDir host : String} (hp : PlainPaths c pkgDir host)
include hp

theorem isPlain_hostFile {dir suffix : String} (hdir : isPlain dir = true)
    (hs : ∀ ch ∈ suffix.data, isPlainChar ch = true) (r : Int) :
    isPlain (hostFile dir r host suffix) = true := by
  refine isPlain_pathJoin hdir (isPlain_append (isPlain_append (isPlain_append ?_ ?_) ?_) hs)
  · exact isPlain_append (by decide) fun ch hch => by
      rcases isDigit_or_minus_of_mem_pyStr hch with h | rfl
      · simp [isPlainChar, Char.isAlphanum, h]
      · rfl
  · decide
  · exact (isPlain_iff.mp hp.host).2

theorem isPlain_hostPidFile (r : Int) : isPlain (hostPidFile c host r) = true :=
  isPlain_hostFile hp hp.pidsDir (by decide) r

theorem isPlain_hostOutputFile (r : Int) : isPlain (hostOutputFile c host r) = true := by
  unfold hostOutputFile
  split
  · exact isPlain_pathJoin hp.logDir (by decide)
  · exact isPlain_hostFile hp hp.logDir (by decide) r

theorem isPlain_pythonPath :
    isPlain ("PYTHONPATH=" ++ pathJoin (pathJoin pkgDir "flagscale") "compress" ++ ":" ++
      pathJoin (pathJoin pkgDir "flagscale") "train" ++ ":" ++ pkgDir) = true := by
  have hfs := isPlain_pathJoin hp.pkgDir (b := "flagscale") (by decide)
  have all := fun {w : String} (h : isPlain w = true) => (isPlain_iff.mp h).2
  refine isPlain_append (isPlain_append (isPlain_append (isPlain_append ?_ (by decide)) ?_) (by decide))
    (all hp.pkgDir)
  · exact isPlain_append (by decide) (all (isPlain_pathJoin hfs (by decide)))
  · exact all (isPlain_pathJoin hfs (by decide))

end Plain

/-! ## The run script -/

section Launch

variable {out pid : String}

/-- The command between `bash -c` and the redirections. -/
theorem reads_bashCmd : Reads init "bash -c \"$cmd; sync\" >> ".data init
    [Token.plain "bash", Token.plain "-c", .word (.param "cmd" true :: lits "; sync" true), .op ">>"] := rfl

theorem reads_redirectTail (ps : List Piece) : Reads (inWord ps) " 2>&1 & echo $! > ".data init
    [.word ps, .word [.lit '2' false], .op ">&", .word [.lit '1' false], .op "&", Token.plain "echo",
      .word [.param "!" false], .op ">"] := rfl

theorem reads_nohupLine (hout : isPlain out = true) (hpid : isPlain pid = true) :
    Reads init ("nohup bash -c \"$cmd; sync\" >> " ++ out ++ " 2>&1 & echo $! > " ++ pid ++ "\n").data init
      [Token.plain "nohup", Token.plain "bash", Token.plain "-c", .word (.param "cmd" true :: lits "; sync" true),
        .op ">>", Token.plain out, .word [.lit '2' false], .op ">&", .word [.lit '1' false], .op "&",
        Token.plain "echo", .word [.param "!" false], .op ">", Token.plain pid, .newline] := by
  simp only [String.data_append, List.append_assoc]
  exact ((show Reads init "nohup ".data init [Token.plain "nohup"] from rfl).append reads_bashCmd).append
    ((reads_plainWord hout).append ((reads_redirectTail _).append (reads_plainWord_newline hpid)))

theorem reads_foregroundLine (hout : isPlain out = true) :
    Reads init ("bash -c \"$cmd; sync\" >> " ++ out ++ " 2>&1\n").data init
      [Token.plain "bash", Token.plain "-c", .word (.param "cmd" true :: lits "; sync" true), .op ">>",
        Token.plain out, .word [.lit '2' false], .op ">&", .word [.lit '1' false], .newline] := by
  simp only [String.data_append, List.append_assoc]
  exact reads_bashCmd.append ((reads_plainWord hout).append
    (show Reads (inWord (lits out false)) " 2>&1\n".data init
      [Token.plain out, .word [.lit '2' false], .op ">&", .word [.lit '1' false], .newline] from rfl))

end Launch

theorem reads_launch {c : ScriptConfig} {pkgDir host : String} (hp : PlainPaths c pkgDir host) (r : Int)
    (background withTest : Bool) :
    Reads init (if withTest then "bash -c \"$cmd; sync\" \n"
      else if background then
        "nohup bash -c \"$cmd; sync\" >> " ++ hostOutputFile c host r ++
          " 2>&1 & echo $! > " ++ hostPidFile c host r ++ "\n"
      else "bash -c \"$cmd; sync\" >> " ++ hostOutputFile c host r ++ " 2>&1\n").data init
      (launchTokens c host r background withTest) := by
  cases withTest
  · cases background
    · exact reads_foregroundLine (isPlain_hostOutputFile hp r)
    · exact reads_nohupLine (isPlain_hostOutputFile hp r) (isPlain_hostPidFile hp r)
  · rfl

/-- The run script reads as the words written into it, line by line. -/
theorem runScript_reads {c : ScriptConfig} {pkgDir host : String} {cmd : String} {bs : List Token}
    (hp : PlainPaths c pkgDir host) (hcmd : ∀ ch ∈ cmd.data, isDqChar ch = true)
    (hbefore : Reads init (cmdsEntry c "before_start" ++ "\n").data init bs) (r : Int)
    (background withTest : Bool) :
    Reads init (runScript c pkgDir host r cmd background withTest).data init
      (runTokens c pkgDir host r cmd background withTest bs) := by
  have mkdir := fun {w : String} (hw : isPlain w = true) =>
    Reads.plainLine (show Reads init "mkdir -p ".data init [Token.plain "mkdir", Token.plain "-p"] from rfl) hw
  refine reads_join (.cons rfl (.cons hbefore (.cons (mkdir hp.saveDir) (.cons (mkdir hp.logDir)
    (.cons (mkdir hp.pidsDir) (.cons (mkdir hp.tensorboardDir) (.cons (mkdir hp.wandbSaveDir)
    (.cons rfl (.cons (Reads.plainLine (show Reads init "cd ".data init [Token.plain "cd"] from rfl) hp.pkgDir)
    (.cons rfl (.cons (Reads.plainLine (show Reads init "export ".data init [Token.plain "export"] from rfl)
      (isPlain_pythonPath hp)) (.cons rfl (.cons ?_ (.cons rfl
    (.cons (reads_launch hp r background withTest) (.cons rfl .nil))))))))))))))))
  exact (show Reads init "cmd=\"".data (inDquote (lits "cmd=" false)) [] from rfl).append
    ((reads_dqChars _ hcmd).append (show Reads (inDquote _) "\"\n".data init _ from rfl))

/-! ## The stop script -/

theorem stopScript_reads {c : ScriptConfig} {host : String} {r : Int} {as : List Token}
    (hpid : isPlain (hostPidFile c host r) = true)
    (hafter : Reads init (cmdsEntry c "after_stop" ++ "\n").data init as) :
    Reads init (stopScript c host r).data init (stopTokens (hostPidFile c host r) as) := by
  exact reads_join (.cons rfl
    (.cons ((show Reads init "if [ -f ".data init _ from rfl).append ((reads_plainWord hpid).append
      (show Reads (inWord _) " ]; then\n".data init _ from rfl)))
    (.cons ((show Reads init "    pid=$(cat ".data (inSubst (lits "pid=" false) "$(cat ".data) [] from rfl).append
      ((reads_subst_plainChars _ _ (isPlain_iff.mp hpid).2).append ((reads_subst_close _ _).append
        (reads_inWord_newline _))))
    (.cons rfl (.cons rfl (.cons rfl (.cons rfl (.cons hafter .nil))))))))

/-! ## The stop script's `if` -/

section If

variable (pid : String)

theorem splitAt_stopCondition (rest : List Token) :
    splitAt ["then"] 0 true (Token.plain "[" :: Token.plain "-f" :: Token.plain pid :: Token.plain "]" ::
      .op ";" :: Token.plain "then" :: rest) =
      some ([Token.plain "[", Token.plain "-f", Token.plain pid, Token.plain "]", .op ";"], "then", rest) := rfl

theorem splitAt_stopThen (rest : List Token) :
    splitAt ["else", "elif", "fi"] 0 true (stopThen pid ++ Token.plain "else" :: rest) =
      some (stopThen pid, "else", rest) := rfl

theorem splitAt_stopElse (rest : List Token) :
    splitAt ["fi"] 0 true (stopElse ++ Token.plain "fi" :: rest) = some (stopElse, "fi", rest) := rfl

theorem simpleCommand_stopCondition :
    simpleCommand [Token.plain "[", Token.plain "-f", Token.plain pid, Token.plain "]", .op ";"] =
      some ["[", "-f", pid, "]"] := by
  simp [simpleCommand]

/-- The stop script's `if` runs its `then` branch exactly when `[ -f pid ]` has status 0. -/
theorem ifStatement_stopTokens (status : List String → Nat) (as : List Token) :
    ifStatement status ((stopTokens pid as).drop 2) =
      some (if status ["[", "-f", pid, "]"] = 0 then stopThen pid else stopElse, .newline :: as) := by
  have e : (stopTokens pid as).drop 2 = Token.plain "if" :: Token.plain "[" :: Token.plain "-f" ::
      Token.plain pid :: Token.plain "]" :: .op ";" :: Token.plain "then" ::
        (stopThen pid ++ Token.plain "else" :: (stopElse ++ Token.plain "fi" :: .newline :: as)) := by
    simp [stopTokens, stopThen, stopElse, line]
  rw [e]
  simp [ifStatement, splitAt_stopCondition, simpleCommand_stopCondition, splitAt_stopThen, splitAt_stopElse]

/-- With `[` run as `bracket d`, the `if` runs `pkill -P $pid` exactly when the pid file is a
regular file. -/
theorem stopScript_if (d : Disk) {status : List String → Nat}
    (hs : ∀ args, status ("[" :: args) = bracket d args) (as : List Token) :
    ifStatement status ((stopTokens pid as).drop 2) =
      some (if d.isFile (d.locate pid) then stopThen pid else stopElse, .newline :: as) := by
  simp [ifStatement_stopTokens, hs, bracket_file]

/-- Once the run script's `echo $! > pid` has written the pid file on a disk `d`, the stop
script run from `cwd` finds that file, when the pid directory is absolute or `cwd` is the
directory the run script wrote from (`pkg_dir`, after its `cd`): its `if` runs
`pkill -P $pid`. -/
theorem stopScript_if_recorded {c : ScriptConfig} {host : String} {r : Int} {d d' : Disk} {pid : String}
    (hw : d.write (hostPidFile c host r) pid = some d') {cwd : List String}
    (hcwd : startsWith c.pidsDir "/" = true ∨ cwd = d.cwd) {status : List String → Nat}
    (hs : ∀ args, status ("[" :: args) = bracket { d' with cwd := cwd } args) (as : List Token) :
    ifStatement status ((stopTokens (hostPidFile c host r) as).drop 2) =
      some (stopThen (hostPidFile c host r), .newline :: as) := by
  obtain ⟨hcwd', hfile⟩ := Disk.write_spec hw
  have hloc : { d' with cwd := cwd }.locate (hostPidFile c host r) = d'.locate (hostPidFile c host r) := by
    rcases hcwd with habs | rfl
    · exact Disk.locate_cwd (startsWith_slash_pathJoin habs (not_startsWith_slash_hostFileName r host _)) cwd
    · rw [← hcwd']
  have hfile' : { d' with cwd := cwd }.isFile (d'.locate (hostPidFile c host r)) = true := hfile
  simp [stopScript_if _ _ hs, hloc, hfile']

end If

/-- For every configuration, host entry and command such that the paths are plain words, the
command has no `"`, `\`, `$`, backquote or NUL, and `before_start` and `after_stop` are complete
lines: the run script reads as the words written into it, each path one word; `cmd="..."`
assigns the command; the stop script reads the pid file as one word in `[ -f ... ]` and in
`$(cat ...)`; its `if` runs `pkill -P $pid` exactly when the pid file is a regular file; and
once the run script has written the pid file, the stop script takes that branch when the pid
directory is absolute or it runs where the run script wrote the pid. -/
theorem scripts_read_as_generated (c : ScriptConfig) (pkgDir host : String) (r : Int) (cmd : String)
    {bs as : List Token} (hp : PlainPaths c pkgDir host) (hcmd : ∀ ch ∈ cmd.data, isDqChar ch = true)
    (hbefore : Reads init (cmdsEntry c "before_start" ++ "\n").data init bs)
    (hafter : Reads init (cmdsEntry c "after_stop" ++ "\n").data init as) :
    (∀ background withTest, Reads init (runScript c pkgDir host r cmd background withTest).data init
      (runTokens c pkgDir host r cmd background withTest bs)) ∧
    assignment (lits "cmd=" false ++ lits cmd true) = some ("cmd", cmd) ∧
    Reads init (stopScript c host r).data init (stopTokens (hostPidFile c host r) as) ∧
    (∀ (d : Disk) (status : List String → Nat), (∀ args, status ("[" :: args) = bracket d args) →
      ifStatement status ((stopTokens (hostPidFile c host r) as).drop 2) =
        some (if d.isFile (d.locate (hostPidFile c host r)) then stopThen (hostPidFile c host r)
          else stopElse, .newline :: as)) ∧
    ∀ (d d' : Disk) (pid : String) (cwd : List String) (status : List String → Nat),
      d.write (hostPidFile c host r) pid = some d' → (startsWith c.pidsDir "/" = true ∨ cwd = d.cwd) →
      (∀ args, status ("[" :: args) = bracket { d' with cwd := cwd } args) →
      ifStatement status ((stopTokens (hostPidFile c host r) as).drop 2) =
        some (stopThen (hostPidFile c host r), .newline :: as) :=
  ⟨runScript_reads hp hcmd hbefore r, @assignment_lits "cmd" (by decide) cmd true,
    stopScript_reads (isPlain_hostPidFile hp r) hafter, fun d _ hs => stopScript_if _ d hs as,
    fun _ _ _ _ _ hw hcwd hs => stopScript_if_recorded hw hcwd hs as⟩

theorem scripts_read_as_generated_outConfig :
    PlainPaths outConfig "/pkg" "h" ∧
      Reads init (runScript outConfig "/pkg" "h" 0 "train" true false).data init
        (runTokens outConfig "/pkg" "h" 0 "train" true false [.newline]) :=
  have hp : PlainPaths outConfig "/pkg" "h" :=
    ⟨by decide, by decide, by decide, by decide, by decide, by decide, by decide⟩
  ⟨hp, (@scripts_read_as_generated outConfig "/pkg" "h" 0 "train" [.newline] [.newline] hp (by decide) rfl
    rfl).1 true false⟩

/-- `outConfig` with a blank in the pid directory. -/
def spaceConfig : ScriptConfig := { outConfig with pidsDir := "/out/run logs/pids" }

/-- A disk on which the background run script of `(0, h)` has recorded its pid. -/
def pidDisk : Disk :=
  ⟨[], 0o022, fun k =>
    if k = ["out", "run logs", "pids", "host_0_h.pid"] then some (.file "4242\n" 0o644)
    else if k ∈ [[], ["out"], ["out", "run logs"], ["out", "run logs", "pids"]] then some .dir
    else none⟩

/-- `outConfig` with the relative pid directory `pids`. -/
def relConfig : ScriptConfig := { outConfig with pidsDir := "pids" }

/-- The disk the run script writes its pid on, after its `cd /pkg`. -/
def pkgDisk : Disk :=
  ⟨["pkg"], 0o022, fun k => if k ∈ [[], ["pkg"], ["pkg", "pids"]] then some .dir else none⟩

/-- A command with a `"` is not what `cmd="..."` assigns: `echo "hi"` becomes `echo hi`.  With
a blank in the pid directory, the stop script's `[ -f ... ]` gets three operands and fails,
so its `if` runs `pkill -f 'python'` although the pid file is a regular file.  And with the
relative pid directory `pids`, the run script records its pid in `/pkg/pids` after its
`cd /pkg`, while the stop script run from `/` tests `/pids` and takes the same fallback. -/
theorem scripts_quote_and_space :
    Token.word (lits "cmd=" false ++ lits "echo " true ++ lits "hi" false) ∈
        (lex (runScript outConfig "/pkg" "h" 0 "echo \"hi\"" true false)).2 ∧
      assignment (lits "cmd=" false ++ lits "echo " true ++ lits "hi" false) = some ("cmd", "echo hi") ∧
    pidDisk.isFile (pidDisk.locate (hostPidFile spaceConfig "h" 0)) = true ∧
      ifStatement (fun ws => match ws with
          | "[" :: args => bracket pidDisk args
          | _ => 0)
        ((lex (stopScript spaceConfig "h" 0)).2.drop 2) = some (stopElse, [.newline, .newline]) ∧
    (pkgDisk.write (hostPidFile relConfig "h" 0) "4242\n").map (fun d' =>
      ifStatement (fun ws => match ws with
          | "[" :: args => bracket { d' with cwd := [] } args
          | _ => 0)
        ((lex (stopScript relConfig "h" 0)).2.drop 2)) = some (some (stopElse, [.newline, .newline])) :=
  ⟨by decide, rfl, rfl, rfl, rfl⟩

end Runner
end FlagScale
