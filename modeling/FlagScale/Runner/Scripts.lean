import FlagScale.Posix.Disk
import FlagScale.Python.Dict

/-!
# `generate_run_script` and `generate_stop_script`

The compress backend gives every host entry `(node_rank, host)` four files, all named
`host_{node_rank}_{host}` plus a suffix: the run and stop scripts in `scripts_dir`, the
pid file in `pids_dir` and the output file in `log_dir` (one shared `host.output` when
`no_shared_fs` is set).  The four functions are one definition, `hostFile`, applied to
each file's directory and suffix.

`hostFileName_injective` and `artifactName_ne` are why the names never collide: `str(int)`
has no `_`, so the rank and the host split apart at the first `_` after `host_`, and no
suffix ends another.  The one exception is the output file under `no_shared_fs`, one
`host.output` for every host.  `isName_artifactName` makes each name a single path part
when the host has no `/`.
-/

namespace FlagScale
namespace Runner

open Python Posix

/-- The fields of the configuration the two generators read: `compress.system.save_dir`,
the five directories of `compress.system.logging`, `experiment.runner.no_shared_fs`
(false when absent) and `experiment.cmds` (empty when absent). -/
structure ScriptConfig where
  saveDir : String
  logDir : String
  scriptsDir : String
  pidsDir : String
  tensorboardDir : String
  wandbSaveDir : String
  noSharedFs : Bool
  cmds : PyDict String String

/-- `f"host_{node_rank}_{host}{suffix}"`. -/
def hostFileName (nodeRank : Int) (host suffix : String) : String :=
  "host_" ++ pyStr nodeRank ++ "_" ++ host ++ suffix

/-- `os.path.join(dir, f"host_{node_rank}_{host}{suffix}")`. -/
def hostFile (dir : String) (nodeRank : Int) (host suffix : String) : String :=
  pathJoin dir (hostFileName nodeRank host suffix)

variable (c : ScriptConfig)

def hostRunScriptFile (host : String) (nodeRank : Int) : String :=
  hostFile c.scriptsDir nodeRank host "_run.sh"

def hostStopScriptFile (host : String) (nodeRank : Int) : String :=
  hostFile c.scriptsDir nodeRank host "_stop.sh"

def hostPidFile (host : String) (nodeRank : Int) : String :=
  hostFile c.pidsDir nodeRank host ".pid"

/-- With `no_shared_fs` every host appends to one `host.output`. -/
def hostOutputFile (host : String) (nodeRank : Int) : String :=
  if c.noSharedFs then pathJoin c.logDir "host.output"
  else hostFile c.logDir nodeRank host ".output"

/-- `cmds_config.get(key, "")` when `cmds_config` is set, else `""`. -/
def cmdsEntry (key : String) : String := (c.cmds.get? key).getD ""

/-- What `generate_run_script` writes, one list element per `f.write`. -/
def runScript (pkgDir host : String) (nodeRank : Int) (cmd : String) (background withTest : Bool) :
    String :=
  let compressDir := pathJoin (pathJoin pkgDir "flagscale") "compress"
  let megatronDir := pathJoin (pathJoin pkgDir "flagscale") "train"
  String.join
    ["#!/bin/bash\n\n",
     cmdsEntry c "before_start" ++ "\n",
     "mkdir -p " ++ c.saveDir ++ "\n",
     "mkdir -p " ++ c.logDir ++ "\n",
     "mkdir -p " ++ c.pidsDir ++ "\n",
     "mkdir -p " ++ c.tensorboardDir ++ "\n",
     "mkdir -p " ++ c.wandbSaveDir ++ "\n",
     "\n",
     "cd " ++ pkgDir ++ "\n",
     "\n",
     "export PYTHONPATH=" ++ compressDir ++ ":" ++ megatronDir ++ ":" ++ pkgDir ++ "\n",
     "\n",
     "cmd=\"" ++ cmd ++ "\"\n",
     "\n",
     if withTest then "bash -c \"$cmd; sync\" \n"
     else if background then
       "nohup bash -c \"$cmd; sync\" >> " ++ hostOutputFile c host nodeRank ++
         " 2>&1 & echo $! > " ++ hostPidFile c host nodeRank ++ "\n"
     else "bash -c \"$cmd; sync\" >> " ++ hostOutputFile c host nodeRank ++ " 2>&1\n",
     "\n"]

/-- What `generate_stop_script` writes, one list element per `f.write`. -/
def stopScript (host : String) (nodeRank : Int) : String :=
  String.join
    ["#!/bin/bash\n\n",
     "if [ -f " ++ hostPidFile c host nodeRank ++ " ]; then\n",
     "    pid=$(cat " ++ hostPidFile c host nodeRank ++ ")\n",
     "    pkill -P $pid\n",
     "else\n",
     "    pkill -f 'python'\n",
     "fi\n",
     cmdsEntry c "after_stop" ++ "\n"]

/-- `generate_run_script`: the disk afterwards and the script's path; `pkgDir` is
`get_pkg_dir()`. -/
def generateRunScript (pkgDir host : String) (nodeRank : Int) (cmd : String)
    (background withTest : Bool) (d : Disk) : Option (Disk × String) :=
  (d.writeScript c.scriptsDir (hostRunScriptFile c host nodeRank)
    (runScript c pkgDir host nodeRank cmd background withTest)).map
      (·, hostRunScriptFile c host nodeRank)

/-- `generate_stop_script`: the disk afterwards and the script's path. -/
def generateStopScript (host : String) (nodeRank : Int) (d : Disk) : Option (Disk × String) :=
  (d.writeScript c.scriptsDir (hostStopScriptFile c host nodeRank) (stopScript c host nodeRank)).map
    (·, hostStopScriptFile c host nodeRank)

/-! ## The four artifacts -/

/-- The files named after a host entry. -/
inductive Artifact where
  | run | stop | pid | output
  deriving DecidableEq

/-- The directory each artifact is joined to. -/
def Artifact.dir : Artifact → String
  | .run | .stop => c.scriptsDir
  | .pid => c.pidsDir
  | .output => c.logDir

def Artifact.suffix : Artifact → String
  | .run => "_run.sh"
  | .stop => "_stop.sh"
  | .pid => ".pid"
  | .output => ".output"

/-- The path each generator derives for an artifact. -/
def artifactPath : Artifact → String → Int → String
  | .run => hostRunScriptFile c
  | .stop => hostStopScriptFile c
  | .pid => hostPidFile c
  | .output => hostOutputFile c

/-- The name an artifact gets in its directory: the host file name, or the one
`host.output` that `no_shared_fs` gives every host. -/
def artifactName (a : Artifact) (host : String) (nodeRank : Int) : String :=
  if a = .output ∧ c.noSharedFs then "host.output" else hostFileName nodeRank host a.suffix

variable {c}

theorem artifactPath_eq_pathJoin (a : Artifact) (host : String) (nodeRank : Int) :
    artifactPath c a host nodeRank = pathJoin (a.dir c) (artifactName c a host nodeRank) := by
  cases a <;> simp [artifactPath, artifactName, hostRunScriptFile, hostStopScriptFile, hostPidFile,
    hostOutputFile, hostFile, Artifact.dir, Artifact.suffix]
  exact (apply_ite (pathJoin c.logDir) _ _ _).symm

/-- No suffix ends another. -/
theorem suffix_not_isSuffix : ∀ a b : Artifact, a ≠ b → ¬ a.suffix.data <:+ b.suffix.data := by
  intro a b
  rw [← List.isSuffixOf_iff_suffix.not]
  cases a <;> cases b <;> decide

/-! ## Names -/

theorem hostFileName_data (nodeRank : Int) (host suffix : String) :
    (hostFileName nodeRank host suffix).data =
      "host_".data ++ (pyStr nodeRank).data ++ '_' :: (host.data ++ suffix.data) := by
  simp [hostFileName, String.data_append]

/-- Rank and host are read back from a name with a given suffix. -/
theorem hostFileName_injective {r r' : Int} {h h' s : String}
    (he : hostFileName r h s = hostFileName r' h' s) : r = r' ∧ h = h' := by
  have hd := congrArg String.data he
  rw [hostFileName_data, hostFileName_data, List.append_assoc, List.append_assoc] at hd
  obtain ⟨hr, hh⟩ := append_sep_cancel (underscore_not_mem_pyStr r) (underscore_not_mem_pyStr r')
    (List.append_cancel_left hd)
  exact ⟨pyStr_injective (String.ext hr), String.ext (List.append_cancel_right hh)⟩

theorem not_startsWith_slash_hostFileName (r : Int) (h s : String) :
    startsWith (hostFileName r h s) "/" = false := by
  simp [startsWith, hostFileName_data, List.isPrefixOf]

theorem suffix_hostFileName (r : Int) (h s : String) : s.data <:+ (hostFileName r h s).data :=
  ⟨_, (String.data_append _ s).symm⟩

/-- Two strings ending in the suffixes of different artifacts differ. -/
theorem ne_of_suffix {a b : Artifact} (hab : a ≠ b) {x y : String} (hx : a.suffix.data <:+ x.data)
    (hy : b.suffix.data <:+ y.data) : x ≠ y := fun he => by
  rw [he] at hx
  rcases List.suffix_or_suffix_of_suffix hx hy with h₁ | h₁
  · exact suffix_not_isSuffix a b hab h₁
  · exact suffix_not_isSuffix b a (Ne.symm hab) h₁

/-- Names of different artifacts or different host entries differ. -/
theorem hostFileName_ne {a b : Artifact} {r r' : Int} {h h' : String}
    (hne : (a, r, h) ≠ (b, r', h')) : hostFileName r h a.suffix ≠ hostFileName r' h' b.suffix := by
  by_cases hab : a = b
  · subst hab
    intro he
    obtain ⟨rfl, rfl⟩ := hostFileName_injective he
    exact hne rfl
  · exact ne_of_suffix hab (suffix_hostFileName r h _) (suffix_hostFileName r' h' _)

/-- A host with no `/` gives a file name that is a single path part. -/
theorem isName_hostFileName (r : Int) {h s : String} (hh : '/' ∉ h.data) (hs : '/' ∉ s.data) :
    isName (hostFileName r h s) = true := by
  refine isName_iff.mpr ⟨?_, ?_, ?_, ?_⟩ <;>
    try (intro he; have := congrArg String.data he; simp [hostFileName_data] at this)
  simp [hostFileName_data, slash_not_mem_pyStr, hh, hs]

/-! ## Artifact names -/

theorem suffix_artifactName (a : Artifact) (h : String) (r : Int) :
    a.suffix.data <:+ (artifactName c a h r).data := by
  unfold artifactName
  split
  · rename_i ha
    obtain ⟨rfl, -⟩ := ha
    exact ⟨"host".data, rfl⟩
  · exact suffix_hostFileName r h a.suffix

theorem not_startsWith_slash_artifactName (a : Artifact) (h : String) (r : Int) :
    startsWith (artifactName c a h r) "/" = false := by
  unfold artifactName
  split
  · rfl
  · exact not_startsWith_slash_hostFileName r h _

theorem suffix_artifactPath (a : Artifact) (h : String) (r : Int) :
    a.suffix.data <:+ (artifactPath c a h r).data := by
  rw [artifactPath_eq_pathJoin]
  exact (suffix_artifactName a h r).trans (suffix_pathJoin (not_startsWith_slash_artifactName a h r))

/-- Outside the shared output file, an artifact's name is its host file name. -/
theorem artifactName_eq_hostFileName {a : Artifact} (ha : a = .output → c.noSharedFs = false)
    (h : String) (r : Int) : artifactName c a h r = hostFileName r h a.suffix := by
  rw [artifactName, if_neg]
  rintro ⟨rfl, hfs⟩
  simp [ha rfl] at hfs

/-- Names of different artifacts or host entries differ, unless both are the shared output
file. -/
theorem artifactName_ne {a a' : Artifact} {r r' : Int} {h h' : String} (hne : (a, r, h) ≠ (a', r', h'))
    (hout : a = .output → a' = .output → c.noSharedFs = false) :
    artifactName c a h r ≠ artifactName c a' h' r' := by
  by_cases ha : a = a'
  · subst ha
    rw [artifactName_eq_hostFileName (fun h => hout h h), artifactName_eq_hostFileName (fun h => hout h h)]
    exact hostFileName_ne hne
  · exact ne_of_suffix ha (suffix_artifactName a h r) (suffix_artifactName a' h' r')

/-- A host with no `/` gives every artifact a name that is a single path part. -/
theorem isName_artifactName (a : Artifact) {h : String} (hh : '/' ∉ h.data) (r : Int) :
    isName (artifactName c a h r) = true := by
  unfold artifactName
  split
  · decide
  · exact isName_hostFileName r hh (by cases a <;> simp [Artifact.suffix])

end Runner
end FlagScale
