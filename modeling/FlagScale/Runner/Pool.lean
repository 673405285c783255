import FlagScale.Runner.Scripts

/-!
# Generating the scripts of a host pool

The runner calls `generate_run_script` and `generate_stop_script` once per host entry, in
whatever order its loops take, with no locking.  A `Gen` is one such call, and
`generateAll` runs a list of them on a disk.

What makes the order irrelevant is that every call is a `writeScript` into
`scripts_dir` of a file whose name is determined by the call's `(artifact, node_rank,
host)`.  Distinct such triples give distinct names (`hostFileName_ne`), and when no host
contains `/` each name is a single path part, so the files are distinct and two calls
commute (`Gen.apply_comm`); `generateAll_perm` follows by `foldlM_perm`.

A host with a `/` in it breaks this: `a//b` and `a/b` give different strings that name
one file, and the call made last decides what it holds.
-/

namespace FlagScale
namespace Runner

open Python Posix

/-- One generator call for a host entry, with its arguments. -/
inductive Gen where
  | run (host : String) (nodeRank : Int) (cmd : String) (background withTest : Bool)
  | stop (host : String) (nodeRank : Int)

namespace Gen

def host : Gen → String
  | .run h .. | .stop h _ => h

def nodeRank : Gen → Int
  | .run _ r .. | .stop _ r => r

def artifact : Gen → Artifact
  | .run .. => .run
  | .stop .. => .stop

/-- What identifies the file a call writes. -/
def tag (g : Gen) : Artifact × Int × String := (g.artifact, g.nodeRank, g.host)

variable (c : ScriptConfig) (pkgDir : String)

/-- The script text a call writes. -/
def content : Gen → String
  | .run h r cmd b t => runScript c pkgDir h r cmd b t
  | .stop h r => stopScript c h r

/-- The disk after the call, if it does not raise. -/
def apply (d : Disk) : Gen → Option Disk
  | .run h r cmd b t => (generateRunScript c pkgDir h r cmd b t d).map Prod.fst
  | .stop h r => (generateStopScript c h r d).map Prod.fst

theorem apply_eq (d : Disk) (g : Gen) :
    g.apply c pkgDir d = d.writeScript c.scriptsDir
      (hostFile c.scriptsDir g.nodeRank g.host g.artifact.suffix) (g.content c pkgDir) := by
  cases g <;> simp [apply, generateRunScript, generateStopScript, hostRunScriptFile,
    hostStopScriptFile, content, host, nodeRank, artifact, Artifact.suffix, Option.map_map,
    Function.comp_def]

end Gen

/-- The calls run one after another; `none` if one raises. -/
def generateAll (c : ScriptConfig) (pkgDir : String) (gens : List Gen) (d : Disk) : Option Disk :=
  gens.foldlM (Gen.apply c pkgDir) d

section Order

variable {c : ScriptConfig} {pkgDir : String}

theorem writeScript_empty_dir (d : Disk) (path content : String) :
    d.writeScript "" path content = none := by
  simp [Disk.writeScript, Disk.makedirs]

/-- Calls for different files, with no `/` in their hosts, commute. -/
theorem Gen.apply_comm {g g' : Gen} (hne : g.tag ≠ g'.tag) (hh : '/' ∉ g.host.data)
    (hh' : '/' ∉ g'.host.data) (d : Disk) :
    (g.apply c pkgDir d).bind (Gen.apply c pkgDir · g') =
      (g'.apply c pkgDir d).bind (Gen.apply c pkgDir · g) := by
  have hs : ∀ g : Gen, '/' ∉ g.artifact.suffix.data := fun g => by
    cases g <;> simp [Gen.artifact, Artifact.suffix]
  simp only [Gen.apply_eq]
  by_cases hdir : c.scriptsDir = ""
  · simp [hdir, writeScript_empty_dir]
  exact Disk.writeScript_comm (isName_hostFileName _ hh (hs g)) (isName_hostFileName _ hh' (hs g'))
    (hostFileName_ne hne) hdir _ _ d

/-- Calls with distinct files and no `/` in their hosts give the same disk in any order,
or raise in every order. -/
theorem generateAll_perm {gens gens' : List Gen} (hp : gens.Perm gens')
    (hnodup : (gens.map Gen.tag).Nodup) (hhost : ∀ g ∈ gens, '/' ∉ g.host.data) (d : Disk) :
    generateAll c pkgDir gens d = generateAll c pkgDir gens' d :=
  foldlM_perm hp ((List.pairwise_map.mp hnodup).imp_of_mem fun ha hb hne =>
    Gen.apply_comm hne (hhost _ ha) (hhost _ hb)) d

end Order

/-! ## The paths of all artifacts -/

section Paths

variable {c : ScriptConfig}

/-- The paths of two host entries are different strings, unless both are the output file
that `no_shared_fs` shares. -/
theorem artifactPath_ne {a a' : Artifact} {r r' : Int} {h h' : String} (hne : (a, r, h) ≠ (a', r', h'))
    (hout : a = .output → a' = .output → c.noSharedFs = false) :
    artifactPath c a h r ≠ artifactPath c a' h' r' := by
  by_cases ha : a = a'
  · subst ha
    rw [artifactPath_eq_pathJoin, artifactPath_eq_pathJoin]
    exact fun he => artifactName_ne hne hout (pathJoin_right_injective
      (not_startsWith_slash_artifactName _ _ _) (not_startsWith_slash_artifactName _ _ _) he)
  · exact ne_of_suffix ha (suffix_artifactPath a h r) (suffix_artifactPath a' h' r')

/-- Under `no_shared_fs` every host writes its output to one file. -/
theorem artifactPath_output_shared (hfs : c.noSharedFs = true) (h h' : String) (r r' : Int) :
    artifactPath c .output h r = artifactPath c .output h' r' := by
  simp [artifactPath, hostOutputFile, hfs]

/-- With no `/` in the hosts they are also different files. -/
theorem locate_artifactPath_ne (d : Disk) {a a' : Artifact} {r r' : Int} {h h' : String}
    (hh : '/' ∉ h.data) (hh' : '/' ∉ h'.data) (hne : (a, r, h) ≠ (a', r', h'))
    (hout : a = .output → a' = .output → c.noSharedFs = false) :
    d.locate (artifactPath c a h r) ≠ d.locate (artifactPath c a' h' r') := by
  rw [artifactPath_eq_pathJoin, artifactPath_eq_pathJoin,
    Disk.locate_pathJoin (isName_artifactName a hh r), Disk.locate_pathJoin (isName_artifactName a' hh' r')]
  intro he
  exact artifactName_ne hne hout (List.singleton_inj.mp (List.append_inj_right' he rfl))

end Paths

/-- A configuration with every directory under `/out`. -/
def outConfig : ScriptConfig :=
  ⟨"/out/save", "/out/logs", "/out/scripts", "/out/pids", "/out/tb", "/out/wandb", false, .empty⟩

/-- `outConfig` with `no_shared_fs`. -/
def sharedConfig : ScriptConfig := { outConfig with noSharedFs := true }

/-- A disk where `/out/scripts/host_1_a` is already a directory. -/
def slashDisk : Disk :=
  ⟨[], 0o022, fun k => if k = [] ∨ k = ["out"] ∨ k = ["out", "scripts"] ∨
    k = ["out", "scripts", "host_1_a"] then some .dir else none⟩

/-- For every configuration: the run script, stop script, pid file and output file paths of
distinct host entries are pairwise different strings, except the output files, which
`no_shared_fs` makes one shared file; when no host has a `/` they are different files; and
generator calls for distinct files, in any order, leave the same disk. -/
theorem generateScripts_order_free (c : ScriptConfig) (pkgDir : String) :
    (∀ (a a' : Artifact) (r r' : Int) (h h' : String), (a, r, h) ≠ (a', r', h') →
      (a = .output → a' = .output → c.noSharedFs = false) →
        artifactPath c a h r ≠ artifactPath c a' h' r') ∧
    (c.noSharedFs = true → ∀ (r r' : Int) (h h' : String),
      artifactPath c .output h r = artifactPath c .output h' r') ∧
    (∀ (d : Disk) (a a' : Artifact) (r r' : Int) (h h' : String), '/' ∉ h.data → '/' ∉ h'.data →
      (a, r, h) ≠ (a', r', h') → (a = .output → a' = .output → c.noSharedFs = false) →
        d.locate (artifactPath c a h r) ≠ d.locate (artifactPath c a' h' r')) ∧
    (∀ (d : Disk) (gens gens' : List Gen), gens.Perm gens' → (gens.map Gen.tag).Nodup →
      (∀ g ∈ gens, '/' ∉ g.host.data) → generateAll c pkgDir gens d = generateAll c pkgDir gens' d) :=
  ⟨fun _ _ _ _ _ _ => artifactPath_ne, fun hfs _ _ _ _ => artifactPath_output_shared hfs _ _ _ _,
    fun d _ _ _ _ _ _ hh hh' => locate_artifactPath_ne d hh hh',
    fun d _ _ hp hn hh => generateAll_perm hp hn hh d⟩

/-- Under `no_shared_fs` the pid files of ranks 12 and 1 on hosts `1` and `2_1` still differ. -/
theorem generateScripts_order_free_sharedFs :
    ((Artifact.pid, (12 : Int), "1") ≠ (.pid, 1, "2_1") ∧
      (Artifact.pid = .output → Artifact.pid = .output → sharedConfig.noSharedFs = false)) ∧
    artifactPath sharedConfig .pid "1" 12 ≠ artifactPath sharedConfig .pid "2_1" 1 :=
  ⟨⟨by decide, by decide⟩,
    (generateScripts_order_free sharedConfig "/pkg").1 _ _ _ _ _ _ (by decide) (by decide)⟩

set_option maxRecDepth 4000 in
/-- The hosts `a//b` and `a/b` of rank 1 have different run script paths that name one
file, `/out/scripts/host_1_a/b_run.sh`, and whichever run script is generated last is
what that file holds. -/
theorem generateAll_slash_hosts :
    (generateAll outConfig "/pkg" [.run "a//b" 1 "train" true false, .run "a/b" 1 "train" true false]
        slashDisk).map (·.read "/out/scripts/host_1_a/b_run.sh") =
      some (some (.file (runScript outConfig "/pkg" "a/b" 1 "train" true false) 0o755)) ∧
    (generateAll outConfig "/pkg" [.run "a/b" 1 "train" true false, .run "a//b" 1 "train" true false]
        slashDisk).map (·.read "/out/scripts/host_1_a/b_run.sh") =
      some (some (.file (runScript outConfig "/pkg" "a//b" 1 "train" true false) 0o755)) ∧
    runScript outConfig "/pkg" "a/b" 1 "train" true false ≠
      runScript outConfig "/pkg" "a//b" 1 "train" true false := by
  decide

end Runner
end FlagScale
