import FlagScale.Cli.Config

/-!
# The task commands of `flagscale`

Each task command of `cli.py` (`train`, `serve`, `inference`, `rl`, `compress`) turns its
flags into an action, resolves its config, and calls `run_task`, which runs
`flagscale.run.main` with `sys.argv = ["run.py", "--config-path=P", "--config-name=N",
"action=A", *extra]`.  They differ only in the task name, how the action is chosen and the
extra overrides, so they are one definition, `taskCommand`, applied to each command's own
values.

`get_action` returns the action of the one flag that is set, or `run`; with more than one
it fails with a message that names every flag set (`getAction_ok_iff`,
`getAction_error_names`).  `serve` and `compress` choose by precedence instead and never
fail: they take the first set flag in `get_action`'s order (`serveAction_eq_headD`,
`compressAction_eq_headD`), so they agree with `get_action` when at most one flag is set
and run the first action where `train` would refuse.  The flags are checked before the
config (`taskCommand_action_error`), and without `--config` the arguments make Hydra read
the file `resolve_config` checked (`taskCommand_default_hydra`).

`run` (`run_cmd`) checks `config_path.resolve() / f"{config_name}.yaml"` and passes the
resolved path on: Hydra then loads the checked file for every config name that does not
itself end in `.yaml` (`runCmd_hydra`).  A name such as `train.yaml` is checked as
`train.yaml.yaml`, while Hydra would load `train.yaml`.
-/

namespace FlagScale
namespace Cli

open Python Posix

/-! ## Actions -/

/-- The flags of `get_action`, in its order, with the actions they name. -/
def actionFlags (stop dryrun test query tune : Bool) : List (String × Bool) :=
  [("stop", stop), ("dryrun", dryrun), ("test", test), ("query", query), ("auto_tune", tune)]

/-- `set_flags`: the actions whose flag is set. -/
def setFlags (stop dryrun test query tune : Bool) : List String :=
  ((actionFlags stop dryrun test query tune).filter (·.2)).map (·.1)

/-- `get_action`; the error is the message printed before `typer.Exit(1)`. -/
def getAction (stop dryrun test query tune : Bool) : Except String String :=
  let flags := setFlags stop dryrun test query tune
  if flags.length > 1 then .error ("Error: Flags are mutually exclusive: --" ++ ", --".intercalate flags)
  else .ok (flags.headD "run")

/-- The action of `serve`. -/
def serveAction (stop test tune : Bool) : String :=
  if stop then "stop" else if test then "test" else if tune then "auto_tune" else "run"

/-- The action of `compress`. -/
def compressAction (stop dryrun : Bool) : String :=
  if stop then "stop" else if dryrun then "dryrun" else "run"

/-! ## Commands -/

/-- The `sys.argv` `run_task` gives `flagscale.run.main`. -/
def runTaskArgv (configPath configName action : String) (extra : List String) : List String :=
  ["run.py", "--config-path=" ++ configPath, "--config-name=" ++ configName, "action=" ++ action] ++ extra

/-- The `Action` choices of `run --action`. -/
inductive Action where
  | run | dryrun | test | stop | query | autoTune
  deriving DecidableEq

/-- `Action.value`. -/
def Action.value : Action → String
  | .run => "run"
  | .dryrun => "dryrun"
  | .test => "test"
  | .stop => "stop"
  | .query => "query"
  | .autoTune => "auto_tune"

/-- `run_cmd`: `config_path.resolve()` must exist and hold `f"{config_name}.yaml"`; then
`run_task`'s arguments, with the resolved `str(config_path)`.  An error is the message
printed before `typer.Exit(1)`. -/
def runCmd (d : Disk) (configPath configName : String) (action : Action) (overrides : List String) :
    Except String (List String) :=
  let ps := d.locate configPath
  let file := joinParts ps (configName ++ ".yaml")
  if (d.read (absStr ps)).isNone then .error ("Error: Config path does not exist: " ++ absStr ps)
  else if (d.read (absStr file)).isNone then .error ("Error: Config file does not exist: " ++ absStr file)
  else .ok (runTaskArgv (absStr ps) configName action.value overrides)

/-- A task command: the action, then the config, then `run_task`'s arguments; an error is
the message printed before `typer.Exit(1)`. -/
def taskCommand (task : String) (action : Except String String) (extra : List String) (d : Disk)
    (model : String) (config : Option String) : Except String (List String) := do
  let a ← action
  let (p, n) ← resolveConfig d model config task
  pure (runTaskArgv p n a extra)

/-- The Hydra overrides `serve` adds for its options that are given and not zero or empty. -/
def serveExtra (port : Option Int) (modelPath engineArgs : Option String) : List String :=
  (if port.getD 0 ≠ 0 then ["+experiment.runner.cli_args.port=" ++ pyStr (port.getD 0)] else []) ++
  (if modelPath.getD "" ≠ "" then ["+experiment.runner.cli_args.model_path=" ++ modelPath.getD ""]
    else []) ++
  (if engineArgs.getD "" ≠ "" then ["+experiment.runner.cli_args.engine_args='" ++ engineArgs.getD "" ++ "'"]
    else [])

def train (d : Disk) (model : String) (config : Option String) (stop dryrun test query tune : Bool) :
    Except String (List String) :=
  taskCommand "train" (getAction stop dryrun test query tune) [] d model config

def serve (d : Disk) (model : String) (config : Option String) (stop test tune : Bool)
    (port : Option Int) (modelPath engineArgs : Option String) : Except String (List String) :=
  taskCommand "serve" (.ok (serveAction stop test tune)) (serveExtra port modelPath engineArgs) d model config

def inference (d : Disk) (model : String) (config : Option String) (stop dryrun test : Bool) :
    Except String (List String) :=
  taskCommand "inference" (getAction stop dryrun test false false) [] d model config

def rl (d : Disk) (model : String) (config : Option String) (stop dryrun test : Bool) :
    Except String (List String) :=
  taskCommand "rl" (getAction stop dryrun test false false) [] d model config

def compress (d : Disk) (model : String) (config : Option String) (stop dryrun : Bool) :
    Except String (List String) :=
  taskCommand "compress" (.ok (compressAction stop dryrun)) [] d model config

/-! ## `get_action` -/

section GetAction

variable {stop dryrun test query tune : Bool}

theorem getAction_ok_iff {a : String} :
    getAction stop dryrun test query tune = .ok a ↔
      (setFlags stop dryrun test query tune = [] ∧ a = "run") ∨ setFlags stop dryrun test query tune = [a] := by
  unfold getAction
  generalize setFlags stop dryrun test query tune = l
  rcases l with _ | ⟨x, _ | ⟨y, l⟩⟩ <;> simp [eq_comm]

theorem getAction_error_iff :
    (∃ m, getAction stop dryrun test query tune = .error m) ↔ 2 ≤ (setFlags stop dryrun test query tune).length := by
  simp only [getAction]
  generalize setFlags stop dryrun test query tune = l
  split <;> simp <;> omega

/-- The error names every flag that is set. -/
theorem getAction_error_names {m : String} (h : getAction stop dryrun test query tune = .error m) :
    ∀ f ∈ setFlags stop dryrun test query tune, ("--" ++ f).data <:+: m.data := by
  simp only [getAction] at h
  generalize setFlags stop dryrun test query tune = l at h ⊢
  split at h
  · cases h
    rcases l with _ | ⟨x, l⟩
    · simp
    intro f hf
    rw [String.data_append, String.data_append, intercalate_cons_data]
    rcases List.mem_cons.mp hf with rfl | hf
    · exact ⟨"Error: Flags are mutually exclusive: ".data, _, by simp [String.data_append]; rfl⟩
    · have hseg : (", --".data ++ f.data) <:+: (l.map fun b => ", --".data ++ b.data).flatten :=
        List.infix_of_mem_flatten (List.mem_map_of_mem _ hf)
      have hsep : ("--".data ++ f.data) <:+: (", --".data ++ f.data) :=
        (List.suffix_append [',', ' '] ("--".data ++ f.data)).isInfix
      exact hsep.trans (hseg.trans ((List.suffix_append _ _).isInfix.trans (List.suffix_append _ _).isInfix))
  · cases h

end GetAction

/-- `serve` takes the first set flag in `get_action`'s order. -/
theorem serveAction_eq_headD : ∀ stop test tune : Bool,
    serveAction stop test tune = (setFlags stop false test false tune).headD "run" := by
  decide

/-- `compress` takes the first set flag in `get_action`'s order. -/
theorem compressAction_eq_headD : ∀ stop dryrun : Bool,
    compressAction stop dryrun = (setFlags stop dryrun false false false).headD "run" := by
  decide

/-- With at most one flag `serve` agrees with `get_action`; with more, `get_action` fails
where `serve` runs its first action. -/
theorem serveAction_getAction (stop test tune : Bool) :
    ((setFlags stop false test false tune).length ≤ 1 →
      getAction stop false test false tune = .ok (serveAction stop test tune)) ∧
    (2 ≤ (setFlags stop false test false tune).length →
      ∃ m, getAction stop false test false tune = .error m) := by
  refine ⟨fun h => ?_, fun h => getAction_error_iff.mpr h⟩
  rw [serveAction_eq_headD, getAction, if_neg (by omega)]

/-! ## Commands -/

section Commands

variable {task : String} {action : Except String String} {extra : List String} {d : Disk}
  {model : String} {config : Option String}

/-- A failed flag check fails the command whatever the config. -/
theorem taskCommand_action_error {m : String} (h : action = .error m) :
    taskCommand task action extra d model config = .error m := by
  subst h; rfl

/-- `train --stop --test` fails on the flags, even with no config to read. -/
example (d : Disk) (model : String) (config : Option String) :
    train d model config true false true false false = .error "Error: Flags are mutually exclusive: --stop, --test" :=
  taskCommand_action_error rfl

/-- What a task command returns. -/
theorem taskCommand_eq_ok {argv : List String} :
    taskCommand task action extra d model config = .ok argv ↔
      ∃ a p n, action = .ok a ∧ resolveConfig d model config task = .ok (p, n) ∧
        argv = runTaskArgv p n a extra := by
  unfold taskCommand
  rcases action with m | a
  · simp [bind, Except.bind]
  · rcases hr : resolveConfig d model config task with m | ⟨p, n⟩ <;>
      simp [bind, Except.bind, hr, pure, Except.pure, eq_comm, and_assoc]

/-- Without `--config`, a task command's arguments make Hydra read the checked default file
`examples/<model>/conf/<task>.yaml`. -/
theorem taskCommand_default_hydra (htask : task ≠ "") (ht : isName (task ++ ".yaml") = true)
    (hy : endsWith task ".yaml" = false) {argv : List String}
    (h : taskCommand task action extra d model none = .ok argv) :
    ∃ a p, action = .ok a ∧ argv = runTaskArgv p task a extra ∧
      (d.read (absStr (defaultConfigParts d model task))).isSome ∧
      d.locate (hydraConfigFile p task) = d.locate (absStr (defaultConfigParts d model task)) := by
  obtain ⟨a, p, n, ha, hr, rfl⟩ := taskCommand_eq_ok.mp h
  obtain ⟨rfl, hex, hloc⟩ := resolveConfig_default_hydra htask ht hy hr
  exact ⟨a, p, ha, rfl, hex, hloc⟩

/-- `train qwen3` on `confDisk` runs `/w/examples/qwen3/conf/train.yaml`. -/
theorem taskCommand_default_hydra_qwen3 :
    ("train" ≠ "" ∧ isName ("train" ++ ".yaml") = true ∧ endsWith "train" ".yaml" = false ∧
      taskCommand "train" (getAction false false false false false) [] confDisk "qwen3" none =
        .ok (runTaskArgv "/w/examples/qwen3/conf" "train" "run" [])) ∧
    ∃ a p, getAction false false false false false = .ok a ∧
      runTaskArgv "/w/examples/qwen3/conf" "train" "run" [] = runTaskArgv p "train" a [] ∧
      (confDisk.read (absStr (defaultConfigParts confDisk "qwen3" "train"))).isSome ∧
      confDisk.locate (hydraConfigFile p "train") =
        confDisk.locate (absStr (defaultConfigParts confDisk "qwen3" "train")) :=
  ⟨⟨by decide, by decide, rfl, rfl⟩, @taskCommand_default_hydra "train" (getAction false false false false false) []
    confDisk "qwen3" (by decide) (by decide) rfl _ rfl⟩

end Commands

/-! ## `run` -/

section Run

variable {d : Disk} {path name : String} {action : Action} {overrides argv : List String}

/-- When `run` goes on to `run_task`, the file `run_cmd` checked exists and Hydra loads it, for
every working directory made of names, every `--config-path`, and every `--config-name` that
does not itself end in `.yaml`. -/
theorem runCmd_hydra (hcwd : ∀ x ∈ d.cwd, isName x = true) (hname : endsWith name ".yaml" = false)
    (h : runCmd d path name action overrides = .ok argv) :
    ∃ p, argv = runTaskArgv p name action.value overrides ∧
      (d.read (absStr (joinParts (d.locate path) (name ++ ".yaml")))).isSome ∧
      d.locate (hydraConfigFile p name) = d.locate (absStr (joinParts (d.locate path) (name ++ ".yaml"))) := by
  simp only [runCmd] at h
  split at h
  · cases h
  split at h
  · cases h
  rename_i hfile
  cases h
  refine ⟨_, rfl, by simpa [Option.isSome_iff_ne_none] using hfile, ?_⟩
  rw [hydraConfigFile, hydraConfigName_of_not_endsWith hname, locate_pathJoin_absStr d (locate_names hcwd path)]

/-- `run -p /w/conf -n train` checks and runs `/w/conf/train.yaml`. -/
theorem runCmd_hydra_confDisk :
    (∀ x ∈ confDisk.cwd, isName x = true) ∧ endsWith "train" ".yaml" = false ∧
      runCmd confDisk "/w/conf" "train" .run [] = .ok (runTaskArgv "/w/conf" "train" "run" []) ∧
      ∃ p, runTaskArgv "/w/conf" "train" "run" [] = runTaskArgv p "train" Action.run.value [] ∧
        (confDisk.read (absStr (joinParts (confDisk.locate "/w/conf") ("train" ++ ".yaml")))).isSome ∧
        confDisk.locate (hydraConfigFile p "train") =
          confDisk.locate (absStr (joinParts (confDisk.locate "/w/conf") ("train" ++ ".yaml"))) :=
  ⟨by decide, rfl, rfl, @runCmd_hydra confDisk "/w/conf" "train" .run [] _ (by decide) rfl rfl⟩

/-- `-n train.yaml` checks `train.yaml.yaml` and is refused, while Hydra would load the
existing `train.yaml`. -/
example : runCmd confDisk "conf" "train.yaml" .run [] =
      .error "Error: Config file does not exist: /w/conf/train.yaml.yaml" ∧
    (confDisk.read (hydraConfigFile "/w/conf" "train.yaml")).isSome :=
  ⟨rfl, rfl⟩

end Run

end Cli
end FlagScale
