import FlagScale.Posix.Disk

/-!
# `resolve_config` and the file Hydra reads

`resolve_config(model_name, yaml_path, task)` in `cli.py` decides which config a task
command runs.  With `--config`, the path is resolved (`Path.resolve()`: made absolute from
the working directory, `..` taken lexically since the disk has no links) and must exist;
without it, the path is `Path.cwd() / "examples" / model / "conf" / f"{task}.yaml"`.  Either
way the command passes the path's parent and stem to Hydra as `--config-path` and
`--config-name`, and Hydra reads `<config-path>/<config-name>.yaml` (`hydraConfigFile`).

Hydra appends `.yaml` to the config name unless it already ends with it
(`hydraConfigName`).  `resolveConfig_default_hydra`: without `--config`, Hydra reads the
file that was checked, for every model name and every task name not ending in `.yaml`.
`resolveConfig_hydra_iff`: with `--config`, it does exactly when the checked path's last
part is `b.yaml` for a `b` that is empty or does not itself end in `.yaml`.  A path such as
`conf/train.yml`, `conf/x.yaml.yaml`, or a directory, passes the existence check while
Hydra reads another file.  `locate_pathJoin_absStr`: `str(p / s)` and
`os.path.join(str(p), s)` lead to the same place, which is what `run_cmd` relies on.

`PurePosixPath` is modelled by its parts: the empty and `.` parts of a string are dropped,
`..` stays, and `a / b` starts over when `b` is absolute.  A path starting with exactly two
slashes, which `PurePosixPath` keeps as `//`, is taken as starting with one.
-/

namespace FlagScale
namespace Cli

open Python Posix

/-! ## Pure paths -/

/-- `str(p)` for the absolute path with the parts `ps`. -/
def absStr (ps : List String) : String := "/" ++ "/".intercalate ps

/-- The parts `PurePosixPath(s)` keeps. -/
def pureParts (s : String) : List String := (parts s).filter fun x => x ≠ "" ∧ x ≠ "."

/-- `p / s` for the parts `p` of an absolute path. -/
def joinParts (p : List String) (s : String) : List String :=
  if startsWith s "/" then pureParts s else p ++ pureParts s

/-- `PurePath.stem` of a name: without its last suffix, which starts at the last `.` when
that is neither the first nor the last character. -/
def stem (name : String) : String :=
  match name.data.reverse.dropWhile (· ≠ '.') with
  | '.' :: preRev =>
    if name.data.reverse.takeWhile (· ≠ '.') ≠ [] ∧ preRev ≠ [] then ⟨preRev.reverse⟩ else name
  | _ => name

/-- `Path.cwd() / "examples" / model_name / "conf" / f"{task}.yaml"`, as parts. -/
def defaultConfigParts (d : Disk) (model task : String) : List String :=
  ["examples", model, "conf", task ++ ".yaml"].foldl joinParts (pureParts (absStr d.cwd))

/-- `resolve_config`: the parts of the checked path are `d.locate p` for `--config p`
(`Path.resolve()`), else the default path; the result is `(str(path.parent), path.stem)`,
or the message printed before `typer.Exit(1)`. -/
def resolveConfig (d : Disk) (model : String) (yamlPath : Option String) (task : String) :
    Except String (String × String) :=
  let ps := match yamlPath with
    | some p => d.locate p
    | none => defaultConfigParts d model task
  if (d.read (absStr ps)).isSome then .ok (absStr ps.dropLast, stem (ps.getLastD ""))
  else .error ("Error: " ++ absStr ps ++ " does not exist")

/-- The file name Hydra loads for `--config-name=configName`: `.yaml` is appended unless the
name already ends with it (`ConfigSource._normalize_file_name`, version base 1.2 on). -/
def hydraConfigName (configName : String) : String :=
  if endsWith configName ".yaml" then configName else configName ++ ".yaml"

/-- The file Hydra loads for `--config-path=configPath --config-name=configName`. -/
def hydraConfigFile (configPath configName : String) : String :=
  pathJoin configPath (hydraConfigName configName)

/-! ## Stems -/

theorem stem_append_yaml {b : String} (hb : b ≠ "") : stem (b ++ ".yaml") = b := by
  have hr : (b ++ ".yaml").data.reverse = ['l', 'm', 'a', 'y', '.'] ++ b.data.reverse := by
    simp only [String.data_append, List.reverse_append]; rfl
  have hb' : b.data.reverse ≠ [] := by simpa [String.ext_iff] using hb
  simp [stem, hr, hb']

/-- The stem is made of characters of the name. -/
theorem mem_stem {name : String} {c : Char} (h : c ∈ (stem name).data) : c ∈ name.data := by
  unfold stem at h
  split at h
  · rename_i preRev he
    split at h
    · have hs : '.' :: preRev <:+ name.data.reverse := he ▸ List.dropWhile_suffix _
      exact List.mem_reverse.mp (hs.subset (List.mem_cons_of_mem _ (List.mem_reverse.mp h)))
    · exact h
  · exact h

theorem hydraConfigName_of_not_endsWith {name : String} (h : endsWith name ".yaml" = false) :
    hydraConfigName name = name ++ ".yaml" := by
  simp [hydraConfigName, h]

/-- Hydra's name for the stem of `name` is `name` itself exactly when `name` is `b.yaml` for
a `b` that is empty or does not end in `.yaml`. -/
theorem hydraConfigName_stem_iff {name : String} :
    hydraConfigName (stem name) = name ↔
      ∃ b, name = b ++ ".yaml" ∧ (b = "" ∨ endsWith b ".yaml" = false) := by
  constructor
  · intro h
    unfold hydraConfigName at h
    split at h
    · rename_i hy
      obtain ⟨pre, hpre⟩ := List.isSuffixOf_iff_suffix.mp (h ▸ hy)
      have hn : name = ⟨pre⟩ ++ ".yaml" := String.ext (by simpa [String.data_append] using hpre.symm)
      refine ⟨⟨pre⟩, hn, .inl ?_⟩
      by_contra hb
      rw [hn, stem_append_yaml hb] at h
      exact absurd (congrArg String.length h) (by simp [String.length_append]; decide)
    · exact ⟨stem name, h.symm, .inr ((Bool.not_eq_true _).mp ‹_›)⟩
  · rintro ⟨b, rfl, hb⟩
    by_cases hb' : b = ""
    · subst hb'; decide
    · rw [stem_append_yaml hb', hydraConfigName_of_not_endsWith (hb.resolve_left hb')]

theorem isName_append_yaml {b : String} (hb : '/' ∉ b.data) : isName (b ++ ".yaml") = true := by
  have hl : ∀ s : String, s.length < 5 → b ++ ".yaml" ≠ s := fun s hs he => by
    have := congrArg String.length he
    simp only [String.length_append] at this
    have : ".yaml".length = 5 := rfl
    omega
  refine isName_iff.mpr ⟨hl "" (by decide), hl "." (by decide), hl ".." (by decide), ?_⟩
  simp only [String.data_append, List.mem_append, not_or]
  exact ⟨hb, by decide⟩

theorem isName_hydraConfigName {name : String} (h : '/' ∉ name.data) : isName (hydraConfigName name) = true := by
  unfold hydraConfigName
  split
  · rename_i hy
    obtain ⟨pre, hpre⟩ := List.isSuffixOf_iff_suffix.mp hy
    have hn : name = ⟨pre⟩ ++ ".yaml" := String.ext (by simpa [String.data_append] using hpre.symm)
    rw [hn] at h ⊢
    exact isName_append_yaml fun hc => h (by simp [String.data_append, hc])
  · exact isName_append_yaml h

/-! ## Resolving pure paths -/

theorem startsWith_absStr (ps : List String) : startsWith (absStr ps) "/" = true := by
  simp [absStr, startsWith, String.data_append, List.isPrefixOf]

/-- `str(p)` of an absolute path resolves through its parts from the root. -/
theorem locate_absStr (d : Disk) {ps : List String} (hps : ∀ x ∈ ps, '/' ∉ x.data) :
    d.locate (absStr ps) = ps.foldl lexEnter [] := by
  unfold Disk.locate Disk.startDir
  rw [if_pos (startsWith_absStr ps)]
  cases ps with
  | nil => rfl
  | cons a l =>
    have hp : parts (absStr (a :: l)) = "" :: a :: l := by
      show splitSlash ('/' :: ("/".intercalate (a :: l)).data) = _
      rw [splitSlash, if_pos rfl, splitSlash_intercalate (List.cons_ne_nil a l) hps]
    rw [hp, List.foldl_cons, lexEnter_empty]

theorem slash_not_mem_pureParts {s x : String} (h : x ∈ pureParts s) : '/' ∉ x.data :=
  slash_not_mem_splitSlash (List.mem_filter.mp h).1

theorem pureParts_name {n : String} (hn : isName n = true) : pureParts n = [n] := by
  obtain ⟨h1, h2, -, h4⟩ := isName_iff.mp hn
  simp [pureParts, parts, splitSlash_of_not_mem h4, h1, h2]

theorem slash_not_mem_joinParts {p : List String} (hp : ∀ x ∈ p, '/' ∉ x.data) (s : String) :
    ∀ x ∈ joinParts p s, '/' ∉ x.data := by
  unfold joinParts
  split
  · exact fun x hx => slash_not_mem_pureParts hx
  · intro x hx
    rcases List.mem_append.mp hx with hx | hx
    exacts [hp x hx, slash_not_mem_pureParts hx]

/-- Dropping the empty and `.` parts does not change where a path leads. -/
theorem foldl_lexEnter_pureParts (s : String) (k : List String) :
    (pureParts s).foldl lexEnter k = (parts s).foldl lexEnter k := by
  unfold pureParts
  generalize parts s = l
  induction l generalizing k with
  | nil => rfl
  | cons x l ih =>
    rw [List.filter_cons, List.foldl_cons]
    by_cases hx : x = "" ∨ x = "."
    · have hk : lexEnter k x = k := by simp [lexEnter, hx]
      rw [if_neg (by simp only [decide_eq_true_eq]; tauto), hk, ih]
    · rw [if_pos (by simp only [decide_eq_true_eq]; tauto), List.foldl_cons, ih]

/-- `str(p / s)` and `os.path.join(str(p), s)` lead to the same place, for a path `p` made of
names and every `s`. -/
theorem locate_pathJoin_absStr (d : Disk) {ps : List String} (hps : ∀ x ∈ ps, isName x = true) (s : String) :
    d.locate (pathJoin (absStr ps) s) = d.locate (absStr (joinParts ps s)) := by
  have hslash : ∀ x ∈ ps, '/' ∉ x.data := fun x hx => (isName_iff.mp (hps x hx)).2.2.2
  rw [locate_absStr d (slash_not_mem_joinParts hslash s), joinParts]
  split
  · rename_i hs
    rw [pathJoin, if_pos hs, foldl_lexEnter_pureParts, Disk.locate, Disk.startDir, if_pos hs]
  · rename_i hs
    have hs' : startsWith s "/" = false := by simpa using hs
    obtain ⟨xs, hp, hd⟩ := parts_pathJoin_relative (absStr ps) hs'
    have hxs : xs.foldl lexEnter [] = ps := by
      have h := locate_absStr d hslash
      rw [Disk.locate, Disk.startDir, if_pos (startsWith_absStr ps), foldl_lexEnter_names _ hps] at h
      rcases hd with hd | hd <;> simpa [hd] using h
    have hne : absStr ps ≠ "" := by simp [absStr, String.ext_iff, String.data_append]
    have hstart : startsWith (pathJoin (absStr ps) s) "/" = true := by
      rw [pathJoin_of_relative hs', joinPrefix]
      split <;> simp only [String.append_assoc, startsWith_slash_append hne, startsWith_absStr]
    rw [Disk.locate, Disk.startDir, if_pos hstart, hp, List.foldl_append, hxs, List.foldl_append,
      foldl_lexEnter_names _ hps, foldl_lexEnter_pureParts]
    rfl

/-- The default path is a path with no `/` in its parts, then `f"{task}.yaml"`. -/
theorem defaultConfigParts_eq (d : Disk) (model : String) {task : String}
    (ht : isName (task ++ ".yaml") = true) :
    ∃ init, defaultConfigParts d model task = init ++ [task ++ ".yaml"] ∧ ∀ x ∈ init, '/' ∉ x.data := by
  have hj := fun {p} (hp : ∀ x ∈ p, '/' ∉ x.data) s => slash_not_mem_joinParts (p := p) hp s
  refine ⟨joinParts (joinParts (joinParts (pureParts (absStr d.cwd)) "examples") model) "conf", ?_,
    hj (hj (hj (fun x hx => slash_not_mem_pureParts hx) _) _) _⟩
  simp only [defaultConfigParts, List.foldl_cons, List.foldl_nil]
  rw [joinParts, if_neg (by simp [not_startsWith_slash_of_isName ht]), pureParts_name ht]

section Resolve

variable {d : Disk} {model task p n : String}

/-- Without `--config`, Hydra reads the file `resolve_config` checked, whatever the model
name, and the config name is the task. -/
theorem resolveConfig_default_hydra (htask : task ≠ "") (ht : isName (task ++ ".yaml") = true)
    (hy : endsWith task ".yaml" = false) (h : resolveConfig d model none task = .ok (p, n)) :
    n = task ∧ (d.read (absStr (defaultConfigParts d model task))).isSome ∧
      d.locate (hydraConfigFile p n) = d.locate (absStr (defaultConfigParts d model task)) := by
  obtain ⟨init, he, hinit⟩ := defaultConfigParts_eq d model ht
  have hps : ∀ x ∈ init ++ [task ++ ".yaml"], '/' ∉ x.data := fun x hx => by
    rcases List.mem_append.mp hx with hx | hx
    · exact hinit x hx
    · rw [List.mem_singleton.mp hx]; exact (isName_iff.mp ht).2.2.2
  simp only [resolveConfig] at h
  rw [he] at h ⊢
  split at h
  · rename_i hex
    simp only [List.dropLast_concat, List.getLastD_concat, Except.ok.injEq, Prod.mk.injEq] at h
    obtain ⟨rfl, rfl⟩ := h
    rw [stem_append_yaml htask]
    refine ⟨rfl, hex, ?_⟩
    rw [hydraConfigFile, hydraConfigName_of_not_endsWith hy, Disk.locate_pathJoin ht, locate_absStr d hinit,
      locate_absStr d hps,
      List.foldl_concat, lexEnter_name ht]
  · cases h

/-- With a working directory made of names, `--config path` resolves to names. -/
theorem locate_names (hcwd : ∀ x ∈ d.cwd, isName x = true) (path : String) :
    ∀ x ∈ d.locate path, isName x = true := by
  refine foldl_lexEnter_mem_names ?_ fun x hx => slash_not_mem_splitSlash hx
  unfold Disk.startDir
  split
  · simp
  · exact hcwd

/-- With `--config path`, Hydra reads the file `resolve_config` checked exactly when the
resolved path's last part is `b.yaml` for a `b` that is empty or does not end in `.yaml`. -/
theorem resolveConfig_hydra_iff (hcwd : ∀ x ∈ d.cwd, isName x = true) {path : String}
    (h : resolveConfig d model (some path) task = .ok (p, n)) :
    (d.read path).isSome ∧
      (d.locate (hydraConfigFile p n) = d.locate path ↔
        ∃ b, (d.locate path).getLast? = some (b ++ ".yaml") ∧ (b = "" ∨ endsWith b ".yaml" = false)) := by
  have hnames := locate_names hcwd path
  simp only [resolveConfig] at h
  unfold Disk.read
  generalize d.locate path = ps at *
  have hslash : ∀ x ∈ ps, '/' ∉ x.data := fun x hx => (isName_iff.mp (hnames x hx)).2.2.2
  have hloc : ∀ {qs : List String}, (∀ x ∈ qs, isName x = true) → d.locate (absStr qs) = qs :=
    fun hq => by
      rw [locate_absStr d fun x hx => (isName_iff.mp (hq x hx)).2.2.2, foldl_lexEnter_names _ hq]; rfl
  split at h
  · rename_i hex
    simp only [Except.ok.injEq, Prod.mk.injEq] at h
    obtain ⟨rfl, rfl⟩ := h
    have hlast : '/' ∉ (ps.getLastD "").data := by
      cases ps using List.reverseRecOn with
      | nil => simp
      | append_singleton init x => simpa using hslash x (by simp)
    refine ⟨by rwa [Disk.read, hloc hnames] at hex, ?_⟩
    rw [hydraConfigFile, Disk.locate_pathJoin (isName_hydraConfigName fun hc => hlast (mem_stem hc)),
      hloc fun x hx => hnames x (List.mem_of_mem_dropLast hx)]
    cases ps using List.reverseRecOn with
    | nil => simp
    | append_singleton init x =>
      simp only [List.dropLast_concat, List.getLastD_concat, List.getLast?_concat, Option.some_inj,
        List.append_cancel_left_eq, List.singleton_inj, hydraConfigName_stem_iff]
  · cases h

/-- A disk with `conf/train.yml`, `conf/train.yaml` and `examples/qwen3/conf/train.yaml`
under the working directory `/w`. -/
def confDisk : Disk :=
  ⟨["w"], 0o022, fun k =>
    if k = ["w", "conf", "train.yml"] then some (.file "lr: 1" 0o644)
    else if k = ["w", "conf", "train.yaml"] then some (.file "lr: 2" 0o644)
    else if k = ["w", "examples", "qwen3", "conf", "train.yaml"] then some (.file "lr: 3" 0o644)
    else if k ∈ [[], ["w"], ["w", "conf"], ["w", "examples"], ["w", "examples", "qwen3"],
      ["w", "examples", "qwen3", "conf"]] then some .dir else none⟩

/-- `--config conf/train.yml` is checked, and Hydra reads `conf/train.yaml`. -/
example : resolveConfig confDisk "m" (some "conf/train.yml") "train" = .ok ("/w/conf", "train") ∧
    confDisk.read (hydraConfigFile "/w/conf" "train") = some (.file "lr: 2" 0o644) :=
  ⟨rfl, rfl⟩

/-- `--config conf/train.yml` passes the check, and its last part is not `b.yaml`. -/
theorem resolveConfig_hydra_iff_yml :
    (∀ x ∈ confDisk.cwd, isName x = true) ∧
      resolveConfig confDisk "m" (some "conf/train.yml") "train" = .ok ("/w/conf", "train") ∧
      (confDisk.read "conf/train.yml").isSome ∧
      (confDisk.locate (hydraConfigFile "/w/conf" "train") = confDisk.locate "conf/train.yml" ↔
        ∃ b, (confDisk.locate "conf/train.yml").getLast? = some (b ++ ".yaml") ∧
          (b = "" ∨ endsWith b ".yaml" = false)) :=
  ⟨by decide, rfl, @resolveConfig_hydra_iff confDisk "m" "train" "/w/conf" "train" (by decide) _ rfl⟩

end Resolve

end Cli
end FlagScale
