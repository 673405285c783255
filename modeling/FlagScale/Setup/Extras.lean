import FlagScale.Setup.Requirements

/-!
# `build_extras`

`build_extras` scans `requirements/<platform>/<task>.txt` and then `requirements/dev.txt`
and records, under the extra each file is named for, the file's dependencies without the
annotated ones (`EXTRAS`), its pip options without repeats (`PIP_OPTIONS`) and its
annotated packages (`PKG_OPTIONS`).  The two nested loops depend only on the pair of an
extra name and a file, so the model first lists those pairs in scan order (`scanFiles`)
and then folds `Extras.record` over them.

The three assignments are each guarded by their own test, and nothing checks that two
files give different names: a platform directory whose name contains `-`, or one named
`dev`, makes two files share an extra, and the later file then overwrites whichever of
the three entries it has a value for.  When no other scanned file shares a file's name,
`buildExtras_unique_name` shows that the three entries are the file's own and that every
dependency of the file is in exactly one of `EXTRAS[name]` and the keys of
`PKG_OPTIONS[name]`.
-/

namespace FlagScale
namespace Setup

open Python

/-- `extra_name = entry if task == "base" else f"{entry}-{task}"`. -/
def extraName (entry task : String) : String :=
  if task = "base" then entry else entry ++ "-" ++ task

/-- The `(extra_name, requirements file)` pairs the loops over `requirements/` visit, in
order.  A listing entry is `(name, some files)` for a directory and `(name, none)` for
anything else. -/
def scanFiles (listing : List (String × Option (List String))) : List (String × String) :=
  (sortedByKey listing).flatMap fun entry =>
    match entry.2 with
    | none => []
    | some files =>
      ((sorted files).filter (endsWith · ".txt")).map fun filename =>
        (extraName entry.1 (dropRightChars filename 4),
          pathJoin (pathJoin "requirements" entry.1) filename)

/-- Every file `build_extras` reads, with the extra it is recorded under. -/
def extraFiles (listing : List (String × Option (List String))) : List (String × String) :=
  scanFiles listing ++ [("dev", "requirements/dev.txt")]

/-- `(extras, extra_pip_options, extra_pkg_options)`. -/
structure Extras where
  extras : PyDict String (List String)
  pipOptions : PyDict String (List String)
  pkgOptions : PyDict String (PyDict String (List String))
  deriving DecidableEq

namespace Extras

def empty : Extras := ⟨.empty, .empty, .empty⟩

/-- `[d for d in deps if d not in pkg_opts]`. -/
def normalDeps (r : Requirements) : List String :=
  r.deps.filter fun d => d ∉ r.pkgOptions.keys

/-- The loop body for one file: the three guarded assignments. -/
def record (e : Extras) (name : String) (r : Requirements) : Extras where
  extras :=
    if !(normalDeps r).isEmpty || !r.pkgOptions.items.isEmpty then e.extras.set name (normalDeps r)
    else e.extras
  pipOptions :=
    if !r.pipOptions.isEmpty then e.pipOptions.set name (PyDict.fromKeys r.pipOptions).keys
    else e.pipOptions
  pkgOptions := if !r.pkgOptions.items.isEmpty then e.pkgOptions.set name r.pkgOptions else e.pkgOptions

end Extras

/-- `build_extras()`, each `parse_requirements` call bounded by `fuel`. -/
def buildExtras (tree : FileTree) (resolve : String → String → String) (fuel : Nat)
    (listing : List (String × Option (List String))) : Option Extras :=
  (extraFiles listing).foldlM
    (fun e file => (parseRequirements tree resolve fuel file.2).map (e.record file.1))
    Extras.empty

/-! ## One file's entries -/

namespace Extras

variable (e : Extras) (name : String) (r : Requirements)

/-- The value `EXTRAS[name]` takes from one file, if it sets one. -/
def extrasOf : Option (List String) :=
  if !(normalDeps r).isEmpty || !r.pkgOptions.items.isEmpty then some (normalDeps r) else none

def pipOptionsOf : Option (List String) :=
  if !r.pipOptions.isEmpty then some (PyDict.fromKeys r.pipOptions).keys else none

def pkgOptionsOf : Option (PyDict String (List String)) :=
  if !r.pkgOptions.items.isEmpty then some r.pkgOptions else none

variable {e name r}

theorem extras_record (k : String) :
    (e.record name r).extras.get? k = if k = name then (extrasOf r).or (e.extras.get? k)
      else e.extras.get? k := by
  dsimp only [record, extrasOf]
  split_ifs <;> by_cases hk : k = name <;> simp_all [PyDict.get?_set]

theorem pipOptions_record (k : String) :
    (e.record name r).pipOptions.get? k = if k = name then (pipOptionsOf r).or (e.pipOptions.get? k)
      else e.pipOptions.get? k := by
  dsimp only [record, pipOptionsOf]
  split_ifs <;> by_cases hk : k = name <;> simp_all [PyDict.get?_set]

theorem pkgOptions_record (k : String) :
    (e.record name r).pkgOptions.get? k = if k = name then (pkgOptionsOf r).or (e.pkgOptions.get? k)
      else e.pkgOptions.get? k := by
  dsimp only [record, pkgOptionsOf]
  split_ifs <;> by_cases hk : k = name <;> simp_all [PyDict.get?_set]

/-- The three entries under `name`. -/
def entries (e : Extras) (name : String) :
    Option (List String) × Option (List String) × Option (PyDict String (List String)) :=
  (e.extras.get? name, e.pipOptions.get? name, e.pkgOptions.get? name)

theorem entries_record_of_ne {k : String} (hk : k ≠ name) :
    (e.record name r).entries k = e.entries k := by
  simp [entries, extras_record, pipOptions_record, pkgOptions_record, hk]

theorem entries_record_self :
    (e.record name r).entries name = ((extrasOf r).or (e.extras.get? name),
      (pipOptionsOf r).or (e.pipOptions.get? name), (pkgOptionsOf r).or (e.pkgOptions.get? name)) := by
  simp [entries, extras_record, pipOptions_record, pkgOptions_record]

/-- `d` is in `EXTRAS[name]`. -/
def Lists (e : Extras) (name d : String) : Prop := ∃ ds, e.extras.get? name = some ds ∧ d ∈ ds

/-- `d` is a key of `PKG_OPTIONS[name]`. -/
def Annotates (e : Extras) (name d : String) : Prop :=
  ∃ p, e.pkgOptions.get? name = some p ∧ d ∈ p.keys

theorem lists_iff {d : String} (h : e.extras.get? name = extrasOf r) : e.Lists name d ↔ d ∈ normalDeps r := by
  simp only [Lists, h, extrasOf]
  split_ifs with hne
  · simp
  · have hnil : normalDeps r = [] ∧ r.pkgOptions.items = [] := by simpa using hne
    simp [hnil.1]

theorem annotates_iff {d : String} (h : e.pkgOptions.get? name = pkgOptionsOf r) :
    e.Annotates name d ↔ d ∈ r.pkgOptions.keys := by
  simp only [Annotates, h, pkgOptionsOf]
  split_ifs with hne
  · simp
  · simp [PyDict.keys, by simpa using hne]

/-- When the entries under `name` are one file's own, each dependency of the file is in
exactly one of `EXTRAS[name]` and the keys of `PKG_OPTIONS[name]`. -/
theorem xor_lists_annotates (h : e.entries name = (extrasOf r, pipOptionsOf r, pkgOptionsOf r)) {d : String}
    (hd : d ∈ r.deps) : Xor' (e.Lists name d) (e.Annotates name d) := by
  simp only [entries, Prod.mk.injEq] at h
  rw [lists_iff h.1, annotates_iff h.2.2, normalDeps, List.mem_filter]
  by_cases hk : d ∈ r.pkgOptions.keys <;> simp [Xor', hd, hk]

end Extras

variable {tree : FileTree} {resolve : String → String → String} {fuel : Nat}

/-- Files recorded under other names leave the entries under `name` alone. -/
theorem foldlM_record_entries_of_not_mem {name : String} :
    ∀ {files : List (String × String)} {e e' : Extras}, name ∉ files.map Prod.fst →
      files.foldlM (fun e file => (parseRequirements tree resolve fuel file.2).map
        (e.record file.1)) e = some e' → e'.entries name = e.entries name
  | [], _, _, _, h => by cases h; rfl
  | file :: files, e, e', hn, h => by
    simp only [List.map_cons, List.mem_cons, not_or] at hn
    rw [List.foldlM_cons] at h
    obtain ⟨u, hu, h⟩ := Option.bind_eq_some.mp h
    rw [Option.map_eq_some'] at hu
    obtain ⟨r, -, rfl⟩ := hu
    rw [foldlM_record_entries_of_not_mem hn.2 h, Extras.entries_record_of_ne hn.1]

section UniqueName

variable {listing : List (String × Option (List String))} {name file : String} {e : Extras} {r : Requirements}
  (hfile : (name, file) ∈ extraFiles listing)
  (hunique : (extraFiles listing).countP (fun p => p.1 = name) = 1)
  (he : buildExtras tree resolve fuel listing = some e)
  (hr : parseRequirements tree resolve fuel file = some r)
include hfile hunique he hr

/-- A file whose extra name no other scanned file has: the three entries under the name
are the file's own. -/
theorem buildExtras_entries_of_unique :
    e.entries name = (Extras.extrasOf r, Extras.pipOptionsOf r, Extras.pkgOptionsOf r) := by
  obtain ⟨pre, post, hsplit⟩ := List.append_of_mem hfile
  rw [hsplit] at hunique
  simp only [List.countP_append, List.countP_cons, decide_True, if_true] at hunique
  have hnot : ∀ l : List (String × String), l.countP (fun p => p.1 = name) = 0 →
      name ∉ l.map Prod.fst := fun l hl h => by
    obtain ⟨p, hp, rfl⟩ := List.mem_map.mp h
    exact absurd (List.countP_eq_zero.mp hl p hp) (by simp)
  unfold buildExtras at he
  rw [hsplit, List.foldlM_append] at he
  obtain ⟨u, hu, he⟩ := Option.bind_eq_some.mp he
  rw [List.foldlM_cons, hr, Option.map_some'] at he
  have hu' := foldlM_record_entries_of_not_mem (hnot pre (by omega)) hu
  rw [foldlM_record_entries_of_not_mem (hnot post (by omega)) he, Extras.entries_record_self]
  simp only [Extras.entries, Prod.mk.injEq] at hu'
  simp [hu'.1, hu'.2.1, hu'.2.2, Extras.empty]

/-- A file whose extra name no other scanned file has: the three entries under the name
are the file's own, and each of its dependencies is in exactly one of `EXTRAS[name]` and
the keys of `PKG_OPTIONS[name]`. -/
theorem buildExtras_unique_name :
    e.entries name = (Extras.extrasOf r, Extras.pipOptionsOf r, Extras.pkgOptionsOf r) ∧
      ∀ d ∈ r.deps, Xor' (e.Lists name d) (e.Annotates name d) := by
  have h := buildExtras_entries_of_unique hfile hunique he hr
  exact ⟨h, fun _ => Extras.xor_lists_annotates h⟩

end UniqueName

/-- A tree with only `requirements/cuda/train.txt`: `numpy`, then `megatron` annotated with
`--no-build-isolation`. -/
def cudaTrainTree : FileTree :=
  ⟨[("requirements/cuda/train.txt", ["numpy", "# [--no-build-isolation]", "megatron"])]⟩

/-- With `cudaTrainTree`, `cuda/train.txt` is the one file recorded under `cuda-train`, and
both `build_extras` and its `parse_requirements` return. -/
theorem cudaTrain_unique :
    ("cuda-train", "requirements/cuda/train.txt") ∈ extraFiles [("cuda", some ["train.txt"])] ∧
    (extraFiles [("cuda", some ["train.txt"])]).countP (fun p => p.1 = "cuda-train") = 1 ∧
    ∃ e r, buildExtras cudaTrainTree (fun _ x => x) 1 [("cuda", some ["train.txt"])] = some e ∧
      parseRequirements cudaTrainTree (fun _ x => x) 1 "requirements/cuda/train.txt" = some r := by
  obtain ⟨e, he⟩ := Option.isSome_iff_exists.mp
    (by decide : (buildExtras cudaTrainTree (fun _ x => x) 1 [("cuda", some ["train.txt"])]).isSome = true)
  obtain ⟨r, hr⟩ := Option.isSome_iff_exists.mp
    (by decide : (parseRequirements cudaTrainTree (fun _ x => x) 1 "requirements/cuda/train.txt").isSome = true)
  exact ⟨by decide, by decide, e, r, he, hr⟩

/-- `cuda/train.txt` alone: `numpy` in `EXTRAS["cuda-train"]`, `megatron` in
`PKG_OPTIONS["cuda-train"]`. -/
theorem buildExtras_unique_name_cuda :
    ("cuda-train", "requirements/cuda/train.txt") ∈ extraFiles [("cuda", some ["train.txt"])] ∧
    (extraFiles [("cuda", some ["train.txt"])]).countP (fun p => p.1 = "cuda-train") = 1 ∧
    ∃ e r, buildExtras cudaTrainTree (fun _ x => x) 1 [("cuda", some ["train.txt"])] = some e ∧
      parseRequirements cudaTrainTree (fun _ x => x) 1 "requirements/cuda/train.txt" = some r ∧
      e.entries "cuda-train" = (Extras.extrasOf r, Extras.pipOptionsOf r, Extras.pkgOptionsOf r) ∧
      ∀ d ∈ r.deps, Xor' (e.Lists "cuda-train" d) (e.Annotates "cuda-train" d) := by
  obtain ⟨hf, hu, e, r, he, hr⟩ := cudaTrain_unique
  exact ⟨hf, hu, e, r, he, hr, buildExtras_unique_name hf hu he hr⟩

/-- `cuda/train.txt` and `cuda-train/base.txt` are both recorded under `cuda-train`.  The
later file overwrites `EXTRAS["cuda-train"]`, so the `numpy` of the first is lost, while
`PKG_OPTIONS["cuda-train"]` keeps the first file's annotated `megatron`, which `EXTRAS`
now lists as well. -/
theorem buildExtras_shared_name :
    buildExtras ⟨[("requirements/cuda/train.txt", ["numpy", "# [--no-build-isolation]", "megatron"]),
        ("requirements/cuda-train/base.txt", ["megatron"])]⟩ (fun _ x => x) 1
      [("cuda", some ["train.txt"]), ("cuda-train", some ["base.txt"])] =
    some ⟨PyDict.empty.set "cuda-train" ["megatron"], .empty,
      PyDict.empty.set "cuda-train" (PyDict.empty.set "megatron" ["--no-build-isolation"])⟩ := by
  decide

end Setup
end FlagScale
