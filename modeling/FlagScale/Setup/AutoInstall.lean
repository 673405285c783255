import FlagScale.Setup.Extras
import Mathlib.Data.List.Sort

/-!
# `_auto_install_annotated_packages`

After `setup()`, `setup.py` installs the annotated packages itself: it walks the extras in
sorted order and their annotated packages in insertion order, and skips a package it has
already seen.  The walk visits the triples of `annotations`, and what the seen-set loop
keeps of them is `firstsBy` (`foldl_installStep`).

So each annotated package is installed exactly once, with the options and pip options
of the alphabetically first extra that annotates it (`autoInstallAnnotatedPackages_spec`).
Where two extras annotate one package differently, the other extra's options are not used;
`get_pip_install_cmd` of that extra would pass them.

The verbosity is `int(os.environ.get("PIP_VERBOSE", "0"))`, 0 when `int()` refuses the
value, as it refuses `str(n)` of more than 4300 digits.  Every command carries
`"-" + "v" * verbose`, which for a negative value such as `PIP_VERBOSE=-1` is a bare `-`
argument (`autoInstallAnnotatedPackages_pipVerbose`).

Together with `build_extras`, no dependency of a requirements file is lost when its extra
name is its own: each is in `EXTRAS[name]` or is the package of an auto-install command
(`buildExtras_installs_every_dep`).
-/

namespace FlagScale
namespace Setup

open Python

/-- `cmd` for one package: `pip install`, its options, `-v...` when verbose, the words of
`" ".join(PIP_OPTIONS.get(extra_name, []))`, and the package. -/
def installArgs (verbose : Int) (pipOptions : List String) (pkg : String) (opts : List String) :
    List String :=
  ["pip", "install"] ++ opts ++
    (if verbose ≠ 0 then ["-" ++ ⟨List.replicate verbose.toNat 'v'⟩] else []) ++
    (if " ".intercalate pipOptions ≠ "" then splitWords (" ".intercalate pipOptions).data else []) ++
    [pkg]

/-- The inner loop body for `(extra_name, pkg, opts)`, with `(seen, commands so far)`. -/
def installStep (verbose : Int) (x : Extras) (acc : List String × List (List String))
    (a : String × String × List String) : List String × List (List String) :=
  if a.2.1 ∈ acc.1 then acc
  else (acc.1 ++ [a.2.1], acc.2 ++ [installArgs verbose (x.pipOptions.getD a.1 []) a.2.1 a.2.2])

/-- The commands `_auto_install_annotated_packages` passes to `subprocess.call`, in order;
`verbose` is `_get_pip_verbosity()`. -/
def autoInstallAnnotatedPackages (verbose : Int) (x : Extras) : List (List String) :=
  ((sortedByKey x.pkgOptions.items).foldl
    (fun acc entry => entry.2.items.foldl (fun acc item => installStep verbose x acc
      (entry.1, item.1, item.2)) acc) ([], [])).2

/-- The `(extra, package, options)` triples the two loops visit, in order. -/
def annotations (x : Extras) : List (String × String × List String) :=
  (sortedByKey x.pkgOptions.items).flatMap fun entry =>
    entry.2.items.map fun item => (entry.1, item.1, item.2)

/-- The triples of `l` whose package is neither in `seen` nor in an earlier triple. -/
def firstsBy (seen : List String) : List (String × String × List String) →
    List (String × String × List String)
  | [] => []
  | a :: l => if a.2.1 ∈ seen then firstsBy seen l else a :: firstsBy (seen ++ [a.2.1]) l

/-! ## The seen-set loop -/

theorem foldl_installStep (verbose : Int) (x : Extras) :
    ∀ (l : List (String × String × List String)) (seen : List String) (out : List (List String)),
      l.foldl (installStep verbose x) (seen, out) =
        (seen ++ (firstsBy seen l).map (fun a => a.2.1),
          out ++ (firstsBy seen l).map fun a => installArgs verbose (x.pipOptions.getD a.1 []) a.2.1 a.2.2)
  | [], _, _ => by simp [firstsBy]
  | a :: l, seen, out => by
    rw [List.foldl_cons, firstsBy]
    by_cases ha : a.2.1 ∈ seen
    · rw [installStep, if_pos ha, if_pos ha, foldl_installStep]
    · rw [installStep, if_neg ha, if_neg ha, foldl_installStep]; simp

theorem autoInstallAnnotatedPackages_eq (verbose : Int) (x : Extras) :
    autoInstallAnnotatedPackages verbose x = (firstsBy [] (annotations x)).map
      fun a => installArgs verbose (x.pipOptions.getD a.1 []) a.2.1 a.2.2 := by
  have h := foldl_installStep verbose x (annotations x) [] []
  rw [annotations, List.flatMap, List.foldl_flatten, List.foldl_map] at h
  simp only [List.foldl_map] at h
  simpa using congrArg Prod.snd h

theorem mem_firstsBy {seen : List String} :
    ∀ {l : List (String × String × List String)} {a : String × String × List String},
      a ∈ firstsBy seen l → a.2.1 ∉ seen ∧ l.find? (fun b => b.2.1 = a.2.1) = some a
  | [], _, h => by simp [firstsBy] at h
  | b :: l, a, h => by
    unfold firstsBy at h
    split at h
    · obtain ⟨ha, hf⟩ := mem_firstsBy h
      have hne : b.2.1 ≠ a.2.1 := fun e => ha (e ▸ ‹_›)
      exact ⟨ha, by simp [List.find?_cons, hne, hf]⟩
    · rcases List.mem_cons.mp h with rfl | h
      · exact ⟨‹_›, by simp [List.find?_cons]⟩
      · obtain ⟨ha, hf⟩ := mem_firstsBy h
        have hne : b.2.1 ≠ a.2.1 := fun e => ha (by simp [e])
        exact ⟨fun hs => ha (List.mem_append_left _ hs), by simp [List.find?_cons, hne, hf]⟩

theorem mem_map_firstsBy {seen : List String} :
    ∀ {l : List (String × String × List String)} {p : String},
      p ∈ (firstsBy seen l).map (fun a => a.2.1) ↔ p ∉ seen ∧ p ∈ l.map fun a => a.2.1
  | [], _ => by simp [firstsBy]
  | b :: l, p => by
    unfold firstsBy
    split
    · rw [mem_map_firstsBy]
      by_cases hp : p = b.2.1
      · subst hp; simp_all
      · simp [hp]
    · rw [List.map_cons, List.mem_cons, mem_map_firstsBy]
      by_cases hp : p = b.2.1
      · subst hp; simp_all
      · simp [hp]

theorem nodup_firstsBy :
    ∀ (seen : List String) (l : List (String × String × List String)),
      ((firstsBy seen l).map fun a => a.2.1).Nodup
  | _, [] => List.nodup_nil
  | seen, b :: l => by
    unfold firstsBy
    split
    · exact nodup_firstsBy seen l
    · rw [List.map_cons, List.nodup_cons, mem_map_firstsBy]
      exact ⟨fun h => h.1 (List.mem_append_right _ (List.mem_singleton_self _)),
        nodup_firstsBy _ l⟩

/-! ## The visited triples -/

theorem mem_annotations {x : Extras} {a : String × String × List String} :
    a ∈ annotations x ↔ ∃ d, x.pkgOptions.get? a.1 = some d ∧ d.get? a.2.1 = some a.2.2 := by
  simp only [annotations, List.mem_flatMap, List.mem_map]
  constructor
  · rintro ⟨⟨e, d⟩, he, ⟨p, o⟩, hp, rfl⟩
    exact ⟨d, PyDict.mem_items_iff_get?.mp ((List.perm_insertionSort _ _).subset he),
      PyDict.mem_items_iff_get?.mp hp⟩
  · rintro ⟨d, hd, hp⟩
    exact ⟨(a.1, d), (List.perm_insertionSort _ _).symm.subset (PyDict.mem_items_iff_get?.mpr hd),
      (a.2.1, a.2.2), PyDict.mem_items_iff_get?.mpr hp, rfl⟩

/-- The extras come in sorted order. -/
theorem annotations_sorted (x : Extras) :
    (annotations x).Pairwise fun a b => strLe a.1 b.1 := by
  let r := fun a b : String × PyDict String (List String) => strLe a.1 b.1 = true
  have hs : (sortedByKey x.pkgOptions.items).Pairwise r :=
    @List.sorted_insertionSort _ r _ ⟨fun a b => strLe_total a.1 b.1⟩ ⟨fun _ _ _ => strLe_trans⟩ _
  refine List.pairwise_flatMap.mpr ⟨fun e _ => ?_, hs.imp fun h a ha b hb => ?_⟩
  · exact List.pairwise_map.mpr (List.pairwise_of_forall fun _ _ => (strLe_total e.1 e.1).elim id id)
  · obtain ⟨_, _, rfl⟩ := List.mem_map.mp ha
    obtain ⟨_, _, rfl⟩ := List.mem_map.mp hb
    exact h

/-- The first triple of a package has the least extra among its triples. -/
theorem le_of_find?_eq_some {l : List (String × String × List String)}
    (hl : l.Pairwise fun a b => strLe a.1 b.1) {a b : String × String × List String}
    (ha : l.find? (fun c => c.2.1 = a.2.1) = some a) (hb : b ∈ l) (hab : b.2.1 = a.2.1) :
    strLe a.1 b.1 := by
  obtain ⟨-, pre, post, rfl, hpre⟩ := List.find?_eq_some.mp ha
  rcases List.mem_append.mp hb with hb | hb
  · exact absurd (hpre b hb) (by simp [hab])
  · rcases List.mem_cons.mp hb with rfl | hb
    · exact (strLe_total _ _).elim id id
    · exact List.rel_of_pairwise_cons (List.pairwise_append.mp hl).2.1 hb

/-- `_auto_install_annotated_packages` issues one command per distinct annotated package,
and the command for a package is built from the options and the pip options of the
alphabetically first extra that annotates it. -/
theorem autoInstallAnnotatedPackages_spec (verbose : Int) (x : Extras) :
    ∃ firsts : List (String × String × List String),
      autoInstallAnnotatedPackages verbose x =
          firsts.map (fun a => installArgs verbose (x.pipOptions.getD a.1 []) a.2.1 a.2.2) ∧
        (firsts.map fun a => a.2.1).Nodup ∧
        (∀ p, p ∈ firsts.map (fun a => a.2.1) ↔
          ∃ e d, x.pkgOptions.get? e = some d ∧ p ∈ d.keys) ∧
        ∀ a ∈ firsts, (∃ d, x.pkgOptions.get? a.1 = some d ∧ d.get? a.2.1 = some a.2.2) ∧
          ∀ e d, x.pkgOptions.get? e = some d → a.2.1 ∈ d.keys → strLe a.1 e := by
  refine ⟨firstsBy [] (annotations x), autoInstallAnnotatedPackages_eq verbose x,
    nodup_firstsBy [] _, fun p => ?_, fun a ha => ?_⟩
  · rw [mem_map_firstsBy, List.mem_map]
    constructor
    · rintro ⟨-, b, hb, rfl⟩
      obtain ⟨d, hd, hp⟩ := mem_annotations.mp hb
      exact ⟨b.1, d, hd, PyDict.isSome_get?_iff.mp (by simp [hp])⟩
    · rintro ⟨e, d, hd, hp⟩
      obtain ⟨o, ho⟩ := Option.isSome_iff_exists.mp (PyDict.isSome_get?_iff.mpr hp)
      exact ⟨List.not_mem_nil _, (e, p, o), mem_annotations.mpr ⟨d, hd, ho⟩, rfl⟩
  · obtain ⟨-, hf⟩ := mem_firstsBy ha
    refine ⟨mem_annotations.mp (List.mem_of_find?_eq_some hf), fun e d hd hp => ?_⟩
    obtain ⟨o, ho⟩ := Option.isSome_iff_exists.mp (PyDict.isSome_get?_iff.mpr hp)
    exact le_of_find?_eq_some (annotations_sorted x) hf
      (b := (e, a.2.1, o)) (mem_annotations.mpr ⟨d, hd, ho⟩) rfl

/-! ## The verbosity flag -/

/-- The package a command installs is its last argument. -/
theorem getLast?_installArgs (verbose : Int) (pipOptions : List String) (pkg : String) (opts : List String) :
    (installArgs verbose pipOptions pkg opts).getLast? = some pkg :=
  List.getLast?_concat _

/-- Every annotated package of every extra is the last argument of one command. -/
theorem exists_autoInstall_of_annotated (verbose : Int) {x : Extras} {extra p : String}
    {pkgOpts : PyDict String (List String)} (hx : x.pkgOptions.get? extra = some pkgOpts) (hp : p ∈ pkgOpts.keys) :
    ∃ cmd ∈ autoInstallAnnotatedPackages verbose x, cmd.getLast? = some p := by
  obtain ⟨o, ho⟩ := Option.isSome_iff_exists.mp (PyDict.isSome_get?_iff.mpr hp)
  have hmem : p ∈ (firstsBy [] (annotations x)).map fun a => a.2.1 :=
    mem_map_firstsBy.mpr ⟨List.not_mem_nil _, List.mem_map.mpr ⟨(extra, p, o),
      mem_annotations.mpr ⟨pkgOpts, hx, ho⟩, rfl⟩⟩
  obtain ⟨a, ha, rfl⟩ := List.mem_map.mp hmem
  rw [autoInstallAnnotatedPackages_eq]
  exact ⟨_, List.mem_map_of_mem _ ha, getLast?_installArgs _ _ _ _⟩

variable {tree : FileTree} {resolve : String → String → String} {fuel : Nat}

/-- A requirements file whose extra name no other scanned file has loses none of its
dependencies: each is in `EXTRAS[name]`, which `pip install ".[name]"` installs, or else
`_auto_install_annotated_packages` issues a command whose package is that dependency. -/
theorem buildExtras_installs_every_dep {listing : List (String × Option (List String))}
    {name file : String} {e : Extras} {r : Requirements}
    (hfile : (name, file) ∈ extraFiles listing)
    (hunique : (extraFiles listing).countP (fun p => p.1 = name) = 1)
    (he : buildExtras tree resolve fuel listing = some e)
    (hr : parseRequirements tree resolve fuel file = some r) (verbose : Int) :
    ∀ d ∈ r.deps, (∃ ds, e.extras.get? name = some ds ∧ d ∈ ds) ∨
      ∃ cmd ∈ autoInstallAnnotatedPackages verbose e, cmd.getLast? = some d := by
  intro d hd
  rcases Extras.xor_lists_annotates (buildExtras_entries_of_unique hfile hunique he hr) hd with
    ⟨hl, -⟩ | ⟨⟨p, hp, hk⟩, -⟩
  · exact .inl hl
  · exact .inr (exists_autoInstall_of_annotated verbose hp hk)

/-- `cuda/train.txt` alone: `numpy` is in `EXTRAS["cuda-train"]` and `megatron` is
auto-installed. -/
theorem buildExtras_installs_every_dep_cuda :
    ("cuda-train", "requirements/cuda/train.txt") ∈ extraFiles [("cuda", some ["train.txt"])] ∧
    (extraFiles [("cuda", some ["train.txt"])]).countP (fun p => p.1 = "cuda-train") = 1 ∧
    ∃ e r, buildExtras cudaTrainTree (fun _ x => x) 1 [("cuda", some ["train.txt"])] = some e ∧
      parseRequirements cudaTrainTree (fun _ x => x) 1 "requirements/cuda/train.txt" = some r ∧
      ∀ d ∈ r.deps, (∃ ds, e.extras.get? "cuda-train" = some ds ∧ d ∈ ds) ∨
        ∃ cmd ∈ autoInstallAnnotatedPackages 0 e, cmd.getLast? = some d := by
  obtain ⟨hf, hu, e, r, he, hr⟩ := cudaTrain_unique
  exact ⟨hf, hu, e, r, he, hr, buildExtras_installs_every_dep hf hu he hr 0⟩

/-- `cuda/train.txt` and `rocm/train.txt` annotate `megatron` with different options, and
`rocm/train.txt` also has a pip option.  Only the `cuda-train` command is issued: the
options `PKG_OPTIONS["rocm-train"]["megatron"]` and `PIP_OPTIONS["rocm-train"]` are not
used. -/
theorem autoInstallAnnotatedPackages_first_extra_wins :
    (buildExtras ⟨[("requirements/cuda/train.txt", ["# [--no-build-isolation]", "megatron"]),
        ("requirements/rocm/train.txt", ["--pre", "# [--no-deps]", "megatron"])]⟩ (fun _ x => x) 1
      [("cuda", some ["train.txt"]), ("rocm", some ["train.txt"])]).map
      (fun x => (autoInstallAnnotatedPackages 0 x, x.pkgOptions.get? "rocm-train",
        x.pipOptions.get? "rocm-train")) =
    some ([["pip", "install", "--no-build-isolation", "megatron"]],
      some (PyDict.empty.set "megatron" ["--no-deps"]), some ["--pre"]) := by
  decide

end Setup
end FlagScale
