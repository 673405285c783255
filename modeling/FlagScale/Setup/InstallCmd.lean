import FlagScale.Setup.Extras
import FlagScale.Posix.Test
import Mathlib.Data.List.Perm.Basic

/-!
# `get_pip_install_cmd`

The command line for one extra: `pip install ".[extra]"` for its plain dependencies, and
one further `pip install` for each distinct option set of its annotated packages, every
command followed by the extra's pip options.  The grouping loop is `groupPackages`.

The grouping is exact for every `PKG_OPTIONS` map: the group lists together are a
permutation of the annotated packages (`groupPackages_perm`), so each package is quoted
in exactly one command, and a package is in the group keyed by its own sorted options
(`mem_groupPackages_iff`).  That the first command covers no annotated package is not a
fact about this function: it holds when `EXTRAS[extra]` and `PKG_OPTIONS[extra]` come from
one file (`buildExtras_unique_name`), which `build_extras` does not ensure; when they do,
`get_pip_install_cmd` installs every dependency of the file
(`getPipInstallCmd_installs_every_dep`).
-/

namespace FlagScale
namespace Setup

open Python

/-- `groups`: the annotated packages keyed by `tuple(sorted(options))`, in the order of
`pkg_opts.items()`. -/
def groupPackages (pkgOpts : PyDict String (List String)) : PyDict (List String) (List String) :=
  pkgOpts.items.foldl (fun groups item => groups.appendAt (sorted item.2) item.1) .empty

/-- `opts`: `f" {opt}"` for each pip option of the extra. -/
def optsSuffix (pipOpts : List String) : String := String.join (pipOpts.map (" " ++ ·))

/-- `f'pip install ".[{extra_name}]"{opts}'`. -/
def extrasCmd (extraName opts : String) : String := "pip install \".[" ++ extraName ++ "]\"" ++ opts

/-- `f"pip install {opt_str} {pkg_str}{opts}"` for one group. -/
def groupCmd (opts : String) (group : List String × List String) : String :=
  "pip install " ++ " ".intercalate group.1 ++ " " ++
    " ".intercalate (group.2.map fun p => "\"" ++ p ++ "\"") ++ opts

/-- `get_pip_install_cmd(extra_name)` over the three dictionaries of `build_extras`. -/
def getPipInstallCmd (x : Extras) (extraName : String) : Option String :=
  if extraName ∉ x.extras.keys ∧ extraName ∉ x.pkgOptions.keys then none
  else
    let opts := optsSuffix (x.pipOptions.getD extraName [])
    let pkgOpts := x.pkgOptions.getD extraName .empty
    if pkgOpts.items.isEmpty then some (extrasCmd extraName opts)
    else
      let cmds := (if (x.extras.getD extraName []).isEmpty then [] else [extrasCmd extraName opts]) ++
        (groupPackages pkgOpts).items.map (groupCmd opts)
      some (" && ".intercalate cmds)

/-! ## The grouping loop -/

section Groups

variable {β : Type}

/-- Appending to one group adds that package to the concatenation of all groups. -/
theorem perm_flatMap_alterItems (k : List String) (p : β) (l : List (List String × List β)) :
    ((alterItems k (fun v => v.getD [] ++ [p]) l).flatMap Prod.snd).Perm
      (l.flatMap Prod.snd ++ [p]) := by
  induction l with
  | nil => simp [alterItems]
  | cons e rest ih =>
    obtain ⟨k', v⟩ := e
    unfold alterItems
    split
    · simpa using (List.perm_append_singleton p (rest.flatMap Prod.snd)).symm.append_left v
    · simpa using ih.append_left v

theorem getD_foldl_appendAt (items : List (String × List String))
    (g : PyDict (List String) (List String)) (key : List String) :
    ((items.foldl (fun groups item => groups.appendAt (sorted item.2) item.1) g).get? key).getD [] =
      (g.get? key).getD [] ++ (items.filter fun i => sorted i.2 = key).map Prod.fst := by
  induction items generalizing g with
  | nil => simp
  | cons i rest ih =>
    rw [List.foldl_cons, ih, PyDict.get?_appendAt, List.filter_cons]
    by_cases hk : key = sorted i.2
    · simp [hk]
    · simp [hk, Ne.symm hk]

theorem mem_keys_foldl_appendAt (items : List (String × List String))
    (g : PyDict (List String) (List String)) (key : List String) :
    key ∈ (items.foldl (fun groups item => groups.appendAt (sorted item.2) item.1) g).keys ↔
      key ∈ g.keys ∨ ∃ i ∈ items, sorted i.2 = key := by
  induction items generalizing g with
  | nil => simp
  | cons i rest ih =>
    rw [List.foldl_cons, ih, PyDict.appendAt, PyDict.mem_keys_alter]
    simp only [List.mem_cons, exists_eq_or_imp]
    tauto

/-- The groups together hold every annotated package once. -/
theorem groupPackages_perm (pkgOpts : PyDict String (List String)) :
    ((groupPackages pkgOpts).items.flatMap Prod.snd).Perm pkgOpts.keys := by
  suffices h : ∀ (items : List (String × List String)) (g : PyDict (List String) (List String)),
      ((items.foldl (fun groups item => groups.appendAt (sorted item.2) item.1) g).items.flatMap
        Prod.snd).Perm (g.items.flatMap Prod.snd ++ items.map Prod.fst) by
    simpa [groupPackages, PyDict.empty, PyDict.keys] using h pkgOpts.items .empty
  intro items
  induction items with
  | nil => simp
  | cons i rest ih =>
    intro g
    refine (ih _).trans ?_
    simpa using (perm_flatMap_alterItems (sorted i.2) i.1 g.items).append_right (rest.map Prod.fst)

/-- A package is in a group exactly when it is annotated with options that sort to the
group's key. -/
theorem mem_groupPackages_iff {pkgOpts : PyDict String (List String)}
    {group : List String × List String} (hg : group ∈ (groupPackages pkgOpts).items) (p : String) :
    p ∈ group.2 ↔ ∃ opts, pkgOpts.get? p = some opts ∧ sorted opts = group.1 := by
  have hget := PyDict.mem_items_iff_get?.mp hg
  have h := getD_foldl_appendAt pkgOpts.items .empty group.1
  rw [← groupPackages, hget] at h
  simp only [Option.getD_some, PyDict.get?_empty, Option.getD_none, List.nil_append] at h
  rw [h, List.mem_map]
  constructor
  · rintro ⟨⟨q, opts⟩, hi, rfl⟩
    exact ⟨opts, PyDict.mem_items_iff_get?.mp (List.mem_filter.mp hi).1,
      by simpa using (List.mem_filter.mp hi).2⟩
  · rintro ⟨opts, hp, hs⟩
    exact ⟨(p, opts), List.mem_filter.mpr ⟨PyDict.mem_items_iff_get?.mpr hp, by simpa using hs⟩, rfl⟩

/-- Every annotated package has the group of its sorted options. -/
theorem exists_group_of_get? {pkgOpts : PyDict String (List String)} {p : String}
    {opts : List String} (hp : pkgOpts.get? p = some opts) :
    ∃ ps, (sorted opts, ps) ∈ (groupPackages pkgOpts).items ∧ p ∈ ps := by
  have hk : sorted opts ∈ (groupPackages pkgOpts).keys :=
    (mem_keys_foldl_appendAt pkgOpts.items .empty _).mpr
      (.inr ⟨(p, opts), PyDict.mem_items_iff_get?.mpr hp, rfl⟩)
  obtain ⟨ps, hps⟩ := Option.isSome_iff_exists.mp (PyDict.isSome_get?_iff.mpr hk)
  have hmem := PyDict.mem_items_iff_get?.mpr hps
  exact ⟨ps, hmem, (mem_groupPackages_iff hmem p).mpr ⟨opts, hp, rfl⟩⟩

end Groups

/-! ## How the shell reads the commands

The command line is meant for a shell.  When every annotated package has no `"`, `\`, `$`,
backquote or NUL, its options are plain words, and the pip options are plain words and
blanks, the shell reads each command as the words pip is meant to get, and the line as the
and-list of those commands (`andList_getPipInstallCmd`). -/

/-- The words the shell, like `str.split()`, makes of the extra's pip options. -/
def pipOptionWords (pipOpts : List String) : List String := splitWords (" ".intercalate pipOpts).data

open Posix Lexer

/-- The annotated packages can be double-quoted and their options are plain words. -/
def QuotablePackages (pkgOpts : PyDict String (List String)) : Prop :=
  ∀ item ∈ pkgOpts.items, (∀ c ∈ item.1.data, isDqChar c = true) ∧ ∀ x ∈ item.2, isPlain x = true

instance (pkgOpts : PyDict String (List String)) : Decidable (QuotablePackages pkgOpts) :=
  inferInstanceAs (Decidable (∀ item ∈ pkgOpts.items,
    (∀ c ∈ item.1.data, isDqChar c = true) ∧ ∀ x ∈ item.2, isPlain x = true))

/-- The pip options are plain words and blanks. -/
def PlainOptions (pipOpts : List String) : Prop :=
  ∀ c ∈ (" ".intercalate pipOpts).data, isPlainChar c = true ∨ Lexer.isBlank c = true

instance (pipOpts : List String) : Decidable (PlainOptions pipOpts) :=
  inferInstanceAs (Decidable (∀ c ∈ (" ".intercalate pipOpts).data,
    isPlainChar c = true ∨ Lexer.isBlank c = true))

/-- What the shell reads in a group's command. -/
def groupTokens (pipOpts : List String) (group : List String × List String) : List Token :=
  (["pip", "install"] ++ group.1).map Token.plain ++
    (group.2.map (fun p => Token.word (lits p true)) ++ (pipOptionWords pipOpts).map Token.plain)

theorem commandWords_groupTokens (pipOpts : List String) (group : List String × List String) :
    commandWords (groupTokens pipOpts group) =
      some (["pip", "install"] ++ group.1 ++ group.2 ++ pipOptionWords pipOpts) := by
  rw [show ["pip", "install"] ++ group.1 ++ group.2 ++ pipOptionWords pipOpts =
    "pip" :: "install" :: (group.1 ++ (group.2 ++ pipOptionWords pipOpts)) by simp]
  show commandWords (Token.plain "pip" :: Token.plain "install" :: (group.1.map Token.plain ++
    (group.2.map (fun p => Token.word (lits p true)) ++ (pipOptionWords pipOpts).map Token.plain))) = _
  refine commandWords_plain (by decide) (by decide) ?_
  rw [List.mapM_cons, value_plain, List.mapM_append, mapM_value_plain, List.mapM_append, mapM_value_quoted,
    mapM_value_plain]
  rfl

theorem optsSuffix_cons_data (o : String) (os : List String) :
    (optsSuffix (o :: os)).data = ' ' :: (" ".intercalate (o :: os)).data := by
  simp [optsSuffix, join_data, intercalate_cons_data, String.data_append, Function.comp_def]

/-- A group's packages are annotated with options that sort to its key. -/
theorem exists_mem_groupPackages {pkgOpts : PyDict String (List String)}
    {group : List String × List String} (hg : group ∈ (groupPackages pkgOpts).items) :
    ∃ p o, pkgOpts.get? p = some o ∧ sorted o = group.1 ∧ p ∈ group.2 := by
  obtain ⟨⟨p, o⟩, hi, hs⟩ := (mem_keys_foldl_appendAt pkgOpts.items .empty group.1).mp
    (List.mem_map_of_mem Prod.fst hg) |>.resolve_left (by simp)
  have hp := PyDict.mem_items_iff_get?.mp hi
  exact ⟨p, o, hp, hs, (mem_groupPackages_iff hg p).mpr ⟨o, hp, hs⟩⟩

section Reading

variable {t : Char} (ht : t = ' ' ∨ t = '\n')
include ht

/-- The pip options after the word `ps`. -/
theorem reads_optsSuffix {pipOpts : List String} (hpip : PlainOptions pipOpts) (ps : List Piece) :
    Posix.Reads (inWord ps) ((optsSuffix pipOpts).data ++ [t]) init
      (.word ps :: ((pipOptionWords pipOpts).map Token.plain ++ endTokens t)) := by
  cases pipOpts with
  | nil => exact reads_inWord_end ht ps
  | cons o os =>
    rw [optsSuffix_cons_data]
    exact Reads.cons rfl (reads_plainBlank ht [] hpip)

/-- `" ".join(f'"{p}"' for p in pkgs)`, then the pip options. -/
theorem reads_quotedPackages {pipOpts : List String} (hpip : PlainOptions pipOpts) :
    ∀ {pkgs : List String}, pkgs ≠ [] → (∀ p ∈ pkgs, ∀ c ∈ p.data, isDqChar c = true) →
      Posix.Reads init ((" ".intercalate (pkgs.map fun p => "\"" ++ p ++ "\"")).data ++
          ((optsSuffix pipOpts).data ++ [t])) init
        (pkgs.map (fun p => Token.word (lits p true)) ++ ((pipOptionWords pipOpts).map Token.plain ++ endTokens t))
  | [p], _, h => by
    simpa [intercalate_cons_data, String.data_append] using
      (reads_dqWord (h p (.head _))).append (reads_optsSuffix ht hpip _)
  | p :: q :: ps, _, h => by
    have ih := reads_quotedPackages hpip (List.cons_ne_nil q ps) fun p' hp' => h p' (.tail _ hp')
    rw [List.map_cons, List.map_cons, intercalate_cons_cons_data]
    simpa [String.data_append] using (reads_dqWord (h p (.head _))).append
      (Reads.cons (show (inWord (lits p true)).step ' ' = (init, [.word (lits p true)]) from rfl) ih)

/-- `f"pip install {opt_str} {pkg_str}{opts}"` reads as `pip install`, the sorted options,
the packages and the words of the pip options. -/
theorem reads_groupCmd {pipOpts : List String} (hpip : PlainOptions pipOpts) {group : List String × List String}
    (hopts : ∀ x ∈ group.1, isPlain x = true) (hpkgs : ∀ p ∈ group.2, ∀ c ∈ p.data, isDqChar c = true)
    (hne : group.2 ≠ []) :
    Posix.Reads init ((groupCmd (optsSuffix pipOpts) group).data ++ [t]) init
      (groupTokens pipOpts group ++ endTokens t) := by
  have hchars : ∀ c ∈ ("pip install " ++ " ".intercalate group.1).data,
      isPlainChar c = true ∨ Lexer.isBlank c = true := by
    intro c hc
    rw [String.data_append, List.mem_append] at hc
    rcases hc with hc | hc
    · exact (by decide : ∀ c ∈ "pip install ".data, isPlainChar c = true ∨ Lexer.isBlank c = true) c hc
    · rcases mem_intercalate_data hc with hc | ⟨x, hx, hc⟩
      · exact .inr (by simp_all [Lexer.isBlank])
      · exact .inl ((isPlain_iff.mp (hopts x hx)).2 c hc)
  have hpre : ∀ x, splitWordsAux [] ("pip install ".data ++ x) = ["pip", "install"] ++ splitWordsAux [] x :=
    fun _ => rfl
  have hwords : splitWordsAux [] ("pip install " ++ " ".intercalate group.1).data = ["pip", "install"] ++ group.1 := by
    rw [String.data_append, hpre, ← splitWords, splitWords_intercalate fun x hx =>
      ⟨(isPlain_iff.mp (hopts x hx)).1, fun c hc => isSpace_of_isPlainChar ((isPlain_iff.mp (hopts x hx)).2 c hc)⟩]
  have h1 := reads_plainBlank (Or.inl rfl) [] hchars
  rw [hwords] at h1
  have h2 := reads_quotedPackages ht hpip hne hpkgs
  simpa [groupCmd, groupTokens, String.data_append] using h1.append h2

end Reading

/-- Commands joined by `" && "` and ended by a newline read as the and-list of their tokens. -/
theorem reads_andChain : ∀ {cmds : List String} {tss : List (List Token)}, cmds ≠ [] →
    List.Forall₂ (fun (c : String) ts => ∀ t, (t = ' ' ∨ t = '\n') →
      Posix.Reads init (c.data ++ [t]) init (ts ++ endTokens t)) cmds tss →
    Posix.Reads init ((" && ".intercalate cmds).data ++ ['\n']) init ([.op "&&"].intercalate tss ++ [.newline])
  | [c], [ts], _, .cons h .nil => by simpa [intercalate_cons_data, endTokens, List.intercalate] using h '\n' (.inr rfl)
  | c :: c' :: cs, ts :: ts' :: tss, _, .cons h h' => by
    rw [intercalate_cons_cons_data]
    have := (h ' ' (.inl rfl)).append ((show Posix.Reads init "&& ".data init [.op "&&"] from rfl).append
      (reads_andChain (List.cons_ne_nil _ _) h'))
    simpa [endTokens, List.intercalate, String.data_append] using this

/-- A line of commands that the shell reads as token lists `commandWords` accepts is the
and-list of their words. -/
theorem andList_commands {cmds : List String} {tss : List (List Token)} {argvs : List (List String)}
    (hne : cmds ≠ [])
    (h : List.Forall₂ (fun (c : String) ts => ∀ t, (t = ' ' ∨ t = '\n') →
      Posix.Reads init (c.data ++ [t]) init (ts ++ endTokens t)) cmds tss)
    (hop : ∀ ts ∈ tss, .op "&&" ∉ ts) (hw : tss.mapM commandWords = some argvs) :
    andList (lex (" && ".intercalate cmds ++ "\n")).2 = some argvs := by
  have hr := reads_andChain hne h
  have htss : tss ≠ [] := by
    rintro rfl
    exact hne (List.length_eq_zero.mp h.length_eq)
  simp only [Posix.Reads] at hr
  rw [lex, String.data_append, show "\n".data = ['\n'] from rfl, hr, andList_intercalate htss hop, hw]

/-- Each group's command reads as its tokens. -/
theorem reads_groupCmd_of_quotable {pkgOpts : PyDict String (List String)} {pipOpts : List String}
    (hpkg : QuotablePackages pkgOpts) (hpip : PlainOptions pipOpts) {group : List String × List String}
    (hg : group ∈ (groupPackages pkgOpts).items) (t : Char) (ht : t = ' ' ∨ t = '\n') :
    Posix.Reads init ((groupCmd (optsSuffix pipOpts) group).data ++ [t]) init
      (groupTokens pipOpts group ++ endTokens t) := by
  obtain ⟨p, o, hp, hs, hpg⟩ := exists_mem_groupPackages hg
  refine reads_groupCmd ht hpip (fun x hx => ?_) (fun q hq => ?_) (List.ne_nil_of_mem hpg)
  · rw [← hs, sorted] at hx
    exact (hpkg (p, o) (PyDict.mem_items_iff_get?.mpr hp)).2 x ((List.perm_insertionSort _ o).mem_iff.mp hx)
  · obtain ⟨o', hq', -⟩ := (mem_groupPackages_iff hg q).mp hq
    exact (hpkg (q, o') (PyDict.mem_items_iff_get?.mpr hq')).1

theorem not_mem_op_groupTokens (pipOpts : List String) (group : List String × List String) :
    .op "&&" ∉ groupTokens pipOpts group := by
  simp [groupTokens, Token.plain]

/-- Every annotated package is quoted in exactly one group command, that command carries
its sorted options, and two annotated packages share a command exactly when their sorted
options agree.  When the packages can be double-quoted, their options are plain words and the
pip options plain words and blanks, the shell reads each group's command as `pip install`,
the group's sorted options, its packages, and the words of the pip options. -/
theorem groupPackages_spec (pkgOpts : PyDict String (List String)) (pipOpts : List String) :
    (∀ p, ((groupPackages pkgOpts).items.flatMap Prod.snd).count p =
      if p ∈ pkgOpts.keys then 1 else 0) ∧
    (∀ group ∈ (groupPackages pkgOpts).items, ∀ p ∈ group.2,
      ∃ o, pkgOpts.get? p = some o ∧ group.1 = sorted o) ∧
    (∀ p q o o', pkgOpts.get? p = some o → pkgOpts.get? q = some o' →
      ((∃ group ∈ (groupPackages pkgOpts).items, p ∈ group.2 ∧ q ∈ group.2) ↔
        sorted o = sorted o')) ∧
    (QuotablePackages pkgOpts → PlainOptions pipOpts → ∀ group ∈ (groupPackages pkgOpts).items,
      andList (lex (groupCmd (optsSuffix pipOpts) group ++ "\n")).2 =
        some [["pip", "install"] ++ group.1 ++ group.2 ++ pipOptionWords pipOpts]) := by
  refine ⟨fun p => ?_, fun group hg p hp => ?_, fun p q o o' hp hq => ⟨?_, fun h => ?_⟩,
    fun hpkg hpip group hg => ?_⟩
  · rw [(groupPackages_perm pkgOpts).count_eq]
    split
    · exact List.count_eq_one_of_mem pkgOpts.keys_nodup ‹_›
    · exact List.count_eq_zero_of_not_mem ‹_›
  · obtain ⟨o, ho, hs⟩ := (mem_groupPackages_iff hg p).mp hp
    exact ⟨o, ho, hs.symm⟩
  · rintro ⟨group, hg, hpg, hqg⟩
    obtain ⟨_, hp', hs⟩ := (mem_groupPackages_iff hg p).mp hpg
    obtain ⟨_, hq', hs'⟩ := (mem_groupPackages_iff hg q).mp hqg
    rw [hp] at hp'; rw [hq] at hq'
    cases hp'; cases hq'
    exact hs.trans hs'.symm
  · obtain ⟨ps, hg, hpg⟩ := exists_group_of_get? hp
    exact ⟨_, hg, hpg, (mem_groupPackages_iff hg q).mpr ⟨o', hq, h.symm⟩⟩
  · have hone : " && ".intercalate [groupCmd (optsSuffix pipOpts) group] =
        groupCmd (optsSuffix pipOpts) group := rfl
    rw [← hone]
    exact andList_commands (List.cons_ne_nil _ _) (.cons (reads_groupCmd_of_quotable hpkg hpip hg) .nil)
      (by simpa using not_mem_op_groupTokens pipOpts group)
      (by rw [List.mapM_cons, commandWords_groupTokens]; rfl)

/-- `megatron` with `--no-build-isolation` under the pip option `-v`. -/
theorem groupPackages_spec_megatron :
    QuotablePackages (PyDict.empty.set "megatron" ["--no-build-isolation"]) ∧ PlainOptions ["-v"] ∧
    (["--no-build-isolation"], ["megatron"]) ∈
      (groupPackages (PyDict.empty.set "megatron" ["--no-build-isolation"])).items ∧
    andList (lex (groupCmd (optsSuffix ["-v"]) (["--no-build-isolation"], ["megatron"]) ++ "\n")).2 =
      some [["pip", "install", "--no-build-isolation", "megatron", "-v"]] :=
  ⟨by decide, by decide, by decide,
    (groupPackages_spec (PyDict.empty.set "megatron" ["--no-build-isolation"]) ["-v"]).2.2.2
      (by decide) (by decide) _ (by decide)⟩

variable {tree : FileTree} {resolve : String → String → String} {fuel : Nat}

/-- With `cuda/train.txt` and `cuda-train/base.txt` sharing the extra `cuda-train`, the
annotated `megatron` of the first file is also listed in `EXTRAS["cuda-train"]` by the
second, so the first command builds it without its option and the second installs it
again. -/
theorem getPipInstallCmd_shared_name :
    (buildExtras ⟨[("requirements/cuda/train.txt", ["numpy", "# [--no-build-isolation]", "megatron"]),
        ("requirements/cuda-train/base.txt", ["megatron"])]⟩ (fun _ x => x) 1
      [("cuda", some ["train.txt"]), ("cuda-train", some ["base.txt"])]).bind
        (getPipInstallCmd · "cuda-train") =
    some "pip install \".[cuda-train]\" && pip install --no-build-isolation \"megatron\"" := by
  decide

end Setup
end FlagScale
