import FlagScale.Setup.Requirements

/-!
# The declarative reading of a requirements tree

What `parse_requirements` is meant to compute, stated without its accumulators.  Every
`-r X` line is replaced in place by the reading of `X`, a missing file reads as nothing,
and what remains is a sequence of requirement and option occurrences.  A requirement
occurrence carries its annotation: the words of the `# [--opt ...]` comments of its own
file that stand after that file's previous requirement line (`annotationsSince`).
`deps` and `pip_options` are the two kinds of occurrence in order, and `pkg_options` maps
a package to the annotation of its last annotated occurrence (`lastAnnotationOf`).

`Reads` is that reading as a relation, so that it makes sense for every tree, cyclic
ones included; it is functional (`Reads.unique`).  The theorem this file exists for is
`parseRequirements_agrees_reading`: whenever the parser returns, a reading exists and
the result agrees with it.  The proof is one invariant of the loop, `Inv`, kept by every
`lineStep` (`lineStep_inv`) and so by the whole fold (`foldlM_inv`).
-/

namespace FlagScale
namespace Setup

open Python

/-- One element of the expanded sequence of lines. -/
inductive Occ
  | requirement (line : String) (opts : List String)
  | option (line : String)
  deriving DecidableEq, Repr

namespace ReqLine

def isRequirement : ReqLine → Bool
  | .requirement _ => true
  | _ => false

def annotationWords : ReqLine → List String
  | .annotationComment opts => opts
  | _ => []

end ReqLine

/-- The annotation words of the lines after the last requirement line of `pre`. -/
def annotationsSince (pre : List ReqLine) : List String :=
  (pre.reverse.takeWhile fun l => !l.isRequirement).reverse.flatMap ReqLine.annotationWords

/-- What line `l` contributes when it comes after the lines `pre` of its own file;
`sub X` is the reading of the file that `-r X` names. -/
def occsOf (sub : String → List Occ) (pre : List ReqLine) : ReqLine → List Occ
  | .includeFile target => sub target
  | .option line => [.option line]
  | .requirement line => [.requirement line (annotationsSince pre)]
  | .skip | .annotationComment _ => []

/-- The lines `ls`, after the lines `pre` of the same file, expanded in place. -/
def expandLines (sub : String → List Occ) : List ReqLine → List ReqLine → List Occ
  | _, [] => []
  | pre, l :: ls => occsOf sub pre l ++ expandLines sub (pre ++ [l]) ls

/-- `Reads tree resolve reqFile occs`: `occs` is the expansion of `reqFile`. -/
inductive Reads (tree : FileTree) (resolve : String → String → String) :
    String → List Occ → Prop
  | missing {reqFile : String} : tree.read reqFile = none → Reads tree resolve reqFile []
  | file {reqFile : String} {lines : List String} (sub : String → List Occ) :
      tree.read reqFile = some lines →
      (∀ target, .includeFile target ∈ lines.map classifyLine →
        Reads tree resolve (resolve reqFile target) (sub target)) →
      Reads tree resolve reqFile (expandLines sub [] (lines.map classifyLine))

def depsOf (occs : List Occ) : List String :=
  occs.filterMap fun | .requirement line _ => some line | .option _ => none

def optionsOf (occs : List Occ) : List String :=
  occs.filterMap fun | .option line => some line | .requirement _ _ => none

/-- The annotation of an occurrence of package `p`, if it has one. -/
def annotationOf (p : String) : Occ → Option (List String)
  | .requirement line ann => if line = p ∧ ann ≠ [] then some ann else none
  | .option _ => none

/-- The annotation of the last annotated occurrence of `p`. -/
def lastAnnotationOf (p : String) : List Occ → Option (List String)
  | [] => none
  | o :: occs => (lastAnnotationOf p occs).or (annotationOf p o)

/-- A result of `parse_requirements` agrees with an expansion. -/
structure Agrees (r : Requirements) (occs : List Occ) : Prop where
  deps : r.deps = depsOf occs
  pipOptions : r.pipOptions = optionsOf occs
  pkgOptions : ∀ p, r.pkgOptions.get? p = lastAnnotationOf p occs

/-! ## The reading's algebra -/

@[simp] theorem depsOf_append (a b : List Occ) : depsOf (a ++ b) = depsOf a ++ depsOf b :=
  List.filterMap_append _ _ _

@[simp] theorem optionsOf_append (a b : List Occ) :
    optionsOf (a ++ b) = optionsOf a ++ optionsOf b :=
  List.filterMap_append _ _ _

theorem lastAnnotationOf_append (p : String) (a b : List Occ) :
    lastAnnotationOf p (a ++ b) = (lastAnnotationOf p b).or (lastAnnotationOf p a) := by
  induction a with
  | nil => simp [lastAnnotationOf]
  | cons o a ih => simp [lastAnnotationOf, ih, Option.or_assoc]

theorem lastAnnotationOf_singleton (p : String) (o : Occ) :
    lastAnnotationOf p [o] = annotationOf p o := by
  simp [lastAnnotationOf]

theorem annotationsSince_snoc (pre : List ReqLine) (l : ReqLine) :
    annotationsSince (pre ++ [l]) =
      if l.isRequirement then [] else annotationsSince pre ++ l.annotationWords := by
  unfold annotationsSince
  rw [List.reverse_append, List.reverse_singleton, List.singleton_append, List.takeWhile_cons]
  cases l.isRequirement <;> simp

/-! ## The loop invariant -/

/-- After the lines `pre` of a file, whose expansion so far is `occs`. -/
structure Inv (s : ParseState) (pre : List ReqLine) (occs : List Occ) : Prop where
  deps : s.deps = depsOf occs
  pipOptions : s.pipOptions = optionsOf occs
  pkgOptions : ∀ p, s.pkgOptions.get? p = lastAnnotationOf p occs
  pending : s.pending = annotationsSince pre

theorem inv_init : Inv ParseState.init [] [] :=
  ⟨rfl, rfl, fun _ => rfl, rfl⟩

theorem Inv.result {s : ParseState} {pre : List ReqLine} {occs : List Occ} (h : Inv s pre occs) :
    Agrees s.result occs :=
  ⟨h.deps, h.pipOptions, h.pkgOptions⟩

section Loop

variable {sub : String → Option Requirements} {f : String → List Occ}

/-- A requirement line: its annotation is the pending list, which it consumes. -/
theorem addRequirement_inv {s : ParseState} {pre : List ReqLine} {occs : List Occ}
    (line : String) (hi : Inv s pre occs) :
    Inv (s.addRequirement line) (pre ++ [.requirement line])
      (occs ++ [.requirement line (annotationsSince pre)]) := by
  have hsince : annotationsSince (pre ++ [.requirement line]) = [] := by
    simp [annotationsSince_snoc, ReqLine.isRequirement]
  rw [← hi.pending]
  unfold ParseState.addRequirement
  split
  · rename_i he
    refine ⟨by simp [hi.deps, depsOf], hi.pipOptions.trans (by simp [optionsOf]),
      fun p => ?_, by simpa [hsince] using he⟩
    simp [lastAnnotationOf_append, lastAnnotationOf_singleton, annotationOf, hi.pkgOptions,
      List.isEmpty_iff.mp he]
  · rename_i hne
    refine ⟨by simp [hi.deps, depsOf], hi.pipOptions.trans (by simp [optionsOf]),
      fun p => ?_, hsince.symm⟩
    have hne' : s.pending ≠ [] := fun h => hne (List.isEmpty_iff.mpr h)
    rw [PyDict.get?_set, lastAnnotationOf_append, lastAnnotationOf_singleton, ← hi.pkgOptions]
    by_cases hp : p = line
    · subst hp; simp [annotationOf, hne']
    · simp [annotationOf, hp, Ne.symm hp]

/-- Every pass of the loop body keeps the invariant, given that each recursive call
that returns agrees with the reading `f` of its file. -/
theorem lineStep_inv (hsub : ∀ x r, sub x = some r → Agrees r (f x))
    {s t : ParseState} {pre : List ReqLine} {occs : List Occ} {l : ReqLine}
    (h : lineStep sub s l = some t) (hi : Inv s pre occs) :
    Inv t (pre ++ [l]) (occs ++ occsOf f pre l) := by
  cases l with
  | skip | annotationComment _ =>
    cases h
    exact ⟨by simpa [occsOf] using hi.deps, by simpa [occsOf] using hi.pipOptions,
      by simpa [occsOf] using hi.pkgOptions,
      by simp [annotationsSince_snoc, ReqLine.isRequirement, ReqLine.annotationWords, hi.pending]⟩
  | includeFile target =>
    simp only [lineStep, Option.map_eq_some'] at h
    obtain ⟨r, hr, rfl⟩ := h
    have ha := hsub _ _ hr
    refine ⟨by simp [ParseState.absorb, occsOf, hi.deps, ha.deps],
      by simp [ParseState.absorb, occsOf, hi.pipOptions, ha.pipOptions], fun p => ?_,
      by simp [ParseState.absorb, annotationsSince_snoc, ReqLine.isRequirement,
        ReqLine.annotationWords, hi.pending]⟩
    simp [ParseState.absorb, occsOf, PyDict.get?_update, lastAnnotationOf_append, ha.pkgOptions,
      hi.pkgOptions]
  | option line =>
    cases h
    exact ⟨by simp [occsOf, hi.deps, depsOf], by simp [occsOf, hi.pipOptions, optionsOf],
      fun p => by simp [occsOf, lastAnnotationOf_append, lastAnnotationOf_singleton, annotationOf,
        hi.pkgOptions],
      by simp [annotationsSince_snoc, ReqLine.isRequirement, ReqLine.annotationWords, hi.pending]⟩
  | requirement line =>
    cases h
    exact addRequirement_inv line hi

/-- The whole loop keeps the invariant. -/
theorem foldlM_inv (hsub : ∀ x r, sub x = some r → Agrees r (f x)) :
    ∀ {ls : List ReqLine} {s t : ParseState} {pre : List ReqLine} {occs : List Occ},
      ls.foldlM (lineStep sub) s = some t → Inv s pre occs →
        Inv t (pre ++ ls) (occs ++ expandLines f pre ls)
  | [], _, _, _, _, h, hi => by cases h; simpa [expandLines] using hi
  | l :: ls, s, t, pre, occs, h, hi => by
    rw [foldlM_cons, Option.bind_eq_some] at h
    obtain ⟨u, hu, ht⟩ := h
    have := foldlM_inv hsub ht (lineStep_inv hsub hu hi)
    simpa [expandLines] using this

end Loop

/-! ## Each line is read whole

The loop body looks only at how a stripped line begins.  A line is a comment only when
it starts with `#`, so text after an inline `#` stays in the requirement or option, and
a line is an include only when it starts with `-r `, so `-rF`, `--requirement F` and
`--requirement=F` are pip options.  `depsOfLine` and `optionsOfLine` say what one line
gives, `sub` being the result of the include it may name. -/

variable {tree : FileTree} {resolve : String → String → String}

theorem expandLines_congr {f g : String → List Occ} :
    ∀ {pre ls : List ReqLine}, (∀ x, .includeFile x ∈ ls → f x = g x) →
      expandLines f pre ls = expandLines g pre ls
  | _, [], _ => rfl
  | pre, l :: ls, h => by
    have hrest : expandLines f (pre ++ [l]) ls = expandLines g (pre ++ [l]) ls :=
      expandLines_congr fun x hx => h x (List.mem_cons_of_mem _ hx)
    cases l <;> simp only [expandLines, occsOf, hrest]
    rw [h _ (List.mem_cons_self _ _)]

/-- A tree has at most one reading of each file. -/
theorem Reads.unique {reqFile : String} {o₁ o₂ : List Occ} (h₁ : Reads tree resolve reqFile o₁)
    (h₂ : Reads tree resolve reqFile o₂) : o₁ = o₂ := by
  induction h₁ generalizing o₂ with
  | missing hm =>
    cases h₂ with
    | missing _ => rfl
    | file _ hf _ => simp [hm] at hf
  | file sub hf _ ih =>
    cases h₂ with
    | missing hm => simp [hm] at hf
    | file sub' hf' hsub' =>
      rw [hf] at hf'; cases hf'
      exact expandLines_congr fun x hx => ih x hx (hsub' x hx)

/-- Every run of the parser that returns produces a reading that it agrees with. -/
theorem parseRequirements_reads :
    ∀ {fuel : Nat} {reqFile : String} {r : Requirements},
      parseRequirements tree resolve fuel reqFile = some r →
        ∃ occs, Reads tree resolve reqFile occs ∧ Agrees r occs
  | 0, _, _, h => by simp [parseRequirements] at h
  | fuel + 1, reqFile, r, h => by
    cases hread : tree.read reqFile with
    | none =>
      rw [parseRequirements_missing hread] at h; cases h
      exact ⟨[], .missing hread, ⟨rfl, rfl, fun _ => rfl⟩⟩
    | some lines =>
      rw [parseRequirements_file hread, Option.map_eq_some'] at h
      obtain ⟨t, ht, rfl⟩ := h
      have hsub : ∀ x, ∃ occs, ∀ r,
          parseRequirements tree resolve fuel (resolve reqFile x) = some r →
            Reads tree resolve (resolve reqFile x) occs ∧ Agrees r occs := fun x => by
        cases hx : parseRequirements tree resolve fuel (resolve reqFile x) with
        | none => exact ⟨[], fun _ h => nomatch h⟩
        | some r' =>
          obtain ⟨occs, hocc⟩ := parseRequirements_reads hx
          exact ⟨occs, fun r hr => by cases hr; exact hocc⟩
      choose f hf using hsub
      refine ⟨_, .file f hread fun x hx => ?_,
        (foldlM_inv (fun x r hr => (hf x r hr).2) ht inv_init).result⟩
      obtain ⟨r', hr'⟩ := foldlM_includes_return ht x hx
      exact (hf x r' hr').1

/-- `parse_requirements`, whenever it returns, returns the declarative reading: the
file has a reading, and the result agrees with every reading it has. -/
theorem parseRequirements_agrees_reading {fuel : Nat} {reqFile : String} {r : Requirements}
    (h : parseRequirements tree resolve fuel reqFile = some r) :
    (∃ occs, Reads tree resolve reqFile occs) ∧
      ∀ occs, Reads tree resolve reqFile occs → Agrees r occs := by
  obtain ⟨occs, hr, ha⟩ := parseRequirements_reads h
  exact ⟨⟨occs, hr⟩, fun occs' hr' => Reads.unique hr hr' ▸ ha⟩

/-- The include test of `test_setup.py`: the pending annotation skips the `-r` line and
lands on the next package of the including file. -/
theorem parseRequirements_agrees_reading_nested :
    parseRequirements ⟨[("base.txt", ["torch==2.9.1"]),
        ("train.txt", ["# [--no-build-isolation]", "-r base.txt", "megatron-core"])]⟩
        (fun _ x => x) 2 "train.txt" =
      some ⟨["torch==2.9.1", "megatron-core"], [],
        PyDict.empty.set "megatron-core" ["--no-build-isolation"]⟩ ∧
    ((∃ occs, Reads ⟨[("base.txt", ["torch==2.9.1"]),
        ("train.txt", ["# [--no-build-isolation]", "-r base.txt", "megatron-core"])]⟩
        (fun _ x => x) "train.txt" occs) ∧
      ∀ occs, Reads ⟨[("base.txt", ["torch==2.9.1"]),
        ("train.txt", ["# [--no-build-isolation]", "-r base.txt", "megatron-core"])]⟩
        (fun _ x => x) "train.txt" occs →
        Agrees ⟨["torch==2.9.1", "megatron-core"], [],
          PyDict.empty.set "megatron-core" ["--no-build-isolation"]⟩ occs) :=
  ⟨by decide, @parseRequirements_agrees_reading _ _ 2 _ _ (by decide)⟩

end Setup
end FlagScale
