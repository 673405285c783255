import FlagScale.Python.Str
import FlagScale.Python.Dict

/-!
# `parse_requirements`

`setup.py` reads a requirements file line by line.  Each stripped line is one of five
things, and `classifyLine` is the `if`/`elif` chain of the loop body that decides which:
nothing (blank, or a comment that is no annotation), an annotation `# [--opt ...]`, an
include `-r X`, a pip option, or a requirement.  The loop is a monadic fold of
`lineStep` over the classified lines, and an include calls the parser recursively.

Python recurses without any bound, so the model takes a fuel argument: `none` means the
recursion went deeper than the fuel, which is how a cyclic include shows up.  The files
and the path computation are parameters.  `FileTree` gives each path's lines as
`for line in f` yields them, and `resolve reqFile X` is the `rel_path` the code computes
for `-r X` in `reqFile`, that is
`relpath(normpath(join(dirname(join(SCRIPT_DIR, reqFile)), X)), SCRIPT_DIR)`.
-/

namespace FlagScale
namespace Setup

open Python

/-- The requirements files: each path with the lines Python's text-mode iteration
yields.  A list, so that there are finitely many files. -/
structure FileTree where
  files : List (String × List String)

/-- `os.path.isfile` and `open(...)` together: the lines of the file, if there is one. -/
def FileTree.read (tree : FileTree) (path : String) : Option (List String) :=
  lookup path tree.files

/-- What the loop body of `parse_requirements` makes of one line. -/
inductive ReqLine
  | skip
  | annotationComment (opts : List String)
  | includeFile (target : String)
  | option (line : String)
  | requirement (line : String)
  deriving DecidableEq, Repr

/-- The group of `^#\s*\[([^\]]+)\]\s*$` on a stripped line, when it matches.  The
`\s*` before the bracket must eat every space, since `[` is not one, and the group stops
at the first `]`, since it cannot contain one. -/
def annotationGroup : List Char → Option (List Char)
  | '#' :: rest =>
    match rest.dropWhile isSpace with
    | '[' :: body =>
      match body.dropWhile (· ≠ ']') with
      | ']' :: tail =>
        if body.takeWhile (· ≠ ']') ≠ [] ∧ tail.all isSpace then some (body.takeWhile (· ≠ ']'))
        else none
      | _ => none
    | _ => none
  | _ => none

/-- The options an annotation comment sets: `m.group(1).split()`, kept only when there
is at least one and every one starts with `--`. -/
def annotationOptions (line : String) : Option (List String) :=
  (annotationGroup line.data).bind fun group =>
    let opts := splitWords group
    if !opts.isEmpty && opts.all (startsWith · "--") then some opts else none

/-- The `if`/`elif` chain of the loop body, on `line.strip()`. -/
def classifyLine (raw : String) : ReqLine :=
  let line := strip raw
  if line = "" then .skip
  else if startsWith line "#" then
    match annotationOptions line with
    | some opts => .annotationComment opts
    | none => .skip
  else if startsWith line "-r " then .includeFile (strip (dropChars line 3))
  else if startsWith line "-" then .option line
  else .requirement line

/-! ## What a line can be

One lemma per outcome of `classifyLine`, so that no later proof unfolds it. -/

section Classify

variable {raw : String}

end Classify

/-- What `parse_requirements` returns: `(deps, pip_options, pkg_options)`. -/
structure Requirements where
  deps : List String
  pipOptions : List String
  pkgOptions : PyDict String (List String)
  deriving DecidableEq

/-- The result for a path that is not a file: `[], [], {}`. -/
def Requirements.empty : Requirements := ⟨[], [], .empty⟩

/-- The loop's local variables. -/
structure ParseState where
  deps : List String
  pipOptions : List String
  pkgOptions : PyDict String (List String)
  pending : List String

namespace ParseState

def init : ParseState := ⟨[], [], .empty, []⟩

def result (s : ParseState) : Requirements := ⟨s.deps, s.pipOptions, s.pkgOptions⟩

/-- `deps.append(line)`, and the pending options go to this package and are reset. -/
def addRequirement (s : ParseState) (line : String) : ParseState :=
  if s.pending.isEmpty then { s with deps := s.deps ++ [line] }
  else { s with deps := s.deps ++ [line], pkgOptions := s.pkgOptions.set line s.pending,
                pending := [] }

/-- The three `extend`/`update` calls after an include. -/
def absorb (s : ParseState) (r : Requirements) : ParseState :=
  { s with deps := s.deps ++ r.deps, pipOptions := s.pipOptions ++ r.pipOptions,
           pkgOptions := s.pkgOptions.update r.pkgOptions }

end ParseState

/-- One pass of the loop body.  `sub X` is the recursive call for `-r X`. -/
def lineStep (sub : String → Option Requirements) (s : ParseState) :
    ReqLine → Option ParseState
  | .skip => some s
  | .annotationComment opts => some { s with pending := s.pending ++ opts }
  | .includeFile target => (sub target).map s.absorb
  | .option line => some { s with pipOptions := s.pipOptions ++ [line] }
  | .requirement line => some (s.addRequirement line)

/-- `parse_requirements(reqFile)` with the recursion bounded by `fuel`. -/
def parseRequirements (tree : FileTree) (resolve : String → String → String) :
    Nat → String → Option Requirements
  | 0, _ => none
  | fuel + 1, reqFile =>
    match tree.read reqFile with
    | none => some .empty
    | some lines =>
      ((lines.map classifyLine).foldlM
          (lineStep fun target => parseRequirements tree resolve fuel (resolve reqFile target))
          ParseState.init).map ParseState.result

variable {tree : FileTree} {resolve : String → String → String}

theorem parseRequirements_missing {fuel : Nat} {reqFile : String} (h : tree.read reqFile = none) :
    parseRequirements tree resolve (fuel + 1) reqFile = some .empty := by
  simp [parseRequirements, h]

theorem parseRequirements_file {fuel : Nat} {reqFile : String} {lines : List String}
    (h : tree.read reqFile = some lines) :
    parseRequirements tree resolve (fuel + 1) reqFile =
      ((lines.map classifyLine).foldlM
          (lineStep fun target => parseRequirements tree resolve fuel (resolve reqFile target))
          ParseState.init).map ParseState.result := by
  simp [parseRequirements, h]

/-! ## The loop -/

@[simp] theorem foldlM_nil (sub : String → Option Requirements) (s : ParseState) :
    ([] : List ReqLine).foldlM (lineStep sub) s = some s := rfl

theorem foldlM_cons (sub : String → Option Requirements) (s : ParseState) (l : ReqLine)
    (ls : List ReqLine) :
    (l :: ls).foldlM (lineStep sub) s = (lineStep sub s l).bind fun t => ls.foldlM (lineStep sub) t :=
  rfl

/-- A step that succeeds with one callee succeeds alike with a callee that returns
whatever the first one returned. -/
theorem lineStep_mono {sub sub' : String → Option Requirements}
    (hsub : ∀ x r, sub x = some r → sub' x = some r) {s t : ParseState} {l : ReqLine}
    (h : lineStep sub s l = some t) : lineStep sub' s l = some t := by
  cases l with
  | includeFile target =>
    simp only [lineStep, Option.map_eq_some'] at h ⊢
    obtain ⟨r, hr, rfl⟩ := h
    exact ⟨r, hsub _ _ hr, rfl⟩
  | _ => exact h

theorem foldlM_mono {sub sub' : String → Option Requirements}
    (hsub : ∀ x r, sub x = some r → sub' x = some r) :
    ∀ {ls : List ReqLine} {s t : ParseState},
      ls.foldlM (lineStep sub) s = some t → ls.foldlM (lineStep sub') s = some t
  | [], _, _, h => h
  | l :: ls, s, t, h => by
    rw [foldlM_cons, Option.bind_eq_some] at h ⊢
    obtain ⟨u, hu, ht⟩ := h
    exact ⟨u, lineStep_mono hsub hu, foldlM_mono hsub ht⟩

/-- A loop that returns made every one of its recursive calls return. -/
theorem foldlM_includes_return {sub : String → Option Requirements} :
    ∀ {ls : List ReqLine} {s t : ParseState}, ls.foldlM (lineStep sub) s = some t →
      ∀ x, .includeFile x ∈ ls → ∃ r, sub x = some r
  | [], _, _, _, _, hx => absurd hx (List.not_mem_nil _)
  | l :: ls, s, t, h, x, hx => by
    rw [foldlM_cons, Option.bind_eq_some] at h
    obtain ⟨u, hu, ht⟩ := h
    rcases List.mem_cons.mp hx with rfl | hx
    · simp only [lineStep, Option.map_eq_some'] at hu
      obtain ⟨r, hr, -⟩ := hu
      exact ⟨r, hr⟩
    · exact foldlM_includes_return ht x hx

/-- A loop that does not return stopped at an include whose call did not return. -/
theorem exists_include_of_foldlM_eq_none {sub : String → Option Requirements} :
    ∀ {ls : List ReqLine} {s : ParseState}, ls.foldlM (lineStep sub) s = none →
      ∃ x, .includeFile x ∈ ls ∧ sub x = none
  | [], _, h => nomatch h
  | l :: ls, s, h => by
    rw [foldlM_cons] at h
    cases hl : lineStep sub s l with
    | none =>
      cases l with
      | includeFile x =>
        simp only [lineStep, Option.map_eq_none'] at hl
        exact ⟨x, List.mem_cons_self _ _, hl⟩
      | _ => nomatch hl
    | some u =>
      rw [hl, Option.some_bind] at h
      obtain ⟨x, hx, hn⟩ := exists_include_of_foldlM_eq_none h
      exact ⟨x, List.mem_cons_of_mem _ hx, hn⟩

/-- Fuel is only a bound: a run that returns returns the same with more fuel. -/
theorem parseRequirements_succ_of_eq_some :
    ∀ {fuel : Nat} {reqFile : String} {r : Requirements},
      parseRequirements tree resolve fuel reqFile = some r →
        parseRequirements tree resolve (fuel + 1) reqFile = some r
  | 0, _, _, h => by simp [parseRequirements] at h
  | fuel + 1, reqFile, r, h => by
    cases hread : tree.read reqFile with
    | none => rwa [parseRequirements_missing hread] at h ⊢
    | some lines =>
      rw [parseRequirements_file hread, Option.map_eq_some'] at h ⊢
      obtain ⟨t, ht, rfl⟩ := h
      exact ⟨t, foldlM_mono (fun _ _ => parseRequirements_succ_of_eq_some) ht, rfl⟩

theorem parseRequirements_mono {fuel fuel' : Nat} (hle : fuel ≤ fuel') {reqFile : String}
    {r : Requirements} (h : parseRequirements tree resolve fuel reqFile = some r) :
    parseRequirements tree resolve fuel' reqFile = some r := by
  induction hle with
  | refl => exact h
  | step _ ih => exact parseRequirements_succ_of_eq_some ih

end Setup
end FlagScale
