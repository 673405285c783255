import FlagScale.Posix.Path
import Mathlib.Data.List.Perm.Basic

/-!
# The disk the generators write to

A `Disk` maps each resolved path to what is there: a file with its contents and mode, a
directory, or nothing.  `makedirs`, `write` and `chmod` are `os.makedirs(p,
exist_ok=True)`, `open(p, "w").write(content)` and `os.chmod(p, mode)`, each failing
(`none`) where Python raises.

The generators all follow one pattern, `writeScript`: make a directory, write a file in
it, make the file executable.  For a file named directly in the directory,
`writeScript_eq` says exactly when that succeeds and what it leaves, and from it
`writeScript_comm` shows that two such writes of different names into one directory
give the same disk in either order.  `foldlM_perm` lifts that to any reordering of a
list of pairwise commuting steps.
-/

namespace FlagScale
namespace Posix

open Python

/-- What a resolved path holds. -/
inductive Entry where
  | file (content : String) (mode : Nat)
  | dir
  deriving DecidableEq

/-- The file system as the generators see it: the working directory, the umask, and what
each resolved path holds. -/
structure Disk where
  cwd : List String
  umask : Nat
  entries : List String → Option Entry

namespace Disk

variable (d : Disk)

/-- `k` now holds `e`. -/
def set (k : List String) (e : Entry) : Disk :=
  { d with entries := fun k' => if k' = k then some e else d.entries k' }

/-- Every path of `ks` is now a directory. -/
def setDirs (ks : List (List String)) : Disk :=
  { d with entries := fun k => if k ∈ ks then some .dir else d.entries k }

def isDir (k : List String) : Bool := d.entries k = some .dir

def isFile (k : List String) : Bool :=
  match d.entries k with
  | some (.file _ _) => true
  | _ => false

/-- Where resolving `p` starts: the root for an absolute path, else the working directory. -/
def startDir (p : String) : List String := if startsWith p "/" then [] else d.cwd

/-- The path `p` resolves to. -/
def locate (p : String) : List String := (parts p).foldl lexEnter (d.startDir p)

/-- The directories resolving `p` passes through. -/
def chain (p : String) : List (List String) := walk (d.startDir p) (parts p)

/-- The directories resolving all of `p` but its last part passes through. -/
def parentChain (p : String) : List (List String) := walk (d.startDir p) (parts p).dropLast

/-- `os.makedirs(p, exist_ok=True)`: every directory on the way is created unless a file
is in the way; the empty path is an error. -/
def makedirs (p : String) : Option Disk :=
  if p = "" ∨ (d.chain p).any d.isFile then none else some (d.setDirs (d.chain p))

/-- `open(p, "w")` and writing `content`: the last part must be a name whose parent is
reachable through directories, and not a directory itself.  An existing file keeps its
mode; a new one gets `0o666` less the umask. -/
def write (p content : String) : Option Disk :=
  if isName ((parts p).getLast?.getD "") ∧ (d.parentChain p).all d.isDir then
    match d.entries (d.locate p) with
    | some .dir => none
    | some (.file _ mode) => some (d.set (d.locate p) (.file content mode))
    | none => some (d.set (d.locate p) (.file content (0o666 - (0o666 &&& d.umask))))
  else none

/-- `os.chmod(p, mode)`; directories' modes are not modelled. -/
def chmod (p : String) (mode : Nat) : Option Disk :=
  if (d.parentChain p).all d.isDir then
    match d.entries (d.locate p) with
    | some (.file content _) => some (d.set (d.locate p) (.file content mode))
    | some .dir => some d
    | none => none
  else none

/-- What `p` holds. -/
def read (p : String) : Option Entry := d.entries (d.locate p)

/-- `os.makedirs(dir, exist_ok=True)`, then `path` written with `content` and made
`0o755`: what both generators do. -/
def writeScript (dir path content : String) : Option Disk :=
  (d.makedirs dir).bind fun d => (d.write path content).bind fun d => d.chmod path 0o755

/-! ## Updates -/

variable {d}

@[simp] theorem set_cwd (k : List String) (e : Entry) : (d.set k e).cwd = d.cwd := rfl
@[simp] theorem setDirs_cwd (ks : List (List String)) : (d.setDirs ks).cwd = d.cwd := rfl
@[simp] theorem set_umask (k : List String) (e : Entry) : (d.set k e).umask = d.umask := rfl

theorem set_entries (k : List String) (e : Entry) (k' : List String) :
    (d.set k e).entries k' = if k' = k then some e else d.entries k' := rfl

theorem setDirs_entries (ks : List (List String)) (k : List String) :
    (d.setDirs ks).entries k = if k ∈ ks then some .dir else d.entries k := rfl

theorem ext' {d d' : Disk} (hc : d.cwd = d'.cwd) (hu : d.umask = d'.umask)
    (he : ∀ k, d.entries k = d'.entries k) : d = d' := by
  cases d; cases d'; cases hc; cases hu; congr; exact funext he

@[simp] theorem startDir_set (k : List String) (e : Entry) (p : String) :
    (d.set k e).startDir p = d.startDir p := rfl

@[simp] theorem startDir_setDirs (ks : List (List String)) (p : String) :
    (d.setDirs ks).startDir p = d.startDir p := rfl

@[simp] theorem chain_set (k : List String) (e : Entry) (p : String) :
    (d.set k e).chain p = d.chain p := rfl

@[simp] theorem chain_setDirs (ks : List (List String)) (p : String) :
    (d.setDirs ks).chain p = d.chain p := rfl

@[simp] theorem locate_set (k : List String) (e : Entry) (p : String) :
    (d.set k e).locate p = d.locate p := rfl

@[simp] theorem locate_setDirs (ks : List (List String)) (p : String) :
    (d.setDirs ks).locate p = d.locate p := rfl

theorem set_set (k : List String) (e e' : Entry) : (d.set k e).set k e' = d.set k e' :=
  ext' rfl rfl fun k' => by simp only [set_entries]; split <;> rfl

theorem set_comm {k k' : List String} (hk : k ≠ k') (e e' : Entry) :
    (d.set k e).set k' e' = (d.set k' e').set k e :=
  ext' rfl rfl fun j => by
    simp only [set_entries]
    by_cases h : j = k'
    · subst h; simp [Ne.symm hk]
    · simp [h]

theorem setDirs_setDirs (ks : List (List String)) : (d.setDirs ks).setDirs ks = d.setDirs ks :=
  ext' rfl rfl fun k => by simp only [setDirs_entries]; split <;> rfl

theorem setDirs_set {ks : List (List String)} {k : List String} (hk : k ∉ ks) (e : Entry) :
    (d.set k e).setDirs ks = (d.setDirs ks).set k e :=
  ext' rfl rfl fun j => by
    simp only [setDirs_entries, set_entries]
    by_cases h : j = k
    · subst h; simp [hk]
    · simp [h]

/-- An absolute path resolves to the same place from every working directory. -/
theorem locate_cwd {p : String} (hp : startsWith p "/" = true) (cwd : List String) :
    { d with cwd := cwd }.locate p = d.locate p := by
  simp [locate, startDir, hp]

/-- A successful `write` keeps the working directory and leaves a regular file at the path. -/
theorem write_spec {p content : String} {d' : Disk} (h : d.write p content = some d') :
    d'.cwd = d.cwd ∧ d'.isFile (d'.locate p) = true := by
  unfold write at h
  split at h
  · split at h <;> cases h <;> simp [isFile, set_entries]
  · cases h

/-! ## Writing a file into a directory -/

variable (d) in
/-- Writing the name `n` into `dir` fails: a file is on the way to `dir`, or the name's
path is a directory, or `makedirs` would make it one. -/
def blocked (dir n : String) : Bool :=
  (d.chain dir).any d.isFile || decide (d.locate dir ++ [n] ∈ d.chain dir) ||
    d.isDir (d.locate dir ++ [n])

variable (d) in
/-- The disk after writing the name `n` into `dir`. -/
def withScript (dir n c : String) : Disk :=
  (d.setDirs (d.chain dir)).set (d.locate dir ++ [n]) (.file c 0o755)

section WriteScript

variable {dir n : String} (hn : isName n = true)
include hn

/-- A name joined to `dir` resolves into the directory `dir` resolves to. -/
theorem locate_pathJoin : d.locate (pathJoin dir n) = d.locate dir ++ [n] := by
  obtain ⟨xs, hp, hd⟩ := parts_pathJoin dir hn
  have hs : d.startDir (pathJoin dir n) = d.startDir dir := by
    simp [startDir, startsWith_pathJoin hn]
  simp only [locate, hs, hp, List.foldl_append, List.foldl_cons, List.foldl_nil,
    lexEnter_name hn]
  rcases hd with hd | hd <;> simp [hd]

/-- The parents of the joined path are the directories on the way to `dir`. -/
theorem mem_parentChain_pathJoin {k : List String} :
    k ∈ d.parentChain (pathJoin dir n) ↔ k ∈ d.chain dir := by
  obtain ⟨xs, hp, hd⟩ := parts_pathJoin dir hn
  have hs : d.startDir (pathJoin dir n) = d.startDir dir := by
    simp [startDir, startsWith_pathJoin hn]
  simp only [parentChain, chain, hs, hp, List.dropLast_concat]
  rcases hd with hd | hd <;> simp [hd, mem_walk_append_empty]

theorem getLast_parts_pathJoin : (parts (pathJoin dir n)).getLast?.getD "" = n := by
  obtain ⟨xs, hp, -⟩ := parts_pathJoin dir hn
  simp [hp]

theorem parentChain_all_isDir (h : ∀ k ∈ d.chain dir, d.isDir k = true) :
    (d.parentChain (pathJoin dir n)).all d.isDir = true :=
  List.all_eq_true.mpr fun k hk => h k ((mem_parentChain_pathJoin hn).mp hk)

/-- `open(os.path.join(dir, n), "w")` once the way to `dir` is made of directories. -/
theorem write_pathJoin (h : ∀ k ∈ d.chain dir, d.isDir k = true) (c : String) :
    d.write (pathJoin dir n) c =
      match d.entries (d.locate dir ++ [n]) with
      | some .dir => none
      | some (.file _ mode) => some (d.set (d.locate dir ++ [n]) (.file c mode))
      | none => some (d.set (d.locate dir ++ [n]) (.file c (0o666 - (0o666 &&& d.umask)))) := by
  rw [write, getLast_parts_pathJoin hn, if_pos ⟨hn, parentChain_all_isDir hn h⟩,
    locate_pathJoin hn]

theorem chmod_pathJoin (h : ∀ k ∈ d.chain dir, d.isDir k = true) {c : String} {m : Nat}
    (he : d.entries (d.locate dir ++ [n]) = some (.file c m)) (mode : Nat) :
    d.chmod (pathJoin dir n) mode = some (d.set (d.locate dir ++ [n]) (.file c mode)) := by
  rw [chmod, if_pos (parentChain_all_isDir hn h), locate_pathJoin hn, he]

/-- `writeScript` of a name in `dir`: it fails exactly when `blocked`, and otherwise the
way to `dir` is made of directories and the name holds the contents with mode `0o755`. -/
theorem writeScript_eq (hdir : dir ≠ "") (c : String) :
    d.writeScript dir (pathJoin dir n) c =
      if d.blocked dir n then none else some (d.withScript dir n c) := by
  unfold writeScript makedirs blocked
  by_cases hfile : (d.chain dir).any d.isFile = true
  · simp [hfile]
  rw [if_neg (by simpa [hdir] using hfile), Option.some_bind]
  have hdirs : ∀ k ∈ (d.setDirs (d.chain dir)).chain dir,
      (d.setDirs (d.chain dir)).isDir k = true := fun k hk => by
    simp [isDir, setDirs_entries, show k ∈ d.chain dir from hk]
  rw [write_pathJoin hn hdirs]
  simp only [show (d.setDirs (d.chain dir)).locate dir = d.locate dir from rfl, setDirs_entries]
  by_cases hmem : d.locate dir ++ [n] ∈ d.chain dir
  · simp [hmem]
  have hdirs' : ∀ (e : Entry), ∀ k ∈ ((d.setDirs (d.chain dir)).set (d.locate dir ++ [n]) e).chain dir,
      ((d.setDirs (d.chain dir)).set (d.locate dir ++ [n]) e).isDir k = true := fun e k hk => by
    have hk' : k ∈ d.chain dir := hk
    have hne : k ≠ d.locate dir ++ [n] := fun h => hmem (h ▸ hk')
    simp [isDir, set_entries, setDirs_entries, hk', hne]
  have hchmod : ∀ m, ((d.setDirs (d.chain dir)).set (d.locate dir ++ [n]) (.file c m)).chmod
      (pathJoin dir n) 0o755 = some (d.withScript dir n c) := fun m => by
    rw [chmod_pathJoin hn (hdirs' _) (set_entries _ _ _ ▸ if_pos rfl)]
    exact congrArg some (set_set _ _ _)
  have hf : (d.chain dir).any d.isFile = false := by simpa using hfile
  simp only [hf, hmem, decide_False, Bool.false_or, if_false]
  cases he : d.entries (d.locate dir ++ [n]) with
  | none => simp [isDir, he, hchmod]
  | some e =>
    cases e with
    | dir => simp [isDir, he]
    | file c' m => simp [isDir, he, hchmod]

end WriteScript

section Comm

variable {dir n n' : String}

/-- A successful write of another name leaves the reasons to fail unchanged. -/
theorem blocked_withScript (hne : n ≠ n') (hb : d.blocked dir n' = false) (c' : String) :
    (d.withScript dir n' c').blocked dir n = d.blocked dir n := by
  have hk : d.locate dir ++ [n] ≠ d.locate dir ++ [n'] := fun h => hne (by simpa using h)
  simp only [blocked, Bool.or_eq_false_iff, decide_eq_false_iff_not] at hb
  obtain ⟨⟨hf, hm⟩, -⟩ := hb
  have hf' : (d.chain dir).any (d.withScript dir n' c').isFile = false := by
    refine List.any_eq_false.mpr fun j hj => ?_
    have hne : j ≠ d.locate dir ++ [n'] := fun e => hm (e ▸ hj)
    simp [withScript, isFile, set_entries, setDirs_entries, hj, hne]
  have hdir : (d.withScript dir n' c').isDir (d.locate dir ++ [n]) =
      (decide (d.locate dir ++ [n] ∈ d.chain dir) || d.isDir (d.locate dir ++ [n])) := by
    by_cases hmn : d.locate dir ++ [n] ∈ d.chain dir <;>
      simp [withScript, isDir, set_entries, setDirs_entries, hk, hmn]
  simp only [blocked, withScript, chain_set, chain_setDirs, locate_set, locate_setDirs] at hf' hdir ⊢
  rw [hf', hf, hdir]
  cases decide (d.locate dir ++ [n] ∈ d.chain dir) <;> rfl

theorem withScript_comm (hne : n ≠ n') (hb : d.blocked dir n = false)
    (hb' : d.blocked dir n' = false) (c c' : String) :
    (d.withScript dir n c).withScript dir n' c' = (d.withScript dir n' c').withScript dir n c := by
  have hk : d.locate dir ++ [n] ≠ d.locate dir ++ [n'] := fun h => hne (by simpa using h)
  have hm : d.locate dir ++ [n] ∉ d.chain dir := by
    simp only [blocked, Bool.or_eq_false_iff, decide_eq_false_iff_not] at hb; exact hb.1.2
  have hm' : d.locate dir ++ [n'] ∉ d.chain dir := by
    simp only [blocked, Bool.or_eq_false_iff, decide_eq_false_iff_not] at hb'; exact hb'.1.2
  simp only [withScript, show ∀ d' : Disk, d'.cwd = d.cwd → d'.chain dir = d.chain dir from
    fun d' h => by simp [chain, startDir, h], show ∀ d' : Disk, d'.cwd = d.cwd →
      d'.locate dir = d.locate dir from fun d' h => by simp [locate, startDir, h], set_cwd,
    setDirs_cwd]
  rw [setDirs_set hm, setDirs_setDirs, setDirs_set hm', setDirs_setDirs, set_comm hk]

/-- Two names written into one directory: either order leaves the same disk, or both
fail. -/
theorem writeScript_comm (hn : isName n = true) (hn' : isName n' = true) (hne : n ≠ n')
    (hdir : dir ≠ "") (c c' : String) (d : Disk) :
    (d.writeScript dir (pathJoin dir n) c).bind (·.writeScript dir (pathJoin dir n') c') =
      (d.writeScript dir (pathJoin dir n') c').bind (·.writeScript dir (pathJoin dir n) c) := by
  simp only [writeScript_eq hn hdir, writeScript_eq hn' hdir]
  cases hb : d.blocked dir n <;> cases hb' : d.blocked dir n'
  · simp [blocked_withScript hne hb', blocked_withScript (Ne.symm hne) hb, hb, hb',
      withScript_comm hne hb hb']
  · simp [blocked_withScript (Ne.symm hne) hb, hb']
  · simp [blocked_withScript hne hb', hb]
  · simp

end Comm

end Disk

/-! ## Reordering commuting steps -/

/-- Steps that pairwise commute give the same result in any order. -/
theorem foldlM_perm {α σ : Type} {f : σ → α → Option σ} {l l' : List α} (hp : l.Perm l')
    (hc : l.Pairwise fun a b => ∀ s, (f s a).bind (f · b) = (f s b).bind (f · a)) (s : σ) :
    l.foldlM f s = l'.foldlM f s := by
  induction hp generalizing s with
  | nil => rfl
  | cons x _ ih =>
    simp only [List.foldlM_cons]
    congr 1; funext s'; exact ih (List.pairwise_cons.mp hc).2 s'
  | swap x y l =>
    have hxy := List.rel_of_pairwise_cons hc (List.mem_cons_self x l)
    simp only [List.foldlM_cons]
    have := congrArg (·.bind (l.foldlM f)) (hxy s)
    simpa only [Option.bind_assoc] using this
  | trans h₁ _ ih₁ ih₂ => exact (ih₁ hc s).trans (ih₂ ((List.Perm.pairwise_iff (fun h s => (h s).symm) h₁).mp hc) s)

end Posix
end FlagScale
