import FlagScale.Python.Str

/-!
# POSIX path resolution

The compress backend names its scripts with `os.path.join(dir, name)`, and which file
such a path denotes is decided by the kernel: it splits the path at `/`, ignores empty
and `.` parts, takes `..` to the parent (the root being its own parent), and looks every
other part up as a name in the directory reached so far.  Symbolic links are not
modelled, so `..` is resolved by name.

`parts_pathJoin` is the fact the runner needs: joining a directory and a *name* (a
non-empty part with no `/` that is not `.` or `..`) gives the parts of the directory
followed by the name, so the file sits directly in the directory the first path denotes.
A name with a `/` in it does not: `a//b` and `a/b` are different strings with the same
parts.
-/

namespace FlagScale
namespace Posix

open Python

/-- The parts of a path between its `/`s, empty parts included. -/
def splitSlash : List Char → List String
  | [] => [""]
  | c :: cs =>
    if c = '/' then "" :: splitSlash cs
    else
      match splitSlash cs with
      | [] => [⟨[c]⟩]
      | p :: ps => ⟨c :: p.data⟩ :: ps

/-- The parts of a path. -/
def parts (p : String) : List String := splitSlash p.data

/-- A path part that names a directory entry. -/
def isName (part : String) : Bool :=
  decide (part ≠ "" ∧ part ≠ "." ∧ part ≠ ".." ∧ '/' ∉ part.data)

/-- The directory reached from `dir` through one part. -/
def lexEnter (dir : List String) (part : String) : List String :=
  if part = "" ∨ part = "." then dir
  else if part = ".." then dir.dropLast
  else dir ++ [part]

/-- The directories resolution passes through, from `dir` on. -/
def walk (dir : List String) : List String → List (List String)
  | [] => [dir]
  | part :: ps => dir :: walk (lexEnter dir part) ps

/-! ## Splitting -/

theorem splitSlash_ne_nil : ∀ cs : List Char, splitSlash cs ≠ []
  | [] => List.cons_ne_nil _ _
  | c :: cs => by
    unfold splitSlash
    split
    · exact List.cons_ne_nil _ _
    · split <;> exact List.cons_ne_nil _ _

theorem splitSlash_append_slash (b : List Char) :
    ∀ a : List Char, splitSlash (a ++ '/' :: b) = splitSlash a ++ splitSlash b
  | [] => by simp [splitSlash]
  | c :: a => by
    by_cases hc : c = '/'
    · simp [splitSlash, hc, splitSlash_append_slash b a]
    · obtain ⟨p, ps, hp⟩ := List.exists_cons_of_ne_nil (splitSlash_ne_nil a)
      simp [splitSlash, hc, splitSlash_append_slash b a, hp]

theorem splitSlash_of_not_mem : ∀ {n : List Char}, '/' ∉ n → splitSlash n = [⟨n⟩]
  | [], _ => rfl
  | c :: n, h => by
    rw [List.mem_cons, not_or] at h
    simp [splitSlash, Ne.symm h.1, splitSlash_of_not_mem h.2]

theorem slash_not_mem_splitSlash : ∀ {cs : List Char} {x : String}, x ∈ splitSlash cs → '/' ∉ x.data
  | [], x, h => by simp [splitSlash] at h; simp [h]
  | c :: cs, x, h => by
    unfold splitSlash at h
    split at h
    · rcases List.mem_cons.mp h with rfl | h
      · simp
      · exact slash_not_mem_splitSlash h
    · rename_i hc
      split at h
      · rename_i he; exact absurd he (splitSlash_ne_nil cs)
      · rename_i p ps he
        rcases List.mem_cons.mp h with rfl | h
        · have hp := slash_not_mem_splitSlash (x := p) (by rw [he]; exact List.mem_cons_self _ _)
          simpa [Ne.symm hc] using hp
        · exact slash_not_mem_splitSlash (by rw [he]; exact List.mem_cons_of_mem _ h)

/-- Splitting `"/".join(ps)` gives `ps` back when no part has a `/`. -/
theorem splitSlash_intercalate : ∀ {ps : List String}, ps ≠ [] → (∀ x ∈ ps, '/' ∉ x.data) →
    splitSlash ("/".intercalate ps).data = ps
  | [a], _, h => by simpa using splitSlash_of_not_mem (h a (List.mem_singleton_self a))
  | a :: b :: l, _, h => by
    have ih := splitSlash_intercalate (List.cons_ne_nil b l) fun x hx => h x (List.mem_cons_of_mem _ hx)
    rw [Python.intercalate_cons_data] at ih ⊢
    rw [List.map_cons, List.flatten_cons, show "/".data ++ b.data = '/' :: b.data from rfl, List.cons_append,
      splitSlash_append_slash, ih, splitSlash_of_not_mem (h a (List.mem_cons_self _ _))]
    rfl

/-! ## Names -/

theorem isName_iff {n : String} :
    isName n = true ↔ n ≠ "" ∧ n ≠ "." ∧ n ≠ ".." ∧ '/' ∉ n.data := by
  simp [isName]

theorem lexEnter_name {n : String} (hn : isName n = true) (dir : List String) :
    lexEnter dir n = dir ++ [n] := by
  obtain ⟨h1, h2, h3, -⟩ := isName_iff.mp hn
  simp [lexEnter, h1, h2, h3]

@[simp] theorem lexEnter_empty (dir : List String) : lexEnter dir "" = dir := by simp [lexEnter]

theorem foldl_lexEnter_names : ∀ {ps : List String} (dir : List String), (∀ x ∈ ps, isName x = true) →
    ps.foldl lexEnter dir = dir ++ ps
  | [], dir, _ => by simp
  | x :: ps, dir, h => by
    rw [List.foldl_cons, lexEnter_name (h x (List.mem_cons_self _ _)),
      foldl_lexEnter_names _ fun y hy => h y (List.mem_cons_of_mem _ hy)]
    simp

/-- Entering a part of a path keeps a directory made of names made of names. -/
theorem lexEnter_names {dir : List String} {part : String} (hdir : ∀ x ∈ dir, isName x = true)
    (hp : '/' ∉ part.data) : ∀ x ∈ lexEnter dir part, isName x = true := by
  unfold lexEnter
  split
  · exact hdir
  split
  · exact fun x hx => hdir x (List.mem_of_mem_dropLast hx)
  rename_i h1 h2
  intro x hx
  rcases List.mem_append.mp hx with hx | hx
  · exact hdir x hx
  · obtain rfl := List.mem_singleton.mp hx
    push_neg at h1
    exact isName_iff.mpr ⟨h1.1, h1.2, h2, hp⟩

theorem foldl_lexEnter_mem_names : ∀ {ps : List String} {dir : List String}, (∀ x ∈ dir, isName x = true) →
    (∀ x ∈ ps, '/' ∉ x.data) → ∀ x ∈ ps.foldl lexEnter dir, isName x = true
  | [], _, hdir, _ => hdir
  | x :: ps, dir, hdir, hps => @foldl_lexEnter_mem_names ps (lexEnter dir x)
      (lexEnter_names hdir (hps x (List.mem_cons_self _ _))) fun y hy => hps y (List.mem_cons_of_mem _ hy)

theorem mem_walk_append_empty {k : List String} :
    ∀ (dir : List String) (xs : List String), k ∈ walk dir (xs ++ [""]) ↔ k ∈ walk dir xs
  | dir, [] => by simp [walk]
  | dir, x :: xs => by simp [walk, mem_walk_append_empty _ xs]

/-! ## Joining a directory and a name -/

theorem startsWith_slash_append {a : String} (ha : a ≠ "") (b : String) :
    startsWith (a ++ b) "/" = startsWith a "/" := by
  obtain ⟨c, cs, hc⟩ := List.exists_cons_of_ne_nil (fun h => ha (String.ext h))
  simp [startsWith, String.data_append, hc, List.isPrefixOf]

theorem not_startsWith_slash_of_isName {n : String} (hn : isName n = true) :
    startsWith n "/" = false := by
  obtain ⟨-, -, -, h⟩ := isName_iff.mp hn
  cases hd : n.data with
  | nil => simp [startsWith, hd, List.isPrefixOf]
  | cons c cs =>
    have hc : c ≠ '/' := fun e => h (by simp [hd, e])
    simp [startsWith, hd, List.isPrefixOf, Ne.symm hc]

/-- A path resolved from the root or from the working directory: joining a name keeps
that choice. -/
theorem startsWith_pathJoin {n : String} (hn : isName n = true) (dir : String) :
    startsWith (pathJoin dir n) "/" = startsWith dir "/" := by
  rw [pathJoin_of_relative (not_startsWith_slash_of_isName hn), joinPrefix]
  split
  · by_cases hd : dir = ""
    · subst hd; simpa using not_startsWith_slash_of_isName hn
    · exact startsWith_slash_append hd n
  · rename_i h
    have hd : dir ≠ "" := fun e => h (by rw [e]; rfl)
    rw [String.append_assoc, startsWith_slash_append hd]

/-- A relative part joined to an absolute directory gives an absolute path. -/
theorem startsWith_slash_pathJoin {dir s : String} (hd : startsWith dir "/" = true)
    (hs : startsWith s "/" = false) : startsWith (pathJoin dir s) "/" = true := by
  have hne : dir ≠ "" := by rintro rfl; exact absurd hd (by decide)
  rw [pathJoin_of_relative hs, joinPrefix]
  split
  · rw [startsWith_slash_append hne, hd]
  · rw [String.append_assoc, startsWith_slash_append hne, hd]

/-- The parts of `os.path.join(dir, s)` for a relative `s`: those of `dir`, less a trailing
empty part, then those of `s`. -/
theorem parts_pathJoin_relative (dir : String) {s : String} (hs : startsWith s "/" = false) :
    ∃ xs, parts (pathJoin dir s) = xs ++ parts s ∧ (parts dir = xs ∨ parts dir = xs ++ [""]) := by
  rw [pathJoin_of_relative hs, joinPrefix]
  unfold parts
  split
  · rename_i h
    rcases Bool.or_eq_true_iff.mp h with h | h
    · have hd : dir = "" := isEmpty_iff_eq_empty.mp h
      subst hd
      exact ⟨[], by simp, .inr rfl⟩
    · obtain ⟨pre, hpre⟩ := List.isSuffixOf_iff_suffix.mp h
      refine ⟨splitSlash pre, ?_, .inr ?_⟩
      · simp [String.data_append, ← hpre, splitSlash_append_slash]
      · rw [← hpre, show pre ++ "/".data = pre ++ '/' :: [] from rfl, splitSlash_append_slash]; rfl
  · exact ⟨splitSlash dir.data, by simp [String.data_append, splitSlash_append_slash], .inl rfl⟩

/-- The parts of `os.path.join(dir, n)` for a name `n`: those of `dir`, less a trailing
empty part, then `n`. -/
theorem parts_pathJoin (dir : String) {n : String} (hn : isName n = true) :
    ∃ xs, parts (pathJoin dir n) = xs ++ [n] ∧ (parts dir = xs ∨ parts dir = xs ++ [""]) := by
  obtain ⟨xs, hp, hd⟩ := parts_pathJoin_relative dir (not_startsWith_slash_of_isName hn)
  rw [show parts n = [n] from splitSlash_of_not_mem (isName_iff.mp hn).2.2.2] at hp
  exact ⟨xs, hp, hd⟩

end Posix
end FlagScale
