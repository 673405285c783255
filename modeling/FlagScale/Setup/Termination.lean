import FlagScale.Setup.Requirements
import Mathlib.Logic.Relation
import Mathlib.Data.List.Chain
import Mathlib.Data.List.Perm.Subperm

/-!
# When `parse_requirements` returns

`parse_requirements` keeps no set of visited files, so it returns exactly when the graph
of `-r` includes reachable from its argument has no cycle.  `Includes` is that graph over
the paths the code computes: an edge from an existing file to the path each of its
`-r X` lines resolves to.

One direction follows the cycle: a file from which a cycle is reachable has an include
from which it is reachable too, so no amount of fuel gets through it
(`parseRequirements_eq_none_of_reachesCycle`).  The other direction reads a chain of
includes off every run that runs out of fuel (`exists_chain_of_eq_none`); with more fuel
than there are files, the chain visits some file twice, and that is a cycle.
-/

namespace FlagScale
namespace Setup

open Python Relation

variable {tree : FileTree} {resolve : String → String → String}

/-- File `p` exists and has a line `-r X` that resolves to `q`. -/
def Includes (tree : FileTree) (resolve : String → String → String) (p q : String) : Prop :=
  ∃ lines, tree.read p = some lines ∧
    ∃ target, .includeFile target ∈ lines.map classifyLine ∧ resolve p target = q

/-- No cycle of includes is reachable from `reqFile`. -/
def IncludesAcyclicFrom (tree : FileTree) (resolve : String → String → String)
    (reqFile : String) : Prop :=
  ∀ q, ReflTransGen (Includes tree resolve) reqFile q → ¬ TransGen (Includes tree resolve) q q

/-- Some cycle of includes is reachable from `p`. -/
def ReachesCycle (tree : FileTree) (resolve : String → String → String) (p : String) : Prop :=
  ∃ q, ReflTransGen (Includes tree resolve) p q ∧ TransGen (Includes tree resolve) q q

/-! ## A reachable cycle is followed forever -/

theorem ReachesCycle.step {p : String} (h : ReachesCycle tree resolve p) :
    ∃ p', Includes tree resolve p p' ∧ ReachesCycle tree resolve p' := by
  obtain ⟨q, hpq, hqq⟩ := h
  rcases hpq.cases_head with hpq | ⟨p', hpp', hp'q⟩
  · subst hpq
    obtain ⟨p', hpp', hp'q⟩ := TransGen.head'_iff.mp hqq
    exact ⟨p', hpp', _, hp'q, hqq⟩
  · exact ⟨p', hpp', q, hp'q, hqq⟩

theorem parseRequirements_eq_none_of_reachesCycle :
    ∀ {fuel : Nat} {p : String}, ReachesCycle tree resolve p →
      parseRequirements tree resolve fuel p = none
  | 0, _, _ => rfl
  | fuel + 1, p, h => by
    obtain ⟨p', ⟨lines, hread, target, hmem, rfl⟩, h'⟩ := h.step
    rw [parseRequirements_file hread, Option.map_eq_none']
    refine Option.eq_none_iff_forall_not_mem.mpr fun t ht => ?_
    obtain ⟨r, hr⟩ := foldlM_includes_return ht target hmem
    rw [parseRequirements_eq_none_of_reachesCycle h'] at hr
    exact nomatch hr

/-! ## A run out of fuel is a chain of includes -/

theorem exists_chain_of_eq_none :
    ∀ {fuel : Nat} {p : String}, parseRequirements tree resolve fuel p = none →
      ∃ l : List String, l.length = fuel ∧ List.Chain (Includes tree resolve) p l
  | 0, _, _ => ⟨[], rfl, .nil⟩
  | fuel + 1, p, h => by
    cases hread : tree.read p with
    | none => rw [parseRequirements_missing hread] at h; exact nomatch h
    | some lines =>
      rw [parseRequirements_file hread, Option.map_eq_none'] at h
      obtain ⟨target, hmem, hnone⟩ := exists_include_of_foldlM_eq_none h
      obtain ⟨l, hl, hchain⟩ := exists_chain_of_eq_none hnone
      exact ⟨_ :: l, by simp [hl], .cons ⟨lines, hread, target, hmem, rfl⟩ hchain⟩

/-- Every file a chain leaves from is a file of the tree. -/
theorem mem_files_of_chain :
    ∀ {p : String} {l : List String}, List.Chain (Includes tree resolve) p l →
      ∀ x ∈ (p :: l).dropLast, x ∈ tree.files.map Prod.fst
  | _, [], _, x, hx => by simp at hx
  | p, q :: l, .cons ⟨lines, hread, _⟩ hchain, x, hx => by
    rw [List.dropLast_cons₂, List.mem_cons] at hx
    rcases hx with rfl | hx
    · exact isSome_lookup_iff.mp (show (tree.read _).isSome from by rw [hread]; rfl)
    · exact mem_files_of_chain hchain x hx

/-- A chain with more edges than the tree has files runs through a cycle. -/
theorem reachesCycle_of_long_chain {p : String} {l : List String}
    (hchain : List.Chain (Includes tree resolve) p l) (hlen : tree.files.length < l.length) :
    ReachesCycle tree resolve p := by
  haveI : IsTrans String (TransGen (Includes tree resolve)) := ⟨fun _ _ _ => TransGen.trans⟩
  have hpair : List.Pairwise (TransGen (Includes tree resolve)) (p :: l) :=
    List.chain_iff_pairwise.mp (hchain.imp fun _ _ => TransGen.single)
  have hdup : ¬ ((p :: l).dropLast).Nodup := fun hnd => by
    have hle := (hnd.subperm (mem_files_of_chain hchain)).length_le
    simp only [List.length_dropLast, List.length_cons, List.length_map] at hle
    omega
  obtain ⟨a, ha⟩ := not_forall_not.mp (mt List.nodup_iff_sublist.mpr hdup)
  have haa := ha.trans (List.dropLast_sublist _)
  refine ⟨a, ?_, List.pairwise_pair.mp (hpair.sublist haa)⟩
  rcases List.mem_cons.mp (haa.subset (List.mem_cons_self a [a])) with rfl | hmem
  · exact .refl
  · exact (List.rel_of_pairwise_cons hpair hmem).to_reflTransGen

/-- `parse_requirements(reqFile)` returns, for some recursion depth, exactly when no
cycle of `-r` includes is reachable from `reqFile`. -/
theorem parseRequirements_returns_iff_acyclic (reqFile : String) :
    (∃ fuel r, parseRequirements tree resolve fuel reqFile = some r) ↔
      IncludesAcyclicFrom tree resolve reqFile := by
  constructor
  · rintro ⟨fuel, r, h⟩ q hq hqq
    rw [parseRequirements_eq_none_of_reachesCycle ⟨q, hq, hqq⟩] at h
    exact nomatch h
  · intro hacyc
    by_contra hnone
    have h : parseRequirements tree resolve (tree.files.length + 1) reqFile = none :=
      Option.eq_none_iff_forall_not_mem.mpr fun r hr => hnone ⟨_, r, hr⟩
    obtain ⟨l, hl, hchain⟩ := exists_chain_of_eq_none h
    obtain ⟨q, hq, hqq⟩ := reachesCycle_of_long_chain hchain (by omega)
    exact hacyc q hq hqq

end Setup
end FlagScale
