import Mathlib.Data.List.Nodup

/-!
# Python dictionaries

A `dict` is an insertion-ordered list of entries whose keys are distinct; the structure
carries that invariant, so no operation can build a dictionary with a repeated key.
Assigning to an existing key changes its value in place and keeps its position, which is
what `alter` does on the first (and only) entry with that key.

Every operation has one lookup lemma, stated with an `if` on the key, and later proofs
never unfold the operations.
-/

namespace FlagScale
namespace Python

variable {α β γ : Type} [DecidableEq α]

/-- The value of the first entry with key `k`. -/
def lookup (k : α) : List (α × β) → Option β
  | [] => none
  | (k', v) :: rest => if k' = k then some v else lookup k rest

/-- Give key `k` the value `f` of its current value, in place, or append it. -/
def alterItems (k : α) (f : Option β → β) : List (α × β) → List (α × β)
  | [] => [(k, f none)]
  | (k', v) :: rest => if k' = k then (k, f (some v)) :: rest else (k', v) :: alterItems k f rest

@[simp] theorem lookup_nil (k : α) : lookup k ([] : List (α × β)) = none := rfl

theorem lookup_cons (k k' : α) (v : β) (rest : List (α × β)) :
    lookup k ((k', v) :: rest) = if k' = k then some v else lookup k rest := rfl

theorem lookup_eq_none_of_not_mem {k : α} {l : List (α × β)} (h : k ∉ l.map Prod.fst) :
    lookup k l = none := by
  induction l with
  | nil => rfl
  | cons e rest ih =>
    simp only [List.map_cons, List.mem_cons, not_or] at h
    rw [lookup_cons, if_neg (Ne.symm h.1), ih h.2]

theorem isSome_lookup_iff {k : α} {l : List (α × β)} :
    (lookup k l).isSome ↔ k ∈ l.map Prod.fst := by
  induction l with
  | nil => simp
  | cons e rest ih =>
    obtain ⟨k', v⟩ := e
    rw [lookup_cons, List.map_cons, List.mem_cons]
    by_cases hk : k' = k
    · simp [hk]
    · simp [hk, ih, Ne.symm hk]

theorem lookup_alterItems (j k : α) (f : Option β → β) (l : List (α × β)) :
    lookup j (alterItems k f l) = if j = k then some (f (lookup k l)) else lookup j l := by
  induction l with
  | nil => simp [alterItems, lookup_cons, eq_comm]
  | cons e rest ih =>
    obtain ⟨k', v⟩ := e
    by_cases hk : k' = k
    · subst hk; by_cases hj : j = k' <;> simp [alterItems, lookup_cons, hj, eq_comm]
    · simp only [alterItems, if_neg hk, lookup_cons, ih]
      by_cases hj : j = k <;> by_cases hj' : k' = j <;> simp_all

theorem keys_alterItems (k : α) (f : Option β → β) (l : List (α × β)) :
    (alterItems k f l).map Prod.fst =
      if k ∈ l.map Prod.fst then l.map Prod.fst else l.map Prod.fst ++ [k] := by
  induction l with
  | nil => simp [alterItems]
  | cons e rest ih =>
    obtain ⟨k', v⟩ := e
    by_cases hk : k' = k
    · subst hk; simp [alterItems]
    · simp only [alterItems, if_neg hk, List.map_cons, ih, List.mem_cons]
      by_cases hm : k ∈ rest.map Prod.fst <;> simp [hm, Ne.symm hk]

theorem nodup_alterItems (k : α) (f : Option β → β) {l : List (α × β)}
    (h : (l.map Prod.fst).Nodup) : ((alterItems k f l).map Prod.fst).Nodup := by
  rw [keys_alterItems]
  split
  · exact h
  · rename_i hk
    exact List.nodup_append.mpr
      ⟨h, List.nodup_singleton k, fun x hx hy => hk (List.mem_singleton.mp hy ▸ hx)⟩

/-- A `dict` with keys in `α`: its entries in insertion order, keys distinct. -/
structure PyDict (α β : Type) where
  items : List (α × β)
  nodup : (items.map Prod.fst).Nodup

namespace PyDict

/-- `{}`. -/
def empty : PyDict α β := ⟨[], List.nodup_nil⟩

/-- `list(d)`: the keys in insertion order. -/
def keys (d : PyDict α β) : List α := d.items.map Prod.fst

/-- `d.get(k)`. -/
def get? (d : PyDict α β) (k : α) : Option β := lookup k d.items

/-- `d.get(k, default)`. -/
def getD (d : PyDict α β) (k : α) (default : β) : β := (d.get? k).getD default

/-- `d[k] = f(d.get(k))`: the common shape of assignment and `setdefault(k, ...)`. -/
def alter (d : PyDict α β) (k : α) (f : Option β → β) : PyDict α β :=
  ⟨alterItems k f d.items, nodup_alterItems k f d.nodup⟩

/-- `d[k] = v`. -/
def set (d : PyDict α β) (k : α) (v : β) : PyDict α β := d.alter k fun _ => v

/-- `d.update(e)`: assign every entry of `e`, in `e`'s order. -/
def update (d e : PyDict α β) : PyDict α β := e.items.foldl (fun d p => d.set p.1 p.2) d

/-- `d.setdefault(k, []).append(x)`. -/
def appendAt (d : PyDict α (List β)) (k : α) (x : β) : PyDict α (List β) :=
  d.alter k fun v => v.getD [] ++ [x]

/-- `dict.fromkeys(xs)`: one entry per distinct element, at its first occurrence. -/
def fromKeys (xs : List α) : PyDict α Unit := xs.foldl (fun d x => d.set x ()) empty

omit [DecidableEq α] in
theorem ext {d e : PyDict α β} (h : d.items = e.items) : d = e := by
  cases d; cases e; cases h; rfl

instance [DecidableEq β] : DecidableEq (PyDict α β) := fun d e =>
  decidable_of_iff (d.items = e.items) ⟨ext, fun h => h ▸ rfl⟩

@[simp] theorem get?_empty (k : α) : (empty : PyDict α β).get? k = none := rfl

omit [DecidableEq α] in
@[simp] theorem keys_empty : (empty : PyDict α β).keys = [] := rfl

theorem get?_alter (d : PyDict α β) (j k : α) (f : Option β → β) :
    (d.alter k f).get? j = if j = k then some (f (d.get? k)) else d.get? j :=
  lookup_alterItems j k f d.items

theorem get?_set (d : PyDict α β) (j k : α) (v : β) :
    (d.set k v).get? j = if j = k then some v else d.get? j :=
  get?_alter d j k _

theorem isSome_get?_iff {d : PyDict α β} {k : α} : (d.get? k).isSome ↔ k ∈ d.keys :=
  isSome_lookup_iff

theorem get?_eq_none_iff {d : PyDict α β} {k : α} : d.get? k = none ↔ k ∉ d.keys := by
  rw [← isSome_get?_iff, Option.not_isSome_iff_eq_none]

theorem keys_alter (d : PyDict α β) (k : α) (f : Option β → β) :
    (d.alter k f).keys = if k ∈ d.keys then d.keys else d.keys ++ [k] :=
  keys_alterItems k f d.items

theorem mem_keys_alter {d : PyDict α β} {j k : α} {f : Option β → β} :
    j ∈ (d.alter k f).keys ↔ j = k ∨ j ∈ d.keys := by
  rw [keys_alter]; split <;> simp_all [or_comm, or_iff_left_of_imp]

omit [DecidableEq α] in
theorem keys_nodup (d : PyDict α β) : d.keys.Nodup := d.nodup

/-- The items of a `dict` that start with key `k`. -/
theorem mem_items_iff_get? {d : PyDict α β} {k : α} {v : β} :
    (k, v) ∈ d.items ↔ d.get? k = some v := by
  obtain ⟨items, nodup⟩ := d
  simp only [get?]
  induction items with
  | nil => simp
  | cons e rest ih =>
    obtain ⟨k', v'⟩ := e
    simp only [List.map_cons, List.nodup_cons] at nodup
    rw [lookup_cons, List.mem_cons, ih nodup.2]
    by_cases hk : k' = k
    · subst hk
      rw [if_pos rfl, lookup_eq_none_of_not_mem nodup.1]
      simp [eq_comm]
    · simp [hk, Ne.symm hk]

/-- `update` lets the entries of `e` win over those of `d`. -/
theorem get?_update (d e : PyDict α β) (k : α) :
    (d.update e).get? k = (e.get? k).or (d.get? k) := by
  obtain ⟨items, nodup⟩ := e
  simp only [update, get?]
  induction items generalizing d with
  | nil => simp [get?]
  | cons p rest ih =>
    obtain ⟨k', v⟩ := p
    simp only [List.map_cons, List.nodup_cons] at nodup
    simp only [List.foldl_cons]
    rw [ih _ nodup.2, lookup_cons]
    change _ = (if k' = k then some v else lookup k rest).or _
    rw [← get?, get?_set]
    by_cases hk : k' = k
    · subst hk; simp [lookup_eq_none_of_not_mem nodup.1]
    · simp [Ne.symm hk, hk, get?]

theorem keys_update (d e : PyDict α β) {k : α} : k ∈ (d.update e).keys ↔ k ∈ e.keys ∨ k ∈ d.keys := by
  simp only [← isSome_get?_iff, get?_update]
  cases e.get? k <;> simp

theorem get?_appendAt (d : PyDict α (List β)) (j k : α) (x : β) :
    (d.appendAt k x).get? j = if j = k then some ((d.get? k).getD [] ++ [x]) else d.get? j :=
  get?_alter d j k _

end PyDict

end Python
end FlagScale
