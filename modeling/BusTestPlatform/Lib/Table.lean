import Mathlib

/-!
# Tables that only grow

Entries are appended, and an entry whose key is taken is refused. So a place in the table is a
pointer that stays valid, and what is found under a key is what was added first.
-/

namespace Table

variable {α β κ : Type*} [DecidableEq κ] (key : α → κ)

/-- The place of the entry with this key. -/
def find (xs : List α) (k : κ) : Option ℕ := xs.findIdx? (key · = k)

/-- The table with the entry added, if its key is free. -/
def add (xs : List α) (x : α) : List α :=
  if (find key xs (key x)).isSome then xs else xs ++ [x]

/-- The entries added one after the other. -/
def addAll (xs ys : List α) : List α := ys.foldl (add key) xs

variable {key}

lemma find_eq_none_iff {xs : List α} {k : κ} : find key xs k = none ↔ ∀ x ∈ xs, key x ≠ k := by
  simp [find]

lemma find_append {xs : List α} {k : κ} {i : ℕ} (h : find key xs k = some i) (ys : List α) :
    find key (xs ++ ys) k = some i := by
  rw [find] at h
  rw [find, List.findIdx?_append, h]
  rfl

/-- Only the keys matter for the place. -/
lemma find_map (f : β → α) (xs : List β) (k : κ) :
    find key (xs.map f) k = find (fun y => key (f y)) xs k := by
  rw [find, List.findIdx?_map]
  rfl

lemma find_bind_getElem? (xs : List α) (k : κ) :
    ((find key xs k).bind fun i => xs[i]?) = xs.find? (key · = k) :=
  List.find?_eq_bind_findIdx?_getElem?.symm

/-- An entry that is refused would not have been the first with its key. -/
lemma find?_add (xs : List α) (x : α) (k : κ) :
    (add key xs x).find? (key · = k) = (xs ++ [x]).find? (key · = k) := by
  rw [add]
  split_ifs with htaken
  · by_cases hx : key x = k
    · subst hx
      obtain ⟨i, hi⟩ := Option.isSome_iff_exists.mp htaken
      have hsome : xs.find? (key · = key x) ≠ none := by
        intro hnone
        have hfind : find key xs (key x) = none := by
          rw [find_eq_none_iff]
          simpa using hnone
        rw [hi] at hfind
        cases hfind
      obtain ⟨y, hy⟩ := Option.ne_none_iff_exists'.mp hsome
      rw [List.find?_append, hy]
      rfl
    · rw [List.find?_append, List.find?_singleton, if_neg (by simpa using hx), Option.or_none]
  · rfl

lemma prefix_add (xs : List α) (x : α) : xs <+: add key xs x := by
  rw [add]
  split_ifs
  · exact List.prefix_rfl
  · exact List.prefix_append ..

lemma nodup_add {xs : List α} (h : (xs.map key).Nodup) (x : α) :
    ((add key xs x).map key).Nodup := by
  rw [add]
  split_ifs with htaken
  · exact h
  · have hfree : ∀ y ∈ xs, key y ≠ key x := by
      rw [← find_eq_none_iff]
      simpa using htaken
    rw [List.map_append, List.nodup_append]
    refine ⟨h, List.nodup_singleton _, ?_⟩
    intro a ha b hb
    obtain ⟨y, hy, rfl⟩ := List.mem_map.mp ha
    obtain rfl := List.mem_singleton.mp hb
    exact hfree y hy

/-! ### Any additions -/

lemma prefix_addAll (xs ys : List α) : xs <+: addAll key xs ys := by
  induction ys generalizing xs with
  | nil => exact List.prefix_rfl
  | cons y ys ih => exact (prefix_add xs y).trans (ih _)

lemma nodup_addAll {xs : List α} (h : (xs.map key).Nodup) (ys : List α) :
    ((addAll key xs ys).map key).Nodup := by
  induction ys generalizing xs with
  | nil => exact h
  | cons y ys ih => exact ih (nodup_add h y)

lemma nodup_addAll_nil (ys : List α) : ((addAll key [] ys).map key).Nodup := by
  apply nodup_addAll
  exact List.nodup_nil

/-- What is found is what was added first. -/
lemma find?_addAll (xs ys : List α) (k : κ) :
    (addAll key xs ys).find? (key · = k) = (xs ++ ys).find? (key · = k) := by
  induction ys generalizing xs with
  | nil => rw [addAll, List.foldl_nil, List.append_nil]
  | cons y ys ih =>
    have hstep := ih (add key xs y)
    rw [List.find?_append, find?_add, ← List.find?_append, List.append_assoc] at hstep
    exact hstep

/-- A pointer keeps pointing to what it was found for. -/
lemma getElem?_addAll {xs : List α} {k : κ} {i : ℕ} (h : find key xs k = some i) (ys : List α) :
    find key (addAll key xs ys) k = some i ∧ (addAll key xs ys)[i]? = xs[i]? := by
  obtain ⟨zs, hzs⟩ : xs <+: addAll key xs ys := prefix_addAll xs ys
  have hlt : i < xs.length := (List.findIdx?_eq_some_iff_getElem.mp h).1
  rw [← hzs]
  exact ⟨find_append h zs, List.getElem?_append_left hlt⟩

/-- A pointer into the table with the entries `cs` leads, after `ds` are added, to the first entry
of `cs` with its key. -/
lemma find_addAll_addAll (cs ds : List α) (k : κ) :
    ((find key (addAll key [] cs) k).bind fun i => (addAll key (addAll key [] cs) ds)[i]?) =
        cs.find? (key · = k) ∧
      ∀ i, find key (addAll key [] cs) k = some i →
        find key (addAll key (addAll key [] cs) ds) k = some i := by
  refine ⟨?_, fun i hi => (getElem?_addAll hi ds).1⟩
  rw [← List.nil_append cs, ← find?_addAll, ← find_bind_getElem?, List.nil_append]
  exact Option.bind_congr fun i hi => (getElem?_addAll hi ds).2

end Table
