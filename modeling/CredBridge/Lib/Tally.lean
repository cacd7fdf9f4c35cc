import Mathlib

/-! # Tallies

A tally gives each key a number, zero unless it was set. It keeps one entry for each key that was set, so
that it can be evaluated and added up. -/

/-- A number for each key; keys without an entry count zero. -/
structure Tally (κ : Type) where
  entries : List (κ × Int)
  nodup : (entries.map (·.1)).Nodup

namespace Tally
variable {κ : Type} [DecidableEq κ]

def empty : Tally κ := ⟨[], List.nodup_nil⟩

def lookup (k : κ) : List (κ × Int) → Int
  | [] => 0
  | (j, v) :: es => if j = k then v else lookup k es

def get (t : Tally κ) (k : κ) : Int := lookup k t.entries

def replace (k : κ) (v : Int) : List (κ × Int) → List (κ × Int)
  | [] => [(k, v)]
  | (j, u) :: es => if j = k then (k, v) :: es else (j, u) :: replace k v es

theorem mem_keys_replace {k j : κ} {v : Int} {es : List (κ × Int)} :
    j ∈ (replace k v es).map (·.1) ↔ j = k ∨ j ∈ es.map (·.1) := by
  induction es with
  | nil => simp [replace]
  | cons e es ih =>
    unfold replace
    split
    · next h => simp only [List.map_cons, List.mem_cons, h, or_self_left]
    · next h =>
      simp only [List.map_cons, List.mem_cons, ih]
      exact or_left_comm

theorem nodup_replace {k : κ} {v : Int} {es : List (κ × Int)} (h : (es.map (·.1)).Nodup) :
    ((replace k v es).map (·.1)).Nodup := by
  induction es with
  | nil => exact List.nodup_singleton k
  | cons e es ih =>
    obtain ⟨hnot, hes⟩ := List.nodup_cons.mp h
    unfold replace
    split
    · next hk => exact List.nodup_cons.mpr ⟨hk ▸ hnot, hes⟩
    · next hk =>
      refine List.nodup_cons.mpr ⟨fun hmem => ?_, ih hes⟩
      rcases mem_keys_replace.mp hmem with heq | hmem
      · exact hk heq
      · exact hnot hmem

def set (t : Tally κ) (k : κ) (v : Int) : Tally κ := ⟨replace k v t.entries, nodup_replace t.nodup⟩

theorem lookup_replace {k j : κ} {v : Int} {es : List (κ × Int)} :
    lookup j (replace k v es) = if j = k then v else lookup j es := by
  induction es with
  | nil => simp only [replace, lookup, eq_comm]
  | cons e es ih =>
    unfold replace
    split
    · next h =>
      simp only [lookup, h, eq_comm (a := k)]
      split <;> rfl
    · next h =>
      simp only [lookup, ih]
      by_cases hj : e.1 = j
      · rw [if_pos hj, if_pos hj, if_neg (fun hjk => h (hj.trans hjk))]
      · rw [if_neg hj, if_neg hj]

@[simp] theorem get_set (t : Tally κ) (k j : κ) (v : Int) : (t.set k v).get j = if j = k then v else t.get j :=
  lookup_replace

def add (t : Tally κ) (k : κ) (v : Int) : Tally κ := t.set k (t.get k + v)

@[simp] theorem get_add (t : Tally κ) (k j : κ) (v : Int) :
    (t.add k v).get j = t.get j + if j = k then v else 0 := by
  unfold add
  rw [get_set]
  split
  · next h => rw [h]
  · exact (Int.add_zero _).symm

/-! ### The sum over all keys -/

def total (t : Tally κ) : Int := (t.entries.map (·.2)).sum

def Nonneg (t : Tally κ) : Prop := ∀ k, 0 ≤ t.get k

theorem sum_replace {k : κ} {v : Int} {es : List (κ × Int)} :
    ((replace k v es).map (·.2)).sum = (es.map (·.2)).sum - lookup k es + v := by
  induction es with
  | nil => simp [replace, lookup]
  | cons e es ih =>
    unfold replace lookup
    split
    · simp only [List.map_cons, List.sum_cons]
      omega
    · simp only [List.map_cons, List.sum_cons, ih]
      omega

@[simp] theorem total_add (t : Tally κ) (k : κ) (v : Int) : (t.add k v).total = t.total + v := by
  have hsum : (t.add k v).total = t.total - t.get k + (t.get k + v) := sum_replace
  omega

theorem lookup_of_mem {k : κ} {v : Int} {es : List (κ × Int)} (hes : (es.map (·.1)).Nodup) (h : (k, v) ∈ es) :
    lookup k es = v := by
  induction es with
  | nil => cases h
  | cons e es ih =>
    obtain ⟨hnot, hes⟩ := List.nodup_cons.mp hes
    unfold lookup
    rcases List.mem_cons.mp h with rfl | h
    · exact if_pos rfl
    · have hne : e.1 ≠ k := fun heq => hnot (List.mem_map.mpr ⟨(k, v), h, heq.symm⟩)
      rw [if_neg hne]
      exact ih hes h

theorem lookup_of_not_mem {k : κ} {es : List (κ × Int)} (h : k ∉ es.map (·.1)) : lookup k es = 0 := by
  induction es with
  | nil => rfl
  | cons e es ih =>
    rw [List.map_cons, List.mem_cons, not_or] at h
    unfold lookup
    rw [if_neg (Ne.symm h.1), ih h.2]

/-- The sum may be taken over any keys among which all those with an entry are. -/
theorem total_eq_sum {t : Tally κ} {keys : Finset κ} (h : (t.entries.map (·.1)).toFinset ⊆ keys) :
    t.total = ∑ k ∈ keys, t.get k := by
  have hzero : ∀ k ∈ keys, k ∉ (t.entries.map (·.1)).toFinset → t.get k = 0 := fun k _ hk =>
    lookup_of_not_mem fun hmem => hk (List.mem_toFinset.mpr hmem)
  rw [← Finset.sum_subset h hzero, List.sum_toFinset _ t.nodup, List.map_map]
  exact congrArg List.sum (List.map_congr_left fun e he => (lookup_of_mem t.nodup he).symm)

theorem total_congr {t t' : Tally κ} (h : ∀ k, t'.get k = t.get k) : t'.total = t.total := by
  have hsum : ∑ k ∈ (t'.entries.map (·.1)).toFinset ∪ (t.entries.map (·.1)).toFinset, t'.get k =
      ∑ k ∈ (t'.entries.map (·.1)).toFinset ∪ (t.entries.map (·.1)).toFinset, t.get k :=
    Finset.sum_congr rfl fun k _ => h k
  rwa [← total_eq_sum Finset.subset_union_left, ← total_eq_sum Finset.subset_union_right] at hsum

theorem Nonneg.total {t : Tally κ} (h : t.Nonneg) : 0 ≤ t.total := by
  refine List.sum_nonneg fun x hx => ?_
  obtain ⟨e, he, rfl⟩ := List.mem_map.mp hx
  have hget : t.get e.1 = e.2 := lookup_of_mem t.nodup he
  exact hget ▸ h e.1

end Tally
