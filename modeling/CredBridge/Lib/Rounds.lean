import Mathlib
import CredBridge.Lib.Machine
import CredBridge.Lib.Table

/-! # Queues that are served in rounds

A round serves the first tasks of a queue that are ready, in the order of their rank and up to a number of them, and
leaves the others as they are; a new task may have any rank. Every service takes something off the weight of its task.
So the tasks that are ahead of one that is ready, and those that come to be ahead of it, cannot keep it waiting for
longer than their weight lasts: it is served as soon as the rounds can serve more than this (`served_of_rounds`). -/

namespace Rounds
open Machine
variable {α κ τ σ ι ε : Type _} [LinearOrder τ]

/-! ### The first tasks of a queue -/

/-- The first `n` of the tasks that are ready, those of the lowest rank first. -/
def first (rank : α → τ) (ready : α → Bool) (n : Nat) (xs : List α) : List α :=
  ((xs.filter ready).insertionSort fun x y => rank x ≤ rank y).take n

section First
variable {rank : α → τ} {key : α → κ} {ready : α → Bool} {n : Nat} {x y : α} {xs before after : List α}

theorem mem_of_mem_first (h : x ∈ first rank ready n xs) : x ∈ xs ∧ ready x = true :=
  List.mem_filter.mp ((List.mem_insertionSort _).mp (List.mem_of_mem_take h))

theorem keyed_first (h : Table.Keyed key xs) : Table.Keyed key (first rank ready n xs) := by
  have hsorted : Table.Keyed key ((xs.filter ready).insertionSort fun x y => rank x ≤ rank y) :=
    ((List.perm_insertionSort _ _).map key).nodup_iff.mpr (h.sublist List.filter_sublist)
  exact hsorted.sublist (List.take_sublist _ _)

theorem pairwise_first : (first rank ready n xs).Pairwise fun x y => rank x ≤ rank y :=
  (List.pairwise_insertionSort (fun x y => rank x ≤ rank y) _).sublist (List.take_sublist _ _)

/-- A task that is ready is among the first, or `n` others are, none of them of a higher rank. -/
theorem behind_first (hx : x ∈ xs) (hready : ready x = true) (hnot : x ∉ first rank ready n xs) :
    (first rank ready n xs).length = n ∧ ∀ y ∈ first rank ready n xs, rank y ≤ rank x := by
  have hsorted := List.pairwise_insertionSort (fun x y => rank x ≤ rank y) (xs.filter ready)
  have hmem : x ∈ (xs.filter ready).insertionSort fun x y => rank x ≤ rank y :=
    (List.mem_insertionSort _).mpr (List.mem_filter.mpr ⟨hx, hready⟩)
  unfold first at hnot ⊢
  generalize (xs.filter ready).insertionSort (fun x y => rank x ≤ rank y) = sorted at hsorted hmem hnot ⊢
  rw [← List.take_append_drop n sorted] at hsorted hmem
  have hdrop : x ∈ sorted.drop n := (List.mem_append.mp hmem).resolve_left hnot
  refine ⟨List.length_take_of_le ?_, fun y hy => (List.pairwise_append.mp hsorted).2.2 y hy x hdrop⟩
  have hpos := List.length_pos_of_mem hdrop
  rw [List.length_drop] at hpos
  omega

/-- A task that is ready comes before one of a higher rank that is among the first. -/
theorem before_of_first (hx : x ∈ xs) (hready : ready x = true) (hrank : rank x < rank y)
    (hfirst : first rank ready n xs = before ++ y :: after) : x ∈ before := by
  have hy : y ∈ first rank ready n xs := hfirst ▸ List.mem_append_right _ List.mem_cons_self
  have hmem : x ∈ first rank ready n xs := by
    by_contra hnot
    exact absurd ((behind_first hx hready hnot).2 y hy) (not_le.mpr hrank)
  have hsorted : (first rank ready n xs).Pairwise fun x y => rank x ≤ rank y := pairwise_first
  rw [hfirst] at hmem hsorted
  rcases List.mem_append.mp hmem with hbefore | hrest
  · exact hbefore
  · rcases List.mem_cons.mp hrest with rfl | hafter
    · exact absurd hrank (lt_irrefl _)
    · exact absurd ((List.pairwise_cons.mp (List.pairwise_append.mp hsorted).2.1).1 x hafter) (not_le.mpr hrank)

end First

/-! ### Rounds -/

section Round
variable [DecidableEq κ] (key : α → κ) (rank : α → τ)

/-- The tasks of `taken` are served, each as `R` tells, and the others stay as they are. -/
def Served (R : α → α → Prop) (taken xs ys : List α) : Prop :=
  List.Forall₂ (fun x y => if key x ∈ taken.map key then R x y else y = x) xs ys

/-- Another task that a round may prefer to `x`. -/
def ahead (x y : α) : Bool := decide (key y ≠ key x ∧ rank y ≤ rank x)

/-- What the tasks among `xs` that are ahead of `x` weigh. -/
def weightAhead (w : α → Nat) (x : α) (xs : List α) : Nat := ((xs.filter (ahead key rank x)).map w).sum

variable {key rank} {R : α → α → Prop} {T : α → Prop} {w : α → Nat} {n : Nat} {x : α} {taken xs ys : List α}

theorem weightAhead_append :
    weightAhead key rank w x (xs ++ ys) = weightAhead key rank w x xs + weightAhead key rank w x ys := by
  unfold weightAhead
  rw [List.filter_append, List.map_append, List.sum_append]

theorem weightAhead_mono (h : xs.Sublist ys) : weightAhead key rank w x xs ≤ weightAhead key rank w x ys :=
  ((h.filter _).map w).sum_le_sum fun _ _ => Nat.zero_le _

theorem Served.exists_served (h : Served key R taken xs ys) (hx : x ∈ xs) (htaken : key x ∈ taken.map key) :
    ∃ y ∈ ys, R x y := by
  induction h with
  | nil => cases hx
  | @cons a b as bs hab _ ih =>
    rcases List.mem_cons.mp hx with rfl | hx
    · rw [if_pos htaken] at hab
      exact ⟨b, List.mem_cons_self, hab⟩
    · obtain ⟨y, hy, hR⟩ := ih hx
      exact ⟨y, List.mem_cons_of_mem b hy, hR⟩

theorem Served.stays (h : Served key R taken xs ys) (hx : x ∈ xs) (hnot : key x ∉ taken.map key) : x ∈ ys := by
  induction h with
  | nil => cases hx
  | @cons a b as bs hab _ ih =>
    rcases List.mem_cons.mp hx with rfl | hx
    · rw [if_neg hnot] at hab
      exact hab ▸ List.mem_cons_self
    · exact List.mem_cons_of_mem b (ih hx)

/-- What services keep true of a task stays true of one. -/
theorem Served.exists_kept (hT : ∀ x y, T x → R x y → T y) (h : Served key R taken xs ys) (hx : ∃ x ∈ xs, T x) :
    ∃ y ∈ ys, T y := by
  obtain ⟨x, hmem, hTx⟩ := hx
  by_cases htaken : key x ∈ taken.map key
  · obtain ⟨y, hy, hR⟩ := h.exists_served hmem htaken
    exact ⟨y, hy, hT x y hTx hR⟩
  · exact ⟨x, h.stays hmem htaken, hTx⟩

/-- Services of tasks that are ahead of `x` each take something off their weight. -/
theorem Served.weight_le (hw : ∀ y z, R y z → w z < w y) (hkey : ∀ y z, R y z → key z = key y)
    (hrank : ∀ y z, R y z → rank z = rank y) (h : Served key R taken xs ys)
    (hahead : ∀ y ∈ xs, key y ∈ taken.map key → ahead key rank x y = true) :
    weightAhead key rank w x ys + xs.countP (fun y => decide (key y ∈ taken.map key)) ≤ weightAhead key rank w x xs := by
  induction h with
  | nil => exact Nat.le_refl _
  | @cons a b as bs hab _ ih =>
    have ih := ih fun y hy => hahead y (List.mem_cons_of_mem a hy)
    unfold weightAhead at ih ⊢
    by_cases htaken : key a ∈ taken.map key
    · rw [if_pos htaken] at hab
      have ha : ahead key rank x a = true := hahead a List.mem_cons_self htaken
      have hb : ahead key rank x b = true := by
        unfold ahead at ha ⊢
        rwa [hkey a b hab, hrank a b hab]
      have hless := hw a b hab
      rw [List.filter_cons_of_pos ha, List.filter_cons_of_pos hb, List.countP_cons_of_pos (by exact decide_eq_true htaken)]
      simp only [List.map_cons, List.sum_cons]
      omega
    · rw [if_neg htaken] at hab
      subst hab
      rw [List.countP_cons_of_neg (by simpa using htaken)]
      cases hb : ahead key rank x b with
      | true =>
        rw [List.filter_cons_of_pos hb, List.filter_cons_of_pos hb]
        simp only [List.map_cons, List.sum_cons]
        omega
      | false =>
        rw [List.filter_cons_of_neg (by rw [hb]; exact Bool.false_ne_true),
          List.filter_cons_of_neg (by rw [hb]; exact Bool.false_ne_true)]
        exact ih

/-- The tasks of `taken` are counted among those that have one of their keys. -/
theorem length_le_countP (hkeyed : Table.Keyed key taken) (htaken : ∀ y ∈ taken, y ∈ xs) :
    taken.length ≤ xs.countP (fun y => decide (key y ∈ taken.map key)) := by
  have hsubset : taken.map key ⊆ (xs.filter fun y => decide (key y ∈ taken.map key)).map key := by
    intro k hk
    obtain ⟨y, hy, rfl⟩ := List.mem_map.mp hk
    exact List.mem_map_of_mem (List.mem_filter.mpr ⟨htaken y hy, decide_eq_true hk⟩)
  have hle := (List.Nodup.subperm hkeyed hsubset).length_le
  rwa [List.length_map, List.length_map, ← List.countP_eq_length_filter] at hle

end Round

section Runs
variable [DecidableEq κ] (step : σ → ι → Except ε σ) (queue : σ → List α) (key : α → κ) (rank : α → τ) (isRound : ι → Bool)
  (arrivals : ι → List α)

/-- A step is a round, in which every task that `Waits` is ready, or it adds at most its arrivals to the queue. -/
def Serves (Waits : α → Prop) (R : α → α → Prop) (n : Nat) (s : σ) (i : ι) : Prop :=
  if isRound i then
    ∃ ready : α → Bool, (∀ x, Waits x → ready x = true) ∧ Table.Keyed key (queue s) ∧
      Served key R (first rank ready n (queue s)) (queue s) (queue (next step s i))
  else ∃ added, added.Sublist (arrivals i) ∧ queue (next step s i) = queue s ++ added

variable {step queue key rank isRound arrivals} {Waits : α → Prop} {R : α → α → Prop}
  {T : α → Prop} {w : α → Nat} {n : Nat} {s : σ} {is : List ι} {x : α}

theorem exists_kept_of_rounds (hT : ∀ x y, T x → R x y → T y)
    (hserves : Along step (Serves step queue key rank isRound arrivals Waits R n) s is) (hx : ∃ x ∈ queue s, T x) :
    ∃ y ∈ queue (run step s is), T y := by
  induction is generalizing s with
  | nil => exact hx
  | cons i is ih =>
    refine ih hserves.2 ?_
    have hi := hserves.1
    unfold Serves at hi
    split at hi
    · obtain ⟨ready, -, -, hserved⟩ := hi
      exact hserved.exists_kept hT hx
    · obtain ⟨added, -, hadded⟩ := hi
      obtain ⟨x, hmem, hTx⟩ := hx
      exact ⟨x, hadded ▸ List.mem_append_left added hmem, hTx⟩

/-- In a round a task that waits is served, or it stays and as much as a round can serve goes off the weight ahead of it. -/
theorem Served.of_waits (hw : ∀ y z, R y z → w z < w y) (hkey : ∀ y z, R y z → key z = key y)
    (hrank : ∀ y z, R y z → rank z = rank y) {ready : α → Bool} {xs ys : List α} (hkeyed : Table.Keyed key xs)
    (hx : x ∈ xs) (hready : ready x = true) (h : Served key R (first rank ready n xs) xs ys) :
    (∃ y ∈ ys, R x y) ∨ x ∈ ys ∧ weightAhead key rank w x ys + n ≤ weightAhead key rank w x xs := by
  by_cases htaken : key x ∈ (first rank ready n xs).map key
  · exact .inl (h.exists_served hx htaken)
  · obtain ⟨hlength, hbehind⟩ := behind_first hx hready fun hmem => htaken (List.mem_map_of_mem hmem)
    have hin : ∀ y ∈ first rank ready n xs, y ∈ xs := fun y hy => (mem_of_mem_first hy).1
    have hahead : ∀ y ∈ xs, key y ∈ (first rank ready n xs).map key → ahead key rank x y = true := by
      intro y hy hkeyy
      obtain ⟨z, hz, heq⟩ := List.mem_map.mp hkeyy
      obtain rfl := hkeyed.eq_of_key (hin z hz) hy heq
      exact decide_eq_true ⟨fun hsame => htaken (hsame ▸ hkeyy), hbehind z hz⟩
    have hweight := h.weight_le hw hkey hrank hahead
    have hcount := length_le_countP (keyed_first hkeyed) hin
    exact .inr ⟨h.stays hx htaken, by omega⟩

/-- A task that waits is served in a run whose rounds can serve more than what the tasks ahead of it weigh, with those
    that arrive. -/
theorem served_of_rounds (hw : ∀ y z, R y z → w z < w y) (hkey : ∀ y z, R y z → key z = key y)
    (hrank : ∀ y z, R y z → rank z = rank y) (hR : ∀ y, R x y → T y) (hT : ∀ x y, T x → R x y → T y) (hx : Waits x)
    (hserves : Along step (Serves step queue key rank isRound arrivals Waits R n) s is) (hmem : x ∈ queue s)
    (hrounds : weightAhead key rank w x (queue s ++ is.flatMap arrivals) < n * is.countP isRound) :
    ∃ y ∈ queue (run step s is), T y := by
  induction is generalizing s with
  | nil => exact absurd hrounds (by simp)
  | cons i is ih =>
    rw [List.flatMap_cons, weightAhead_append, weightAhead_append] at hrounds
    have hi := hserves.1
    unfold Serves at hi
    split at hi
    · next hround =>
      obtain ⟨ready, hready, hkeyed, hserved⟩ := hi
      rcases hserved.of_waits hw hkey hrank hkeyed hmem (hready x hx) with ⟨y, hy, hxy⟩ | ⟨hstays, hweight⟩
      · show ∃ y ∈ queue (run step (next step s i) is), T y
        exact exists_kept_of_rounds hT hserves.2 ⟨y, hy, hR y hxy⟩
      · refine ih hserves.2 hstays ?_
        rw [List.countP_cons_of_pos hround, Nat.mul_succ] at hrounds
        rw [weightAhead_append]
        omega
    · next hround =>
      obtain ⟨added, hsub, hadded⟩ := hi
      refine ih hserves.2 (hadded ▸ List.mem_append_left added hmem) ?_
      have hle : weightAhead key rank w x added ≤ weightAhead key rank w x (arrivals i) := weightAhead_mono hsub
      rw [List.countP_cons_of_neg hround] at hrounds
      rw [hadded, weightAhead_append, weightAhead_append]
      omega

end Runs

end Rounds
