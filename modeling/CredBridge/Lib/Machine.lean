import Mathlib
import CredBridge.Lib.Result

/-! # Machines and their runs

A machine takes one input after another. Each input either moves the state or is refused, and a refused
input leaves the state as it was. A property that every accepted input keeps holds in every state of a
run (`throughout_of_step`); when the inputs keep it only under a condition on the state they meet, it
holds in every state of each run along which the condition holds (`throughout_of_along`), and when
nothing but the condition keeps it, these are the only such runs (`throughout_iff_along`).

What a run did is told by the inputs it accepted and by the values that an observation of the state took. -/

namespace Machine
variable {σ ι ε : Type _}

/-- The state after one input: a refused input changes nothing. -/
def next (step : σ → ι → Except ε σ) (s : σ) (i : ι) : σ :=
  match step s i with
  | .ok t => t
  | .error _ => s

def run (step : σ → ι → Except ε σ) (s : σ) (is : List ι) : σ := is.foldl (next step) s

/-- `P` holds in the first state and after each input. -/
def Throughout (step : σ → ι → Except ε σ) (P : σ → Prop) (s : σ) : List ι → Prop
  | [] => P s
  | i :: is => P s ∧ Throughout step P (next step s i) is

/-- `R` relates each state of a run to every later one. -/
def Onward (step : σ → ι → Except ε σ) (R : σ → σ → Prop) (s : σ) : List ι → Prop
  | [] => R s s
  | i :: is => Throughout step (R s) s (i :: is) ∧ Onward step R (next step s i) is

/-- `Q` holds of each input and the state it meets. -/
def Along (step : σ → ι → Except ε σ) (Q : σ → ι → Prop) (s : σ) : List ι → Prop
  | [] => True
  | i :: is => Q s i ∧ Along step Q (next step s i) is

/-- The inputs that a run accepts, in their order. -/
def accepted (step : σ → ι → Except ε σ) (s : σ) : List ι → List ι
  | [] => []
  | i :: is =>
    match step s i with
    | .ok t => i :: accepted step t is
    | .error _ => accepted step s is

/-- The values that `f` takes along a run after its first one, without repetitions. -/
def changes {α : Type _} [DecidableEq α] (step : σ → ι → Except ε σ) (f : σ → α) (s : σ) : List ι → List α
  | [] => []
  | i :: is =>
    if f (next step s i) = f s then changes step f (next step s i) is
    else f (next step s i) :: changes step f (next step s i) is

section Basic
variable {step : σ → ι → Except ε σ} {P : σ → Prop} {Q R : σ → ι → Prop} {s t : σ} {i : ι} {is js : List ι}

theorem next_of_ok (h : step s i = .ok t) : next step s i = t := by
  unfold next
  rw [h]

theorem next_of_error {e : ε} (h : step s i = .error e) : next step s i = s := by
  unfold next
  rw [h]

theorem next_cases (step : σ → ι → Except ε σ) (s : σ) (i : ι) :
    step s i = .ok (next step s i) ∨ next step s i = s := by
  cases h : step s i with
  | ok t => exact .inl (by rw [next_of_ok h])
  | error e => exact .inr (next_of_error h)

theorem run_append : run step s (is ++ js) = run step (run step s is) js := List.foldl_append

theorem Throughout.head (h : Throughout step P s is) : P s := by
  cases is with
  | nil => exact h
  | cons i is => exact h.1

theorem Throughout.prefix (h : Throughout step P s (is ++ js)) : P (run step s is) := by
  induction is generalizing s with
  | nil => exact h.head
  | cons i is ih => exact ih h.2

theorem Throughout.last (h : Throughout step P s is) : P (run step s is) := by
  rw [← List.append_nil is] at h
  exact h.prefix

theorem Throughout.mono {P' : σ → Prop} (h : Throughout step P s is) (himp : ∀ s, P s → P' s) :
    Throughout step P' s is := by
  induction is generalizing s with
  | nil => exact himp s h
  | cons i is ih => exact ⟨himp s h.1, ih h.2⟩

theorem Onward.rel {Rel : σ → σ → Prop} (h : Onward step Rel s (is ++ js)) :
    Rel (run step s is) (run step s (is ++ js)) := by
  induction is generalizing s with
  | nil =>
    cases js with
    | nil => exact h
    | cons j js => exact h.1.last
  | cons i is ih => exact ih h.2

theorem Onward.mono {Rel Rel' : σ → σ → Prop} (h : Onward step Rel s is) (himp : ∀ s t, Rel s t → Rel' s t) :
    Onward step Rel' s is := by
  induction is generalizing s with
  | nil => exact himp s s h
  | cons i is ih => exact ⟨h.1.mono (himp s), ih h.2⟩

theorem Along.mono (h : Along step Q s is) (himp : ∀ s i, Q s i → R s i) : Along step R s is := by
  induction is generalizing s with
  | nil => trivial
  | cons i is ih => exact ⟨himp s i h.1, ih h.2⟩

theorem Along.of_all (h : ∀ s i, Q s i) (s : σ) (is : List ι) : Along step Q s is := by
  induction is generalizing s with
  | nil => trivial
  | cons i is ih => exact ⟨h s i, ih _⟩

theorem Along.and (hQ : Along step Q s is) (hR : Along step R s is) : Along step (fun s i => Q s i ∧ R s i) s is := by
  induction is generalizing s with
  | nil => trivial
  | cons i is ih => exact ⟨⟨hQ.1, hR.1⟩, ih hQ.2 hR.2⟩

theorem Along.append : Along step Q s (is ++ js) ↔ Along step Q s is ∧ Along step Q (run step s is) js := by
  induction is generalizing s with
  | nil => exact ⟨fun h => ⟨trivial, h⟩, fun h => h.2⟩
  | cons i is ih => exact (and_congr_right fun _ => ih).trans and_assoc.symm

theorem Along.of_forall {q : ι → Prop} (h : ∀ i ∈ is, q i) : Along step (fun _ i => q i) s is := by
  induction is generalizing s with
  | nil => trivial
  | cons i is ih => exact ⟨h i List.mem_cons_self, ih fun j hj => h j (List.mem_cons_of_mem _ hj)⟩

instance decidableThroughout [DecidablePred P] : (s : σ) → (is : List ι) → Decidable (Throughout step P s is)
  | s, [] => inferInstanceAs (Decidable (P s))
  | s, i :: is => @instDecidableAnd _ _ inferInstance (decidableThroughout (next step s i) is)

instance decidableAlong [∀ s i, Decidable (Q s i)] : (s : σ) → (is : List ι) → Decidable (Along step Q s is)
  | _, [] => instDecidableTrue
  | s, i :: is => @instDecidableAnd _ _ inferInstance (decidableAlong (next step s i) is)

end Basic

section Rules
variable {step : σ → ι → Except ε σ} {I P : σ → Prop} {Q R : σ → ι → Prop} {s : σ} {is : List ι}

/-- An invariant that an accepted input keeps whenever `Q` holds of it holds throughout every run along
    which `Q` holds. -/
theorem throughout_of_along (hstep : ∀ s i t, I s → Q s i → step s i = .ok t → I t) (hs : I s)
    (hQ : Along step Q s is) : Throughout step I s is := by
  induction is generalizing s with
  | nil => exact hs
  | cons i is ih =>
    refine ⟨hs, ih ?_ hQ.2⟩
    rcases next_cases step s i with h | h
    · exact hstep s i _ hs hQ.1 h
    · rwa [h]

theorem throughout_of_step (hstep : ∀ s i t, I s → step s i = .ok t → I t) (hs : I s) (is : List ι) :
    Throughout step I s is := by
  induction is generalizing s with
  | nil => exact hs
  | cons i is ih =>
    refine ⟨hs, ih ?_⟩
    rcases next_cases step s i with h | h
    · exact hstep s i _ hs h
    · rwa [h]

theorem run_of_step (hstep : ∀ s i t, I s → step s i = .ok t → I t) (hs : I s) (is : List ι) :
    I (run step s is) :=
  (throughout_of_step hstep hs is).last

/-- Where each step that `Q` allows moves the state along a preorder, every later state of the run is further along. -/
theorem onward_of_along {Rel : σ → σ → Prop} (hrefl : ∀ s, Rel s s) (htrans : ∀ s t u, Rel s t → Rel t u → Rel s u)
    (hstep : ∀ s i t, I s → Q s i → step s i = .ok t → I t ∧ Rel s t) (hs : I s) (hQ : Along step Q s is) :
    Onward step Rel s is := by
  have hlater : ∀ is s, I s → Along step Q s is → ∀ r, Rel r s → Throughout step (Rel r) s is := fun is s hs hQ r hr =>
    (throughout_of_along (I := fun u => I u ∧ Rel r u) (fun u i v hu hQ hv =>
      ⟨(hstep u i v hu.1 hQ hv).1, htrans r u v hu.2 (hstep u i v hu.1 hQ hv).2⟩) ⟨hs, hr⟩ hQ).mono fun _ hu => hu.2
  induction is generalizing s with
  | nil => exact hrefl s
  | cons i is ih =>
    refine ⟨hlater (i :: is) s hs hQ s (hrefl s), ih ?_ hQ.2⟩
    rcases next_cases step s i with h | h
    · exact (hstep s i _ hs hQ.1 h).1
    · rwa [h]

/-- What `Q` brings about in the states of an invariant that it keeps holds along each run along which `Q` holds. -/
theorem along_of_along (hstep : ∀ s i t, I s → Q s i → step s i = .ok t → I t) (hR : ∀ s i, I s → Q s i → R s i)
    (hs : I s) (hQ : Along step Q s is) : Along step R s is := by
  induction is generalizing s with
  | nil => trivial
  | cons i is ih =>
    refine ⟨hR s i hs hQ.1, ih ?_ hQ.2⟩
    rcases next_cases step s i with h | h
    · exact hstep s i _ hs hQ.1 h
    · rwa [h]

theorem along_of_step (hstep : ∀ s i t, I s → step s i = .ok t → I t) (hR : ∀ s i, I s → Q s i → R s i) (hs : I s)
    (hQ : Along step Q s is) : Along step R s is :=
  along_of_along (fun s i t hs _ => hstep s i t hs) hR hs hQ

/-- Where two conditions on a step agree in the states of an invariant that the second one keeps, they hold along the
    same runs. -/
theorem along_iff_along (hI : ∀ s i t, I s → Q s i → step s i = .ok t → I t) (h : ∀ s i, I s → (R s i ↔ Q s i))
    (hs : I s) : Along step R s is ↔ Along step Q s is := by
  induction is generalizing s with
  | nil => exact Iff.rfl
  | cons i is ih =>
    refine (and_congr_left' (h s i hs)).trans (and_congr_right fun hQ => ih ?_)
    rcases next_cases step s i with hstep | hstep
    · exact hI s i _ hs hQ hstep
    · rwa [hstep]

/-- Where the steps of two machines agree under a map of their states, so do their runs. -/
theorem run_map {τ : Type _} {step' : τ → ι → Except ε τ} {f : τ → σ} (h : ∀ t i, step (f t) i = (step' t i).map f)
    (t : τ) (is : List ι) : run step (f t) is = f (run step' t is) := by
  induction is generalizing t with
  | nil => rfl
  | cons i is ih =>
    have hnext : next step (f t) i = f (next step' t i) := by
      cases hi : step' t i with
      | error e => rw [next_of_error ((h t i).trans (by rw [hi]; rfl)), next_of_error hi]
      | ok t' => rw [next_of_ok ((h t i).trans (by rw [hi]; rfl)), next_of_ok hi]
    show run step (next step (f t) i) is = _
    rw [hnext]
    exact ih _

/-- Where each step of a run relates its two states, the run relates its first state to its last. -/
theorem rel_run {Rel : σ → σ → Prop} (hrefl : ∀ s, Rel s s) (htrans : ∀ s t u, Rel s t → Rel t u → Rel s u)
    (h : Along step (fun s i => Rel s (next step s i)) s is) : Rel s (run step s is) := by
  induction is generalizing s with
  | nil => exact hrefl s
  | cons i is ih => exact htrans _ _ _ h.1 (ih h.2)

/-- When, in the states of the invariant, an accepted input of the kind `p` keeps `P` exactly if `Q` holds of it, `P`
    holds throughout a run of such inputs exactly if `Q` holds along the accepted ones. -/
theorem throughout_iff_along_of_forall {p : ι → Prop} (hI : ∀ s i t, p i → I s → step s i = .ok t → I t)
    (hstep : ∀ s i t, p i → I s → P s → step s i = .ok t → (P t ↔ Q s i)) (hp : ∀ i ∈ is, p i) (hs : I s) (hP : P s) :
    Throughout step P s is ↔ Along step (fun s i => ∀ t, step s i = .ok t → Q s i) s is := by
  induction is generalizing s with
  | nil => exact ⟨fun _ => trivial, fun _ => hP⟩
  | cons i is ih =>
    have hi : p i := hp i List.mem_cons_self
    have ih := fun {s} => @ih s fun j hj => hp j (List.mem_cons_of_mem i hj)
    cases h : step s i with
    | error e =>
      have hn : next step s i = s := next_of_error h
      have hr := ih hs hP
      simp only [Throughout, Along, hn, hr, hP, true_and, h, reduceCtorEq, false_implies, implies_true]
    | ok t =>
      have hn : next step s i = t := next_of_ok h
      have hiff := hstep s i t hi hs hP h
      constructor
      · intro ht
        have hPt : P t := by simpa only [hn] using ht.2.head
        refine ⟨fun _ _ => hiff.mp hPt, ?_⟩
        rw [hn]
        exact (ih (hI s i t hi hs h) hPt).mp (by simpa only [hn] using ht.2)
      · intro ha
        have hPt : P t := hiff.mpr (ha.1 t h)
        refine ⟨hP, ?_⟩
        rw [hn]
        exact (ih (hI s i t hi hs h) hPt).mpr (by simpa only [hn] using ha.2)

/-- When, in the states of the invariant, an accepted input keeps `P` exactly if `Q` holds of it, `P`
    holds throughout a run exactly if `Q` holds along its accepted inputs. -/
theorem throughout_iff_along (hI : ∀ s i t, I s → step s i = .ok t → I t)
    (hstep : ∀ s i t, I s → P s → step s i = .ok t → (P t ↔ Q s i)) (hs : I s) (hP : P s) :
    Throughout step P s is ↔ Along step (fun s i => ∀ t, step s i = .ok t → Q s i) s is :=
  throughout_iff_along_of_forall (p := fun _ => True) (fun s i t _ => hI s i t) (fun s i t _ => hstep s i t)
    (fun _ _ => trivial) hs hP

end Rules

section Accepted
variable {step : σ → ι → Except ε σ} {I : σ → Prop} {s t : σ} {i : ι} {is : List ι}

theorem accepted_cons_of_ok (h : step s i = .ok t) : accepted step s (i :: is) = i :: accepted step t is := by
  simp only [accepted, h]

theorem accepted_cons_of_error {e : ε} (h : step s i = .error e) :
    accepted step s (i :: is) = accepted step s is := by
  simp only [accepted, h]

theorem run_cons_of_ok (h : step s i = .ok t) : run step s (i :: is) = run step t is :=
  congrArg (run step · is) (next_of_ok h)

theorem run_cons_of_error {e : ε} (h : step s i = .error e) : run step s (i :: is) = run step s is :=
  congrArg (run step · is) (next_of_error h)

/-- What an accepted input leaves behind, and later ones keep, is there at the end of the run. -/
theorem mark_of_mem_accepted {M : ι → σ → Prop} (hI : ∀ s i t, I s → step s i = .ok t → I t)
    (hmark : ∀ s i t, I s → step s i = .ok t → M i t)
    (hkeep : ∀ i s j t, I s → M i s → step s j = .ok t → M i t) (hs : I s) :
    ∀ i ∈ accepted step s is, M i (run step s is) := by
  have hlater : ∀ i t, I t → M i t → ∀ is, M i (run step t is) := fun i t ht hm is =>
    (run_of_step (I := fun u => I u ∧ M i u) (fun u j v hu hstep =>
      ⟨hI u j v hu.1 hstep, hkeep i u j v hu.1 hu.2 hstep⟩) ⟨ht, hm⟩ is).2
  induction is generalizing s with
  | nil => intro i hi; cases hi
  | cons j is ih =>
    intro i hi
    cases h : step s j with
    | error e =>
      rw [accepted_cons_of_error h] at hi
      rw [run_cons_of_error h]
      exact ih hs i hi
    | ok t =>
      rw [accepted_cons_of_ok h] at hi
      rw [run_cons_of_ok h]
      rcases List.mem_cons.mp hi with rfl | hi
      · exact hlater i t (hI s i t hs h) (hmark s i t hs h) is
      · exact ih (hI s j t hs h) i hi

/-- What does not hold at first and does at the end of a run was brought about by an input that the run accepted. -/
theorem exists_mem_accepted {P : σ → Prop} (hI : ∀ s i t, I s → step s i = .ok t → I t) (hs : I s) (hP : ¬P s)
    (h : P (run step s is)) : ∃ i ∈ accepted step s is, ∃ s t, I s ∧ step s i = .ok t ∧ ¬P s ∧ P t := by
  induction is generalizing s with
  | nil => exact absurd h hP
  | cons i is ih =>
    cases hstep : step s i with
    | error e =>
      rw [run_cons_of_error hstep] at h
      rw [accepted_cons_of_error hstep]
      exact ih hs hP h
    | ok t =>
      rw [run_cons_of_ok hstep] at h
      rw [accepted_cons_of_ok hstep]
      by_cases ht : P t
      · exact ⟨i, List.mem_cons_self, s, t, hs, hstep, hP, ht⟩
      · obtain ⟨j, hj, hbrought⟩ := ih (hI s i t hs hstep) ht h
        exact ⟨j, List.mem_cons_of_mem i hj, hbrought⟩

/-- Inputs that only a state outside `A` accepts, and that lead into `A` for good, are accepted once at most. -/
theorem countP_accepted_le_one {p : ι → Bool} {A : σ → Prop}
    (hbefore : ∀ s i t, p i = true → step s i = .ok t → ¬A s) (hafter : ∀ s i t, p i = true → step s i = .ok t → A t)
    (hkeep : ∀ s i t, A s → step s i = .ok t → A t) (s : σ) (is : List ι) : (accepted step s is).countP p ≤ 1 := by
  have hnone : ∀ is s, A s → (accepted step s is).countP p = 0 := by
    intro is
    induction is with
    | nil => exact fun s _ => rfl
    | cons j is ih =>
      intro s hs
      cases h : step s j with
      | error e => rw [accepted_cons_of_error h]; exact ih s hs
      | ok t =>
        have hj : ¬p j = true := fun hj => hbefore s j t hj h hs
        rw [accepted_cons_of_ok h, List.countP_cons_of_neg hj]
        exact ih t (hkeep s j t hs h)
  induction is generalizing s with
  | nil => exact Nat.zero_le _
  | cons j is ih =>
    cases h : step s j with
    | error e => rw [accepted_cons_of_error h]; exact ih s
    | ok t =>
      rw [accepted_cons_of_ok h]
      by_cases hj : p j = true
      · rw [List.countP_cons_of_pos hj, hnone is t (hafter s j t hj h)]
      · rw [List.countP_cons_of_neg hj]
        exact ih t

/-- Where each accepted input adds its marks to a list, the list tells the marks of the accepted inputs in their order. -/
theorem marks_run {α : Type _} {marks : σ → List α} {mark? : ι → Option α}
    (hstep : ∀ s i t, step s i = .ok t → marks t = marks s ++ (mark? i).toList) (s : σ) (is : List ι) :
    marks (run step s is) = marks s ++ (accepted step s is).filterMap mark? := by
  induction is generalizing s with
  | nil => exact (List.append_nil _).symm
  | cons i is ih =>
    cases h : step s i with
    | error e => rw [run_cons_of_error h, accepted_cons_of_error h, ih]
    | ok t =>
      rw [run_cons_of_ok h, accepted_cons_of_ok h, ih, hstep s i t h, List.append_assoc]
      cases hmark : mark? i with
      | none => rw [List.filterMap_cons_none hmark]; rfl
      | some a => rw [List.filterMap_cons_some hmark]; rfl

end Accepted

/-! ### Sums along a run -/

/-- The sum of `f` over the inputs that a run accepts, each with the state it meets. -/
def total (step : σ → ι → Except ε σ) (f : σ → ι → Int) (s : σ) : List ι → Int
  | [] => 0
  | i :: is =>
    match step s i with
    | .ok t => f s i + total step f t is
    | .error _ => total step f s is

section Total
variable {step : σ → ι → Except ε σ} {f g : σ → ι → Int} {s t : σ} {i : ι} {is : List ι}

theorem total_cons_of_ok (h : step s i = .ok t) : total step f s (i :: is) = f s i + total step f t is := by
  simp only [total, h]

theorem total_cons_of_error {e : ε} (h : step s i = .error e) : total step f s (i :: is) = total step f s is := by
  simp only [total, h]

theorem total_add : total step (fun s i => f s i + g s i) s is = total step f s is + total step g s is := by
  induction is generalizing s with
  | nil => rfl
  | cons i is ih =>
    cases h : step s i with
    | error e => rw [total_cons_of_error h, total_cons_of_error h, total_cons_of_error h, ih]
    | ok t =>
      rw [total_cons_of_ok h, total_cons_of_ok h, total_cons_of_ok h, ih]
      omega

theorem total_neg : total step (fun s i => -f s i) s is = -total step f s is := by
  induction is generalizing s with
  | nil => rfl
  | cons i is ih =>
    cases h : step s i with
    | error e => rw [total_cons_of_error h, total_cons_of_error h, ih]
    | ok t =>
      rw [total_cons_of_ok h, total_cons_of_ok h, ih]
      omega

/-- When, in the states of the invariant, an accepted input of the kind `p` changes the value `v` by `f` exactly if `Q`
    holds of it, the value is its first one and the sum of `f` after every part of a run exactly if `Q` holds along the
    accepted inputs. -/
theorem value_eq_total_iff {v : σ → Int} {I : σ → Prop} {Q : σ → ι → Prop} {p : ι → Prop}
    (hI : ∀ s i t, p i → I s → step s i = .ok t → I t)
    (hstep : ∀ s i t, p i → I s → step s i = .ok t → (v t = v s + f s i ↔ Q s i)) (hp : ∀ i ∈ is, p i) (hs : I s) :
    (∀ js, js <+: is → v (run step s js) = v s + total step f s js) ↔
      Along step (fun s i => ∀ t, step s i = .ok t → Q s i) s is := by
  induction is generalizing s with
  | nil =>
    refine iff_of_true (fun js hjs => ?_) trivial
    rw [List.prefix_nil.mp hjs]
    exact (Int.add_zero _).symm
  | cons i is ih =>
    have hi : p i := hp i List.mem_cons_self
    have ih := fun {s} => @ih s fun j hj => hp j (List.mem_cons_of_mem i hj)
    have hsplit : ∀ {P : List ι → Prop}, P [] → ((∀ js, js <+: i :: is → P js) ↔ ∀ js, js <+: is → P (i :: js)) := by
      intro P hnil
      constructor
      · exact fun hall js hjs => hall (i :: js) (List.cons_prefix_cons.mpr ⟨rfl, hjs⟩)
      · intro hall js hjs
        cases js with
        | nil => exact hnil
        | cons j js =>
          obtain ⟨rfl, htail⟩ := List.cons_prefix_cons.mp hjs
          exact hall js htail
    rw [hsplit (Int.add_zero _).symm]
    cases h : step s i with
    | error e =>
      have hn : next step s i = s := next_of_error h
      simp only [run_cons_of_error h, total_cons_of_error h, Along, hn, h, reduceCtorEq, false_implies, implies_true,
        true_and]
      exact ih hs
    | ok t =>
      have hn : next step s i = t := next_of_ok h
      have hiff := hstep s i t hi hs h
      have ht := hI s i t hi hs h
      simp only [run_cons_of_ok h, total_cons_of_ok h, Along, hn]
      constructor
      · intro hall
        have hnil : v t = v s + (f s i + 0) := hall [] List.nil_prefix
        have hone : v t = v s + f s i := by omega
        refine ⟨fun _ _ => hiff.mp hone, (ih ht).mp fun js hjs => ?_⟩
        rw [hall js hjs, hone, Int.add_assoc]
      · rintro ⟨hQ, halong⟩ js hjs
        rw [(ih ht).mpr halong js hjs, hiff.mpr (hQ t h), Int.add_assoc]

end Total

/-- Where each accepted input leaves the observation as it was or takes it one step of `R` on, the values it
    takes are a chain of `R`. -/
theorem changes_isChain {α : Type _} [DecidableEq α] {step : σ → ι → Except ε σ} {f : σ → α} {R : α → α → Prop}
    (hstep : ∀ s i t, step s i = .ok t → f t = f s ∨ R (f s) (f t)) (s : σ) (is : List ι) :
    (f s :: changes step f s is).IsChain R := by
  induction is generalizing s with
  | nil => exact .singleton _
  | cons i is ih =>
    have hnext : f (next step s i) = f s ∨ R (f s) (f (next step s i)) := by
      rcases next_cases step s i with h | h
      · exact hstep s i _ h
      · exact .inl (congrArg f h)
    unfold changes
    split
    · next heq => exact heq ▸ ih (next step s i)
    · next hne => exact .cons_cons (hnext.resolve_left hne) (ih (next step s i))

end Machine
