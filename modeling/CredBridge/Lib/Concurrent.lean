import Mathlib
import CredBridge.Lib.Machine

/-! # Calls in flight

A handler is called any number of times at once. Each call runs on the shared state up to where it waits for
an answer from outside, and goes on from there when the answer comes; between two of its steps, other calls
take theirs. A call can also be lost while it waits, with all that it has not written yet.

An assertion about the waiting calls holds throughout every run when each step establishes it for the call
that moved and no step breaks it for another call (`Outline.throughout`). Where the assertion is about how
many calls wait, the load of a configuration counts them, and no answer and no loss adds to what is counted
(`potential_resume_le`, `potential_crash_le`). -/

namespace Concurrent
open Machine Result
variable {σ φ κ α : Type _}

/-- From its start, and from each answer it gets, a call changes the shared state and either waits again or is
    over. -/
structure Handler (σ φ κ α : Type _) where
  start : κ → σ → σ × Option φ
  resume : φ → α → σ → σ × Option φ

structure Config (σ φ : Type _) where
  shared : σ
  calls : List φ

inductive Op (κ α : Type _) where
  | start (request : κ)
  | resume (i : Nat) (answer : α)
  | crash (i : Nat)

inductive Refused where
  | notWaiting
deriving DecidableEq, Repr

def Config.after (rest : List φ) (r : σ × Option φ) : Config σ φ := ⟨r.1, rest ++ r.2.toList⟩

def Handler.step (h : Handler σ φ κ α) (c : Config σ φ) : Op κ α → Except Refused (Config σ φ)
  | .start request => pure (.after c.calls (h.start request c.shared))
  | .resume i answer => do
    let f ← orThrow c.calls[i]? .notWaiting
    pure (.after (c.calls.eraseIdx i) (h.resume f answer c.shared))
  | .crash i => do
    let _ ← orThrow c.calls[i]? .notWaiting
    pure ⟨c.shared, c.calls.eraseIdx i⟩

section Step
variable {h : Handler σ φ κ α} {c c' : Config σ φ} {op : Op κ α}

/-- What a step did: one call moved, and the others wait as before. -/
inductive Moved (h : Handler σ φ κ α) (c c' : Config σ φ) (op : Op κ α) : Prop where
  | start (request : κ) (hop : op = .start request)
      (hc' : c' = .after c.calls (h.start request c.shared))
  | resume (i : Nat) (answer : α) (f : φ) (rest : List φ) (hop : op = .resume i answer) (hf : c.calls[i]? = some f)
      (hcalls : c.calls.Perm (f :: rest)) (hc' : c' = .after rest (h.resume f answer c.shared))
  | crash (i : Nat) (f : φ) (rest : List φ) (hop : op = .crash i) (hcalls : c.calls.Perm (f :: rest))
      (hc' : c' = ⟨c.shared, rest⟩)

theorem perm_eraseIdx {l : List φ} {i : Nat} {f : φ} (hf : l[i]? = some f) : l.Perm (f :: l.eraseIdx i) := by
  obtain ⟨hi, rfl⟩ := List.getElem?_eq_some_iff.mp hf
  exact (List.getElem_cons_eraseIdx_perm hi).symm

theorem step_moved (hstep : h.step c op = .ok c') : Moved h c c' op := by
  cases op with
  | start request => exact .start request rfl (pure_eq_ok.mp hstep).symm
  | resume i answer =>
    obtain ⟨f, hf, hstep⟩ := orThrow_bind_eq_ok.mp hstep
    exact .resume i answer f _ rfl hf (perm_eraseIdx hf) (pure_eq_ok.mp hstep).symm
  | crash i =>
    obtain ⟨f, hf, hstep⟩ := orThrow_bind_eq_ok.mp hstep
    exact .crash i f _ rfl (perm_eraseIdx hf) (pure_eq_ok.mp hstep).symm

theorem next_start (request : κ) : next h.step c (.start request) = .after c.calls (h.start request c.shared) := rfl

theorem next_resume_head (s : σ) (f : φ) (rest : List φ) (answer : α) :
    next h.step ⟨s, f :: rest⟩ (.resume 0 answer) = .after rest (h.resume f answer s) := rfl

end Step

/-- The call that a crash loses. -/
theorem crash_lost {h : Handler σ φ κ α} {c c' : Config σ φ} {i : Nat} (hstep : h.step c (.crash i) = .ok c') :
    ∃ f rest, c.calls[i]? = some f ∧ c.calls.Perm (f :: rest) ∧ c' = ⟨c.shared, rest⟩ := by
  obtain ⟨f, hf, hstep⟩ := orThrow_bind_eq_ok.mp hstep
  exact ⟨f, _, hf, perm_eraseIdx hf, (pure_eq_ok.mp hstep).symm⟩

/-! ### A call alone -/

def Handler.finish (h : Handler σ φ κ α) (r : σ × Option φ) : List α → σ
  | [] => r.1
  | a :: as =>
    match r.2 with
    | none => r.1
    | some f => h.finish (h.resume f a r.1) as

section Alone
variable (h : Handler σ φ κ α)

theorem run_over (s : σ) (as : List α) : run h.step ⟨s, []⟩ (as.map (.resume 0)) = ⟨s, []⟩ := by
  induction as with
  | nil => rfl
  | cons a as ih => exact ih

theorem run_finish (r : σ × Option φ) (as : List α) :
    (run h.step (.after [] r) (as.map (.resume 0))).shared = h.finish r as := by
  induction as generalizing r with
  | nil => rfl
  | cons a as ih =>
    obtain ⟨s, _ | f⟩ := r
    · exact congrArg Config.shared (run_over h s (a :: as))
    · exact ih (h.resume f a s)

theorem run_alone (request : κ) (s : σ) (as : List α) :
    (run h.step ⟨s, []⟩ (.start request :: as.map (.resume 0))).shared = h.finish (h.start request s) as :=
  run_finish h (h.start request s) as

/-- What each step of a call keeps, with an assertion about where it waits, holds when it has run alone. -/
theorem finish_of_step {I : σ → Prop} {F : σ → φ → Prop}
    (hstep : ∀ f a s, I s → F s f → I (h.resume f a s).1 ∧ ∀ f' ∈ (h.resume f a s).2, F (h.resume f a s).1 f')
    (r : σ × Option φ) (hr : I r.1 ∧ ∀ f ∈ r.2, F r.1 f) (as : List α) : I (h.finish r as) := by
  induction as generalizing r with
  | nil => exact hr.1
  | cons a as ih =>
    obtain ⟨s, _ | f⟩ := r
    · exact hr.1
    · exact ih _ (hstep f a s hr.1 (hr.2 f rfl))

end Alone

/-! ### Assertions about waiting calls -/

/-- `G` holds of the shared state, and `F` of each waiting call. -/
def Holds (G : σ → Prop) (F : σ → φ → Prop) (c : Config σ φ) : Prop :=
  G c.shared ∧ ∀ f ∈ c.calls, F c.shared f

/-- `S` allows the requests that start, and `A` the answers to waiting calls. -/
def Allows (S : σ → κ → Prop) (A : σ → φ → α → Prop) (c : Config σ φ) : Op κ α → Prop
  | .start request => S c.shared request
  | .resume i answer => ∀ f ∈ c.calls[i]?, A c.shared f answer
  | .crash _ => True

instance decidableAllows (S : σ → κ → Prop) (A : σ → φ → α → Prop) [∀ s request, Decidable (S s request)]
    [∀ s f answer, Decidable (A s f answer)] (c : Config σ φ) : (op : Op κ α) → Decidable (Allows S A c op)
  | .start request => inferInstanceAs (Decidable (S c.shared request))
  | .resume i answer => inferInstanceAs (Decidable (∀ f ∈ c.calls[i]?, A c.shared f answer))
  | .crash _ => instDecidableTrue

/-- Each allowed step keeps `G`, changes the shared state as `R` allows and leaves its call in `F`, and what `R` allows
    keeps the `F` of another call. -/
structure Outline (h : Handler σ φ κ α) (S : σ → κ → Prop) (A : σ → φ → α → Prop) (G : σ → Prop)
    (F : σ → φ → Prop) (R : σ → σ → Prop) : Prop where
  start : ∀ request s, G s → S s request → G (h.start request s).1 ∧ R s (h.start request s).1 ∧
    ∀ f ∈ (h.start request s).2, F (h.start request s).1 f
  resume : ∀ f answer s, G s → F s f → A s f answer → G (h.resume f answer s).1 ∧ R s (h.resume f answer s).1 ∧
    ∀ f' ∈ (h.resume f answer s).2, F (h.resume f answer s).1 f'
  stable : ∀ s s' f, R s s' → F s f → F s' f

section Outline
variable {h : Handler σ φ κ α} {S : σ → κ → Prop} {A : σ → φ → α → Prop} {G : σ → Prop} {F : σ → φ → Prop}
  {R : σ → σ → Prop} {c c' : Config σ φ} {op : Op κ α}

theorem Outline.after (o : Outline h S A G F R) {rest : List φ} {r : σ × Option φ} (hrest : ∀ f ∈ rest, F c.shared f)
    (hr : G r.1 ∧ R c.shared r.1 ∧ ∀ f ∈ r.2, F r.1 f) : Holds G F (.after rest r) := by
  obtain ⟨hG, hR, hF⟩ := hr
  refine ⟨hG, fun f hf => ?_⟩
  rcases List.mem_append.mp hf with hf | hf
  · exact o.stable _ _ f hR (hrest f hf)
  · exact hF f (Option.mem_toList.mp hf)

theorem Outline.step (o : Outline h S A G F R) (hc : Holds G F c) (hallows : Allows S A c op)
    (hstep : h.step c op = .ok c') : Holds G F c' := by
  cases step_moved hstep with
  | start request hop hc' =>
    subst hop hc'
    exact o.after hc.2 (o.start request c.shared hc.1 hallows)
  | resume i answer g rest hop hg hcalls hc' =>
    subst hop hc'
    have hF := hc.2 g (hcalls.mem_iff.mpr List.mem_cons_self)
    have hrest : ∀ f ∈ rest, F c.shared f := fun f hf => hc.2 f (hcalls.mem_iff.mpr (List.mem_cons_of_mem g hf))
    exact o.after hrest (o.resume g answer c.shared hc.1 hF (hallows g hg))
  | crash i g rest hop hcalls hc' =>
    subst hop hc'
    exact ⟨hc.1, fun f hf => hc.2 f (hcalls.mem_iff.mpr (List.mem_cons_of_mem g hf))⟩

theorem allows_resume {i : Nat} {f : φ} {answer : α} (hf : c.calls[i]? = some f) :
    Allows S A c (.resume i answer) ↔ A c.shared f answer := by
  simp [Allows, hf]

/-- A step that is refused is one of no call. -/
theorem allows_of_refused {e : Refused} (hstep : h.step c op = .error e) : Allows S A c op := by
  cases op with
  | start request => cases hstep
  | resume i answer =>
    intro f hf
    unfold Handler.step at hstep
    simp only [Option.mem_def.mp hf] at hstep
    cases hstep
  | crash i => trivial

/-- A step relates the shared states exactly if it is allowed, where no step and each start relate them, and an answer does
    exactly if it is allowed. -/
theorem moved_iff_allows {Q : σ → σ → Prop} (hrefl : Q c.shared c.shared)
    (hstart : ∀ request, Q c.shared (h.start request c.shared).1)
    (hresume : ∀ f ∈ c.calls, ∀ answer, Q c.shared (h.resume f answer c.shared).1 ↔ A c.shared f answer)
    (hstep : h.step c op = .ok c') : Q c.shared c'.shared ↔ Allows (fun _ _ => True) A c op := by
  cases step_moved hstep with
  | start request hop hc' =>
    subst hop hc'
    exact iff_of_true (hstart request) trivial
  | resume i answer f rest hop hf hcalls hc' =>
    subst hop hc'
    rw [allows_resume hf]
    exact hresume f (hcalls.mem_iff.mpr List.mem_cons_self) answer
  | crash i f rest hop hcalls hc' =>
    subst hop hc'
    exact iff_of_true hrefl trivial

/-- Where the answers that the outline allows are the ones that relate the shared states, the steps relate them along the
    runs of allowed steps and no others. -/
theorem Outline.along_iff {Q : σ → σ → Prop} {ops : List (Op κ α)} (o : Outline h (fun _ _ => True) A G F R)
    (hrefl : ∀ s, G s → Q s s) (hstart : ∀ request s, G s → Q s (h.start request s).1)
    (hresume : ∀ f answer s, G s → F s f → (Q s (h.resume f answer s).1 ↔ A s f answer)) (hc : Holds G F c) :
    Along h.step (fun c op => Q c.shared (next h.step c op).shared) c ops ↔
      Along h.step (Allows (fun _ _ => True) A) c ops := by
  refine along_iff_along (fun _ _ _ hc hallows hstep => o.step hc hallows hstep) (fun c op hc => ?_) hc
  cases hstep : h.step c op with
  | error e =>
    rw [next_of_error hstep]
    exact iff_of_true (hrefl _ hc.1) (allows_of_refused hstep)
  | ok c' =>
    rw [next_of_ok hstep]
    exact moved_iff_allows (hrefl _ hc.1) (fun request => hstart request _ hc.1)
      (fun f hf answer => hresume f answer _ hc.1 (hc.2 f hf)) hstep

/-- Where a step of an invariant's configuration keeps `P` exactly if it is allowed, `P` holds throughout the runs of
    allowed steps and no others. -/
theorem throughout_iff_along_allows {I P : Config σ φ → Prop} {ops : List (Op κ α)}
    (hI : ∀ c op c', I c → h.step c op = .ok c' → I c')
    (hstep : ∀ c op c', I c → P c → h.step c op = .ok c' → (P c' ↔ Allows S A c op)) (hc : I c) (hP : P c) :
    Throughout h.step P c ops ↔ Along h.step (Allows S A) c ops := by
  refine (throughout_iff_along hI hstep hc hP).trans ⟨fun halong => halong.mono ?_, fun halong => halong.mono ?_⟩
  · intro c op hallows
    cases hop : h.step c op with
    | error e => exact allows_of_refused hop
    | ok c' => exact hallows c' hop
  · exact fun _ _ hallows _ _ => hallows

/-- What the outline asserts holds throughout every run of allowed steps. -/
theorem Outline.throughout (o : Outline h S A G F R) (hc : Holds G F c) {ops : List (Op κ α)}
    (hallows : Along h.step (Allows S A) c ops) : Throughout h.step (Holds G F) c ops :=
  throughout_of_along (fun _ _ _ hc ha hstep => o.step hc ha hstep) hc hallows

theorem allows_all (hS : ∀ s request, S s request) (hA : ∀ s f answer, A s f answer) (c : Config σ φ) (op : Op κ α) :
    Allows S A c op := by
  cases op with
  | start request => exact hS _ request
  | resume i answer => exact fun f _ => hA _ f answer
  | crash i => trivial

theorem along_allows (hS : ∀ s request, S s request) (hA : ∀ s f answer, A s f answer) (c : Config σ φ)
    (ops : List (Op κ α)) : Along h.step (Allows S A) c ops :=
  .of_all (allows_all hS hA) c ops

/-- Where what the outline allows is a preorder, the shared states of a run of allowed steps follow it. -/
theorem Outline.onward (o : Outline h S A G F R) (hrefl : ∀ s, R s s) (htrans : ∀ s t u, R s t → R t u → R s u)
    (hc : Holds G F c) {ops : List (Op κ α)} (hallows : Along h.step (Allows S A) c ops) :
    Onward h.step (fun c c' => R c.shared c'.shared) c ops := by
  refine onward_of_along (fun c => hrefl c.shared) (fun c c' c'' => htrans c.shared c'.shared c''.shared)
    (fun c op c' hc hallows hstep => ⟨o.step hc hallows hstep, ?_⟩) hc hallows
  cases step_moved hstep with
  | start request hop hc' =>
    subst hop hc'
    exact (o.start request c.shared hc.1 hallows).2.1
  | resume i answer f rest hop hf hcalls hc' =>
    subst hop hc'
    exact (o.resume f answer c.shared hc.1 (hc.2 f (hcalls.mem_iff.mpr List.mem_cons_self)) (hallows f hf)).2.1
  | crash i f rest hop hcalls hc' =>
    subst hc'
    exact hrefl c.shared

/-! ### Two handlers of one state -/

section Sum
variable {φ' κ' : Type _}

def Handler.sum (h : Handler σ φ κ α) (h' : Handler σ φ' κ' α) : Handler σ (φ ⊕ φ') (κ ⊕ κ') α where
  start request s :=
    match request with
    | .inl request => let r := h.start request s; (r.1, r.2.map .inl)
    | .inr request => let r := h'.start request s; (r.1, r.2.map .inr)
  resume call answer s :=
    match call with
    | .inl f => let r := h.resume f answer s; (r.1, r.2.map .inl)
    | .inr f => let r := h'.resume f answer s; (r.1, r.2.map .inr)

/-- A step of the first handler, beside the second one. -/
def Op.inl : Op κ α → Op (κ ⊕ κ') α
  | .start request => .start (.inl request)
  | .resume i answer => .resume i answer
  | .crash i => .crash i

instance decidableSumElim {β : Type _} {p : φ → β → Prop} {q : φ' → β → Prop} [∀ f b, Decidable (p f b)]
    [∀ f b, Decidable (q f b)] : (f : φ ⊕ φ') → (b : β) → Decidable (Sum.elim p q f b)
  | .inl f, b => inferInstanceAs (Decidable (p f b))
  | .inr f, b => inferInstanceAs (Decidable (q f b))

/-- Outlines of both handlers that assert the same of the state are one of the two together. -/
theorem Outline.sum {h' : Handler σ φ' κ' α} {S' : σ → κ' → Prop} {A' : σ → φ' → α → Prop} {F' : σ → φ' → Prop}
    (o : Outline h S A G F R) (o' : Outline h' S' A' G F' R) :
    Outline (h.sum h') (fun s => Sum.elim (S s) (S' s)) (fun s => Sum.elim (A s) (A' s)) G
      (fun s => Sum.elim (F s) (F' s)) R where
  start request s hG hS := by
    cases request with
    | inl request => simpa [Handler.sum] using o.start request s hG hS
    | inr request => simpa [Handler.sum] using o'.start request s hG hS
  resume call answer s hG hF hA := by
    cases call with
    | inl f => simpa [Handler.sum] using o.resume f answer s hG hF hA
    | inr f => simpa [Handler.sum] using o'.resume f answer s hG hF hA
  stable s s' call hR hF := by
    cases call with
    | inl f => exact o.stable s s' f hR hF
    | inr f => exact o'.stable s s' f hR hF

end Sum

end Outline

/-! ### Obligations

What has come due is met, or a waiting call carries it on: a step may bring new obligations, with a call that carries
them, and the call that moves hands on what it carries. -/

section Obligations
variable {δ : Type _}

def Discharged (due met : δ → σ → Prop) (carries : δ → φ → Prop) (c : Config σ φ) : Prop :=
  ∀ k, due k c.shared → met k c.shared ∨ ∃ f ∈ c.calls, carries k f

variable {due met : δ → σ → Prop} {carries : δ → φ → Prop} {c : Config σ φ} {f : φ} {rest : List φ}
  {r : σ × Option φ}

/-- A step keeps what is met, and what it makes due is met by it or carried by its call. -/
structure HandsOn (due met : δ → σ → Prop) (carries : δ → φ → Prop) (s : σ) (r : σ × Option φ) (k : δ) : Prop where
  keeps : met k s → met k r.1
  brings : due k r.1 → due k s ∨ met k r.1 ∨ ∃ f ∈ r.2, carries k f

theorem discharged_after (h : ∀ k, HandsOn due met carries c.shared r k)
    (hc : ∀ k, due k c.shared → met k r.1 ∨ (∃ f ∈ rest, carries k f) ∨ ∃ f ∈ r.2, carries k f) :
    Discharged due met carries (.after rest r) := by
  intro k hdue
  have hcarried : met k r.1 ∨ (∃ f ∈ rest, carries k f) ∨ ∃ f ∈ r.2, carries k f := by
    rcases (h k).brings hdue with hold | hmet | hnew
    · exact hc k hold
    · exact .inl hmet
    · exact .inr (.inr hnew)
  rcases hcarried with hmet | ⟨f, hf, hcarries⟩ | ⟨f, hf, hcarries⟩
  · exact .inl hmet
  · exact .inr ⟨f, List.mem_append_left _ hf, hcarries⟩
  · exact .inr ⟨f, List.mem_append_right _ (Option.mem_toList.mpr hf), hcarries⟩

theorem Discharged.start (hc : Discharged due met carries c) (h : ∀ k, HandsOn due met carries c.shared r k) :
    Discharged due met carries (.after c.calls r) :=
  discharged_after h fun k hdue => (hc k hdue).imp (h k).keeps .inl

theorem Discharged.resume (hc : Discharged due met carries c) (hcalls : c.calls.Perm (f :: rest))
    (h : ∀ k, HandsOn due met carries c.shared r k)
    (hf : ∀ k, due k c.shared → carries k f → met k r.1 ∨ ∃ g ∈ r.2, carries k g) :
    Discharged due met carries (.after rest r) := by
  refine discharged_after h fun k hdue => ?_
  rcases hc k hdue with hmet | ⟨g, hg, hcarries⟩
  · exact .inl ((h k).keeps hmet)
  · rcases List.mem_cons.mp (hcalls.mem_iff.mp hg) with rfl | hg
    · exact (hf k hdue hcarries).imp_right .inr
    · exact .inr (.inl ⟨g, hg, hcarries⟩)

theorem Discharged.crash (hc : Discharged due met carries c) (hcalls : c.calls.Perm (f :: rest))
    (hf : ∀ k, due k c.shared → carries k f → met k c.shared) : Discharged due met carries ⟨c.shared, rest⟩ := by
  intro k hdue
  rcases hc k hdue with hmet | ⟨g, hg, hcarries⟩
  · exact .inl hmet
  · rcases List.mem_cons.mp (hcalls.mem_iff.mp hg) with rfl | hg
    · exact .inl (hf k hdue hcarries)
    · exact .inr ⟨g, hg, hcarries⟩

end Obligations

/-! ### Claims

A waiting call may claim something, and no two calls claim the same. -/

section Claims
variable {δ : Type _} {claim : φ → Option δ} {c : Config σ φ} {f : φ} {rest : List φ} {r : σ × Option φ}

def Config.Apart (claim : φ → Option δ) (c : Config σ φ) : Prop := (c.calls.filterMap claim).Nodup

theorem Config.Apart.of_perm (hc : c.Apart claim) (hcalls : c.calls.Perm (f :: rest)) :
    (rest.filterMap claim).Nodup ∧ ∀ k ∈ claim f, ∀ g ∈ rest, claim g ≠ some k := by
  have hnodup : ((f :: rest).filterMap claim).Nodup := (hcalls.filterMap claim).nodup_iff.mp hc
  cases hf : claim f with
  | none =>
    rw [List.filterMap_cons_none hf] at hnodup
    exact ⟨hnodup, fun k hk => by cases hk⟩
  | some k =>
    rw [List.filterMap_cons_some hf] at hnodup
    obtain ⟨hnew, hrest⟩ := List.nodup_cons.mp hnodup
    refine ⟨hrest, fun k' hk' g hg hclaim => ?_⟩
    cases hk'
    exact hnew (List.mem_filterMap.mpr ⟨g, hg, hclaim⟩)

theorem apart_after (hrest : (rest.filterMap claim).Nodup)
    (hnew : ∀ f ∈ r.2, ∀ k ∈ claim f, ∀ g ∈ rest, claim g ≠ some k) : (Config.after rest r).Apart claim := by
  unfold Config.Apart Config.after
  rw [List.filterMap_append]
  refine List.nodup_append'.mpr ⟨hrest, ?_, fun k hk hk' => ?_⟩
  · cases hr : r.2 with
    | none => exact List.nodup_nil
    | some f =>
      show (List.filterMap claim [f]).Nodup
      cases hf : claim f with
      | none =>
        rw [List.filterMap_cons_none hf]
        exact List.nodup_nil
      | some k =>
        rw [List.filterMap_cons_some hf]
        exact List.nodup_singleton k
  · obtain ⟨g, hg, hclaim⟩ := List.mem_filterMap.mp hk
    obtain ⟨f, hf, hk'⟩ := List.mem_filterMap.mp hk'
    exact hnew f (Option.mem_toList.mp hf) k hk' g hg hclaim

end Claims

/-! ### Counting waiting calls -/

def Config.load (w : φ → Nat) (c : Config σ φ) : Nat := (c.calls.map w).sum

def weight (w : φ → Nat) (f : Option φ) : Nat := (f.map w).getD 0

/-- What the shared state counts and what the waiting calls count, together. -/
def Config.potential (d : σ → Nat) (w : φ → Nat) (c : Config σ φ) : Nat := d c.shared + c.load w

section Load
variable {d : σ → Nat} {w : φ → Nat} {c : Config σ φ} {f : φ} {rest : List φ} {r : σ × Option φ}

theorem load_after : (Config.after rest r).load w = (rest.map w).sum + weight w r.2 := by
  obtain ⟨s, _ | f⟩ := r <;> simp [Config.after, Config.load, weight]

theorem load_of_perm (hcalls : c.calls.Perm (f :: rest)) : c.load w = w f + (rest.map w).sum := by
  unfold Config.load
  rw [(hcalls.map w).sum_eq, List.map_cons, List.sum_cons]

theorem load_pos_iff : 0 < c.load w ↔ ∃ f ∈ c.calls, 0 < w f := by
  unfold Config.load
  rw [List.sum_pos_iff_exists_pos_nat]
  simp

theorem weight_eq_zero {o : Option φ} (h : ∀ g, o = some g → w g = 0) : weight w o = 0 := by
  cases o with
  | none => rfl
  | some g => exact h g rfl

theorem potential_start : (Config.after c.calls r).potential d w + d c.shared = c.potential d w + (d r.1 + weight w r.2) := by
  rw [Config.potential, Config.potential, load_after]
  show d r.1 + (c.load w + weight w r.2) + d c.shared = d c.shared + c.load w + (d r.1 + weight w r.2)
  omega

theorem potential_resume (hcalls : c.calls.Perm (f :: rest)) :
    (Config.after rest r).potential d w + (d c.shared + w f) = c.potential d w + (d r.1 + weight w r.2) := by
  rw [Config.potential, Config.potential, load_after, load_of_perm hcalls]
  show d r.1 + ((rest.map w).sum + weight w r.2) + (d c.shared + w f) =
    d c.shared + (w f + (rest.map w).sum) + (d r.1 + weight w r.2)
  omega

theorem potential_crash (hcalls : c.calls.Perm (f :: rest)) :
    (⟨c.shared, rest⟩ : Config σ φ).potential d w + w f = c.potential d w := by
  rw [Config.potential, Config.potential, load_of_perm hcalls]
  show d c.shared + (rest.map w).sum + w f = d c.shared + (w f + (rest.map w).sum)
  omega

theorem potential_start_eq (h : d r.1 + weight w r.2 = d c.shared) :
    (Config.after c.calls r).potential d w = c.potential d w := by
  have heq := potential_start (d := d) (w := w) (c := c) (r := r)
  omega

theorem potential_resume_eq (hcalls : c.calls.Perm (f :: rest)) (h : d r.1 + weight w r.2 = d c.shared + w f) :
    (Config.after rest r).potential d w = c.potential d w := by
  have heq := potential_resume (d := d) (w := w) (r := r) hcalls
  omega

theorem potential_start_le {n : Nat} (h : d r.1 + weight w r.2 ≤ d c.shared + n) :
    (Config.after c.calls r).potential d w ≤ c.potential d w + n := by
  have heq := potential_start (d := d) (w := w) (c := c) (r := r)
  omega

theorem potential_resume_le {n : Nat} (hcalls : c.calls.Perm (f :: rest))
    (h : d r.1 + weight w r.2 ≤ d c.shared + w f + n) :
    (Config.after rest r).potential d w ≤ c.potential d w + n := by
  have heq := potential_resume (d := d) (w := w) (r := r) hcalls
  omega

theorem potential_crash_le (hcalls : c.calls.Perm (f :: rest)) :
    (⟨c.shared, rest⟩ : Config σ φ).potential d w ≤ c.potential d w := by
  have heq := potential_crash (d := d) (w := w) hcalls
  omega

end Load

/-! ### Notes

What a handler's state does not tell of its past, notes beside it can: every call remembers the request that it serves,
and each step adds what is worth noting. The notes change nothing that the handler does (`run_noting`). -/

section Notes
variable {σ φ κ α ν : Type}

def Handler.noting (h : Handler σ φ κ α) (note : κ → σ → σ → List ν) : Handler (σ × List ν) (κ × φ) κ α where
  start request s :=
    let r := h.start request s.1
    ((r.1, s.2 ++ note request s.1 r.1), r.2.map fun f => (request, f))
  resume call answer s :=
    let r := h.resume call.2 answer s.1
    ((r.1, s.2 ++ note call.1 s.1 r.1), r.2.map fun f => (call.1, f))

def Config.withoutNotes (c : Config (σ × List ν) (κ × φ)) : Config σ φ := ⟨c.shared.1, c.calls.map Prod.snd⟩

variable (h : Handler σ φ κ α) (note : κ → σ → σ → List ν) {c : Config (σ × List ν) (κ × φ)}

theorem withoutNotes_after (rest : List (κ × φ)) (r : σ × Option φ) (notes : List ν) (request : κ) :
    (Config.after rest ((r.1, notes), r.2.map fun f => (request, f))).withoutNotes = .after (rest.map Prod.snd) r := by
  obtain ⟨s, _ | f⟩ := r <;> simp [Config.withoutNotes, Config.after]

theorem step_noting (op : Op κ α) :
    h.step c.withoutNotes op = ((h.noting note).step c op).map Config.withoutNotes := by
  cases op with
  | start request =>
    exact congrArg Except.ok (withoutNotes_after c.calls (h.start request c.shared.1) _ request).symm
  | resume i answer =>
    simp only [Handler.step, Config.withoutNotes, List.getElem?_map]
    cases hcall : c.calls[i]? with
    | none => rfl
    | some call =>
      rw [List.eraseIdx_map]
      exact congrArg Except.ok (withoutNotes_after _ (h.resume call.2 answer c.shared.1) _ call.1).symm
  | crash i =>
    simp only [Handler.step, Config.withoutNotes, List.getElem?_map]
    cases hcall : c.calls[i]? with
    | none => rfl
    | some call =>
      rw [List.eraseIdx_map]
      rfl

theorem run_noting (ops : List (Op κ α)) :
    run h.step c.withoutNotes ops = (run (h.noting note).step c ops).withoutNotes :=
  run_map (fun _ => step_noting h note) c ops

end Notes

/-! ### Records

What starts and what goes on can be recorded beside the state too, with the call that goes on and its answer. -/

section Records
variable {σ φ κ α ν : Type}

def Handler.recording (h : Handler σ φ κ α) (started : κ → σ → List ν) (resumed : φ → α → σ → List ν) :
    Handler (σ × List ν) φ κ α where
  start request s :=
    let r := h.start request s.1
    ((r.1, s.2 ++ started request s.1), r.2)
  resume call answer s :=
    let r := h.resume call answer s.1
    ((r.1, s.2 ++ resumed call answer s.1), r.2)

def Config.withoutRecords (c : Config (σ × List ν) φ) : Config σ φ := ⟨c.shared.1, c.calls⟩

variable (h : Handler σ φ κ α) (started : κ → σ → List ν) (resumed : φ → α → σ → List ν) {c : Config (σ × List ν) φ}

theorem step_recording (op : Op κ α) :
    h.step c.withoutRecords op = ((h.recording started resumed).step c op).map Config.withoutRecords := by
  cases op with
  | start request => rfl
  | resume i answer =>
    simp only [Handler.step, Config.withoutRecords]
    cases c.calls[i]? <;> rfl
  | crash i =>
    simp only [Handler.step, Config.withoutRecords]
    cases c.calls[i]? <;> rfl

theorem run_recording (ops : List (Op κ α)) :
    run h.step c.withoutRecords ops = (run (h.recording started resumed).step c ops).withoutRecords :=
  run_map (fun _ => step_recording h started resumed) c ops

end Records
end Concurrent
