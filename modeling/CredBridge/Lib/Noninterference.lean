import Mathlib
import CredBridge.Lib.Concurrent

/-! # Calls under names

Calls in flight that have names, so that a run can be compared with the one that is left when the inputs under some
names are taken out of it. What an observer sees of a configuration is a view of the shared state, and of the calls
under the names that stay those that concern the view. Nothing that is taken out tells on it when every call that
moves the view is seen, and every step of a call that is taken out leaves the view as it is (`Unwinding.observe_run`). -/

namespace Concurrent
open Machine Result
variable {σ φ ι α κ ω : Type _}

structure Sessions (σ φ κ : Type _) where
  shared : σ
  calls : κ → Option φ

inductive SessionOp (κ ι α : Type _) where
  | start (k : κ) (request : ι)
  | resume (k : κ) (answer : α)
  | crash (k : κ)

def SessionOp.name : SessionOp κ ι α → κ
  | .start k _ | .resume k _ | .crash k => k

/-- No call is in flight. -/
def Sessions.idle (s : σ) : Sessions σ φ κ := ⟨s, fun _ => none⟩

section Session
variable [DecidableEq κ]

def Sessions.after (c : Sessions σ φ κ) (k : κ) (r : σ × Option φ) : Sessions σ φ κ := ⟨r.1, Function.update c.calls k r.2⟩

/-- A start under the name of a waiting call takes its place. -/
def Handler.session (h : Handler σ φ ι α) (c : Sessions σ φ κ) : SessionOp κ ι α → Except Refused (Sessions σ φ κ)
  | .start k request => pure (c.after k (h.start request c.shared))
  | .resume k answer => do
    let f ← orThrow (c.calls k) .notWaiting
    pure (c.after k (h.resume f answer c.shared))
  | .crash k => pure (c.after k (c.shared, none))

end Session

/-! ### What an observer sees -/

structure Observation (ω φ κ : Type _) where
  view : ω
  calls : κ → Option φ

section Observe
variable (view : σ → ω) (seen : φ → Bool) (hidden : κ → Bool)

def observe (c : Sessions σ φ κ) : Observation ω φ κ :=
  ⟨view c.shared, fun k => if hidden k then none else (c.calls k).filter seen⟩

/-- `S` allows the requests that start, and `A` the answers, by what is seen of the call that they are for. -/
def Observable (S : κ → ι → Prop) (A : Option φ → α → Prop) (c : Sessions σ φ κ) : SessionOp κ ι α → Prop
  | .start k request => S k request
  | .resume k answer => A ((observe view seen hidden c).calls k) answer
  | .crash _ => True

/-- What is asked of the inputs that are taken out. -/
def Confined (S : σ → ι → Prop) (A : σ → φ → α → Prop) (c : Sessions σ φ κ) : SessionOp κ ι α → Prop
  | .start k request => hidden k → S c.shared request
  | .resume k answer => hidden k → ∀ f ∈ c.calls k, A c.shared f answer
  | .crash _ => True

/-- Each step keeps the invariant; two states with the same view go on alike under the names that stay, where the call is
    seen; and a step of a call that is not seen, or is taken out, leaves the view as it is. -/
structure Unwinding (h : Handler σ φ ι α) (S : κ → ι → Prop) (A : Option φ → α → Prop) (S' : σ → ι → Prop)
    (A' : σ → φ → α → Prop) (G : σ → Prop) (F : κ → φ → Prop) : Prop where
  start : ∀ k request s, G s → S k request → (hidden k → S' s request) →
    G (h.start request s).1 ∧ ∀ f ∈ (h.start request s).2, F k f
  resume : ∀ k f answer s, G s → F k f → A (if hidden k then none else (some f).filter seen) answer →
    (hidden k → A' s f answer) → G (h.resume f answer s).1 ∧ ∀ f' ∈ (h.resume f answer s).2, F k f'
  start_same : ∀ k request s t, hidden k = false → S k request → G s → G t → view s = view t →
    view (h.start request s).1 = view (h.start request t).1 ∧
      (h.start request s).2.filter seen = (h.start request t).2.filter seen
  resume_same : ∀ k f answer s t, hidden k = false → seen f → F k f → A (some f) answer → G s → G t → view s = view t →
    view (h.resume f answer s).1 = view (h.resume f answer t).1 ∧
      (h.resume f answer s).2.filter seen = (h.resume f answer t).2.filter seen
  resume_unseen : ∀ k f answer s, hidden k = false → seen f = false → F k f → A none answer → G s →
    view (h.resume f answer s).1 = view s ∧ (h.resume f answer s).2.filter seen = none
  start_hidden : ∀ k request s, hidden k → S k request → S' s request → G s → view (h.start request s).1 = view s
  resume_hidden : ∀ k f answer s, hidden k → F k f → A none answer → A' s f answer → G s →
    view (h.resume f answer s).1 = view s

end Observe

/-! ### A run and what is left of it -/

section Unwinding
variable {h : Handler σ φ ι α} {view : σ → ω} {seen : φ → Bool} {hidden : κ → Bool} {S : κ → ι → Prop}
  {A : Option φ → α → Prop} {S' : σ → ι → Prop} {A' : σ → φ → α → Prop} {G : σ → Prop} {F : κ → φ → Prop}
  {c c' : Sessions σ φ κ} {op : SessionOp κ ι α} {ops : List (SessionOp κ ι α)}

def Kept (G : σ → Prop) (F : κ → φ → Prop) (c : Sessions σ φ κ) : Prop := G c.shared ∧ ∀ k, ∀ f ∈ c.calls k, F k f

theorem Kept.idle {s : σ} (hs : G s) : Kept G F (.idle s : Sessions σ φ κ) := ⟨hs, fun _ _ hf => absurd hf (Option.not_mem_none _)⟩

theorem calls_of_hidden {k : κ} (hk : hidden k = true) : (observe view seen hidden c).calls k = none := by
  simp only [observe, hk, ↓reduceIte]

theorem calls_of_shown {k : κ} (hk : hidden k = false) :
    (observe view seen hidden c).calls k = (c.calls k).filter seen := by
  simp only [observe, hk, Bool.false_eq_true, ↓reduceIte]

variable [DecidableEq κ]

theorem Sessions.calls_after_self {k : κ} {r : σ × Option φ} : (c.after k r).calls k = r.2 := by
  unfold Sessions.after
  exact Function.update_self k r.2 c.calls

theorem Sessions.calls_after_of_ne {k k' : κ} {r : σ × Option φ} (hk : k' ≠ k) : (c.after k r).calls k' = c.calls k' := by
  unfold Sessions.after
  exact Function.update_of_ne hk r.2 c.calls

theorem Kept.after {k : κ} {r : σ × Option φ} (hc : Kept G F c) (hr : G r.1 ∧ ∀ f ∈ r.2, F k f) : Kept G F (c.after k r) := by
  refine ⟨hr.1, fun k' f hf => ?_⟩
  by_cases hk : k' = k
  · subst hk
    rw [Sessions.calls_after_self] at hf
    exact hr.2 f hf
  · rw [Sessions.calls_after_of_ne hk] at hf
    exact hc.2 k' f hf

theorem observe_after (k : κ) (r : σ × Option φ) :
    observe view seen hidden (c.after k r) =
      ⟨view r.1, Function.update (observe view seen hidden c).calls k (if hidden k then none else r.2.filter seen)⟩ := by
  refine congrArg (Observation.mk (view r.1)) (funext fun k' => ?_)
  by_cases hk : k' = k
  · subst hk
    simp only [Sessions.calls_after_self, Function.update_self]
  · simp only [Sessions.calls_after_of_ne hk, Function.update_of_ne hk, observe]

/-- A call that is over, or goes on, without a trace. -/
theorem observe_after_same {k : κ} {r : σ × Option φ} (hview : view r.1 = view c.shared)
    (hbefore : (observe view seen hidden c).calls k = none) (hafter : (if hidden k then none else r.2.filter seen) = none) :
    observe view seen hidden (c.after k r) = observe view seen hidden c := by
  rw [observe_after, hview, hafter, ← hbefore, Function.update_eq_self]
  rfl

theorem next_resume (h : Handler σ φ ι α) {k : κ} {f : φ} {answer : α} (hf : c.calls k = some f) :
    next h.session c (.resume k answer) = c.after k (h.resume f answer c.shared) := by
  refine next_of_ok ?_
  simp only [Handler.session, hf, orThrow]
  rfl

theorem next_resume_none (h : Handler σ φ ι α) {k : κ} {answer : α} (hf : c.calls k = none) :
    next h.session c (.resume k answer) = c := by
  refine next_of_error (e := .notWaiting) ?_
  simp only [Handler.session, hf, orThrow]
  rfl

namespace Unwinding
variable (o : Unwinding view seen hidden h S A S' A' G F)
include o

theorem kept_next (hc : Kept G F c) (hobservable : Observable view seen hidden S A c op) (hconfined : Confined hidden S' A' c op) :
    Kept G F (next h.session c op) := by
  cases op with
  | start k request => exact hc.after (o.start k request c.shared hc.1 hobservable hconfined)
  | resume k answer =>
    cases hf : c.calls k with
    | none => rwa [next_resume_none h hf]
    | some f =>
      rw [next_resume h hf]
      refine hc.after (o.resume k f answer c.shared hc.1 (hc.2 k f hf) ?_ fun hk => hconfined hk f hf)
      simpa only [Observable, observe, hf] using hobservable
  | crash k => exact hc.after ⟨hc.1, fun _ hf => absurd hf (Option.not_mem_none _)⟩

theorem observe_hidden (hc : Kept G F c) (hobservable : Observable view seen hidden S A c op)
    (hconfined : Confined hidden S' A' c op) (hop : hidden op.name = true) :
    observe view seen hidden (next h.session c op) = observe view seen hidden c := by
  cases op with
  | start k request =>
    exact observe_after_same (o.start_hidden k request c.shared hop hobservable (hconfined hop) hc.1) (calls_of_hidden hop)
      (if_pos hop)
  | resume k answer =>
    have hk : hidden k = true := hop
    cases hf : c.calls k with
    | none => rw [next_resume_none h hf]
    | some f =>
      rw [next_resume h hf]
      rw [Observable, calls_of_hidden hk] at hobservable
      exact observe_after_same (o.resume_hidden k f answer c.shared hk (hc.2 k f hf) hobservable (hconfined hk f hf) hc.1)
        (calls_of_hidden hk) (if_pos hk)
  | crash k => exact observe_after_same rfl (calls_of_hidden hop) (if_pos hop)

/-- Where nothing is seen of a call, nothing is seen of its next step. -/
theorem observe_unseen {k : κ} {answer : α} (hc : Kept G F c) (hk : hidden k = false)
    (hnone : (observe view seen hidden c).calls k = none) (hA : A none answer) :
    observe view seen hidden (next h.session c (.resume k answer)) = observe view seen hidden c := by
  cases hf : c.calls k with
  | none => rw [next_resume_none h hf]
  | some f =>
    have hunseen : seen f = false := by
      rw [calls_of_shown hk, hf] at hnone
      simpa using hnone
    obtain ⟨hview, hnext⟩ := o.resume_unseen k f answer c.shared hk hunseen (hc.2 k f hf) hA hc.1
    rw [next_resume h hf]
    refine observe_after_same hview hnone ?_
    rwa [if_neg (by rw [hk]; decide)]

theorem observe_shown (hc : Kept G F c) (hc' : Kept G F c') (hobservable : Observable view seen hidden S A c op)
    (hop : hidden op.name = false) (hsame : observe view seen hidden c = observe view seen hidden c') :
    observe view seen hidden (next h.session c op) = observe view seen hidden (next h.session c' op) := by
  have hview : view c.shared = view c'.shared := congrArg Observation.view hsame
  have hafter : ∀ {k : κ} {r r' : σ × Option φ}, view r.1 = view r'.1 → r.2.filter seen = r'.2.filter seen →
      observe view seen hidden (c.after k r) = observe view seen hidden (c'.after k r') := by
    intro k r r' hr hr'
    rw [observe_after, observe_after, hsame, hr, hr']
  cases op with
  | start k request =>
    obtain ⟨hr, hr'⟩ := o.start_same k request c.shared c'.shared hop hobservable hc.1 hc'.1 hview
    exact hafter hr hr'
  | resume k answer =>
    have hk : hidden k = false := hop
    have hcalls : (observe view seen hidden c').calls k = (observe view seen hidden c).calls k :=
      congrFun (congrArg Observation.calls hsame.symm) k
    cases hnone : (observe view seen hidden c).calls k with
    | none =>
      rw [Observable, hnone] at hobservable
      rw [o.observe_unseen hc hk hnone hobservable, o.observe_unseen hc' hk (hcalls.trans hnone) hobservable, hsame]
    | some f =>
      rw [Observable, hnone] at hobservable
      rw [hnone, calls_of_shown hk] at hcalls
      rw [calls_of_shown hk] at hnone
      obtain ⟨hf, hseen⟩ := Option.filter_eq_some_iff.mp hnone
      obtain ⟨hf', -⟩ := Option.filter_eq_some_iff.mp hcalls
      obtain ⟨hr, hr'⟩ := o.resume_same k f answer c.shared c'.shared hk hseen (hc.2 k f hf) hobservable hc.1 hc'.1 hview
      rw [next_resume h hf, next_resume h hf']
      exact hafter hr hr'
  | crash k => exact hafter hview rfl

/-- A run whose inputs under the hidden names are confined looks like the run of the other inputs. -/
theorem observe_run (hc : Kept G F c) (hc' : Kept G F c') (hsame : observe view seen hidden c = observe view seen hidden c')
    (hobservable : Along h.session (Observable view seen hidden S A) c ops)
    (hconfined : Along h.session (Confined hidden S' A') c ops) :
    observe view seen hidden (run h.session c ops) =
      observe view seen hidden (run h.session c' (ops.filter fun op => !hidden op.name)) ∧
      Kept G F (run h.session c ops) ∧ Kept G F (run h.session c' (ops.filter fun op => !hidden op.name)) := by
  induction ops generalizing c c' with
  | nil => exact ⟨hsame, hc, hc'⟩
  | cons op ops ih =>
    have hnext := o.kept_next hc hobservable.1 hconfined.1
    cases hop : hidden op.name with
    | true =>
      rw [List.filter_cons_of_neg (by simp [hop])]
      exact ih hnext hc' ((o.observe_hidden hc hobservable.1 hconfined.1 hop).trans hsame) hobservable.2 hconfined.2
    | false =>
      have hobservable' : Observable view seen hidden S A c' op := by
        cases op with
        | resume k answer => simpa only [Observable, ← hsame] using hobservable.1
        | start k request => exact hobservable.1
        | crash k => trivial
      have hconfined' : Confined hidden S' A' c' op := by
        cases op with
        | crash k => trivial
        | start k request | resume k answer => exact fun hk => absurd hk (by rw [show hidden k = false from hop]; decide)
      rw [List.filter_cons_of_pos (by simp [hop])]
      exact ih hnext (o.kept_next hc' hobservable' hconfined') (o.observe_shown hc hc' hobservable.1 hop hsame) hobservable.2
        hconfined.2

end Unwinding
end Unwinding
end Concurrent
