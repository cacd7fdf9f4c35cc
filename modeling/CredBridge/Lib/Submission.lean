import Mathlib

/-! # Submissions with an unknown outcome

A network takes submissions and settles each of them later: it lands, it fails, or it is dropped. Whoever
submitted one can ask for its status, and learns nothing while it is pending. A submission is taken once; what
has been taken and has not failed has landed or may still land. -/

namespace Submission
variable {τ : Type _} [DecidableEq τ]

structure Network (τ : Type _) where
  pending : List τ
  landed : List τ
  failed : List τ

inductive Status where
  | success
  | failed
  | notFound
deriving DecidableEq, Repr

inductive Settlement (τ : Type _) where
  | land (i : Nat)
  | fail (i : Nat)
  | drop (i : Nat)
  /-- A submission of somebody else lands. -/
  | other (t : τ)

namespace Network

def empty : Network τ := ⟨[], [], []⟩

def Known (n : Network τ) (t : τ) : Prop := t ∈ n.pending ∨ t ∈ n.landed ∨ t ∈ n.failed

instance (n : Network τ) (t : τ) : Decidable (n.Known t) := inferInstanceAs (Decidable (_ ∨ _ ∨ _))

/-- A submission that the network knows is not taken again. -/
def take (n : Network τ) (t : τ) : Network τ :=
  if n.Known t then n else { n with pending := n.pending ++ [t] }

def settle (n : Network τ) : Settlement τ → Network τ
  | .land i => { n with pending := n.pending.eraseIdx i, landed := n.landed ++ n.pending[i]?.toList }
  | .fail i => { n with pending := n.pending.eraseIdx i, failed := n.failed ++ n.pending[i]?.toList }
  | .drop i => { n with pending := n.pending.eraseIdx i }
  | .other t => if n.Known t then n else { n with landed := n.landed ++ [t] }

def status (n : Network τ) (t : τ) : Status :=
  if t ∈ n.landed then .success else if t ∈ n.failed then .failed else .notFound

/-- What has landed or may still land. -/
def live (n : Network τ) : List τ := n.pending ++ n.landed

end Network

section Live
variable {n : Network τ} {t u : τ} {i : Nat} {p : τ → Bool}

omit [DecidableEq τ] in
theorem mem_live_of_landed (h : t ∈ n.landed) : t ∈ n.live := List.mem_append_right _ h

theorem mem_live_take (h : u ∈ (n.take t).live) : u ∈ n.live ∨ u = t := by
  unfold Network.take at h
  split at h
  · exact .inl h
  · simp only [Network.live, List.mem_append, List.mem_singleton] at h ⊢
    grind

theorem mem_landed_take : u ∈ (n.take t).landed ↔ u ∈ n.landed := by
  unfold Network.take
  split <;> rfl

theorem landed_subset_settle (e : Settlement τ) : n.landed ⊆ (n.settle e).landed := by
  intro t ht
  cases e with
  | land i => exact List.mem_append_left _ ht
  | fail i | drop i => exact ht
  | other u =>
    simp only [Network.settle]
    split
    · exact ht
    · exact List.mem_append_left _ ht

theorem mem_live_settle {e : Settlement τ} (h : t ∈ (n.settle e).live) : t ∈ n.live ∨ e = .other t := by
  cases e with
  | land i =>
    simp only [Network.settle, Network.live, List.mem_append, Option.mem_toList] at h ⊢
    rcases h with h | h | h
    · exact .inl (.inl (List.mem_of_mem_eraseIdx h))
    · exact .inl (.inr h)
    · exact .inl (.inl (List.mem_of_getElem? h))
  | fail i | drop i =>
    simp only [Network.settle, Network.live, List.mem_append] at h ⊢
    exact .inl (h.imp_left List.mem_of_mem_eraseIdx)
  | other u =>
    simp only [Network.settle] at h
    split at h
    · exact .inl h
    · simp only [Network.live, List.mem_append, List.mem_singleton] at h ⊢
      grind

omit [DecidableEq τ] in
theorem countP_eraseIdx_add (l : List τ) (i : Nat) :
    (l.eraseIdx i).countP p + l[i]?.toList.countP p = l.countP p := by
  cases h : l[i]? with
  | none =>
    rw [List.eraseIdx_of_length_le (List.getElem?_eq_none_iff.mp h)]
    rfl
  | some t =>
    obtain ⟨hi, rfl⟩ := List.getElem?_eq_some_iff.mp h
    have hperm := List.getElem_cons_eraseIdx_perm hi
    rw [← hperm.countP_eq p, List.countP_cons, Option.toList_some, List.countP_singleton]

theorem countP_live_take_le : (n.take t).live.countP p ≤ n.live.countP p + if p t then 1 else 0 := by
  unfold Network.take
  split
  · exact Nat.le_add_right _ _
  · simp only [Network.live, List.countP_append, List.countP_singleton]
    omega

theorem countP_live_settle_le {e : Settlement τ} (h : ∀ t, e = .other t → p t = false) :
    (n.settle e).live.countP p ≤ n.live.countP p := by
  cases e with
  | land i | fail i | drop i =>
    have hcount := countP_eraseIdx_add (p := p) n.pending i
    simp only [Network.settle, Network.live, List.countP_append]
    omega
  | other u =>
    simp only [Network.settle]
    split
    · exact Nat.le_refl _
    · simp [Network.live, h u rfl]

end Live

/-! ### One submission and its waiting submitter -/

/-- What becomes of a submission: it is not taken, or it never lands, or its submitter hears of its landing, or has given
    up by then. -/
inductive Fate where
  | refused
  | dropped
  | confirmed
  | late
deriving DecidableEq, Repr

inductive Landing (σ : Type _) where
  | never
  | late (s : σ)
  | inTime (s : σ)

def land {σ ε : Type _} (execution : Except ε σ) (fate : Fate) : Landing σ :=
  match execution, fate with
  | .error _, _ | .ok _, .refused | .ok _, .dropped => .never
  | .ok s, .late => .late s
  | .ok s, .confirmed => .inTime s

theorem fate_of_inTime {σ ε : Type _} {execution : Except ε σ} {fate : Fate} {s : σ}
    (h : land execution fate = .inTime s) : fate = .confirmed := by
  cases execution with
  | error e => cases h
  | ok s₁ => cases fate <;> cases h; rfl

theorem land_cases {σ ε : Type _} {execution : Except ε σ} {fate : Fate} {s' : σ}
    (h : land execution fate = .late s' ∨ land execution fate = .inTime s') : execution = .ok s' := by
  cases execution with
  | error e => rcases h with h | h <;> cases h
  | ok s₁ => cases fate <;> rcases h with h | h <;> cases h <;> rfl

end Submission
