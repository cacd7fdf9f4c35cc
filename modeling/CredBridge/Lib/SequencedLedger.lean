import Mathlib
import CredBridge.Lib.Machine

/-! # Ledgers with sequence numbers

A transaction draws a sequence number from an account, and may name the last time at which it is good. It is applied once
all lower numbers of its account are used up, in a ledger that closes in time, and uses its number up whether what it does
succeeds or not. Numbers can be skipped, and the times at which ledgers close do not go back.

So no two transactions are applied with one number of an account (`entry_eq`). -/

namespace SequencedLedger
open Machine Result
variable {α β : Type _}

structure Tx (α β : Type _) where
  source : α
  seq : Nat
  maxTime : Option Nat
  body : β
deriving DecidableEq

structure Entry (α β : Type _) where
  tx : Tx α β
  closedAt : Nat
  success : Bool
deriving DecidableEq

structure Ledger (α β : Type _) where
  sequence : α → Nat
  entries : List (Entry α β)
  closeTime : Nat

inductive Event (α β : Type _) where
  | apply (entry : Entry α β)
  /-- A ledger closes that leaves the accounts of interest as they are. -/
  | close (closedAt : Nat)
  | skip (source : α) (seq : Nat)

inductive Refused where
  | badTime
  | badSequence
  | tooLate
deriving DecidableEq, Repr

inductive Status where
  | success
  | failed
  | notFound
deriving DecidableEq, Repr

/-- What is known of a transaction from the entries that have been seen. -/
def status [DecidableEq α] [DecidableEq β] (seen : List (Entry α β)) (tx : Tx α β) : Status :=
  match seen.find? (·.tx = tx) with
  | some entry => if entry.success then .success else .failed
  | none => .notFound

def Tx.inTime (tx : Tx α β) (closedAt : Nat) : Bool := tx.maxTime.all (closedAt ≤ ·)

theorem inTime_iff {tx : Tx α β} {closedAt : Nat} : tx.inTime closedAt = true ↔ ∀ t ∈ tx.maxTime, closedAt ≤ t := by
  unfold Tx.inTime
  cases tx.maxTime <;> simp

section Status
variable [DecidableEq α] [DecidableEq β] {seen : List (Entry α β)} {tx : Tx α β}

theorem status_eq_success (h : status seen tx = .success) : ∃ e ∈ seen, e.tx = tx ∧ e.success = true := by
  unfold status at h
  split at h
  · next entry hfind =>
    refine ⟨entry, List.mem_of_find?_eq_some hfind, by simpa using List.find?_some hfind, ?_⟩
    by_contra hfailed
    rw [if_neg hfailed] at h
    cases h
  · cases h

theorem status_eq_notFound : status seen tx = .notFound ↔ ∀ e ∈ seen, e.tx ≠ tx := by
  unfold status
  split
  · next entry hfind =>
    refine iff_of_false ?_ fun hne => hne entry (List.mem_of_find?_eq_some hfind) (by simpa using List.find?_some hfind)
    split <;> exact Status.noConfusion
  · next hfind => exact iff_of_true rfl (by simpa using hfind)

end Status

def Ledger.empty : Ledger α β := ⟨fun _ => 0, [], 0⟩

/-- The entries are of good transactions, in the order of the times and of the numbers of each account. -/
structure Sound (l : Ledger α β) : Prop where
  inTime : ∀ e ∈ l.entries, e.tx.inTime e.closedAt = true
  used : ∀ e ∈ l.entries, e.tx.seq ≤ l.sequence e.tx.source
  closed : ∀ e ∈ l.entries, e.closedAt ≤ l.closeTime
  sorted : l.entries.Pairwise fun e e' => e.closedAt ≤ e'.closedAt ∧ (e.tx.source = e'.tx.source → e.tx.seq < e'.tx.seq)

/-- Nothing is taken back. -/
structure Extends (l l' : Ledger α β) : Prop where
  sequence : ∀ a, l.sequence a ≤ l'.sequence a
  entries : l.entries <+: l'.entries
  closeTime : l.closeTime ≤ l'.closeTime

section Sound
variable {l l' : Ledger α β} {e e' : Entry α β}

theorem Extends.refl (l : Ledger α β) : Extends l l := ⟨fun _ => Nat.le_refl _, List.prefix_refl _, Nat.le_refl _⟩

theorem Sound.empty : Sound (Ledger.empty : Ledger α β) where
  inTime e he := by cases he
  used e he := by cases he
  closed e he := by cases he
  sorted := .nil

/-- The entries stay as they are, with the numbers and the time at least what they were. -/
theorem Sound.of_extends (h : Sound l) (hext : Extends l l') (hentries : l'.entries = l.entries) : Sound l' where
  inTime e he := h.inTime e (hentries ▸ he)
  used e he := Nat.le_trans (h.used e (hentries ▸ he)) (hext.sequence _)
  closed e he := Nat.le_trans (h.closed e (hentries ▸ he)) hext.closeTime
  sorted := hentries ▸ h.sorted

/-- A number of an account is used for one entry. -/
theorem Sound.entry_eq (h : Sound l) (he : e ∈ l.entries) (he' : e' ∈ l.entries) (hsource : e.tx.source = e'.tx.source)
    (hseq : e.tx.seq = e'.tx.seq) : e = e' := by
  obtain ⟨i, hi, rfl⟩ := List.getElem_of_mem he
  obtain ⟨j, hj, rfl⟩ := List.getElem_of_mem he'
  have hsorted := List.pairwise_iff_getElem.mp h.sorted
  rcases Nat.lt_trichotomy i j with hij | rfl | hij
  · have hlt := (hsorted i j hi hj hij).2 hsource
    omega
  · rfl
  · have hlt := (hsorted j i hj hi hij).2 hsource.symm
    omega

end Sound

section Ledger
variable [DecidableEq α]

def Ledger.use (l : Ledger α β) (source : α) (seq : Nat) : Ledger α β :=
  { l with sequence := fun a => if a = source then seq else l.sequence a }

def Ledger.add (l : Ledger α β) (entry : Entry α β) : Ledger α β :=
  { l.use entry.tx.source entry.tx.seq with entries := l.entries ++ [entry], closeTime := entry.closedAt }

def step (l : Ledger α β) : Event α β → Except Refused (Ledger α β)
  | .apply entry => do
    throwIf (entry.closedAt < l.closeTime) .badTime
    throwIf (entry.tx.seq ≠ l.sequence entry.tx.source + 1) .badSequence
    throwIf (entry.tx.inTime entry.closedAt = false) .tooLate
    pure (l.add entry)
  | .close closedAt => do
    throwIf (closedAt < l.closeTime) .badTime
    pure { l with closeTime := closedAt }
  | .skip source seq => do
    throwIf (seq < l.sequence source) .badSequence
    pure (l.use source seq)

section Step
variable {l l' : Ledger α β} {event : Event α β} {entry : Entry α β} {tx : Tx α β}

theorem use_sequence (source : α) (seq : Nat) (a : α) :
    (l.use source seq).sequence a = if a = source then seq else l.sequence a := rfl

theorem apply_inv (h : step l (.apply entry) = .ok l') :
    l.closeTime ≤ entry.closedAt ∧ entry.tx.seq = l.sequence entry.tx.source + 1 ∧
      entry.tx.inTime entry.closedAt = true ∧ l' = l.add entry := by
  obtain ⟨htime, h⟩ := throwIf_bind_eq_ok.mp h
  obtain ⟨hseq, h⟩ := throwIf_bind_eq_ok.mp h
  obtain ⟨hlate, h⟩ := throwIf_bind_eq_ok.mp h
  exact ⟨by omega, by simpa using hseq, by simpa using hlate, (pure_eq_ok.mp h).symm⟩

theorem step_apply (htime : l.closeTime ≤ entry.closedAt) (hseq : entry.tx.seq = l.sequence entry.tx.source + 1)
    (hin : entry.tx.inTime entry.closedAt = true) : step l (.apply entry) = .ok (l.add entry) := by
  simp [step, throwIf, Nat.not_lt.mpr htime, hseq, hin]
  rfl

theorem step_extends (h : step l event = .ok l') : Extends l l' := by
  cases event with
  | apply entry =>
    obtain ⟨htime, hseq, -, rfl⟩ := apply_inv h
    refine ⟨fun a => ?_, List.prefix_append _ _, htime⟩
    show l.sequence a ≤ (l.use entry.tx.source entry.tx.seq).sequence a
    rw [use_sequence]
    split
    · next ha =>
      subst ha
      omega
    · exact Nat.le_refl _
  | close closedAt =>
    obtain ⟨htime, h⟩ := throwIf_bind_eq_ok.mp h
    rw [← pure_eq_ok.mp h]
    exact ⟨fun _ => Nat.le_refl _, List.prefix_refl _, by simpa using htime⟩
  | skip source seq =>
    obtain ⟨hseq, h⟩ := throwIf_bind_eq_ok.mp h
    rw [← pure_eq_ok.mp h]
    refine ⟨fun a => ?_, List.prefix_refl _, Nat.le_refl _⟩
    rw [use_sequence]
    split
    · next ha =>
      subst ha
      omega
    · exact Nat.le_refl _

theorem entries_step (h : step l event = .ok l') :
    l'.entries = l.entries ∨ ∃ entry, event = .apply entry ∧ l'.entries = l.entries ++ [entry] := by
  cases event with
  | apply entry =>
    obtain ⟨-, -, -, rfl⟩ := apply_inv h
    exact .inr ⟨entry, rfl, rfl⟩
  | close closedAt =>
    obtain ⟨-, h⟩ := throwIf_bind_eq_ok.mp h
    exact .inl (by rw [← pure_eq_ok.mp h])
  | skip source seq =>
    obtain ⟨-, h⟩ := throwIf_bind_eq_ok.mp h
    exact .inl (by rw [← pure_eq_ok.mp h]; rfl)

theorem Sound.step (h : Sound l) (hstep : step l event = .ok l') : Sound l' := by
  have hext := step_extends hstep
  rcases entries_step hstep with hentries | ⟨entry, rfl, hentries⟩
  · exact h.of_extends hext hentries
  · obtain ⟨htime, hseq, hin, hl'⟩ := apply_inv hstep
    have hmem : ∀ e ∈ l'.entries, e ∈ l.entries ∨ e = entry := fun e he => by
      rw [hentries] at he
      exact (List.mem_append.mp he).imp_right List.mem_singleton.mp
    have hnumber : l'.sequence entry.tx.source = entry.tx.seq := by
      rw [hl']
      exact if_pos rfl
    refine ⟨fun e he => ?_, fun e he => ?_, fun e he => ?_, ?_⟩
    · rcases hmem e he with he | rfl
      · exact h.inTime e he
      · exact hin
    · rcases hmem e he with he | rfl
      · exact Nat.le_trans (h.used e he) (hext.sequence _)
      · exact Nat.le_of_eq hnumber.symm
    · rcases hmem e he with he | rfl
      · exact Nat.le_trans (h.closed e he) hext.closeTime
      · exact Nat.le_of_eq (congrArg Ledger.closeTime hl').symm
    · rw [hentries, List.pairwise_append]
      refine ⟨h.sorted, List.pairwise_singleton _ _, fun e he e' he' => ?_⟩
      obtain rfl := List.mem_singleton.mp he'
      refine ⟨Nat.le_trans (h.closed e he) htime, fun hsource => ?_⟩
      have hused := h.used e he
      rw [hsource] at hused
      omega

theorem next_extends (l : Ledger α β) (event : Event α β) : Extends l (next step l event) := by
  rcases next_cases step l event with h | h
  · exact step_extends h
  · rw [h]
    exact .refl l

theorem Sound.next (h : Sound l) (event : Event α β) : Sound (Machine.next SequencedLedger.step l event) := by
  rcases next_cases SequencedLedger.step l event with hstep | hstep
  · exact h.step hstep
  · rwa [hstep]

theorem entries_next (l : Ledger α β) (event : Event α β) :
    (next step l event).entries = l.entries ∨
      ∃ entry, event = .apply entry ∧ (next step l event).entries = l.entries ++ [entry] := by
  rcases next_cases step l event with h | h
  · exact entries_step h
  · exact .inl (by rw [h])

end Step

end Ledger

end SequencedLedger
