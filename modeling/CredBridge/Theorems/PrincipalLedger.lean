import CredBridge.Contracts.PoolRuns

/-! # The principal ledger

`total_principal` is meant to be the principal deployed in active invoices. A purchase adds the advance
under the invoice's hash, but a settlement takes off whatever it is told to, under whatever hash. So the
counter is the sum of what is out exactly along the runs in which each settlement that takes something off
names an unsettled invoice with its own advance. -/

namespace CredBridge.Contracts.LiquidityPool
open Result Machine

/-! ### What settling does to the sums of the book -/

theorem Invoice.out_nonneg {e : Invoice} (h : 0 < e.advance) : 0 ≤ e.out := by
  unfold Invoice.out
  split
  · exact Int.le_of_lt h
  · exact Int.le_refl 0

namespace Book
variable {b : Book} {hash : BytesN 32} {principal advance : Int}

theorem principalOut_buy : (b.buy hash advance).principalOut = b.principalOut + advance := by
  unfold principalOut buy
  rw [Table.sum_append_singleton]
  rfl

theorem settle_of_not_matches (h : ¬b.Matches hash principal) : b.settle hash principal = b := by
  unfold settle Table.modify
  conv => rhs; rw [← List.map_id b]
  refine List.map_congr_left fun e he => ?_
  by_cases hk : e.hash = hash
  · rw [if_pos hk]
    exact if_neg fun hc => h ⟨e, he, hk, hc⟩
  · rw [if_neg hk]
    rfl

theorem principalOut_settle (hkeyed : Table.Keyed Invoice.hash b) (h : b.Matches hash principal) :
    (b.settle hash principal).principalOut = b.principalOut - principal := by
  obtain ⟨e, he, rfl, hun, rfl⟩ := h
  unfold principalOut settle
  rw [Table.sum_modify hkeyed he]
  have hout : e.out = e.advance := if_pos hun
  have hsettled : (e.settle e.advance).out = 0 := by
    unfold Invoice.settle
    rw [if_pos ⟨hun, rfl⟩]
    exact if_neg fun hn => hn rfl
  rw [hout, hsettled, Int.add_zero]

theorem out_repay {amount : Int} {e : Invoice} : (e.repay amount).out = e.out := by
  unfold Invoice.repay
  split
  · next hc =>
    have hun : e.Unsettled := fun hs => by rw [hc.1] at hs; cases hs
    unfold Invoice.out
    rw [if_pos hun]
    exact if_pos nofun
  · rfl

theorem principalOut_repay {amount : Int} : (b.repay hash amount).principalOut = b.principalOut := by
  unfold principalOut repay Table.modify
  rw [List.map_map]
  refine congrArg List.sum (List.map_congr_left fun e _ => ?_)
  show Invoice.out (if e.hash = hash then e.repay amount else e) = e.out
  split
  · exact out_repay
  · rfl

theorem principalOut_nonneg (hpos : ∀ e ∈ b, 0 < e.advance) : 0 ≤ b.principalOut := by
  refine List.sum_nonneg fun x hx => ?_
  obtain ⟨e, he, rfl⟩ := List.mem_map.mp hx
  exact Invoice.out_nonneg (hpos e he)

theorem le_principalOut (hpos : ∀ e ∈ b, 0 < e.advance) (h : b.Matches hash principal) :
    principal ≤ b.principalOut := by
  obtain ⟨e, he, -, hun, rfl⟩ := h
  have hout : e.out = e.advance := if_pos hun
  rw [← hout]
  exact Table.le_sum (fun x hx => Invoice.out_nonneg (hpos x hx)) he

end Book

section Ledger
variable {τ : Type}

/-- The counter is the principal of the invoices that are bought and not yet settled. -/
def Ledger.Balanced (s : Ledger τ) : Prop := ∀ st ∈ s.world.state?, st.totalPrincipal = s.book.principalOut

instance : DecidablePred (Ledger.Balanced (τ := τ)) := fun s =>
  inferInstanceAs (Decidable (∀ st ∈ s.world.state?, st.totalPrincipal = s.book.principalOut))

/-- A settlement is sound when it names an unsettled invoice with exactly its advance, or when there is no
    principal to take off. -/
def Ledger.SettlesSoundly (s : Ledger τ) (i : Input) : Prop :=
  ∀ hash principal, i.settles? = some (hash, principal) →
    s.book.Matches hash principal ∨ ∀ st ∈ s.world.state?, st.totalPrincipal = 0

variable {T : TokenContracts τ} {self : Address} {s t : Ledger τ} {i : Input}

theorem Ledger.Balanced.step_of_not_settles (hR : s.Recorded) (hB : s.Balanced) (h : s.step T self i = .ok t)
    (hi : i.settles? = none) : t.Balanced := by
  intro st' hst'
  cases i with
  | token auth call =>
    obtain ⟨-, hs, hb⟩ := Ledger.token_inv h
    rw [state?_congr hs] at hst'
    rw [hb]
    exact hB st' hst'
  | repay auth payer hash amount =>
    obtain ⟨-, -, -, hs, hb⟩ := Ledger.repay_inv h
    rw [state?_congr hs] at hst'
    rw [hb, Book.principalOut_repay]
    exact hB st' hst'
  | invoke inv =>
    obtain ⟨hw, hb⟩ := Ledger.invoke_inv h
    obtain ⟨auth, timestamp, call⟩ := inv
    cases call with
    | initializePool admin operator asset share =>
      obtain ⟨hfresh, hs, -⟩ := initializePool_inv hw
      have hempty : t.book = [] := hb.trans (hR.fresh hfresh)
      rw [state?_of_saved (by rw [hs]) (by rw [hs])] at hst'
      cases hst'
      rw [hempty]
      rfl
    | buyTokenizedInvoice operator seller hash face advance rate maturity =>
      obtain ⟨st, hst, -, -, -, -, -, -, -, hs⟩ := buyTokenizedInvoice_inv hw
      rw [state?_saveState hst hs rfl] at hst'
      cases hst'
      rw [hb]
      show st.totalPrincipal + advance = (s.book.buy hash advance).principalOut
      rw [Book.principalOut_buy, hB st hst]
    | settleInvoiceInPool operator hash principal => cases hi
    | deposit | withdraw | pause | unpause | setOperator =>
      obtain ⟨st, st₁, hst, hs, hprincipal⟩ := invoke_other hw nofun nofun nofun
      rw [state?_saveState hst hs rfl] at hst'
      cases hst'
      rw [hb, hprincipal]
      exact hB st hst

theorem Ledger.balanced_settle_iff (hR : s.Recorded) (hB : s.Balanced) {hash : BytesN 32} {principal : Int}
    (hi : i.settles? = some (hash, principal)) (h : s.step T self i = .ok t) :
    t.Balanced ↔ s.book.Matches hash principal ∨ ∀ st ∈ s.world.state?, st.totalPrincipal = 0 := by
  obtain ⟨auth, timestamp, operator, rfl⟩ := Input.settles?_eq_some.mp hi
  obtain ⟨hw, hb⟩ := Ledger.invoke_inv h
  obtain ⟨st, hst, -, -, hpos, -, hs⟩ := settleInvoiceInPool_inv hw
  have hst' := state?_saveState hst hs rfl
  have hbook : t.book = s.book.settle hash principal := hb
  have htotal : st.totalPrincipal = s.book.principalOut := hB st hst
  have hbal : t.Balanced ↔
      (if principal > st.totalPrincipal then 0 else st.totalPrincipal - principal) = t.book.principalOut := by
    unfold Ledger.Balanced
    rw [hst']
    exact ⟨fun hall => hall _ rfl, fun heq st₁ hst₁ => by cases hst₁; exact heq⟩
  have hzero : (∀ st ∈ s.world.state?, st.totalPrincipal = 0) ↔ st.totalPrincipal = 0 := by
    rw [hst]
    exact ⟨fun hall => hall _ rfl, fun heq st₁ hst₁ => by cases hst₁; exact heq⟩
  rw [hbal, hzero, hbook]
  by_cases hm : s.book.Matches hash principal
  · have hle := Book.le_principalOut hR.advances hm
    rw [Book.principalOut_settle hR.keyed hm, if_neg (by omega)]
    exact ⟨fun _ => .inl hm, fun _ => by omega⟩
  · -- Nothing is settled, so the counter must not move; it moves unless it is zero already.
    rw [Book.settle_of_not_matches hm, ← htotal]
    have hnonneg : 0 ≤ st.totalPrincipal := by
      rw [htotal]
      exact Book.principalOut_nonneg hR.advances
    constructor
    · intro heq
      right
      split at heq <;> omega
    · rintro (hm' | hz)
      · exact absurd hm' hm
      · rw [if_pos (by omega), hz]

theorem Ledger.balanced_step_iff (hR : s.Recorded) (hB : s.Balanced) (h : s.step T self i = .ok t) :
    t.Balanced ↔ s.SettlesSoundly i := by
  cases hi : i.settles? with
  | none =>
    refine ⟨fun _ hash principal hs => ?_, fun _ => hB.step_of_not_settles hR h hi⟩
    rw [hi] at hs
    cases hs
  | some x =>
    rw [Ledger.balanced_settle_iff hR hB hi h]
    refine ⟨fun hx hash principal hs => ?_, fun hs => hs x.1 x.2 hi⟩
    rw [hi] at hs
    cases hs
    exact hx

/-- A settlement that names no unsettled invoice with its advance leaves the counter alone. -/
def Ledger.UnmatchedLeaves (T : TokenContracts τ) (self : Address) (s : Ledger τ) (i : Input) : Prop :=
  ∀ t hash principal, s.step T self i = .ok t → i.settles? = some (hash, principal) →
    ¬s.book.Matches hash principal → ∀ st ∈ s.world.state?, ∀ st' ∈ t.world.state?, st'.totalPrincipal = st.totalPrincipal

theorem Ledger.SettlesSoundly.unmatchedLeaves
    (h : ∀ t, s.step T self i = .ok t → s.SettlesSoundly i) : s.UnmatchedLeaves T self i := by
  intro t hash principal ht hi hm st hst st' hst'
  have hzero : st.totalPrincipal = 0 := (h t ht hash principal hi).resolve_left hm st hst
  obtain ⟨auth, timestamp, operator, rfl⟩ := Input.settles?_eq_some.mp hi
  obtain ⟨hw, -⟩ := Ledger.invoke_inv ht
  obtain ⟨st₀, hst₀, -, -, hpos, -, hs⟩ := settleInvoiceInPool_inv hw
  rw [state?_saveState hst₀ hs rfl] at hst'
  rw [hst] at hst₀
  cases hst₀
  cases hst'
  show (if principal > st.totalPrincipal then 0 else st.totalPrincipal - principal) = st.totalPrincipal
  rw [hzero]
  exact if_pos hpos

end Ledger

/-- Along every run of the pool from its deployment, the counter is the principal that is out and unmatched
    settlements leave it alone, exactly if each settlement that succeeds is sound. -/
theorem principal_ledger_iff_settles_soundly {τ : Type} (T : TokenContracts τ) (self : Address) (tokens : τ)
    (is : List Input) :
    (Throughout (Ledger.step T self) Ledger.Balanced (.deployed tokens) is ∧
      Along (Ledger.step T self) (Ledger.UnmatchedLeaves T self) (.deployed tokens) is) ↔
    Along (Ledger.step T self) (fun s i => ∀ t, s.step T self i = .ok t → s.SettlesSoundly i)
      (.deployed tokens) is := by
  have hiff : Throughout (Ledger.step T self) Ledger.Balanced (.deployed tokens) is ↔ _ :=
    throughout_iff_along (I := Ledger.Recorded) (Q := Ledger.SettlesSoundly) (fun s i t hR h => hR.step h)
      (fun s i t hR hB h => Ledger.balanced_step_iff hR hB h) Ledger.recorded_deployed nofun
  constructor
  · exact fun h => hiff.mp h.1
  · exact fun h => ⟨hiff.mpr h, h.mono fun s i hi => Ledger.SettlesSoundly.unmatchedLeaves hi⟩

section Counterexample
open Deployment

theorem settling_unknown_hash_unbalances :
    ¬Throughout (Ledger.step mockBrlt pool) Ledger.Balanced ledger
      [initializes, deposits investor 100, buys 1 60, settles 2 60] := by
  decide

end Counterexample
end CredBridge.Contracts.LiquidityPool
