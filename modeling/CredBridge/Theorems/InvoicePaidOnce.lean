import CredBridge.Contracts.PoolRuns

/-! # An invoice is paid for once

A purchase checks that the hash is not marked, pays the advance and marks the hash, all in one call. No other
call touches the marks, so they are the hashes bought so far, in their order, and no hash is bought twice,
whoever is the operator in the meantime. -/

namespace CredBridge.Contracts.LiquidityPool
open Result Machine

def Input.buys? : Input → Option (BytesN 32)
  | .invoke ⟨_, _, .buyTokenizedInvoice _ _ hash _ _ _ _⟩ => some hash
  | _ => none

/-- A purchase moves exactly the advance from the pool to the seller, and the advance is at most the face value and
    at most the pool's cash. -/
def Ledger.PaysAdvance {τ : Type} (T : TokenContracts τ) (self : Address) (s : Ledger τ) (i : Input) : Prop :=
  ∀ t auth timestamp operator seller hash face advance rate maturity,
    i = .invoke ⟨auth, timestamp, .buyTokenizedInvoice operator seller hash face advance rate maturity⟩ →
    s.step T self i = .ok t →
    ∃ st ∈ s.world.state?, 0 < advance ∧ advance ≤ face ∧ advance ≤ s.world.cash T self st ∧
      ∀ token a, T.balance t.world.tokens token a = T.balance s.world.tokens token a -
        moved st.assetAddress self advance token a + moved st.assetAddress seller advance token a

section Steps
variable {τ : Type} {T : TokenContracts τ} {self : Address} {s t : Ledger τ} {i : Input}

theorem Ledger.paysAdvance (hT : T.Exact) (s : Ledger τ) (i : Input) : s.PaysAdvance T self i := by
  rintro t auth timestamp operator seller hash face advance rate maturity rfl h
  obtain ⟨st, hst, -, -, hpos, hface, -, hcash, htransfer, -⟩ := buyTokenizedInvoice_inv (Ledger.invoke_inv h).1
  exact ⟨st, hst, hpos, hface, hcash, hT.transfer htransfer⟩

/-- A step marks the hash that it buys, which was not marked before, and nothing else. -/
theorem Ledger.processed_step (h : s.step T self i = .ok t) :
    t.world.storage.processedInvoice = s.world.storage.processedInvoice ++ i.buys?.toList ∧
      ∀ hash, i.buys? = some hash → hash ∉ s.world.storage.processedInvoice := by
  cases i with
  | token auth call =>
    obtain ⟨-, hs, -⟩ := Ledger.token_inv h
    exact ⟨by rw [hs]; exact (List.append_nil _).symm, nofun⟩
  | repay auth payer hash amount =>
    obtain ⟨-, -, -, hs, -⟩ := Ledger.repay_inv h
    exact ⟨by rw [hs]; exact (List.append_nil _).symm, nofun⟩
  | invoke inv =>
    obtain ⟨hw, -⟩ := Ledger.invoke_inv h
    obtain ⟨auth, timestamp, call⟩ := inv
    cases call with
    | initializePool admin operator asset share =>
      obtain ⟨-, hs, -⟩ := initializePool_inv hw
      exact ⟨by rw [hs]; exact (List.append_nil _).symm, nofun⟩
    | buyTokenizedInvoice operator seller hash face advance rate maturity =>
      obtain ⟨st, -, -, -, -, -, hnew, -, -, hs⟩ := buyTokenizedInvoice_inv hw
      refine ⟨by rw [hs]; rfl, ?_⟩
      rintro _ ⟨⟩
      exact hnew
    | settleInvoiceInPool operator hash principal =>
      obtain ⟨st, -, -, -, -, -, hs⟩ := settleInvoiceInPool_inv hw
      exact ⟨by rw [hs]; exact (List.append_nil _).symm, nofun⟩
    | deposit | withdraw | pause | unpause | setOperator =>
      obtain ⟨st, st', -, hs, -⟩ := invoke_other hw nofun nofun nofun
      exact ⟨by rw [hs]; exact (List.append_nil _).symm, nofun⟩

theorem Ledger.processed_grows (s : Ledger τ) (i : Input) :
    s.world.storage.processedInvoice <+: (next (Ledger.step T self) s i).world.storage.processedInvoice := by
  rcases next_cases (Ledger.step T self) s i with h | h
  · rw [(Ledger.processed_step h).1]
    exact List.prefix_append _ _
  · rw [h]

end Steps

/-- In every run from the deployment, each hash is bought once at most; each purchase pays exactly its advance, at most
    the face value and the pool's cash; and the marks only grow, and are the hashes of the purchases that succeeded. -/
theorem invoice_paid_once {τ : Type} {T : TokenContracts τ} (hT : T.Exact) (pool : Address) (tokens : τ)
    (is : List Input) :
    (∀ hash, (accepted (Ledger.step T pool) (.deployed tokens) is).countP (fun i => i.buys? = some hash) ≤ 1) ∧
    Along (Ledger.step T pool) (Ledger.PaysAdvance T pool) (.deployed tokens) is ∧
    Along (Ledger.step T pool) (fun s i => s.world.storage.processedInvoice <+:
      (next (Ledger.step T pool) s i).world.storage.processedInvoice) (.deployed tokens) is ∧
    (run (Ledger.step T pool) (.deployed tokens) is).world.storage.processedInvoice =
      (accepted (Ledger.step T pool) (.deployed tokens) is).filterMap Input.buys? := by
  refine ⟨fun hash => ?_, ?_, ?_, ?_⟩
  · refine countP_accepted_le_one (A := fun s => hash ∈ s.world.storage.processedInvoice) (fun s i t hi h => ?_)
      (fun s i t hi h => ?_) (fun s i t hs h => ?_) _ is
    · exact (Ledger.processed_step h).2 hash (of_decide_eq_true hi)
    · rw [(Ledger.processed_step h).1, of_decide_eq_true hi]
      exact List.mem_append_right _ (List.mem_singleton_self hash)
    · rw [(Ledger.processed_step h).1]
      exact List.mem_append_left _ hs
  · exact .of_all (Ledger.paysAdvance hT) _ is
  · exact .of_all Ledger.processed_grows _ is
  · have hmarks : ∀ s i t, Ledger.step T pool s i = .ok t →
        t.world.storage.processedInvoice = s.world.storage.processedInvoice ++ i.buys?.toList :=
      fun _ _ _ h => (Ledger.processed_step h).1
    exact marks_run hmarks _ is

section Witness
open Deployment

/-- The admin replaces the operator, and the new one tries to buy the invoice again. -/
def boughtAgain : List Input :=
  [initializes, deposits investor 100, buys 1 60, settles 1 60,
    .invoke ⟨signedBy admin, 0, .setOperator admin bystander⟩,
    .invoke ⟨signedBy bystander, 0, .buyTokenizedInvoice bystander seller (Deployment.hash 1) 60 30 0 0⟩]

theorem invoice_paid_once_new_operator :
    [Deployment.hash 1] = (accepted (Ledger.step mockBrlt pool) ledger boughtAgain).filterMap Input.buys? := by
  have hbought : (run (Ledger.step mockBrlt pool) ledger boughtAgain).world.storage.processedInvoice =
      [Deployment.hash 1] := by decide
  exact hbought.symm.trans (invoice_paid_once mockBrlt_exact pool tokens boughtAgain).2.2.2

end Witness

end CredBridge.Contracts.LiquidityPool
