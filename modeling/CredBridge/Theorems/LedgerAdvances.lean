import CredBridge.Contracts.Ledger
import CredBridge.Theorems.InvoicePaidOnce
import CredBridge.Theorems.TokenCustody

/-! # What a transaction leaves of what was done

Whatever calls a transaction makes, the pool forgets no purchase and a settled NF-e stays settled. An active one stays
active unless a call lists or settles it. -/

namespace CredBridge.Contracts
open NfeTokenization Result

/-- The key that a call takes out of status `Active`. -/
def ContractCall.retires? : ContractCall → Option String
  | .nfe (.listInvoiceForSale _ key _ _ _ _) | .nfe (.settleNfe key _) => some key
  | _ => none

/-- The pool forgets no purchase, an NF-e of the spared keys stays active, and one that is settled stays settled. -/
structure Ledger.Advances {τ ν : Type} (spared : String → Prop) (l l' : Ledger τ ν) : Prop where
  processed : l.pool.storage.processedInvoice ⊆ l'.pool.storage.processedInvoice
  active : ∀ key, spared key → statusOf key l.nfe = some .active → statusOf key l'.nfe = some .active
  settled : ∀ key, statusOf key l.nfe = some .settled → statusOf key l'.nfe = some .settled

section Advances
variable {τ ν : Type} {D : LedgerContracts τ ν} {auth : Address → Bool} {timestamp : Nat} {l l' l'' : Ledger τ ν}
  {spared : String → Prop} {call : ContractCall} {tx : LedgerCalls}

/-- What each call of a transaction keeps, the transaction does. -/
theorem Ledger.execute_keeps {P : Ledger τ ν → Prop} (hl : P l) (h : l.execute D timestamp tx = .ok l')
    (hstep : ∀ call ∈ tx.calls, ∀ l l', P l → l.invoke D tx.auth timestamp call = .ok l' → P l') : P l' := by
  obtain ⟨calls, auth⟩ := tx
  induction calls generalizing l with
  | nil =>
    cases pure_eq_ok.mp h
    exact hl
  | cons call calls ih =>
    obtain ⟨l₁, hinvoke, h⟩ := bind_eq_ok.mp h
    exact ih (hstep call List.mem_cons_self l l₁ hl hinvoke) h fun call hcall =>
      hstep call (List.mem_cons_of_mem _ hcall)

theorem Ledger.Advances.refl (l : Ledger τ ν) : l.Advances spared l :=
  ⟨List.Subset.refl _, fun _ _ h => h, fun _ h => h⟩

theorem Ledger.Advances.trans (h : l.Advances spared l') (h' : l'.Advances spared l'') : l.Advances spared l'' where
  processed := List.Subset.trans h.processed h'.processed
  active key hspared hactive := h'.active key hspared (h.active key hspared hactive)
  settled key hsettled := h'.settled key (h.settled key hsettled)

/-- The NF-es are none of a call on the tokens or the pool. -/
theorem Ledger.Advances.of_pool {pool : LiquidityPool.World τ}
    (h : l.pool.storage.processedInvoice ⊆ pool.storage.processedInvoice) : l.Advances spared { l with pool } :=
  ⟨h, fun _ _ h => h, fun _ h => h⟩

theorem Ledger.Advances.of_nfe {nfeCall : NfeTokenization.Call} {w : NfeTokenization.World ν}
    (h : Effect D.nonFungible auth l.nfe w nfeCall) (hspares : ∀ key ∈ (ContractCall.nfe nfeCall).retires?, ¬spared key) :
    l.Advances spared { l with nfe := w } where
  processed := List.Subset.refl _
  active key hspared hactive := by
    obtain ⟨nfeData, hfind, hstatus⟩ := Option.map_eq_some_iff.mp hactive
    show (findNfe w key).map NfeData.status = some .active
    rcases h.found key with hsame | ⟨hnone, -⟩ | ⟨old, new, hold, hnew, hupdates⟩
    · rw [hsame, hfind, Option.map_some, hstatus]
    · cases hnone.symm.trans hfind
    · cases hold.symm.trans hfind
      rw [hnew, Option.map_some]
      cases hupdates with
      | listed | settled => exact absurd hspared (hspares key rfl)
      | sold hlisted htokens => cases hlisted.symm.trans hstatus
      | transferred hactive htransfer => rw [hactive]
  settled key hsettled := by
    rcases h.follows key with hsame | hfollows
    · exact hsame.trans hsettled
    · rw [hsettled] at hfollows
      cases hfollows

theorem pool_step {w w' : LiquidityPool.World τ} {i : LiquidityPool.Invocation}
    (h : LiquidityPool.invoke D.tokens D.poolContract w i = .ok w') :
    LiquidityPool.Ledger.step D.tokens D.poolContract ⟨w, []⟩ (.invoke i) = .ok ⟨w', LiquidityPool.Book.record [] i.call⟩ :=
  bind_eq_ok.mpr ⟨w', h, rfl⟩

theorem Ledger.invoke_advances (h : l.invoke D auth timestamp call = .ok l')
    (hspares : ∀ key ∈ call.retires?, ¬spared key) : l.Advances spared l' := by
  cases call with
  | nfe nfeCall =>
    obtain ⟨w, hnfe, h⟩ := bind_eq_ok.mp h
    cases pure_eq_ok.mp h
    exact .of_nfe (invoke_effect hnfe) hspares
  | pool poolCall =>
    obtain ⟨w, hpool, h⟩ := bind_eq_ok.mp h
    cases pure_eq_ok.mp h
    refine .of_pool ?_
    rw [(LiquidityPool.Ledger.processed_step (pool_step hpool)).1]
    exact List.subset_append_left _ _
  | tokenTransfer | tokenMint | tokenBurn =>
    obtain ⟨tokens, -, h⟩ := bind_eq_ok.mp h
    cases pure_eq_ok.mp h
    exact .of_pool (List.Subset.refl _)
  | other =>
    cases pure_eq_ok.mp h
    exact .refl l

theorem Ledger.execute_advances (h : l.execute D timestamp tx = .ok l')
    (hspares : ∀ call ∈ tx.calls, ∀ key ∈ call.retires?, ¬spared key) : l.Advances spared l' :=
  execute_keeps (P := fun l₁ => l.Advances spared l₁) (.refl l) h fun call hcall _ _ hl hinvoke =>
    hl.trans (invoke_advances hinvoke (hspares call hcall))

theorem Ledger.execute_kept {issued : ν → Nat → Prop} {platform : Address} (hN : D.nonFungible.Lawful)
    (hS : D.nonFungible.Sequential issued) (hl : Kept D.nonFungible issued platform l.nfe)
    (h : l.execute D timestamp tx = .ok l') : Kept D.nonFungible issued platform l'.nfe := by
  refine execute_keeps (P := fun l => Kept D.nonFungible issued platform l.nfe) hl h fun call _ l l' hl h => ?_
  cases call with
  | nfe nfeCall =>
    obtain ⟨w, hnfe, h⟩ := bind_eq_ok.mp h
    cases pure_eq_ok.mp h
    have hstep : NfeTokenization.step D.nonFungible l.nfe ⟨⟨D.nfeContract, tx.auth, timestamp⟩, nfeCall⟩ = .ok w := hnfe
    exact hl.step hN hS hstep
  | pool | tokenTransfer | tokenMint | tokenBurn =>
    obtain ⟨_, -, h⟩ := bind_eq_ok.mp h
    cases pure_eq_ok.mp h
    exact hl
  | other =>
    cases pure_eq_ok.mp h
    exact hl

theorem Ledger.execute_single (hcalls : tx.calls = [call]) (h : l.execute D timestamp tx = .ok l') :
    l.invoke D tx.auth timestamp call = .ok l' := by
  unfold Ledger.execute at h
  rw [hcalls] at h
  obtain ⟨l₁, hinvoke, h⟩ := bind_eq_ok.mp h
  rwa [pure_eq_ok.mp h] at hinvoke

theorem Ledger.invoke_tokenizes {key : String} {value : Int} {dueDate : Nat} {xmlHash : BytesN 32}
    {owner platformAuth : Address}
    (h : l.invoke D auth timestamp (.nfe (.tokenizeNfe key value dueDate xmlHash owner platformAuth)) = .ok l') :
    statusOf key l'.nfe = some .active := by
  obtain ⟨w, hnfe, h⟩ := bind_eq_ok.mp h
  cases pure_eq_ok.mp h
  show (findNfe w key).map NfeData.status = some .active
  cases invoke_effect hnfe with
  | registered hcall hhash hkey hmint hnew htoken hxml =>
    cases hcall
    rw [findNfe_of_insert hnew]
    rfl
  | updated hfind hupdates => cases hupdates
  | moved hstorage htokens => cases htokens

theorem Ledger.invoke_buys {operator seller : Address} {hash : BytesN 32} {face advance rate : Int} {maturity : Nat}
    (h : l.invoke D auth timestamp (.pool (.buyTokenizedInvoice operator seller hash face advance rate maturity)) =
      .ok l') : hash ∈ l'.pool.storage.processedInvoice := by
  obtain ⟨w, hpool, h⟩ := bind_eq_ok.mp h
  cases pure_eq_ok.mp h
  rw [(LiquidityPool.Ledger.processed_step (pool_step hpool)).1]
  exact List.mem_append_right _ List.mem_cons_self

end Advances
end CredBridge.Contracts
