import CredBridge.Api.Assignment
import CredBridge.Contracts.MockBrlt

/-! # Delivery versus payment

An assignment is two transactions with nothing that makes them one. The first moves the token of the receivable
only if that is what the owner signed, and the second is sent only if the first is confirmed in time. So what the
call leaves depends on what the first does and on what becomes of both. -/

namespace CredBridge.Api
open Contracts Result Submission

section Condition
variable {τ ν : Type} (env : AssignmentEnv) (D : LedgerContracts τ ν) (users : String → Option UserWallets)
  (answers : AssignmentAnswers) (s : AssignmentState τ ν) (id unsignedXdr signatureHex : String)

def ownerWallet : Option String :=
  (Table.find Receivable.id id s.receivables).bind fun receivable =>
    (users receivable.userId).bind fun user => user.privyStellarWalletAddress.filter (· ≠ "")

def Paid (chain : Chain τ ν) : Prop :=
  ∃ wallet ∈ ownerWallet users s id, ⟨id, env.address wallet⟩ ∈ chain.purchases

def Delivered (chain : Chain τ ν) : Prop :=
  NfeTokenization.tokenOwner D.nonFungible chain.ledger.nfe id = some env.platformAddress

def PaidIfDelivered (chain : Chain τ ν) : Prop := Paid env users s id chain ↔ Delivered env D id chain

/-- The chain when the call has ended, and after a transaction of it that lands later. -/
def Ended.chains (e : Ended τ ν) : List (Chain τ ν) := e.state.chain :: e.later.toList

def assigned : Landing (Chain τ ν) :=
  match checkAssignment env users s id unsignedXdr signatureHex with
  | .error _ => .never
  | .ok p => landAssignment D answers s.chain p.tx

def bought (chain : Chain τ ν) : Landing (Chain τ ν) :=
  match checkAssignment env users s id unsignedXdr signatureHex with
  | .error _ => .never
  | .ok p =>
    match purchaseCalls env p with
    | .error _ => .never
    | .ok purchase => landPurchase env D answers chain p purchase

/-- What the owner's transaction has to do, as both turn out. -/
def AssignsSoundly : Prop :=
  match assigned env D users answers s id unsignedXdr signatureHex with
  | .never => PaidIfDelivered env D users s id s.chain
  -- The call has given up, and nothing is bought when the transaction lands.
  | .late chain =>
    PaidIfDelivered env D users s id s.chain ∧ (Paid env users s id s.chain ↔ Delivered env D id chain)
  | .inTime chain =>
    match bought env D users answers s id unsignedXdr signatureHex chain with
    | .never => Paid env users s id s.chain ↔ Delivered env D id chain
    -- Between its end and the landing of the purchase, the call has paid nothing.
    | .late _ => Paid env users s id s.chain ∧ Delivered env D id chain
    | .inTime _ => Delivered env D id chain

end Condition

section Steps
variable {τ ν : Type} {env : AssignmentEnv} {D : LedgerContracts τ ν} {users : String → Option UserWallets}
  {answers : AssignmentAnswers} {s : AssignmentState τ ν} {id unsignedXdr signatureHex : String} {p : CheckedAssignment}
  {chain chain' : Chain τ ν}

theorem landAssignment_purchases {tx : SignedTx}
    (h : landAssignment D answers chain tx = .late chain' ∨ landAssignment D answers chain tx = .inTime chain') :
    chain'.purchases = chain.purchases := by
  have hok := land_cases h
  cases hexecute : chain.ledger.execute D answers.assignmentTime tx.calls with
  | error e => rw [hexecute] at hok; cases hok
  | ok ledger => rw [hexecute] at hok; cases hok; rfl

theorem landPurchase_spec {purchase : LedgerCalls} (hcalls : purchaseCalls env p = .ok purchase)
    (h : landPurchase env D answers chain p purchase = .late chain' ∨
      landPurchase env D answers chain p purchase = .inTime chain') :
    chain'.purchases = chain.purchases ++ [⟨p.receivable.id, env.address p.wallet⟩] ∧
      chain'.ledger.nfe = chain.ledger.nfe := by
  obtain ⟨_, -, hcalls⟩ := bind_eq_ok.mp hcalls
  obtain ⟨-, hcalls⟩ := throwIf_bind_eq_ok.mp hcalls
  obtain ⟨invoiceHash, -, hcalls⟩ := orThrow_bind_eq_ok.mp hcalls
  cases pure_eq_ok.mp hcalls
  have hok := land_cases h
  cases hexecute : chain.ledger.execute D answers.purchaseTime
      ⟨[.pool (.buyTokenizedInvoice env.platformAddress (env.address p.wallet) invoiceHash
        (env.stroops p.receivable.value) (env.stroops p.receivable.value) 100 1800000000)],
        fun a => a = env.platformAddress⟩ with
  | error e => rw [hexecute] at hok; cases hok
  | ok ledger =>
    rw [hexecute] at hok
    cases hok
    exact ⟨rfl, execute_pool_nfe hexecute⟩

theorem checkAssignment_inv (h : checkAssignment env users s id unsignedXdr signatureHex = .ok p) :
    p.receivable.id = id ∧ ownerWallet users s id = some p.wallet := by
  obtain ⟨receivable, hfind, h⟩ := orThrow_bind_eq_ok.mp h
  obtain ⟨-, h⟩ := throwIf_bind_eq_ok.mp h
  obtain ⟨wallet, hwallet, h⟩ := orThrow_bind_eq_ok.mp h
  obtain ⟨tx, -, h⟩ := bind_eq_ok.mp h
  cases pure_eq_ok.mp h
  refine ⟨Table.key_of_find hfind, ?_⟩
  unfold ownerWallet
  rw [hfind]
  exact hwallet

theorem paid_congr (h : chain'.purchases = chain.purchases) : Paid env users s id chain' ↔ Paid env users s id chain := by
  unfold Paid
  rw [h]

theorem delivered_congr (h : chain'.ledger.nfe = chain.ledger.nfe) : Delivered env D id chain' ↔ Delivered env D id chain := by
  unfold Delivered
  rw [h]

theorem completeAssignment_chains : (completeAssignment answers s p).chains = [s.chain] := by
  unfold completeAssignment
  split <;> rfl

theorem payout_chains (hcheck : checkAssignment env users s id unsignedXdr signatureHex = .ok p)
    (hchain : chain.purchases = s.chain.purchases) :
    (∀ c ∈ (payout env D answers { s with chain } p).chains, PaidIfDelivered env D users s id c) ↔
      match bought env D users answers s id unsignedXdr signatureHex chain with
      | .never => Paid env users s id s.chain ↔ Delivered env D id chain
      | .late _ => Paid env users s id s.chain ∧ Delivered env D id chain
      | .inTime _ => Delivered env D id chain := by
  obtain ⟨hid, hwallet⟩ := checkAssignment_inv hcheck
  have hsame : PaidIfDelivered env D users s id chain ↔ (Paid env users s id s.chain ↔ Delivered env D id chain) :=
    iff_congr (paid_congr hchain) Iff.rfl
  cases hcalls : purchaseCalls env p with
  | error e =>
    have hbought : bought env D users answers s id unsignedXdr signatureHex chain = .never := by
      simp only [bought, hcheck, hcalls]
    rw [hbought, payout, hcalls]
    simpa [Ended.chains] using hsame
  | ok purchase =>
    have hbought : bought env D users answers s id unsignedXdr signatureHex chain =
        landPurchase env D answers chain p purchase := by
      simp only [bought, hcheck, hcalls]
    -- A purchase that lands pays the owner, whatever it finds delivered.
    have hpaid : ∀ chain' : Chain τ ν, landPurchase env D answers chain p purchase = .late chain' ∨
        landPurchase env D answers chain p purchase = .inTime chain' →
        (PaidIfDelivered env D users s id chain' ↔ Delivered env D id chain) := by
      intro chain' hland
      obtain ⟨hpurchases, hnfe⟩ := landPurchase_spec hcalls hland
      have hpaid : Paid env users s id chain' := by
        refine ⟨p.wallet, hwallet, ?_⟩
        rw [hpurchases, hid]
        exact List.mem_append_right _ List.mem_cons_self
      unfold PaidIfDelivered
      rw [iff_true_left hpaid, delivered_congr hnfe]
    rw [hbought, payout, hcalls]
    simp only
    cases hland : landPurchase env D answers chain p purchase with
    | never => simpa [Ended.chains] using hsame
    | late chain' =>
      simp only [Ended.chains, Option.toList_some, List.mem_cons, List.not_mem_nil, or_false, forall_eq_or_imp,
        forall_eq, hpaid chain' (.inl hland), hsame]
      tauto
    | inTime chain' =>
      rw [completeAssignment_chains]
      simpa using hpaid chain' (.inr hland)

end Steps

/-- Once the call has ended, the pool has paid the owner exactly if the platform has the token, exactly when the owner's
    transaction does what its landing and the landing of the purchase ask of it. -/
theorem paid_if_delivered_iff {τ ν : Type} (env : AssignmentEnv) (D : LedgerContracts τ ν)
    (users : String → Option UserWallets) (answers : AssignmentAnswers) (s : AssignmentState τ ν)
    (id unsignedXdr signatureHex : String) :
    (∀ chain ∈ (submitAssignment env D users answers s id unsignedXdr signatureHex).chains,
        PaidIfDelivered env D users s id chain) ↔
      AssignsSoundly env D users answers s id unsignedXdr signatureHex := by
  unfold submitAssignment AssignsSoundly assigned
  cases hcheck : checkAssignment env users s id unsignedXdr signatureHex with
  | error e => simp [Ended.chains]
  | ok p =>
    simp only
    cases hland : landAssignment D answers s.chain p.tx with
    | never => simp [Ended.chains]
    | late chain =>
      have hchain := landAssignment_purchases (.inl hland)
      simp only [Ended.chains, Option.toList_some, List.mem_cons, List.not_mem_nil, or_false, forall_eq_or_imp,
        forall_eq]
      exact and_congr_right fun _ => iff_congr (paid_congr hchain) Iff.rfl
    | inTime chain => exact payout_chains hcheck (landAssignment_purchases (.inr hland))

section Receivable
variable {τ ν : Type} {env : AssignmentEnv} {D : LedgerContracts τ ν} {users : String → Option UserWallets}
  {answers : AssignmentAnswers} {s : AssignmentState τ ν} {id unsignedXdr signatureHex : String}

/-- For a receivable that is neither paid nor delivered: the token is handed over by a transaction that is confirmed in
    time and followed by a purchase that is confirmed in time, or it is not, and nothing is bought. -/
theorem assignsSoundly_iff_of_new (hunpaid : ¬Paid env users s id s.chain) (hheld : ¬Delivered env D id s.chain) :
    AssignsSoundly env D users answers s id unsignedXdr signatureHex ↔
      match assigned env D users answers s id unsignedXdr signatureHex with
      | .never => True
      | .late chain => ¬Delivered env D id chain
      | .inTime chain =>
        match bought env D users answers s id unsignedXdr signatureHex chain with
        | .never => ¬Delivered env D id chain
        | .late _ => False
        | .inTime _ => Delivered env D id chain := by
  have hbefore : PaidIfDelivered env D users s id s.chain := iff_of_false hunpaid hheld
  unfold AssignsSoundly
  cases assigned env D users answers s id unsignedXdr signatureHex with
  | never => exact iff_true_intro hbefore
  | late chain => simp [hbefore, hunpaid]
  | inTime chain =>
    simp only
    cases bought env D users answers s id unsignedXdr signatureHex chain with
    | never => simp [hunpaid]
    | late chain' => simp [hunpaid]
    | inTime chain' => rfl

/-- The transaction that the API prepares for the owner hands the token over. -/
theorem delivered_of_prepared (hN : D.nonFungible.Lawful) {chain : Chain τ ν} {ledger : Ledger τ ν} {timestamp : Nat}
    {auth : Address → Bool} (h : chain.ledger.execute D timestamp ⟨[prepareAssignment env id], auth⟩ = .ok ledger) :
    Delivered env D id { chain with ledger } := by
  obtain ⟨l, hinvoke, h⟩ := bind_eq_ok.mp h
  cases pure_eq_ok.mp h
  obtain ⟨nfe, htransfer, hinvoke⟩ := bind_eq_ok.mp hinvoke
  cases pure_eq_ok.mp hinvoke
  exact (NfeTokenization.tokenOwner_transferOwnership hN htransfer).1

end Receivable

section Examples

def platform : Address := .account 0

def pme : Address := .account 1

def assignmentEnv : AssignmentEnv where
  configured := true
  poolContractConfigured := true
  platformAddress := platform
  address text := if text = "GPME" then pme else .account 2
  fromXDR xdr :=
    if xdr = "transfer" then
      some ⟨"transfer-hash", [.nfe (.transferOwnership "receivable" platform)], fun a => a = pme⟩
    else if xdr = "payment" then some ⟨"payment-hash", [.other], fun a => a = pme⟩
    else none
  verify address _ _ := address = "GPME"
  stroops amount := (amount * 10000000 + 1 / 2).floor

def deployment : LedgerContracts MockBrltTokens OwnedTokens := ⟨mockBrlt, ownedTokens, .contract 0, .contract 1⟩

def invoiceHash : BytesN 32 := Vector.replicate 32 1

def tokenizedLedger (cash : Int) : Ledger MockBrltTokens OwnedTokens where
  nfe :=
    { storage :=
        { platform := some platform
          nfe := .singleton "receivable" ⟨"receivable", 0, 10000, 1800000000, invoiceHash, pme, .active, invoiceHash, 0, 0⟩
          saleListing := ∅
          tokenToNfe := .singleton 0 "receivable"
          xmlHashToToken := .singleton invoiceHash 0 }
      tokens := ⟨1, fun j => if j = 0 then some pme else none, fun _ => none, []⟩
      events := [] }
  pool :=
    { storage := ⟨true, some ⟨platform, platform, .contract 2, .contract 3, 0, cash, false⟩, []⟩
      tokens := fun _ => ⟨some platform, true, cash, Tally.empty.add (.contract 1) cash, fun _ _ => ⟨0, 0⟩⟩
      events := [] }

def assignmentState (cash : Int) : AssignmentState MockBrltTokens OwnedTokens :=
  ⟨[⟨"receivable", "pme", 100, .tokenized, "debtor", "12345678000195", some "ab", 1800000000000⟩],
    ⟨tokenizedLedger cash, []⟩, []⟩

def assignmentUsers (userId : String) : Option UserWallets := if userId = "pme" then some ⟨some "GPME", none⟩ else none

def bothConfirmed : AssignmentAnswers := ⟨.confirmed, 1, "failed", .confirmed, 2, "failed", true, true, true⟩

instance {τ ν : Type} (env : AssignmentEnv) (D : LedgerContracts τ ν) (users : String → Option UserWallets)
    (s : AssignmentState τ ν) (id : String) (chain : Chain τ ν) : Decidable (PaidIfDelivered env D users s id chain) :=
  inferInstanceAs (Decidable ((∃ wallet ∈ ownerWallet users s id, _ ∈ chain.purchases) ↔ _ = some env.platformAddress))

/-- The owner signs something else and is paid; and the token is handed over to a pool that cannot pay. -/
theorem assignment_not_atomic :
    ¬(∀ chain ∈ (submitAssignment assignmentEnv deployment assignmentUsers bothConfirmed
          (assignmentState 1000000000) "receivable" "payment" "00").chains,
        PaidIfDelivered assignmentEnv deployment assignmentUsers (assignmentState 1000000000) "receivable" chain) ∧
      ¬(∀ chain ∈ (submitAssignment assignmentEnv deployment assignmentUsers bothConfirmed
          (assignmentState 0) "receivable" "transfer" "00").chains,
        PaidIfDelivered assignmentEnv deployment assignmentUsers (assignmentState 0) "receivable" chain) := by
  constructor <;> decide +kernel

example : ∀ chain ∈ (submitAssignment assignmentEnv deployment assignmentUsers bothConfirmed
      (assignmentState 1000000000) "receivable" "transfer" "00").chains,
    PaidIfDelivered assignmentEnv deployment assignmentUsers (assignmentState 1000000000) "receivable" chain := by
  decide +kernel

end Examples
end CredBridge.Api
