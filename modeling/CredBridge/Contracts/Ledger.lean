import CredBridge.Contracts.LiquidityPool
import CredBridge.Contracts.NfeTokenization

/-! # The contracts on one ledger

A transaction invokes a contract, which may call others; it does all of its calls or none of them. -/

namespace CredBridge.Contracts

structure LedgerContracts (τ ν : Type) where
  tokens : TokenContracts τ
  nonFungible : NonFungible ν
  nfeContract : Address
  poolContract : Address

structure Ledger (τ ν : Type) where
  nfe : NfeTokenization.World ν
  pool : LiquidityPool.World τ

inductive ContractCall where
  | nfe (call : NfeTokenization.Call)
  | pool (call : LiquidityPool.Call)
  | tokenTransfer (token sender receiver : Address) (amount : Int)
  | tokenMint (token admin receiver : Address) (amount : Int)
  | tokenBurn (token holder : Address) (amount : Int)
  /-- A call that neither contract and no token they use notices. -/
  | other

structure LedgerCalls where
  calls : List ContractCall
  auth : Address → Bool

section Run
variable {τ ν : Type} (D : LedgerContracts τ ν) (auth : Address → Bool) (timestamp : Nat)

def Ledger.invoke (l : Ledger τ ν) : ContractCall → Except Trap (Ledger τ ν)
  | .nfe call => do
    let nfe ← NfeTokenization.invoke D.nonFungible ⟨D.nfeContract, auth, timestamp⟩ l.nfe call
    pure { l with nfe }
  | .pool call => do
    let pool ← LiquidityPool.invoke D.tokens D.poolContract l.pool ⟨auth, timestamp, call⟩
    pure { l with pool }
  | .tokenTransfer token sender receiver amount => do
    let tokens ← D.tokens.transfer auth l.pool.tokens token sender receiver amount
    pure { l with pool := { l.pool with tokens } }
  | .tokenMint token admin receiver amount => do
    let tokens ← D.tokens.mint auth l.pool.tokens token admin receiver amount
    pure { l with pool := { l.pool with tokens } }
  | .tokenBurn token holder amount => do
    let tokens ← D.tokens.burn auth l.pool.tokens token holder amount
    pure { l with pool := { l.pool with tokens } }
  | .other => pure l

def Ledger.execute (l : Ledger τ ν) (tx : LedgerCalls) : Except Trap (Ledger τ ν) :=
  tx.calls.foldlM (Ledger.invoke D tx.auth timestamp) l

end Run

section NoNft
variable {τ ν : Type} {D : LedgerContracts τ ν} {auth : Address → Bool} {timestamp : Nat} {l l' : Ledger τ ν}

theorem invoke_pool_nfe {call : LiquidityPool.Call} (h : l.invoke D auth timestamp (.pool call) = .ok l') :
    l'.nfe = l.nfe := by
  obtain ⟨pool, -, h⟩ := Result.bind_eq_ok.mp h
  rw [← Result.pure_eq_ok.mp h]

theorem execute_pool_nfe {call : LiquidityPool.Call} (h : l.execute D timestamp ⟨[.pool call], auth⟩ = .ok l') :
    l'.nfe = l.nfe := by
  obtain ⟨l₁, hinvoke, h⟩ := Result.bind_eq_ok.mp h
  rw [← Result.pure_eq_ok.mp h]
  exact invoke_pool_nfe hinvoke

end NoNft
end CredBridge.Contracts
