import CredBridge.Contracts.MockBrlt
import CredBridge.Contracts.PoolEffects
import CredBridge.Lib.Table

/-! # Runs of the ledger around the pool

Between two invocations of the pool, anyone may use the token contracts directly; in particular the payer
of an invoice transfers BRLT into the pool before the operator settles the invoice there. Beside the
contracts' state stands a book of the invoices the pool bought, which says what the contract's counters are
meant to count: an invoice is out from its purchase until a settlement that names it with exactly its
advance, and it is repaid once its payer has transferred at least the advance. The book is read by no
contract. -/

namespace CredBridge.Contracts.LiquidityPool
open Result

/-! ### The book -/

inductive Stage where
  | bought
  | repaid
  | settled
deriving DecidableEq, Repr

structure Invoice where
  hash : BytesN 32
  advance : Int
  stage : Stage
deriving DecidableEq

def Invoice.Unsettled (e : Invoice) : Prop := e.stage ≠ .settled

instance : DecidablePred Invoice.Unsettled := fun e => inferInstanceAs (Decidable (e.stage ≠ .settled))

def Invoice.out (e : Invoice) : Int := if e.Unsettled then e.advance else 0

def Invoice.repaidOut (e : Invoice) : Int := if e.stage = .repaid then e.advance else 0

/-- A transfer of at least the advance repays an invoice that is bought. -/
def Invoice.repay (amount : Int) (e : Invoice) : Invoice :=
  if e.stage = .bought ∧ e.advance ≤ amount then { e with stage := .repaid } else e

/-- A settlement settles an unsettled invoice if the principal is its advance. -/
def Invoice.settle (principal : Int) (e : Invoice) : Invoice :=
  if e.Unsettled ∧ e.advance = principal then { e with stage := .settled } else e

theorem Invoice.hash_repay (amount : Int) (e : Invoice) : (e.repay amount).hash = e.hash := by
  unfold Invoice.repay
  split <;> rfl

theorem Invoice.advance_repay (amount : Int) (e : Invoice) : (e.repay amount).advance = e.advance := by
  unfold Invoice.repay
  split <;> rfl

theorem Invoice.hash_settle (principal : Int) (e : Invoice) : (e.settle principal).hash = e.hash := by
  unfold Invoice.settle
  split <;> rfl

theorem Invoice.advance_settle (principal : Int) (e : Invoice) : (e.settle principal).advance = e.advance := by
  unfold Invoice.settle
  split <;> rfl

abbrev Book := List Invoice

namespace Book

def principalOut (b : Book) : Int := (b.map (·.out)).sum

def repaidOut (b : Book) : Int := (b.map (·.repaidOut)).sum

def buy (b : Book) (hash : BytesN 32) (advance : Int) : Book := b ++ [⟨hash, advance, .bought⟩]

def repay (b : Book) (hash : BytesN 32) (amount : Int) : Book :=
  Table.modify Invoice.hash hash (Invoice.repay amount) b

def settle (b : Book) (hash : BytesN 32) (principal : Int) : Book :=
  Table.modify Invoice.hash hash (Invoice.settle principal) b

/-- The settlement names an unsettled invoice of the book, with exactly its advance. -/
def Matches (b : Book) (hash : BytesN 32) (principal : Int) : Prop :=
  ∃ e ∈ b, e.hash = hash ∧ e.Unsettled ∧ e.advance = principal

/-- What an invocation that succeeded writes into the book. -/
def record (b : Book) : Call → Book
  | .buyTokenizedInvoice _ _ hash _ advance _ _ => b.buy hash advance
  | .settleInvoiceInPool _ hash principal => b.settle hash principal
  | _ => b

instance (b : Book) (hash : BytesN 32) (principal : Int) : Decidable (b.Matches hash principal) :=
  inferInstanceAs (Decidable (∃ e ∈ b, _))

end Book

/-! ### The ledger -/

inductive TokenCall where
  | transfer (token sender receiver : Address) (amount : Int)
  | mint (token admin receiver : Address) (amount : Int)
  | burn (token holder : Address) (amount : Int)

def TokenCall.payer? : TokenCall → Option Address
  | .transfer _ sender _ _ => some sender
  | .mint .. => none
  | .burn _ holder _ => some holder

inductive Input where
  | invoke (inv : Invocation)
  | token (auth : Address → Bool) (call : TokenCall)
  /-- The transfer of BRLT into the pool that repays an invoice. -/
  | repay (auth : Address → Bool) (payer : Address) (invoiceHash : BytesN 32) (amount : Int)

def Input.settles? : Input → Option (BytesN 32 × Int)
  | .invoke ⟨_, _, .settleInvoiceInPool _ hash principal⟩ => some (hash, principal)
  | _ => none

theorem Input.settles?_eq_some {i : Input} {hash : BytesN 32} {principal : Int} :
    i.settles? = some (hash, principal) ↔
      ∃ auth timestamp operator, i = .invoke ⟨auth, timestamp, .settleInvoiceInPool operator hash principal⟩ := by
  constructor
  · intro h
    unfold Input.settles? at h
    split at h
    · cases h
      exact ⟨_, _, _, rfl⟩
    · cases h
  · rintro ⟨_, _, _, rfl⟩
    rfl

structure Ledger (τ : Type) where
  world : World τ
  book : Book

def Ledger.deployed {τ : Type} (tokens : τ) : Ledger τ := ⟨World.deployed tokens, []⟩

section Step
variable {τ : Type} (T : TokenContracts τ) (self : Address)

def TokenCall.apply (auth : Address → Bool) (tokens : τ) : TokenCall → Except Trap τ
  | .transfer token sender receiver amount => T.transfer auth tokens token sender receiver amount
  | .mint token admin receiver amount => T.mint auth tokens token admin receiver amount
  | .burn token holder amount => T.burn auth tokens token holder amount

def Ledger.step (s : Ledger τ) : Input → Except Trap (Ledger τ)
  | .invoke inv => do
    let world ← LiquidityPool.invoke T self s.world inv
    pure ⟨world, s.book.record inv.call⟩
  | .token auth call => do
    let tokens ← call.apply T auth s.world.tokens
    pure { s with world := { s.world with tokens } }
  | .repay auth payer hash amount => do
    let state ← loadState s.world.storage
    let tokens ← T.transfer auth s.world.tokens state.assetAddress payer self amount
    pure ⟨{ s.world with tokens }, s.book.repay hash amount⟩

end Step

section StepInversion
variable {τ : Type} {T : TokenContracts τ} {self : Address} {s t : Ledger τ}

theorem Ledger.invoke_inv {inv : Invocation} (h : s.step T self (.invoke inv) = .ok t) :
    LiquidityPool.invoke T self s.world inv = .ok t.world ∧ t.book = s.book.record inv.call := by
  obtain ⟨world, hw, h⟩ := bind_eq_ok.mp h
  cases pure_eq_ok.mp h
  exact ⟨hw, rfl⟩

theorem Ledger.token_inv {auth : Address → Bool} {call : TokenCall}
    (h : s.step T self (.token auth call) = .ok t) :
    call.apply T auth s.world.tokens = .ok t.world.tokens ∧ t.world.storage = s.world.storage ∧ t.book = s.book := by
  obtain ⟨tokens, ht, h⟩ := bind_eq_ok.mp h
  cases pure_eq_ok.mp h
  exact ⟨ht, rfl, rfl⟩

theorem Ledger.repay_inv {auth : Address → Bool} {payer : Address} {hash : BytesN 32} {amount : Int}
    (h : s.step T self (.repay auth payer hash amount) = .ok t) :
    ∃ st, s.world.state? = some st ∧
      T.transfer auth s.world.tokens st.assetAddress payer self amount = .ok t.world.tokens ∧
      t.world.storage = s.world.storage ∧ t.book = s.book.repay hash amount := by
  obtain ⟨st, hst, h⟩ := bind_eq_ok.mp h
  obtain ⟨tokens, ht, h⟩ := bind_eq_ok.mp h
  cases pure_eq_ok.mp h
  exact ⟨st, loadState_eq_ok.mp hst, ht, rfl, rfl⟩

theorem state?_congr {w w' : World τ} (h : w'.storage = w.storage) : w'.state? = w.state? := by
  unfold World.state?
  rw [h]

end StepInversion

/-! ### The book keeps its entries apart -/

/-- The book holds the invoices that the contract marked as processed, each once, with a positive advance. -/
structure Ledger.Recorded {τ : Type} (s : Ledger τ) : Prop where
  hashes : s.book.map (·.hash) = s.world.storage.processedInvoice
  keyed : Table.Keyed Invoice.hash s.book
  advances : ∀ e ∈ s.book, 0 < e.advance
  fresh : s.world.storage.initialized = false → s.book = []

section Recorded
variable {τ : Type} {T : TokenContracts τ} {self : Address} {s t : Ledger τ} {b : Book} {hash : BytesN 32}

theorem Book.map_hash_settle {principal : Int} : (b.settle hash principal).map (·.hash) = b.map (·.hash) :=
  Table.map_key_modify fun e he => (Invoice.hash_settle principal e).trans he

theorem Book.map_hash_repay {amount : Int} : (b.repay hash amount).map (·.hash) = b.map (·.hash) :=
  Table.map_key_modify fun e he => (Invoice.hash_repay amount e).trans he

theorem Book.advance_pos_modify {g : Invoice → Invoice} (hg : ∀ e, (g e).advance = e.advance)
    (h : ∀ e ∈ b, 0 < e.advance) : ∀ e ∈ Table.modify Invoice.hash hash g b, 0 < e.advance := by
  intro e he
  obtain ⟨e₀, he₀, rfl⟩ := Table.mem_modify.mp he
  split
  · rw [hg]
    exact h e₀ he₀
  · exact h e₀ he₀

theorem Ledger.Recorded.settle (h : s.Recorded) {principal : Int}
    (hp : t.world.storage.processedInvoice = s.world.storage.processedInvoice)
    (hi : t.world.storage.initialized = s.world.storage.initialized)
    (hb : t.book = s.book.settle hash principal) : t.Recorded where
  hashes := by rw [hb, Book.map_hash_settle, hp, h.hashes]
  keyed := by
    unfold Table.Keyed
    rw [hb, Book.map_hash_settle]
    exact h.keyed
  advances := by
    rw [hb]
    exact Book.advance_pos_modify (Invoice.advance_settle principal) h.advances
  fresh hfresh := by
    rw [hb, h.fresh (hi ▸ hfresh)]
    rfl

theorem Ledger.Recorded.repay (h : s.Recorded) {amount : Int}
    (hp : t.world.storage.processedInvoice = s.world.storage.processedInvoice)
    (hi : t.world.storage.initialized = s.world.storage.initialized)
    (hb : t.book = s.book.repay hash amount) : t.Recorded where
  hashes := by rw [hb, Book.map_hash_repay, hp, h.hashes]
  keyed := by
    unfold Table.Keyed
    rw [hb, Book.map_hash_repay]
    exact h.keyed
  advances := by
    rw [hb]
    exact Book.advance_pos_modify (Invoice.advance_repay amount) h.advances
  fresh hfresh := by
    rw [hb, h.fresh (hi ▸ hfresh)]
    rfl

theorem Ledger.Recorded.buy (h : s.Recorded) {advance : Int} (hpos : 0 < advance)
    (hnew : hash ∉ s.world.storage.processedInvoice)
    (hp : t.world.storage.processedInvoice = s.world.storage.processedInvoice ++ [hash])
    (hi : t.world.storage.initialized = true) (hb : t.book = s.book.buy hash advance) : t.Recorded where
  hashes := by
    rw [hb, hp, ← h.hashes]
    exact List.map_append
  keyed := by
    rw [hb]
    refine Table.Keyed.append h.keyed ?_
    rw [← h.hashes] at hnew
    exact hnew
  advances := by
    rw [hb]
    intro e he
    rcases List.mem_append.mp he with he | he
    · exact h.advances e he
    · rw [List.mem_singleton.mp he]
      exact hpos
  fresh hfresh := by
    rw [hi] at hfresh
    cases hfresh

theorem Ledger.Recorded.keep (h : s.Recorded)
    (hp : t.world.storage.processedInvoice = s.world.storage.processedInvoice)
    (hi : s.world.storage.initialized = true → t.world.storage.initialized = true)
    (hb : t.book = s.book) : t.Recorded where
  hashes := by rw [hb, hp, h.hashes]
  keyed := hb ▸ h.keyed
  advances := hb ▸ h.advances
  fresh hfresh := by
    rw [hb]
    refine h.fresh (Bool.eq_false_iff.mpr fun hs => ?_)
    rw [hi hs] at hfresh
    cases hfresh

theorem invoke_other {w w' : World τ} {inv : Invocation} (h : invoke T self w inv = .ok w')
    (hinit : ∀ a o x y, inv.call ≠ .initializePool a o x y)
    (hbuy : ∀ o x y f a r m, inv.call ≠ .buyTokenizedInvoice o x y f a r m)
    (hsettle : ∀ o x p, inv.call ≠ .settleInvoiceInPool o x p) :
    ∃ st st', w.state? = some st ∧ w'.storage = saveState w.storage st' ∧
      st'.totalPrincipal = st.totalPrincipal := by
  obtain ⟨auth, timestamp, call⟩ := inv
  cases call with
  | deposit investor amount =>
    obtain ⟨st, shares, -, hst, -, -, -, -, -, hs⟩ := deposit_inv h
    exact ⟨st, _, hst, hs, rfl⟩
  | withdraw investor shares =>
    obtain ⟨st, -, -, hst, -, -, -, -, -, -, -, -, hs⟩ := withdraw_inv h
    exact ⟨st, _, hst, hs, rfl⟩
  | pause admin =>
    obtain ⟨st, hst, -, -, hs⟩ := setPaused_inv h
    exact ⟨st, _, hst, hs, rfl⟩
  | unpause admin =>
    obtain ⟨st, hst, -, -, hs⟩ := setPaused_inv h
    exact ⟨st, _, hst, hs, rfl⟩
  | setOperator admin operator =>
    obtain ⟨st, hst, -, -, hs⟩ := setOperator_inv h
    exact ⟨st, _, hst, hs, rfl⟩
  | initializePool admin operator asset share => exact absurd rfl (hinit _ _ _ _)
  | buyTokenizedInvoice operator seller hash face advance rate maturity => exact absurd rfl (hbuy _ _ _ _ _ _ _)
  | settleInvoiceInPool operator hash principal => exact absurd rfl (hsettle _ _ _)

theorem Ledger.Recorded.step (hR : s.Recorded) {i : Input} (h : s.step T self i = .ok t) : t.Recorded := by
  cases i with
  | token auth call =>
    obtain ⟨-, hs, hb⟩ := Ledger.token_inv h
    exact hR.keep (by rw [hs]) (fun hi => hs ▸ hi) hb
  | repay auth payer hash amount =>
    obtain ⟨-, -, -, hs, hb⟩ := Ledger.repay_inv h
    exact hR.repay (by rw [hs]) (by rw [hs]) hb
  | invoke inv =>
    obtain ⟨hw, hb⟩ := Ledger.invoke_inv h
    obtain ⟨auth, timestamp, call⟩ := inv
    cases call with
    | initializePool admin operator asset share =>
      obtain ⟨-, hs, -⟩ := initializePool_inv hw
      exact hR.keep (by rw [hs]) (fun _ => by rw [hs]) hb
    | buyTokenizedInvoice operator seller hash face advance rate maturity =>
      obtain ⟨st, hst, -, -, hpos, -, hnew, -, -, hs⟩ := buyTokenizedInvoice_inv hw
      refine hR.buy hpos hnew (by rw [hs]; rfl) ?_ hb
      rw [hs]
      exact initialized_of_state? hst
    | settleInvoiceInPool operator hash principal =>
      obtain ⟨st, -, -, -, -, -, hs⟩ := settleInvoiceInPool_inv hw
      exact hR.settle (by rw [hs]; rfl) (by rw [hs]; rfl) hb
    | deposit | withdraw | pause | unpause | setOperator =>
      obtain ⟨st, st', -, hs, -⟩ := invoke_other hw nofun nofun nofun
      exact hR.keep (by rw [hs]; rfl) (fun hi => by rw [hs]; exact hi) hb

theorem Ledger.recorded_deployed {tokens : τ} : (Ledger.deployed tokens).Recorded where
  hashes := rfl
  keyed := Table.Keyed.nil
  advances _ he := by cases he
  fresh _ := rfl

end Recorded

/-! ### The deployment of the contract's tests

One BRLT token, one share token whose admin is the pool, and investors who hold BRLT. -/

namespace Deployment

def pool : Address := .contract 0
def brlt : Address := .contract 1
def shareToken : Address := .contract 2
def admin : Address := .account 0
def operator : Address := .account 1
def seller : Address := .account 2
def payer : Address := .account 3
def investor : Address := .account 4
def bystander : Address := .account 5

def signedBy (a : Address) : Address → Bool := fun b => decide (b = a)

def funds : HeldTokens :=
  { HeldTokens.empty with
    totalSupply := 3000
    balances := ((Tally.empty.add investor 1000).add bystander 1000).add payer 1000 }

def tokens : MockBrltTokens := fun t =>
  if t = brlt then
    ⟨some admin, true, funds⟩
  else if t = shareToken then
    ⟨some pool, true, .empty⟩
  else
    .new heldTokens

def ledger : Ledger MockBrltTokens := .deployed tokens

def hash (n : Nat) : BytesN 32 := Vector.replicate 32 (UInt8.ofNat n)

def initializes : Input := .invoke ⟨signedBy admin, 0, .initializePool admin operator brlt shareToken⟩

def deposits (who : Address) (amount : Int) : Input := .invoke ⟨signedBy who, 0, .deposit who amount⟩

def withdraws (who : Address) (shares : Int) : Input := .invoke ⟨signedBy who, 0, .withdraw who shares⟩

def buys (n : Nat) (advance : Int) : Input :=
  .invoke ⟨signedBy operator, 0, .buyTokenizedInvoice operator seller (hash n) advance advance 0 0⟩

def repays (n : Nat) (amount : Int) : Input := .repay (signedBy payer) payer (hash n) amount

def settles (n : Nat) (principal : Int) : Input :=
  .invoke ⟨signedBy operator, 0, .settleInvoiceInPool operator (hash n) principal⟩

theorem tokens_nonneg (a : Address) : 0 ≤ mockBrlt.balance tokens a pool := by
  show (0 : Int) ≤ (tokens a).base.balances.get pool
  unfold tokens
  split
  · decide
  · split <;> decide

end Deployment
end CredBridge.Contracts.LiquidityPool
