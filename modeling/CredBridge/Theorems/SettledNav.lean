import CredBridge.Api.InvoiceHash
import CredBridge.Api.PixEffects
import CredBridge.Contracts.PoolRuns

/-! # The NAV when a receivable is settled

Settling an invoice in the pool takes its principal off, and no step of a callback pays the pool. The identifier of a
receivable is a UUID, of which only four bytes reach the pool, where a hash has 32; so a settlement that reaches the
simulation ends there, and a callback whose processing completes has left the pool as it was. -/

namespace CredBridge.Contracts.LiquidityPool

/-- A settlement lowers the NAV by the principal that it takes off. -/
theorem settleInvoiceInPool_nav {τ : Type} {T : TokenContracts τ} {self : Address} {env : Env} {w w' : World τ}
    {operator : Address} {hash : BytesN 32} {principal : Int}
    (h : settleInvoiceInPool env w operator hash principal = .ok w') :
    ∃ st st', w.state? = some st ∧ w'.state? = some st' ∧
      w'.nav T self st' = w.nav T self st - min principal st.totalPrincipal := by
  obtain ⟨st, hst, -, -, -, htokens, hstorage⟩ := settleInvoiceInPool_inv h
  refine ⟨st, _, hst, state?_saveState hst hstorage rfl, ?_⟩
  unfold World.nav World.cash
  rw [htokens]
  dsimp only
  split
  · omega
  · omega

end CredBridge.Contracts.LiquidityPool

namespace CredBridge.Api
open Concurrent Contracts Machine Result Submission

/-- What moves the database and the ledger: the API's calls, receivables that are created with a new UUID and changed
    later, and whatever else is done on the ledger and in the other tables. -/
inductive JointOp (τ ν : Type) where
  | api (op : Op PixRequest PixReply)
  | createReceivable (id : Uuid) (data : ReceivableRow)
  | updateReceivable (id : String) (change : ReceivableRow → ReceivableRow)
  | others (s : PixState (Ledger τ ν))

section Joint
variable {τ ν : Type} (env : PixEnv (Ledger τ ν))

/-- No update of a receivable changes its identifier. -/
def jointStep (c : Config (PixState (Ledger τ ν)) PixCall) :
    JointOp τ ν → Except Refused (Config (PixState (Ledger τ ν)) PixCall)
  | .api op => (pixApi env).step c op
  | .createReceivable id data =>
    pure { c with shared := { c.shared with receivables := c.shared.receivables ++ [{ data with id := id.text }] } }
  | .updateReceivable id change =>
    pure { c with shared := c.shared.updateReceivable id fun r => { change r with id := r.id } }
  | .others s => pure { c with shared := { s with receivables := c.shared.receivables } }

/-- The handling of a collection callback, from the state where it arrives. -/
def processCollectionCallback (dto : PixCollectionCallback) (replies : List PixReply) (s : PixState (Ledger τ ν)) :
    PixState (Ledger τ ν) :=
  (pixApi env).finish ((pixApi env).start (.callback (.collection dto)) s) replies

/-- A pool that has a state has one afterwards, with at least its NAV. -/
def NavKept (T : TokenContracts τ) (self : Address) (l l' : Ledger τ ν) : Prop :=
  ∀ st, l.pool.state? = some st → ∃ st' ∈ l'.pool.state?, l.pool.nav T self st ≤ l'.pool.nav T self st'

end Joint

/-! ### Identifiers -/

def ReceivablesHaveUuids {σ : Type} (s : PixState σ) : Prop := ∀ r ∈ s.receivables, ∃ id : Uuid, r.id = id.text

section Identifiers
variable {σ : Type} {env : PixEnv σ} {s s' : PixState σ} {call : PixCall} {reply : PixReply}

def PixState.receivableIds (s : PixState σ) : List String := s.receivables.map (·.id)

theorem ReceivablesHaveUuids.of_ids (hs : ReceivablesHaveUuids s) (hids : s'.receivableIds = s.receivableIds) :
    ReceivablesHaveUuids s' := by
  intro r hr
  have hmem : r.id ∈ s.receivableIds := hids ▸ List.mem_map_of_mem hr
  obtain ⟨r', hr', hid⟩ := List.mem_map.mp hmem
  obtain ⟨id, htext⟩ := hs r' hr'
  exact ⟨id, hid.symm.trans htext⟩

theorem updateReceivable_ids {id : String} {change : ReceivableRow → ReceivableRow} (hchange : ∀ r, (change r).id = r.id) :
    (s.updateReceivable id change).receivableIds = s.receivableIds :=
  Table.map_key_modify fun r hr => (hchange r).trans hr

theorem execute_receivableIds (value : String) : (call.execute env value s).receivableIds = s.receivableIds := by
  cases call with
  | recordEvent | createTransaction =>
    simp only [PixCall.execute]
    split <;> rfl
  | orderWithdrawal =>
    simp only [PixCall.execute, PixState.orderWithdrawal]
    split <;> rfl
  | markSettled => exact updateReceivable_ids fun _ => rfl
  | _ => rfl

theorem resume_receivableIds (reply : PixReply) (s : PixState σ) :
    (resumePixCall env call reply s).1.receivableIds = s.receivableIds := by
  refine resume_keeps PixState.receivableIds (fun _ _ => rfl) execute_receivableIds (fun chain _ _ => ?_)
    (fun txHash _ => ?_) reply <;> cases call <;> rfl

theorem start_receivableIds (request : PixRequest) (s : PixState σ) :
    (startPixCall env request s).1.receivableIds = s.receivableIds := by
  cases startPixCall_received env request s with
  | recording _ hr | refused _ _ hr | burning _ _ _ _ hr => rw [hr]
  | answered _ _ hr | moved _ _ hr =>
    rw [hr]
    rfl

end Identifiers

section Joint
variable {τ ν : Type} {env : PixEnv (Ledger τ ν)}

theorem jointStep_uuids {c c' : Config (PixState (Ledger τ ν)) PixCall} {op : JointOp τ ν}
    (hc : ReceivablesHaveUuids c.shared) (hstep : jointStep env c op = .ok c') : ReceivablesHaveUuids c'.shared := by
  cases op with
  | api op =>
    cases step_moved hstep with
    | start request hop hc' =>
      subst hop hc'
      exact hc.of_ids (start_receivableIds request c.shared)
    | resume i reply call rest hop hcall hcalls hc' =>
      subst hop hc'
      exact hc.of_ids (resume_receivableIds reply c.shared)
    | crash i call rest hop hcalls hc' =>
      subst hop hc'
      exact hc
  | createReceivable id data =>
    cases pure_eq_ok.mp hstep
    intro r hr
    rcases List.mem_append.mp hr with hr | hr
    · exact hc r hr
    · exact ⟨id, congrArg (fun r : ReceivableRow => r.id) (List.mem_singleton.mp hr)⟩
  | updateReceivable id change =>
    cases pure_eq_ok.mp hstep
    exact hc.of_ids (updateReceivable_ids fun _ => rfl)
  | others s =>
    cases pure_eq_ok.mp hstep
    exact hc

theorem reachable_uuids {s : PixState (Ledger τ ν)} (hs : s.receivables = []) (ops : List (JointOp τ ν)) :
    ReceivablesHaveUuids (run (jointStep env) ⟨s, []⟩ ops).shared := by
  refine run_of_step (I := fun c : Config (PixState (Ledger τ ν)) PixCall => ReceivablesHaveUuids c.shared)
    (fun _ _ _ hc hstep => jointStep_uuids hc hstep) ?_ ops
  intro r hr
  change r ∈ s.receivables at hr
  rw [hs] at hr
  cases hr

end Joint

/-! ### A callback alone -/

section Callback
variable {σ : Type} {env : PixEnv σ} {s : PixState σ} {call next : PixCall} {dto : PixCollectionCallback}

/-- A call of a collection callback that sends no transaction. -/
structure OffChain (env : PixEnv σ) (dto : PixCollectionCallback) (call : PixCall) : Prop where
  callback : call.callback? = some (.collection dto)
  sendsNone : call.submits env = none

theorem settleInvoice_offChain {now : String} {collection : Option ReceivableCollection}
    (hs : ReceivablesHaveUuids s) (h : settleInvoice env now s dto collection = .next next) :
    next.submits env = none := by
  unfold settleInvoice at h
  cases hfind : s.findReceivable dto.receivableId with
  | none =>
    rw [hfind] at h
    cases h
  | some receivable =>
    rw [hfind] at h
    dsimp only at h
    split at h
    · obtain ⟨_, _, rfl⟩ := afterSettlement_follows h
      rfl
    · obtain ⟨id, hid⟩ := hs receivable (List.mem_of_find?_eq_some hfind)
      split at h
      · cases h
      · cases h
        rfl
      · next calls hsettle =>
        obtain ⟨hash, hhash, -⟩ := settleInvoiceInPool_hash (r := receivable.toReceivable) hsettle
        rw [settledHash, hid, bytesN32_uuid] at hhash
        cases hhash

theorem proceed_offChain {value : String} (hs : ReceivablesHaveUuids s) (hcall : OffChain env dto call)
    (h : call.proceed env value s = .next next) : next.submits env = none := by
  obtain ⟨hcallback, hsendsNone⟩ := hcall
  cases call with
  | recordEvent callback =>
    cases hcallback
    simp only [PixCall.proceed] at h
    split at h
    · cases h
    · split at h <;> cases h
      rfl
  | findCollection | findReceivable =>
    simp only [PixCall.proceed] at h
    split at h <;> cases h <;> rfl
  | findSettled => exact settleInvoice_offChain hs h
  | createSettlement =>
    obtain ⟨_, _, rfl⟩ := afterSettlement_follows h
    rfl
  | markPaid | auditPaid | markSettled =>
    cases h
    rfl
  | settleOnChain => cases hsendsNone
  | recordTxHash => cases h
  | _ => cases hcallback

theorem start_offChain (env : PixEnv σ) (dto : PixCollectionCallback) (s : PixState σ) :
    (startPixCall env (.callback (.collection dto)) s).1.chain = s.chain ∧
      ∀ next ∈ (startPixCall env (.callback (.collection dto)) s).2, OffChain env dto next := by
  refine ⟨?_, fun next hnext => ?_⟩
  · cases startPixCall_received env (.callback (.collection dto)) s with
    | answered _ _ hr =>
      rw [hr]
      rfl
    | recording _ hr => rw [hr]
  · rcases start_next hnext with ⟨callback, hcallback, rfl⟩ | ⟨_, _, _, hrequest, -⟩
    · cases hcallback
      exact ⟨rfl, rfl⟩
    · cases hrequest

/-- Where identifiers are UUIDs, a collection callback stays off the chain, and leaves it as it was. -/
theorem resume_offChain (hs : ReceivablesHaveUuids s) (hcall : OffChain env dto call) (reply : PixReply) :
    (resumePixCall env call reply s).1.chain = s.chain ∧
      ∀ next ∈ (resumePixCall env call reply s).2, OffChain env dto next := by
  have hnone : ∀ calls, call.submits env ≠ some calls := fun calls h => by
    rw [hcall.sendsNone] at h
    cases h
  constructor
  · exact resume_keeps PixState.chain (fun _ _ => rfl) (fun value => (execute_untouched value).2) (fun _ calls h => absurd h (hnone calls))
      (fun txHash s' => by cases call <;> rfl) reply
  · have hsends := resume_establishes (P := fun _ call => call.submits env = none) hcall.sendsNone
      (fun _ _ h => proceed_offChain hs hcall h)
      (fun _ _ _ h => by cases call <;> cases h <;> rfl)
      (fun _ _ _ h => by
        cases call with
        | settleOnChain => exact absurd rfl (hnone _)
        | mint | burn => cases hcall.callback
        | _ => cases h) reply
    exact fun next hnext => ⟨(next_callback hnext).trans hcall.callback, hsends next hnext⟩

end Callback

theorem processCollectionCallback_chain {τ ν : Type} {env : PixEnv (Ledger τ ν)} {s : PixState (Ledger τ ν)}
    {dto : PixCollectionCallback} {replies : List PixReply} (hs : ReceivablesHaveUuids s) :
    (processCollectionCallback env dto replies s).chain = s.chain := by
  refine (finish_of_step (pixApi env) (I := fun s' => s'.chain = s.chain ∧ ReceivablesHaveUuids s')
    (F := fun _ call => OffChain env dto call) (fun call reply s' hI hcall => ?_) _ ?_ replies).1
  · obtain ⟨hchain, hnext⟩ := resume_offChain hI.2 hcall reply
    exact ⟨⟨hchain.trans hI.1, hI.2.of_ids (resume_receivableIds reply s')⟩, hnext⟩
  · obtain ⟨hchain, hnext⟩ := start_offChain env dto s
    exact ⟨⟨hchain, hs.of_ids (start_receivableIds _ s)⟩, hnext⟩

/-- From every state that the database and the ledger reach, the handling of a collection callback keeps the NAV of the
    pool, whatever it is answered and whether or not it completes. -/
theorem settling_never_lowers_nav {τ ν : Type} (env : PixEnv (Ledger τ ν)) (T : TokenContracts τ) (self : Address)
    (s : PixState (Ledger τ ν)) (hs : s.receivables = []) (ops : List (JointOp τ ν)) (dto : PixCollectionCallback)
    (replies : List PixReply) :
    NavKept T self (run (jointStep env) ⟨s, []⟩ ops).shared.chain
      (processCollectionCallback env dto replies (run (jointStep env) ⟨s, []⟩ ops).shared).chain := by
  intro st hst
  rw [processCollectionCallback_chain (reachable_uuids hs ops)]
  exact ⟨st, hst, le_refl _⟩

section Examples
open LiquidityPool.Deployment

/-- The chain is there, but the API has no pool contract set. -/
def unsetPoolEnv : PixEnv (Ledger MockBrltTokens OwnedTokens) where
  toStellarEnv := testStellar
  poolContractConfigured := false
  platformAddress := operator
  address _ := seller
  users := testUsers
  fallbackUser := none
  execute time tx l := l.execute ⟨mockBrlt, ownedTokens, .contract 3, pool⟩ time tx

def fundedLedger : Ledger MockBrltTokens OwnedTokens where
  nfe := NfeTokenization.construct OwnedTokens.empty operator
  pool := (run (LiquidityPool.Ledger.step mockBrlt pool) ledger [initializes, deposits investor 100]).world

def tokenizedId : Uuid :=
  .ofGroups (List.replicate 8 'a') (List.replicate 4 'b') (List.replicate 4 'c') (List.replicate 4 'd')
    (List.replicate 12 'e')
    ⟨hexGroup_replicate rfl, hexGroup_replicate rfl, hexGroup_replicate rfl, hexGroup_replicate rfl,
      hexGroup_replicate rfl⟩

def tokenizedReceivable : ReceivableRow where
  id := ""
  userId := "pme"
  value := 60
  status := .tokenized
  debtorName := "debtor"
  debtorDocument := "12345678000195"
  documentHash := none
  dueDate := 1798761600000

def tokenizedPaid : PixCollectionCallback where
  eventId := "event"
  collectionOrderId := "collection"
  receivableId := tokenizedId.text
  identifier := "identifier"
  status := "PAID"
  amount := 60
  endToEndId := none
  paidAt := none

/-- The receivable is settled in the database alone. -/
theorem settling_never_lowers_nav_unset :
    let s := (run (jointStep unsetPoolEnv) ⟨{ chain := fundedLedger }, []⟩
      [.createReceivable tokenizedId tokenizedReceivable]).shared
    let s' := processCollectionCallback unsetPoolEnv tokenizedPaid (List.replicate 8 (.ok "1")) s
    .collection tokenizedPaid ∈ s'.acknowledged ∧ s'.settlements.length = 1 ∧
      NavKept mockBrlt pool s.chain s'.chain :=
  ⟨by decide +kernel, by decide +kernel,
    settling_never_lowers_nav unsetPoolEnv mockBrlt pool { chain := fundedLedger } rfl
      [.createReceivable tokenizedId tokenizedReceivable] tokenizedPaid _⟩

end Examples

end CredBridge.Api
