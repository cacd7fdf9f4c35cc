import CredBridge.Theorems.ForwardReceivables
import CredBridge.Theorems.LedgerAdvances

/-! # The database and the chain

A receivable is tokenized after its NF-e, and active after the pool's purchase, as its calls wait for the chain and write
then. Nothing else ties the two: `assign` activates without a purchase, a settlement never settles the NF-e, the hash of
an invoice is its last document's, and whoever holds an NF-e lists it without asking the API. -/

namespace CredBridge.Api
open Concurrent Contracts Machine Result Submission
open NfeTokenization (statusOf tokenOwner Kept)

section Property
variable {τ ν : Type}

/-- The API on the contracts' ledger. -/
def CreditEnv.onLedger (D : LedgerContracts τ ν) (env : CreditEnv (Ledger τ ν)) : CreditEnv (Ledger τ ν) :=
  { env with pix := { env.pix with execute := fun time calls l => l.execute D time calls } }

/-- The pool has bought an invoice with the hash that the API buys the receivable with. -/
def Bought (l : Ledger τ ν) (r : Receivable) : Prop :=
  ∃ hash, bytesN32 (boughtHash r) = some hash ∧ hash ∈ l.pool.storage.processedInvoice

structure ReceivableRow.InStep (l : Ledger τ ν) (r : ReceivableRow) : Prop where
  tokenized : r.status = .tokenized → statusOf r.id l.nfe = some .active
  active : r.status = .active → Bought l r.toReceivable
  settled : r.status = .other "settled" → statusOf r.id l.nfe = some .settled

/-- Every receivable is where its status says on the chain too, and the token of a settled one is burned. -/
def RefinesChain (N : NonFungible ν) (s : CreditState (Ledger τ ν)) : Prop :=
  ∀ id r, s.findReceivable id = some r →
    r.InStep s.chain ∧ (r.status = .other "settled" → tokenOwner N s.chain.nfe id = none)

def RefinesWhenIdle (N : NonFungible ν) (c : Config (CreditState (Ledger τ ν)) CreditCall) : Prop :=
  c.calls = [] → RefinesChain N c.shared

/-! The condition -/

/-- The receivable is validated, and not assigned yet. -/
def CreditState.Unassigned (s : CreditState (Ledger τ ν)) (key : String) : Prop :=
  ∃ r ∈ s.findReceivable key, r.status ∈ [.validated, .tokenized]

def CreditState.Spares (s : CreditState (Ledger τ ν)) (tx : LedgerCalls) : Prop :=
  ∀ call ∈ tx.calls, ∀ key ∈ call.retires?, ¬s.Unassigned key

/-- The transaction that a reply is about. -/
def CreditCall.sends {σ : Type} (env : CreditEnv σ) : CreditCall → CreditReply → Option LedgerCalls
  | .pix call, .pix (.submitted ..) => call.submits env.pix
  | .receivable ⟨[], step⟩, .receivable (.submitted ..) => (step.submits env).bind (·.toOption)
  | _, _ => none

/-- An assignment finds the invoice bought, or with the hash that it had when it was bought, and the hash of an active
    receivable stays. -/
def ReceivableStep.FindsOnChain (s : CreditState (Ledger τ ν)) : ReceivableStep → Prop
  | .setAssigned r _ _ => ∀ row ∈ s.findReceivable r.id, Bought s.chain row.toReceivable
  | .setBought r _ _ => ∀ row ∈ s.findReceivable r.id, row.documentHash = r.documentHash
  | .setDocumentHash data =>
    ∀ row ∈ s.findReceivable data.receivableId, row.status = .active → row.documentHash = some data.hash
  | _ => True

/-- A settlement finds the NF-e settled. -/
def FindsOnChain (s : CreditState (Ledger τ ν)) : CreditCall → CreditReply → Prop
  | .receivable ⟨[], step⟩, .receivable reply => reply.Executes → step.FindsOnChain s
  | .pix (.markSettled _ _ receivable _), .pix reply =>
    reply.Executes → statusOf receivable.id s.chain.nfe = some .settled
  | _, _ => True

/-- Nobody else lists or settles the NF-e of a receivable that is not assigned yet. -/
def SparesUnassigned (s : CreditState (Ledger τ ν)) : CreditRequest → Prop
  | .receivable (.transact _ tx) => s.Spares tx
  | _ => True

structure FollowsChain (env : CreditEnv (Ledger τ ν)) (s : CreditState (Ledger τ ν)) (call : CreditCall)
    (reply : CreditReply) : Prop where
  checked : FindsChecked env s call reply
  onChain : FindsOnChain s call reply
  spares : ∀ tx ∈ call.sends env reply, s.Spares tx

end Property

/-! ### What a step does -/

/-- What a step does to the receivables and to the chain. -/
inductive Touches {τ ν : Type} (D : LedgerContracts τ ν) (s s' : CreditState (Ledger τ ν)) : Prop where
  | nothing (hrows : s'.receivables = s.receivables) (hchain : s'.chain = s.chain)
  | included (time : Nat) (tx : LedgerCalls) (hspares : s.Spares tx) (hexecute : s.chain.execute D time tx = .ok s'.chain)
      (hrows : s'.receivables = s.receivables)
  | written (id : String) (change : ReceivableRow → ReceivableRow) (hid : ∀ r, (change r).id = r.id)
      (hrow : ∀ r ∈ s.findReceivable id, r.InStep s.chain → (change r).InStep s.chain)
      (hrows : s'.receivables = (s.toPixState.updateReceivable id change).receivables) (hchain : s'.chain = s.chain)
  | created (row : ReceivableRow) (hpending : row.status = .pending) (hrows : s'.receivables = s.receivables ++ [row])
      (hchain : s'.chain = s.chain)

/-- Where the receivables are in step with the chain, so is what holds of the chain alone. -/
structure Tracked {τ ν : Type} (N : NonFungible ν) (issued : ν → Nat → Prop) (platform : Address)
    (s : CreditState (Ledger τ ν)) : Prop where
  inStep : ∀ id r, s.findReceivable id = some r → r.InStep s.chain
  kept : Kept N issued platform s.chain.nfe

/-- A status moves along its edges, and the chain goes on, sparing the NF-es of what is not assigned yet. -/
structure MovesOn {τ ν : Type} (s s' : CreditState (Ledger τ ν)) : Prop where
  statuses : StatusesStep s.toPixState s'.toPixState
  chain : s.chain.Advances s.Unassigned s'.chain

section Touches
variable {τ ν : Type} {D : LedgerContracts τ ν} {s s' : CreditState (Ledger τ ν)} {l : Ledger τ ν} {r : ReceivableRow}
  {issued : ν → Nat → Prop} {platform : Address}

theorem findReceivable_of_rows {id : String} (h : s'.receivables = s.receivables) :
    s'.findReceivable id = s.findReceivable id := by
  unfold PixState.findReceivable
  rw [h]

theorem Bought.of_documentHash {r r' : Receivable} (hhash : r'.documentHash = r.documentHash) (h : Bought l r) :
    Bought l r' := by
  unfold Bought boughtHash at h ⊢
  rwa [hhash]

theorem ReceivableRow.InStep.of_pending (h : r.status = .pending) : r.InStep l := by
  constructor <;> intro hstatus <;> cases h.symm.trans hstatus

theorem ReceivableRow.InStep.advances {l' : Ledger τ ν} {spared : String → Prop} (hr : r.InStep l)
    (hspared : r.status = .tokenized → spared r.id) (h : l.Advances spared l') : r.InStep l' where
  tokenized hstatus := h.active r.id (hspared hstatus) (hr.tokenized hstatus)
  active hstatus := by
    obtain ⟨hash, hbytes, hmem⟩ := hr.active hstatus
    exact ⟨hash, hbytes, h.processed hmem⟩
  settled hstatus := h.settled r.id (hr.settled hstatus)

theorem Touches.advances (h : Touches D s s') : s.chain.Advances s.Unassigned s'.chain := by
  cases h with
  | nothing hrows hchain | written _ _ _ _ _ hchain | created _ _ _ hchain =>
    rw [hchain]
    exact .refl s.chain
  | included time tx hspares hexecute hrows => exact Ledger.execute_advances hexecute hspares

theorem Touches.inStep (h : Touches D s s') (hs : ∀ id r, s.findReceivable id = some r → r.InStep s.chain) :
    ∀ id r, s'.findReceivable id = some r → r.InStep s'.chain := by
  intro id r hr
  have hadvances := h.advances
  cases h with
  | nothing hrows hchain =>
    rw [findReceivable_of_rows hrows] at hr
    exact hchain ▸ hs id r hr
  | included time tx hspares hexecute hrows =>
    rw [findReceivable_of_rows hrows] at hr
    refine (hs id r hr).advances (fun hstatus => ⟨r, ?_, by simp [hstatus]⟩) hadvances
    rw [id_of_findReceivable hr]
    exact hr
  | written id' change hid hrow hrows hchain =>
    have hupdate : s'.findReceivable id = (s.toPixState.updateReceivable id' change).findReceivable id := by
      unfold PixState.findReceivable
      rw [hrows]
    rw [hupdate, findReceivable_update hid] at hr
    obtain ⟨row, hfind, rfl⟩ := Option.map_eq_some_iff.mp hr
    rw [hchain]
    split
    · next hsame =>
      have hkey : id' = id := hsame.symm.trans (id_of_findReceivable hfind)
      exact hrow row (hkey ▸ hfind) (hs id row hfind)
    · exact hs id row hfind
  | created row hpending hrows hchain =>
    have hfind : (s.findReceivable id).or (if row.id = id then some row else none) = some r := by
      rw [← hr]
      unfold PixState.findReceivable Table.find
      rw [hrows, List.find?_append]
      simp
    rw [hchain]
    rcases Option.or_eq_some_iff.mp hfind with hold | ⟨-, hnew⟩
    · exact hs id r hold
    · split at hnew
      · cases hnew
        exact .of_pending hpending
      · cases hnew

theorem Touches.tracked (hN : D.nonFungible.Lawful) (hS : D.nonFungible.Sequential issued) (h : Touches D s s')
    (hs : Tracked D.nonFungible issued platform s) : Tracked D.nonFungible issued platform s' where
  inStep := h.inStep hs.inStep
  kept := by
    cases h with
    | nothing hrows hchain | written _ _ _ _ _ hchain | created _ _ _ hchain => exact hchain ▸ hs.kept
    | included time tx hspares hexecute hrows => exact Ledger.execute_kept hN hS hs.kept hexecute

end Touches

/-! ### What a call has done -/

section Calls
variable {τ ν : Type} {s s' : CreditState (Ledger τ ν)} {call : CreditCall}

def CreditState.PastPending (s : CreditState (Ledger τ ν)) (id : String) : Prop :=
  ∃ r ∈ s.findReceivable id, r.status ≠ .pending

/-- A tokenization that is to be written has left an active NF-e, and a purchase a hash that the pool keeps. -/
def ReceivableStep.Sound (s : CreditState (Ledger τ ν)) : ReceivableStep → Prop
  | .invokeTokenize r => s.PastPending r.id
  | .setTokenized r _ => s.PastPending r.id ∧
    ∀ row ∈ s.findReceivable r.id, row.status = .validated → statusOf r.id s.chain.nfe = some .active
  | .setBought r _ _ => Bought s.chain r.toReceivable
  | _ => True

def CreditCall.Sound (s : CreditState (Ledger τ ν)) : CreditCall → Prop
  | .receivable call => call.step.Sound s
  | call => call.FoundActive s

theorem CreditCall.Sound.foundActive (h : call.Sound s) : call.FoundActive s := by
  cases call with
  | receivable => trivial
  | pix | purchase => exact h

theorem CreditState.PastPending.kept {id : String} (h : s.PastPending id)
    (hstep : StatusesStep s.toPixState s'.toPixState) : s'.PastPending id := by
  obtain ⟨r, hr, hstatus⟩ := h
  obtain ⟨r', hr', hsame | hedge⟩ := hstep id r hr
  · exact ⟨r', hr', hsame ▸ hstatus⟩
  · refine ⟨r', hr', fun hpending => ?_⟩
    rw [hpending] at hedge
    simp [statusEdges] at hedge

theorem ReceivableStep.Sound.kept {step : ReceivableStep} (hmoves : MovesOn s s') (h : step.Sound s) : step.Sound s' := by
  cases step with
  | invokeTokenize r => exact CreditState.PastPending.kept h hmoves.statuses
  | setTokenized r txHash =>
    obtain ⟨hpast, hactive⟩ := h
    refine ⟨hpast.kept hmoves.statuses, fun row' hrow' hvalidated => ?_⟩
    obtain ⟨row, hrow, hstatus⟩ := hpast
    -- The receivable was past pending, so that it is validated now means that it was before.
    obtain ⟨r', hr', hsame | hedge⟩ := hmoves.statuses r.id row hrow
    · cases hr'.symm.trans hrow'
      have hbefore : row.status = .validated := hsame.symm.trans hvalidated
      exact hmoves.chain.active r.id ⟨row, hrow, by simp [hbefore]⟩ (hactive row hrow hbefore)
    · cases hr'.symm.trans hrow'
      rw [hvalidated] at hedge
      simp [statusEdges] at hedge
      exact absurd hedge hstatus
  | setBought r txHash poolTxHash =>
    obtain ⟨hash, hbytes, hmem⟩ := h
    exact ⟨hash, hbytes, hmoves.chain.processed hmem⟩
  | _ => trivial

theorem CreditCall.Sound.kept (hmoves : MovesOn s s') (h : call.Sound s) : call.Sound s' := by
  cases call with
  | receivable call => exact ReceivableStep.Sound.kept hmoves h
  | pix call => trivial
  | purchase call =>
    have hfound : CreditCall.FoundActive s (.purchase call) := h
    exact hfound.kept hmoves.statuses

end Calls

/-! ### Receivables -/

section Receivables
variable {τ ν : Type} {D : LedgerContracts τ ν} {env : CreditEnv (Ledger τ ν)} {s : CreditState (Ledger τ ν)}
  {step : ReceivableStep}

theorem ReceivableRow.InStep.of_status {l : Ledger τ ν} {r : ReceivableRow} {status : ReceivableStatus}
    (hr : r.status = status) (hstatus : status ∉ [.tokenized, .active, .other "settled"]) : r.InStep l := by
  subst hr
  simp only [List.mem_cons, List.not_mem_nil, or_false, not_or] at hstatus
  obtain ⟨htokenized, hactive, hsettled⟩ := hstatus
  exact ⟨fun h => absurd h htokenized, fun h => absurd h hactive, fun h => absurd h hsettled⟩

/-- A write of a status that says nothing of the chain. -/
theorem Touches.setStatus (id : String) {status : ReceivableStatus}
    (hstatus : status ∉ [.tokenized, .active, .other "settled"]) : Touches D s (s.setStatus id status) :=
  .written id (·.setStatus status) (fun _ => rfl) (fun _ _ _ => .of_status rfl hstatus) rfl rfl

theorem Touches.setActive (id : String) (hbought : ∀ row ∈ s.findReceivable id, row.InStep s.chain →
    Bought s.chain row.toReceivable) : Touches D s (s.setStatus id .active) := by
  refine .written id (·.setStatus .active) (fun _ => rfl) (fun row hrow hinStep => ?_) rfl rfl
  exact ⟨nofun, fun _ => hbought row hrow hinStep, nofun⟩

theorem execute_touches (hstep : step.Sound s) (hchecked : step.FindsChecked s.toPixState)
    (honChain : step.FindsOnChain s) (drawn : Drawn) : Touches D s (step.execute env drawn s) := by
  cases step with
  | create userId dto =>
    simp only [ReceivableStep.execute]
    split
    · exact .nothing rfl rfl
    · exact .created _ rfl rfl rfl
  | validate id operatorId => exact .setStatus id (by decide)
  | reject id operatorId => exact .setStatus id (by decide)
  | setAssignmentPending id => exact .setStatus id (by decide)
  | setTokenized r txHash =>
    refine .written r.id (fun r => { r.setStatus .tokenized with txHash := some txHash }) (fun _ => rfl)
      (fun row hrow hinStep => ⟨fun _ => ?_, (by cases ·), (by cases ·)⟩) rfl rfl
    show statusOf row.id s.chain.nfe = some .active
    rcases hchecked row hrow with hvalidated | htokenized
    · rw [id_of_findReceivable hrow]
      exact hstep.2 row hrow (List.mem_singleton.mp hvalidated)
    · exact hinStep.tokenized htokenized
  | setAssigned r authorizationId txHash => exact .setActive r.id fun row hrow _ => honChain row hrow
  | setBought r txHash poolTxHash =>
    exact .setActive r.id fun row hrow _ => Bought.of_documentHash (honChain row hrow) hstep
  | setDocumentHash data =>
    refine .written data.receivableId ({ · with documentHash := some data.hash }) (fun _ => rfl)
      (fun row hrow hinStep => ?_) rfl rfl
    exact ⟨hinStep.tokenized, fun hactive => Bought.of_documentHash (honChain row hrow hactive).symm
      (hinStep.active hactive), hinStep.settled⟩
  | createDocument data =>
    simp only [ReceivableStep.execute]
    split <;> exact .nothing rfl rfl
  | _ => exact .nothing rfl rfl

theorem resumeReceivable_touches {call : ReceivableCall} (reply : ReceivableReply) (hcall : call.step.Sound s)
    (hfollows : FollowsChain (env.onLedger D) s (.receivable call) (.receivable reply)) :
    Touches D s (resumeReceivable (env.onLedger D) call reply s).1 := by
  obtain ⟨hchecked, honChain, hspares⟩ := hfollows
  have hresumed := resumeReceivable_resumed (env.onLedger D) call reply s
  generalize resumeReceivable (env.onLedger D) call reply s = r at hresumed ⊢
  cases hresumed with
  | waits _ _ _ hr =>
    rw [hr]
    exact .nothing rfl rfl
  | logged _ _ _ _ hr | never _ _ _ _ hr =>
    rw [hr, receivableGoOn_fst]
    exact .nothing rfl rfl
  | unlogged _ _ _ executed hr =>
    rw [hr, receivableGoOn_fst]
    cases executed <;> exact .nothing rfl rfl
  | ok step drawn hr =>
    rw [hr, receivableGoOn_fst]
    exact execute_touches hcall (hchecked trivial) (honChain trivial) drawn
  | threw step executed hr =>
    rw [hr, receivableGoOn_fst]
    cases executed with
    | none => exact .nothing rfl rfl
    | some drawn => exact execute_touches hcall (hchecked rfl) (honChain rfl) drawn
  | late step fate time txHash tx chain hsubmits hexecute hr
  | confirmed step fate time txHash tx chain hsubmits hexecute hr =>
    rw [hr, receivableGoOn_fst]
    exact .included time tx (hspares tx (by simp [CreditCall.sends, hsubmits, Except.toOption])) hexecute rfl

theorem startReceivable_touches {request : ReceivableRequest} (hspares : SparesUnassigned s (.receivable request)) :
    Touches D s (startReceivable (env.onLedger D) request s).1 := by
  cases request with
  | transact time tx =>
    simp only [startReceivable]
    cases hexecute : (env.onLedger D).pix.execute time tx s.chain with
    | error e => exact .nothing rfl rfl
    | ok chain => exact .included time tx hspares hexecute rfl
  | _ => exact .nothing rfl rfl

end Receivables

/-! ### Callbacks and purchases -/

section Others
variable {τ ν : Type} {D : LedgerContracts τ ν} {env : CreditEnv (Ledger τ ν)} {s : CreditState (Ledger τ ν)}

theorem goOn_chain {σ : Type} {s : PixState σ} {call : PixCall} (flow : Flow) : (call.goOn s flow).1.chain = s.chain := by
  cases flow with
  | next | raised => rfl
  | finished =>
    simp only [PixCall.goOn]
    split <;> rfl

/-- A reply to a call of the Pix handlers leaves the chain alone, or includes the call's transaction. -/
theorem resume_chain {σ : Type} (env : PixEnv σ) (s : PixState σ) (call : PixCall) (reply : PixReply) :
    (resumePixCall env call reply s).1.chain = s.chain ∨
      ∃ fate time txHash message tx, reply = .submitted fate time txHash message ∧ call.submits env = some tx ∧
        env.execute time tx s.chain = .ok (resumePixCall env call reply s).1.chain := by
  cases resumePixCall_stepped env call reply s with
  | waits _ hr =>
    rw [hr]
    exact .inl rfl
  | ok value _ hr =>
    rw [hr, goOn_chain]
    exact .inl (execute_untouched value).2
  | threw executed message hr =>
    rw [hr, goOn_chain]
    cases executed with
    | none => exact .inl rfl
    | some value => exact .inl (execute_untouched value).2
  | never _ _ _ _ _ _ _ hr =>
    rw [hr, goOn_chain]
    exact .inl rfl
  | late fate time txHash message tx chain hsubmits hland hr =>
    have hchain : (call.landed s chain).chain = chain := by cases call <;> rfl
    rw [hr, goOn_chain, hchain]
    exact .inr ⟨fate, time, txHash, message, tx, rfl, hsubmits, land_cases (.inl hland)⟩
  | confirmed fate time txHash message tx chain hsubmits hland hr =>
    have hchain : (call.confirmed env txHash (call.landed s chain)).1.chain = chain := by cases call <;> rfl
    rw [hr, goOn_chain, hchain]
    exact .inr ⟨fate, time, txHash, message, tx, rfl, hsubmits, land_cases (.inr hland)⟩

theorem resumePix_touches {call : PixCall} (reply : PixReply)
    (hfollows : FollowsChain (env.onLedger D) s (.pix call) (.pix reply)) :
    Touches D s { s with toPixState := (resumePixCall (env.onLedger D).pix call reply s.toPixState).1 } := by
  obtain ⟨hchecked, honChain, hspares⟩ := hfollows
  by_cases hsettles : ∃ dto collection receivable txHash, call = .markSettled dto collection receivable txHash
  · obtain ⟨dto, collection, receivable, txHash, rfl⟩ := hsettles
    have hwrite : statusOf receivable.id s.chain.nfe = some .settled → ∀ s' : CreditState (Ledger τ ν),
        s'.receivables = (s.toPixState.updateReceivable receivable.id fun r =>
          { r with status := .other "settled", paymentTxHash := some txHash }).receivables →
        s'.chain = s.chain → Touches D s s' := by
      refine fun hsettled s' => .written receivable.id _ (fun _ => rfl)
        fun row hrow _ => ⟨nofun, nofun, fun _ => ?_⟩
      show statusOf row.id s.chain.nfe = some .settled
      rw [id_of_findReceivable hrow]
      exact hsettled
    cases reply with
    | ok value => exact hwrite (honChain trivial) _ rfl rfl
    | threw executed message =>
      cases executed with
      | none => exact .nothing rfl rfl
      | some value => exact hwrite (honChain rfl) _ rfl rfl
    | submitted fate time txHash message => exact .nothing rfl rfl
  · have hrows : (resumePixCall (env.onLedger D).pix call reply s.toPixState).1.receivables = s.receivables :=
      resume_receivables reply fun dto collection receivable txHash h => hsettles ⟨dto, collection, receivable, txHash, h⟩
    rcases resume_chain (env.onLedger D).pix s.toPixState call reply with
      hchain | ⟨fate, time, txHash, message, tx, rfl, hsubmits, hexecute⟩
    · exact .nothing hrows hchain
    · exact .included time tx (hspares tx hsubmits) hexecute hrows

theorem resumePurchase_touches {call : PurchaseCall} (reply : PurchaseReply)
    (hfollows : FollowsChain (env.onLedger D) s (.purchase call) (.purchase reply)) :
    Touches D s (s.withPurchases
      (resumePurchase (env.onLedger D).purchase (env.onLedger D).custodialUsers call reply s.purchaseState).1) := by
  by_cases hreserve : ∃ investorUserId dto receivable, call = .reserve investorUserId dto receivable
  · obtain ⟨investorUserId, dto, wanted, rfl⟩ := hreserve
    have hchecked := hfollows.checked
    simp only [FindsChecked, resumePurchase] at hchecked ⊢
    cases hok : reserve (newInvestment (env.onLedger D).purchase investorUserId dto wanted reply.uuid) wanted
        s.purchaseState with
    | error e => exact .nothing (withPurchases_receivables rfl) rfl
    | ok p' =>
      rw [hok] at hchecked
      cases hcommitted : reply.committed with
      | false => exact .nothing (withPurchases_receivables rfl) rfl
      | true =>
        refine .written wanted.id (·.setStatus .active) (fun _ => rfl) (fun row hrow hinStep => ?_)
          (withPurchases_active (reserve_receivables hok)) rfl
        have hactive : row.status = .active := by
          simpa using hchecked rfl hcommitted row hrow
        exact ⟨(by cases ·), fun _ => hinStep.active hactive, (by cases ·)⟩
  · refine .nothing (withPurchases_receivables (resumePurchase_receivables reply _ ?_)) rfl
    exact fun investorUserId dto wanted h => hreserve ⟨investorUserId, dto, wanted, h⟩

end Others

/-! ### Where a call goes on -/

section Goes
variable {τ ν : Type} {D : LedgerContracts τ ν} {env : CreditEnv (Ledger τ ν)} {s s' : CreditState (Ledger τ ν)}
  {step : ReceivableStep} {call : ReceivableCall}

theorem checkStatus_eq_ok {id : String} {statuses : List ReceivableStatus} {missing refused : ApiError}
    {r : ReceivableRow} (h : checkStatus s id statuses missing refused = .ok r) :
    s.findReceivable id = some r ∧ r.status ∈ statuses := by
  obtain ⟨receivable, hfind, h⟩ := orThrow_bind_eq_ok.mp h
  obtain ⟨hstatus, h⟩ := throwIf_bind_eq_ok.mp h
  cases pure_eq_ok.mp h
  exact ⟨hfind, not_not.mp hstatus⟩

theorem pastPending_of_validated {id : String} {r : ReceivableRow} (h : checkValidated s id = .ok r) :
    s.PastPending r.id := by
  obtain ⟨hfind, hstatus⟩ := checkStatus_eq_ok h
  refine ⟨r, ?_, ?_⟩
  · rw [id_of_findReceivable hfind]
    exact hfind
  · rw [List.mem_singleton.mp hstatus]
    nofun

theorem startReceivable_sound {request : ReceivableRequest}
    (h : (startReceivable (env.onLedger D) request s).2 = some call) : call.step.Sound s := by
  cases request with
  | tokenize id =>
    obtain ⟨r, hcheck, rfl⟩ := Option.map_eq_some_iff.mp h
    exact pastPending_of_validated (toOption_eq_some.mp hcheck)
  | submitAssignment id unsignedXdr signatureHex =>
    obtain ⟨step, hcheck, rfl⟩ := Option.map_eq_some_iff.mp h
    obtain ⟨r, -, hcheck⟩ := bind_eq_ok.mp (toOption_eq_some.mp hcheck)
    obtain ⟨wallet, -, hcheck⟩ := bind_eq_ok.mp hcheck
    obtain ⟨tx, -, hcheck⟩ := bind_eq_ok.mp hcheck
    obtain rfl := pure_eq_ok.mp hcheck
    trivial
  | approveReceivable | rejectReceivable | requestAssignment | assign =>
    obtain ⟨r, -, rfl⟩ := Option.map_eq_some_iff.mp h
    trivial
  | create | createDocument =>
    cases h
    trivial
  | transact => cases h

/-- After a statement a call knows what it has checked, which is that a tokenization starts validated. -/
theorem proceed_sound {drawn : Drawn} (h : step.proceed (env.onLedger D) drawn s = .next call) :
    call.step.Sound (step.execute (env.onLedger D) drawn s) := by
  cases step with
  | findValidated id =>
    simp only [ReceivableStep.proceed] at h
    split at h
    · cases h
    · next r hcheck =>
      cases h
      exact pastPending_of_validated hcheck
  | create | authorize | consume =>
    simp only [ReceivableStep.proceed] at h
    split at h <;> cases h
    trivial
  | createDocument =>
    simp only [ReceivableStep.proceed] at h
    split at h
    · cases h
    · split at h <;> cases h <;> trivial
  | invokeTokenize | invokeTransfer | submitSigned | invokeBuy => cases h
  | _ =>
    cases h
    trivial

theorem rescue_sound (s : CreditState (Ledger τ ν)) (h : step.rescue = .next call) : call.step.Sound s := by
  unfold ReceivableStep.rescue at h
  split at h <;> cases h <;> trivial

/-- What a confirmed tokenization or purchase has left on the chain. -/
theorem confirmed_sound {submission : Except ApiError LedgerCalls} {tx : LedgerCalls} {chain : Ledger τ ν} {time : Nat}
    {txHash : String} (hstep : step.Sound s) (hsubmits : step.submits (env.onLedger D) = some submission)
    (htx : submission = .ok tx) (hexecute : s.chain.execute D time tx = .ok chain)
    (h : step.confirmed txHash = .next call) : call.step.Sound (s.landed chain) := by
  cases step with
  | invokeTokenize r =>
    cases h
    cases hsubmits
    obtain ⟨hash, value, dueDate, owner, -, hcalls⟩ := tokenizeNfe_hash htx
    exact ⟨hstep, fun _ _ _ => Ledger.invoke_tokenizes (Ledger.execute_single hcalls hexecute)⟩
  | invokeBuy r wallet assignmentTxHash =>
    cases h
    cases hsubmits
    let p : CheckedAssignment := ⟨r.toReceivable, wallet, ⟨"", tx⟩⟩
    obtain ⟨hash, seller, value, hbytes, hcalls⟩ := purchaseCalls_hash (p := p) htx
    exact ⟨hash, hbytes, Ledger.invoke_buys (Ledger.execute_single hcalls hexecute)⟩
  | invokeTransfer | submitSigned =>
    cases h
    trivial
  | _ => cases h

theorem resumeReceivable_sound {reply : ReceivableReply} {next : ReceivableCall} (hcall : call.step.Sound s)
    (hmoves : MovesOn s (resumeReceivable (env.onLedger D) call reply s).1)
    (h : (resumeReceivable (env.onLedger D) call reply s).2 = some next) :
    next.step.Sound (resumeReceivable (env.onLedger D) call reply s).1 := by
  have hresumed := resumeReceivable_resumed (env.onLedger D) call reply s
  generalize resumeReceivable (env.onLedger D) call reply s = r at hresumed hmoves h ⊢
  cases hresumed with
  | waits _ _ _ hr =>
    subst hr
    cases h
    exact hcall
  | logged _ _ _ _ hr =>
    subst hr
    obtain rfl := ReceivableFlow.next.inj (receivableGoOn_next h)
    exact ReceivableStep.Sound.kept hmoves hcall
  | ok step drawn hr =>
    subst hr
    rw [receivableGoOn_fst]
    exact proceed_sound (receivableGoOn_next h)
  | unlogged _ _ _ _ hr | threw _ _ hr | never _ _ _ _ hr | late _ _ _ _ _ _ _ _ hr =>
    subst hr
    exact rescue_sound _ (receivableGoOn_next h)
  | confirmed step fate time txHash tx chain hsubmits hexecute hr =>
    subst hr
    rw [receivableGoOn_fst]
    exact confirmed_sound hcall hsubmits rfl hexecute (receivableGoOn_next h)

end Goes

/-! ### Every run -/

section Runs
variable {τ ν : Type} {D : LedgerContracts τ ν} {env : CreditEnv (Ledger τ ν)} {s : CreditState (Ledger τ ν)}

theorem start_touches {request : CreditRequest} (hspares : SparesUnassigned s request) :
    Touches D s ((creditApi (env.onLedger D)).start request s).1 := by
  cases request with
  | pix request =>
    have hchain : (startPixCall (env.onLedger D).pix request s.toPixState).1.chain = s.chain := by
      cases startPixCall_received (env.onLedger D).pix request s.toPixState with
      | answered _ _ hr | recording _ hr | refused _ _ hr | burning _ _ _ _ hr | moved _ _ hr =>
        exact congrArg (fun r => r.1.chain) hr
    exact .nothing (start_receivables (env.onLedger D).pix request s.toPixState) hchain
  | purchase request =>
    exact .nothing (withPurchases_receivables (startPurchase_receivables env.runtime request s.purchaseState)) rfl
  | receivable request => exact startReceivable_touches hspares

theorem start_sound {request : CreditRequest} {call : CreditCall}
    (hmoves : MovesOn s ((creditApi (env.onLedger D)).start request s).1)
    (h : call ∈ ((creditApi (env.onLedger D)).start request s).2) :
    call.Sound ((creditApi (env.onLedger D)).start request s).1 := by
  cases request with
  | pix request =>
    obtain ⟨call, -, rfl⟩ := Option.map_eq_some_iff.mp h
    trivial
  | purchase request =>
    obtain ⟨call, hcall, rfl⟩ := Option.map_eq_some_iff.mp h
    exact (startPurchase_foundActive hcall).kept hmoves.statuses
  | receivable request =>
    obtain ⟨call, hcall, rfl⟩ := Option.map_eq_some_iff.mp h
    have hsound : CreditCall.Sound s (.receivable call) := startReceivable_sound hcall
    exact hsound.kept hmoves

theorem resume_touches {call : CreditCall} {reply : CreditReply} (hcall : call.Sound s)
    (hfollows : FollowsChain (env.onLedger D) s call reply) :
    Touches D s ((creditApi (env.onLedger D)).resume call reply s).1 := by
  cases call with
  | pix call =>
    cases reply with
    | pix reply => exact resumePix_touches reply hfollows
    | purchase | receivable => exact .nothing rfl rfl
  | purchase call =>
    cases reply with
    | purchase reply => exact resumePurchase_touches reply hfollows
    | pix | receivable => exact .nothing rfl rfl
  | receivable call =>
    cases reply with
    | receivable reply => exact resumeReceivable_touches reply hcall hfollows
    | pix | purchase => exact .nothing rfl rfl

theorem resume_sound {call next : CreditCall} {reply : CreditReply} (hcall : call.Sound s)
    (hmoves : MovesOn s ((creditApi (env.onLedger D)).resume call reply s).1)
    (h : next ∈ ((creditApi (env.onLedger D)).resume call reply s).2) :
    next.Sound ((creditApi (env.onLedger D)).resume call reply s).1 := by
  cases call with
  | pix call =>
    cases reply with
    | pix reply =>
      obtain ⟨next, -, rfl⟩ := Option.map_eq_some_iff.mp h
      trivial
    | purchase | receivable =>
      cases h
      exact hcall
  | purchase call =>
    cases reply with
    | purchase reply =>
      obtain ⟨next, hnext, rfl⟩ := Option.map_eq_some_iff.mp h
      exact resumePurchase_foundActive _ hnext
    | pix | receivable =>
      cases h
      exact hcall
  | receivable call =>
    cases reply with
    | receivable reply =>
      obtain ⟨next, hnext, rfl⟩ := Option.map_eq_some_iff.mp h
      exact resumeReceivable_sound hcall hmoves hnext
    | pix | purchase =>
      cases h
      exact hcall

theorem refinement_outline (D : LedgerContracts τ ν) (env : CreditEnv (Ledger τ ν)) {issued : ν → Nat → Prop}
    {platform : Address} (hN : D.nonFungible.Lawful) (hS : D.nonFungible.Sequential issued) :
    Outline (creditApi (env.onLedger D)) SparesUnassigned (FollowsChain (env.onLedger D))
      (Tracked D.nonFungible issued platform) (fun s call => call.Sound s) MovesOn where
  start request s hs hspares := by
    have htouches : Touches D s ((creditApi (env.onLedger D)).start request s).1 := start_touches hspares
    have hmoves := MovesOn.mk (start_statuses (env.onLedger D) request s) htouches.advances
    exact ⟨htouches.tracked hN hS hs, hmoves, fun _ => start_sound hmoves⟩
  resume call reply s hs hcall hfollows := by
    have htouches := resume_touches hcall hfollows
    have hstatuses := (resume_statuses_iff (env.onLedger D) reply hcall.foundActive).mpr hfollows.checked
    have hmoves := MovesOn.mk hstatuses htouches.advances
    exact ⟨htouches.tracked hN hS hs, hmoves, fun _ => resume_sound hcall hmoves⟩
  stable _ _ _ hmoves hcall := hcall.kept hmoves

theorem Tracked.refines {N : NonFungible ν} {issued : ν → Nat → Prop} {platform : Address}
    (hs : Tracked N issued platform s) : RefinesChain N s := by
  intro id r hr
  have hinStep := hs.inStep id r hr
  refine ⟨hinStep, fun hstatus => ?_⟩
  obtain ⟨nfeData, hfind, hsettled⟩ := Option.map_eq_some_iff.mp (hinStep.settled hstatus)
  rw [id_of_findReceivable hr] at hfind
  rw [NfeTokenization.tokenOwner_of_find hfind]
  exact hs.kept.burned id nfeData hfind hsettled

end Runs

/-- From empty tables and a new NF-e contract, whatever the pool has bought: where each write finds the chain as its call
    left or read it, and no transaction lists or settles an NF-e that is not assigned yet, the receivables are in step with
    the chain whenever no call is in progress. -/
theorem receivables_refine_chain {τ ν : Type} (D : LedgerContracts τ ν) (env : CreditEnv (Ledger τ ν))
    (issued : ν → Nat → Prop) (hN : D.nonFungible.Lawful) (hS : D.nonFungible.Sequential issued) (tokens : ν)
    (hempty : ∀ tokenId, D.nonFungible.ownerOf tokens tokenId = none) (platform : Address)
    (s : CreditState (Ledger τ ν)) (hrows : s.receivables = [])
    (hnfe : s.chain.nfe = NfeTokenization.construct tokens platform) (ops : List (Op CreditRequest CreditReply))
    (hfollows : Along (creditApi (env.onLedger D)).step (Allows SparesUnassigned (FollowsChain (env.onLedger D)))
      ⟨s, []⟩ ops) :
    Throughout (creditApi (env.onLedger D)).step (RefinesWhenIdle D.nonFungible) ⟨s, []⟩ ops := by
  have hstart : Tracked D.nonFungible issued platform s := by
    refine ⟨fun id r hr => ?_, ?_⟩
    · unfold PixState.findReceivable at hr
      rw [hrows] at hr
      cases hr
    · rw [hnfe]
      exact NfeTokenization.kept_construct hempty platform
  refine ((refinement_outline D env hN hS).throughout ⟨hstart, List.forall_mem_nil _⟩ hfollows).mono ?_
  exact fun c hc _ => hc.1.refines

section Examples

instance {τ ν : Type} (l : Ledger τ ν) (r : Receivable) : Decidable (Bought l r) :=
  inferInstanceAs (Decidable (∃ hash ∈ bytesN32 (boughtHash r), hash ∈ l.pool.storage.processedInvoice))

instance {τ ν : Type} (s : CreditState (Ledger τ ν)) (key : String) : Decidable (s.Unassigned key) :=
  inferInstanceAs (Decidable (∃ r ∈ s.findReceivable key, r.status ∈ [.validated, .tokenized]))

instance {τ ν : Type} (s : CreditState (Ledger τ ν)) (tx : LedgerCalls) : Decidable (s.Spares tx) :=
  inferInstanceAs (Decidable (∀ call ∈ tx.calls, ∀ key ∈ call.retires?, ¬s.Unassigned key))

instance {τ ν : Type} (s : CreditState (Ledger τ ν)) (request : CreditRequest) :
    Decidable (SparesUnassigned s request) := by
  unfold SparesUnassigned
  split <;> infer_instance

instance {σ : Type} (s : PixState σ) (id : String) (checked : List ReceivableStatus) (written : ReceivableStatus) :
    Decidable (Finds s id checked written) :=
  inferInstanceAs (Decidable (∀ r ∈ s.findReceivable id, r.status ∈ checked ∨ r.status = written))

instance {σ : Type} (s : PixState σ) (step : ReceivableStep) : Decidable (step.FindsChecked s) := by
  unfold ReceivableStep.FindsChecked
  split <;> infer_instance

instance : (reply : ReceivableReply) → Decidable reply.Executes
  | .ok _ => instDecidableTrue
  | .threw executed => inferInstanceAs (Decidable (executed.isSome = true))
  | .submitted .. => instDecidableFalse

instance : (reply : PixReply) → Decidable reply.Executes
  | .ok _ => instDecidableTrue
  | .threw executed _ => inferInstanceAs (Decidable (executed.isSome = true))
  | .submitted .. => instDecidableFalse

instance {σ : Type} (env : CreditEnv σ) (s : CreditState σ) (call : CreditCall) (reply : CreditReply) :
    Decidable (FindsChecked env s call reply) := by
  unfold FindsChecked
  split <;> infer_instance

instance {τ ν : Type} (s : CreditState (Ledger τ ν)) (step : ReceivableStep) : Decidable (step.FindsOnChain s) := by
  unfold ReceivableStep.FindsOnChain
  split <;> infer_instance

instance {τ ν : Type} (s : CreditState (Ledger τ ν)) (call : CreditCall) (reply : CreditReply) :
    Decidable (FindsOnChain s call reply) := by
  unfold FindsOnChain
  split <;> infer_instance

instance {τ ν : Type} (env : CreditEnv (Ledger τ ν)) (s : CreditState (Ledger τ ν)) (call : CreditCall)
    (reply : CreditReply) : Decidable (FollowsChain env s call reply) :=
  decidable_of_iff
    (FindsChecked env s call reply ∧ FindsOnChain s call reply ∧ ∀ tx ∈ call.sends env reply, s.Spares tx)
    ⟨fun ⟨hchecked, honChain, hspares⟩ => ⟨hchecked, honChain, hspares⟩,
      fun h => ⟨h.checked, h.onChain, h.spares⟩⟩

def creditContracts : LedgerContracts MockBrltTokens OwnedTokens :=
  ⟨mockBrlt, ownedTokens, .contract 0, .contract 1⟩

/-- The owner of a receivable signs over its NF-e; the pool is set, or not. -/
def ledgerEnv (poolContractConfigured : Bool) : CreditEnv (Ledger MockBrltTokens OwnedTokens) :=
  { testCreditEnv with
    pix := { testCreditEnv.pix with poolContractConfigured, execute := fun _ _ l => .ok l }
    tokenization :=
      { testCreditEnv.tokenization with
        poolContractConfigured
        fromXDR := fun _ =>
          some ⟨"hash", ⟨[.nfe (.transferOwnership invoiceId (.account 0))], fun a => a = .account 1⟩⟩ } }

def newLedger : Ledger MockBrltTokens OwnedTokens where
  nfe := NfeTokenization.construct OwnedTokens.empty (.account 0)
  pool :=
    { storage := ⟨true, some ⟨.account 0, .account 0, .contract 2, .contract 3, 0, 1000000000, false⟩, []⟩
      tokens := fun _ => ⟨some (.account 0), true, 1000000000, Tally.empty.add (.contract 1) 1000000000, fun _ _ => ⟨0, 0⟩⟩
      events := [] }

def included : Op CreditRequest CreditReply := .resume 0 (.receivable (.submitted .confirmed 0 "hash"))

def tokenizes : List (Op CreditRequest CreditReply) :=
  [.start (.receivable (.create "pme" ⟨60, "invoice", "debtor", "document", ""⟩)),
      .resume 0 (.receivable (.ok ⟨0, invoiceId⟩)), receivableDone,
      .start (.receivable (.approveReceivable invoiceId "operator"))] ++
    List.replicate 5 receivableDone ++ [included, receivableDone, receivableDone, receivableDone]

def assigns : List (Op CreditRequest CreditReply) :=
  [.start (.receivable (.submitAssignment invoiceId "xdr" "signature")), included, included] ++
    List.replicate 6 receivableDone

/-- A receivable that is created, tokenized, handed over and bought. -/
theorem receivables_refine_chain_assigned :
    let c := run (creditApi ((ledgerEnv true).onLedger creditContracts)).step ⟨{ chain := newLedger }, []⟩
      (tokenizes ++ assigns)
    c.calls.length = 0 ∧ (c.shared.findReceivable invoiceId).map (·.status) = some .active ∧
      Throughout (creditApi ((ledgerEnv true).onLedger creditContracts)).step
        (RefinesWhenIdle ownedTokens) ⟨{ chain := newLedger }, []⟩ (tokenizes ++ assigns) :=
  ⟨by decide +kernel, by decide +kernel,
    receivables_refine_chain creditContracts (ledgerEnv true) _ ownedTokens_lawful
      ownedTokens_sequential OwnedTokens.empty (fun _ => rfl) (.account 0) { chain := newLedger } rfl rfl
      (tokenizes ++ assigns) (by decide +kernel)⟩

theorem RefinesWhenIdle.settled {τ ν : Type} {N : NonFungible ν} {c : Config (CreditState (Ledger τ ν)) CreditCall}
    (h : RefinesWhenIdle N c) (hidle : c.calls.length = 0) (id : String)
    (hstatus : (c.shared.findReceivable id).map (·.status) = some (.other "settled")) :
    statusOf id c.shared.chain.nfe = some .settled := by
  obtain ⟨r, hr, hsettled⟩ := Option.map_eq_some_iff.mp hstatus
  rw [← id_of_findReceivable hr]
  exact (h (List.length_eq_zero_iff.mp hidle) id r hr).1.settled hsettled

theorem RefinesWhenIdle.bought {τ ν : Type} {N : NonFungible ν} {c : Config (CreditState (Ledger τ ν)) CreditCall}
    (h : RefinesWhenIdle N c) (hidle : c.calls.length = 0) (id : String)
    (hstatus : (c.shared.findReceivable id).map (·.status) = some .active) :
    ∃ r ∈ c.shared.findReceivable id, Bought c.shared.chain r.toReceivable := by
  obtain ⟨r, hr, hactive⟩ := Option.map_eq_some_iff.mp hstatus
  exact ⟨r, hr, (h (List.length_eq_zero_iff.mp hidle) id r hr).1.active hactive⟩

def isPaid : List (Op CreditRequest CreditReply) :=
  .start (.pix (.callback (.collection ⟨"event", "order", invoiceId, "identifier", "PAID", 60, none, none⟩))) ::
    List.replicate 7 (.resume 0 (.pix (.ok "1")))

def uploads : List (Op CreditRequest CreditReply) :=
  [.start (.receivable (.createDocument ⟨invoiceId, .invoice, "url", "1111111111111111"⟩)), receivableDone,
    receivableDone]

/-- The settlement of a tokenized receivable leaves its NF-e active; and the invoice of a receivable that was bought is
    uploaded anew. -/
theorem receivables_out_of_step :
    ¬Throughout (creditApi ((ledgerEnv false).onLedger creditContracts)).step (RefinesWhenIdle ownedTokens)
        ⟨{ chain := newLedger }, []⟩ (tokenizes ++ isPaid) ∧
      ¬Throughout (creditApi ((ledgerEnv true).onLedger creditContracts)).step (RefinesWhenIdle ownedTokens)
        ⟨{ chain := newLedger }, []⟩ (tokenizes ++ assigns ++ uploads) := by
  constructor
  · exact fun h => absurd (h.last.settled (by decide +kernel) invoiceId (by decide +kernel)) (by decide +kernel)
  · exact fun h => absurd (h.last.bought (by decide +kernel) invoiceId (by decide +kernel)) (by decide +kernel)

end Examples
end CredBridge.Api
