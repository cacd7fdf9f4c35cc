import CredBridge.Api.Transactions

/-! # Withdrawals and the burns that back them

A withdrawal order is created after the transaction that the user signed has landed, but what the transaction does
is not looked at, the same transaction can be submitted again, and another endpoint creates orders without any.
Where each withdrawal comes with a burn of its amount that no withdrawal has used, each order has a burn of its
own: the hash goes along with the order, and the orders and the calls with one hash are at most one together. -/

namespace CredBridge.Api
open Concurrent Machine Result Submission

section Condition
variable (env : StellarEnv) (users : String → Option User)

def Burns (userId : String) (amount : Rat) (tx : LedgerTx) : Prop :=
  ∃ address ∈ walletOf users userId, tx.effect = .burn address (env.stroops amount)

/-- Every withdrawal order has a burn on the ledger that no other order has. -/
def Backed (s : ApiState) : Prop :=
  ∃ burns : List LedgerTx, burns.Nodup ∧ burns ⊆ s.network.landed ∧
    List.Forall₂ (fun order tx => Burns env users order.ownerId order.amount tx) s.pixWithdrawals burns

def carriedHash (metadata : Option Json) : Option String :=
  match metadata.bind (·.field? "burnTxHash") with
  | some (.string hash) => some hash
  | _ => none

def PixWithdrawal.hash (order : PixWithdrawal) : Option String := carriedHash order.metadata

def ApiCall.hash : ApiCall → Option String
  | .sendBurn _ _ tx | .awaitBurn _ _ tx => some tx.hash
  | .createWithdrawal dto | .orderWithdrawal _ dto => carriedHash dto.metadata
  | _ => none

def ApiState.ordersWith (hash : String) (s : ApiState) : Nat := (s.pixWithdrawals.map (·.hash)).count (some hash)

def ApiCall.carries (hash : String) (call : ApiCall) : Nat := if call.hash = some hash then 1 else 0

def Unused (c : Config ApiState ApiCall) (hash : String) : Prop :=
  c.potential (ApiState.ordersWith hash) (ApiCall.carries hash) = 0

def Carries (s : ApiState) (userId : String) (amount : Rat) (metadata : Option Json) : Prop :=
  ∃ tx ∈ s.network.landed, Burns env users userId amount tx ∧ carriedHash metadata = some tx.hash

/-- Each withdrawal comes with a burn of its amount from the user's wallet that no withdrawal has used: with the signed
    transaction if it is submitted, and with the hash of one that has landed if it is ordered at once. -/
def BurnsFirst (c : Config ApiState ApiCall) : Op ApiRequest Reply → Prop
  | .start (.createWithdrawalOrder dto) => (users dto.userId).isSome →
      Carries env users c.shared dto.userId dto.amount dto.metadata ∧ ∀ hash ∈ carriedHash dto.metadata, Unused c hash
  | .start (.submitWithdrawal userId dto) => ∀ tx ∈ (prepareWithdrawal env users userId dto).toOption,
      Burns env users userId dto.amount tx ∧ Unused c tx.hash
  | _ => True

def UsedOnce (c : Config ApiState ApiCall) : Prop :=
  ∀ hash, c.potential (ApiState.ordersWith hash) (ApiCall.carries hash) ≤ 1

def OrdersSound (s : ApiState) : Prop :=
  ∀ order ∈ s.pixWithdrawals, Carries env users s order.ownerId order.amount order.metadata

/-- A call that still waits for its transaction waits for a burn, and goes on only when that has landed. -/
def BurnSound (s : ApiState) : ApiCall → Prop
  | .sendBurn userId dto tx | .awaitBurn userId dto tx => Burns env users userId dto.amount tx
  | .createWithdrawal dto | .orderWithdrawal _ dto => Carries env users s dto.userId dto.amount dto.metadata
  | _ => True

end Condition

theorem buildWithdrawalTx_burns {env : StellarEnv} {users : String → Option User} {toFixed : Rat → String}
    {userId hash : String} {amount : Rat} {balance : Option Rat} {effect : Effect}
    (h : buildWithdrawalTx env users toFixed userId amount balance = .ok effect) :
    Burns env users userId amount { hash, effect } := by
  obtain ⟨address, haddress, h⟩ := bind_eq_ok.mp h
  obtain ⟨-, h⟩ := throwIf_bind_eq_ok.mp h
  obtain ⟨_, -, h⟩ := bind_eq_ok.mp h
  obtain ⟨-, h⟩ := throwIf_bind_eq_ok.mp h
  exact ⟨address, orThrow_eq_ok.mp haddress, (pure_eq_ok.mp h).symm⟩

theorem carriedHash_withdrawalDto {userId hash : String} {dto : SubmitWithdrawalDto} :
    carriedHash (withdrawalDto userId dto hash).metadata = some hash := by
  simp [carriedHash, withdrawalDto, Json.field?]

section Sound
variable {env : StellarEnv} {users : String → Option User} {s s' : ApiState} {request : ApiRequest} {call : ApiCall}
  {next : Option ApiCall} {userId : String} {amount : Rat}

def LandedKept (s s' : ApiState) : Prop := s.network.landed ⊆ s'.network.landed

theorem LandedKept.create {t : Transaction} : LandedKept s (s.createTransaction t) := by
  unfold LandedKept
  rw [createTransaction_kept.1]
  exact List.Subset.refl _

theorem LandedKept.sent {tx : LedgerTx} {accepted : Bool} :
    LandedKept s { s with network := if accepted then s.network.take tx else s.network } := by
  intro tx' htx'
  cases accepted with
  | true => exact mem_landed_take.mpr htx'
  | false => exact htx'

theorem Carries.kept {metadata : Option Json} (hs : LandedKept s s') (h : Carries env users s userId amount metadata) :
    Carries env users s' userId amount metadata := by
  obtain ⟨tx, htx, hburns, hhash⟩ := h
  exact ⟨tx, hs htx, hburns, hhash⟩

theorem BurnSound.kept (hs : LandedKept s s') (h : BurnSound env users s call) : BurnSound env users s' call := by
  cases call with
  | sendBurn userId dto tx | awaitBurn userId dto tx => exact h
  | createWithdrawal dto | orderWithdrawal t dto => exact Carries.kept hs h
  | _ => trivial

/-- The orders after a step are sound, what has landed stays so, and the call that waits is sound. -/
def StepBacked (env : StellarEnv) (users : String → Option User) (s s' : ApiState) (next : Option ApiCall) : Prop :=
  OrdersSound env users s' ∧ LandedKept s s' ∧ ∀ f ∈ next, BurnSound env users s' f

theorem StepBacked.of_orders (hs : OrdersSound env users s) (horders : s'.pixWithdrawals = s.pixWithdrawals)
    (hlanded : LandedKept s s') (hcall : ∀ f ∈ next, BurnSound env users s f) : StepBacked env users s s' next := by
  refine ⟨fun order horder => ?_, hlanded, fun f hf => (hcall f hf).kept hlanded⟩
  rw [horders] at horder
  exact (hs order horder).kept hlanded

theorem StepBacked.ended (hs : OrdersSound env users s) (horders : s'.pixWithdrawals = s.pixWithdrawals)
    (hlanded : LandedKept s s') : StepBacked env users s s' none :=
  .of_orders hs horders hlanded fun f hf => absurd hf (Option.not_mem_none f)

theorem StepBacked.waits (hs : OrdersSound env users s) (horders : s'.pixWithdrawals = s.pixWithdrawals)
    (hlanded : LandedKept s s') (hcall : BurnSound env users s call) : StepBacked env users s s' (some call) := by
  refine .of_orders hs horders hlanded fun f hf => ?_
  rw [← Option.some.inj hf]
  exact hcall

theorem StepBacked.sent {tx : LedgerTx} {reply : Reply} (hs : OrdersSound env users s)
    (hcall : BurnSound env users s call) :
    StepBacked env users s { s with network := if reply.accepted then s.network.take tx else s.network }
      (if reply.answered then some call else none) := by
  cases reply.answered with
  | true => exact .waits hs rfl .sent hcall
  | false => exact .ended hs rfl .sent

/-- Requests that start, as far as `BurnsFirst` asks for their burns. -/
def StartsBurn (env : StellarEnv) (users : String → Option User) (s : ApiState) : ApiRequest → Prop
  | .createWithdrawalOrder dto => (users dto.userId).isSome → Carries env users s dto.userId dto.amount dto.metadata
  | .submitWithdrawal userId dto => ∀ tx ∈ (prepareWithdrawal env users userId dto).toOption,
      Burns env users userId dto.amount tx
  | _ => True

theorem started_backed (hs : OrdersSound env users s) (hstart : StartsBurn env users s request)
    (h : Started env users s request s' next) : StepBacked env users s s' next := by
  cases h with
  | ended => exact .ended hs rfl (List.Subset.refl _)
  | createWithdrawal dto huser =>
    have hcarries : Carries env users s dto.userId dto.amount dto.metadata := hstart huser
    exact .waits hs rfl (List.Subset.refl _) hcarries
  | sendBurn userId dto tx htx =>
    have hburns : Burns env users userId dto.amount tx := hstart tx (toOption_eq_some.mpr htx)
    exact .waits hs rfl (List.Subset.refl _) hburns
  | createDeposit | update | sendMint | withdrawFromPool | recordEvent =>
    exact .waits hs rfl (List.Subset.refl _) trivial
  | ledger settlement => exact .ended hs rfl (landed_subset_settle _)

theorem resumed_backed (hs : OrdersSound env users s) (hcall : BurnSound env users s call)
    (h : Resumed env users s call s' next) : StepBacked env users s s' next := by
  cases h with
  | ended => exact .ended hs rfl (List.Subset.refl _)
  | again => exact .waits hs rfl (List.Subset.refl _) hcall
  | createDeposit dto t => exact .ended hs createTransaction_kept.2 .create
  | update id u => exact .ended hs rfl (List.Subset.refl _)
  | sendMint id effect u reply => exact .sent hs trivial
  | minted | withdrawn | recordEvent | loadTransaction => exact .waits hs rfl (List.Subset.refl _) trivial
  | dispatch t dto f hdispatch =>
    refine .waits hs rfl (List.Subset.refl _) ?_
    rcases dispatchCallback_inv hdispatch with ⟨toAddress, u, rfl⟩ | ⟨u, rfl⟩ <;> trivial
  | sendBurn userId dto tx reply =>
    have hburns : Burns env users userId dto.amount tx := hcall
    exact .sent hs hburns
  | burned userId dto tx hlanded =>
    have hcarries : Carries env users s userId dto.amount (withdrawalDto userId dto tx.hash).metadata :=
      ⟨tx, hlanded, hcall, carriedHash_withdrawalDto⟩
    exact .waits hs rfl (List.Subset.refl _) hcarries
  | createWithdrawal dto t =>
    have hcarries : Carries env users s dto.userId dto.amount dto.metadata := hcall
    exact .waits hs createTransaction_kept.2 .create hcarries
  | orderWithdrawal t dto =>
    have hcarries : Carries env users s dto.userId dto.amount dto.metadata := hcall
    refine ⟨fun order horder => ?_, List.Subset.refl _, fun f hf => absurd hf (Option.not_mem_none f)⟩
    rcases List.mem_append.mp horder with hold | hnew
    · exact hs order hold
    · obtain rfl := List.mem_singleton.mp hnew
      exact hcarries

end Sound

/-! ### A transaction is used once -/

section Once
variable {env : StellarEnv} {users : String → Option User} {s s' : ApiState} {request : ApiRequest} {call : ApiCall}
  {next : Option ApiCall} {hash : String} {c c' : Config ApiState ApiCall} {op : Op ApiRequest Reply}

/-- The orders with the transaction, and the call that is about to order another one. -/
def usesAfter (hash : String) (s : ApiState) (next : Option ApiCall) : Nat :=
  s.ordersWith hash + weight (ApiCall.carries hash) next

theorem usesAfter_le_succ : usesAfter hash s (some call) ≤ s.ordersWith hash + 1 := by
  have hle : call.carries hash ≤ 1 := by
    unfold ApiCall.carries
    split <;> omega
  exact Nat.add_le_add_left hle _

theorem ordersWith_of_orders (horders : s'.pixWithdrawals = s.pixWithdrawals) : s'.ordersWith hash = s.ordersWith hash := by
  rw [ApiState.ordersWith, ApiState.ordersWith, horders]

/-- A request has the transaction only if it submits it or names it. -/
theorem started_uses (hash : String) (h : Started env users s request s' next) :
    usesAfter hash s' next ≤ s.ordersWith hash ∨
      usesAfter hash s' next ≤ s.ordersWith hash + 1 ∧
        ((∃ dto, request = .createWithdrawalOrder dto ∧ (users dto.userId).isSome ∧
            carriedHash dto.metadata = some hash) ∨
          ∃ userId dto tx, request = .submitWithdrawal userId dto ∧
            prepareWithdrawal env users userId dto = .ok tx ∧ tx.hash = hash) := by
  cases h with
  | ended | createDeposit | update | sendMint | withdrawFromPool | recordEvent | ledger => exact .inl (Nat.le_refl _)
  | createWithdrawal dto huser =>
    by_cases hhash : carriedHash dto.metadata = some hash
    · exact .inr ⟨usesAfter_le_succ, .inl ⟨dto, rfl, huser, hhash⟩⟩
    · exact .inl (Nat.add_le_add_left (Nat.le_of_eq (if_neg hhash)) _)
  | sendBurn userId dto tx htx =>
    by_cases hhash : tx.hash = hash
    · exact .inr ⟨usesAfter_le_succ, .inr ⟨userId, dto, tx, rfl, htx, hhash⟩⟩
    · exact .inl (Nat.add_le_add_left (Nat.le_of_eq (if_neg fun h => hhash (Option.some.inj h))) _)

/-- A call keeps its transaction until it is over or the order has it. -/
theorem resumed_uses (hash : String) (h : Resumed env users s call s' next) :
    usesAfter hash s' next ≤ s.ordersWith hash + call.carries hash := by
  cases h with
  | ended => exact Nat.le_add_right _ _
  | again | update | minted | withdrawn | recordEvent | loadTransaction => exact Nat.le_refl _
  | createDeposit dto t => exact Nat.le_of_eq (ordersWith_of_orders createTransaction_kept.2)
  | sendMint id effect u reply =>
    cases hanswered : reply.answered <;> simp [usesAfter, weight, ApiState.ordersWith, ApiCall.carries, ApiCall.hash]
  | dispatch t dto f hdispatch =>
    rcases dispatchCallback_inv hdispatch with ⟨toAddress, u, rfl⟩ | ⟨u, rfl⟩ <;> exact Nat.le_refl _
  | sendBurn userId dto tx reply =>
    cases hanswered : reply.answered <;> simp [usesAfter, weight, ApiState.ordersWith, ApiCall.carries, ApiCall.hash]
  | burned userId dto tx hlanded =>
    refine Nat.add_le_add_left (Nat.le_of_eq ?_) _
    simp [weight, ApiCall.carries, ApiCall.hash, carriedHash_withdrawalDto]
  | createWithdrawal dto t =>
    exact Nat.add_le_add_right (Nat.le_of_eq (ordersWith_of_orders createTransaction_kept.2)) _
  | orderWithdrawal t dto =>
    rw [usesAfter, ApiState.ordersWith, List.map_append, List.count_append, Nat.add_assoc]
    refine Nat.add_le_add_left ?_ _
    by_cases hhash : carriedHash dto.metadata = some hash <;>
      simp [weight, ApiCall.carries, ApiCall.hash, PixWithdrawal.hash, pixWithdrawal, hhash]

/-- A withdrawal with an unused transaction is its only use. -/
theorem UsedOnce.step (hc : UsedOnce c) (hfirst : BurnsFirst env users c op)
    (hstep : (transactionsApi env users).step c op = .ok c') : UsedOnce c' := by
  intro hash
  cases step_moved hstep with
  | start request hop hc' =>
    subst hop hc'
    rcases started_uses hash (startCall_started env users c.shared request) with
      hquiet | ⟨huses, ⟨dto, rfl, huser, hhash⟩ | ⟨userId, dto, tx, rfl, htx, rfl⟩⟩
    · exact Nat.le_trans (potential_start_le (n := 0) hquiet) (hc hash)
    · obtain ⟨-, hunused⟩ := hfirst huser
      exact Nat.le_trans (potential_start_le huses) (Nat.le_of_eq (congrArg (· + 1) (hunused hash hhash)))
    · obtain ⟨-, hunused⟩ := hfirst tx (toOption_eq_some.mpr htx)
      exact Nat.le_trans (potential_start_le huses) (Nat.le_of_eq (congrArg (· + 1) hunused))
  | resume i reply f rest hop hf hperm hc' =>
    subst hop hc'
    have huses := resumed_uses hash (resumeCall_resumed env users c.shared f reply)
    exact Nat.le_trans (potential_resume_le (n := 0) hperm huses) (hc hash)
  | crash i f rest hop hperm hc' =>
    subst hc'
    exact Nat.le_trans (potential_crash_le hperm) (hc hash)

end Once

/-! ### Every run -/

section Runs
variable {env : StellarEnv} {users : String → Option User} {c : Config ApiState ApiCall} {op : Op ApiRequest Reply}

theorem burns_outline (env : StellarEnv) (users : String → Option User) :
    Outline (transactionsApi env users) (StartsBurn env users) (fun _ _ _ => True) (OrdersSound env users)
      (BurnSound env users) LandedKept where
  start request s hs hstart := started_backed hs hstart (startCall_started env users s request)
  resume call reply s hs hcall _ := resumed_backed hs hcall (resumeCall_resumed env users s call reply)
  stable _ _ _ hkept hcall := hcall.kept hkept

theorem BurnsFirst.allows (h : BurnsFirst env users c op) : Allows (StartsBurn env users) (fun _ _ _ => True) c op := by
  cases op with
  | start request =>
    cases request with
    | createWithdrawalOrder dto => exact fun huser => (h huser).1
    | submitWithdrawal userId dto => exact fun tx htx => (h tx htx).1
    | _ => trivial
  | resume i reply => exact fun _ _ => trivial
  | crash i => trivial

/-- Orders that carry burns, each of which is used once, have a burn each. -/
theorem backed_of_usedOnce (hsound : OrdersSound env users c.shared) (honce : UsedOnce c) : Backed env users c.shared := by
  have hkeyed : Table.Keyed PixWithdrawal.hash c.shared.pixWithdrawals := by
    refine List.nodup_iff_count_le_one.mpr fun hash => ?_
    cases hash with
    | none =>
      refine Nat.le_trans (Nat.le_of_eq (List.count_eq_zero.mpr fun hmem => ?_)) (Nat.zero_le 1)
      obtain ⟨order, horder, hnone⟩ := List.mem_map.mp hmem
      obtain ⟨tx, -, -, hhash⟩ := hsound order horder
      cases hnone.symm.trans hhash
    | some hash =>
      exact Nat.le_trans (Nat.le_add_right (c.shared.ordersWith hash) _) (honce hash)
  obtain ⟨burns, hburns, hpairs⟩ := hkeyed.exists_partners (fun tx : LedgerTx => some tx.hash)
    (R := fun order tx => tx ∈ c.shared.network.landed ∧ Burns env users order.ownerId order.amount tx)
    fun order horder => by
      obtain ⟨tx, htx, hburns, hhash⟩ := hsound order horder
      exact ⟨tx, ⟨htx, hburns⟩, hhash.symm⟩
  obtain ⟨hlanded, hpairs⟩ := (List.forall₂_and_left _ _).mp hpairs.flip
  exact ⟨burns, hburns.nodup, hlanded, hpairs.flip⟩

end Runs

/-- In every run whose withdrawals each come with an unused burn of their amount, every order has a burn of its own. -/
theorem withdrawals_backed (env : StellarEnv) (users : String → Option User) (transactions : List Transaction)
    (webhookEvents : List String) (network : Network LedgerTx) (ops : List (Op ApiRequest Reply))
    (hfirst : Along (transactionsApi env users).step (BurnsFirst env users)
      ⟨⟨transactions, webhookEvents, network, []⟩, []⟩ ops) :
    Throughout (transactionsApi env users).step (fun c => Backed env users c.shared)
      ⟨⟨transactions, webhookEvents, network, []⟩, []⟩ ops := by
  have hinv : Throughout (transactionsApi env users).step
      (fun c => Holds (OrdersSound env users) (BurnSound env users) c ∧ UsedOnce c)
      ⟨⟨transactions, webhookEvents, network, []⟩, []⟩ ops := by
    refine throughout_of_along (fun c op c' hc hfirst hstep => ?_) ?_ hfirst
    · exact ⟨(burns_outline env users).step hc.1 hfirst.allows hstep, hc.2.step hfirst hstep⟩
    · exact ⟨⟨List.forall_mem_nil _, List.forall_mem_nil _⟩, fun _ => Nat.zero_le 1⟩
  exact hinv.mono fun c hc => backed_of_usedOnce hc.1.1 hc.2

section Examples

instance (env : StellarEnv) (users : String → Option User) (userId : String) (amount : Rat) (tx : LedgerTx) :
    Decidable (Burns env users userId amount tx) :=
  inferInstanceAs (Decidable (∃ address ∈ walletOf users userId, tx.effect = .burn address (env.stroops amount)))

instance (env : StellarEnv) (users : String → Option User) (s : ApiState) (userId : String) (amount : Rat)
    (metadata : Option Json) : Decidable (Carries env users s userId amount metadata) :=
  inferInstanceAs (Decidable (∃ tx ∈ s.network.landed, _))

instance (c : Config ApiState ApiCall) (hash : String) : Decidable (Unused c hash) := inferInstanceAs (Decidable (_ = 0))

instance (env : StellarEnv) (users : String → Option User) (c : Config ApiState ApiCall) :
    (op : Op ApiRequest Reply) → Decidable (BurnsFirst env users c op)
  | .start (.createWithdrawalOrder dto) => inferInstanceAs (Decidable ((users dto.userId).isSome →
      Carries env users c.shared dto.userId dto.amount dto.metadata ∧ ∀ hash ∈ carriedHash dto.metadata, Unused c hash))
  | .start (.submitWithdrawal userId dto) => inferInstanceAs (Decidable (∀ tx ∈
      (prepareWithdrawal env users userId dto).toOption, Burns env users userId dto.amount tx ∧ Unused c tx.hash))
  | .start (.createDepositOrder _) | .start (.approveTransaction _ _ _) | .start (.buildWithdrawalTx _ _ _)
  | .start (.markAsPaid _ _) | .start (.processPixOrderCallback _) | .start (.ledger _) | .resume _ _ | .crash _ =>
    instDecidableTrue

def submission (amount : Rat) : Op ApiRequest Reply :=
  .start (.submitWithdrawal "investor" ⟨amount, "investor@example.com", "EMAIL", "burn", "signature"⟩)

def orderedAfterBurn (uuid : String) : List (Op ApiRequest Reply) :=
  [.resume 0 {}, .start (.ledger (.land 0)), .resume 0 {}, .resume 0 { uuid }, .resume 0 {}]

theorem withdrawals_backed_submitted :
    Throughout (transactionsApi testStellar testUsers).step (fun c => Backed testStellar testUsers c.shared)
      ⟨⟨[], [], .empty, []⟩, []⟩
      ([submission 50, .crash 0, submission 50] ++ orderedAfterBurn "withdrawal-1" ++
        [.start (.createWithdrawalOrder ⟨"nobody", 50, "nobody@example.com", "EMAIL", none, none⟩),
          .start (.ledger (.other ⟨"upstream", .burn "GINVESTOR" 200000000⟩)),
          .start (.createWithdrawalOrder ⟨"investor", 20, "investor@example.com", "EMAIL", none,
            some (.object [("burnTxHash", .string "upstream")])⟩),
          .resume 0 { uuid := "withdrawal-2" }, .resume 0 {}]) :=
  withdrawals_backed testStellar testUsers [] [] .empty _ (by decide +kernel)

theorem Backed.length_le {env : StellarEnv} {users : String → Option User} {s : ApiState} (h : Backed env users s) :
    s.pixWithdrawals.length ≤ s.network.landed.length := by
  obtain ⟨burns, hnodup, hlanded, hpairs⟩ := h
  rw [hpairs.length_eq]
  exact hnodup.length_le_of_subset hlanded

/-- The network takes the transaction once, and both calls see it land. -/
def submittedByTwo : List (Op ApiRequest Reply) :=
  [submission 50, submission 50, .resume 0 {}, .resume 0 {}, .start (.ledger (.land 0)), .resume 0 {}, .resume 0 {},
    .resume 0 { uuid := "withdrawal-1" }, .resume 0 { uuid := "withdrawal-2" }, .resume 0 {}, .resume 0 {}]

/-- A withdrawal is ordered with no burn, and two are with one burn. -/
theorem withdrawals_not_backed :
    ¬Throughout (transactionsApi testStellar testUsers).step (fun c => Backed testStellar testUsers c.shared)
        ⟨⟨[], [], .empty, []⟩, []⟩
        [.start (.createWithdrawalOrder ⟨"investor", 50, "investor@example.com", "EMAIL", none, none⟩),
          .resume 0 { uuid := "withdrawal" }, .resume 0 {}] ∧
      ¬Throughout (transactionsApi testStellar testUsers).step (fun c => Backed testStellar testUsers c.shared)
        ⟨⟨[], [], .empty, []⟩, []⟩ submittedByTwo :=
  ⟨fun h => absurd h.last.length_le (by decide +kernel), fun h => absurd h.last.length_le (by decide +kernel)⟩

end Examples
end CredBridge.Api
