import CredBridge.Contracts.NfeTokenization

/-! # What the calls of the NF-e contract do

An invocation that succeeds registers a key that is new, or rewrites one record by one of the steps of its life, or
leaves the storage alone and makes a call of the token library. -/

namespace CredBridge.Contracts.NfeTokenization
open Result

def newNfe (key : String) (tokenId : Nat) (value : Int) (dueDate : Nat) (xmlHash : BytesN 32) (owner : Address) : NfeData :=
  { key, tokenId, value, dueDate, xmlHash, owner, status := .active, invoiceHash := xmlHash, rateBps := 0,
    advanceAmount := 0 }

/-- What a call does to a record that exists, and to the tokens. -/
inductive Updates {ν : Type} (N : NonFungible ν) (auth : Address → Bool) (st st' : ν) (key : String) (nfeData : NfeData) :
    Call → NfeData → Prop
  | listed {owner : Address} {faceValue advanceAmount rateBps : Int} {maturityTimestamp : Nat}
      (hstatus : nfeData.status = .active) (htokens : st' = st) :
      Updates N auth st st' key nfeData (.listInvoiceForSale owner key faceValue advanceAmount rateBps maturityTimestamp)
        { nfeData with status := .listedForSale, rateBps, advanceAmount }
  | sold {platformAuth : Address} (hstatus : nfeData.status = .listedForSale) (htokens : st' = st) :
      Updates N auth st st' key nfeData (.markAsSold key platformAuth) { nfeData with status := .soldToPool }
  | transferred {newOwner : Address} (hstatus : nfeData.status = .active)
      (htransfer : N.transfer auth st nfeData.owner newOwner nfeData.tokenId = .ok st') :
      Updates N auth st st' key nfeData (.transferOwnership key newOwner) { nfeData with owner := newOwner }
  | settled {platformAuth : Address} (hstatus : nfeData.status = .active ∨ nfeData.status = .soldToPool)
      (hburn : N.burn auth st nfeData.owner nfeData.tokenId = .ok st') :
      Updates N auth st st' key nfeData (.settleNfe key platformAuth) { nfeData with status := .settled }

/-- A call of the token standard, as the library made it. -/
inductive TokenCall {ν : Type} (N : NonFungible ν) (auth : Address → Bool) (st st' : ν) : Call → Prop
  | transfer {sender receiver : Address} {tokenId : Nat} (h : N.transfer auth st sender receiver tokenId = .ok st') :
      TokenCall N auth st st' (.transfer sender receiver tokenId)
  | transferFrom {spender sender receiver : Address} {tokenId : Nat}
      (h : N.transferFrom auth st spender sender receiver tokenId = .ok st') :
      TokenCall N auth st st' (.transferFrom spender sender receiver tokenId)
  | approve {approver approved : Address} {tokenId liveUntilLedger : Nat}
      (h : N.approve auth st approver approved tokenId liveUntilLedger = .ok st') :
      TokenCall N auth st st' (.approve approver approved tokenId liveUntilLedger)
  | approveForAll {owner operator : Address} {liveUntilLedger : Nat}
      (h : N.approveForAll auth st owner operator liveUntilLedger = .ok st') :
      TokenCall N auth st st' (.approveForAll owner operator liveUntilLedger)
  | burn {holder : Address} {tokenId : Nat} (h : N.burn auth st holder tokenId = .ok st') :
      TokenCall N auth st st' (.burn holder tokenId)
  | burnFrom {spender holder : Address} {tokenId : Nat} (h : N.burnFrom auth st spender holder tokenId = .ok st') :
      TokenCall N auth st st' (.burnFrom spender holder tokenId)

inductive Effect {ν : Type} (N : NonFungible ν) (auth : Address → Bool) (w w' : World ν) (call : Call) : Prop
  | registered {key : String} {value : Int} {dueDate : Nat} {xmlHash : BytesN 32} {owner platformAuth : Address}
      {tokenId : Nat} (hcall : call = .tokenizeNfe key value dueDate xmlHash owner platformAuth)
      (hhash : xmlHash ∉ w.storage.xmlHashToToken) (hkey : findNfe w key = none)
      (hmint : N.sequentialMint w.tokens owner = .ok (w'.tokens, tokenId))
      (hnfe : w'.storage.nfe = w.storage.nfe.insert key (newNfe key tokenId value dueDate xmlHash owner))
      (htoken : w'.storage.tokenToNfe = w.storage.tokenToNfe.insert tokenId key)
      (hxml : w'.storage.xmlHashToToken = w.storage.xmlHashToToken.insert xmlHash tokenId)
  | updated {key : String} {nfeData nfeData' : NfeData} (hfind : findNfe w key = some nfeData)
      (hupdates : Updates N auth w.tokens w'.tokens key nfeData call nfeData')
      (hnfe : w'.storage.nfe = w.storage.nfe.insert key nfeData')
      (htoken : w'.storage.tokenToNfe = w.storage.tokenToNfe)
      (hxml : w'.storage.xmlHashToToken = w.storage.xmlHashToToken)
  | moved (hstorage : w'.storage = w.storage) (htokens : TokenCall N auth w.tokens w'.tokens call)

section Inversion
variable {ν : Type} {N : NonFungible ν} {env : Env} {w w' : World ν}

theorem inherited_effect {call : Call} {f : ν → Except Trap ν} (h : inherited w f = .ok w')
    (hf : ∀ tokens, f w.tokens = .ok tokens → TokenCall N env.auth w.tokens tokens call) :
    Effect N env.auth w w' call := by
  obtain ⟨tokens, hcall, h⟩ := bind_eq_ok.mp h
  cases pure_eq_ok.mp h
  exact .moved rfl (hf tokens hcall)

theorem tokenizeNfe_effect {key : String} {value : Int} {dueDate : Nat} {xmlHash : BytesN 32}
    {owner platformAuth : Address} (h : tokenizeNfe N env w key value dueDate xmlHash owner platformAuth = .ok w') :
    Effect N env.auth w w' (.tokenizeNfe key value dueDate xmlHash owner platformAuth) := by
  obtain ⟨_, -, h⟩ := bind_eq_ok.mp h
  obtain ⟨hhash, h⟩ := throwIf_bind_eq_ok.mp h
  obtain ⟨hkey, h⟩ := throwIf_bind_eq_ok.mp h
  obtain ⟨⟨tokens, tokenId⟩, hmint, h⟩ := bind_eq_ok.mp h
  cases pure_eq_ok.mp h
  exact .registered rfl hhash (Option.not_isSome_iff_eq_none.mp hkey) hmint rfl rfl rfl

theorem listInvoiceForSale_effect {owner : Address} {key : String} {faceValue advanceAmount rateBps : Int}
    {maturityTimestamp : Nat}
    (h : listInvoiceForSale env w owner key faceValue advanceAmount rateBps maturityTimestamp = .ok w') :
    Effect N env.auth w w' (.listInvoiceForSale owner key faceValue advanceAmount rateBps maturityTimestamp) := by
  obtain ⟨_, -, h⟩ := bind_eq_ok.mp h
  obtain ⟨nfeData, hfind, h⟩ := orThrow_bind_eq_ok.mp h
  obtain ⟨-, h⟩ := throwIf_bind_eq_ok.mp h
  obtain ⟨hstatus, h⟩ := throwIf_bind_eq_ok.mp h
  obtain ⟨-, h⟩ := throwIf_bind_eq_ok.mp h
  obtain ⟨-, h⟩ := throwIf_bind_eq_ok.mp h
  cases pure_eq_ok.mp h
  exact .updated hfind (.listed (Decidable.not_not.mp hstatus) rfl) rfl rfl rfl

theorem markAsSold_effect {key : String} {platformAuth : Address} (h : markAsSold env w key platformAuth = .ok w') :
    Effect N env.auth w w' (.markAsSold key platformAuth) := by
  obtain ⟨_, -, h⟩ := bind_eq_ok.mp h
  obtain ⟨nfeData, hfind, h⟩ := orThrow_bind_eq_ok.mp h
  obtain ⟨hstatus, h⟩ := throwIf_bind_eq_ok.mp h
  cases pure_eq_ok.mp h
  exact .updated hfind (.sold (Decidable.not_not.mp hstatus) rfl) rfl rfl rfl

theorem transferOwnership_effect {key : String} {newOwner : Address}
    (h : transferOwnership N env w key newOwner = .ok w') : Effect N env.auth w w' (.transferOwnership key newOwner) := by
  obtain ⟨nfeData, hfind, h⟩ := orThrow_bind_eq_ok.mp h
  obtain ⟨hstatus, h⟩ := throwIf_bind_eq_ok.mp h
  obtain ⟨tokens, htransfer, h⟩ := bind_eq_ok.mp h
  cases pure_eq_ok.mp h
  exact .updated hfind (.transferred (Decidable.not_not.mp hstatus) htransfer) rfl rfl rfl

theorem settleNfe_effect {key : String} {platformAuth : Address} (h : settleNfe N env w key platformAuth = .ok w') :
    Effect N env.auth w w' (.settleNfe key platformAuth) := by
  obtain ⟨_, -, h⟩ := bind_eq_ok.mp h
  obtain ⟨nfeData, hfind, h⟩ := orThrow_bind_eq_ok.mp h
  obtain ⟨hstatus, h⟩ := throwIf_bind_eq_ok.mp h
  obtain ⟨tokens, hburn, h⟩ := bind_eq_ok.mp h
  cases pure_eq_ok.mp h
  rw [Decidable.not_and_iff_not_or_not, Decidable.not_not, Decidable.not_not] at hstatus
  exact .updated hfind (.settled hstatus hburn) rfl rfl rfl

theorem transfer_effect {sender receiver : Address} {tokenId : Nat}
    (h : transfer N env w sender receiver tokenId = .ok w') :
    Effect N env.auth w w' (.transfer sender receiver tokenId) := by
  obtain ⟨_, -, h⟩ := bind_eq_ok.mp h
  obtain ⟨_, -, h⟩ := bind_eq_ok.mp h
  obtain ⟨tokens, htransfer, h⟩ := bind_eq_ok.mp h
  cases pure_eq_ok.mp h
  exact .moved rfl (.transfer htransfer)

theorem invoke_effect {call : Call} (h : invoke N env w call = .ok w') : Effect N env.auth w w' call := by
  cases call with
  | tokenizeNfe => exact tokenizeNfe_effect h
  | listInvoiceForSale => exact listInvoiceForSale_effect h
  | markAsSold => exact markAsSold_effect h
  | transferOwnership => exact transferOwnership_effect h
  | settleNfe => exact settleNfe_effect h
  | transfer => exact transfer_effect h
  | transferFrom =>
    unfold invoke transferFrom at h
    exact inherited_effect h fun _ => .transferFrom
  | approve =>
    unfold invoke approve at h
    exact inherited_effect h fun _ => .approve
  | approveForAll =>
    unfold invoke approveForAll at h
    exact inherited_effect h fun _ => .approveForAll
  | burn =>
    unfold invoke burn at h
    exact inherited_effect h fun _ => .burn
  | burnFrom =>
    unfold invoke burnFrom at h
    exact inherited_effect h fun _ => .burnFrom

theorem step_effect {i : Invocation} (h : step N w i = .ok w') : Effect N i.env.auth w w' i.call := invoke_effect h

/-! ### The other entries -/

/-- The listing that a call stores under a key. -/
def Invocation.listing (i : Invocation) (key : String) : Option SaleListingData :=
  match i.call with
  | .listInvoiceForSale owner k faceValue requestedAdvanceAmount requestedRateBps maturityTimestamp =>
    if k = key then
      some { owner, faceValue, requestedAdvanceAmount, requestedRateBps, maturityTimestamp, listedAt := i.env.timestamp }
    else none
  | _ => none

/-- What an invocation does to the entries beside the three maps of the registry. -/
structure Keeps {ν : Type} (i : Invocation) (w w' : World ν) : Prop where
  platform : w'.storage.platform = w.storage.platform
  saleListing : ∀ key, w'.storage.saleListing.lookup key = (i.listing key).or (w.storage.saleListing.lookup key)

theorem inherited_keeps {i : Invocation} {f : ν → Except Trap ν} (h : inherited w f = .ok w')
    (hi : ∀ key, i.listing key = none) : Keeps i w w' := by
  obtain ⟨tokens, -, h⟩ := bind_eq_ok.mp h
  cases pure_eq_ok.mp h
  exact ⟨rfl, fun key => by rw [hi, Option.none_or]⟩

theorem invoke_keeps {call : Call} (h : invoke N env w call = .ok w') : Keeps ⟨env, call⟩ w w' := by
  cases call with
  | tokenizeNfe =>
    obtain ⟨_, -, h⟩ := bind_eq_ok.mp h
    obtain ⟨-, h⟩ := throwIf_bind_eq_ok.mp h
    obtain ⟨-, h⟩ := throwIf_bind_eq_ok.mp h
    obtain ⟨_, -, h⟩ := bind_eq_ok.mp h
    cases pure_eq_ok.mp h
    exact ⟨rfl, fun _ => rfl⟩
  | listInvoiceForSale owner k faceValue advance rateBps maturity =>
    obtain ⟨_, -, h⟩ := bind_eq_ok.mp h
    obtain ⟨_, -, h⟩ := orThrow_bind_eq_ok.mp h
    obtain ⟨-, h⟩ := throwIf_bind_eq_ok.mp h
    obtain ⟨-, h⟩ := throwIf_bind_eq_ok.mp h
    obtain ⟨-, h⟩ := throwIf_bind_eq_ok.mp h
    obtain ⟨-, h⟩ := throwIf_bind_eq_ok.mp h
    cases pure_eq_ok.mp h
    refine ⟨rfl, fun key => ?_⟩
    unfold Invocation.listing
    by_cases hk : k = key
    · subst hk
      simp [AList.lookup_insert]
    · simp [AList.lookup_insert_ne (Ne.symm hk), hk]
  | markAsSold =>
    obtain ⟨_, -, h⟩ := bind_eq_ok.mp h
    obtain ⟨_, -, h⟩ := orThrow_bind_eq_ok.mp h
    obtain ⟨-, h⟩ := throwIf_bind_eq_ok.mp h
    cases pure_eq_ok.mp h
    exact ⟨rfl, fun _ => rfl⟩
  | transferOwnership =>
    obtain ⟨_, -, h⟩ := orThrow_bind_eq_ok.mp h
    obtain ⟨-, h⟩ := throwIf_bind_eq_ok.mp h
    obtain ⟨_, -, h⟩ := bind_eq_ok.mp h
    cases pure_eq_ok.mp h
    exact ⟨rfl, fun _ => rfl⟩
  | settleNfe =>
    obtain ⟨_, -, h⟩ := bind_eq_ok.mp h
    obtain ⟨_, -, h⟩ := orThrow_bind_eq_ok.mp h
    obtain ⟨-, h⟩ := throwIf_bind_eq_ok.mp h
    obtain ⟨_, -, h⟩ := bind_eq_ok.mp h
    cases pure_eq_ok.mp h
    exact ⟨rfl, fun _ => rfl⟩
  | transfer =>
    obtain ⟨_, -, h⟩ := orThrow_bind_eq_ok.mp h
    obtain ⟨_, -, h⟩ := bind_eq_ok.mp h
    obtain ⟨_, -, h⟩ := bind_eq_ok.mp h
    cases pure_eq_ok.mp h
    exact ⟨rfl, fun _ => rfl⟩
  | transferFrom =>
    unfold invoke transferFrom at h
    exact inherited_keeps h fun _ => rfl
  | approve =>
    unfold invoke approve at h
    exact inherited_keeps h fun _ => rfl
  | approveForAll =>
    unfold invoke approveForAll at h
    exact inherited_keeps h fun _ => rfl
  | burn =>
    unfold invoke burn at h
    exact inherited_keeps h fun _ => rfl
  | burnFrom =>
    unfold invoke burnFrom at h
    exact inherited_keeps h fun _ => rfl

/-- What a listing that succeeds has checked. -/
theorem listInvoiceForSale_checked {owner : Address} {key : String} {faceValue advanceAmount rateBps : Int}
    {maturityTimestamp : Nat}
    (h : listInvoiceForSale env w owner key faceValue advanceAmount rateBps maturityTimestamp = .ok w') :
    (∃ nfeData, findNfe w key = some nfeData ∧ nfeData.owner = owner ∧ nfeData.status = .active ∧
      findNfe w' key = some { nfeData with status := .listedForSale, rateBps, advanceAmount }) ∧
      0 < advanceAmount ∧ advanceAmount ≤ faceValue := by
  obtain ⟨_, -, h⟩ := bind_eq_ok.mp h
  obtain ⟨nfeData, hfind, h⟩ := orThrow_bind_eq_ok.mp h
  obtain ⟨howner, h⟩ := throwIf_bind_eq_ok.mp h
  obtain ⟨hstatus, h⟩ := throwIf_bind_eq_ok.mp h
  obtain ⟨hpositive, h⟩ := throwIf_bind_eq_ok.mp h
  obtain ⟨hbound, h⟩ := throwIf_bind_eq_ok.mp h
  cases pure_eq_ok.mp h
  refine ⟨⟨nfeData, hfind, Decidable.not_not.mp howner, Decidable.not_not.mp hstatus, ?_⟩, by omega, by omega⟩
  exact AList.lookup_insert w.storage.nfe

theorem findNfe_of_insert {key : String} {nfeData : NfeData} (hnfe : w'.storage.nfe = w.storage.nfe.insert key nfeData) :
    findNfe w' key = some nfeData := by
  unfold findNfe
  rw [hnfe, AList.lookup_insert]

theorem findNfe_of_insert_ne {key k : String} {nfeData : NfeData}
    (hnfe : w'.storage.nfe = w.storage.nfe.insert k nfeData) (hk : key ≠ k) : findNfe w' key = findNfe w key := by
  unfold findNfe
  rw [hnfe, AList.lookup_insert_ne hk]

theorem findNfe_congr {key : String} (h : w'.storage = w.storage) : findNfe w' key = findNfe w key := by
  unfold findNfe
  rw [h]

theorem TokenCall.changes {auth : Address → Bool} {st st' : ν} {call : Call} (h : TokenCall N auth st st' call) :
    N.Changes st st' := by
  cases h with
  | transfer h => exact .transfer h
  | transferFrom h => exact .transferFrom h
  | approve h => exact .approve h
  | approveForAll h => exact .approveForAll h
  | burn h => exact .burn h
  | burnFrom h => exact .burnFrom h

end Inversion
end CredBridge.Contracts.NfeTokenization
