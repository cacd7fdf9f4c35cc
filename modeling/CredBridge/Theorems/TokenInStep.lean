import CredBridge.Theorems.InvoiceRegistry

/-! # A record and its token

The contract keeps who owns an NF-e twice: in its record and in its token. Its own functions write both. The token
standard's `transfer`, `transfer_from`, `burn` and `burn_from`, which it exports too, write the token alone, and each of
them that succeeds on somebody else than the holder takes the two apart. -/

namespace CredBridge.Contracts.NfeTokenization
open Result Machine

/-- Until it is settled an NF-e has a token, which is its recorded owner's; once it is settled it has none. -/
def InStep {ν : Type} (N : NonFungible ν) (w : World ν) : Prop :=
  ∀ key nfeData, findNfe w key = some nfeData →
    (nfeData.status ≠ .settled → N.ownerOf w.tokens nfeData.tokenId = some nfeData.owner) ∧
      (N.ownerOf w.tokens nfeData.tokenId = none ↔ nfeData.status = .settled)

/-- A call that takes no token from its holder behind the record's back. -/
def Call.KeepsHolder : Call → Prop
  | .transfer sender receiver _ => sender = receiver
  | .transferFrom _ sender receiver _ => sender = receiver
  | .burn _ _ => False
  | .burnFrom _ _ _ => False
  | _ => True

def NfeData.holder (nfeData : NfeData) : Option Address := if nfeData.status = .settled then none else some nfeData.owner

/-- Every token is the token of a key. -/
def Recorded {ν : Type} (N : NonFungible ν) (w : World ν) : Prop :=
  ∀ tokenId owner, N.ownerOf w.tokens tokenId = some owner → ∃ key, w.storage.tokenToNfe.lookup tokenId = some key

section Steps
variable {ν : Type} {N : NonFungible ν} {issued : ν → Nat → Prop} {auth : Address → Bool} {w w' : World ν}
  {nfeData nfeData' : NfeData} {call : Call}

theorem inStep_iff : InStep N w ↔
    ∀ key nfeData, findNfe w key = some nfeData → N.ownerOf w.tokens nfeData.tokenId = nfeData.holder := by
  refine forall_congr' fun key => forall_congr' fun nfeData => imp_congr_right fun _ => ?_
  unfold NfeData.holder
  by_cases hstatus : nfeData.status = .settled <;> simp +contextual [hstatus]

/-- Only a mint makes a token. -/
theorem TokenCall.existing (hN : N.Lawful) {st st' : ν} (h : TokenCall N auth st st' call) {j : Nat} {a : Address}
    (ha : N.ownerOf st' j = some a) : ∃ b, N.ownerOf st j = some b := by
  cases h with
  | transfer h => exact (hN.transfer h).2.existing ha
  | transferFrom h => exact (hN.transferFrom h).2.existing ha
  | approve h => exact ⟨a, ((hN.approve h).2 j).symm.trans ha⟩
  | approveForAll h => exact ⟨a, ((hN.approveForAll h).2 j).symm.trans ha⟩
  | burn h => exact (hN.burn h).2.existing ha
  | burnFrom h => exact (hN.burnFrom h).2.existing ha

theorem Updates.existing (hN : N.Lawful) {st st' : ν} {key : String}
    (h : Updates N auth st st' key nfeData call nfeData') {j : Nat} {a : Address} (ha : N.ownerOf st' j = some a) :
    ∃ b, N.ownerOf st j = some b := by
  cases h with
  | listed hstatus htokens => exact ⟨a, htokens ▸ ha⟩
  | sold hstatus htokens => exact ⟨a, htokens ▸ ha⟩
  | transferred hstatus htransfer => exact (hN.transfer htransfer).2.existing ha
  | settled hstatus hburn => exact (hN.burn hburn).2.existing ha

theorem Effect.recorded (hN : N.Lawful) (h : Effect N auth w w' call) (hw : Recorded N w) : Recorded N w' := by
  intro j a ha
  cases h with
  | @registered k value dueDate xmlHash owner platformAuth tokenId hcall hhash hkey hmint hnfe htoken hxml =>
    rw [htoken]
    by_cases hj : j = tokenId
    · exact ⟨k, hj ▸ AList.lookup_insert _⟩
    · rw [AList.lookup_insert_ne hj]
      exact hw j a (by rw [← ha, (hN.sequentialMint hmint).2 j, if_neg hj])
  | updated hold hupdates hnfe htoken hxml =>
    obtain ⟨b, hb⟩ := hupdates.existing hN ha
    exact htoken ▸ hw j b hb
  | moved hstorage htokens =>
    obtain ⟨b, hb⟩ := htokens.existing hN ha
    exact hstorage ▸ hw j b hb

/-- What the contract's own function makes of a record's token is what it writes in the record. -/
theorem Updates.holder (hN : N.Lawful) {st st' : ν} {key : String} (h : Updates N auth st st' key nfeData call nfeData')
    (hold : N.ownerOf st nfeData.tokenId = nfeData.holder) :
    N.ownerOf st' nfeData.tokenId = nfeData'.holder ∧
      ∀ j, j ≠ nfeData.tokenId → N.ownerOf st' j = N.ownerOf st j := by
  cases h with
  | listed hstatus htokens =>
    subst htokens
    exact ⟨hold.trans (by simp [NfeData.holder, hstatus]), fun _ _ => rfl⟩
  | sold hstatus htokens =>
    subst htokens
    exact ⟨hold.trans (by simp [NfeData.holder, hstatus]), fun _ _ => rfl⟩
  | transferred hstatus htransfer =>
    obtain ⟨-, -, hmoves⟩ := hN.transfer htransfer
    refine ⟨?_, fun j hj => (hmoves j).trans (if_neg hj)⟩
    rw [hmoves, if_pos rfl]
    simp [NfeData.holder, hstatus]
  | settled hstatus hburn =>
    obtain ⟨-, -, hmoves⟩ := hN.burn hburn
    refine ⟨?_, fun j hj => (hmoves j).trans (if_neg hj)⟩
    rw [hmoves, if_pos rfl]
    rfl

/-- A token that goes from one holder to another stays in step with its record only if they are the same. -/
theorem inStep_moves_iff (hregistered : Registered w) (hrecorded : Recorded N w) (hin : InStep N w)
    (hstorage : w'.storage = w.storage) {tokenId : Nat} {sender : Address} {receiver : Option Address}
    (hmoves : N.Moves w.tokens w'.tokens tokenId (some sender) receiver) : InStep N w' ↔ receiver = some sender := by
  obtain ⟨howner, hafter⟩ := hmoves
  rw [inStep_iff] at hin ⊢
  constructor
  · intro hin'
    obtain ⟨key, hkey⟩ := hrecorded tokenId sender howner
    obtain ⟨nfeData, hfind, rfl⟩ := hregistered.token tokenId key hkey
    have hbefore := hin key nfeData hfind
    have hnow := hin' key nfeData ((findNfe_congr hstorage).trans hfind)
    rw [hafter, if_pos rfl] at hnow
    rw [hnow, ← hbefore, howner]
  · rintro rfl key nfeData hfind
    have hbefore := hin key nfeData ((findNfe_congr hstorage).symm.trans hfind)
    rw [hafter]
    split
    · next hid => rw [← hbefore, hid, howner]
    · exact hbefore

theorem inStep_of_same (hin : InStep N w) (hstorage : w'.storage = w.storage)
    (hsame : ∀ j, N.ownerOf w'.tokens j = N.ownerOf w.tokens j) : InStep N w' := by
  intro key nfeData hfind
  rw [hsame]
  exact hin key nfeData ((findNfe_congr hstorage).symm.trans hfind)

theorem Effect.inStep_iff (hN : N.Lawful) (hS : N.Sequential issued) (h : Effect N auth w w' call)
    (hfresh : Fresh issued w) (hregistered : Registered w) (hrecorded : Recorded N w) (hin : InStep N w) :
    InStep N w' ↔ call.KeepsHolder := by
  cases h with
  | @registered k value dueDate xmlHash owner platformAuth tokenId hcall hhash hkey hmint hnfe htoken hxml =>
    subst hcall
    refine iff_true_intro ?_
    obtain ⟨-, hafter⟩ := hN.sequentialMint hmint
    rw [NfeTokenization.inStep_iff] at hin ⊢
    intro key nfeData hfind
    by_cases hk : key = k
    · subst hk
      cases (findNfe_of_insert hnfe).symm.trans hfind
      exact (hafter tokenId).trans (if_pos rfl)
    · rw [findNfe_of_insert_ne hnfe hk] at hfind
      -- An older record, settled or not, has a token that was issued before.
      have hid : nfeData.tokenId ≠ tokenId := by
        rintro rfl
        exact (hS.fresh hmint).1 (hfresh _ _ (hregistered.record key nfeData hfind).2.1)
      rw [hafter, if_neg hid]
      exact hin key nfeData hfind
  | @updated k old new hold hupdates hnfe htoken hxml =>
    have hkeeps : call.KeepsHolder := by cases hupdates <;> trivial
    refine iff_of_true ?_ hkeeps
    rw [NfeTokenization.inStep_iff] at hin ⊢
    obtain ⟨hself, hothers⟩ := hupdates.holder hN (hin k old hold)
    intro key nfeData hfind
    by_cases hk : key = k
    · subst hk
      cases (findNfe_of_insert hnfe).symm.trans hfind
      rw [hupdates.same.tokenId]
      exact hself
    · rw [findNfe_of_insert_ne hnfe hk] at hfind
      rw [hothers _ (hregistered.distinct hfind hold hk).1]
      exact hin key nfeData hfind
  | moved hstorage htokens =>
    cases htokens with
    | transfer h =>
      exact (inStep_moves_iff hregistered hrecorded hin hstorage (hN.transfer h).2).trans (by simp [Call.KeepsHolder, eq_comm])
    | transferFrom h =>
      exact (inStep_moves_iff hregistered hrecorded hin hstorage (hN.transferFrom h).2).trans
        (by simp [Call.KeepsHolder, eq_comm])
    | approve h => exact iff_true_intro (inStep_of_same hin hstorage (hN.approve h).2)
    | approveForAll h => exact iff_true_intro (inStep_of_same hin hstorage (hN.approveForAll h).2)
    | burn h =>
      exact (inStep_moves_iff hregistered hrecorded hin hstorage (hN.burn h).2).trans (by simp [Call.KeepsHolder])
    | burnFrom h =>
      exact (inStep_moves_iff hregistered hrecorded hin hstorage (hN.burnFrom h).2).trans (by simp [Call.KeepsHolder])

end Steps

/-- A run keeps every record in step with its token exactly if none of its calls that succeed burns a token, or
    transfers one to somebody else, past the contract's own functions. -/
theorem in_step_iff_keeps_holders {ν : Type} (N : NonFungible ν) (hN : N.Lawful) (issued : ν → Nat → Prop)
    (hS : N.Sequential issued) (tokens : ν) (hempty : ∀ tokenId, N.ownerOf tokens tokenId = none) (platform : Address)
    (is : List Invocation) :
    Throughout (step N) (InStep N) (construct tokens platform) is ↔
      Along (step N) (fun w i => ∀ w', step N w i = .ok w' → i.call.KeepsHolder) (construct tokens platform) is := by
  refine throughout_iff_along (I := fun w => Fresh issued w ∧ Registered w ∧ Recorded N w) ?_ ?_ ?_ ?_
  · rintro w i w' ⟨hfresh, hregistered, hrecorded⟩ h
    have heffect := step_effect h
    exact ⟨heffect.fresh hS hfresh, heffect.registry hS hfresh hregistered, heffect.recorded hN hrecorded⟩
  · rintro w i w' ⟨hfresh, hregistered, hrecorded⟩ hin h
    exact (step_effect h).inStep_iff hN hS hfresh hregistered hrecorded hin
  · refine ⟨fun _ _ h => ?_, registered_construct tokens platform, fun tokenId owner h => ?_⟩
    · cases h
    · cases (hempty tokenId).symm.trans h
  · intro _ _ h
    cases h

section Examples

def investor : Address := .account 2

/-- An NF-e that is handed over and settled by the contract's own functions. -/
theorem in_step_iff_keeps_holders_settled :
    let is := [tokenizes "invoice" 1, ⟨everyoneSigns, .transferOwnership "invoice" platform⟩,
      ⟨everyoneSigns, .settleNfe "invoice" platform⟩]
    ((findNfe (run (step ownedTokens) (construct OwnedTokens.empty platform) is) "invoice").map NfeData.status =
        some .settled) ∧
      Throughout (step ownedTokens) (InStep ownedTokens) (construct OwnedTokens.empty platform) is :=
  ⟨by decide +kernel, (in_step_iff_keeps_holders ownedTokens ownedTokens_lawful _ ownedTokens_sequential
    OwnedTokens.empty (fun _ => rfl) platform _).mpr ⟨fun _ _ => trivial, fun _ _ => trivial, fun _ _ => trivial, trivial⟩⟩

/-- The owner burns the token of an active NF-e; and somebody whom the owner approved moves it. -/
theorem token_out_of_step :
    ¬Throughout (step ownedTokens) (InStep ownedTokens) (construct OwnedTokens.empty platform)
        [tokenizes "invoice" 1, ⟨everyoneSigns, .burn pme 0⟩] ∧
      ¬Throughout (step ownedTokens) (InStep ownedTokens) (construct OwnedTokens.empty platform)
        [tokenizes "invoice" 1, ⟨everyoneSigns, .approve pme investor 0 100⟩,
          ⟨everyoneSigns, .transferFrom investor pme investor 0⟩] := by
  constructor
  · intro h
    have howned := (h.last "invoice" _ rfl).1 (by decide +kernel)
    revert howned
    decide +kernel
  · intro h
    have howned := (h.last "invoice" _ rfl).1 (by decide +kernel)
    revert howned
    decide +kernel

end Examples
end CredBridge.Contracts.NfeTokenization
