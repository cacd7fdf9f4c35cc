import CredBridge.Contracts.NfeEffects

/-! # The registry of the NF-e contract

The record of a key, the key of a token and the token of a hash are three maps that `tokenize_nfe` writes together
and that nothing takes entries from. They stay inverse to each other, what identifies a record never changes, and a
key or a hash that was used once is never taken again, whatever became of its record. -/

namespace CredBridge.Contracts.NfeTokenization
open Result Machine

/-- What `tokenize_nfe` writes of a record and nothing writes again. -/
structure SameInvoice (nfeData nfeData' : NfeData) : Prop where
  key : nfeData'.key = nfeData.key
  tokenId : nfeData'.tokenId = nfeData.tokenId
  value : nfeData'.value = nfeData.value
  dueDate : nfeData'.dueDate = nfeData.dueDate
  xmlHash : nfeData'.xmlHash = nfeData.xmlHash
  invoiceHash : nfeData'.invoiceHash = nfeData.invoiceHash

/-- The three maps are inverse to each other. -/
structure Registered {ν : Type} (w : World ν) : Prop where
  record : ∀ key nfeData, findNfe w key = some nfeData → nfeData.key = key ∧
    w.storage.tokenToNfe.lookup nfeData.tokenId = some key ∧
      w.storage.xmlHashToToken.lookup nfeData.xmlHash = some nfeData.tokenId
  token : ∀ tokenId key, w.storage.tokenToNfe.lookup tokenId = some key →
    ∃ nfeData, findNfe w key = some nfeData ∧ nfeData.tokenId = tokenId

/-- Whatever `tokenize_nfe` once took is still in the maps. -/
def Taken {ν : Type} : Call → World ν → Prop
  | .tokenizeNfe key _ _ xmlHash _ _, w => (findNfe w key).isSome ∧ xmlHash ∈ w.storage.xmlHashToToken
  | _, _ => True

section Steps
variable {ν : Type} {N : NonFungible ν} {issued : ν → Nat → Prop} {auth : Address → Bool} {w w' : World ν}
  {nfeData nfeData' : NfeData} {key : String} {call : Call}

theorem SameInvoice.refl (nfeData : NfeData) : SameInvoice nfeData nfeData := ⟨rfl, rfl, rfl, rfl, rfl, rfl⟩

theorem SameInvoice.trans {nfeData'' : NfeData} (h : SameInvoice nfeData nfeData')
    (h' : SameInvoice nfeData' nfeData'') : SameInvoice nfeData nfeData'' where
  key := h'.key.trans h.key
  tokenId := h'.tokenId.trans h.tokenId
  value := h'.value.trans h.value
  dueDate := h'.dueDate.trans h.dueDate
  xmlHash := h'.xmlHash.trans h.xmlHash
  invoiceHash := h'.invoiceHash.trans h.invoiceHash

theorem Updates.same {st st' : ν} (h : Updates N auth st st' key nfeData call nfeData') : SameInvoice nfeData nfeData' := by
  cases h <;> exact ⟨rfl, rfl, rfl, rfl, rfl, rfl⟩

/-- A record stays, and so does what identifies it. -/
theorem Effect.record (h : Effect N auth w w' call) (hfind : findNfe w key = some nfeData) :
    ∃ nfeData', findNfe w' key = some nfeData' ∧ SameInvoice nfeData nfeData' := by
  cases h with
  | @registered k value dueDate xmlHash owner platformAuth tokenId hcall hhash hkey hmint hnfe htoken hxml =>
    have hne : key ≠ k := by
      rintro rfl
      cases hkey.symm.trans hfind
    exact ⟨nfeData, (findNfe_of_insert_ne hnfe hne).trans hfind, .refl nfeData⟩
  | @updated k old new hold hupdates hnfe htoken hxml =>
    by_cases hk : key = k
    · subst hk
      cases hold.symm.trans hfind
      exact ⟨new, findNfe_of_insert hnfe, hupdates.same⟩
    · exact ⟨nfeData, (findNfe_of_insert_ne hnfe hk).trans hfind, .refl nfeData⟩
  | moved hstorage htokens => exact ⟨nfeData, (findNfe_congr hstorage).trans hfind, .refl nfeData⟩

theorem Effect.hash (h : Effect N auth w w' call) {xmlHash : BytesN 32} (hmem : xmlHash ∈ w.storage.xmlHashToToken) :
    xmlHash ∈ w'.storage.xmlHashToToken := by
  cases h with
  | registered hcall hhash hkey hmint hnfe htoken hxml =>
    rw [hxml]
    exact (AList.mem_insert _).mpr (.inr hmem)
  | updated hold hupdates hnfe htoken hxml => exact hxml ▸ hmem
  | moved hstorage htokens => exact hstorage ▸ hmem

/-- A token that has a key was issued, so the next one to be minted has none. -/
def Fresh (issued : ν → Nat → Prop) (w : World ν) : Prop :=
  ∀ tokenId key, w.storage.tokenToNfe.lookup tokenId = some key → issued w.tokens tokenId

theorem Effect.fresh (hN : N.Sequential issued) (h : Effect N auth w w' call) (hw : Fresh issued w) : Fresh issued w' := by
  intro tokenId key hlookup
  cases h with
  | @registered k value dueDate xmlHash owner platformAuth minted hcall hhash hkey hmint hnfe htoken hxml =>
    obtain ⟨-, hissued⟩ := hN.fresh hmint
    by_cases hid : tokenId = minted
    · exact hid ▸ hissued
    · rw [htoken, AList.lookup_insert_ne hid] at hlookup
      exact hN.stays (.sequentialMint hmint) tokenId (hw tokenId key hlookup)
  | updated hold hupdates hnfe htoken hxml =>
    rw [htoken] at hlookup
    have hissued := hw tokenId key hlookup
    cases hupdates with
    | listed hstatus htokens => exact htokens ▸ hissued
    | sold hstatus htokens => exact htokens ▸ hissued
    | transferred hstatus htransfer => exact hN.stays (.transfer htransfer) tokenId hissued
    | settled hstatus hburn => exact hN.stays (.burn hburn) tokenId hissued
  | moved hstorage htokens =>
    rw [hstorage] at hlookup
    exact hN.stays htokens.changes tokenId (hw tokenId key hlookup)

theorem Effect.registry (hN : N.Sequential issued) (h : Effect N auth w w' call) (hfresh : Fresh issued w)
    (hw : Registered w) : Registered w' := by
  cases h with
  | @registered k value dueDate xmlHash owner platformAuth minted hcall hhash hkey hmint hnfe htoken hxml =>
    have hunused : w.storage.tokenToNfe.lookup minted = none := by
      cases hlookup : w.storage.tokenToNfe.lookup minted with
      | none => rfl
      | some k' => exact absurd (hfresh minted k' hlookup) (hN.fresh hmint).1
    constructor
    · intro key nfeData hfind
      by_cases hk : key = k
      · subst hk
        cases (findNfe_of_insert hnfe).symm.trans hfind
        exact ⟨rfl, by rw [htoken]; exact AList.lookup_insert _, by rw [hxml]; exact AList.lookup_insert _⟩
      · rw [findNfe_of_insert_ne hnfe hk] at hfind
        obtain ⟨hself, hids, hhashes⟩ := hw.record key nfeData hfind
        -- The new token and the new hash are none of an older record's.
        have hid : nfeData.tokenId ≠ minted := by
          rintro rfl
          cases hunused.symm.trans hids
        have hxmlHash : nfeData.xmlHash ≠ xmlHash := by
          rintro rfl
          exact hhash (AList.lookup_isSome.mp (by rw [hhashes]; rfl))
        rw [htoken, AList.lookup_insert_ne hid, hxml, AList.lookup_insert_ne hxmlHash]
        exact ⟨hself, hids, hhashes⟩
    · intro tokenId key hlookup
      by_cases hid : tokenId = minted
      · subst hid
        rw [htoken, AList.lookup_insert] at hlookup
        cases hlookup
        exact ⟨_, findNfe_of_insert hnfe, rfl⟩
      · rw [htoken, AList.lookup_insert_ne hid] at hlookup
        obtain ⟨nfeData, hfind, htokenId⟩ := hw.token tokenId key hlookup
        have hk : key ≠ k := by
          rintro rfl
          cases hkey.symm.trans hfind
        exact ⟨nfeData, (findNfe_of_insert_ne hnfe hk).trans hfind, htokenId⟩
  | @updated k old new hold hupdates hnfe htoken hxml =>
    have hsame := hupdates.same
    constructor
    · intro key nfeData hfind
      rw [htoken, hxml]
      by_cases hk : key = k
      · subst hk
        cases (findNfe_of_insert hnfe).symm.trans hfind
        obtain ⟨hself, hids, hhashes⟩ := hw.record key old hold
        rw [hsame.key, hsame.tokenId, hsame.xmlHash]
        exact ⟨hself, hids, hhashes⟩
      · exact hw.record key nfeData ((findNfe_of_insert_ne hnfe hk).symm.trans hfind)
    · intro tokenId key hlookup
      rw [htoken] at hlookup
      obtain ⟨nfeData, hfind, htokenId⟩ := hw.token tokenId key hlookup
      by_cases hk : key = k
      · subst hk
        cases hold.symm.trans hfind
        exact ⟨new, findNfe_of_insert hnfe, hsame.tokenId.trans htokenId⟩
      · exact ⟨nfeData, (findNfe_of_insert_ne hnfe hk).trans hfind, htokenId⟩
  | moved hstorage htokens =>
    constructor
    · intro key nfeData hfind
      rw [hstorage]
      exact hw.record key nfeData ((findNfe_congr hstorage).symm.trans hfind)
    · intro tokenId key hlookup
      rw [hstorage] at hlookup
      obtain ⟨nfeData, hfind, htokenId⟩ := hw.token tokenId key hlookup
      exact ⟨nfeData, (findNfe_congr hstorage).trans hfind, htokenId⟩

theorem Effect.taken (h : Effect N auth w w' call) {call' : Call} (htaken : Taken call' w) : Taken call' w' := by
  cases call' with
  | tokenizeNfe k value dueDate xmlHash owner platformAuth =>
    obtain ⟨hsome, hmem⟩ := htaken
    obtain ⟨nfeData, hfind⟩ := Option.isSome_iff_exists.mp hsome
    obtain ⟨nfeData', hfind', -⟩ := h.record hfind
    exact ⟨hfind' ▸ rfl, h.hash hmem⟩
  | _ => trivial

theorem Effect.takes (h : Effect N auth w w' call) : Taken call w' := by
  cases h with
  | registered hcall hhash hkey hmint hnfe htoken hxml =>
    subst hcall
    refine ⟨by rw [findNfe_of_insert hnfe]; rfl, ?_⟩
    rw [hxml]
    exact (AList.mem_insert _).mpr (.inl rfl)
  | updated hold hupdates hnfe htoken hxml => cases hupdates <;> trivial
  | moved hstorage htokens => cases htokens <;> trivial

end Steps

section Runs
variable {ν : Type} {N : NonFungible ν} {issued : ν → Nat → Prop} {w : World ν}

theorem registered_construct (tokens : ν) (platform : Address) : Registered (construct tokens platform) where
  record _ _ h := by cases h
  token _ _ h := by cases h

theorem registered_run (hN : N.Sequential issued) (hfresh : Fresh issued w) (hw : Registered w) (is : List Invocation) :
    Registered (run (step N) w is) :=
  (run_of_step (I := fun w => Fresh issued w ∧ Registered w) (fun _ _ _ hw h =>
    ⟨(step_effect h).fresh hN hw.1, (step_effect h).registry hN hw.1 hw.2⟩) ⟨hfresh, hw⟩ is).2

theorem record_run {key : String} {nfeData : NfeData} (hfind : findNfe w key = some nfeData) (is : List Invocation) :
    ∃ nfeData', findNfe (run (step N) w is) key = some nfeData' ∧ SameInvoice nfeData nfeData' :=
  run_of_step (I := fun w' => ∃ nfeData', findNfe w' key = some nfeData' ∧ SameInvoice nfeData nfeData')
    (fun _ _ _ ⟨_, hmid, hsame⟩ h =>
      have ⟨last, hlast, hsame'⟩ := (step_effect h).record hmid
      ⟨last, hlast, hsame.trans hsame'⟩) ⟨nfeData, hfind, .refl nfeData⟩ is

theorem taken_run (tokens : ν) (platform : Address) (is : List Invocation) :
    ∀ i ∈ accepted (step N) (construct tokens platform) is,
      Taken i.call (run (step N) (construct tokens platform) is) :=
  mark_of_mem_accepted (I := fun _ => True) (M := fun (i : Invocation) (w : World ν) => Taken i.call w) (fun _ _ _ _ _ => trivial)
    (fun _ _ _ _ h => (step_effect h).takes) (fun _ _ _ _ _ htaken h => (step_effect h).taken htaken) trivial

/-- Different records have different tokens and different hashes. -/
theorem Registered.distinct (hw : Registered w) {key key' : String} {nfeData nfeData' : NfeData}
    (hfind : findNfe w key = some nfeData) (hfind' : findNfe w key' = some nfeData') (hne : key ≠ key') :
    nfeData.tokenId ≠ nfeData'.tokenId ∧ nfeData.xmlHash ≠ nfeData'.xmlHash := by
  obtain ⟨-, htoken, hhash⟩ := hw.record key nfeData hfind
  obtain ⟨-, htoken', hhash'⟩ := hw.record key' nfeData' hfind'
  have htokens : nfeData.tokenId ≠ nfeData'.tokenId := fun heq =>
    hne (Option.some.inj (htoken.symm.trans (heq ▸ htoken')))
  exact ⟨htokens, fun heq => htokens (Option.some.inj (hhash.symm.trans (heq ▸ hhash')))⟩

theorem Registered.getNfeByTokenId (hw : Registered w) {tokenId : Nat} {nfeData : NfeData}
    (h : getNfeByTokenId w tokenId = .ok nfeData) :
    nfeData.tokenId = tokenId ∧ findNfe w nfeData.key = some nfeData := by
  obtain ⟨key, hkey, h⟩ := orThrow_bind_eq_ok.mp h
  obtain ⟨nfeData', hfind, htoken⟩ := hw.token tokenId key hkey
  have hsame : some nfeData' = some nfeData := hfind.symm.trans (orThrow_eq_ok.mp h)
  cases hsame
  exact ⟨htoken, (hw.record key nfeData hfind).1.symm ▸ hfind⟩

/-- A key or a hash that is in the maps cannot be taken. -/
theorem tokenizeNfe_reused {env : Env} {key : String} {value : Int} {dueDate : Nat} {xmlHash : BytesN 32}
    {owner platformAuth : Address} (h : (findNfe w key).isSome ∨ xmlHash ∈ w.storage.xmlHashToToken) (w' : World ν) :
    tokenizeNfe N env w key value dueDate xmlHash owner platformAuth ≠ .ok w' := by
  intro hok
  obtain ⟨_, -, hok⟩ := bind_eq_ok.mp hok
  obtain ⟨hhash, hok⟩ := throwIf_bind_eq_ok.mp hok
  obtain ⟨hkey, -⟩ := throwIf_bind_eq_ok.mp hok
  exact h.elim hkey hhash

end Runs

/-- In every state that a run of invocations reaches, the registry is a bijection between keys, tokens and hashes; it
    stays one in every state after it, with the same records; and what was tokenized in it is never tokenized again. -/
theorem registry_bijective {ν : Type} (N : NonFungible ν) (issued : ν → Nat → Prop) (hN : N.Sequential issued)
    (tokens : ν) (platform : Address) (is : List Invocation) :
    let w := run (step N) (construct tokens platform) is
    (∀ key nfeData, findNfe w key = some nfeData → nfeData.key = key ∧
      w.storage.tokenToNfe.lookup nfeData.tokenId = some key ∧
        w.storage.xmlHashToToken.lookup nfeData.xmlHash = some nfeData.tokenId) ∧
    (∀ key key' nfeData nfeData', findNfe w key = some nfeData → findNfe w key' = some nfeData' → key ≠ key' →
      nfeData.tokenId ≠ nfeData'.tokenId ∧ nfeData.xmlHash ≠ nfeData'.xmlHash) ∧
    (∀ key nfeData, findNfe w key = some nfeData → ∀ js : List Invocation,
      ∃ nfeData', findNfe (run (step N) w js) key = some nfeData' ∧ SameInvoice nfeData nfeData') ∧
    (∀ tokenId nfeData, getNfeByTokenId w tokenId = .ok nfeData →
      nfeData.tokenId = tokenId ∧ findNfe w nfeData.key = some nfeData) ∧
    (∀ i ∈ accepted (step N) (construct tokens platform) is, ∀ key value dueDate xmlHash owner platformAuth,
      i.call = .tokenizeNfe key value dueDate xmlHash owner platformAuth →
      ∀ env key' value' dueDate' xmlHash' owner' platformAuth', key' = key ∨ xmlHash' = xmlHash →
      ∀ w', tokenizeNfe N env w key' value' dueDate' xmlHash' owner' platformAuth' ≠ .ok w') := by
  intro w
  have hfresh : Fresh issued (construct tokens platform) := fun _ _ h => by cases h
  have hw : Registered w := registered_run hN hfresh (registered_construct tokens platform) is
  refine ⟨hw.record, fun key key' nfeData nfeData' h h' hne => hw.distinct h h' hne, fun key nfeData h js =>
    record_run h js, fun tokenId nfeData h => hw.getNfeByTokenId h, ?_⟩
  intro i hi key value dueDate xmlHash owner platformAuth hcall env key' value' dueDate' xmlHash' owner' platformAuth'
    hreused w'
  have htaken : Taken i.call w := taken_run tokens platform is i hi
  rw [hcall] at htaken
  obtain ⟨hsome, hmem⟩ := htaken
  refine tokenizeNfe_reused ?_ w'
  rcases hreused with rfl | rfl
  · exact .inl hsome
  · exact .inr hmem

section Examples

def platform : Address := .account 0

def pme : Address := .account 1

def everyoneSigns : Env := ⟨.contract 0, fun _ => true, 0⟩

def hash (n : UInt8) : BytesN 32 := Vector.replicate 32 n

def tokenizes (key : String) (n : UInt8) : Invocation := ⟨everyoneSigns, .tokenizeNfe key 10000 0 (hash n) pme platform⟩

/-- The key of an NF-e that was settled is not taken again. -/
theorem registry_bijective_settled :
    let w := run (step ownedTokens) (construct OwnedTokens.empty platform)
      [tokenizes "invoice" 1, ⟨everyoneSigns, .settleNfe "invoice" platform⟩]
    (findNfe w "invoice").map NfeData.status = some .settled ∧
      ∀ w', tokenizeNfe ownedTokens everyoneSigns w "invoice" 20000 0 (hash 2) pme platform ≠ .ok w' :=
  ⟨by decide +kernel, (registry_bijective ownedTokens _ ownedTokens_sequential OwnedTokens.empty platform _).2.2.2.2
    (tokenizes "invoice" 1) List.mem_cons_self _ _ _ _ _ _ rfl everyoneSigns _ _ _ _ _ _ (.inl rfl)⟩

end Examples
end CredBridge.Contracts.NfeTokenization
