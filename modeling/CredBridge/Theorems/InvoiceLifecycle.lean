import CredBridge.Contracts.NfeEffects

/-! # The life of an NF-e

Each of the contract's functions that changes a record asks for one status of it (`settle_nfe` for one of two), so a
key's statuses follow one of two paths, and each field of a record changes in one status only. The functions of the
token standard change no record. Nothing is asked of the token library. -/

namespace CredBridge.Contracts.NfeTokenization
open Result Machine

def statusOf {ν : Type} (key : String) (w : World ν) : Option NfeStatus := (findNfe w key).map NfeData.status

/-- One step of a key's life. -/
inductive Follows : Option NfeStatus → Option NfeStatus → Prop
  | tokenized : Follows none (some .active)
  | listed : Follows (some .active) (some .listedForSale)
  | sold : Follows (some .listedForSale) (some .soldToPool)
  | settledUnsold : Follows (some .active) (some .settled)
  | settledSold : Follows (some .soldToPool) (some .settled)

/-- What one step may make of a record. -/
structure Ages (nfeData nfeData' : NfeData) : Prop where
  owner : nfeData'.owner ≠ nfeData.owner → nfeData.status = .active ∧ nfeData'.status = .active
  terms : nfeData'.rateBps ≠ nfeData.rateBps ∨ nfeData'.advanceAmount ≠ nfeData.advanceAmount →
    nfeData.status = .active ∧ nfeData'.status = .listedForSale
  settled : nfeData.status = .settled → nfeData' = nfeData

def Call.marksAsSold (key : String) : Call → Bool
  | .markAsSold k _ => k = key
  | _ => false

section Steps
variable {ν : Type} {N : NonFungible ν} {auth : Address → Bool} {w w' : World ν} {nfeData nfeData' : NfeData}
  {key : String} {call : Call}

theorem Ages.refl (nfeData : NfeData) : Ages nfeData nfeData :=
  ⟨fun h => absurd rfl h, fun h => h.elim (absurd rfl) (absurd rfl), fun _ => rfl⟩

theorem Updates.ages {st st' : ν} (h : Updates N auth st st' key nfeData call nfeData') : Ages nfeData nfeData' := by
  cases h with
  | listed hstatus htokens =>
    exact ⟨fun h => absurd rfl h, fun _ => ⟨hstatus, rfl⟩, fun h => nomatch hstatus.symm.trans h⟩
  | sold hstatus htokens =>
    exact ⟨fun h => absurd rfl h, fun h => h.elim (absurd rfl) (absurd rfl), fun h => nomatch hstatus.symm.trans h⟩
  | transferred hstatus htransfer =>
    exact ⟨fun _ => ⟨hstatus, hstatus⟩, fun h => h.elim (absurd rfl) (absurd rfl), fun h => nomatch hstatus.symm.trans h⟩
  | settled hstatus hburn =>
    refine ⟨fun h => absurd rfl h, fun h => h.elim (absurd rfl) (absurd rfl), fun h => ?_⟩
    rcases hstatus with hstatus | hstatus
    · exact nomatch hstatus.symm.trans h
    · exact nomatch hstatus.symm.trans h

theorem Updates.follows {st st' : ν} (h : Updates N auth st st' key nfeData call nfeData') :
    nfeData'.status = nfeData.status ∨ Follows (some nfeData.status) (some nfeData'.status) := by
  cases h with
  | listed hstatus htokens => exact .inr (hstatus ▸ .listed)
  | sold hstatus htokens => exact .inr (hstatus ▸ .sold)
  | transferred hstatus htransfer => exact .inl rfl
  | settled hstatus hburn =>
    rcases hstatus with hstatus | hstatus
    · exact .inr (hstatus ▸ .settledUnsold)
    · exact .inr (hstatus ▸ .settledSold)

/-- What an invocation may do to what is found under a key. -/
theorem Effect.found (h : Effect N auth w w' call) (key : String) :
    findNfe w' key = findNfe w key ∨
      (findNfe w key = none ∧ ∃ nfeData, findNfe w' key = some nfeData ∧ nfeData.status = .active) ∨
      ∃ nfeData nfeData', findNfe w key = some nfeData ∧ findNfe w' key = some nfeData' ∧
        Updates N auth w.tokens w'.tokens key nfeData call nfeData' := by
  cases h with
  | @registered k value dueDate xmlHash owner platformAuth tokenId hcall hhash hkey hmint hnfe htoken hxml =>
    by_cases hk : key = k
    · exact .inr (.inl ⟨hk ▸ hkey, _, hk ▸ findNfe_of_insert hnfe, rfl⟩)
    · exact .inl (findNfe_of_insert_ne hnfe hk)
  | @updated k old new hold hupdates hnfe htoken hxml =>
    by_cases hk : key = k
    · exact .inr (.inr ⟨old, new, hk ▸ hold, hk ▸ findNfe_of_insert hnfe, hk ▸ hupdates⟩)
    · exact .inl (findNfe_of_insert_ne hnfe hk)
  | moved hstorage htokens => exact .inl (findNfe_congr hstorage)

theorem Effect.follows (h : Effect N auth w w' call) (key : String) :
    statusOf key w' = statusOf key w ∨ Follows (statusOf key w) (statusOf key w') := by
  unfold statusOf
  rcases h.found key with hsame | ⟨hnone, nfeData, hfind, hstatus⟩ | ⟨nfeData, nfeData', hfind, hfind', hupdates⟩
  · exact .inl (congrArg _ hsame)
  · rw [hnone, hfind, Option.map_some, hstatus]
    exact .inr .tokenized
  · rw [hfind, hfind']
    exact hupdates.follows.imp_left (congrArg some)

theorem Effect.ages (h : Effect N auth w w' call) (hfind : findNfe w key = some nfeData) :
    ∃ nfeData', findNfe w' key = some nfeData' ∧ Ages nfeData nfeData' := by
  rcases h.found key with hsame | ⟨hnone, -⟩ | ⟨old, new, hold, hnew, hupdates⟩
  · exact ⟨nfeData, hsame.trans hfind, .refl nfeData⟩
  · cases hnone.symm.trans hfind
  · cases hold.symm.trans hfind
    exact ⟨new, hnew, hupdates.ages⟩

theorem Effect.marksAsSold (h : Effect N auth w w' call) (hcall : call.marksAsSold key = true) :
    statusOf key w = some .listedForSale ∧ statusOf key w' = some .soldToPool := by
  cases h with
  | registered hregister => subst hregister; cases hcall
  | @updated k old new hold hupdates hnfe htoken hxml =>
    cases hupdates with
    | sold hstatus htokens =>
      have hk : k = key := of_decide_eq_true hcall
      subst hk
      unfold statusOf
      rw [hold, findNfe_of_insert hnfe, Option.map_some, hstatus]
      exact ⟨rfl, rfl⟩
    | _ => cases hcall
  | moved hstorage htokens => cases htokens <;> cases hcall

end Steps

/-- A life that starts with nothing goes one of two ways. -/
theorem prefix_of_follows {history : List (Option NfeStatus)} (h : (none :: history).IsChain Follows) :
    history <+: [some .active, some .settled] ∨
      history <+: [some .active, some .listedForSale, some .soldToPool, some .settled] := by
  cases h with
  | singleton => exact .inl List.nil_prefix
  | cons_cons hfirst h =>
    cases hfirst with
    | tokenized =>
      cases h with
      | singleton => exact .inl ⟨_, rfl⟩
      | cons_cons hsecond h =>
        cases hsecond with
        | settledUnsold =>
          cases h with
          | singleton => exact .inl ⟨_, rfl⟩
          | cons_cons hlast h => cases hlast
        | listed =>
          right
          cases h with
          | singleton => exact ⟨_, rfl⟩
          | cons_cons hthird h =>
            cases hthird with
            | sold =>
              cases h with
              | singleton => exact ⟨_, rfl⟩
              | cons_cons hfourth h =>
                cases hfourth with
                | settledSold =>
                  cases h with
                  | singleton => exact ⟨_, rfl⟩
                  | cons_cons hlast h => cases hlast

/-- The pool buys once: nothing leads from its purchase back to a sale. -/
theorem Follows.after_sale {old new : Option NfeStatus} (h : Follows old new)
    (hold : old = some .soldToPool ∨ old = some .settled) : new = some .settled := by
  cases h with
  | settledSold => rfl
  | _ => rcases hold with hold | hold <;> cases hold

theorem Effect.sold {ν : Type} {N : NonFungible ν} {auth : Address → Bool} {w w' : World ν} {key : String} {call : Call}
    (h : Effect N auth w w' call) (hsold : statusOf key w = some .soldToPool ∨ statusOf key w = some .settled) :
    statusOf key w' = some .soldToPool ∨ statusOf key w' = some .settled := by
  rcases h.follows key with hsame | hfollows
  · rwa [hsame]
  · exact .inr (hfollows.after_sale hsold)

/-- Over every run of the contract's functions and the token standard's, by any callers: a key's statuses follow one of
    the two paths, it is marked as sold once at most, and each step lets its record age only as its status allows. -/
theorem nfe_lifecycle {ν : Type} (N : NonFungible ν) (tokens : ν) (platform : Address) (key : String)
    (is : List Invocation) :
    let w := construct tokens platform
    (changes (step N) (statusOf key) w is <+: [some .active, some .settled] ∨
      changes (step N) (statusOf key) w is <+:
        [some .active, some .listedForSale, some .soldToPool, some .settled]) ∧
    (accepted (step N) w is).countP (fun i => i.call.marksAsSold key) ≤ 1 ∧
    Along (step N) (fun w i => ∀ nfeData, findNfe w key = some nfeData →
      ∃ nfeData', findNfe (next (step N) w i) key = some nfeData' ∧ Ages nfeData nfeData') w is := by
  intro w
  refine ⟨prefix_of_follows ?_, ?_, ?_⟩
  · exact changes_isChain (f := statusOf key) (fun s i t h => (step_effect h).follows key) w is
  · refine countP_accepted_le_one (A := fun w => statusOf key w = some .soldToPool ∨ statusOf key w = some .settled)
      (fun s i t hi h => ?_) (fun s i t hi h => ?_) (fun s i t hs h => (step_effect h).sold hs) w is
    · rw [((step_effect h).marksAsSold hi).1]
      simp
    · exact .inl ((step_effect h).marksAsSold hi).2
  · refine along_of_step (I := fun _ => True) (Q := fun _ _ => True) (fun _ _ _ _ _ => trivial) ?_ trivial
      (.of_forall fun _ _ => trivial)
    intro s i _ _ nfeData hfind
    rcases next_cases (step N) s i with h | h
    · exact (step_effect h).ages hfind
    · exact ⟨nfeData, by rw [h]; exact hfind, .refl nfeData⟩

end CredBridge.Contracts.NfeTokenization
