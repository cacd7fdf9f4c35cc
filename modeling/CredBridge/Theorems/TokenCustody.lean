import CredBridge.Theorems.InvoiceLifecycle
import CredBridge.Theorems.TokenInStep

/-! # Who moves the token of an NF-e

The contract lets nobody but the platform register, settle or `transfer`. Its `transfer_ownership` asks for the old
owner only, and `transfer_from`, `burn` and `burn_from` are the library's, which ask for the holder or for somebody
whom the holder approved. Settling burns the token in its recorded owner's name, and so needs that owner's signature. -/

namespace CredBridge.Contracts.NfeTokenization
open Result Machine

/-- A call that asks for the platform. -/
def Call.Guarded : Call → Prop
  | .tokenizeNfe _ _ _ _ _ _ => True
  | .markAsSold _ _ => True
  | .settleNfe _ _ => True
  | .transfer _ _ _ => True
  | _ => False

/-- A call that does not, and takes a token from its holder. -/
def Call.TakesUnguarded {ν : Type} (w : World ν) : Call → Prop
  | .transferOwnership key newOwner => ∀ nfeData ∈ findNfe w key, nfeData.owner ≠ newOwner
  | .transferFrom _ sender receiver _ => sender ≠ receiver
  | .burn _ _ => True
  | .burnFrom _ _ _ => True
  | _ => False

/-- Only the platform moves the tokens of the NF-es that are not settled. -/
def PlatformMoves {ν : Type} (N : NonFungible ν) (platform : Address) (w : World ν) (i : Invocation) : Prop :=
  ∀ w', step N w i = .ok w' → ∀ key, statusOf key w ≠ some .settled → tokenOwner N w' key ≠ tokenOwner N w key →
    i.env.auth platform = true

/-- The token of a settled NF-e is nobody's. -/
def Burned {ν : Type} (N : NonFungible ν) (w : World ν) : Prop :=
  ∀ key nfeData, findNfe w key = some nfeData → nfeData.status = .settled → N.ownerOf w.tokens nfeData.tokenId = none

section Platform
variable {ν : Type} {N : NonFungible ν} {env : Env} {w w' : World ν} {call : Call} {platform : Address}

theorem requirePlatform_eq_ok {platformAuth : Address} {u : Unit} :
    requirePlatform env w platformAuth = .ok u ↔ w.storage.platform = some platformAuth ∧ env.auth platformAuth = true := by
  unfold requirePlatform
  rw [orThrow_bind_eq_ok]
  constructor
  · rintro ⟨platform, hplatform, h⟩
    obtain ⟨_, hauth, h⟩ := bind_eq_ok.mp h
    cases Decidable.not_not.mp (throwIf_eq_ok.mp h)
    exact ⟨hplatform, requireAuth_eq_ok.mp hauth⟩
  · rintro ⟨hplatform, hauth⟩
    exact ⟨platformAuth, hplatform, bind_eq_ok.mpr ⟨(), requireAuth_eq_ok.mpr hauth, throwIf_eq_ok.mpr (not_not_intro rfl)⟩⟩

theorem Call.Guarded.authorized (hguarded : call.Guarded) (hplatform : w.storage.platform = some platform)
    (h : invoke N env w call = .ok w') : env.auth platform = true := by
  have hrequired : ∀ platformAuth, requirePlatform env w platformAuth = .ok () → env.auth platform = true := by
    intro platformAuth hrequire
    obtain ⟨hsame, hauth⟩ := requirePlatform_eq_ok.mp hrequire
    cases hplatform.symm.trans hsame
    exact hauth
  cases call with
  | tokenizeNfe =>
    obtain ⟨_, hrequire, -⟩ := bind_eq_ok.mp h
    exact hrequired _ hrequire
  | markAsSold =>
    obtain ⟨_, hrequire, -⟩ := bind_eq_ok.mp h
    exact hrequired _ hrequire
  | settleNfe =>
    obtain ⟨_, hrequire, -⟩ := bind_eq_ok.mp h
    exact hrequired _ hrequire
  | transfer =>
    obtain ⟨_, hsame, h⟩ := orThrow_bind_eq_ok.mp h
    cases hplatform.symm.trans hsame
    obtain ⟨_, hauth, -⟩ := bind_eq_ok.mp h
    exact requireAuth_eq_ok.mp hauth
  | _ => exact hguarded.elim

/-- The platform is set by the constructor and never again. -/
theorem invoke_platform (h : invoke N env w call = .ok w') : w'.storage.platform = w.storage.platform :=
  (invoke_keeps h).platform

end Platform

section Owners
variable {ν : Type} {N : NonFungible ν} {issued : ν → Nat → Prop} {auth : Address → Bool} {w w' : World ν} {call : Call}

theorem tokenOwner_congr (hids : ∀ key, (findNfe w' key).map NfeData.tokenId = (findNfe w key).map NfeData.tokenId)
    (howners : ∀ j, N.ownerOf w'.tokens j = N.ownerOf w.tokens j) (key : String) : tokenOwner N w' key = tokenOwner N w key := by
  have hid := hids key
  unfold tokenOwner
  cases hfind' : findNfe w' key with
  | none =>
    cases hfind : findNfe w key with
    | none => rfl
    | some nfeData => simp [hfind, hfind'] at hid
  | some nfeData' =>
    cases hfind : findNfe w key with
    | none => simp [hfind, hfind'] at hid
    | some nfeData =>
      simp only [hfind, hfind', Option.map_some, Option.some.injEq] at hid
      simp [hid, howners]

theorem tokenOwner_of_find {key : String} {nfeData : NfeData} (hfind : findNfe w key = some nfeData) :
    tokenOwner N w key = N.ownerOf w.tokens nfeData.tokenId := by
  unfold tokenOwner
  rw [hfind]
  rfl

theorem tokenId_of_insert {key : String} {old new : NfeData} (hold : findNfe w key = some old)
    (hnfe : w'.storage.nfe = w.storage.nfe.insert key new) (hid : new.tokenId = old.tokenId) (k : String) :
    (findNfe w' k).map NfeData.tokenId = (findNfe w k).map NfeData.tokenId := by
  by_cases hk : k = key
  · subst hk
    rw [findNfe_of_insert hnfe, hold, Option.map_some, Option.map_some, hid]
  · rw [findNfe_of_insert_ne hnfe hk]

theorem Effect.burned (hN : N.Lawful) (hS : N.Sequential issued) (h : Effect N auth w w' call) (hfresh : Fresh issued w)
    (hregistered : Registered w) (hw : Burned N w) : Burned N w' := by
  -- Only a mint makes a token, and it makes that of a new record.
  intro key nfeData hfind hstatus
  cases howner : N.ownerOf w'.tokens nfeData.tokenId with
  | none => rfl
  | some a =>
    exfalso
    cases h with
    | @registered k value dueDate xmlHash owner platformAuth tokenId hcall hhash hkey hmint hnfe htoken hxml =>
      by_cases hk : key = k
      · subst hk
        cases (findNfe_of_insert hnfe).symm.trans hfind
        cases hstatus
      · rw [findNfe_of_insert_ne hnfe hk] at hfind
        have hid : nfeData.tokenId ≠ tokenId := by
          rintro rfl
          exact (hS.fresh hmint).1 (hfresh _ _ (hregistered.record key nfeData hfind).2.1)
        rw [(hN.sequentialMint hmint).2, if_neg hid, hw key nfeData hfind hstatus] at howner
        cases howner
    | @updated k old new hold hupdates hnfe htoken hxml =>
      by_cases hk : key = k
      · subst hk
        cases (findNfe_of_insert hnfe).symm.trans hfind
        cases hupdates with
        | listed hactive htokens => cases hstatus
        | sold hlisted htokens => cases hstatus
        | transferred hactive htransfer => cases hactive.symm.trans hstatus
        | settled hlive hburn =>
          rw [(hN.burn hburn).2.2, if_pos rfl] at howner
          cases howner
      · rw [findNfe_of_insert_ne hnfe hk] at hfind
        obtain ⟨b, hb⟩ := hupdates.existing hN howner
        cases (hw key nfeData hfind hstatus).symm.trans hb
    | moved hstorage htokens =>
      rw [findNfe_congr hstorage] at hfind
      obtain ⟨b, hb⟩ := htokens.existing hN howner
      cases (hw key nfeData hfind hstatus).symm.trans hb

/-- A token that a move takes from its holder is that of an NF-e which is not settled. -/
theorem changes_of_moves (hregistered : Registered w) (hrecorded : Recorded N w) (hburned : Burned N w)
    (hstorage : w'.storage = w.storage) {tokenId : Nat} {sender : Address} {receiver : Option Address}
    (hmoves : N.Moves w.tokens w'.tokens tokenId (some sender) receiver) (hne : receiver ≠ some sender) :
    ∃ key, statusOf key w ≠ some .settled ∧ tokenOwner N w' key ≠ tokenOwner N w key := by
  obtain ⟨howner, hafter⟩ := hmoves
  obtain ⟨key, hkey⟩ := hrecorded tokenId sender howner
  obtain ⟨nfeData, hfind, rfl⟩ := hregistered.token tokenId key hkey
  refine ⟨key, fun hstatus => ?_, ?_⟩
  · obtain ⟨found, hfound, hsettled⟩ := Option.map_eq_some_iff.mp hstatus
    cases hfind.symm.trans hfound
    cases howner.symm.trans (hburned key nfeData hfind hsettled)
  · rw [tokenOwner_of_find hfind, tokenOwner_of_find ((findNfe_congr hstorage).trans hfind), howner, hafter, if_pos rfl]
    exact hne

/-- What takes a token from its holder without asking for the platform does so with that of an NF-e not settled. -/
theorem Effect.changes (hN : N.Lawful) (h : Effect N auth w w' call) (hregistered : Registered w)
    (hrecorded : Recorded N w) (hburned : Burned N w) (htakes : call.TakesUnguarded w) :
    ∃ key, statusOf key w ≠ some .settled ∧ tokenOwner N w' key ≠ tokenOwner N w key := by
  cases h with
  | registered hcall hhash hkey hmint hnfe htoken hxml =>
    subst hcall
    exact htakes.elim
  | @updated k old new hold hupdates hnfe htoken hxml =>
    cases hupdates with
    | transferred hstatus htransfer =>
      obtain ⟨-, howner, hafter⟩ := hN.transfer htransfer
      refine ⟨k, ?_, ?_⟩
      · unfold statusOf
        rw [hold, Option.map_some, hstatus]
        simp
      · rw [tokenOwner_of_find hold, tokenOwner_of_find (findNfe_of_insert hnfe), howner, hafter, if_pos rfl]
        exact fun heq => htakes old hold (Option.some.inj heq).symm
    | _ => exact htakes.elim
  | moved hstorage htokens =>
    cases htokens with
    | transferFrom h =>
      exact changes_of_moves hregistered hrecorded hburned hstorage (hN.transferFrom h).2
        fun heq => htakes (Option.some.inj heq).symm
    | burn h => exact changes_of_moves hregistered hrecorded hburned hstorage (hN.burn h).2 nofun
    | burnFrom h => exact changes_of_moves hregistered hrecorded hburned hstorage (hN.burnFrom h).2 nofun
    | _ => exact htakes.elim

/-- Any other call that does not ask for the platform leaves every token with its holder. -/
theorem Effect.unchanged (hN : N.Lawful) (h : Effect N auth w w' call) (hguarded : ¬call.Guarded)
    (htakes : ¬call.TakesUnguarded w) (key : String) : tokenOwner N w' key = tokenOwner N w key := by
  cases h with
  | registered hcall hhash hkey hmint hnfe htoken hxml =>
    subst hcall
    exact absurd trivial hguarded
  | @updated k old new hold hupdates hnfe htoken hxml =>
    have hids := tokenId_of_insert hold hnfe hupdates.same.tokenId
    cases hupdates with
    | listed hstatus htokens => exact tokenOwner_congr hids (fun j => by rw [htokens]) key
    | @transferred newOwner hstatus htransfer =>
      have hsame : old.owner = newOwner := by
        by_contra hne
        refine htakes fun nfeData hfind => ?_
        cases hold.symm.trans hfind
        exact hne
      exact tokenOwner_congr hids (NonFungible.Moves.same (hN.transfer htransfer).2 (by rw [hsame])) key
    | _ => exact absurd trivial hguarded
  | moved hstorage htokens =>
    have hids : ∀ k, (findNfe w' k).map NfeData.tokenId = (findNfe w k).map NfeData.tokenId := fun k => by
      rw [findNfe_congr hstorage]
    cases htokens with
    | transfer h => exact absurd trivial hguarded
    | transferFrom h =>
      exact tokenOwner_congr hids (NonFungible.Moves.same (hN.transferFrom h).2 (by rw [Decidable.not_not.mp htakes])) key
    | approve h => exact tokenOwner_congr hids (hN.approve h).2 key
    | approveForAll h => exact tokenOwner_congr hids (hN.approveForAll h).2 key
    | burn h => exact absurd trivial htakes
    | burnFrom h => exact absurd trivial htakes

end Owners

section Runs
variable {ν : Type} {N : NonFungible ν} {issued : ν → Nat → Prop} {w w' : World ν} {platform : Address} {i : Invocation}

/-- What every run keeps. -/
structure Kept (N : NonFungible ν) (issued : ν → Nat → Prop) (platform : Address) (w : World ν) : Prop where
  platform : w.storage.platform = some platform
  fresh : Fresh issued w
  registered : Registered w
  recorded : Recorded N w
  burned : Burned N w

theorem kept_construct {tokens : ν} (hempty : ∀ tokenId, N.ownerOf tokens tokenId = none) (platform : Address) :
    Kept N issued platform (construct tokens platform) where
  platform := rfl
  fresh _ _ h := by cases h
  registered := registered_construct tokens platform
  recorded tokenId owner h := by cases (hempty tokenId).symm.trans h
  burned _ _ h := by cases h

theorem Kept.step (hN : N.Lawful) (hS : N.Sequential issued) (hw : Kept N issued platform w) (h : step N w i = .ok w') :
    Kept N issued platform w' where
  platform := (invoke_platform h).trans hw.platform
  fresh := (step_effect h).fresh hS hw.fresh
  registered := (step_effect h).registry hS hw.fresh hw.registered
  recorded := (step_effect h).recorded hN hw.recorded
  burned := (step_effect h).burned hN hS hw.fresh hw.registered hw.burned

theorem Kept.platformMoves_iff (hN : N.Lawful) (hw : Kept N issued platform w) (i : Invocation) :
    PlatformMoves N platform w i ↔
      ∀ w', NfeTokenization.step N w i = .ok w' → i.call.TakesUnguarded w → i.env.auth platform = true := by
  refine forall_congr' fun w' => imp_congr_right fun h => ?_
  have heffect := step_effect h
  constructor
  · intro hmoves htakes
    obtain ⟨key, hlive, hchanges⟩ := heffect.changes hN hw.registered hw.recorded hw.burned htakes
    exact hmoves key hlive hchanges
  · intro htakes key hlive hchanges
    by_cases hguarded : i.call.Guarded
    · exact hguarded.authorized hw.platform h
    · by_contra hauth
      exact hchanges (heffect.unchanged hN hguarded (fun htake => hauth (htakes htake)) key)

end Runs

/-- In a run only the platform moves the tokens of the NF-es that are not settled exactly if it authorises, besides what
    it is asked for, every call that succeeds and hands an NF-e over, moves its token or burns it. -/
theorem platform_moves_iff_authorizes_takes {ν : Type} (N : NonFungible ν) (hN : N.Lawful) (issued : ν → Nat → Prop)
    (hS : N.Sequential issued) (tokens : ν) (hempty : ∀ tokenId, N.ownerOf tokens tokenId = none) (platform : Address)
    (is : List Invocation) :
    Along (step N) (PlatformMoves N platform) (construct tokens platform) is ↔
      Along (step N) (fun w i => ∀ w', step N w i = .ok w' → i.call.TakesUnguarded w → i.env.auth platform = true)
        (construct tokens platform) is :=
  along_iff_along (I := Kept N issued platform) (fun _ _ _ hw _ h => hw.step hN hS h)
    (fun _ i hw => hw.platformMoves_iff hN i) (kept_construct hempty platform)

section Settlement
variable {ν : Type} {N : NonFungible ν} {env : Env} {w : World ν} {platform : Address} {key : String} {nfeData : NfeData}

/-- What settling asks of a record that may be settled, and what it leaves. -/
theorem settleNfe_iff (hN : N.Lawful) (hB : N.Burnable)
    (hplatform : w.storage.platform = some platform) (hfind : findNfe w key = some nfeData)
    (hlive : nfeData.status = .active ∨ nfeData.status = .soldToPool) :
    (∃ w', settleNfe N env w key platform = .ok w' ∧ tokenOwner N w' key = none ∧ statusOf key w' = some .settled) ↔
      env.auth platform = true ∧ env.auth nfeData.owner = true ∧ N.ownerOf w.tokens nfeData.tokenId = some nfeData.owner := by
  have hstatus : ¬(nfeData.status ≠ .active ∧ nfeData.status ≠ .soldToPool) := fun h => hlive.elim h.1 h.2
  constructor
  · rintro ⟨w', h, -, -⟩
    obtain ⟨_, hrequire, h⟩ := bind_eq_ok.mp h
    obtain ⟨found, hfound, h⟩ := orThrow_bind_eq_ok.mp h
    cases hfind.symm.trans hfound
    obtain ⟨-, h⟩ := throwIf_bind_eq_ok.mp h
    obtain ⟨_, hburn, -⟩ := bind_eq_ok.mp h
    obtain ⟨hauth, howner, -⟩ := hN.burn hburn
    exact ⟨(requirePlatform_eq_ok.mp hrequire).2, hauth, howner⟩
  · rintro ⟨hsigned, hauth, howner⟩
    obtain ⟨tokens, hburn⟩ := hB.burn hauth howner
    obtain ⟨-, -, hafter⟩ := hN.burn hburn
    refine ⟨⟨saveNfe w key { nfeData with status := .settled }, tokens, w.events ++ [.settleNfe key nfeData.owner]⟩,
      ?_, ?_, ?_⟩
    · refine bind_eq_ok.mpr ⟨(), requirePlatform_eq_ok.mpr ⟨hplatform, hsigned⟩, orThrow_bind_eq_ok.mpr ⟨nfeData, hfind, ?_⟩⟩
      exact throwIf_bind_eq_ok.mpr ⟨hstatus, bind_eq_ok.mpr ⟨tokens, hburn, rfl⟩⟩
    · rw [tokenOwner_of_find (findNfe_of_insert rfl)]
      exact (hafter nfeData.tokenId).trans (if_pos rfl)
    · unfold statusOf
      rw [findNfe_of_insert rfl]
      rfl

/-- A call that puts no token of a record out of the platform's hands. -/
def Call.KeepsCustody (platform : Address) : Call → Prop
  | .tokenizeNfe _ _ _ _ owner _ => owner = platform
  | .transferOwnership _ newOwner => newOwner = platform
  | call => call.KeepsHolder

/-- Every record's owner is the platform. -/
def PlatformOwns {ν : Type} (platform : Address) (w : World ν) : Prop :=
  ∀ key nfeData, findNfe w key = some nfeData → nfeData.owner = platform

theorem Effect.platformOwns {auth : Address → Bool} {w' : World ν} {call : Call} (h : Effect N auth w w' call)
    (hkeeps : call.KeepsCustody platform) (hw : PlatformOwns platform w) : PlatformOwns platform w' := by
  intro key nfeData hfind
  cases h with
  | @registered k value dueDate xmlHash owner platformAuth tokenId hcall hhash hkey hmint hnfe htoken hxml =>
    subst hcall
    by_cases hk : key = k
    · subst hk
      cases (findNfe_of_insert hnfe).symm.trans hfind
      exact hkeeps
    · exact hw key nfeData ((findNfe_of_insert_ne hnfe hk).symm.trans hfind)
  | @updated k old new hold hupdates hnfe htoken hxml =>
    by_cases hk : key = k
    · subst hk
      cases (findNfe_of_insert hnfe).symm.trans hfind
      cases hupdates with
      | transferred hstatus htransfer => exact hkeeps
      | _ => exact hw key old hold
    · exact hw key nfeData ((findNfe_of_insert_ne hnfe hk).symm.trans hfind)
  | moved hstorage htokens => exact hw key nfeData ((findNfe_congr hstorage).symm.trans hfind)

theorem Call.KeepsCustody.keepsHolder {call : Call} (h : call.KeepsCustody platform) : call.KeepsHolder := by
  cases call <;> first | exact h | trivial

end Settlement

/-- `settle_nfe` succeeds with nobody's authorisation but the platform's, burns the token and leaves the record settled. -/
def SettlesAlone {ν : Type} (N : NonFungible ν) (platform : Address) (w : World ν) (key : String) : Prop :=
  ∀ env : Env, (∀ a, env.auth a = decide (a = platform)) →
    ∃ w', settleNfe N env w key platform = .ok w' ∧ tokenOwner N w' key = none ∧ statusOf key w' = some .settled

def NeverStuck {ν : Type} (N : NonFungible ν) (platform : Address) (w : World ν) : Prop :=
  ∀ key, statusOf key w = some .active ∨ statusOf key w = some .soldToPool → SettlesAlone N platform w key

section
variable {ν : Type} {N : NonFungible ν} {issued : ν → Nat → Prop} {w : World ν} {platform : Address} {key : String}
  {nfeData : NfeData}

theorem Kept.settlesAlone_iff (hN : N.Lawful) (hB : N.Burnable) (hw : Kept N issued platform w)
    (hfind : findNfe w key = some nfeData) (hlive : nfeData.status = .active ∨ nfeData.status = .soldToPool) :
    SettlesAlone N platform w key ↔
      nfeData.owner = platform ∧ N.ownerOf w.tokens nfeData.tokenId = some platform := by
  constructor
  · intro h
    have hsettles := h ⟨platform, fun a => decide (a = platform), 0⟩ fun _ => rfl
    obtain ⟨-, hauth, howner⟩ := (settleNfe_iff hN hB hw.platform hfind hlive).mp hsettles
    have hsame : nfeData.owner = platform := of_decide_eq_true hauth
    exact ⟨hsame, hsame ▸ howner⟩
  · rintro ⟨hsame, howner⟩ env halone
    have hauth : env.auth platform = true := by simp [halone]
    refine (settleNfe_iff hN hB hw.platform hfind hlive).mpr ⟨hauth, ?_, ?_⟩
    · rw [hsame]
      exact hauth
    · rw [hsame]
      exact howner

theorem Kept.neverStuck (hN : N.Lawful) (hB : N.Burnable) (hw : Kept N issued platform w) (hin : InStep N w)
    (howns : PlatformOwns platform w) : NeverStuck N platform w := by
  intro key hstatus
  obtain ⟨nfeData, hfind, hlive⟩ : ∃ nfeData, findNfe w key = some nfeData ∧
      (nfeData.status = .active ∨ nfeData.status = .soldToPool) := by
    rcases hstatus with h | h
    · obtain ⟨nfeData, hfind, hactive⟩ := Option.map_eq_some_iff.mp h
      exact ⟨nfeData, hfind, .inl hactive⟩
    · obtain ⟨nfeData, hfind, hsold⟩ := Option.map_eq_some_iff.mp h
      exact ⟨nfeData, hfind, .inr hsold⟩
  have hunsettled : nfeData.status ≠ .settled := by
    rcases hlive with h | h <;> simp [h]
  have hsame := howns key nfeData hfind
  exact (hw.settlesAlone_iff hN hB hfind hlive).mpr ⟨hsame, hsame ▸ (hin key nfeData hfind).1 hunsettled⟩

end

/-- In every state that a run reaches, the platform alone can settle an NF-e that is to be settled exactly if it is the
    recorded owner and holds the token. It can settle all of them throughout a run in which every call that succeeds
    tokenizes for the platform, hands over to the platform and takes no token behind a record's back. -/
theorem settles_alone_iff_platform_holds {ν : Type} (N : NonFungible ν) (hN : N.Lawful) (hB : N.Burnable)
    (issued : ν → Nat → Prop) (hS : N.Sequential issued) (tokens : ν)
    (hempty : ∀ tokenId, N.ownerOf tokens tokenId = none) (platform : Address) (is : List Invocation) :
    (∀ key nfeData, findNfe (run (step N) (construct tokens platform) is) key = some nfeData →
      nfeData.status = .active ∨ nfeData.status = .soldToPool →
      (SettlesAlone N platform (run (step N) (construct tokens platform) is) key ↔ nfeData.owner = platform ∧
        N.ownerOf (run (step N) (construct tokens platform) is).tokens nfeData.tokenId = some platform)) ∧
    (Along (step N) (fun w i => ∀ w', step N w i = .ok w' → i.call.KeepsCustody platform) (construct tokens platform) is →
      Throughout (step N) (NeverStuck N platform) (construct tokens platform) is) := by
  have hstart : Kept N issued platform (construct tokens platform) := kept_construct hempty platform
  constructor
  · intro key nfeData hfind hlive
    exact (run_of_step (fun _ _ _ hw h => hw.step hN hS h) hstart is).settlesAlone_iff hN hB hfind hlive
  · intro hkeeps
    have hthroughout := throughout_of_along
      (I := fun w => Kept N issued platform w ∧ InStep N w ∧ PlatformOwns platform w) ?_ ⟨hstart, ?_, ?_⟩ hkeeps
    · exact hthroughout.mono fun w ⟨hw, hin, howns⟩ => hw.neverStuck hN hB hin howns
    · rintro w i w' ⟨hw, hin, howns⟩ hkeeps h
      have heffect := step_effect h
      have hcustody := hkeeps w' h
      exact ⟨hw.step hN hS h, (heffect.inStep_iff hN hS hw.fresh hw.registered hw.recorded hin).mpr
        hcustody.keepsHolder, heffect.platformOwns hcustody howns⟩
    · intro _ _ h
      cases h
    · intro _ _ h
      cases h

section Examples

def only (signer : Address) : Env := ⟨.contract 0, fun a => decide (a = signer), 0⟩

/-- An NF-e that is handed over with both signatures. -/
theorem platform_moves_iff_authorizes_takes_handed_over :
    let is := [tokenizes "invoice" 1, ⟨everyoneSigns, .transferOwnership "invoice" platform⟩]
    (tokenOwner ownedTokens (run (step ownedTokens) (construct OwnedTokens.empty platform) is) "invoice" = some platform) ∧
      Along (step ownedTokens) (PlatformMoves ownedTokens platform) (construct OwnedTokens.empty platform) is :=
  ⟨by decide +kernel, (platform_moves_iff_authorizes_takes ownedTokens ownedTokens_lawful _ ownedTokens_sequential
    OwnedTokens.empty (fun _ => rfl) platform _).mpr ⟨fun _ _ _ => rfl, fun _ _ _ => rfl, trivial⟩⟩

def lists : Invocation := ⟨only pme, .listInvoiceForSale pme "invoice" 10000 9000 300 0⟩

def finances : Invocation := ⟨only platform, .markAsSold "invoice" platform⟩

theorem not_platformMoves {is : List Invocation} {i : Invocation}
    (h : let w := run (step ownedTokens) (construct OwnedTokens.empty platform) is
      ∃ w', step ownedTokens w i = .ok w' ∧ statusOf "invoice" w ≠ some .settled ∧
        tokenOwner ownedTokens w' "invoice" ≠ tokenOwner ownedTokens w "invoice" ∧ i.env.auth platform = false) :
    ¬Along (step ownedTokens) (PlatformMoves ownedTokens platform) (construct OwnedTokens.empty platform) (is ++ [i]) := by
  intro halong
  obtain ⟨w', hstep, hlive, hchanges, hauth⟩ := h
  have hsigned := (Along.append.mp halong).2.1 w' hstep "invoice" hlive hchanges
  rw [hauth] at hsigned
  cases hsigned

/-- The seller hands over an NF-e that is active, moves the token of one that it listed and burns that of one that was
    financed; and somebody whom it approved before moves the token of one that was financed. -/
theorem seller_moves_token :
    ¬Along (step ownedTokens) (PlatformMoves ownedTokens platform) (construct OwnedTokens.empty platform)
        ([tokenizes "invoice" 1] ++ [⟨only pme, .transferOwnership "invoice" investor⟩]) ∧
      ¬Along (step ownedTokens) (PlatformMoves ownedTokens platform) (construct OwnedTokens.empty platform)
        ([tokenizes "invoice" 1, lists] ++ [⟨only pme, .transferFrom pme pme investor 0⟩]) ∧
      ¬Along (step ownedTokens) (PlatformMoves ownedTokens platform) (construct OwnedTokens.empty platform)
        ([tokenizes "invoice" 1, lists, finances] ++ [⟨only pme, .burn pme 0⟩]) ∧
      ¬Along (step ownedTokens) (PlatformMoves ownedTokens platform) (construct OwnedTokens.empty platform)
        ([tokenizes "invoice" 1, ⟨only pme, .approve pme investor 0 100⟩, lists, finances] ++
          [⟨only investor, .transferFrom investor pme investor 0⟩]) :=
  ⟨not_platformMoves ⟨_, rfl, by decide +kernel, by decide +kernel, rfl⟩,
    not_platformMoves ⟨_, rfl, by decide +kernel, by decide +kernel, rfl⟩,
    not_platformMoves ⟨_, rfl, by decide +kernel, by decide +kernel, rfl⟩,
    not_platformMoves ⟨_, rfl, by decide +kernel, by decide +kernel, rfl⟩⟩

/-- An NF-e that is tokenized for the platform. -/
theorem settles_alone_iff_platform_holds_own :
    let is := [⟨everyoneSigns, .tokenizeNfe "invoice" 10000 0 (hash 1) platform platform⟩]
    statusOf "invoice" (run (step ownedTokens) (construct OwnedTokens.empty platform) is) = some .active ∧
      Throughout (step ownedTokens) (NeverStuck ownedTokens platform) (construct OwnedTokens.empty platform) is :=
  ⟨by decide +kernel, (settles_alone_iff_platform_holds ownedTokens ownedTokens_lawful ownedTokens_burnable _
    ownedTokens_sequential OwnedTokens.empty (fun _ => rfl) platform _).2 ⟨fun _ _ => rfl, trivial⟩⟩

/-- One that is the seller's is stuck once it is tokenized, and when it was financed. -/
theorem settlement_stuck :
    ¬Throughout (step ownedTokens) (NeverStuck ownedTokens platform) (construct OwnedTokens.empty platform)
        [tokenizes "invoice" 1] ∧
      ¬Throughout (step ownedTokens) (NeverStuck ownedTokens platform) (construct OwnedTokens.empty platform)
        [tokenizes "invoice" 1, lists, finances] := by
  constructor
  · intro h
    obtain ⟨w', hok, -⟩ := h.last "invoice" (by decide +kernel) (only platform) fun _ => rfl
    cases hok
  · intro h
    obtain ⟨w', hok, -⟩ := h.last "invoice" (by decide +kernel) (only platform) fun _ => rfl
    cases hok

end Examples
end CredBridge.Contracts.NfeTokenization
