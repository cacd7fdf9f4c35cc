import CredBridge.Api.Accounts
import CredBridge.Lib.Machine

/-! # Wallets that agree

A deposit is minted to the address that the platform charges and whose balance it shows, as long as no login links a Google
identifier to a row whose custodial wallet was derived without it: from then on the derived wallet is another one, and every
charge fails. -/

namespace CredBridge.Api
open Machine Result

/-- All resolvers tell of the address of a user who has one, and the custodial wallet is there for it. -/
structure ResolversAgree (env : PurchaseEnv) (s : List UserRow) (userId : String) : Prop where
  approval : approvalAddress s userId = depositAddress s userId
  investor : investorAddress s userId = depositAddress s userId
  balance : balanceAddress s userId = depositAddress s userId
  custodial : ∀ address ∈ depositAddress s userId, env.walletSecret = true →
    ∃ keypair, ensureCustodialWalletForUser env (custodialUsers s) userId true = .ok ⟨address, keypair⟩
  returned : ∀ address ∈ depositAddress s userId, ∀ funded wallet,
    ensureCustodialWalletForUser env (custodialUsers s) userId funded = .ok wallet → wallet.publicKey = address

/-- The login links a Google identifier to a row that has a custodial wallet, and no wallet of Privy. -/
def LinksLate (s : List UserRow) : WalletOp → Prop
  | .googleLogin (some payload) =>
    ∃ googleId ∈ payload.sub, ∃ email ∈ payload.email, findUserBy UserRow.googleId s googleId = none ∧
      ∃ user ∈ findUserBy (some ·.email) s email, user.googleId = none ∧ user.privyStellarWalletAddress = none ∧
        user.stellarWalletId.getD "" ≠ "" ∧ googleId ≠ user.id
  | .googleLogin none | .register .. | .privySession .. | .ensureCustodialWallet .. => False

/-- What every operation keeps: a wallet of Privy is ready, and a custodial one was derived with the platform's secret. -/
structure WalletsSound (env : PurchaseEnv) (s : List UserRow) : Prop where
  keyed : Table.Keyed UserRow.id s
  google : ∀ user ∈ s, ∀ googleId ∈ user.googleId, googleId ≠ ""
  privy : ∀ user ∈ s, ∀ address ∈ user.privyStellarWalletAddress, address ≠ "" ∧ user.privyWalletStatus = some "ready"
  secret : ∀ user ∈ s, user.stellarWalletId.getD "" ≠ "" → env.walletSecret = true

/-- The custodial wallet is the one that is derived from the row as it is. -/
def Derived (env : PurchaseEnv) (user : UserRow) : Prop :=
  user.privyStellarWalletAddress = none → ∀ wallet ∈ user.stellarWalletId, wallet ≠ "" →
    wallet = env.deriveKeypair (user.googleId.getD user.id)

section Resolvers
variable {env : PurchaseEnv} {s : List UserRow} {user : UserRow} {userId : String}

theorem depositAddress_eq (s : List UserRow) (userId : String) :
    depositAddress s userId = (findUser s userId).bind (·.wallets.address) :=
  Option.bind_map ..

theorem approvalAddress_eq (s : List UserRow) (userId : String) :
    approvalAddress s userId = (findUser s userId).bind (·.wallets.addressOr) :=
  Option.bind_map ..

theorem investorAddress_eq (s : List UserRow) (userId : String) : investorAddress s userId = depositAddress s userId := by
  unfold investorAddress resolveInvestorAddress depositAddress
  cases walletOf (usersOf s) userId <;> rfl

theorem findUser_of_mem (hs : WalletsSound env s) (hmem : user ∈ s) : findUser s user.id = some user :=
  (Table.find_eq_some hs.keyed).mpr ⟨hmem, rfl⟩

theorem mem_of_findUser (h : findUser s userId = some user) : user ∈ s := Table.mem_of_find h

theorem id_of_findUser (h : findUser s userId = some user) : user.id = userId := Table.key_of_find h

theorem custodialUsers_of_find (hfind : findUser s userId = some user) :
    custodialUsers s userId = some user.custodial := by
  rw [custodialUsers, hfind]
  rfl

/-- A wallet of Privy is the user's, without a key. -/
theorem ensure_privy {address : String} {funded : Bool} {wallet : CustodialWallet} (hfind : findUser s userId = some user)
    (hprivy : user.privyStellarWalletAddress = some address) (hne : address ≠ "") :
    ensureCustodialWalletForUser env (custodialUsers s) userId funded = .ok wallet ↔
      env.walletSecret = true ∧ wallet = ⟨address, false⟩ := by
  have hfilter : user.custodial.privyStellarWalletAddress.filter (· ≠ "") = some address := by
    simp [UserRow.custodial, hprivy, hne]
  simp only [ensureCustodialWalletForUser, throwIf_bind_eq_ok, orThrow_bind_eq_ok, custodialUsers_of_find hfind,
    Option.some.injEq, exists_eq_left', hfilter, pure_eq_ok, Bool.not_eq_false]
  exact and_congr_right fun _ => eq_comm

/-- A custodial wallet is the derived one, and one that is stored must be that. -/
theorem ensure_custodial {funded : Bool} {wallet : CustodialWallet} (hfind : findUser s userId = some user)
    (hprivy : user.privyStellarWalletAddress = none) :
    ensureCustodialWalletForUser env (custodialUsers s) userId funded = .ok wallet ↔
      env.walletSecret = true ∧
        (∀ stored ∈ user.stellarWalletId, stored ≠ "" → stored = env.deriveKeypair (user.googleId.getD user.id)) ∧
        funded = true ∧ wallet = ⟨env.deriveKeypair (user.googleId.getD user.id), true⟩ := by
  have hfilter : user.custodial.privyStellarWalletAddress.filter (· ≠ "") = none := by
    simp [UserRow.custodial, hprivy]
  simp only [ensureCustodialWalletForUser, throwIf_bind_eq_ok, orThrow_bind_eq_ok, custodialUsers_of_find hfind,
    Option.some.injEq, exists_eq_left', hfilter, pure_eq_ok, Bool.not_eq_false, id_of_findUser hfind]
  refine and_congr_right fun _ => and_congr ?_ (and_congr_right fun _ => eq_comm)
  cases hstored : user.stellarWalletId with
  | none => simp [UserRow.custodial, hstored]
  | some stored => simp [UserRow.custodial, hstored]

theorem address_of_privy (hfind : findUser s userId = some user) {address : String}
    (hprivy : user.privyStellarWalletAddress = some address) (hne : address ≠ "") :
    depositAddress s userId = some address := by
  rw [depositAddress_eq, hfind]
  simp [UserRow.wallets, UserWallets.address, hprivy, hne]

theorem address_of_custodial (hfind : findUser s userId = some user) (hprivy : user.privyStellarWalletAddress = none) :
    depositAddress s userId = user.stellarWalletId.filter (· ≠ "") := by
  rw [depositAddress_eq, hfind]
  simp [UserRow.wallets, UserWallets.address, hprivy]

/-- With a wallet of Privy, all resolvers tell of it. -/
theorem agree_of_privy (hs : WalletsSound env s) (hfind : findUser s userId = some user) {address : String}
    (hprivy : user.privyStellarWalletAddress = some address) : ResolversAgree env s userId := by
  obtain ⟨hne, hready⟩ := hs.privy user (mem_of_findUser hfind) address hprivy
  have hdeposit := address_of_privy hfind hprivy hne
  refine ⟨?_, investorAddress_eq s userId, ?_, ?_, ?_⟩
  · rw [hdeposit, approvalAddress_eq, hfind]
    simp [UserRow.wallets, UserWallets.addressOr, hprivy, hne]
  · have hfilter : user.privyStellarWalletAddress.filter (· ≠ "") = some address := by simp [hprivy, hne]
    rw [hdeposit, balanceAddress, hfind, Option.bind_some]
    simp only [hfilter, hready, ↓reduceIte]
  · rw [hdeposit]
    intro address' haddress hsecret
    obtain rfl := Option.mem_some.mp haddress
    exact ⟨false, (ensure_privy hfind hprivy hne).mpr ⟨hsecret, rfl⟩⟩
  · rw [hdeposit]
    intro address' haddress funded wallet hwallet
    obtain rfl := Option.mem_some.mp haddress
    rw [((ensure_privy hfind hprivy hne).mp hwallet).2]

/-- Without one, they agree exactly if the stored wallet is the derived one. -/
theorem agree_custodial_iff (hs : WalletsSound env s) (hfind : findUser s userId = some user)
    (hprivy : user.privyStellarWalletAddress = none) : ResolversAgree env s userId ↔ Derived env user := by
  have hdeposit := address_of_custodial hfind hprivy
  constructor
  · intro hagree _ wallet hwallet hne
    have hmem : wallet ∈ depositAddress s userId := by
      rw [hdeposit, Option.mem_def.mp hwallet]
      exact Option.filter_some_pos (decide_eq_true hne)
    have hsecret : env.walletSecret = true := by
      refine hs.secret user (mem_of_findUser hfind) ?_
      rwa [Option.mem_def.mp hwallet]
    obtain ⟨keypair, hensured⟩ := hagree.custodial wallet hmem hsecret
    exact ((ensure_custodial hfind hprivy).mp hensured).2.1 wallet hwallet hne
  · intro hderived
    have hstored := hderived hprivy
    have haddress : ∀ address ∈ depositAddress s userId, address = env.deriveKeypair (user.googleId.getD user.id) := by
      intro address haddress
      rw [hdeposit] at haddress
      obtain ⟨hmem, hne⟩ := Option.filter_eq_some_iff.mp haddress
      exact hstored address hmem (of_decide_eq_true hne)
    refine ⟨?_, investorAddress_eq s userId, ?_, ?_, ?_⟩
    · rw [hdeposit, approvalAddress_eq, hfind]
      simp [UserRow.wallets, UserWallets.addressOr, hprivy]
    · rw [hdeposit, balanceAddress, hfind]
      simp [hprivy]
    · intro address hmem hsecret
      rw [haddress address hmem]
      exact ⟨true, (ensure_custodial hfind hprivy).mpr ⟨hsecret, hstored, rfl, rfl⟩⟩
    · intro address hmem funded wallet hwallet
      rw [haddress address hmem, ((ensure_custodial hfind hprivy).mp hwallet).2.2.2]

/-- Nobody disagrees exactly if each stored wallet is the derived one. -/
theorem agree_iff (hs : WalletsSound env s) : (∀ userId, ResolversAgree env s userId) ↔ ∀ user ∈ s, Derived env user := by
  constructor
  · intro hagree user hmem hprivy
    exact (agree_custodial_iff hs (findUser_of_mem hs hmem) hprivy).mp (hagree user.id) hprivy
  · intro hderived userId
    cases hfind : findUser s userId with
    | none =>
      have hdeposit : depositAddress s userId = none := by rw [depositAddress_eq, hfind, Option.bind_none]
      refine ⟨?_, investorAddress_eq s userId, ?_, ?_, ?_⟩
      · rw [hdeposit, approvalAddress_eq, hfind, Option.bind_none]
      · rw [hdeposit, balanceAddress, hfind, Option.bind_none]
      all_goals
        rw [hdeposit]
        exact fun address hmem => absurd hmem (Option.not_mem_none address)
    | some user =>
      cases hprivy : user.privyStellarWalletAddress with
      | none => exact (agree_custodial_iff hs hfind hprivy).mpr (hderived user (mem_of_findUser hfind))
      | some address => exact agree_of_privy hs hfind hprivy

end Resolvers

/-! ### What the addresses are for -/

section Uses
variable {env : PurchaseEnv} {stellar : StellarEnv} {s : List UserRow}

theorem handleDepositConfirmed_mints {t : Transaction} {dto : PixWebhookDto} {id : String} {effect : Effect}
    {update : TransactionUpdate} (h : handleDepositConfirmed stellar (usersOf s) t dto = some (.sendMint id effect update)) :
    ∃ address ∈ depositAddress s t.userId, effect = .mint address (stellar.stroops dto.amount) := by
  unfold handleDepositConfirmed at h
  split at h
  · cases h
  · next walletAddress hwallet =>
    split at h
    · cases h
    · next minted hminted =>
      cases h
      exact ⟨walletAddress, hwallet, mintBrlt_inv hminted⟩

theorem checkApproval_mints {api : ApiState} {id operatorId status t : String} {effect : Effect}
    {update : TransactionUpdate}
    (h : checkApproval stellar (usersOf s) api id operatorId status = .ok (.sendMint t effect update)) :
    ∃ row ∈ findTransaction api id, ∃ address ∈ approvalAddress s row.userId,
      effect = .mint address (stellar.stroops row.amount) := by
  unfold checkApproval at h
  obtain ⟨row, hrow, h⟩ := orThrow_bind_eq_ok.mp h
  obtain ⟨-, h⟩ := throwIf_bind_eq_ok.mp h
  refine ⟨row, hrow, ?_⟩
  split at h
  · cases h
  · split at h
    · obtain ⟨user, huser, h⟩ := orThrow_bind_eq_ok.mp h
      obtain ⟨walletAddress, hwallet, h⟩ := orThrow_bind_eq_ok.mp h
      obtain ⟨minted, hminted, h⟩ := bind_eq_ok.mp h
      cases pure_eq_ok.mp h
      refine ⟨walletAddress, ?_, mintBrlt_inv hminted⟩
      rw [approvalAddress, huser, Option.bind_some, hwallet]
      rfl
    · cases h
    · cases h

theorem chargeInvestor_source {investment : Investment} {funded : Bool} {payment : Payment}
    (h : chargeInvestor env (custodialUsers s) investment funded = .ok payment) :
    ∃ wallet, ensureCustodialWalletForUser env (custodialUsers s) investment.investorUserId funded = .ok wallet ∧
      payment.source = wallet.publicKey := by
  unfold chargeInvestor at h
  obtain ⟨-, -, h⟩ := bind_eq_ok.mp h
  obtain ⟨wallet, hwallet, h⟩ := bind_eq_ok.mp h
  obtain ⟨-, h⟩ := throwIf_bind_eq_ok.mp h
  cases pure_eq_ok.mp h
  exact ⟨wallet, hwallet, rfl⟩

/-- Whom the resolvers agree about is charged at the address that the deposits are minted to. -/
theorem ResolversAgree.charged {t : Transaction} {dto : PixWebhookDto} {id address : String} {amount : Int}
    {update : TransactionUpdate} {investment : Investment} {funded : Bool} {payment : Payment}
    (hagree : ResolversAgree env s t.userId) (hinvestor : investment.investorUserId = t.userId)
    (hmint : handleDepositConfirmed stellar (usersOf s) t dto = some (.sendMint id (.mint address amount) update))
    (hcharge : chargeInvestor env (custodialUsers s) investment funded = .ok payment) : payment.source = address := by
  obtain ⟨minted, hminted, heffect⟩ := handleDepositConfirmed_mints hmint
  obtain ⟨wallet, hwallet, hsource⟩ := chargeInvestor_source hcharge
  cases heffect
  rw [hinvestor] at hwallet
  rw [hsource, hagree.returned address hminted funded wallet hwallet]

end Uses

/-! ### What an operation does -/

section Operations
variable {auth : AuthEnv} {env : PurchaseEnv} {s t : List UserRow} {user : UserRow} {op : WalletOp}

/-- A new row, a new Google identifier, a new wallet of Privy, or a custodial wallet that is stored. -/
inductive Moves (env : PurchaseEnv) (s : List UserRow) : WalletOp → List UserRow → Prop where
  | registered (id : String) (dto : RegisterDto) (user : UserRow) (hnew : findUser s id = none) (hid : user.id = id)
      (hgoogle : user.googleId = none) (hprivy : user.privyStellarWalletAddress = none)
      (hstored : user.stellarWalletId = none) : Moves env s (.register id dto) (s ++ [user])
  | loggedIn (payload : Option TokenPayload) (hlinked : ¬LinksLate s (.googleLogin payload)) :
    Moves env s (.googleLogin payload) s
  | linked (payload : TokenPayload) (googleId email : String) (user : UserRow) (hgoogleId : payload.sub = some googleId)
      (hemail : payload.email = some email) (hne : googleId ≠ "") (hnew : findUserBy UserRow.googleId s googleId = none)
      (huser : findUserBy (some ·.email) s email = some user) (hunlinked : user.googleId.getD "" = "") :
    Moves env s (.googleLogin (some payload)) (updateUser s user.id ({ · with googleId := some googleId }))
  | privy (accessToken identityToken : String) (answer : Option PrivyAnswer) (id : String)
      (identity : VerifiedPrivySession) (hne : identity.stellarWalletAddress ≠ "") :
    Moves env s (.privySession accessToken identityToken answer) (updateUser s id (privyUserData identity))
  | ensured (userId : String) (funded : Bool) (wallet : CustodialWallet)
      (hensured : ensureCustodialWalletForUser env (custodialUsers s) userId funded = .ok wallet) :
    Moves env s (.ensureCustodialWallet userId funded)
      (updateUser s userId fun user =>
        if wallet.keypair ∧ user.stellarWalletId.getD "" = "" then { user with stellarWalletId := some wallet.publicKey }
        else user)

theorem left_ok {ε α : Type} {result : Except ε (List UserRow × α)}
    (h : (orThrow (result.toOption.map (·.1)) () : Except Unit (List UserRow)) = .ok t) : ∃ a, result = .ok (t, a) := by
  cases result with
  | error e => cases h
  | ok r =>
    cases h
    exact ⟨r.2, rfl⟩

theorem register_moves {id : String} {dto : RegisterDto} (h : register auth id dto s = .ok (t, user)) :
    Moves env s (.register id dto) t := by
  unfold register at h
  obtain ⟨-, h⟩ := throwIf_bind_eq_ok.mp h
  obtain ⟨hnew, h⟩ := throwIf_bind_eq_ok.mp h
  cases pure_eq_ok.mp h
  exact .registered id dto _ (by simpa using hnew) rfl rfl rfl rfl

theorem googleLogin_moves {payload : Option TokenPayload} (h : googleLogin auth payload s = .ok (t, user)) :
    Moves env s (.googleLogin payload) t := by
  unfold googleLogin at h
  obtain ⟨-, h⟩ := throwIf_bind_eq_ok.mp h
  obtain ⟨verified, hpayload, h⟩ := orThrow_bind_eq_ok.mp h
  rw [hpayload]
  obtain ⟨googleId, hgoogleId, h⟩ := orThrow_bind_eq_ok.mp h
  obtain ⟨email, hemail, h⟩ := orThrow_bind_eq_ok.mp h
  obtain ⟨-, h⟩ := throwIf_bind_eq_ok.mp h
  obtain ⟨hgoogleId, hne⟩ := Option.filter_eq_some_iff.mp hgoogleId
  obtain ⟨hemail, -⟩ := Option.filter_eq_some_iff.mp hemail
  have hlate : ∀ g e, g ∈ verified.sub → e ∈ verified.email → g = googleId ∧ e = email := fun g e hg he =>
    ⟨Option.some.inj (hg.symm.trans hgoogleId), Option.some.inj (he.symm.trans hemail)⟩
  split at h
  · next found hfound =>
    cases pure_eq_ok.mp h
    refine .loggedIn _ ?_
    rintro ⟨g, hg, e, he, hnone, -⟩
    rw [(hlate g e hg he).1, hfound] at hnone
    cases hnone
  · next hnew =>
    obtain ⟨found, hfound, h⟩ := orThrow_bind_eq_ok.mp h
    split at h
    · next hunlinked =>
      cases pure_eq_ok.mp h
      exact .linked verified googleId email found hgoogleId hemail (of_decide_eq_true hne) hnew hfound hunlinked
    · next hlinked =>
      cases pure_eq_ok.mp h
      refine .loggedIn _ ?_
      rintro ⟨g, hg, e, he, -, row, hrow, hunlinked, -⟩
      rw [(hlate g e hg he).2, hfound] at hrow
      obtain rfl := Option.mem_some.mp hrow
      exact hlinked (by rw [hunlinked]; rfl)

theorem verifySession_address {accessToken identityToken : String} {answer : Option PrivyAnswer}
    {identity : VerifiedPrivySession} (h : verifySession auth accessToken identityToken answer = .ok identity) :
    identity.stellarWalletAddress ≠ "" := by
  unfold verifySession at h
  obtain ⟨-, h⟩ := throwIf_bind_eq_ok.mp h
  obtain ⟨answer, -, h⟩ := orThrow_bind_eq_ok.mp h
  obtain ⟨-, h⟩ := throwIf_bind_eq_ok.mp h
  obtain ⟨email, -, h⟩ := orThrow_bind_eq_ok.mp h
  obtain ⟨address, haddress, h⟩ := orThrow_bind_eq_ok.mp h
  obtain rfl := pure_eq_ok.mp h
  exact of_decide_eq_true (Option.filter_eq_some_iff.mp haddress).2

theorem privySession_moves {accessToken identityToken : String} {answer : Option PrivyAnswer}
    (h : privySession auth accessToken identityToken answer s = .ok (t, user)) :
    Moves env s (.privySession accessToken identityToken answer) t := by
  unfold privySession at h
  obtain ⟨identity, hidentity, h⟩ := bind_eq_ok.mp h
  obtain ⟨found, -, h⟩ := orThrow_bind_eq_ok.mp h
  obtain ⟨-, h⟩ := throwIf_bind_eq_ok.mp h
  cases pure_eq_ok.mp h
  exact .privy accessToken identityToken answer found.id identity (verifySession_address hidentity)

theorem ensureCustodialWallet_moves {userId : String} {funded : Bool} {wallet : CustodialWallet}
    (h : ensureCustodialWallet env userId funded s = .ok (t, wallet)) :
    Moves env s (.ensureCustodialWallet userId funded) t := by
  unfold ensureCustodialWallet at h
  obtain ⟨wallet, hensured, h⟩ := bind_eq_ok.mp h
  cases pure_eq_ok.mp h
  exact .ensured userId funded wallet hensured

theorem walletStep_moves (h : walletStep auth env s op = .ok t) : Moves env s op t := by
  cases op with
  | register id dto =>
    obtain ⟨user, h⟩ := left_ok h
    exact register_moves h
  | googleLogin payload =>
    obtain ⟨user, h⟩ := left_ok h
    exact googleLogin_moves h
  | privySession accessToken identityToken answer =>
    obtain ⟨user, h⟩ := left_ok h
    exact privySession_moves h
  | ensureCustodialWallet userId funded =>
    obtain ⟨wallet, h⟩ := left_ok h
    exact ensureCustodialWallet_moves h

/-! ### What stays -/

theorem WalletsSound.update {id : String} {change : UserRow → UserRow} (hs : WalletsSound env s)
    (hid : ∀ user, (change user).id = user.id)
    (hgoogle : ∀ user ∈ s, user.id = id → ∀ googleId ∈ (change user).googleId, googleId ≠ "")
    (hprivy : ∀ user ∈ s, user.id = id → ∀ address ∈ (change user).privyStellarWalletAddress,
      address ≠ "" ∧ (change user).privyWalletStatus = some "ready")
    (hsecret : ∀ user ∈ s, user.id = id → (change user).stellarWalletId.getD "" ≠ "" → env.walletSecret = true) :
    WalletsSound env (updateUser s id change) where
  keyed := hs.keyed.modify fun user h => (hid user).trans h
  google user hmem := by
    obtain ⟨row, hrow, rfl⟩ := Table.mem_modify.mp hmem
    split
    · next h => exact hgoogle row hrow h
    · exact hs.google row hrow
  privy user hmem := by
    obtain ⟨row, hrow, rfl⟩ := Table.mem_modify.mp hmem
    split
    · next h => exact hprivy row hrow h
    · exact hs.privy row hrow
  secret user hmem := by
    obtain ⟨row, hrow, rfl⟩ := Table.mem_modify.mp hmem
    split
    · next h => exact hsecret row hrow h
    · exact hs.secret row hrow

theorem secret_of_ensured {userId : String} {funded : Bool} {wallet : CustodialWallet}
    (h : ensureCustodialWalletForUser env (custodialUsers s) userId funded = .ok wallet) : env.walletSecret = true := by
  unfold ensureCustodialWalletForUser at h
  exact Bool.not_eq_false _ ▸ (throwIf_bind_eq_ok.mp h).1

theorem sound_of_moves (hs : WalletsSound env s) (h : Moves env s op t) : WalletsSound env t := by
  cases h with
  | registered id dto user hnew hid hgoogle hprivy hstored =>
    have hnone : ∀ {α : Type} {P : Prop} {x : Option α} {a : α}, x = none → a ∈ x → P := fun hx ha => by
      rw [hx] at ha
      cases ha
    have hcases : ∀ row ∈ s ++ [user], row ∈ s ∨ row = user := fun row hrow => by simpa using hrow
    refine ⟨hs.keyed.append (hid ▸ Table.find_eq_none.mp hnew), fun row hrow => ?_, fun row hrow => ?_, fun row hrow => ?_⟩
    · rcases hcases row hrow with hrow | rfl
      · exact hs.google row hrow
      · exact fun _ => hnone hgoogle
    · rcases hcases row hrow with hrow | rfl
      · exact hs.privy row hrow
      · exact fun _ => hnone hprivy
    · rcases hcases row hrow with hrow | rfl
      · exact hs.secret row hrow
      · rw [hstored]
        exact fun hne => absurd rfl hne
  | loggedIn => exact hs
  | linked payload googleId email user hgoogleId hemail hne hnew huser hunlinked =>
    refine hs.update (fun _ => rfl) (fun row _ _ g hg => ?_) (fun row hrow _ => hs.privy row hrow) fun row hrow _ =>
      hs.secret row hrow
    exact Option.mem_some.mp hg ▸ hne
  | privy accessToken identityToken answer id identity hne =>
    refine hs.update (fun _ => rfl) (fun row hrow _ => hs.google row hrow) (fun row _ _ address haddress => ⟨?_, rfl⟩)
      fun row hrow _ => hs.secret row hrow
    exact Option.mem_some.mp haddress ▸ hne
  | ensured userId funded wallet hensured =>
    have hsecret := secret_of_ensured hensured
    refine hs.update (fun row => ?_) (fun row hrow _ => ?_) (fun row hrow _ => ?_) fun _ _ _ _ => hsecret
    · split <;> rfl
    · split <;> exact hs.google row hrow
    · split <;> exact hs.privy row hrow

/-! ### What agrees -/

theorem derived_update {id : String} {change : UserRow → UserRow} (hs : ∀ user ∈ s, Derived env user) :
    (∀ user ∈ updateUser s id change, Derived env user) ↔ ∀ user ∈ s, user.id = id → Derived env (change user) := by
  constructor
  · intro h user hmem hid
    have hrow := h _ (Table.mem_modify.mpr ⟨user, hmem, rfl⟩)
    rwa [if_pos hid] at hrow
  · intro h user hmem
    obtain ⟨row, hrow, rfl⟩ := Table.mem_modify.mp hmem
    split
    · next hid => exact h row hrow hid
    · exact hs row hrow

/-- A row that is linked stays derived exactly if it has no custodial wallet that counts. -/
theorem derived_link_iff (hderive : Function.Injective env.deriveKeypair) {googleId : String}
    (hunlinked : user.googleId = none) (hderived : Derived env user) :
    Derived env { user with googleId := some googleId } ↔
      ¬(user.privyStellarWalletAddress = none ∧ user.stellarWalletId.getD "" ≠ "" ∧ googleId ≠ user.id) := by
  constructor
  · rintro hlinked ⟨hprivy, hstored, hne⟩
    cases hwallet : user.stellarWalletId with
    | none =>
      rw [hwallet] at hstored
      exact hstored rfl
    | some wallet =>
      rw [hwallet] at hstored
      have hbefore := hderived hprivy wallet hwallet hstored
      have hafter := hlinked hprivy wallet hwallet hstored
      rw [hunlinked] at hbefore
      exact hne (hderive (hafter.symm.trans hbefore))
  · intro hearly hprivy wallet hwallet hne
    have hbefore := hderived hprivy wallet hwallet hne
    rw [hunlinked] at hbefore
    by_cases hgoogleId : googleId = user.id
    · rw [hbefore, hgoogleId]
      rfl
    · refine absurd ⟨hprivy, ?_, hgoogleId⟩ hearly
      rwa [Option.mem_def.mp hwallet]

theorem derived_iff_of_moves (hderive : Function.Injective env.deriveKeypair) (hs : WalletsSound env s)
    (hderived : ∀ user ∈ s, Derived env user) (h : Moves env s op t) :
    (∀ user ∈ t, Derived env user) ↔ ¬LinksLate s op := by
  cases h with
  | registered id dto user hnew hid hgoogle hprivy hstored =>
    refine iff_of_true (fun row hrow => ?_) fun h => h
    rcases List.mem_append.mp hrow with hrow | hrow
    · exact hderived row hrow
    · obtain rfl := List.mem_singleton.mp hrow
      intro _ wallet hwallet
      rw [hstored] at hwallet
      cases hwallet
  | loggedIn payload hlinked => exact iff_of_true hderived hlinked
  | linked payload googleId email user hgoogleId hemail hne hnew huser hunlinked =>
    have hmem := Table.mem_of_find huser
    have hnone : user.googleId = none := by
      cases hgoogle : user.googleId with
      | none => rfl
      | some g =>
        rw [hgoogle] at hunlinked
        exact absurd hunlinked (hs.google user hmem g hgoogle)
    rw [derived_update hderived]
    have hrow : (∀ row ∈ s, row.id = user.id → Derived env { row with googleId := some googleId }) ↔
        Derived env { user with googleId := some googleId } := by
      refine ⟨fun h => h user hmem rfl, fun h row hrow hid => ?_⟩
      rwa [hs.keyed.eq_of_key hrow hmem hid]
    rw [hrow, derived_link_iff hderive hnone (hderived user hmem)]
    refine not_congr ⟨?_, ?_⟩
    · rintro ⟨hprivy, hstored, hne⟩
      exact ⟨googleId, hgoogleId, email, hemail, hnew, user, huser, hnone, hprivy, hstored, hne⟩
    · rintro ⟨g, hg, e, he, -, row, hrow, -, hprivy, hstored, hne⟩
      obtain rfl : googleId = g := Option.some.inj (hgoogleId.symm.trans hg)
      obtain rfl : email = e := Option.some.inj (hemail.symm.trans he)
      obtain rfl : user = row := Option.some.inj (huser.symm.trans hrow)
      exact ⟨hprivy, hstored, hne⟩
  | privy accessToken identityToken answer id identity hne =>
    refine iff_of_true ((derived_update hderived).mpr fun row _ _ hnone => ?_) fun h => h
    cases hnone
  | ensured userId funded wallet hensured =>
    refine iff_of_true ((derived_update hderived).mpr fun row hrow hid hprivy => ?_) fun h => h
    have hfind : findUser s userId = some row := hid ▸ findUser_of_mem hs hrow
    split
    · next hstored =>
      rw [if_pos hstored] at hprivy
      intro stored hmem _
      obtain rfl := Option.mem_some.mp hmem
      rw [((ensure_custodial hfind hprivy).mp hensured).2.2.2]
    · next hstored =>
      rw [if_neg hstored] at hprivy
      exact hderived row hrow hprivy

/-- All resolvers agree about every user in each state of exactly the histories in which no login links late. -/
theorem resolvers_agree_iff (auth : AuthEnv) (env : PurchaseEnv) (hderive : Function.Injective env.deriveKeypair)
    (ops : List WalletOp) :
    Throughout (walletStep auth env) (fun s => ∀ userId, ResolversAgree env s userId) [] ops ↔
      Along (walletStep auth env) (fun s op => ∀ t, walletStep auth env s op = .ok t → ¬LinksLate s op) [] ops := by
  have hempty : WalletsSound env [] :=
    ⟨.nil, List.forall_mem_nil _, List.forall_mem_nil _, List.forall_mem_nil _⟩
  refine throughout_iff_along (fun s op t hs hstep => sound_of_moves hs (walletStep_moves hstep))
    (fun s op t hs hagree hstep => ?_) hempty ((agree_iff hempty).mpr (List.forall_mem_nil _))
  have hmoves : Moves env s op t := walletStep_moves hstep
  rw [agree_iff (sound_of_moves hs hmoves)]
  exact derived_iff_of_moves hderive hs ((agree_iff hs).mp hagree) hmoves

end Operations

/-! ### A late link -/

def testAuth : AuthEnv where
  googleClientId := "client"
  hash password := password
  trim text := text
  toLowerCase text := text

def testWallets : PurchaseEnv where
  configured := true
  walletSecret := true
  platformAddress := "GPLATFORM"
  deriveKeypair seed := "G-" ++ seed
  toFixed _ _ := ""
  number _ := 0

def testRegister : WalletOp := .register "user" ⟨"user@mail", "password", some "investor"⟩

def testGoogleLogin : WalletOp := .googleLogin (some ⟨some "google-sub", some "user@mail", true⟩)

theorem testWallets_injective : Function.Injective testWallets.deriveKeypair :=
  fun _ _ h => (String.append_right_inj "G-").mp h

/-- A link before the first purchase. -/
theorem resolvers_agree_early :
    Throughout (walletStep testAuth testWallets) (fun s => ∀ userId, ResolversAgree testWallets s userId) []
      [testRegister, testGoogleLogin, .ensureCustodialWallet "user" true] := by
  refine (resolvers_agree_iff testAuth testWallets testWallets_injective _).mpr
    ⟨fun _ _ h => h, fun _ _ => ?_, fun _ _ h => h, trivial⟩
  rintro ⟨googleId, -, email, hemail, -, user, huser, -, -, hstored, -⟩
  obtain rfl := Option.mem_some.mp hemail
  have hnone : (findUserBy (some ·.email) (next (walletStep testAuth testWallets) [] testRegister) "user@mail").any
      (·.stellarWalletId.getD "" ≠ "") = false := by decide +kernel
  rw [Option.mem_def.mp huser, Option.any_some, decide_eq_false_iff_not] at hnone
  exact hnone hstored

/-- A link after it. -/
def lateHistory : List WalletOp := [testRegister, .ensureCustodialWallet "user" true, testGoogleLogin]

def lateUsers : List UserRow := run (walletStep testAuth testWallets) [] lateHistory

/-- Deposits are then minted to a wallet that no charge accepts. -/
theorem late_link_mismatch :
    depositAddress lateUsers "user" = some "G-user" ∧
      (∀ funded, ensureCustodialWalletForUser testWallets (custodialUsers lateUsers) "user" funded =
        .error (.error "Wallet mismatch for user user — stored G-user vs derived G-google-sub")) ∧
      ¬Throughout (walletStep testAuth testWallets) (fun s => ∀ userId, ResolversAgree testWallets s userId) []
        lateHistory := by
  have hdeposit : depositAddress lateUsers "user" = some "G-user" := by decide +kernel
  have hmismatch : ∀ funded, ensureCustodialWalletForUser testWallets (custodialUsers lateUsers) "user" funded =
      .error (.error "Wallet mismatch for user user — stored G-user vs derived G-google-sub") := by
    intro funded
    cases funded <;> rfl
  refine ⟨hdeposit, hmismatch, fun hagree => ?_⟩
  obtain ⟨keypair, hensured⟩ := (hagree.last "user").custodial "G-user" hdeposit rfl
  cases (hmismatch true).symm.trans hensured

end CredBridge.Api
