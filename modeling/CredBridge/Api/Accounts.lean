import CredBridge.Api.DepositStages
import CredBridge.Api.Investments

/-! # Users and their wallets

A user registers with a password, and logs in with it, with Google or with Privy. A login of a provider looks its own
identifier up first, and links the row that has the email when no row has the identifier. The wallet of a user is the one
that Privy told of, or a custodial one, whose key is derived from the user's Google identifier or from the row's own. -/

namespace CredBridge.Api
open Result

inductive AuthError where
  | badRequest (message : String)
  | unauthorized (message : String)
  | forbidden (message : String)
  | conflict (message : String)
  | error (message : String)
deriving DecidableEq, Repr

structure UserRow where
  id : String
  email : String
  passwordHash : Option String := none
  googleId : Option String := none
  provider : String := "email"
  role : Option String
  stellarWalletId : Option String := none
  privyUserId : Option String := none
  privyStellarWalletAddress : Option String := none
  privyWalletStatus : Option String := none
deriving DecidableEq

structure RegisterDto where
  email : String
  password : String
  role : Option String

/-- The payload of a Google token that verified. -/
structure TokenPayload where
  sub : Option String
  email : Option String
  emailVerified : Bool

inductive LinkedAccount where
  | email (address : String)
  | googleOauth (email : String)
  | wallet (chainType walletClientType address : String)
  | other

/-- What Privy answers about two tokens. -/
structure PrivyAnswer where
  claimsUserId : String
  identityUserId : String
  linkedAccounts : List LinkedAccount

structure VerifiedPrivySession where
  privyUserId : String
  email : String
  stellarWalletAddress : String
deriving DecidableEq

structure AuthEnv where
  googleClientId : String
  /-- `bcrypt.hash`. -/
  hash : String → String
  trim : String → String
  toLowerCase : String → String

/-! ### The table -/

def findUser (s : List UserRow) (id : String) : Option UserRow := Table.find UserRow.id id s

def findUserBy {κ : Type} [DecidableEq κ] (column : UserRow → Option κ) (s : List UserRow) (value : κ) : Option UserRow :=
  Table.find column (some value) s

def updateUser (s : List UserRow) (id : String) (change : UserRow → UserRow) : List UserRow :=
  Table.modify UserRow.id id change s

/-! ### Logins -/

section Logins
variable (env : AuthEnv)

def notRegistered : AuthError :=
  .unauthorized "Seu e-mail não está cadastrado na plataforma. Por favor, entre em contato com o administrador."

def register (id : String) (dto : RegisterDto) (s : List UserRow) : Except AuthError (List UserRow × UserRow) := do
  throwIf ((findUserBy (some ·.email) s dto.email).isSome) (.conflict "Email already registered")
  throwIf ((findUser s id).isSome) (.error "Unique constraint failed on the fields: (id)")
  let user : UserRow :=
    { id, email := dto.email, passwordHash := some (env.hash dto.password), role := some (dto.role.getD "pme") }
  pure (s ++ [user], user)

def googleLogin (payload : Option TokenPayload) (s : List UserRow) : Except AuthError (List UserRow × UserRow) := do
  throwIf (env.googleClientId = "") (.badRequest "Google login not configured")
  let payload ← orThrow payload (.unauthorized "Invalid Google credentials")
  let googleId ← orThrow (payload.sub.filter (· ≠ "")) (.unauthorized "Invalid Google credentials")
  let email ← orThrow (payload.email.filter (· ≠ "")) (.unauthorized "Invalid Google credentials")
  throwIf (payload.emailVerified = false) (.forbidden "Google email not verified")
  match findUserBy UserRow.googleId s googleId with
  | some user => pure (s, user)
  | none => do
    let user ← orThrow (findUserBy (some ·.email) s email) notRegistered
    -- An identifier that is linked already stays.
    if user.googleId.getD "" = "" then
      pure (updateUser s user.id ({ · with googleId := some googleId }), { user with googleId := some googleId })
    else pure (s, user)

def findEmailAddress (linkedAccounts : List LinkedAccount) : Option String :=
  linkedAccounts.findSome? fun
    | .email address => if env.trim address = "" then none else some (env.toLowerCase (env.trim address))
    | .googleOauth email => if env.trim email = "" then none else some (env.toLowerCase (env.trim email))
    | .wallet .. | .other => none

def findStellarWalletAddress (linkedAccounts : List LinkedAccount) : Option String :=
  linkedAccounts.findSome? fun
    | .wallet chainType walletClientType address =>
      if chainType = "stellar" ∧ walletClientType = "privy" ∧ env.trim address ≠ "" then some (env.trim address) else none
    | .email _ | .googleOauth _ | .other => none

/-- Whatever Privy throws is an invalid session. -/
def verifySession (accessToken identityToken : String) (answer : Option PrivyAnswer) :
    Except AuthError VerifiedPrivySession := do
  throwIf (env.trim accessToken = "" ∨ env.trim identityToken = "")
    (.unauthorized "Privy access and identity tokens are required")
  let answer ← orThrow answer (.unauthorized "Invalid Privy session")
  throwIf (answer.claimsUserId = "" ∨ answer.identityUserId = "" ∨ answer.claimsUserId ≠ answer.identityUserId)
    (.unauthorized "Privy tokens belong to different users")
  let email ← orThrow ((findEmailAddress env answer.linkedAccounts).filter (· ≠ ""))
    (.unauthorized "Privy account must have a verified email address")
  let stellarWalletAddress ← orThrow ((findStellarWalletAddress env answer.linkedAccounts).filter (· ≠ ""))
    (.unauthorized "Privy Stellar embedded wallet must be created before session exchange")
  pure { privyUserId := answer.claimsUserId, email, stellarWalletAddress }

def privyUserData (identity : VerifiedPrivySession) (user : UserRow) : UserRow :=
  { user with
    provider := "privy"
    privyUserId := some identity.privyUserId
    privyStellarWalletAddress := some identity.stellarWalletAddress
    privyWalletStatus := some "ready" }

/-- No other row has the columns that are unique. -/
def takesPrivy (s : List UserRow) (id : String) (identity : VerifiedPrivySession) : Bool :=
  s.all fun user => decide (user.id = id ∨ user.privyUserId ≠ some identity.privyUserId ∧
    user.privyStellarWalletAddress ≠ some identity.stellarWalletAddress)

def privySession (accessToken identityToken : String) (answer : Option PrivyAnswer) (s : List UserRow) :
    Except AuthError (List UserRow × UserRow) := do
  let identity ← verifySession env accessToken identityToken answer
  let user ← orThrow (findUserBy UserRow.privyUserId s identity.privyUserId <|> findUserBy (some ·.email) s identity.email)
    notRegistered
  throwIf (takesPrivy s user.id identity = false) (.error "Unique constraint failed on the fields")
  pure (updateUser s user.id (privyUserData identity), privyUserData identity user)

end Logins

/-! ### Custodial wallets -/

def UserRow.custodial (user : UserRow) : CustodialUser where
  googleId := user.googleId
  stellarWalletId := user.stellarWalletId
  privyStellarWalletAddress := user.privyStellarWalletAddress

def custodialUsers (s : List UserRow) (id : String) : Option CustodialUser := (findUser s id).map (·.custodial)

/-- `ensureCustodialWalletForUser`, with the row that it leaves: a wallet that is not stored yet is stored. -/
def ensureCustodialWallet (env : PurchaseEnv) (userId : String) (funded : Bool) (s : List UserRow) :
    Except ApiError (List UserRow × CustodialWallet) := do
  let wallet ← ensureCustodialWalletForUser env (custodialUsers s) userId funded
  let stored (user : UserRow) : UserRow :=
    if wallet.keypair ∧ user.stellarWalletId.getD "" = "" then { user with stellarWalletId := some wallet.publicKey }
    else user
  pure (updateUser s userId stored, wallet)

/-! ### Whose wallet it is -/

def UserRow.wallets (user : UserRow) : UserWallets where
  privyStellarWalletAddress := user.privyStellarWalletAddress
  stellarWalletId := user.stellarWalletId

/-- The rows, as the transactions see them. -/
def usersOf (s : List UserRow) (id : String) : Option User :=
  (findUser s id).map fun user => { wallets := user.wallets, role := user.role.getD "" }

section Resolvers
variable (s : List UserRow) (userId : String)

/-- Where `handleDepositConfirmed` mints to. -/
def depositAddress : Option String := walletOf (usersOf s) userId

/-- Where `approveTransaction` mints to. -/
def approvalAddress : Option String := (usersOf s userId).bind (·.wallets.addressOr)

/-- Whose transactions `resolveInvestorAddress` takes. -/
def investorAddress : Option String := (resolveInvestorAddress (usersOf s) userId).toOption

/-- Whose balance `getBalance` shows. -/
def balanceAddress : Option String :=
  (findUser s userId).bind fun user =>
    match user.privyStellarWalletAddress.filter (· ≠ "") with
    | some address =>
      if user.privyWalletStatus = some "ready" then some address else user.stellarWalletId.filter (· ≠ "")
    | none => user.stellarWalletId.filter (· ≠ "")

end Resolvers

/-! ### Histories -/

inductive WalletOp where
  | register (id : String) (dto : RegisterDto)
  | googleLogin (payload : Option TokenPayload)
  | privySession (accessToken identityToken : String) (answer : Option PrivyAnswer)
  | ensureCustodialWallet (userId : String) (funded : Bool)

/-- What an operation that throws leaves is what it met. -/
def walletStep (auth : AuthEnv) (env : PurchaseEnv) (s : List UserRow) (op : WalletOp) : Except Unit (List UserRow) :=
  let left {ε α : Type} (result : Except ε (List UserRow × α)) : Except Unit (List UserRow) :=
    orThrow (result.toOption.map (·.1)) ()
  match op with
  | .register id dto => left (register auth id dto s)
  | .googleLogin payload => left (googleLogin auth payload s)
  | .privySession accessToken identityToken answer => left (privySession auth accessToken identityToken answer s)
  | .ensureCustodialWallet userId funded => left (ensureCustodialWallet env userId funded s)

end CredBridge.Api
