import CredBridge.Api.Accounts
import CredBridge.Lib.Concurrent

/-! # Sessions, statement by statement

A login signs a token with the identifier, the email and the role of a row; the guards of the other endpoints read
nothing but the token. A login, a registration, the choice of a role, a new password and the row that an operator
creates each read the table and write it later, and between the two other calls take their steps. The column of the
custodial wallet, which no session reads, is written beside them. -/

namespace CredBridge.Api
open Concurrent Result

structure JwtPayload where
  sub : String
  email : String
  role : Option String
deriving DecidableEq

structure LoginDto where
  email : String
  password : String

structure SetRoleDto where
  role : String

structure ChangePasswordDto where
  currentPassword : String
  newPassword : String

structure CreateUserDto where
  email : String
  role : String

/-- The table of the users, and the tokens that were signed. -/
structure SessionState where
  users : List UserRow
  issued : List JwtPayload := []
deriving DecidableEq

structure SessionEnv extends AuthEnv where
  isEmail : String → Bool
  /-- `bcrypt.compare`. -/
  compare : (password passwordHash : String) → Bool

inductive SessionRequest where
  | register (dto : RegisterDto)
  | login (dto : LoginDto)
  | googleLogin (idToken : String)
  | privySession (accessToken identityToken : String)
  | setRole (token : JwtPayload) (dto : SetRoleDto)
  | changePassword (token : JwtPayload) (dto : ChangePasswordDto)
  | createUser (token : JwtPayload) (dto : CreateUserDto)

/-- What a call waits for. -/
inductive SessionCall where
  | createRegistered (dto : RegisterDto)
  | verifyIdToken (idToken : String)
  | findGoogleId (googleId email : String)
  | findGoogleEmail (googleId email : String)
  | linkGoogle (userId googleId : String)
  | verifySession (accessToken identityToken : String)
  | findPrivyUserId (identity : VerifiedPrivySession)
  | findPrivyEmail (identity : VerifiedPrivySession)
  | linkPrivy (userId : String) (identity : VerifiedPrivySession)
  | updateRole (userId role : String)
  | updatePassword (userId newPassword : String)
  | createUser (dto : CreateUserDto)
  | sign (payload : JwtPayload)

inductive SessionReply where
  /-- Done; the value is the identifier of a new row. -/
  | ok (value : String)
  /-- What Google tells of a token. -/
  | google (payload : Option TokenPayload)
  /-- What Privy tells of two tokens. -/
  | privy (answer : Option PrivyAnswer)
  /-- It threw, and a write may have been executed. -/
  | threw (executed : Option String)

def UserRow.payload (user : UserRow) : JwtPayload := ⟨user.id, user.email, user.role⟩

/-! ### Bodies of requests -/

section Bodies
variable (env : SessionEnv)

def RegisterDto.Valid (dto : RegisterDto) : Prop :=
  env.isEmail dto.email = true ∧ 8 ≤ dto.password.length ∧ ∀ role ∈ dto.role, role ∈ ["pme", "investor", "partner"]

def LoginDto.Valid (dto : LoginDto) : Prop := env.isEmail dto.email = true ∧ 1 ≤ dto.password.length

def SetRoleDto.Valid (dto : SetRoleDto) : Prop := dto.role ∈ ["pme", "investor"]

def ChangePasswordDto.Valid (dto : ChangePasswordDto) : Prop :=
  1 ≤ dto.currentPassword.length ∧ 8 ≤ dto.newPassword.length

def CreateUserDto.Valid (dto : CreateUserDto) : Prop := env.isEmail dto.email = true ∧ dto.role ∈ ["pme", "investor"]

instance (dto : RegisterDto) : Decidable (dto.Valid env) := inferInstanceAs (Decidable (_ ∧ _ ∧ _))
instance (dto : LoginDto) : Decidable (dto.Valid env) := inferInstanceAs (Decidable (_ ∧ _))
instance (dto : SetRoleDto) : Decidable dto.Valid := inferInstanceAs (Decidable (_ ∈ _))
instance (dto : ChangePasswordDto) : Decidable dto.Valid := inferInstanceAs (Decidable (_ ∧ _))
instance (dto : CreateUserDto) : Decidable (dto.Valid env) := inferInstanceAs (Decidable (_ ∧ _))

end Bodies

/-! ### Guards -/

def badBody : AuthError := .badRequest "Bad Request"

/-- A token passes the guard when it was signed here; what has expired is not presented. -/
def jwtGuard (s : SessionState) (token : JwtPayload) : Except AuthError Unit :=
  throwIf (token ∉ s.issued) (.unauthorized "Unauthorized")

def assertOperator (token : JwtPayload) : Except AuthError Unit :=
  throwIf (token.role ≠ some "operator") (.forbidden "Apenas operadores da plataforma podem acessar este recurso")

section Calls
variable (env : SessionEnv)

/-! ### Up to the first wait -/

def checkRegistration (dto : RegisterDto) (s : SessionState) : Except AuthError SessionCall := do
  throwIf (¬dto.Valid env) badBody
  throwIf ((findUserBy (some ·.email) s.users dto.email).isSome) (.conflict "Email already registered")
  pure (.createRegistered dto)

def checkLogin (dto : LoginDto) (s : SessionState) : Except AuthError SessionCall := do
  throwIf (¬dto.Valid env) badBody
  let user ← orThrow (findUserBy (some ·.email) s.users dto.email) (.unauthorized "Invalid credentials")
  let passwordHash ← orThrow (user.passwordHash.filter (· ≠ "")) (.unauthorized "Invalid credentials")
  throwIf (env.compare dto.password passwordHash = false) (.unauthorized "Invalid credentials")
  pure (.sign user.payload)

def checkGoogle (idToken : String) : Except AuthError SessionCall := do
  throwIf (idToken = "") badBody
  throwIf (env.googleClientId = "") (.badRequest "Google login not configured")
  pure (.verifyIdToken idToken)

def checkPrivy (accessToken identityToken : String) : Except AuthError SessionCall := do
  throwIf (env.trim accessToken = "" ∨ env.trim identityToken = "")
    (.unauthorized "Privy access and identity tokens are required")
  pure (.verifySession accessToken identityToken)

def checkSetRole (token : JwtPayload) (dto : SetRoleDto) (s : SessionState) : Except AuthError SessionCall := do
  jwtGuard s token
  throwIf (¬dto.Valid) badBody
  let user ← orThrow (findUser s.users token.sub) (.unauthorized "Unauthorized")
  throwIf (user.role.getD "" ≠ "") (.conflict "Role already set")
  pure (.updateRole token.sub dto.role)

def checkChangePassword (token : JwtPayload) (dto : ChangePasswordDto) (s : SessionState) :
    Except AuthError SessionCall := do
  jwtGuard s token
  throwIf (¬dto.Valid) badBody
  let user ← orThrow (findUser s.users token.sub) (.unauthorized "Unauthorized")
  let passwordHash ← orThrow (user.passwordHash.filter (· ≠ "")) (.badRequest "Conta sem senha cadastrada")
  throwIf (env.compare dto.currentPassword passwordHash = false) (.badRequest "Senha atual incorreta")
  pure (.updatePassword token.sub dto.newPassword)

def checkCreateUser (token : JwtPayload) (dto : CreateUserDto) (s : SessionState) : Except AuthError SessionCall := do
  jwtGuard s token
  throwIf (¬dto.Valid env) badBody
  assertOperator token
  throwIf ((findUserBy (some ·.email) s.users dto.email).isSome) (.badRequest "E-mail já cadastrado na plataforma")
  pure (.createUser dto)

def SessionRequest.check (s : SessionState) : SessionRequest → Except AuthError SessionCall
  | .register dto => checkRegistration env dto s
  | .login dto => checkLogin env dto s
  | .googleLogin idToken => checkGoogle env idToken
  | .privySession accessToken identityToken => checkPrivy env accessToken identityToken
  | .setRole token dto => checkSetRole token dto s
  | .changePassword token dto => checkChangePassword env token dto s
  | .createUser token dto => checkCreateUser env token dto s

/-! ### From one wait to the next -/

/-- The identifier and the email that a verified payload tells. -/
def googleIdentity (payload : Option TokenPayload) : Except AuthError (String × String) := do
  let payload ← orThrow payload (.unauthorized "Invalid Google credentials")
  let googleId ← orThrow (payload.sub.filter (· ≠ "")) (.unauthorized "Invalid Google credentials")
  let email ← orThrow (payload.email.filter (· ≠ "")) (.unauthorized "Invalid Google credentials")
  throwIf (payload.emailVerified = false) (.forbidden "Google email not verified")
  pure (googleId, email)

def newRow (id : String) (row : UserRow) (s : SessionState) : Except AuthError SessionState := do
  throwIf ((findUserBy (some ·.email) s.users row.email).isSome) (.error "Unique constraint failed on the fields: (email)")
  throwIf ((findUser s.users id).isSome) (.error "Unique constraint failed on the fields: (id)")
  pure { s with users := s.users ++ [row] }

/-- `user.update`, where `free` tells that no other row has the new values of the unique columns. -/
def updateRow (userId : String) (free : Bool) (change : UserRow → UserRow) (s : SessionState) :
    Except AuthError (SessionState × UserRow) := do
  let user ← orThrow (findUser s.users userId) (.error "No record was found for an update")
  throwIf (free = false) (.error "Unique constraint failed on the fields")
  pure ({ s with users := updateUser s.users userId change }, change user)

def takesGoogle (s : List UserRow) (id googleId : String) : Bool :=
  s.all fun user => decide (user.id = id ∨ user.googleId ≠ some googleId)

def registeredRow (id : String) (dto : RegisterDto) : UserRow :=
  { id, email := dto.email, passwordHash := some (env.hash dto.password), role := some (dto.role.getD "pme") }

def createdRow (id : String) (dto : CreateUserDto) : UserRow :=
  { id, email := dto.email, provider := "privy", role := some dto.role }

/-- What a call does with the value that its statement told, and where it waits next. -/
def SessionCall.goOn (value : String) (s : SessionState) :
    SessionCall → Except AuthError (SessionState × Option SessionCall)
  | .createRegistered dto => do
    let row := registeredRow env value dto
    let s ← newRow value row s
    pure (s, some (.sign row.payload))
  | .findGoogleId googleId email =>
    match findUserBy UserRow.googleId s.users googleId with
    | some user => pure (s, some (.sign user.payload))
    | none => pure (s, some (.findGoogleEmail googleId email))
  | .findGoogleEmail googleId email => do
    let user ← orThrow (findUserBy (some ·.email) s.users email) notRegistered
    -- An identifier that is linked already stays.
    if user.googleId.getD "" = "" then pure (s, some (.linkGoogle user.id googleId))
    else pure (s, some (.sign user.payload))
  | .linkGoogle userId googleId => do
    let (s, user) ← updateRow userId (takesGoogle s.users userId googleId) ({ · with googleId := some googleId }) s
    pure (s, some (.sign user.payload))
  | .findPrivyUserId identity =>
    match findUserBy UserRow.privyUserId s.users identity.privyUserId with
    | some user => pure (s, some (.linkPrivy user.id identity))
    | none => pure (s, some (.findPrivyEmail identity))
  | .findPrivyEmail identity => do
    let user ← orThrow (findUserBy (some ·.email) s.users identity.email) notRegistered
    pure (s, some (.linkPrivy user.id identity))
  | .linkPrivy userId identity => do
    let (s, user) ← updateRow userId (takesPrivy s.users userId identity) (privyUserData identity) s
    pure (s, some (.sign user.payload))
  | .updateRole userId role => do
    let (s, user) ← updateRow userId true ({ · with role := some role }) s
    pure (s, some (.sign user.payload))
  | .updatePassword userId newPassword => do
    let (s, _) ← updateRow userId true ({ · with passwordHash := some (env.hash newPassword) }) s
    pure (s, none)
  | .createUser dto => do
    let s ← newRow value (createdRow value dto) s
    pure (s, none)
  | .sign payload => pure ({ s with issued := s.issued ++ [payload] }, none)
  | call@(.verifyIdToken _) | call@(.verifySession ..) => pure (s, some call)

/-! ### The handler -/

def startSession (request : SessionRequest) (s : SessionState) : SessionState × Option SessionCall :=
  (s, (request.check env s).toOption)

/-- A call whose statement threw is over, and so is one that throws itself. -/
def resumeSession (call : SessionCall) (reply : SessionReply) (s : SessionState) : SessionState × Option SessionCall :=
  match call, reply with
  | .verifyIdToken _, .google payload =>
    (s, (googleIdentity payload).toOption.map fun identity => .findGoogleId identity.1 identity.2)
  | .verifySession accessToken identityToken, .privy answer =>
    (s, (verifySession env.toAuthEnv accessToken identityToken answer).toOption.map .findPrivyUserId)
  | call, .ok value => (call.goOn env value s).toOption.getD (s, none)
  | call, .threw (some value) => (((call.goOn env value s).toOption.map (·.1)).getD s, none)
  | _, .threw none => (s, none)
  | call, .google _ | call, .privy _ => (s, some call)

def sessionApi : Handler SessionState SessionCall SessionRequest SessionReply where
  start := startSession env
  resume := resumeSession env

end Calls

/-! ### A step of a call -/

section Steps
variable {env : SessionEnv} {s s' : SessionState} {value : String} {call : SessionCall} {next : Option SessionCall}

theorem newRow_inv {id : String} {row : UserRow} (h : newRow id row s = .ok s') :
    findUserBy (some ·.email) s.users row.email = none ∧ findUser s.users id = none ∧
      s' = { s with users := s.users ++ [row] } := by
  obtain ⟨hemail, h⟩ := throwIf_bind_eq_ok.mp h
  obtain ⟨hid, h⟩ := throwIf_bind_eq_ok.mp h
  exact ⟨by simpa using hemail, by simpa using hid, (pure_eq_ok.mp h).symm⟩

theorem updateRow_inv {userId : String} {free : Bool} {change : UserRow → UserRow} {user : UserRow}
    (h : updateRow userId free change s = .ok (s', user)) :
    free = true ∧ s' = { s with users := updateUser s.users userId change } ∧
      ∃ row, findUser s.users userId = some row ∧ user = change row := by
  obtain ⟨row, hrow, h⟩ := orThrow_bind_eq_ok.mp h
  obtain ⟨hfree, h⟩ := throwIf_bind_eq_ok.mp h
  cases pure_eq_ok.mp h
  exact ⟨by simpa using hfree, rfl, row, hrow, rfl⟩

/-- What a request that is let through waits for, and what its checks found. -/
inductive SessionRequest.Asks (env : SessionEnv) (s : SessionState) : SessionRequest → SessionCall → Prop where
  | register (dto : RegisterDto) (hvalid : dto.Valid env) : Asks env s (.register dto) (.createRegistered dto)
  | login (dto : LoginDto) (user : UserRow) (passwordHash : String) (hmem : user ∈ s.users)
      (hemail : user.email = dto.email) (hhash : user.passwordHash = some passwordHash)
      (hcompare : env.compare dto.password passwordHash = true) : Asks env s (.login dto) (.sign user.payload)
  | googleLogin (idToken : String) : Asks env s (.googleLogin idToken) (.verifyIdToken idToken)
  | privySession (accessToken identityToken : String) :
    Asks env s (.privySession accessToken identityToken) (.verifySession accessToken identityToken)
  | setRole (token : JwtPayload) (dto : SetRoleDto) (htoken : token ∈ s.issued) (hvalid : dto.Valid) (user : UserRow)
      (hmem : user ∈ s.users) (hid : user.id = token.sub) (hunset : user.role.getD "" = "") :
    Asks env s (.setRole token dto) (.updateRole token.sub dto.role)
  | changePassword (token : JwtPayload) (dto : ChangePasswordDto) (htoken : token ∈ s.issued) :
    Asks env s (.changePassword token dto) (.updatePassword token.sub dto.newPassword)
  | createUser (token : JwtPayload) (dto : CreateUserDto) (htoken : token ∈ s.issued) (hvalid : dto.Valid env)
      (hoperator : token.role = some "operator") : Asks env s (.createUser token dto) (.createUser dto)

theorem jwtGuard_eq_ok {token : JwtPayload} : jwtGuard s token = .ok () ↔ token ∈ s.issued :=
  throwIf_eq_ok.trans not_not

theorem assertOperator_eq_ok {token : JwtPayload} : assertOperator token = .ok () ↔ token.role = some "operator" :=
  throwIf_eq_ok.trans not_not

theorem check_asks {request : SessionRequest} (h : request.check env s = .ok call) : request.Asks env s call := by
  cases request with
  | register dto =>
    obtain ⟨hvalid, h⟩ := throwIf_bind_eq_ok.mp h
    obtain ⟨-, h⟩ := throwIf_bind_eq_ok.mp h
    cases pure_eq_ok.mp h
    exact .register dto (not_not.mp hvalid)
  | login dto =>
    obtain ⟨-, h⟩ := throwIf_bind_eq_ok.mp h
    obtain ⟨user, hfind, h⟩ := orThrow_bind_eq_ok.mp h
    obtain ⟨passwordHash, hhash, h⟩ := orThrow_bind_eq_ok.mp h
    obtain ⟨hcompare, h⟩ := throwIf_bind_eq_ok.mp h
    cases pure_eq_ok.mp h
    exact .login dto user passwordHash (Table.mem_of_find hfind) (by simpa using Table.key_of_find hfind)
      (Option.filter_eq_some_iff.mp hhash).1 (by simpa using hcompare)
  | googleLogin idToken =>
    obtain ⟨-, h⟩ := throwIf_bind_eq_ok.mp h
    obtain ⟨-, h⟩ := throwIf_bind_eq_ok.mp h
    cases pure_eq_ok.mp h
    exact .googleLogin idToken
  | privySession accessToken identityToken =>
    obtain ⟨-, h⟩ := throwIf_bind_eq_ok.mp h
    cases pure_eq_ok.mp h
    exact .privySession accessToken identityToken
  | setRole token dto =>
    obtain ⟨⟨⟩, htoken, h⟩ := bind_eq_ok.mp h
    obtain ⟨hvalid, h⟩ := throwIf_bind_eq_ok.mp h
    obtain ⟨user, hfind, h⟩ := orThrow_bind_eq_ok.mp h
    obtain ⟨hunset, h⟩ := throwIf_bind_eq_ok.mp h
    cases pure_eq_ok.mp h
    exact .setRole token dto (jwtGuard_eq_ok.mp htoken) (not_not.mp hvalid) user (Table.mem_of_find hfind)
      (Table.key_of_find hfind) (not_not.mp hunset)
  | changePassword token dto =>
    obtain ⟨⟨⟩, htoken, h⟩ := bind_eq_ok.mp h
    obtain ⟨-, h⟩ := throwIf_bind_eq_ok.mp h
    obtain ⟨user, -, h⟩ := orThrow_bind_eq_ok.mp h
    obtain ⟨passwordHash, -, h⟩ := orThrow_bind_eq_ok.mp h
    obtain ⟨-, h⟩ := throwIf_bind_eq_ok.mp h
    cases pure_eq_ok.mp h
    exact .changePassword token dto (jwtGuard_eq_ok.mp htoken)
  | createUser token dto =>
    obtain ⟨⟨⟩, htoken, h⟩ := bind_eq_ok.mp h
    obtain ⟨hvalid, h⟩ := throwIf_bind_eq_ok.mp h
    obtain ⟨⟨⟩, hoperator, h⟩ := bind_eq_ok.mp h
    obtain ⟨-, h⟩ := throwIf_bind_eq_ok.mp h
    cases pure_eq_ok.mp h
    exact .createUser token dto (jwtGuard_eq_ok.mp htoken) (not_not.mp hvalid) (assertOperator_eq_ok.mp hoperator)

/-- What a call does when nothing throws. -/
inductive SessionCall.Goes (env : SessionEnv) (value : String) (s : SessionState) :
    SessionCall → SessionState → Option SessionCall → Prop where
  | waits (call : SessionCall) (hverifies : (∃ idToken, call = .verifyIdToken idToken) ∨
      ∃ accessToken identityToken, call = .verifySession accessToken identityToken) : Goes env value s call s (some call)
  | signed (payload : JwtPayload) : Goes env value s (.sign payload) { s with issued := s.issued ++ [payload] } none
  | found (call : SessionCall) (user : UserRow) (hmem : user ∈ s.users)
      (hcall : (∃ googleId email, call = .findGoogleId googleId email ∧ user.googleId = some googleId) ∨
        ∃ googleId, call = .findGoogleEmail googleId user.email) :
    Goes env value s call s (some (.sign user.payload))
  | unknownGoogle (googleId email : String) :
    Goes env value s (.findGoogleId googleId email) s (some (.findGoogleEmail googleId email))
  | foundEmail (googleId : String) (user : UserRow) (hmem : user ∈ s.users) :
    Goes env value s (.findGoogleEmail googleId user.email) s (some (.linkGoogle user.id googleId))
  | unknownPrivy (identity : VerifiedPrivySession) :
    Goes env value s (.findPrivyUserId identity) s (some (.findPrivyEmail identity))
  | foundPrivy (call : SessionCall) (identity : VerifiedPrivySession) (user : UserRow) (hmem : user ∈ s.users)
      (hcall : call = .findPrivyUserId identity ∧ user.privyUserId = some identity.privyUserId ∨
        call = .findPrivyEmail identity ∧ user.email = identity.email) :
    Goes env value s call s (some (.linkPrivy user.id identity))
  | inserted (call : SessionCall) (row : UserRow) (next : Option SessionCall)
      (hemail : findUserBy (some ·.email) s.users row.email = none) (hid : findUser s.users row.id = none)
      (hcall : (∃ dto, call = .createRegistered dto ∧ row = registeredRow env value dto ∧ next = some (.sign row.payload)) ∨
        ∃ dto, call = .createUser dto ∧ row = createdRow value dto ∧ next = none) :
    Goes env value s call { s with users := s.users ++ [row] } next
  | updated (call : SessionCall) (row : UserRow) (change : UserRow → UserRow) (next : Option SessionCall)
      (hrow : findUser s.users row.id = some row)
      (hcall : (∃ googleId, call = .linkGoogle row.id googleId ∧ change = ({ · with googleId := some googleId })) ∨
        (∃ identity, call = .linkPrivy row.id identity ∧ change = privyUserData identity) ∨
        (∃ role, call = .updateRole row.id role ∧ change = ({ · with role := some role })) ∨
        ∃ newPassword, call = .updatePassword row.id newPassword ∧
          change = ({ · with passwordHash := some (env.hash newPassword) }))
      (hnext : next = none ∨ next = some (.sign (change row).payload)) :
    Goes env value s call { s with users := updateUser s.users row.id change } next

theorem SessionCall.Goes.of_updateRow {userId : String} {free : Bool} {change : UserRow → UserRow} {user : UserRow}
    (h : updateRow userId free change s = .ok (s', user))
    (hgoes : ∀ row, findUser s.users row.id = some row → userId = row.id → user = change row →
      Goes env value s call { s with users := updateUser s.users row.id change } next) : Goes env value s call s' next := by
  obtain ⟨hfree, rfl, row, hrow, hchange⟩ := updateRow_inv h
  have hid : row.id = userId := Table.key_of_find hrow
  subst hid
  exact hgoes row hrow rfl hchange

theorem goOn_goes (h : call.goOn env value s = .ok (s', next)) : call.Goes env value s s' next := by
  cases call with
  | createRegistered dto =>
    obtain ⟨s₁, hrow, h⟩ := bind_eq_ok.mp h
    cases pure_eq_ok.mp h
    obtain ⟨hemail, hid, rfl⟩ := newRow_inv hrow
    exact .inserted _ _ _ hemail hid (.inl ⟨dto, rfl, rfl, rfl⟩)
  | createUser dto =>
    obtain ⟨s₁, hrow, h⟩ := bind_eq_ok.mp h
    cases pure_eq_ok.mp h
    obtain ⟨hemail, hid, rfl⟩ := newRow_inv hrow
    exact .inserted _ _ _ hemail hid (.inr ⟨dto, rfl, rfl, rfl⟩)
  | findGoogleId googleId email =>
    simp only [SessionCall.goOn] at h
    split at h
    · next user hfind =>
      cases pure_eq_ok.mp h
      exact .found _ user (Table.mem_of_find hfind) (.inl ⟨googleId, email, rfl, Table.key_of_find hfind⟩)
    · cases pure_eq_ok.mp h
      exact .unknownGoogle googleId email
  | findGoogleEmail googleId email =>
    obtain ⟨user, hfind, hgoes⟩ := orThrow_bind_eq_ok.mp h
    clear h
    have hmem : user ∈ s.users := Table.mem_of_find hfind
    have hemail : user.email = email := by simpa using Table.key_of_find hfind
    subst hemail
    split at hgoes
    · cases pure_eq_ok.mp hgoes
      exact .foundEmail googleId user hmem
    · cases pure_eq_ok.mp hgoes
      exact .found _ user hmem (.inr ⟨googleId, rfl⟩)
  | linkGoogle userId googleId =>
    obtain ⟨⟨s₁, user⟩, hrow, h⟩ := bind_eq_ok.mp h
    cases pure_eq_ok.mp h
    refine .of_updateRow hrow fun row hfind hid huser => ?_
    subst hid huser
    exact .updated _ row _ _ hfind (.inl ⟨googleId, rfl, rfl⟩) (.inr rfl)
  | findPrivyUserId identity =>
    simp only [SessionCall.goOn] at h
    split at h
    · next user hfind =>
      cases pure_eq_ok.mp h
      exact .foundPrivy _ identity user (Table.mem_of_find hfind) (.inl ⟨rfl, Table.key_of_find hfind⟩)
    · cases pure_eq_ok.mp h
      exact .unknownPrivy identity
  | findPrivyEmail identity =>
    obtain ⟨user, hfind, h⟩ := orThrow_bind_eq_ok.mp h
    cases pure_eq_ok.mp h
    exact .foundPrivy _ identity user (Table.mem_of_find hfind)
      (.inr ⟨rfl, by simpa using Table.key_of_find hfind⟩)
  | linkPrivy userId identity =>
    obtain ⟨⟨s₁, user⟩, hrow, h⟩ := bind_eq_ok.mp h
    cases pure_eq_ok.mp h
    refine .of_updateRow hrow fun row hfind hid huser => ?_
    subst hid huser
    exact .updated _ row _ _ hfind (.inr (.inl ⟨identity, rfl, rfl⟩)) (.inr rfl)
  | updateRole userId role =>
    obtain ⟨⟨s₁, user⟩, hrow, h⟩ := bind_eq_ok.mp h
    cases pure_eq_ok.mp h
    refine .of_updateRow hrow fun row hfind hid huser => ?_
    subst hid huser
    exact .updated _ row _ _ hfind (.inr (.inr (.inl ⟨role, rfl, rfl⟩))) (.inr rfl)
  | updatePassword userId newPassword =>
    obtain ⟨⟨s₁, user⟩, hrow, h⟩ := bind_eq_ok.mp h
    cases pure_eq_ok.mp h
    refine .of_updateRow hrow fun row hfind hid huser => ?_
    subst hid
    exact .updated _ row _ _ hfind (.inr (.inr (.inr ⟨newPassword, rfl, rfl⟩))) (.inl rfl)
  | sign payload =>
    cases pure_eq_ok.mp h
    exact .signed payload
  | verifyIdToken idToken =>
    cases pure_eq_ok.mp h
    exact .waits _ (.inl ⟨idToken, rfl⟩)
  | verifySession accessToken identityToken =>
    cases pure_eq_ok.mp h
    exact .waits _ (.inr ⟨accessToken, identityToken, rfl⟩)

/-- Where a call stands after a reply: it is over or waits on, a provider told of an identity, or its statement was
    executed, and it went on or threw. -/
inductive SessionResumed (env : SessionEnv) (s : SessionState) (r : SessionState × Option SessionCall) :
    SessionCall → SessionReply → Prop where
  | stops (call : SessionCall) (reply : SessionReply)
      (hthrows : ∀ value, reply = .ok value ∨ reply = .threw (some value) → (call.goOn env value s).toOption = none)
      (hr : r = (s, none)) : SessionResumed env s r call reply
  | waits (call : SessionCall) (reply : SessionReply)
      (hunanswered : ∀ value, reply ≠ .ok value ∧ reply ≠ .threw (some value)) (hr : r = (s, some call)) :
    SessionResumed env s r call reply
  | google (idToken googleId email : String) (payload : Option TokenPayload)
      (hidentity : googleIdentity payload = .ok (googleId, email)) (hr : r = (s, some (.findGoogleId googleId email))) :
    SessionResumed env s r (.verifyIdToken idToken) (.google payload)
  | privy (accessToken identityToken : String) (answer : Option PrivyAnswer) (identity : VerifiedPrivySession)
      (hidentity : verifySession env.toAuthEnv accessToken identityToken answer = .ok identity)
      (hr : r = (s, some (.findPrivyUserId identity))) :
    SessionResumed env s r (.verifySession accessToken identityToken) (.privy answer)
  | goes (call : SessionCall) (reply : SessionReply) (value : String) (s' : SessionState) (next : Option SessionCall)
      (hgoes : call.Goes env value s s' next) (hreply : reply = .ok value ∨ reply = .threw (some value))
      (hr : r = (s', next) ∨ r = (s', none)) : SessionResumed env s r call reply

theorem resumeSession_resumed (env : SessionEnv) (call : SessionCall) (reply : SessionReply) (s : SessionState) :
    SessionResumed env s (resumeSession env call reply s) call reply := by
  have hok (value : String) : SessionResumed env s ((call.goOn env value s).toOption.getD (s, none)) call (.ok value) := by
    cases h : call.goOn env value s with
    | error e =>
      refine .stops _ _ (fun value' hvalue => ?_) rfl
      rcases hvalue with ⟨⟨⟩⟩ | ⟨⟨⟩⟩
      rw [h]
      rfl
    | ok r => exact .goes _ _ value r.1 r.2 (goOn_goes h) (.inl rfl) (.inl rfl)
  have hthrew (value : String) : SessionResumed env s (((call.goOn env value s).toOption.map (·.1)).getD s, none) call
      (.threw (some value)) := by
    cases h : call.goOn env value s with
    | error e =>
      refine .stops _ _ (fun value' hvalue => ?_) rfl
      rcases hvalue with ⟨⟨⟩⟩ | ⟨⟨⟩⟩
      rw [h]
      rfl
    | ok r => exact .goes _ _ value r.1 r.2 (goOn_goes h) (.inr rfl) (.inr rfl)
  have hno {value : String} (h : reply ≠ .ok value ∧ reply ≠ .threw (some value))
      (hvalue : reply = .ok value ∨ reply = .threw (some value)) : (call.goOn env value s).toOption = none :=
    absurd hvalue (not_or.mpr h)
  cases reply with
  | ok value => cases call <;> exact hok value
  | threw executed =>
    cases executed with
    | some value => cases call <;> exact hthrew value
    | none => cases call <;> exact .stops _ _ (fun value => hno (by simp)) rfl
  | google payload =>
    cases call with
    | verifyIdToken idToken =>
      cases h : googleIdentity payload with
      | error e => exact .stops _ _ (fun value => hno (by simp)) (by simp only [resumeSession, h]; rfl)
      | ok identity => exact .google idToken identity.1 identity.2 payload h (by simp only [resumeSession, h]; rfl)
    | _ => exact .waits _ _ (fun value => by simp) rfl
  | privy answer =>
    cases call with
    | verifySession accessToken identityToken =>
      cases h : verifySession env.toAuthEnv accessToken identityToken answer with
      | error e => exact .stops _ _ (fun value => hno (by simp)) (by simp only [resumeSession, h]; rfl)
      | ok identity =>
        exact .privy accessToken identityToken answer identity h (by simp only [resumeSession, h]; rfl)
    | _ => exact .waits _ _ (fun value => by simp) rfl

/-- An outline of the calls, from what a request asks for, what a provider tells and what a statement does. -/
theorem sessionOutline {S : SessionState → SessionRequest → Prop} {A : SessionState → SessionCall → SessionReply → Prop}
    {G : SessionState → Prop} {F : SessionState → SessionCall → Prop} {R : SessionState → SessionState → Prop}
    (hrefl : ∀ s, R s s) (hstable : ∀ s s' call, R s s' → F s call → F s' call)
    (hasks : ∀ s request call, G s → S s request → request.Asks env s call → F s call)
    (hgoogle : ∀ s idToken payload googleId email, A s (.verifyIdToken idToken) (.google payload) →
      googleIdentity payload = .ok (googleId, email) → F s (.findGoogleId googleId email))
    (hprivy : ∀ s accessToken identityToken answer identity, A s (.verifySession accessToken identityToken) (.privy answer) →
      verifySession env.toAuthEnv accessToken identityToken answer = .ok identity → F s (.findPrivyUserId identity))
    (hgoes : ∀ s s' call reply value next, G s → F s call → A s call reply →
      reply = .ok value ∨ reply = .threw (some value) → call.Goes env value s s' next →
        G s' ∧ R s s' ∧ ∀ next' ∈ next, F s' next') : Outline (sessionApi env) S A G F R where
  start request s hs hrequest :=
    ⟨hs, hrefl s, fun call hcall => hasks s request call hs hrequest (check_asks (toOption_eq_some.mp hcall))⟩
  resume call reply s hs hcall hreply := by
    have hresumed := resumeSession_resumed env call reply s
    show G (resumeSession env call reply s).1 ∧ R s (resumeSession env call reply s).1 ∧
      ∀ next ∈ (resumeSession env call reply s).2, F (resumeSession env call reply s).1 next
    generalize resumeSession env call reply s = r at hresumed ⊢
    cases hresumed with
    | stops call reply _ hr =>
      subst hr
      exact ⟨hs, hrefl s, fun next hnext => by cases hnext⟩
    | waits call reply _ hr =>
      subst hr
      exact ⟨hs, hrefl s, fun next hnext => by cases hnext; exact hcall⟩
    | google idToken googleId email payload hidentity hr =>
      subst hr
      refine ⟨hs, hrefl s, fun next hnext => ?_⟩
      cases hnext
      exact hgoogle s idToken payload googleId email hreply hidentity
    | privy accessToken identityToken answer identity hidentity hr =>
      subst hr
      refine ⟨hs, hrefl s, fun next hnext => ?_⟩
      cases hnext
      exact hprivy s accessToken identityToken answer identity hreply hidentity
    | goes call reply value s' next hgone hvalue hr =>
      obtain ⟨hs', hR, hnext⟩ := hgoes s s' call reply value next hs hcall hreply hvalue hgone
      rcases hr with rfl | rfl
      · exact ⟨hs', hR, hnext⟩
      · exact ⟨hs', hR, fun next hnext => by cases hnext⟩
  stable := hstable

end Steps

/-! ### Logins alone

A login that no other call runs beside leaves what it leaves in one step. -/

section Alone
variable (env : SessionEnv) (s : SessionState)

/-- The table that a login left, with the token of its row. -/
def SessionState.served : Except AuthError (List UserRow × UserRow) → SessionState
  | .ok (users, user) => { users, issued := s.issued ++ [user.payload] }
  | .error _ => s

theorem register_alone (dto : RegisterDto) (hvalid : dto.Valid env) (id signed : String) :
    (sessionApi env).finish (startSession env (.register dto) s) [.ok id, .ok signed] =
      s.served (register env.toAuthEnv id dto s.users) := by
  simp only [startSession, SessionRequest.check, checkRegistration, register, throwIf, if_neg (not_not.mpr hvalid)]
  by_cases hemail : (findUserBy (some ·.email) s.users dto.email).isSome
  · simp only [if_pos hemail]
    rfl
  · simp only [if_neg hemail]
    show (sessionApi env).finish (resumeSession env (.createRegistered dto) (.ok id) s) [.ok signed] = _
    have hemail' : ¬(findUserBy (some ·.email) s.users (registeredRow env id dto).email).isSome := hemail
    by_cases hid : (findUser s.users id).isSome
    · simp only [resumeSession, SessionCall.goOn, newRow, throwIf, if_neg hemail', if_pos hid]
      rfl
    · simp only [resumeSession, SessionCall.goOn, newRow, throwIf, if_neg hemail', if_neg hid]
      rfl

theorem googleLogin_eq (payload : Option TokenPayload) (hclient : env.googleClientId ≠ "") :
    googleLogin env.toAuthEnv payload s.users = (do
      let (googleId, email) ← googleIdentity payload
      match findUserBy UserRow.googleId s.users googleId with
      | some user => pure (s.users, user)
      | none => do
        let user ← orThrow (findUserBy (some ·.email) s.users email) notRegistered
        if user.googleId.getD "" = "" then
          pure (updateUser s.users user.id ({ · with googleId := some googleId }), { user with googleId := some googleId })
        else pure (s.users, user)) := by
  simp only [googleLogin, googleIdentity, bind_assoc, pure_bind, throwIf, if_neg hclient]
  rfl

/-- No row has an identifier that is not found. -/
theorem takesGoogle_of_none {googleId : String} (h : findUserBy UserRow.googleId s.users googleId = none) (id : String) :
    takesGoogle s.users id googleId = true := by
  refine List.all_eq_true.mpr fun user huser => decide_eq_true (.inr fun hgoogle => ?_)
  exact Table.find_eq_none.mp h (List.mem_map.mpr ⟨user, huser, hgoogle⟩)

theorem googleLogin_alone (hids : Table.Keyed UserRow.id s.users) (idToken : String) (hidToken : idToken ≠ "")
    (payload : Option TokenPayload) (read₁ read₂ linked signed : String) :
    (sessionApi env).finish (startSession env (.googleLogin idToken) s)
        [.google payload, .ok read₁, .ok read₂, .ok linked, .ok signed] =
      s.served (googleLogin env.toAuthEnv payload s.users) := by
  simp only [startSession, SessionRequest.check, checkGoogle, throwIf, if_neg hidToken]
  by_cases hclient : env.googleClientId = ""
  · simp only [googleLogin, throwIf, if_pos hclient]
    rfl
  rw [if_neg hclient, googleLogin_eq env s payload hclient]
  show (sessionApi env).finish (resumeSession env (.verifyIdToken idToken) (.google payload) s)
    [.ok read₁, .ok read₂, .ok linked, .ok signed] = _
  cases hidentity : googleIdentity payload with
  | error e =>
    simp only [resumeSession, hidentity]
    rfl
  | ok identity =>
    obtain ⟨googleId, email⟩ := identity
    simp only [resumeSession, hidentity]
    show (sessionApi env).finish (resumeSession env (.findGoogleId googleId email) (.ok read₁) s)
      [.ok read₂, .ok linked, .ok signed] = s.served (match findUserBy UserRow.googleId s.users googleId with
      | some user => pure (s.users, user)
      | none => _)
    cases hgoogle : findUserBy UserRow.googleId s.users googleId with
    | some user =>
      simp only [resumeSession, SessionCall.goOn, hgoogle]
      rfl
    | none =>
      simp only [resumeSession, SessionCall.goOn, hgoogle]
      show (sessionApi env).finish (resumeSession env (.findGoogleEmail googleId email) (.ok read₂) s)
        [.ok linked, .ok signed] = _
      cases hemail : findUserBy (some ·.email) s.users email with
      | none =>
        simp only [resumeSession, SessionCall.goOn, hemail]
        rfl
      | some user =>
        have hrow : findUser s.users user.id = some user :=
          (Table.find_eq_some hids).mpr ⟨Table.mem_of_find hemail, rfl⟩
        simp only [resumeSession, SessionCall.goOn, hemail]
        by_cases hlinked : user.googleId.getD "" = ""
        · simp only [orThrow, bind, Except.bind, if_pos hlinked]
          show (sessionApi env).finish (resumeSession env (.linkGoogle user.id googleId) (.ok linked) s) [.ok signed] = _
          simp only [resumeSession, SessionCall.goOn, updateRow, hrow, takesGoogle_of_none s hgoogle]
          rfl
        · simp only [orThrow, bind, Except.bind, if_neg hlinked]
          rfl

theorem linkPrivy_alone {user : UserRow} (hrow : findUser s.users user.id = some user) (identity : VerifiedPrivySession)
    (linked signed : String) (rest : List SessionReply) :
    (sessionApi env).finish (resumeSession env (.linkPrivy user.id identity) (.ok linked) s) (.ok signed :: rest) =
      s.served (do
        throwIf (takesPrivy s.users user.id identity = false) (.error "Unique constraint failed on the fields")
        pure (updateUser s.users user.id (privyUserData identity), privyUserData identity user)) := by
  have hover (s : SessionState) : (sessionApi env).finish (s, none) rest = s := by cases rest <;> rfl
  simp only [resumeSession, SessionCall.goOn, updateRow, hrow]
  cases takesPrivy s.users user.id identity with
  | false => rfl
  | true => exact hover _

theorem privySession_alone (hids : Table.Keyed UserRow.id s.users) (accessToken identityToken : String)
    (answer : Option PrivyAnswer) (read₁ read₂ linked signed : String) :
    (sessionApi env).finish (startSession env (.privySession accessToken identityToken) s)
        [.privy answer, .ok read₁, .ok read₂, .ok linked, .ok signed] =
      s.served (privySession env.toAuthEnv accessToken identityToken answer s.users) := by
  simp only [startSession, SessionRequest.check, checkPrivy]
  by_cases hempty : env.trim accessToken = "" ∨ env.trim identityToken = ""
  · simp only [privySession, verifySession, throwIf, if_pos hempty]
    rfl
  simp only [throwIf, if_neg hempty]
  show (sessionApi env).finish (resumeSession env (.verifySession accessToken identityToken) (.privy answer) s)
    [.ok read₁, .ok read₂, .ok linked, .ok signed] = _
  unfold privySession
  cases hidentity : verifySession env.toAuthEnv accessToken identityToken answer with
  | error e =>
    simp only [resumeSession, hidentity]
    rfl
  | ok identity =>
    simp only [resumeSession, hidentity, bind, Except.bind]
    show (sessionApi env).finish (resumeSession env (.findPrivyUserId identity) (.ok read₁) s)
      [.ok read₂, .ok linked, .ok signed] = _
    cases hprivy : findUserBy UserRow.privyUserId s.users identity.privyUserId with
    | some user =>
      have hrow : findUser s.users user.id = some user :=
        (Table.find_eq_some hids).mpr ⟨Table.mem_of_find hprivy, rfl⟩
      simp only [resumeSession, SessionCall.goOn, hprivy]
      exact linkPrivy_alone env s hrow identity read₂ linked [.ok signed]
    | none =>
      simp only [resumeSession, SessionCall.goOn, hprivy]
      show (sessionApi env).finish (resumeSession env (.findPrivyEmail identity) (.ok read₂) s)
        [.ok linked, .ok signed] = _
      cases hemail : findUserBy (some ·.email) s.users identity.email with
      | none =>
        simp only [resumeSession, SessionCall.goOn, hemail]
        rfl
      | some user =>
        have hrow : findUser s.users user.id = some user :=
          (Table.find_eq_some hids).mpr ⟨Table.mem_of_find hemail, rfl⟩
        simp only [resumeSession, SessionCall.goOn, hemail]
        exact linkPrivy_alone env s hrow identity linked signed []

end Alone

end CredBridge.Api
