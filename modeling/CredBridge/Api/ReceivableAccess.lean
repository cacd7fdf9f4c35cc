import CredBridge.Api.Receivables

/-! # Who changes a receivable

Every endpoint that writes a receivable, a collection or an authorization, with who may send what: the guards of the
controllers know a user by the token, and the admin's ask for an operator. Beside the calls on receivables, an
authorization is asked for and verified, and the Pix service is asked again for the collection of a row. -/

namespace CredBridge.Api
open Concurrent Contracts Result

/-- A user who is signed in, or someone who is not a user of the API: the Pix service, or the chain. -/
inductive Caller where
  | user (userId : String)
  | outside
deriving DecidableEq

inductive AccountRequest where
  | credit (request : CreditRequest)
  | createChallenge (userId : String) (dto : CreateFinancialAuthorizationChallengeDto) (user : Option WalletUser)
      (drawn : Drawn)
  | verify (userId : String) (dto : VerifyFinancialAuthorizationDto) (privyStellarWalletAddress : Option String)
      (drawn : Drawn)
  | retryCollection (collectionId pmeUserId : String)

/-- Where `retryCollectionOrder` waits. -/
inductive RetryCall where
  | findReceivable (collection : ReceivableCollection) (pmeUserId : String)
  | createCollection (collection : ReceivableCollection) (receivable : ReceivableRow) (pmeUserId : String)
  | update (collection : ReceivableCollection) (identifier : String)

inductive AccountCall where
  | credit (call : CreditCall)
  | authorization (write : AuthorizationWrite)
  | retry (call : RetryCall)

inductive AccountReply where
  | credit (reply : CreditReply)
  | authorization (drawn : Drawn)
  /-- Done; the value is the identifier of a new order at the Pix service. A call that throws is over as one that is
      lost. -/
  | retry (identifier : String)

section Calls
variable {σ : Type}

/-- The receivable's own row, and what its debtor pays by. -/
structure Standing where
  status : Option ReceivableStatus
  documentHash : Option String
  identifiers : List (Option String)
deriving DecidableEq

def CreditState.standing (s : CreditState σ) (id : String) : Standing where
  status := (s.findReceivable id).map (·.status)
  documentHash := (s.findReceivable id).bind (·.documentHash)
  identifiers := (s.receivableCollections.filter (·.receivableId = id)).map (·.identifier)

def findCollectionRow (s : CreditState σ) (id : String) : Option ReceivableCollection :=
  Table.find (fun c => c.id) id s.receivableCollections

def RetryCall.resume (identifier : String) (s : CreditState σ) : RetryCall → CreditState σ × Option RetryCall
  | .findReceivable collection pmeUserId =>
    (s, (s.findReceivable collection.receivableId).map fun receivable => .createCollection collection receivable pmeUserId)
  | .createCollection collection _ _ => (s, some (.update collection identifier))
  | .update collection identifier =>
    ({ s with toPixState := s.toPixState.updateCollection collection.id ({ · with identifier := some identifier }) }, none)

/-- A reply that is not for the call leaves it waiting. -/
def accountApi (env : CreditEnv σ) (stellarNetwork : Option String) :
    Handler (CreditState σ) AccountCall AccountRequest AccountReply where
  start request s :=
    let authorize (request : AuthorizationRequest) (drawn : Drawn) :=
      let r := (financialAuthorizations env.runtime stellarNetwork).start (request, drawn) s.authorizations
      ({ s with authorizations := r.1 }, r.2.map .authorization)
    match request with
    | .credit request =>
      let r := (creditApi env).start request s
      (r.1, r.2.map .credit)
    | .createChallenge userId dto user drawn => authorize (.createChallenge userId dto user) drawn
    | .verify userId dto wallet drawn => authorize (.verify userId dto wallet) drawn
    | .retryCollection collectionId pmeUserId =>
      (s, (findCollectionRow s collectionId).map fun collection => .retry (.findReceivable collection pmeUserId))
  resume call reply s :=
    match call, reply with
    | .credit call, .credit reply =>
      let r := (creditApi env).resume call reply s
      (r.1, r.2.map .credit)
    | .authorization write, .authorization drawn =>
      let r := (financialAuthorizations env.runtime stellarNetwork).resume write drawn s.authorizations
      ({ s with authorizations := r.1 }, r.2.map .authorization)
    | .retry call, .retry identifier =>
      let r := call.resume identifier s
      (r.1, r.2.map .retry)
    | call, _ => (s, some call)

/-! ### Guards -/

/-- What `JwtAuthGuard` and `assertOperator` let a caller send. -/
def Authenticated (operator : String → Bool) (caller : Caller) : AccountRequest → Prop
  | .credit (.pix (.callback _)) | .credit (.pix (.moveOrder ..)) | .credit (.receivable (.transact ..)) =>
    caller = .outside
  | .credit (.receivable (.approveReceivable _ operatorId)) | .credit (.receivable (.rejectReceivable _ operatorId)) =>
    caller = .user operatorId ∧ operator operatorId
  | .credit (.pix (.submitWithdrawal userId _)) | .credit (.receivable (.create userId _))
  | .credit (.purchase (.create userId _)) | .createChallenge userId .. | .verify userId .. | .retryCollection _ userId =>
    caller = .user userId
  | .credit (.receivable (.tokenize _)) | .credit (.receivable (.requestAssignment _)) | .credit (.receivable (.assign ..))
  | .credit (.receivable (.submitAssignment ..)) | .credit (.receivable (.createDocument _))
  | .credit (.purchase (.authorization ..)) => ∃ userId, caller = .user userId

def AccountRequest.isPurchase : AccountRequest → Bool
  | .credit (.purchase _) => true
  | _ => false

end Calls
end CredBridge.Api
