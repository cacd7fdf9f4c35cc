import CredBridge.Api.Stellar
import CredBridge.Lib.Concurrent
import CredBridge.Lib.SequencedLedger

/-! # Submissions to the ledger

A transaction that the API signs draws the next number of its signer's account, as Horizon knows it, and is good for half
a minute; one that a client signed has the number and the time that are in it. Both are sent, and their status is asked for
every two seconds, for a minute. A payment goes to Horizon, which answers when it knows what became of it. The ledger goes
on in between. -/

namespace CredBridge.Api
open Concurrent SequencedLedger

def txTimeoutSeconds : Nat := 30
def clientSignedTxTimeoutSeconds : Nat := 180
def pollIntervalMs : Nat := 2000
def pollDeadlineMs : Nat := 60000

/-- An operation, with the fee and the resources that its simulation adds. -/
structure TxBody (Op : Type) where
  operation : Op
  resources : String
deriving DecidableEq

abbrev StellarTx (Op : Type) := Tx String (TxBody Op)

inductive SubmitRequest (Op : Type) where
  | invokeContract (signer method : String) (operation : Op)
  /-- A payment, a new account or a trustline, through `submitWithDetail`. -/
  | submitWithDetail (signer label : String) (operation : Op)
  | submitSignedTx (tx : StellarTx Op)
  | submitSignedAssignment (tx : StellarTx Op)

/-- Where a call waits. A sleeping one has asked for the status at a time. -/
inductive Submitting (Op : Type) where
  | loadAccount (request : SubmitRequest Op) (signer : String) (operation : Op)
  | simulateTransaction (request : SubmitRequest Op) (tx : StellarTx Op)
  | sendTransaction (request : SubmitRequest Op) (tx : StellarTx Op)
  | getTransaction (request : SubmitRequest Op) (tx : StellarTx Op) (deadline : Nat)
  | sleep (request : SubmitRequest Op) (tx : StellarTx Op) (deadline polledAt : Nat)
  | submitTransaction (request : SubmitRequest Op) (tx : StellarTx Op)

inductive StellarAnswer where
  | account (sequence : Nat)
  | simulated (result : Except String String)
  /-- With what the network objects to, where the status is an error. -/
  | sent (errorResult : Option String)
  /-- The server has seen so many transactions of the ledger. -/
  | transaction (seen : Nat)
  | woke
  | submitted (seen : Nat) (detail codes : String)
  | raised (message : String)

/-- An answer, at a time in milliseconds. -/
structure StellarReply where
  now : Nat
  answer : StellarAnswer

inductive SubmitOutcome (Op : Type) where
  | confirmed (tx : StellarTx Op)
  | simulationFailed (result : String)
  | rejected (errorResult : String)
  | failedOnChain (tx : StellarTx Op)
  | timedOut (tx : StellarTx Op) (deadline : Nat)
  | submitFailed (detail codes : String)
  | raised (message : String)

structure EndedSubmit (Op : Type) where
  request : SubmitRequest Op
  outcome : SubmitOutcome Op

/-- The ledger, the calls that have ended, what they built or were handed in, and the time. -/
structure StellarState (Op : Type) where
  ledger : Ledger String (TxBody Op)
  ended : List (EndedSubmit Op)
  built : List (StellarTx Op)
  clock : Nat

section Submit
variable {Op : Type}

def StellarState.empty : StellarState Op := ⟨.empty, [], [], 0⟩

/-- `[method]` of an invocation, and the label of a payment. -/
def SubmitRequest.label : SubmitRequest Op → String
  | .invokeContract _ method _ => method
  | .submitWithDetail _ label _ => label
  | .submitSignedTx _ | .submitSignedAssignment _ => ""

def SubmitRequest.rejectedText : SubmitRequest Op → String
  | .invokeContract _ method _ => "Stellar RPC rejected tx [" ++ method ++ "]: "
  | .submitSignedAssignment _ => "Stellar RPC rejected Fee Bump assignment: "
  | .submitWithDetail _ _ _ | .submitSignedTx _ => "sendTransaction failed: "

/-- What the caller gets. -/
def EndedSubmit.result (hash : StellarTx Op → String) (e : EndedSubmit Op) : Except ApiError String :=
  match e.outcome with
  | .confirmed tx => .ok (hash tx)
  | .simulationFailed result => .error (.error ("Soroban simulation failed [" ++ e.request.label ++ "]: " ++ result))
  | .rejected errorResult => .error (.error (e.request.rejectedText ++ errorResult))
  | .failedOnChain tx => .error (.error ("Stellar tx failed on-chain: " ++ hash tx))
  | .timedOut tx _ => .error (.error ("Stellar tx timed out after 60s: " ++ hash tx))
  | .submitFailed detail codes =>
    .error (.error ("Horizon " ++ e.request.label ++ " failed: " ++ detail ++ " (codes=" ++ codes ++ ")"))
  | .raised message => .error (.error message)

def setTimeout (now timeoutSeconds : Nat) : Nat := now / 1000 + timeoutSeconds

/-- The transaction before its simulation. -/
def buildTx (signer : String) (sequence now timeoutSeconds : Nat) (operation : Op) : StellarTx Op where
  source := signer
  seq := sequence + 1
  maxTime := some (setTimeout now timeoutSeconds)
  body := ⟨operation, ""⟩

def assembleTransaction (tx : StellarTx Op) (resources : String) : StellarTx Op :=
  { tx with body := { tx.body with resources } }

/-- The transaction as it was before its simulation. -/
def draft (tx : StellarTx Op) : StellarTx Op := assembleTransaction tx ""

def StellarState.record (s : StellarState Op) (request : SubmitRequest Op) (outcome : SubmitOutcome Op) :
    StellarState Op × Option (Submitting Op) :=
  ({ s with ended := s.ended ++ [⟨request, outcome⟩] }, none)

def afterLoad (request : SubmitRequest Op) (signer : String) (operation : Op) (sequence : Nat) (s : StellarState Op) :
    StellarState Op × Option (Submitting Op) :=
  let tx := buildTx signer sequence s.clock txTimeoutSeconds operation
  ({ s with built := s.built ++ [tx] },
    match request with
    | .submitWithDetail _ _ _ => some (.submitTransaction request tx)
    | _ => some (.simulateTransaction request tx))

def afterSimulation (request : SubmitRequest Op) (tx : StellarTx Op) (result : Except String String)
    (s : StellarState Op) : StellarState Op × Option (Submitting Op) :=
  match result with
  | .ok resources => (s, some (.sendTransaction request (assembleTransaction tx resources)))
  | .error result => s.record request (.simulationFailed result)

/-- From the answer of the network to the first question for the status. -/
def afterSend (request : SubmitRequest Op) (tx : StellarTx Op) (errorResult : Option String) (s : StellarState Op) :
    StellarState Op × Option (Submitting Op) :=
  match errorResult with
  | some errorResult => s.record request (.rejected errorResult)
  | none => (s, some (.getTransaction request tx (s.clock + pollDeadlineMs)))

def afterWake (request : SubmitRequest Op) (tx : StellarTx Op) (deadline : Nat) (s : StellarState Op) :
    StellarState Op × Option (Submitting Op) :=
  if s.clock < deadline then (s, some (.getTransaction request tx deadline))
  else s.record request (.timedOut tx deadline)

section Handler
variable [DecidableEq Op]

def afterPoll (request : SubmitRequest Op) (tx : StellarTx Op) (deadline seen : Nat) (s : StellarState Op) :
    StellarState Op × Option (Submitting Op) :=
  match status (s.ledger.entries.take seen) tx with
  | .success => s.record request (.confirmed tx)
  | .failed => s.record request (.failedOnChain tx)
  | .notFound => (s, some (.sleep request tx deadline s.clock))

/-- Horizon answers with a hash for a transaction that it has seen succeed, and with an error otherwise. -/
def afterSubmit (request : SubmitRequest Op) (tx : StellarTx Op) (seen : Nat) (detail codes : String)
    (s : StellarState Op) : StellarState Op × Option (Submitting Op) :=
  match status (s.ledger.entries.take seen) tx with
  | .success => s.record request (.confirmed tx)
  | _ => s.record request (.submitFailed detail codes)

def Submitting.request : Submitting Op → SubmitRequest Op
  | .loadAccount request _ _ | .simulateTransaction request _ | .sendTransaction request _ | .getTransaction request _ _
  | .sleep request _ _ _ | .submitTransaction request _ => request

def resumeSubmit (f : Submitting Op) (reply : StellarReply) (s : StellarState Op) :
    StellarState Op × Option (Submitting Op) :=
  let s := { s with clock := reply.now }
  match f, reply.answer with
  | .loadAccount request signer operation, .account sequence => afterLoad request signer operation sequence s
  | .simulateTransaction request tx, .simulated result => afterSimulation request tx result s
  | .sendTransaction request tx, .sent errorResult => afterSend request tx errorResult s
  | .getTransaction request tx deadline, .transaction seen => afterPoll request tx deadline seen s
  | .sleep request tx deadline _, .woke => afterWake request tx deadline s
  | .submitTransaction request tx, .submitted seen detail codes => afterSubmit request tx seen detail codes s
  | .sleep request tx deadline polledAt, _ => (s, some (.sleep request tx deadline polledAt))
  | f, .raised message => s.record f.request (.raised message)
  | f, _ => (s, some f)

/-- A call, or what happens on the ledger. -/
inductive StellarInput (Op : Type) where
  | submit (request : SubmitRequest Op)
  | ledger (event : Event String (TxBody Op))

def startSubmit (request : SubmitRequest Op) (s : StellarState Op) : StellarState Op × Option (Submitting Op) :=
  match request with
  | .invokeContract signer _ operation | .submitWithDetail signer _ operation =>
    (s, some (.loadAccount request signer operation))
  | .submitSignedTx tx | .submitSignedAssignment tx =>
    ({ s with built := s.built ++ [draft tx] }, some (.sendTransaction request tx))

def submissions (Op : Type) [DecidableEq Op] : Handler (StellarState Op) (Submitting Op) (StellarInput Op) StellarReply where
  start input s :=
    match input with
    | .submit request => startSubmit request s
    | .ledger event => ({ s with ledger := Machine.next SequencedLedger.step s.ledger event }, none)
  resume := resumeSubmit

end Handler

end Submit

end CredBridge.Api
