import CredBridge.Lib.Concurrent
import CredBridge.PixService.Orders

/-! # Withdrawals in flight

`create_withdrawal` looks the order up, asks the provider about the key, asks it for the Pix Out, and commits
the row: four steps, between which other requests take theirs, and in each of which the process can fail. The
provider executes the requests that carry one idempotency key at most once. -/

namespace CredBridge.PixService
open Concurrent Machine Result

structure PixOutRequest where
  idempotencyKey : String
  accountId : String
  keyType : String
  key : String
  amount : Rat
  currency : String
  identifier : String
  description : Option String
  metadata : Option Json

structure PixOut where
  externalId : String
  request : PixOutRequest

structure World where
  db : Db
  executed : List PixOut

def World.empty : World := ⟨.empty, []⟩

/-- The provider executes a request, unless it executed one with its key before. -/
def corpxExecute (executed : List PixOut) (pixOut : PixOut) : List PixOut :=
  if pixOut.request.idempotencyKey ∈ executed.map (·.request.idempotencyKey) then executed else executed ++ [pixOut]

structure Withdrawal where
  request : CreateWithdrawalOrderRequest
  fresh : Fresh
  amountCents : Int

inductive Waiting where
  | dictLookup (w : Withdrawal)
  | createPixOutAsync (w : Withdrawal)
  | commit (w : Withdrawal) (out : PixOutResult)

inductive Answer where
  | dictLookup (result : Except PyError Unit)
  /-- Whether the provider took the request, and what the service gets to hear of it: the answer can be lost. -/
  | createPixOutAsync (taken : Bool) (result : Except PyError PixOutResult)
  | commit (reached : Bool)

section Handler
variable (py : Python) (settings : Settings)

def Withdrawal.identifier (w : Withdrawal) : String := generateIdentifier withdrawalIdentifierPrefix w.fresh.nanoid

def orDefault (text : Option String) (default : String) : String := (text.filter (· ≠ "")).getD default

def Withdrawal.pixOutRequest (w : Withdrawal) : PixOutRequest where
  idempotencyKey := "pixout-" ++ w.identifier
  accountId := settings.corpxAccountId
  keyType := w.request.pixKeyType
  key := w.request.pixKey
  amount := py.round w.request.amount
  currency := "BRL"
  identifier := w.identifier
  description := some (orDefault w.request.description "Saque CredBridge")
  metadata := w.request.metadata.filter Json.truthy

def Withdrawal.pixOut (w : Withdrawal) : PixOut := ⟨w.request.externalId, w.pixOutRequest py settings⟩

def startWithdrawal (call : Fresh × CreateWithdrawalOrderRequest) (s : World) : World × Option Waiting :=
  match findOrderByExternalId s.db call.2.externalId with
  | some _ => (s, none)
  | none =>
    match brlToCents py call.2.amount with
    | .error _ => (s, none)
    | .ok amountCents => (s, some (.dictLookup ⟨call.2, call.1, amountCents⟩))

def afterDictLookup (w : Withdrawal) (result : Except PyError Unit) (s : World) : World × Option Waiting :=
  match checkDict result with
  | .error _ => (s, none)
  | .ok _ => (s, some (.createPixOutAsync w))

/-- From the answer to the Pix Out. A second request, after a renewed token, carries the same key. -/
def afterPixOut (w : Withdrawal) (taken : Bool) (result : Except PyError PixOutResult) (s : World) :
    World × Option Waiting :=
  let s := { s with executed := if taken then corpxExecute s.executed (w.pixOut py settings) else s.executed }
  match result with
  | .error _ => (s, none)
  | .ok out => (s, some (.commit w out))

def commitWithdrawal (w : Withdrawal) (out : PixOutResult) (reached : Bool) (s : World) : World × Option Waiting :=
  if reached then
    match persistWithdrawal settings w.fresh s.db w.request w.amountCents out with
    | .error _ => (s, none)
    | .ok db => ({ s with db }, none)
  else (s, none)

def resumeWithdrawal (waiting : Waiting) (answer : Answer) (s : World) : World × Option Waiting :=
  match waiting, answer with
  | .dictLookup w, .dictLookup result => afterDictLookup w result s
  | .createPixOutAsync w, .createPixOutAsync taken result => afterPixOut py settings w taken result s
  | .commit w out, .commit reached => commitWithdrawal settings w out reached s
  | _, _ => (s, some waiting)

def withdrawals : Handler World Waiting (Fresh × CreateWithdrawalOrderRequest) Answer where
  start := startWithdrawal py
  resume := resumeWithdrawal py settings

end Handler

theorem commitWithdrawal_db (settings : Settings) (w : Withdrawal) (out : PixOutResult) (s : World) :
    (commitWithdrawal settings w out true s).1.db =
      (persistWithdrawal settings w.fresh s.db w.request w.amountCents out).toOption.getD s.db := by
  unfold commitWithdrawal
  cases persistWithdrawal settings w.fresh s.db w.request w.amountCents out <;> simp [Except.toOption]

/-- A request that no other one comes between does what `createWithdrawal` does, and nothing if that raises. -/
theorem withdrawal_alone (py : Python) (settings : Settings) (s : World) (fresh : Fresh)
    (request : CreateWithdrawalOrderRequest) (dict : Except PyError Unit) (taken : Bool)
    (out : Except PyError PixOutResult) :
    (run (withdrawals py settings).step ⟨s, []⟩ (.start (fresh, request) ::
        [.dictLookup dict, .createPixOutAsync taken out, .commit true].map (.resume 0))).shared.db =
      (createWithdrawal py settings fresh s.db request dict out).toOption.getD s.db := by
  rw [run_alone]
  show ((withdrawals py settings).finish (startWithdrawal py (fresh, request) s) _).db = _
  unfold createWithdrawal startWithdrawal
  cases findOrderByExternalId s.db request.externalId with
  | some order => rfl
  | none =>
    cases brlToCents py request.amount with
    | error e => rfl
    | ok amountCents =>
      show ((withdrawals py settings).finish (afterDictLookup _ dict s) _).db = _
      unfold afterDictLookup
      cases checkDict dict with
      | error e => rfl
      | ok u =>
        cases out with
        | error e => rfl
        | ok out =>
          exact commitWithdrawal_db settings ⟨request, fresh, amountCents⟩ out _

end CredBridge.PixService
