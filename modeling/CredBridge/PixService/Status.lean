import Mathlib

/-! # Statuses of a Pix order

The canonical statuses of an order, the transitions that are declared allowed, and the status that each
event of the provider stands for. -/

namespace CredBridge.PixService

inductive PixOrderStatus where
  | created
  | pendingPayment
  | processing
  | confirmed
  | failed
  | expired
  | canceled
  | timeout
  | refunded
deriving DecidableEq, Repr

inductive PixOrderType where
  | deposit
  | withdrawal
deriving DecidableEq, Repr

inductive OwnerRole where
  | pme
  | investor
deriving DecidableEq, Repr

def PixOrderStatus.value : PixOrderStatus → String
  | .created => "CREATED"
  | .pendingPayment => "PENDING_PAYMENT"
  | .processing => "PROCESSING"
  | .confirmed => "CONFIRMED"
  | .failed => "FAILED"
  | .expired => "EXPIRED"
  | .canceled => "CANCELED"
  | .timeout => "TIMEOUT"
  | .refunded => "REFUNDED"

def PixOrderType.value : PixOrderType → String
  | .deposit => "DEPOSIT"
  | .withdrawal => "WITHDRAWAL"

def allowedTransitions : PixOrderStatus → List PixOrderStatus
  | .created => [.pendingPayment, .processing, .failed]
  | .pendingPayment => [.confirmed, .expired, .canceled, .failed]
  | .processing => [.confirmed, .failed, .timeout, .refunded]
  | .timeout => [.confirmed, .failed, .refunded]
  | .confirmed => []
  | .failed => []
  | .expired => []
  | .canceled => []
  | .refunded => []

def terminalStatuses : List PixOrderStatus := [.confirmed, .failed, .expired, .canceled, .refunded]

def isTransitionAllowed (current next : PixOrderStatus) : Bool := decide (next ∈ allowedTransitions current)

def isTerminal (status : PixOrderStatus) : Bool := decide (status ∈ terminalStatuses)

def corpxEventToStatus (eventType : String) : Option PixOrderStatus :=
  if eventType = "qrcode.paid" then some .confirmed
  else if eventType = "qrcode.expired" then some .expired
  else if eventType = "qrcode.cancelled" then some .canceled
  else if eventType = "pix.in.completed" then some .confirmed
  else if eventType = "pix.out.completed" then some .confirmed
  else if eventType = "pix.out.failed" then some .failed
  else if eventType = "pix.out.timeout" then some .timeout
  else if eventType = "pix.refund.completed" then some .refunded
  else if eventType = "pix.refund.failed" then some .failed
  else none

/-- The terminal statuses are those with no allowed transition. -/
theorem isTerminal_iff {s : PixOrderStatus} : isTerminal s = true ↔ ∀ t, isTransitionAllowed s t = false := by
  constructor
  · intro h t
    cases s <;> first | exact absurd h (by decide) | rfl
  · intro h
    cases s with
    | created => exact absurd (h .pendingPayment) (by decide)
    | pendingPayment => exact absurd (h .confirmed) (by decide)
    | processing => exact absurd (h .confirmed) (by decide)
    | timeout => exact absurd (h .confirmed) (by decide)
    | confirmed | failed | expired | canceled | refunded => rfl

end CredBridge.PixService
