import Mathlib
import CredBridge.Api.PixCallbacks
import CredBridge.PixService.Outbox

/-! # What a paid deposit mints

The provider reports the amount that was paid; the service compares it with the order's, and logs where they differ. Its
callback carries the order's amount whatever was paid, and the API mints what the callback carries. -/

namespace CredBridge.PixService
open Result

section CamelCase
variable {text : PythonText}

theorem toCamelCase_of_splitOn {key : String} (h : key.splitOn "_" = [key]) : toCamelCase text key = key := by
  unfold toCamelCase
  rw [h]
  exact String.append_empty

/-- Keys that are in camel case, and that differ, stay as they are. -/
theorem ensureCamelCaseKeys_of_camel {fields : List (String × Json)}
    (hcamel : ∀ f ∈ fields, toCamelCase text f.1 = f.1) (hkeys : (fields.map Prod.fst).Nodup) :
    ensureCamelCaseKeys text (.object fields) = .ok (.object fields) := by
  have hfold : ∀ (added rest : List (String × Json)), (∀ f ∈ rest, toCamelCase text f.1 = f.1) →
      ((added ++ rest).map Prod.fst).Nodup →
        rest.foldl (fun fs f => insertKey fs (toCamelCase text f.1) f.2) added = added ++ rest := by
    intro added rest
    induction rest generalizing added with
    | nil => simp
    | cons f rest ih =>
      intro hcamel hkeys
      have hnew : added.any (fun g => decide (g.1 = f.1)) = false := by
        rw [List.any_eq_false]
        intro g hg
        rw [List.map_append, List.map_cons] at hkeys
        have hdiffers := (List.nodup_append.mp hkeys).2.2 g.1 (List.mem_map_of_mem hg) f.1 List.mem_cons_self
        simpa using hdiffers
      rw [List.foldl_cons, hcamel f List.mem_cons_self, insertKey, hnew, if_neg Bool.false_ne_true,
        ih _ (fun g hg => hcamel g (List.mem_cons_of_mem f hg)) (by simpa using hkeys)]
      simp
  unfold ensureCamelCaseKeys
  split
  · next hfalsy =>
    have hempty : fields = [] := by simpa [Json.truthy] using hfalsy
    rw [hempty]
    rfl
  · have hsame := hfold [] fields hcamel hkeys
    rw [List.nil_append] at hsame
    simp only [hsame]
    rfl

theorem ensureCamelCaseKeys_callback (order : PixOrder) (eventId : String) :
    ensureCamelCaseKeys text (buildCallbackPayload order eventId) = .ok (buildCallbackPayload order eventId) := by
  refine ensureCamelCaseKeys_of_camel ?_ ?_
  · intro f hf
    refine toCamelCase_of_splitOn ?_
    simp only [List.mem_cons, List.not_mem_nil, or_false] at hf
    rcases hf with rfl | rfl | rfl | rfl | rfl | rfl | rfl | rfl | rfl | rfl | rfl | rfl | rfl | rfl | rfl <;>
      simp +decide [String.splitOn, String.splitOnAux]
  · simp

end CamelCase

theorem applyCorpxEvent_amount {py : Python} {fresh : Fresh} {order order' : PixOrder} {eventType : String}
    {payload : Json} {newStatus : Option PixOrderStatus}
    (h : applyCorpxEvent py fresh order eventType payload = .ok (order', newStatus)) :
    order'.amountCents = order.amountCents := by
  rw [← applyCorpxEvent_written h]
  rfl

end CredBridge.PixService

namespace CredBridge.Api
open PixService Result

section Mints
variable (py : Python) (fresh : Fresh) (text : PythonText) (env : StellarEnv) (users : String → Option User)
  (s : ApiState) (order : PixOrder) (eventType : String) (payload : Json)

/-- The stroops that are minted when the provider's event reaches an order: the order takes the event, the outbox sends the
    order's callback, and the API handles it for the transaction that the callback names. -/
def mintedFor : Option Int := do
  let (order, newStatus) ← (applyCorpxEvent py fresh order eventType payload).toOption
  let _ ← newStatus
  let body ← (ensureCamelCaseKeys text (buildCallbackPayload order fresh.callbackEventId)).toOption
  let dto ← PixWebhookDto.ofBody body
  let t ← findTransaction s dto.externalId
  match dispatchCallback env users t dto with
  | some (.sendMint _ (.mint _ amount) _) => some amount
  | _ => none

/-- The amount that an event reports, in cents, by the field that the service compares; `read` is what a number or a text
    stands for. -/
def ReportsCents (read : Json → Option Rat) (payload : Json) (p : Int) : Prop :=
  ∃ value, firstTruthy payload "paidAmount" "amount" = some value ∧ read value = some ((p : Rat) / 100)

/-- One BRLT is a real, and has seven decimals. -/
def stroopsPerCent : Int := 100000

/-- The runtime's arithmetic is exact on the amounts that an order can have. -/
def ExactStroops (env : StellarEnv) : Prop :=
  ∀ cents : Int, -2 ^ 31 ≤ cents → cents < 2 ^ 31 → env.stroops ((cents : Rat) / 100) = cents * stroopsPerCent

variable {py fresh text env users s order eventType payload}

/-- The callback of an order, as the handler reads it. -/
theorem ofBody_callback (order : PixOrder) (eventId : String) :
    PixWebhookDto.ofBody (buildCallbackPayload order eventId) =
      some ⟨eventId, order.externalId, order.type.value, order.status.value, order.amount⟩ := by
  simp [PixWebhookDto.ofBody, buildCallbackPayload, Json.field?]

theorem mintedFor_eq {stroops : Int} (h : mintedFor py fresh text env users s order eventType payload = some stroops) :
    stroops = env.stroops order.amount := by
  unfold mintedFor at h
  obtain ⟨⟨order', newStatus⟩, happly, h⟩ := Option.bind_eq_some_iff.mp h
  obtain ⟨status, -, h⟩ := Option.bind_eq_some_iff.mp h
  obtain ⟨body, hbody, h⟩ := Option.bind_eq_some_iff.mp h
  rw [ensureCamelCaseKeys_callback] at hbody
  cases hbody
  obtain ⟨dto, hdto, h⟩ := Option.bind_eq_some_iff.mp h
  rw [ofBody_callback] at hdto
  cases hdto
  obtain ⟨t, -, h⟩ := Option.bind_eq_some_iff.mp h
  have hamount : order'.amount = order.amount := by
    rw [PixOrder.amount, PixOrder.amount, applyCorpxEvent_amount (toOption_eq_some.mp happly)]
  split at h
  · next toAddress amount u hdispatch =>
    cases h
    rcases dispatchCallback_inv hdispatch with ⟨address, u', hcall⟩ | ⟨u', hcall⟩
    · cases hcall
      rw [hamount]
    · cases hcall
  · cases h

theorem mintedFor_eq_some {order' : PixOrder} {status : PixOrderStatus} {t : Transaction} {toAddress : String}
    {stroops : Int} {u : TransactionUpdate}
    (happly : applyCorpxEvent py fresh order eventType payload = .ok (order', some status))
    (ht : findTransaction s order'.externalId = some t)
    (hdispatch : dispatchCallback env users t
      ⟨fresh.callbackEventId, order'.externalId, order'.type.value, order'.status.value, order'.amount⟩ =
        some (.sendMint t.id (.mint toAddress stroops) u)) :
    mintedFor py fresh text env users s order eventType payload = some stroops := by
  simp [mintedFor, happly, ensureCamelCaseKeys_callback, ofBody_callback, Except.toOption, ht, hdispatch]

/-- What is minted for a deposit is worth at most the amount that its event reports exactly if the order's own amount is no
    more than that: the order's amount is what is minted. -/
theorem minted_backed_iff (py : Python) (fresh : Fresh) (text : PythonText) (env : StellarEnv) (henv : ExactStroops env)
    (users : String → Option User) (s : ApiState) (order : PixOrder) (hstorable : order.storable = true)
    (eventType : String) (payload : Json) (read : Json → Option Rat) (stroops : Int)
    (h : mintedFor py fresh text env users s order eventType payload = some stroops) :
    ∀ p, ReportsCents read payload p → (stroops ≤ p * stroopsPerCent ↔ order.amountCents ≤ p) := by
  intro p _
  simp only [PixOrder.storable, Bool.and_eq_true, decide_eq_true_iff] at hstorable
  rw [mintedFor_eq h, PixOrder.amount, henv _ hstorable.1.1 hstorable.1.2]
  unfold stroopsPerCent
  omega

end Mints

section Examples

def readsNumbers : Python := ⟨fun _ => .ok (), id, fun _ => "", id, id, fun _ => none⟩

def paidFresh : Fresh := ⟨"order", "nanoid", "callback", 0, 0⟩

def dumpsNothing : PythonText := ⟨id, fun _ => ""⟩

def depositOf (amountCents : Int) : PixOrder :=
  PixService.depositOrder readsNumbers testSettings paidFresh depositRequest amountCents ⟨"txid", "payload", "location"⟩

def depositTransaction : Transaction := ⟨"deposit", "investor", .deposit, 100, .pendingPayment, none, none, none⟩

def awaitingDeposit : ApiState := ⟨[depositTransaction], [], ⟨[], [], []⟩, []⟩

def paysOneReal : Json := .object [("paidAmount", .number 1), ("endToEndId", .string "E1")]

def readNumber : Json → Option Rat
  | .number n => some n
  | _ => none

theorem testStellar_exact : ExactStroops testStellar := by
  intro cents _ _
  have hwhole : (cents : Rat) / 100 * 10000000 + 1 / 2 = (cents * stroopsPerCent : Int) + 1 / 2 := by
    rw [stroopsPerCent]
    push_cast
    ring
  show ((cents : Rat) / 100 * 10000000 + 1 / 2).floor = cents * stroopsPerCent
  rw [hwhole]
  apply le_antisymm
  · by_contra hlt
    have hnext := Rat.le_floor_iff.mp (Int.add_one_le_of_lt (not_le.mp hlt))
    push_cast at hnext
    linarith
  · exact Rat.le_floor_iff.mpr (by linarith)

def confirmedDepositOf (amountCents : Int) : PixOrder :=
  { depositOf amountCents with status := .confirmed, confirmedAt := some 0, endToEndId := some "E1" }

/-- A deposit is minted in full, whatever was paid for it. -/
theorem mintedFor_deposit {amountCents : Int} {payload : Json}
    (happly : applyCorpxEvent readsNumbers paidFresh (depositOf amountCents) "qrcode.paid" payload =
      .ok (confirmedDepositOf amountCents, some .confirmed)) (hlow : -2 ^ 31 ≤ amountCents) (hhigh : amountCents < 2 ^ 31) :
    mintedFor readsNumbers paidFresh dumpsNothing testStellar testUsers awaitingDeposit (depositOf amountCents)
      "qrcode.paid" payload = some (amountCents * stroopsPerCent) := by
  have ht : findTransaction awaitingDeposit (confirmedDepositOf amountCents).externalId = some depositTransaction := rfl
  have hdispatch : dispatchCallback testStellar testUsers depositTransaction
      ⟨"callback", "deposit", "DEPOSIT", "CONFIRMED", (confirmedDepositOf amountCents).amount⟩ =
        some (.sendMint "deposit" (.mint "GINVESTOR" (testStellar.stroops (confirmedDepositOf amountCents).amount))
          { status := .approved }) := rfl
  rw [mintedFor_eq_some happly ht hdispatch]
  exact congrArg some (testStellar_exact amountCents hlow hhigh)

theorem applied_one_real : applyCorpxEvent readsNumbers paidFresh (depositOf 10000) "qrcode.paid" paysOneReal =
    .ok (confirmedDepositOf 10000, some .confirmed) := by
  rfl

theorem reports_one_real : ReportsCents readNumber paysOneReal 100 :=
  ⟨.number 1, rfl, by norm_num [readNumber]⟩

theorem minted_backed_iff_paid : (1000000000 : Int) ≤ 100 * stroopsPerCent ↔ (depositOf 10000).amountCents ≤ 100 :=
  minted_backed_iff _ _ _ _ testStellar_exact _ _ _ (by decide) _ _ readNumber _
    (mintedFor_deposit applied_one_real (by decide) (by decide)) 100 reports_one_real

/-- A deposit of 100 reais for which one real was paid is minted in full. -/
theorem minted_unpaid :
    mintedFor readsNumbers paidFresh dumpsNothing testStellar testUsers awaitingDeposit (depositOf 10000) "qrcode.paid"
        paysOneReal = some 1000000000 ∧
      ReportsCents readNumber paysOneReal 100 ∧ ¬(1000000000 : Int) ≤ 100 * stroopsPerCent :=
  ⟨mintedFor_deposit applied_one_real (by decide) (by decide), reports_one_real, by decide⟩

end Examples
end CredBridge.Api
