import CredBridge.Api.CollectionOrders
import CredBridge.Api.PixEffects
import CredBridge.Theorems.AnsweredWebhooks
import CredBridge.Theorems.BackedMints

/-! # Reconcilable QR codes

The payment of a QR code reaches its receivable through two lookups by the identifier of the code: the Pix service looks
its collection up, and the API the row that it marks as paid. Both find it as long as each call that has a code made also
has it stored in both places, and each receivable has one code that is not canceled as long as no call has one made while
there is another one. -/

namespace CredBridge.Api
open Concurrent Machine PixService Result

section Payments
variable {σ : Type} (env : ServiceEnv) (isoText : Rat → String) (pix : PixEnv σ) (s : CollectionStores) (q : QrCode)

/-- Each payment of the code comes to the API as a callback which, once its first three statements are done, has marked a
    collection of the receivable as paid, whatever else the database holds and the rest of the call does. -/
def MarksPaid : Prop :=
  ∀ (payment : QrPayment) (api : PixState σ),
    api.receivableCollections = s.collections.map CollectionRow.toReceivableCollection →
      api.recorded payment.fresh.callbackEventId = false →
        ∃ dto ∈ paymentCallback env isoText s.service q.identifier payment, ∀ recorded found now replies,
          ∃ row ∈ ((pixApi pix).finish ((pixApi pix).start (.callback (.collection dto)) api)
            (.ok recorded :: .ok found :: .ok now :: replies)).receivableCollections,
              row.receivableId = q.receivableId ∧ row.status = "paid"

def liveCodes (receivableId : String) : Nat :=
  s.qrCodes.countP fun q => decide (q.canceled = false ∧ q.receivableId = receivableId)

/-- The payment of a code that is not canceled marks its receivable's collection as paid, and a receivable has one such
    code at most. -/
structure Reconcilable : Prop where
  marksPaid : ∀ q ∈ s.qrCodes, q.canceled = false → MarksPaid env isoText pix s q
  one : ∀ receivableId, liveCodes s receivableId ≤ 1

/-! ### When a call registers its code -/

/-- The Pix service has a collection with the identifier. -/
def InService (identifier : String) : Prop := (findCollectionByIdentifier s.service identifier).isSome = true

/-- The API has the identifier on a row of the receivable. -/
def OnRowOf (identifier receivableId : String) : Prop :=
  ∃ row ∈ s.findIdentified identifier, row.receivableId = receivableId

/-- The request reaches the provider, and the provider makes a code. -/
def Issues (request : CreateCollectionOrderRequest) (p : Posting) : Prop :=
  (∃ amountCents, brlToCents env.py request.amount = .ok amountCents) ∧ p.qrAnswer.made = true

/-- The provider tells of the code, and the tables of the Pix service take its collection. -/
def Takes (request : CreateCollectionOrderRequest) (p : Posting) : Prop :=
  ∃ qr tables, p.qrAnswer = .created qr ∧
    createCollection env.py env.settings p.fresh s.service request (.ok qr) = .ok tables

/-- A request that has a code made meets no other code of the receivable that is not canceled, and both databases store
    it, unless they have its identifier for the receivable already. -/
def Registers (id : String) (request : CreateCollectionOrderRequest) (course : CollectionCourse) : Prop :=
  Issues env request course.posting →
    liveCodes s request.receivableId = 0 ∧
      (Takes env s request course.posting ∧ course.posting.commits = true ∨ InService s course.posting.identifier) ∧
        (Takes env s request course.posting ∧ course.posting.ending = .done ∧
            s.takesColumns id course.posting.fresh.id course.posting.identifier = true ∧ course.update.executed = true ∨
          OnRowOf s course.posting.identifier request.receivableId)

/-- A call that gets as far as its request to the Pix service registers the code. -/
def CollectionOp.Registers : CollectionOp → Prop
  | .createCollectionOrder dto course =>
    s.findRow course.id = none → course.create = .done → course.auditLog = .done →
      Api.Registers env s course.id (collectionRequest dto) course
  | .retryCollectionOrder collectionId pmeUserId findReceivable course =>
    ∀ collection ∈ s.findRow collectionId, ∀ receivable ∈ findReceivable collection.receivableId,
      Api.Registers env s collection.id (collectionRequest (retriedOrder collection receivable pmeUserId)) course
  | .cancelCollection .. => True

end Payments

/-! ### What the tables hold -/

structure CollectionStores.Standing (s : CollectionStores) : Prop where
  service : CollectionsStanding s.service
  db : s.service.db = .empty
  keyed : Table.Keyed (fun c => c.id) s.collections
  identified : ∀ row ∈ s.collections, ∀ row' ∈ s.collections, ∀ identifier, row.identifier = some identifier →
    row'.identifier = some identifier → row = row'
  unpaid : ∀ row ∈ s.collections, row.status ≠ "paid"
  named : ∀ q ∈ s.qrCodes, q.identifier ≠ ""

section Lookups
variable {s : CollectionStores} {identifier receivableId : String}

theorem inService_iff : InService s identifier ↔ ∃ c ∈ s.service.collectionOrders, c.identifier = identifier := by
  unfold InService findCollectionByIdentifier Table.find
  rw [List.find?_isSome]
  simp only [decide_eq_true_eq]

theorem onRowOf_iff (hs : s.Standing) :
    OnRowOf s identifier receivableId ↔
      ∃ row ∈ s.collections, row.identifier = some identifier ∧ row.receivableId = receivableId := by
  constructor
  · rintro ⟨row, hrow, hreceivable⟩
    have hidentifier := Table.key_of_find hrow
    exact ⟨row, Table.mem_of_find hrow, hidentifier, hreceivable⟩
  · rintro ⟨row, hrow, hidentifier, hreceivable⟩
    cases hfind : s.findIdentified identifier with
    | none =>
      have hmissing := Table.find_eq_none.mp hfind
      exact absurd (List.mem_map.mpr ⟨row, hrow, hidentifier⟩) hmissing
    | some row' =>
      have hidentifier' := Table.key_of_find hfind
      obtain rfl := hs.identified row hrow row' (Table.mem_of_find hfind) identifier hidentifier hidentifier'
      exact ⟨row, hfind, hreceivable⟩

end Lookups

/-! ### What a payment marks -/

section Callback
variable {env : ServiceEnv} {isoText : Rat → String} {tables : Tables} {identifier : String} {payment : QrPayment}

theorem ensureCamelCaseKeys_collectionCallback (text : PythonText) (settings : Settings) (fresh : Fresh)
    (collection : PixService.CollectionOrder) :
    ensureCamelCaseKeys text (collectionCallback settings fresh collection).payloadJson =
      .ok (collectionCallback settings fresh collection).payloadJson := by
  refine ensureCamelCaseKeys_of_camel ?_ ?_
  · intro f hf
    refine toCamelCase_of_splitOn ?_
    simp only [List.mem_cons, List.not_mem_nil, or_false] at hf
    rcases hf with rfl | rfl | rfl | rfl | rfl | rfl | rfl | rfl | rfl <;> simp +decide [String.splitOn, String.splitOnAux]
  · simp

/-- The callback of a paid collection, as the handler reads it. -/
def paidCallback (isoText : Rat → String) (payment : QrPayment) (collection : PixService.CollectionOrder) :
    PixCollectionCallback where
  eventId := payment.fresh.callbackEventId
  collectionOrderId := collection.id
  receivableId := collection.receivableId
  identifier := collection.identifier
  status := "PAID"
  amount := collection.amount
  endToEndId := some payment.endToEndId
  paidAt := some (isoText payment.fresh.now)

/-- What a payment makes of its collection. -/
def collectionPaidBy (payment : QrPayment) (collection : PixService.CollectionOrder) : PixService.CollectionOrder :=
  { collection with status := .paid, paidAt := some payment.fresh.now, endToEndId := some payment.endToEndId }

theorem processCollectionEvent_payment (collection : PixService.CollectionOrder) :
    processCollectionEvent env.settings payment.fresh collection payment.eventType (payment.webhook identifier).data =
      .ok ⟨collection, collectionPaidBy payment collection,
        some (collectionCallback env.settings payment.fresh (collectionPaidBy payment collection))⟩ := by
  have htext : columnText (.string payment.endToEndId) = .ok payment.endToEndId :=
    columnText_eq_ok.mpr ⟨rfl, (fitsColumn_eq_true.mp payment.fits).2⟩
  have hread : collectionEndToEndId (payment.webhook identifier).data = .ok (some payment.endToEndId) :=
    map_eq_ok.mpr ⟨_, htext, rfl⟩
  unfold processCollectionEvent
  rw [if_pos payment.paid, hread]
  rfl

theorem ofBody_collectionPaidBy (settings : Settings) (collection : PixService.CollectionOrder) :
    PixCollectionCallback.ofBody isoText
        (collectionCallback settings payment.fresh (collectionPaidBy payment collection)).payloadJson =
      some (paidCallback isoText payment collection) := by
  simp [PixCollectionCallback.ofBody, collectionCallback, collectionPaidBy, paidCallback, Json.field?, PixService.optional, isoformat,
    PixService.CollectionOrder.amount]

theorem collectionStorable_identifier {collection : PixService.CollectionOrder} (h : collection.storable = true) :
    fitsText collection.identifier = true := by
  unfold PixService.CollectionOrder.storable PixService.CollectionOrder.textColumns at h
  simp only [List.all_cons, Bool.and_eq_true, Option.all_some] at h
  have hidentifier : fitsColumn 35 collection.identifier = true := by simp only [h]
  exact (fitsColumn_eq_true.mp hidentifier).2

variable (env payment) in
theorem processCollectionEvent_found {collection : PixService.CollectionOrder} (hdb : tables.db = .empty)
    (hstanding : CollectionsStanding tables) (hmem : collection ∈ tables.collectionOrders)
    (hfind : findCollectionForEvent tables (payment.webhook identifier) = .ok (some collection)) :
    ∃ tables', tables.processCollectionEvent env payment.fresh (payment.webhook identifier) = .ok tables' ∧
      tables'.db.outboxCallbacks = [collectionCallback env.settings payment.fresh (collectionPaidBy payment collection)] := by
  let change : CollectionChange := ⟨collection, collectionPaidBy payment collection,
    some (collectionCallback env.settings payment.fresh (collectionPaidBy payment collection))⟩
  have hloaded : findCollectionById tables collection.id = some collection :=
    (Table.find_eq_some hstanding.keyed).mpr ⟨hmem, rfl⟩
  have hstorable : (collectionPaidBy payment collection).storable = true :=
    (collectionStorable_endToEndId (some payment.endToEndId) (some payment.fresh.now) .paid
      (hstanding.storable collection hmem)).trans payment.fits
  have hwritten : CollectionOrder.written collection (collectionPaidBy payment collection) collection =
      collectionPaidBy payment collection := by
    simp [CollectionOrder.written, collectionPaidBy]
  have hnew : ∀ c ∈ change.callback, Table.find OutboxCallback.eventId c.eventId tables.db.outboxCallbacks = none := by
    rw [hdb]
    exact fun _ _ => rfl
  obtain ⟨tables', hcommit⟩ :=
    (commitCollection_loaded (show findCollectionById tables change.loaded.id = _ from hloaded) hwritten hnew).mpr hstorable
  obtain ⟨_, hcommitted⟩ := commitCollection_inv hcommit
  obtain ⟨-, hdb'⟩ := insertIf_callback_inv hcommitted.db
  refine ⟨tables', bind_eq_ok.mpr ⟨some collection, hfind, bind_eq_ok.mpr ⟨change, processCollectionEvent_payment _,
    hcommit⟩⟩, ?_⟩
  rw [hdb', hdb]
  rfl

/-- In tables without orders and callbacks, a payment is reported exactly if its identifier is that of a collection. -/
theorem paymentCallback_eq (hdb : tables.db = .empty) (hstanding : CollectionsStanding tables) (hnamed : identifier ≠ "") :
    paymentCallback env isoText tables identifier payment =
      (findCollectionByIdentifier tables identifier).map (paidCallback isoText payment) := by
  have hother : ofOtherAccount env (payment.webhook identifier) = false := by
    simp [ofOtherAccount, payloadAccountId, QrPayment.webhook, Json.field?]
  have hreads : (payment.webhook identifier).readsQrCode = true := by
    simp [CorpXWebhook.readsQrCode, CorpXWebhook.qrCode, isObject, QrPayment.webhook, Json.field?]
  have hidentifier : (payment.webhook identifier).identifier = some (.string identifier) := by
    simp [CorpXWebhook.identifier, QrPayment.webhook, Json.field?, Json.truthy, Option.filter, hnamed]
  have hkeys : orderKeys (payment.webhook identifier) = .ok [.identifier (.string identifier)] := by
    rw [orderKeys_ok hreads, CorpXWebhook.keys, hidentifier]
    simp [CorpXWebhook.txid, CorpXWebhook.qrCode, QrPayment.webhook, Json.field?]
  have hknown : eventAlreadyProcessed Db.empty (payment.webhook identifier).eventId = .ok false :=
    eventAlreadyProcessed_eq_false.mpr ⟨payment.known, rfl⟩
  by_cases htext : fitsText identifier = true
  case neg =>
    have hsearch : findOrderForEvent Db.empty [.identifier (.string identifier)] = .error .databaseError := by
      have herror : columnText (.string identifier) = .error .databaseError := by
        simp [columnText, throwIf, htext, bind, Except.bind]
      simp only [findOrderForEvent, findOrderByKey, herror]
      rfl
    have hhandle : handleCorpxWebhook env payment.fresh tables (payment.webhook identifier) = .error .databaseError := by
      unfold handleCorpxWebhook Tables.processWebhookEvent Tables.processEventOf
      rw [hother, hkeys, hdb, hknown]
      simp only [Bool.false_eq_true, ↓reduceIte, bind, Except.bind, hsearch]
    have hnone : findCollectionByIdentifier tables identifier = none := by
      refine Table.find_eq_none.mpr fun hmem => ?_
      obtain ⟨collection, hcollection, rfl⟩ := List.mem_map.mp hmem
      exact htext (collectionStorable_identifier (hstanding.storable collection hcollection))
    unfold paymentCallback
    rw [hhandle, hnone]
    rfl
  have hcolumn : columnText (.string identifier) = .ok identifier := columnText_eq_ok.mpr ⟨rfl, htext⟩
  have hfind : findCollectionForEvent tables (payment.webhook identifier) =
      .ok (findCollectionByIdentifier tables identifier) := by
    obtain ⟨value, hvalue, hfilter⟩ := eventIdentifier_ok hreads
    rw [hidentifier] at hfilter
    simp only [findCollectionForEvent, hvalue, hfilter, hcolumn, bind, Except.bind]
    rfl
  have hsearch : findOrderForEvent Db.empty [.identifier (.string identifier)] = .ok none := by
    simp only [findOrderForEvent, findOrderByKey, hcolumn]
    rfl
  have hhandle : handleCorpxWebhook env payment.fresh tables (payment.webhook identifier) =
      tables.processCollectionEvent env payment.fresh (payment.webhook identifier) >>= fun tables =>
        pure (.ok, tables) := by
    unfold handleCorpxWebhook Tables.processWebhookEvent Tables.processEventOf
    rw [hother, hkeys, hdb, hknown]
    simp only [Bool.false_eq_true, ↓reduceIte, bind, Except.bind, hsearch]
  unfold paymentCallback
  rw [hhandle]
  cases hcollection : findCollectionByIdentifier tables identifier with
  | none =>
    rw [hcollection] at hfind
    rw [Tables.processCollectionEvent, hfind]
    simp [bind, Except.bind, Except.toOption, pure, Except.pure]
  | some collection =>
    rw [hcollection] at hfind
    obtain ⟨tables', hprocess, houtbox⟩ :=
      processCollectionEvent_found env payment hdb hstanding (Table.mem_of_find hcollection) hfind
    rw [hprocess]
    have hbody := ensureCamelCaseKeys_collectionCallback env.text env.settings payment.fresh
      (collectionPaidBy payment collection)
    simp [bind, Except.bind, Except.toOption, pure, Except.pure, houtbox, hdb, Db.empty, hbody, ofBody_collectionPaidBy]

end Callback

section Marks
variable {σ : Type} {pix : PixEnv σ} {s s' : PixState σ} {call : PixCall}

/-- A collection that is paid stays so, and stays one of its receivable. -/
def KeepsPaidRows (s s' : PixState σ) : Prop :=
  ∀ receivableId, (∃ row ∈ s.receivableCollections, row.receivableId = receivableId ∧ row.status = "paid") →
    ∃ row ∈ s'.receivableCollections, row.receivableId = receivableId ∧ row.status = "paid"

theorem KeepsPaidRows.of_eq (h : s'.receivableCollections = s.receivableCollections) : KeepsPaidRows s s' := by
  intro receivableId hpaid
  rwa [h]

theorem keepsPaidRows_updateCollection {id : String} {change : ReceivableCollection → ReceivableCollection}
    (hchange : ∀ row, (change row).receivableId = row.receivableId ∧ (row.status = "paid" → (change row).status = "paid")) :
    KeepsPaidRows s (s.updateCollection id change) := by
  rintro receivableId ⟨row, hrow, hreceivable, hpaid⟩
  refine ⟨_, Table.mem_modify.mpr ⟨row, hrow, rfl⟩, ?_⟩
  split
  · exact ⟨(hchange row).1.trans hreceivable, (hchange row).2 hpaid⟩
  · exact ⟨hreceivable, hpaid⟩

theorem execute_keepsPaidRows (value : String) : KeepsPaidRows s (call.execute pix value s) := by
  cases call with
  | markPaid dto collection => exact keepsPaidRows_updateCollection fun row => ⟨rfl, fun _ => rfl⟩
  | recordTxHash dto collection txHash => exact keepsPaidRows_updateCollection fun row => ⟨rfl, id⟩
  | recordEvent | createTransaction =>
    refine .of_eq ?_
    simp only [PixCall.execute]
    split <;> rfl
  | orderWithdrawal =>
    refine .of_eq ?_
    simp only [PixCall.execute, PixState.orderWithdrawal]
    split <;> rfl
  | _ => exact .of_eq rfl

theorem resume_keepsPaidRows (reply : PixReply) : KeepsPaidRows s (resumePixCall pix call reply s).1 := by
  refine resume_relates (fun _ _ h => h) (fun _ _ _ h₁ h₂ receivableId h => h₂ receivableId (h₁ receivableId h))
    (fun _ _ => .of_eq rfl) execute_keepsPaidRows (fun _ _ _ => ?_) (fun _ _ => ?_) reply
  · cases call <;> exact .of_eq rfl
  · cases call <;> exact .of_eq rfl

theorem finish_keepsPaidRows (r : PixState σ × Option PixCall) (replies : List PixReply) :
    KeepsPaidRows r.1 ((pixApi pix).finish r replies) := by
  intro receivableId hpaid
  exact finish_of_step (pixApi pix) (I := fun s : PixState σ => ∃ row ∈ s.receivableCollections,
    row.receivableId = receivableId ∧ row.status = "paid") (F := fun _ _ => True)
    (fun _ reply _ hs _ => ⟨resume_keepsPaidRows reply receivableId hs, fun _ _ => trivial⟩) r ⟨hpaid, fun _ _ => trivial⟩
    replies

theorem finish_found {dto : PixCollectionCallback} (hpaid : dto.status = "PAID") (hnew : s.recorded dto.eventId = false)
    (recorded found : String) (replies : List PixReply) :
    (pixApi pix).finish ((pixApi pix).start (.callback (.collection dto)) s) (.ok recorded :: .ok found :: replies) =
      (pixApi pix).finish (s.record (.collection dto), some (match s.findCollection dto.identifier with
        | none => .findReceivable dto none
        | some row => .markPaid dto row)) replies := by
  have hstart : (pixApi pix).start (.callback (.collection dto)) s = (s, some (.recordEvent (.collection dto))) := by
    simp [pixApi, startPixCall, Callback.eventId, Callback.event, hnew]
  have hrecord : resumePixCall pix (.recordEvent (.collection dto)) (.ok recorded) s =
      (s.record (.collection dto), some (.findCollection dto)) := by
    simp [resumePixCall, PixCall.submits, PixCall.execute, PixCall.proceed, Callback.eventId, Callback.event, hnew, hpaid,
      PixCall.goOn]
  have hfind : resumePixCall pix (.findCollection dto) (.ok found) (s.record (.collection dto)) =
      (s.record (.collection dto), some (match s.findCollection dto.identifier with
        | none => .findReceivable dto none
        | some row => .markPaid dto row)) := by
    have hsame : (s.record (.collection dto)).findCollection dto.identifier = s.findCollection dto.identifier := rfl
    simp only [resumePixCall, PixCall.submits, PixCall.execute, PixCall.proceed, hsame]
    cases s.findCollection dto.identifier <;> rfl
  rw [hstart]
  exact (congrArg ((pixApi pix).finish · (.ok found :: replies)) hrecord).trans
    (congrArg ((pixApi pix).finish · replies) hfind)

/-- Once the first three statements of a paid collection's callback are done, the row with its identifier is paid. -/
theorem finish_paid {dto : PixCollectionCallback} (hpaid : dto.status = "PAID") (hnew : s.recorded dto.eventId = false)
    {row : ReceivableCollection} (hfind : s.findCollection dto.identifier = some row) (recorded found now : String)
    (replies : List PixReply) :
    ∃ row' ∈ ((pixApi pix).finish ((pixApi pix).start (.callback (.collection dto)) s)
      (.ok recorded :: .ok found :: .ok now :: replies)).receivableCollections,
        row'.receivableId = row.receivableId ∧ row'.status = "paid" := by
  rw [finish_found hpaid hnew, hfind]
  refine finish_keepsPaidRows (resumePixCall pix (.markPaid dto row) (.ok now) (s.record (.collection dto))) replies
    row.receivableId ?_
  exact ⟨_, Table.mem_modify.mpr ⟨row, Table.mem_of_find hfind, rfl⟩, by rw [if_pos rfl], by rw [if_pos rfl]⟩

/-- Where no row has the identifier, or that of another receivable, a receivable without a paid row has none still. -/
theorem finish_unpaid {dto : PixCollectionCallback} (hpaid : dto.status = "PAID") (hnew : s.recorded dto.eventId = false)
    {receivableId : String} (hkeyed : Table.Keyed ReceivableCollection.id s.receivableCollections)
    (hunpaid : ∀ row ∈ s.receivableCollections, row.status ≠ "paid")
    (hother : ∀ row ∈ s.findCollection dto.identifier, row.receivableId ≠ receivableId) (recorded found now : String) :
    ∀ row ∈ ((pixApi pix).finish ((pixApi pix).start (.callback (.collection dto)) s)
      [.ok recorded, .ok found, .ok now]).receivableCollections, row.receivableId = receivableId → row.status ≠ "paid" := by
  rw [finish_found hpaid hnew]
  cases hfind : s.findCollection dto.identifier with
  | none =>
    intro row hrow _
    have hsame : (resumePixCall pix (.findReceivable dto none) (.ok now) (s.record (.collection dto))).1.receivableCollections =
        s.receivableCollections :=
      resume_keeps PixState.receivableCollections (fun _ _ => rfl) (fun _ => rfl) (fun _ _ _ => rfl) (fun _ _ => rfl)
        (.ok now)
    exact hunpaid row (hsame ▸ hrow)
  | some found =>
    intro row hrow hreceivable
    obtain ⟨row', hrow', rfl⟩ := Table.mem_modify.mp (show row ∈ Table.modify _ _ _ _ from hrow)
    split at hreceivable
    · next hid =>
      obtain rfl := hkeyed.eq_of_key hrow' (Table.mem_of_find hfind) hid
      exact absurd hreceivable (hother row' hfind)
    · next hid =>
      rw [if_neg hid]
      exact hunpaid row' hrow'

end Marks

section MarksPaid
variable {σ : Type} {env : ServiceEnv} {isoText : Rat → String} {pix : PixEnv σ} {s : CollectionStores} {q : QrCode}

theorem findCollection_of_rows {api : PixState σ} (identifier : String)
    (hrows : api.receivableCollections = s.collections.map CollectionRow.toReceivableCollection) :
    api.findCollection identifier = (s.findIdentified identifier).map CollectionRow.toReceivableCollection := by
  unfold PixState.findCollection CollectionStores.findIdentified Table.find
  rw [hrows, List.find?_map]
  rfl

/-- The payment of a code marks a collection of its receivable exactly if both lookups by its identifier find it. -/
theorem marksPaid_iff [Inhabited σ] (hs : s.Standing) (hnamed : q.identifier ≠ "") :
    MarksPaid env isoText pix s q ↔ InService s q.identifier ∧ OnRowOf s q.identifier q.receivableId := by
  have hcallback : ∀ payment, paymentCallback env isoText s.service q.identifier payment =
      (findCollectionByIdentifier s.service q.identifier).map (paidCallback isoText payment) := fun payment =>
    paymentCallback_eq hs.db hs.service hnamed
  constructor
  · intro hmarks
    let payment : QrPayment := ⟨"", "qrcode.paid", "", ⟨"", "", "", 0, 0⟩, .inl rfl, rfl, rfl⟩
    let api : PixState σ :=
      { chain := default, receivableCollections := s.collections.map CollectionRow.toReceivableCollection }
    obtain ⟨dto, hdto, hpaid⟩ := hmarks payment api rfl rfl
    rw [hcallback] at hdto
    obtain ⟨collection, hcollection, rfl⟩ := Option.map_eq_some_iff.mp hdto
    have hidentifier : collection.identifier = q.identifier := Table.key_of_find hcollection
    refine ⟨Option.isSome_iff_exists.mpr ⟨collection, hcollection⟩, ?_⟩
    by_contra hrow
    have hkeyed : Table.Keyed ReceivableCollection.id api.receivableCollections := by
      unfold Table.Keyed
      rw [List.map_map]
      exact hs.keyed
    have hunpaid : ∀ row ∈ api.receivableCollections, row.status ≠ "paid" := by
      intro row hmem
      obtain ⟨row', hmem', rfl⟩ := List.mem_map.mp hmem
      exact hs.unpaid row' hmem'
    have hother : ∀ row ∈ api.findCollection (paidCallback isoText payment collection).identifier,
        row.receivableId ≠ q.receivableId := by
      intro row hfind hreceivable
      rw [findCollection_of_rows _ rfl] at hfind
      obtain ⟨row, hfound, rfl⟩ := Option.map_eq_some_iff.mp hfind
      exact hrow ⟨row, hidentifier ▸ hfound, hreceivable⟩
    obtain ⟨row, hmem, hreceivable, hstatus⟩ := hpaid "" "" "" []
    exact finish_unpaid rfl rfl hkeyed hunpaid hother "" "" "" row hmem hreceivable hstatus
  · rintro ⟨hservice, row, hrow, hreceivable⟩ payment api hrows hnew
    obtain ⟨collection, hcollection⟩ := Option.isSome_iff_exists.mp hservice
    have hidentifier : collection.identifier = q.identifier := Table.key_of_find hcollection
    refine ⟨paidCallback isoText payment collection, ?_, fun recorded found now replies => ?_⟩
    · rw [hcallback, hcollection]
      rfl
    · have hfind : api.findCollection collection.identifier = some row.toReceivableCollection := by
        rw [findCollection_of_rows _ hrows, hidentifier, hrow]
        rfl
      have hdto : (paidCallback isoText payment collection).status = "PAID" := rfl
      obtain ⟨row', hmem, hrow', hpaid⟩ := finish_paid hdto hnew hfind recorded found now replies
      exact ⟨row', hmem, hrow'.trans hreceivable, hpaid⟩

end MarksPaid

/-! ### What a request at the Pix service leaves -/

/-- What a request leaves, and what it answers: no code was made, one was made that the service did not store, or the
    service took it. -/
inductive Posted (env : ServiceEnv) (s : CollectionStores) (request : CreateCollectionOrderRequest) (p : Posting) :
    CollectionStores × Except ApiError PixService.CollectionOrder → Prop where
  | notIssued (e : ApiError) (hissues : ¬Issues env request p) : Posted env s request p (s, .error e)
  | refused (e : ApiError) (hissues : Issues env request p) (htakes : ¬Takes env s request p) :
    Posted env s request p (s.issue p.identifier request.receivableId, .error e)
  | taken (collection : PixService.CollectionOrder) (tables : Tables)
      (result : Except ApiError PixService.CollectionOrder) (hissues : Issues env request p)
      (htakes : Takes env s request p) (hidentifier : collection.identifier = p.identifier)
      (hid : collection.id = p.fresh.id) (hinsert : s.service.insertCollection collection = .ok tables)
      (hresult : p.ending = .done ∧ result = .ok collection ∨ p.ending ≠ .done ∧ ∃ e, result = .error e) :
    Posted env s request p
      (if p.commits then { s.issue p.identifier request.receivableId with service := tables }
        else s.issue p.identifier request.receivableId, result)

section Posting
variable {env : ServiceEnv} {s : CollectionStores} {request : CreateCollectionOrderRequest} {p : Posting}

theorem postCollection_posted : Posted env s request p (postCollection env s request p) := by
  unfold postCollection
  cases hcents : brlToCents env.py request.amount with
  | error e =>
    refine .notIssued _ ?_
    rintro ⟨⟨_, hok⟩, -⟩
    cases hcents.symm.trans hok
  | ok amountCents =>
    cases hanswer : p.qrAnswer with
    | failed made error =>
      have htakes : ¬Takes env s request p := by
        rintro ⟨_, _, hcreated, -⟩
        cases hanswer.symm.trans hcreated
      cases made with
      | false =>
        refine .notIssued _ ?_
        rintro ⟨-, hmade⟩
        rw [hanswer] at hmade
        cases hmade
      | true => exact .refused _ ⟨⟨amountCents, hcents⟩, by rw [hanswer]; rfl⟩ htakes
    | created qr =>
      have hissues : Issues env request p := ⟨⟨amountCents, hcents⟩, by rw [hanswer]; rfl⟩
      simp only [QrAnswer.made, QrAnswer.result, if_true]
      cases hcreate : createCollection env.py env.settings p.fresh s.service request (.ok qr) with
      | error e =>
        refine .refused _ hissues ?_
        rintro ⟨qr', tables, hcreated, hok⟩
        cases hanswer.symm.trans hcreated
        cases hcreate.symm.trans hok
      | ok tables =>
        have hinsert : s.service.insertCollection
            (PixService.collectionOrder env.py env.settings p.fresh request amountCents qr) = .ok tables := by
          obtain ⟨amountCents', hcents', h⟩ := bind_eq_ok.mp hcreate
          cases hcents.symm.trans hcents'
          exact h
        refine .taken _ tables _ hissues ⟨qr, tables, hanswer, hcreate⟩ rfl rfl hinsert ?_
        cases p.ending with
        | done => exact .inl ⟨rfl, rfl⟩
        | threw executed message => exact .inr ⟨nofun, _, rfl⟩

/-- What both calls leave: a new code if one was made, a collection at the service if it was taken and committed, and the
    identifier on the row if the answer was heard and written. -/
structure Registered (env : ServiceEnv) (s : CollectionStores) (id : String) (request : CreateCollectionOrderRequest)
    (course : CollectionCourse) (s' : CollectionStores) : Prop where
  notIssued : ¬Issues env request course.posting → s' = s
  qrCodes : Issues env request course.posting →
    s'.qrCodes = s.qrCodes ++ [⟨course.posting.identifier, request.receivableId, false⟩]
  service : (Takes env s request course.posting ∧ course.posting.commits = true ∧ ∃ collection,
      collection.identifier = course.posting.identifier ∧ s.service.insertCollection collection = .ok s'.service) ∨
    ¬(Takes env s request course.posting ∧ course.posting.commits = true) ∧ s'.service = s.service
  collections : (Takes env s request course.posting ∧ course.posting.ending = .done ∧
      s.takesColumns id course.posting.fresh.id course.posting.identifier = true ∧ course.update.executed = true ∧
      ∃ pix : PixService.CollectionOrder, pix.identifier = course.posting.identifier ∧
        s'.collections = (s.updateRow id pix).collections) ∨
    ¬(Takes env s request course.posting ∧ course.posting.ending = .done ∧
      s.takesColumns id course.posting.fresh.id course.posting.identifier = true ∧ course.update.executed = true) ∧
      s'.collections = s.collections

theorem storeCollection_fst (id : String) (pix : PixService.CollectionOrder) (update : Ending) :
    (storeCollection s id pix update).1 =
      if s.takesColumns id pix.id pix.identifier = true ∧ update.executed = true then s.updateRow id pix else s := by
  unfold storeCollection
  cases s.takesColumns id pix.id pix.identifier with
  | false => rfl
  | true =>
    cases update with
    | done => rfl
    | threw executed message => cases executed <;> rfl

theorem Takes.issues (h : Takes env s request p) : Issues env request p := by
  obtain ⟨qr, tables, hanswer, hcreate⟩ := h
  obtain ⟨amountCents, hcents, -⟩ := bind_eq_ok.mp hcreate
  exact ⟨⟨amountCents, hcents⟩, by rw [hanswer]; rfl⟩

theorem registerCollection_registered (id : String) (course : CollectionCourse) :
    Registered env s id request course (registerCollection env s id request course).1 := by
  have hposted : Posted env s request course.posting (postCollection env s request course.posting) :=
    postCollection_posted
  unfold registerCollection
  generalize postCollection env s request course.posting = r at hposted
  cases hposted with
  | notIssued e hissues =>
    exact ⟨fun _ => rfl, fun h => absurd h hissues, .inr ⟨fun h => hissues h.1.issues, rfl⟩,
      .inr ⟨fun h => hissues h.1.issues, rfl⟩⟩
  | refused e hissues htakes =>
    exact ⟨fun h => absurd hissues h, fun _ => rfl, .inr ⟨fun h => htakes h.1, rfl⟩, .inr ⟨fun h => htakes h.1, rfl⟩⟩
  | taken collection tables result hissues htakes hidentifier hid hinsert hresult =>
    let posted := if course.posting.commits then
        { s.issue course.posting.identifier request.receivableId with service := tables }
      else s.issue course.posting.identifier request.receivableId
    have hcodes : posted.qrCodes = s.qrCodes ++ [⟨course.posting.identifier, request.receivableId, false⟩] := by
      show (if _ then _ else _ : CollectionStores).qrCodes = _
      split <;> rfl
    have hservice : (Takes env s request course.posting ∧ course.posting.commits = true ∧ ∃ collection,
        collection.identifier = course.posting.identifier ∧ s.service.insertCollection collection = .ok posted.service) ∨
        ¬(Takes env s request course.posting ∧ course.posting.commits = true) ∧ posted.service = s.service := by
      by_cases hcommits : course.posting.commits = true
      · refine .inl ⟨htakes, hcommits, collection, hidentifier, ?_⟩
        show _ = Except.ok (if _ then _ else _ : CollectionStores).service
        rw [if_pos hcommits]
        exact hinsert
      · refine .inr ⟨fun h => hcommits h.2, ?_⟩
        show (if _ then _ else _ : CollectionStores).service = _
        rw [if_neg hcommits]
        rfl
    have hcollections : posted.collections = s.collections := by
      show (if _ then _ else _ : CollectionStores).collections = _
      split <;> rfl
    rcases hresult with ⟨hending, rfl⟩ | ⟨hending, e, rfl⟩
    · have htakesColumns : posted.takesColumns id collection.id collection.identifier =
          s.takesColumns id course.posting.fresh.id course.posting.identifier := by
        rw [CollectionStores.takesColumns, hcollections, hid, hidentifier]
        rfl
      show Registered env s id request course (storeCollection posted id collection course.update).1
      rw [storeCollection_fst, htakesColumns]
      split
      · next hstored =>
        refine ⟨fun h => absurd hissues h, fun _ => hcodes, hservice,
          .inl ⟨htakes, hending, hstored.1, hstored.2, collection, hidentifier, ?_⟩⟩
        show Table.modify _ _ _ posted.collections = _
        rw [hcollections]
        rfl
      · next hstored =>
        exact ⟨fun h => absurd hissues h, fun _ => hcodes, hservice, .inr ⟨fun h => hstored h.2.2, hcollections⟩⟩
    · exact ⟨fun h => absurd hissues h, fun _ => hcodes, hservice, .inr ⟨fun h => hending h.2.1, hcollections⟩⟩

end Posting

section Registered
variable {env : ServiceEnv} {s s' : CollectionStores} {id : String} {request : CreateCollectionOrderRequest}
  {course : CollectionCourse}

theorem mem_updateRow {pix : PixService.CollectionOrder} {row : CollectionRow}
    (h : row ∈ (s.updateRow id pix).collections) :
    ∃ row' ∈ s.collections, row'.id = row.id ∧ row'.receivableId = row.receivableId ∧ row'.status = row.status ∧
      (row'.id = id ∧ row.identifier = some pix.identifier ∨ row'.id ≠ id ∧ row = row') := by
  obtain ⟨row', hrow', rfl⟩ := Table.mem_modify.mp h
  refine ⟨row', hrow', ?_⟩
  split
  · next hid => exact ⟨rfl, rfl, rfl, .inl ⟨hid, rfl⟩⟩
  · next hid => exact ⟨rfl, rfl, rfl, .inr ⟨hid, rfl⟩⟩

theorem takesColumns_iff {pixOrderId identifier : String} :
    s.takesColumns id pixOrderId identifier = true ↔
      ∀ row ∈ s.collections, row.id = id ∨ row.identifier ≠ some identifier ∧ row.pixOrderId ≠ some pixOrderId := by
  simp only [CollectionStores.takesColumns, List.all_eq_true, decide_eq_true_eq]

theorem keyed_updateRow {pix : PixService.CollectionOrder} (hkeyed : Table.Keyed (fun c => c.id) s.collections) :
    Table.Keyed (fun c => c.id) (s.updateRow id pix).collections :=
  hkeyed.modify fun _ hid => hid

theorem identified_updateRow {pix : PixService.CollectionOrder} {pixOrderId : String} (hs : s.Standing)
    (htakes : s.takesColumns id pixOrderId pix.identifier = true) :
    ∀ row ∈ (s.updateRow id pix).collections, ∀ row' ∈ (s.updateRow id pix).collections, ∀ identifier,
      row.identifier = some identifier → row'.identifier = some identifier → row = row' := by
  have hother : ∀ row ∈ s.collections, row.id ≠ id → row.identifier ≠ some pix.identifier := fun row hrow hid =>
    ((takesColumns_iff.mp htakes row hrow).resolve_left hid).1
  intro row hrow row' hrow' identifier hidentifier hidentifier'
  obtain ⟨x, hx, hxid, -, -, ⟨hid, hnew⟩ | ⟨hid, rfl⟩⟩ := mem_updateRow hrow <;>
    obtain ⟨x', hx', hxid', -, -, ⟨hid', hnew'⟩ | ⟨hid', rfl⟩⟩ := mem_updateRow hrow'
  · exact (keyed_updateRow hs.keyed).eq_of_key hrow hrow' (hxid.symm.trans (hid.trans (hid'.symm.trans hxid')))
  · exact absurd (hidentifier'.trans (hidentifier.symm.trans hnew)) (hother row' hx' hid')
  · exact absurd (hidentifier.trans (hidentifier'.symm.trans hnew')) (hother row hx hid)
  · exact hs.identified row hx row' hx' identifier hidentifier hidentifier'

theorem generateIdentifier_ne_empty (nanoid : String) : generateIdentifier collectionIdentifierPrefix nanoid ≠ "" := by
  intro h
  have hlength := congrArg String.length h
  simp [generateIdentifier, collectionIdentifierPrefix, String.length_append] at hlength

theorem Registered.standing (h : Registered env s id request course s') (hs : s.Standing) : s'.Standing := by
  by_cases hissues : Issues env request course.posting
  · have hservice : CollectionsStanding s'.service ∧ s'.service.db = .empty := by
      rcases h.service with ⟨-, -, collection, -, hinsert⟩ | ⟨-, hsame⟩
      · obtain ⟨-, htables⟩ := insertCollection_inv hinsert
        exact ⟨insertCollection_standing hinsert hs.service, by rw [htables]; exact hs.db⟩
      · rw [hsame]
        exact ⟨hs.service, hs.db⟩
    have hnamed : ∀ q ∈ s'.qrCodes, q.identifier ≠ "" := by
      intro q hq
      rw [h.qrCodes hissues] at hq
      rcases List.mem_append.mp hq with hq | hq
      · exact hs.named q hq
      · rw [List.mem_singleton.mp hq]
        exact generateIdentifier_ne_empty _
    rcases h.collections with ⟨-, -, htakes, -, pix, hidentifier, hcollections⟩ | ⟨-, hsame⟩
    · rw [← hidentifier] at htakes
      refine ⟨hservice.1, hservice.2, ?_, ?_, ?_, hnamed⟩
      · rw [hcollections]
        exact keyed_updateRow hs.keyed
      · rw [hcollections]
        exact identified_updateRow hs htakes
      · rw [hcollections]
        intro row hrow
        obtain ⟨row', hrow', -, -, hstatus, -⟩ := mem_updateRow hrow
        exact hstatus ▸ hs.unpaid row' hrow'
    · refine ⟨hservice.1, hservice.2, ?_, ?_, ?_, hnamed⟩ <;> rw [hsame]
      · exact hs.keyed
      · exact hs.identified
      · exact hs.unpaid
  · rw [h.notIssued hissues]
    exact hs

theorem Registered.inService (h : Registered env s id request course s') {identifier : String} :
    InService s' identifier ↔ InService s identifier ∨
      identifier = course.posting.identifier ∧ Takes env s request course.posting ∧ course.posting.commits = true := by
  rw [inService_iff, inService_iff]
  rcases h.service with ⟨htakes, hcommits, collection, hidentifier, hinsert⟩ | ⟨hnot, hsame⟩
  · obtain ⟨-, htables⟩ := insertCollection_inv hinsert
    rw [htables]
    constructor
    · rintro ⟨c, hc, rfl⟩
      rcases List.mem_append.mp hc with hc | hc
      · exact .inl ⟨c, hc, rfl⟩
      · rw [List.mem_singleton.mp hc]
        exact .inr ⟨hidentifier, htakes, hcommits⟩
    · rintro (⟨c, hc, hfound⟩ | ⟨rfl, -⟩)
      · exact ⟨c, List.mem_append_left _ hc, hfound⟩
      · exact ⟨collection, List.mem_append_right _ (List.mem_singleton_self _), hidentifier⟩
  · rw [hsame]
    exact ⟨.inl, fun hor => hor.resolve_right fun h => hnot h.2⟩

/-- A row of another receivable keeps its identifier. -/
theorem Registered.onOther (h : Registered env s id request course s') (hs : s.Standing)
    (hrow : ∀ row ∈ s.collections, row.id = id → row.receivableId = request.receivableId) {identifier receivableId : String}
    (hother : receivableId ≠ request.receivableId) (hon : OnRowOf s identifier receivableId) :
    OnRowOf s' identifier receivableId := by
  obtain ⟨row, hmem, hidentifier, hreceivable⟩ := (onRowOf_iff hs).mp hon
  refine (onRowOf_iff (h.standing hs)).mpr ⟨row, ?_, hidentifier, hreceivable⟩
  rcases h.collections with ⟨-, -, -, -, pix, -, hcollections⟩ | ⟨-, hsame⟩
  · have hid : row.id ≠ id := fun hid => hother (hreceivable.symm.trans (hrow row hmem hid))
    rw [hcollections]
    exact Table.mem_modify.mpr ⟨row, hmem, if_neg hid⟩
  · rw [hsame]
    exact hmem

theorem Registered.onRow (h : Registered env s id request course s') (hs : s.Standing) {row : CollectionRow}
    (hmem : row ∈ s.collections) (hid : row.id = id) (hreceivable : row.receivableId = request.receivableId) :
    OnRowOf s' course.posting.identifier request.receivableId ↔
      Takes env s request course.posting ∧ course.posting.ending = .done ∧
          s.takesColumns id course.posting.fresh.id course.posting.identifier = true ∧ course.update.executed = true ∨
        OnRowOf s course.posting.identifier request.receivableId := by
  rcases h.collections with ⟨htakes, hending, hcolumns, hexecuted, pix, hidentifier, hcollections⟩ | ⟨hnot, hsame⟩
  · refine iff_of_true ((onRowOf_iff (h.standing hs)).mpr ?_) (.inl ⟨htakes, hending, hcolumns, hexecuted⟩)
    rw [hcollections]
    refine ⟨_, Table.mem_modify.mpr ⟨row, hmem, rfl⟩, ?_⟩
    rw [if_pos hid]
    exact ⟨congrArg some hidentifier, hreceivable⟩
  · rw [or_iff_right hnot]
    unfold OnRowOf CollectionStores.findIdentified
    rw [hsame]

theorem liveCodes_append {receivableId identifier : String} (hissued : s'.qrCodes = s.qrCodes ++ [⟨identifier, receivableId, false⟩])
    (receivableId' : String) :
    liveCodes s' receivableId' = liveCodes s receivableId' + if receivableId = receivableId' then 1 else 0 := by
  unfold liveCodes
  rw [hissued, List.countP_append]
  simp [List.countP_singleton]

theorem liveCodes_eq_zero {receivableId : String} :
    liveCodes s receivableId = 0 ↔ ∀ q ∈ s.qrCodes, q.canceled = false → q.receivableId ≠ receivableId := by
  unfold liveCodes
  rw [List.countP_eq_zero]
  simp only [decide_eq_true_eq, not_and]

end Registered

/-! ### What each operation leaves -/

/-- Both databases have the identifier of each code that is not canceled, and a receivable has one such code at most. -/
structure CollectionStores.Held (s : CollectionStores) : Prop where
  held : ∀ q ∈ s.qrCodes, q.canceled = false → InService s q.identifier ∧ OnRowOf s q.identifier q.receivableId
  one : ∀ receivableId, liveCodes s receivableId ≤ 1

section Steps
variable {σ : Type} {env : ServiceEnv} {isoText : Rat → String} {pix : PixEnv σ} {s s' : CollectionStores} {id : String}
  {request : CreateCollectionOrderRequest} {course : CollectionCourse}

theorem reconcilable_iff [Inhabited σ] (hs : s.Standing) : Reconcilable env isoText pix s ↔ s.Held := by
  constructor
  · exact fun h => ⟨fun q hq hlive => (marksPaid_iff hs (hs.named q hq)).mp (h.marksPaid q hq hlive), h.one⟩
  · exact fun h => ⟨fun q hq hlive => (marksPaid_iff hs (hs.named q hq)).mpr (h.held q hq hlive), h.one⟩

/-- A row's code is registered exactly if the codes are held after it as they were before. -/
theorem Registered.held_iff (h : Registered env s id request course s') (hs : s.Standing) {row : CollectionRow}
    (hfind : s.findRow id = some row) (hreceivable : row.receivableId = request.receivableId) (hheld : s.Held) :
    s'.Held ↔ Registers env s id request course := by
  have hmem : row ∈ s.collections := Table.mem_of_find hfind
  have hid := Table.key_of_find hfind
  have hrow : ∀ x ∈ s.collections, x.id = id → x.receivableId = request.receivableId := by
    intro x hx hxid
    rw [hs.keyed.eq_of_key hx hmem (hxid.trans hid.symm)]
    exact hreceivable
  by_cases hissues : Issues env request course.posting
  · have hcodes := h.qrCodes hissues
    constructor
    · intro hheld' _
      obtain ⟨hservice, hon⟩ := hheld'.held ⟨course.posting.identifier, request.receivableId, false⟩
        (hcodes ▸ List.mem_append_right _ (List.mem_singleton_self _)) rfl
      refine ⟨?_, ?_, (h.onRow hs hmem hid hreceivable).mp hon⟩
      · have hone := hheld'.one request.receivableId
        rw [liveCodes_append hcodes, if_pos rfl] at hone
        omega
      · rcases h.inService.mp hservice with hold | ⟨-, hstored⟩
        · exact .inr hold
        · exact .inl hstored
    · intro hregisters
      obtain ⟨hnone, hservice, hon⟩ := hregisters hissues
      refine ⟨fun q hq hlive => ?_, fun receivableId => ?_⟩
      · rw [hcodes] at hq
        rcases List.mem_append.mp hq with hq | hq
        · obtain ⟨hinService, honRow⟩ := hheld.held q hq hlive
          exact ⟨h.inService.mpr (.inl hinService), h.onOther hs hrow (liveCodes_eq_zero.mp hnone q hq hlive) honRow⟩
        · rw [List.mem_singleton.mp hq]
          exact ⟨h.inService.mpr (hservice.elim (fun hstored => .inr ⟨rfl, hstored⟩) .inl),
            (h.onRow hs hmem hid hreceivable).mpr hon⟩
      · rw [liveCodes_append hcodes]
        split
        · next heq => rw [← heq, hnone]
        · exact hheld.one receivableId
  · rw [h.notIssued hissues]
    exact iff_of_true hheld fun h => absurd h hissues

/-- The state that a call meets at its request to the Pix service: a row without an identifier was added, and a log. -/
structure RowPrepared (s s' : CollectionStores) (id : String) (dto : CollectionOrder) : Prop where
  collections : s'.collections = s.collections ++ [newCollection id dto]
  service : s'.service = s.service
  qrCodes : s'.qrCodes = s.qrCodes

variable {dto : CollectionOrder}

theorem RowPrepared.standing (h : RowPrepared s s' id dto) (hs : s.Standing) (hnew : s.findRow id = none) : s'.Standing := by
  have hnone : ∀ identifier, (newCollection id dto).identifier ≠ some identifier := fun _ => nofun
  refine ⟨by rw [h.service]; exact hs.service, by rw [h.service]; exact hs.db, ?_, ?_, ?_, by rw [h.qrCodes]; exact hs.named⟩ <;>
    rw [h.collections]
  · have hmissing := Table.find_eq_none.mp hnew
    exact hs.keyed.append hmissing
  · intro row hrow row' hrow' identifier hidentifier hidentifier'
    rcases List.mem_append.mp hrow with hrow | hrow
    · rcases List.mem_append.mp hrow' with hrow' | hrow'
      · exact hs.identified row hrow row' hrow' identifier hidentifier hidentifier'
      · rw [List.mem_singleton.mp hrow'] at hidentifier'
        exact absurd hidentifier' (hnone identifier)
    · rw [List.mem_singleton.mp hrow] at hidentifier
      exact absurd hidentifier (hnone identifier)
  · intro row hrow
    rcases List.mem_append.mp hrow with hrow | hrow
    · exact hs.unpaid row hrow
    · rw [List.mem_singleton.mp hrow]
      exact show "pending_payment" ≠ "paid" by decide

theorem RowPrepared.onRowOf (h : RowPrepared s s' id dto) {identifier receivableId : String} :
    OnRowOf s' identifier receivableId ↔ OnRowOf s identifier receivableId := by
  have hfind : s'.findIdentified identifier = s.findIdentified identifier := by
    unfold CollectionStores.findIdentified Table.find
    rw [h.collections, List.find?_append]
    cases List.find? (fun c : CollectionRow => decide (c.identifier = some identifier)) s.collections <;> rfl
  unfold OnRowOf
  rw [hfind]

theorem RowPrepared.held (h : RowPrepared s s' id dto) (hheld : s.Held) : s'.Held := by
  refine ⟨fun q hq hlive => ?_, fun receivableId => ?_⟩
  · rw [h.qrCodes] at hq
    obtain ⟨hservice, hon⟩ := hheld.held q hq hlive
    refine ⟨?_, h.onRowOf.mpr hon⟩
    unfold InService
    rw [h.service]
    exact hservice
  · unfold liveCodes
    rw [h.qrCodes]
    exact hheld.one receivableId

theorem RowPrepared.registers_iff (h : RowPrepared s s' id dto) :
    Registers env s' id request course ↔ Registers env s id request course := by
  have hcolumns : ∀ pixOrderId identifier,
      s'.takesColumns id pixOrderId identifier = s.takesColumns id pixOrderId identifier := by
    intro pixOrderId identifier
    unfold CollectionStores.takesColumns
    rw [h.collections, List.all_append]
    simp [newCollection]
  have hlive : liveCodes s' request.receivableId = liveCodes s request.receivableId := by
    unfold liveCodes
    rw [h.qrCodes]
  have htakes : Takes env s' request course.posting ↔ Takes env s request course.posting := by
    unfold Takes
    rw [h.service]
  have hservice : InService s' course.posting.identifier ↔ InService s course.posting.identifier := by
    unfold InService
    rw [h.service]
  unfold Registers
  rw [hlive, htakes, hservice, hcolumns, h.onRowOf]

/-- A creation that fails before its request leaves no row, or one without an identifier; another one asks for the
    collection of its row. -/
inductive CreationMade (env : ServiceEnv) (s : CollectionStores) (dto : CollectionOrder) (course : CollectionCourse) :
    CollectionStores → Prop where
  | taken (htaken : s.findRow course.id ≠ none) : CreationMade env s dto course s
  | failed (hfailed : ¬(course.create = .done ∧ course.auditLog = .done)) : CreationMade env s dto course s
  | prepared (s₁ : CollectionStores) (hnew : s.findRow course.id = none)
      (hfailed : ¬(course.create = .done ∧ course.auditLog = .done)) (hprepared : RowPrepared s s₁ course.id dto) :
    CreationMade env s dto course s₁
  | registered (s₁ : CollectionStores) (hnew : s.findRow course.id = none)
      (hdone : course.create = .done ∧ course.auditLog = .done) (hprepared : RowPrepared s s₁ course.id dto) :
    CreationMade env s dto course (registerCollection env s₁ course.id (collectionRequest dto) course).1

theorem createCollectionOrder_made (env : ServiceEnv) (s : CollectionStores) (dto : CollectionOrder)
    (course : CollectionCourse) : CreationMade env s dto course (createCollectionOrder env s dto course).1 := by
  unfold createCollectionOrder
  split
  · next htaken => exact .taken fun hnone => by rw [hnone] at htaken; cases htaken
  · next hnew =>
    have hnew : s.findRow course.id = none := by
      rwa [Bool.not_eq_true, Option.isSome_eq_false_iff, Option.isNone_iff_eq_none] at hnew
    cases hcreate : course.create with
    | threw executed message =>
      have hfailed : ¬(course.create = .done ∧ course.auditLog = .done) := fun h => by
        cases hcreate.symm.trans h.1
      cases executed with
      | false => exact .failed hfailed
      | true => exact .prepared _ hnew hfailed ⟨rfl, rfl, rfl⟩
    | done =>
      cases haudit : course.auditLog with
      | threw executed message =>
        have hfailed : ¬(course.create = .done ∧ course.auditLog = .done) := fun h => by
          cases haudit.symm.trans h.2
        cases executed <;> exact .prepared _ hnew hfailed ⟨rfl, rfl, rfl⟩
      | done => exact .registered _ hnew ⟨hcreate, haudit⟩ ⟨rfl, rfl, rfl⟩

theorem RowPrepared.findRow (h : RowPrepared s s' id dto) (hnew : s.findRow id = none) :
    s'.findRow id = some (newCollection id dto) := by
  unfold CollectionStores.findRow Table.find at hnew ⊢
  rw [h.collections, List.find?_append, hnew]
  simp [newCollection]

theorem createCollectionOrder_keeps (hs : s.Standing) :
    (createCollectionOrder env s dto course).1.Standing ∧ (s.Held →
      ((createCollectionOrder env s dto course).1.Held ↔
        (CollectionOp.createCollectionOrder dto course).Registers env s)) := by
  have hmade := createCollectionOrder_made env s dto course
  generalize (createCollectionOrder env s dto course).1 = s' at hmade ⊢
  cases hmade with
  | taken htaken => exact ⟨hs, fun hheld => iff_of_true hheld fun hnew => absurd hnew htaken⟩
  | failed hfailed =>
    exact ⟨hs, fun hheld => iff_of_true hheld fun _ hcreate haudit => absurd ⟨hcreate, haudit⟩ hfailed⟩
  | prepared _ hnew hfailed hprepared =>
    exact ⟨hprepared.standing hs hnew, fun hheld =>
      iff_of_true (hprepared.held hheld) fun _ hcreate haudit => absurd ⟨hcreate, haudit⟩ hfailed⟩
  | registered s₁ hnew hdone hprepared =>
    have hs₁ := hprepared.standing hs hnew
    have hregistered : Registered env s₁ course.id (collectionRequest dto) course _ :=
      registerCollection_registered course.id course
    refine ⟨hregistered.standing hs₁, fun hheld => ?_⟩
    rw [hregistered.held_iff hs₁ (hprepared.findRow hnew) rfl (hprepared.held hheld), hprepared.registers_iff]
    exact ⟨fun h _ _ _ => h, fun h => h hnew hdone.1 hdone.2⟩

theorem retryCollectionOrder_keeps (hs : s.Standing) (collectionId pmeUserId : String)
    (findReceivable : String → Option Receivable) :
    (retryCollectionOrder env s collectionId pmeUserId findReceivable course).1.Standing ∧ (s.Held →
      ((retryCollectionOrder env s collectionId pmeUserId findReceivable course).1.Held ↔
        (CollectionOp.retryCollectionOrder collectionId pmeUserId findReceivable course).Registers env s)) := by
  have hregisters : (CollectionOp.retryCollectionOrder collectionId pmeUserId findReceivable course).Registers env s ↔
      ∀ collection, s.findRow collectionId = some collection →
        ∀ receivable, findReceivable collection.receivableId = some receivable →
          Registers env s collection.id (collectionRequest (retriedOrder collection receivable pmeUserId)) course := Iff.rfl
  rw [hregisters]
  unfold retryCollectionOrder
  cases hfind : s.findRow collectionId with
  | none => exact ⟨hs, fun hheld => iff_of_true hheld fun _ h => by cases h⟩
  | some collection =>
    cases hreceivable : findReceivable collection.receivableId with
    | none =>
      simp only [hreceivable]
      refine ⟨hs, fun hheld => iff_of_true hheld ?_⟩
      rintro _ ⟨⟩ receivable hmem
      cases hreceivable.symm.trans hmem
    | some receivable =>
      simp only [hreceivable]
      let request := collectionRequest (retriedOrder collection receivable pmeUserId)
      have hregistered : Registered env s collection.id request course _ := registerCollection_registered collection.id course
      have hid := Table.key_of_find hfind
      have hfind' : s.findRow collection.id = some collection := by
        rw [hid]
        exact hfind
      refine ⟨hregistered.standing hs, fun hheld => (hregistered.held_iff hs hfind' rfl hheld).trans ?_⟩
      refine ⟨?_, fun h => h collection rfl receivable hreceivable⟩
      rintro h _ ⟨⟩ _ hmem
      cases hreceivable.symm.trans hmem
      exact h

/-- What a cancellation leaves: the rows, the identifiers of the service, and no code that was canceled before. -/
structure Canceled (s s' : CollectionStores) : Prop where
  collections : s'.collections = s.collections
  tables : CollectionsStanding s'.service
  db : s'.service.db = s.service.db
  service : ∀ identifier, InService s identifier → InService s' identifier
  qrCodes : s'.qrCodes = s.qrCodes ∨
    ∃ identifier, s'.qrCodes = Table.modify QrCode.identifier identifier ({ · with canceled := true }) s.qrCodes

theorem Canceled.live (h : Canceled s s') :
    ∀ q ∈ s'.qrCodes, ∃ q' ∈ s.qrCodes, q'.identifier = q.identifier ∧ (q.canceled = false → q' = q) := by
  rcases h.qrCodes with hsame | ⟨identifier, hcanceled⟩
  · exact fun q hq => ⟨q, hsame ▸ hq, rfl, fun _ => rfl⟩
  · intro q hq
    rw [hcanceled] at hq
    obtain ⟨q', hq', rfl⟩ := Table.mem_modify.mp hq
    refine ⟨q', hq', ?_⟩
    split
    · exact ⟨rfl, nofun⟩
    · exact ⟨rfl, fun _ => rfl⟩

theorem Canceled.liveCodes_le (h : Canceled s s') (receivableId : String) :
    liveCodes s' receivableId ≤ liveCodes s receivableId := by
  unfold liveCodes
  rcases h.qrCodes with hsame | ⟨identifier, hcanceled⟩
  · rw [hsame]
  · rw [hcanceled, Table.modify, List.countP_map]
    refine List.countP_mono_left fun q _ => ?_
    simp only [Function.comp, decide_eq_true_eq]
    split
    · rintro ⟨⟨⟩, -⟩
    · exact id

theorem Canceled.standing (h : Canceled s s') (hs : s.Standing) : s'.Standing := by
  refine ⟨h.tables, h.db.trans hs.db, ?_, ?_, ?_, fun q hq => ?_⟩
  · rw [h.collections]
    exact hs.keyed
  · rw [h.collections]
    exact hs.identified
  · rw [h.collections]
    exact hs.unpaid
  · obtain ⟨q', hq', hidentifier, -⟩ := h.live q hq
    exact hidentifier ▸ hs.named q' hq'

theorem Canceled.held (h : Canceled s s') (hheld : s.Held) : s'.Held := by
  refine ⟨fun q hq hcanceled => ?_, fun receivableId => (h.liveCodes_le receivableId).trans (hheld.one receivableId)⟩
  obtain ⟨q', hq', -, hsame⟩ := h.live q hq
  obtain rfl := hsame hcanceled
  obtain ⟨hservice, hon⟩ := hheld.held q' hq' hcanceled
  refine ⟨h.service _ hservice, ?_⟩
  unfold OnRowOf CollectionStores.findIdentified at hon ⊢
  rwa [h.collections]

theorem cancelCollection_canceled (hs : s.Standing) (collectionId : String) (cancelQr : Ending) (commits : Bool) :
    Canceled s (cancelCollection s collectionId cancelQr commits) := by
  unfold cancelCollection
  cases cancellableCollection s.service collectionId with
  | none => exact ⟨rfl, hs.service, rfl, fun _ h => h, .inl rfl⟩
  | some collection =>
    cases cancelQr with
    | threw executed message =>
      cases executed with
      | false => exact ⟨rfl, hs.service, rfl, fun _ h => h, .inl rfl⟩
      | true => exact ⟨rfl, hs.service, rfl, fun _ h => h, .inr ⟨_, rfl⟩⟩
    | done =>
      cases commits with
      | false => exact ⟨rfl, hs.service, rfl, fun _ h => h, .inr ⟨_, rfl⟩⟩
      | true =>
        cases hcommit : s.service.commitCollection (cancelCollectionChange collection) with
        | error e =>
          simp only [hcommit]
          exact ⟨rfl, hs.service, rfl, fun _ h => h, .inr ⟨_, rfl⟩⟩
        | ok tables =>
          simp only [hcommit]
          obtain ⟨stored, hcommitted⟩ := commitCollection_inv hcommit
          obtain ⟨-, hdb⟩ := insertIf_callback_inv hcommitted.db
          refine ⟨rfl, commitCollection_standing hcommit hs.service, hdb.trans ?_, fun identifier hin => ?_, .inr ⟨_, rfl⟩⟩
          · simp [cancelCollectionChange]
          · obtain ⟨c, hc, hidentifier⟩ := inService_iff.mp hin
            refine inService_iff.mpr ⟨_, hcommitted.collections ▸ Table.mem_modify.mpr ⟨c, hc, rfl⟩, ?_⟩
            split
            · next hid =>
              have hstored := Table.mem_of_find hcommitted.find
              rw [hs.service.keyed.eq_of_key hc hstored hid] at hidentifier
              exact hidentifier
            · exact hidentifier

theorem collectionStep_keeps (hs : s.Standing) {op : CollectionOp} (hstep : collectionStep env s op = .ok s') :
    s'.Standing ∧ (s.Held → (s'.Held ↔ op.Registers env s)) := by
  cases hstep
  cases op with
  | createCollectionOrder dto course => exact createCollectionOrder_keeps hs
  | retryCollectionOrder collectionId pmeUserId findReceivable course =>
    exact retryCollectionOrder_keeps hs collectionId pmeUserId findReceivable
  | cancelCollection collectionId cancelQr commits =>
    have hcanceled := cancelCollection_canceled hs collectionId cancelQr commits
    exact ⟨hcanceled.standing hs, fun hheld => iff_of_true (hcanceled.held hheld) trivial⟩

theorem standing_empty : (CollectionStores.mk [] [] ⟨.empty, []⟩ []).Standing where
  service := ⟨.nil, List.forall_mem_nil _⟩
  db := rfl
  keyed := .nil
  identified := List.forall_mem_nil _
  unpaid := List.forall_mem_nil _
  named := List.forall_mem_nil _

/-- Every payment marks its receivable, and every receivable has one code at most, in each state of exactly the histories
    in which every call that has a code made registers it. -/
theorem reconcilable_iff_registers [Inhabited σ] (env : ServiceEnv) (isoText : Rat → String) (pix : PixEnv σ)
    (ops : List CollectionOp) :
    Throughout (collectionStep env) (Reconcilable env isoText pix) {} ops ↔
      Along (collectionStep env) (fun s op => op.Registers env s) {} ops := by
  have hreconcilable : Reconcilable env isoText pix {} :=
    (reconcilable_iff standing_empty).mpr ⟨List.forall_mem_nil _, fun _ => Nat.zero_le 1⟩
  refine (throughout_iff_along (fun s op t hs hstep => (collectionStep_keeps hs hstep).1) (fun s op t hs hP hstep => ?_)
    standing_empty hreconcilable).trans ⟨fun h => h.mono fun s op hop => hop _ rfl, fun h => h.mono fun s op hop _ _ => hop⟩
  obtain ⟨ht, hheld⟩ := collectionStep_keeps hs hstep
  rw [reconcilable_iff ht]
  exact hheld ((reconcilable_iff hs).mp hP)

end Steps

/-! ### A retry -/

def testCourse (id nanoid : String) : CollectionCourse where
  id := id
  create := .done
  auditLog := .done
  posting :=
    ⟨⟨"collection-" ++ nanoid, nanoid, "callback-" ++ nanoid, 0, 0⟩, .created ⟨"txid", "payload", "location"⟩, true, .done⟩
  update := .done

/-- The collection of a receivable is created, and retried before anyone pays. -/
def testHistory : List CollectionOp :=
  [.createCollectionOrder ⟨"receivable", "pme", "Sacado", "00000000000191", 100, 0⟩ (testCourse "row" "first"),
    .retryCollectionOrder "row" "pme" (fun _ => some ⟨"receivable", "pme", 100, .active, "Sacado", "00000000000191", none, 0⟩)
      (testCourse "row" "second")]

def retriedStores : CollectionStores := run (collectionStep testService) {} testHistory

/-- After a retry the receivable has two codes that are not canceled, and the payment of the first one marks nothing. -/
theorem retried_code_unmarked :
    liveCodes retriedStores "receivable" = 2 ∧ ∃ q ∈ retriedStores.qrCodes, q.canceled = false ∧
      q.receivableId = "receivable" ∧ ¬MarksPaid testService (fun _ => "") testPixEnv retriedStores q := by
  refine ⟨by decide +kernel, ⟨"col_first", "receivable", false⟩, ?_, rfl, rfl, fun hmarks => ?_⟩
  · have hcodes : retriedStores.qrCodes[0]? = some ⟨"col_first", "receivable", false⟩ := by decide +kernel
    exact List.mem_of_getElem? hcodes
  · have hs : retriedStores.Standing :=
      run_of_step (fun s op t hs hstep => (collectionStep_keeps hs hstep).1) standing_empty testHistory
    obtain ⟨row, hrow, -⟩ := ((marksPaid_iff hs (by decide)).mp hmarks).2
    have hnone : (retriedStores.findIdentified "col_first").isNone = true := by decide +kernel
    rw [show retriedStores.findIdentified "col_first" = some row from hrow] at hnone
    cases hnone

end CredBridge.Api
