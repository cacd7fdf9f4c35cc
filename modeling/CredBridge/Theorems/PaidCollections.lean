import CredBridge.PixService.Service

/-! # A paid collection stays paid

An event that names a collection is applied whatever the status of the collection, and neither an event nor a
cancellation looks at the status again before it is committed. A paid collection stays as it is, with one callback, along
exactly the runs in which no commit that pays or closes a collection finds it paid. The invariant: a collection has one
callback if it is paid, and none before. -/

namespace CredBridge.PixService
open Concurrent Machine Result

/-- The collection that a `COLLECTION` callback reports. -/
def reportedCollection (payload : Json) : Option String :=
  match payload.field? "type", payload.field? "collectionOrderId" with
  | some (.string type), some (.string id) => if type = "COLLECTION" then some id else none
  | _, _ => none

def collectionCallbacks (tables : Tables) (collectionId : String) : Nat :=
  (tables.db.outboxCallbacks.map OutboxCallback.payloadJson).countP fun payload =>
    decide (reportedCollection payload = some collectionId)

def KeepsPaid (tables tables' : Tables) : Prop :=
  ∀ c ∈ tables.collectionOrders, c.status = .paid → ∃ c' ∈ tables'.collectionOrders,
    c'.id = c.id ∧ c'.status = .paid ∧ c'.paidAt = c.paidAt ∧ c'.endToEndId = c.endToEndId

/-- A collection has one callback if it is paid, and none before. -/
def ReportedOnce (tables : Tables) : Prop :=
  ∀ c ∈ tables.collectionOrders, collectionCallbacks tables c.id = if c.status = .paid then 1 else 0

/-- A step leaves paid collections as they are, and each collection with one callback if it is paid. -/
def StaysPaid (env : ServiceEnv) (c : Config Service ServiceCall) (op : Op ServiceRequest ServiceAnswer) : Prop :=
  KeepsPaid c.shared.tables (next (pixService env).step c op).shared.tables ∧
    ReportedOnce (next (pixService env).step c op).shared.tables

/-- A commit that enqueues a callback or changes the status finds the collection not paid. -/
def CollectionChange.LandsUnpaid (tables : Tables) (change : CollectionChange) : Prop :=
  change.callback.isSome ∨ change.collection.status ≠ change.loaded.status →
    ∀ stored ∈ findCollectionById tables change.loaded.id, stored.status ≠ .paid

def PaysUnpaid (s : Service) (call : ServiceCall) (answer : ServiceAnswer) : Prop :=
  ∀ change ∈ committedCollection s call answer, change.LandsUnpaid s.tables

structure Tables.Reported (tables : Tables) : Prop where
  keyed : Table.Keyed CollectionOrder.id tables.collectionOrders
  once : ReportedOnce tables
  unknown : ∀ id, id ∉ tables.collectionOrders.map CollectionOrder.id → collectionCallbacks tables id = 0

/-- A change was made of a collection that is paid still if it was paid then. -/
def ServiceCall.LoadedPaid (s : Service) : ServiceCall → Prop
  | .commitCollection _ change => change.loaded.status = .paid →
    ∃ c ∈ s.tables.collectionOrders, c.id = change.loaded.id ∧ c.status = .paid
  | .cancelCollectionQr collection => collection.status ≠ .paid
  | .order .. | .batch _ => True

/-! ### Callbacks of collections -/

section Callbacks
variable {env : ServiceEnv} {settings : Settings} {tables tables' tables'' : Tables} {s : Service}

/-- The collections are the same, with the same callbacks. -/
def SameCollections (tables tables' : Tables) : Prop :=
  tables'.collectionOrders = tables.collectionOrders ∧ ∀ id, collectionCallbacks tables' id = collectionCallbacks tables id

theorem SameCollections.of_payloads (hcollections : tables'.collectionOrders = tables.collectionOrders)
    (hpayloads : tables'.db.outboxCallbacks.map OutboxCallback.payloadJson =
      tables.db.outboxCallbacks.map OutboxCallback.payloadJson) : SameCollections tables tables' :=
  ⟨hcollections, fun id => by unfold collectionCallbacks; rw [hpayloads]⟩

theorem reportedCollection_callbackOf (fresh : Fresh) (order : PixOrder) :
    reportedCollection (callbackOf settings fresh order).payloadJson = none := by
  simp [reportedCollection, callbackOf, buildCallbackPayload, Json.field?]

theorem reportedCollection_collectionCallback (fresh : Fresh) (collection : CollectionOrder) :
    reportedCollection (collectionCallback settings fresh collection).payloadJson = some collection.id := by
  simp [reportedCollection, collectionCallback, Json.field?]

/-- An added callback counts for the collection that it reports. -/
theorem collectionCallbacks_append {added : Option OutboxCallback}
    (h : tables'.db.outboxCallbacks = tables.db.outboxCallbacks ++ added.toList) (id : String) :
    collectionCallbacks tables' id = collectionCallbacks tables id +
      if ∃ callback ∈ added, reportedCollection callback.payloadJson = some id then 1 else 0 := by
  unfold collectionCallbacks
  rw [h, List.map_append, List.countP_append]
  cases added with
  | none => simp
  | some callback => simp [List.countP_singleton]

theorem Tables.Reported.of_same (h : tables.Reported) (hsame : SameCollections tables tables') : tables'.Reported where
  keyed := hsame.1 ▸ h.keyed
  once c hc := (hsame.2 c.id).trans (h.once c (hsame.1 ▸ hc))
  unknown id hid := (hsame.2 id).trans (h.unknown id (hsame.1 ▸ hid))

theorem KeepsPaid.refl : KeepsPaid tables tables := fun c hc hpaid => ⟨c, hc, rfl, hpaid, rfl, rfl⟩

theorem KeepsPaid.of_same (hsame : SameCollections tables tables') : KeepsPaid tables tables' := fun c hc hpaid =>
  ⟨c, hsame.1 ▸ hc, rfl, hpaid, rfl, rfl⟩

/-- A new collection is not paid, and no callback is one of it. -/
theorem Tables.Reported.of_created (h : tables.Reported) (hcreated : Created tables tables') :
    tables'.Reported ∧ KeepsPaid tables tables' := by
  rcases hcreated with ⟨_, _, -, rfl⟩ | ⟨collection, hnew, hstatus, rfl⟩ | rfl
  · exact ⟨h.of_same ⟨rfl, fun _ => rfl⟩, .of_same ⟨rfl, fun _ => rfl⟩⟩
  · have hnew := Table.find_eq_none.mp hnew
    refine ⟨⟨h.keyed.append hnew, fun c hc => ?_, fun id hid => h.unknown id fun hmem => hid ?_⟩, fun c hc hpaid => ?_⟩
    · rcases List.mem_append.mp hc with hc | hc
      · exact h.once c hc
      · rw [List.mem_singleton.mp hc, hstatus]
        exact h.unknown collection.id hnew
    · rw [List.map_append]
      exact List.mem_append_left _ hmem
    · exact ⟨c, List.mem_append_left _ hc, rfl, hpaid, rfl, rfl⟩
  · exact ⟨h, .refl⟩

end Callbacks
/-! ### Commits of collections -/

section Commit
variable {settings : Settings} {tables tables' : Tables} {change : CollectionChange} {stored : CollectionOrder}

theorem written_status (hchanged : change.collection.status ≠ change.loaded.status) :
    (CollectionOrder.written change.loaded change.collection stored).status = change.collection.status :=
  if_neg hchanged

section Committed
variable (h : CommittedCollection tables tables' change stored)
include h

theorem CommittedCollection.loaded_id : stored.id = change.loaded.id := Table.key_of_find h.find

theorem CommittedCollection.mem : stored ∈ tables.collectionOrders := Table.mem_of_find h.find

/-- A collection after the commit is the one that was written, or another one that was there before. -/
theorem CommittedCollection.mem_iff {c : CollectionOrder} : c ∈ tables'.collectionOrders ↔
    c = CollectionOrder.written change.loaded change.collection stored ∨
      c ∈ tables.collectionOrders ∧ c.id ≠ stored.id := by
  rw [h.collections]
  exact Table.mem_modify_const (List.mem_map_of_mem h.mem)

theorem CommittedCollection.callbacks_eq (hmade : change.Made settings) (id : String) :
    collectionCallbacks tables' id = collectionCallbacks tables id +
      if change.callback.isSome ∧ stored.id = id then 1 else 0 := by
  obtain ⟨-, hdb⟩ := insertIf_callback_inv h.db
  rw [collectionCallbacks_append (congrArg Db.outboxCallbacks hdb) id]
  rcases hmade with ⟨fresh, _, hcollection, hcallback⟩ | ⟨_, -, -, hcallback⟩ | ⟨-, hcallback⟩
  · have hid : change.collection.id = stored.id := by rw [hcollection, h.loaded_id]
    simp [hcallback, reportedCollection_collectionCallback, hid]
  · simp [hcallback]
  · simp [hcallback]

theorem CommittedCollection.unknown (hR : tables.Reported) (hmade : change.Made settings) (id : String)
    (hid : id ∉ tables'.collectionOrders.map CollectionOrder.id) : collectionCallbacks tables' id = 0 := by
  have hmap : tables'.collectionOrders.map CollectionOrder.id = tables.collectionOrders.map CollectionOrder.id := by
    rw [h.collections]
    exact Table.map_key_modify fun _ _ => rfl
  rw [hmap] at hid
  rw [h.callbacks_eq hmade, if_neg, hR.unknown id hid]
  rintro ⟨-, rfl⟩
  exact hid (List.mem_map_of_mem h.mem)

/-- Where nothing is written, the collections and their callbacks are as before. -/
theorem CommittedCollection.same (hR : tables.Reported) (hmade : change.Made settings)
    (hnone : ¬(change.callback.isSome ∨ change.collection.status ≠ change.loaded.status)) :
    SameCollections tables tables' := by
  obtain ⟨hcallback, hstatus⟩ := not_or.mp hnone
  have hwritten : CollectionOrder.written change.loaded change.collection stored = stored := by
    unfold CollectionOrder.written
    rw [PixService.written, if_pos (not_not.mp hstatus)]
    rcases hmade with ⟨_, _, -, hpaid⟩ | ⟨_, -, hcollection, -⟩ | ⟨hcollection, -⟩
    · exact absurd (by rw [hpaid]; rfl) hcallback
    · rw [hcollection, PixService.written, PixService.written, if_pos rfl, if_pos rfl]
    · rw [hcollection, PixService.written, PixService.written, if_pos rfl, if_pos rfl]
  refine ⟨?_, fun id => ?_⟩
  · rw [h.collections, hwritten]
    exact Table.modify_self hR.keyed h.mem
  · rw [h.callbacks_eq hmade, if_neg fun hadds => hcallback hadds.1]
    rfl

/-- A commit that lands on a collection that is not paid leaves it paid with its first callback, or closed. -/
theorem CommittedCollection.reported (hR : tables.Reported) (hmade : change.Made settings)
    (hloaded : change.loaded.status = .paid → stored.status = .paid) (hlands : change.LandsUnpaid tables) :
    tables'.Reported ∧ KeepsPaid tables tables' := by
  by_cases hwrites : change.callback.isSome ∨ change.collection.status ≠ change.loaded.status
  · have hunpaid : stored.status ≠ .paid := hlands hwrites stored h.find
    refine ⟨⟨?_, fun c hc => ?_, h.unknown hR hmade⟩, fun c hc hpaid => ?_⟩
    · rw [h.collections]
      exact hR.keyed.modify fun _ _ => rfl
    · rcases h.mem_iff.mp hc with rfl | ⟨hc, hne⟩
      · show collectionCallbacks tables' stored.id = _
        rw [h.callbacks_eq hmade, hR.once stored h.mem, if_neg hunpaid]
        rcases hmade with ⟨fresh, _, hcollection, hcallback⟩ | ⟨status, hstatus, hcollection, hcallback⟩ |
          ⟨hcollection, hcallback⟩
        · have hchanged : change.collection.status ≠ change.loaded.status := by
            rw [hcollection]
            exact fun heq => hunpaid (hloaded heq.symm)
          rw [written_status hchanged, hcallback, hcollection]
          simp
        · have hchanged : change.collection.status ≠ change.loaded.status := hwrites.resolve_left (by simp [hcallback])
          rw [written_status hchanged, hcallback, hcollection]
          simp [hstatus]
        · simp [hcollection, hcallback] at hwrites
      · rw [h.callbacks_eq hmade, if_neg fun hadds => hne hadds.2.symm]
        exact hR.once c hc
    · refine ⟨c, h.mem_iff.mpr (.inr ⟨hc, fun hid => ?_⟩), rfl, hpaid, rfl, rfl⟩
      obtain rfl := hR.keyed.eq_of_key hc h.mem hid
      exact hunpaid hpaid
  · have hsame := h.same hR hmade hwrites
    exact ⟨hR.of_same hsame, .of_same hsame⟩

theorem CommittedCollection.landsUnpaid (hR : tables.Reported) (hmade : change.Made settings)
    (hkeeps : KeepsPaid tables tables') (honce : ReportedOnce tables') : change.LandsUnpaid tables := by
  intro hwrites stored' hfind hpaid
  obtain rfl : stored = stored' := Option.some.inj (h.find.symm.trans hfind)
  obtain ⟨c, hc, hid, hstatus, -, -⟩ := hkeeps stored h.mem hpaid
  obtain rfl : c = CollectionOrder.written change.loaded change.collection stored :=
    (h.mem_iff.mp hc).resolve_right fun hother => hother.2 hid
  have hone := honce _ hc
  rw [if_pos hstatus, h.callbacks_eq hmade, hid, hR.once stored h.mem, if_pos hpaid] at hone
  have hnone : ¬(change.callback.isSome = true) := fun hsome => by simp [hsome] at hone
  have hchanged := hwrites.resolve_left hnone
  rw [written_status hchanged] at hstatus
  rcases hmade with ⟨_, _, -, hcallback⟩ | ⟨status, hne, hcollection, -⟩ | ⟨hcollection, -⟩
  · exact hnone (by rw [hcallback]; rfl)
  · rw [hcollection] at hstatus
    exact hne hstatus
  · exact hchanged (congrArg CollectionOrder.status hcollection)

end Committed
end Commit
/-! ### Steps -/

section Steps
variable {env : ServiceEnv} {s : Service}

theorem resumeBatch_payloads (batch : Batch) (answer : SenderAnswer) :
    SameCollections s.tables (resumeBatch env batch answer s).1.tables := by
  refine .of_payloads rfl ?_
  show (resumeSender env.text env.outbox batch answer s.sender).1.outbox.map _ = _
  have hresumed : SenderResumed env.text env.outbox batch answer s.sender _ :=
    resumeSender_resumed batch answer s.sender
  rcases hresumed with ⟨attempts, -, -, hr⟩ | ⟨_, _, _, _, -, -, hr⟩ | ⟨-, -, hr⟩ | ⟨-, -, -, hr⟩ | ⟨-, -, -, -, -, hr⟩
  · rw [hr]
    exact map_payloadJson_writeAll attempts s.outbox
  · rw [hr, sendNext_outbox]
    rfl
  · rw [hr]
    rfl
  · rw [hr]
    rfl
  · rw [hr]
    rfl

theorem startService_reported {request : ServiceRequest} (h : s.tables.Reported) :
    (startService env request s).1.tables.Reported ∧ KeepsPaid s.tables (startService env request s).1.tables := by
  rcases startService_started request with ⟨_, _, tables, -, hcreate, hs'⟩ | ⟨_, _, _, -, -, hs'⟩ | ⟨now, -, hs'⟩ | hs'
  · rw [hs']
    exact h.of_created (create_created hcreate)
  · rw [hs']
    exact ⟨h, .refl⟩
  · have hsame : SameCollections s.tables (startService env request s).1.tables := by
      rw [hs']
      exact .of_payloads rfl (congrArg (List.map OutboxCallback.payloadJson) (startSender_outbox now))
    exact ⟨h.of_same hsame, .of_same hsame⟩
  · rw [hs']
    exact ⟨h, .refl⟩

/-- What a call does to the collections: a commit of one, or nothing. -/
inductive CollectionStep (call : ServiceCall) (answer : ServiceAnswer) (s s' : Service) : Prop where
  | same (hcommitted : committedCollection s call answer = none) (hsame : SameCollections s.tables s'.tables)
  | committed (webhook : Option String) (change : CollectionChange) (stored : CollectionOrder)
      (hcall : call = .commitCollection webhook change) (hcommitted : committedCollection s call answer = some change)
      (hwritten : CommittedCollection s.tables s'.tables change stored)

theorem resumeService_collections {call : ServiceCall} (answer : ServiceAnswer) (hmade : call.Made env.settings) :
    CollectionStep call answer s (resumeService env call answer s).1 := by
  have hresumed : ServiceResumed env call answer s _ := resumeService_resumed call answer
  rcases hresumed with ⟨_, _, _, rfl, rfl, -, hs'⟩ | ⟨webhook, change, db, rfl, hcommit, hs'⟩ |
    ⟨webhook, change, tables, hcall, hcommitted, hcommit, hs'⟩ | ⟨batch, answer', rfl, rfl, hs'⟩ | ⟨hcommitted, hs'⟩
  · rw [hs']
    exact .same rfl ⟨rfl, fun _ => rfl⟩
  · obtain ⟨_, -, -, -, rfl⟩ := Db.commit_inv hcommit
    rw [hs']
    refine .same rfl ⟨rfl, fun id => ?_⟩
    have houtbox : s.tables.db.outboxCallbacks ++ change.callback.toList = _ := rfl
    rw [collectionCallbacks_append houtbox, if_neg]
    · rfl
    · rintro ⟨callback, hmem, hreports⟩
      obtain ⟨fresh, order, rfl⟩ := hmade.1 callback hmem
      rw [reportedCollection_callbackOf] at hreports
      cases hreports
  · obtain ⟨stored, hwritten⟩ := commitCollection_inv hcommit
    rw [hs']
    exact .committed webhook change stored hcall hcommitted hwritten
  · rw [hs']
    exact .same rfl (resumeBatch_payloads batch answer')
  · rw [hs']
    exact .same hcommitted ⟨rfl, fun _ => rfl⟩

theorem startService_loadedPaid {request : ServiceRequest} :
    ∀ call ∈ (startService env request s).2, call.LoadedPaid s := by
  intro call hcall
  rcases startService_next hcall with ⟨_, _, -, rfl⟩ | ⟨_, collection, hcollection, rfl⟩ | ⟨_, _, -, -, rfl⟩
  · trivial
  · obtain ⟨-, hstatus⟩ := Option.filter_eq_some_iff.mp hcollection
    exact fun hpaid => of_decide_eq_true hstatus (hpaid ▸ List.mem_cons_self)
  · trivial

theorem findCollectionForEvent_mem {webhook : CorpXWebhook} {collection : CollectionOrder} {tables : Tables}
    (h : findCollectionForEvent tables webhook = .ok (some collection)) : collection ∈ tables.collectionOrders := by
  obtain ⟨identifier, -, h⟩ := bind_eq_ok.mp h
  split at h
  · cases pure_eq_ok.mp h
  · obtain ⟨text, -, h⟩ := bind_eq_ok.mp h
    exact Table.mem_of_find (pure_eq_ok.mp h)

theorem resumeService_loadedPaid {call : ServiceCall} {answer : ServiceAnswer} (hloaded : call.LoadedPaid s) :
    ∀ next ∈ (resumeService env call answer s).2, next.LoadedPaid s := by
  intro next hnext
  rcases resumeService_next hnext with ⟨_, _, _, _, -, -, rfl⟩ |
    ⟨_, _, event, collection, change, -, -, hfind, hchange, rfl⟩ | ⟨collection, rfl, rfl⟩ | ⟨_, _, _, -, -, rfl⟩ | rfl
  · trivial
  · obtain ⟨rfl, -⟩ := processCollectionEvent_made hchange
    exact fun hpaid => ⟨change.loaded, findCollectionForEvent_mem hfind, rfl, hpaid⟩
  · exact fun hpaid => absurd hpaid hloaded
  · trivial
  · exact hloaded

theorem ServiceCall.LoadedPaid.of_keeps {call : ServiceCall} {s' : Service} (hloaded : call.LoadedPaid s)
    (hkeeps : KeepsPaid s.tables s'.tables) : call.LoadedPaid s' := by
  cases call with
  | order | batch => trivial
  | cancelCollectionQr collection => exact hloaded
  | commitCollection webhook change =>
    intro hpaid
    obtain ⟨c, hc, hid, hstatus⟩ := hloaded hpaid
    obtain ⟨c', hc', hid', hstatus', -⟩ := hkeeps c hc hstatus
    exact ⟨c', hc', hid'.trans hid, hstatus'⟩

/-- A commit that lands on the collection it loaded, where that was paid. -/
theorem CommittedCollection.stored_paid {tables tables' : Tables} {change : CollectionChange} {stored : CollectionOrder}
    (h : CommittedCollection tables tables' change stored) (hR : tables.Reported)
    (hloaded : change.loaded.status = .paid →
      ∃ c ∈ tables.collectionOrders, c.id = change.loaded.id ∧ c.status = .paid) :
    change.loaded.status = .paid → stored.status = .paid := by
  intro hpaid
  obtain ⟨c, hc, hid, hstatus⟩ := hloaded hpaid
  obtain rfl := hR.keyed.eq_of_key hc h.mem (hid.trans h.loaded_id.symm)
  exact hstatus

end Steps

/-! ### Runs -/

section Runs
variable {env : ServiceEnv} {c c' : Config Service ServiceCall} {op : Op ServiceRequest ServiceAnswer}
  {ops : List (Op ServiceRequest ServiceAnswer)}

def Loaded (env : ServiceEnv) (s : Service) (call : ServiceCall) : Prop := call.Made env.settings ∧ call.LoadedPaid s

theorem resumeService_reported {s : Service} {call : ServiceCall} {answer : ServiceAnswer} (hR : s.tables.Reported)
    (hloaded : Loaded env s call) (hpays : PaysUnpaid s call answer) :
    (resumeService env call answer s).1.tables.Reported ∧
      KeepsPaid s.tables (resumeService env call answer s).1.tables := by
  rcases resumeService_collections answer hloaded.1 with ⟨-, hsame⟩ | ⟨_, change, stored, rfl, hcommitted, hwritten⟩
  · exact ⟨hR.of_same hsame, .of_same hsame⟩
  · exact hwritten.reported hR hloaded.1 (hwritten.stored_paid hR hloaded.2) (hpays change hcommitted)

theorem resumeService_paysUnpaid {s : Service} {call : ServiceCall} {answer : ServiceAnswer} (hR : s.tables.Reported)
    (hmade : call.Made env.settings) (hkeeps : KeepsPaid s.tables (resumeService env call answer s).1.tables)
    (honce : ReportedOnce (resumeService env call answer s).1.tables) : PaysUnpaid s call answer := by
  intro change hchange
  rcases resumeService_collections answer hmade with ⟨hnone, -⟩ | ⟨_, change', stored, rfl, hcommitted, hwritten⟩
  · rw [hnone] at hchange
    cases hchange
  · obtain rfl : change' = change := Option.some.inj (hcommitted.symm.trans hchange)
    exact hwritten.landsUnpaid hR hmade hkeeps honce

theorem paidOutline : Outline (pixService env) (fun _ _ => True) PaysUnpaid (fun s => s.tables.Reported) (Loaded env)
    fun s s' => KeepsPaid s.tables s'.tables where
  start request s hR _ := by
    obtain ⟨hR', hkeeps⟩ : _ ∧ KeepsPaid s.tables _ := startService_reported hR
    exact ⟨hR', hkeeps, fun call hcall =>
      ⟨startService_made request s call hcall, (startService_loadedPaid call hcall).of_keeps hkeeps⟩⟩
  resume call answer s hR hloaded hpays := by
    obtain ⟨hR', hkeeps⟩ := resumeService_reported hR hloaded hpays
    exact ⟨hR', hkeeps, fun next hnext => ⟨resumeService_made hloaded.1 answer s next hnext,
      (resumeService_loadedPaid hloaded.2 next hnext).of_keeps hkeeps⟩⟩
  stable _ _ _ hkeeps hloaded := ⟨hloaded.1, hloaded.2.of_keeps hkeeps⟩

/-- Paid collections stay as they are, with one callback, along exactly the runs in which no commit that pays or closes a
    collection finds it paid. -/
theorem stays_paid_iff_pays_unpaid :
    Along (pixService env).step (StaysPaid env) ⟨.empty, []⟩ ops ↔
      Along (pixService env).step (Allows (fun _ _ => True) PaysUnpaid) ⟨.empty, []⟩ ops := by
  have hempty : Tables.Reported ⟨.empty, []⟩ := ⟨.nil, List.forall_mem_nil _, fun _ _ => rfl⟩
  have hc : Holds (fun s => s.tables.Reported) (Loaded env) ⟨.empty, []⟩ := ⟨hempty, List.forall_mem_nil _⟩
  refine paidOutline.along_iff (Q := fun s s' => KeepsPaid s.tables s'.tables ∧ ReportedOnce s'.tables) ?_ ?_ ?_ hc
  · exact fun s hR => ⟨.refl, hR.once⟩
  · intro request s hR
    obtain ⟨hR', hkeeps⟩ : Tables.Reported _ ∧ KeepsPaid s.tables (startService env request s).1.tables :=
      startService_reported hR
    exact ⟨hkeeps, hR'.once⟩
  · intro call answer s hR hloaded
    constructor
    · exact fun h => resumeService_paysUnpaid hR hloaded.1 h.1 h.2
    · intro hpays
      obtain ⟨hR', hkeeps⟩ := resumeService_reported hR hloaded hpays
      exact ⟨hkeeps, hR'.once⟩

end Runs
section Examples

instance (tables : Tables) : Decidable (ReportedOnce tables) :=
  inferInstanceAs (Decidable (∀ c ∈ tables.collectionOrders, collectionCallbacks tables c.id = _))

/-- The webhook of a payment is delivered again, with the same event id. -/
theorem redelivered_payment_reported_again :
    ¬Along (pixService testService).step (StaysPaid testService) ⟨.empty, []⟩
      ((newCollection :: collectionWebhook "event" "qrcode.paid" "callback" 1) ++
        collectionWebhook "event" "qrcode.paid" "again" 2) := by
  intro h
  obtain ⟨-, -, -, hlast, -⟩ := (Along.append.mp h).2
  exact absurd hlast.2 (by decide +kernel)

end Examples
end CredBridge.PixService
