import CredBridge.Api.FinancialAuthorizations
import CredBridge.Lib.Journal

/-! # An authorization authorizes one operation, once

The update that consumes a row checks under one condition that the row is the caller's, is for this operation,
was verified, is not expired and is not consumed, so what a call read before does not matter. What is left is
what the columns mean: they are those of the payload whose hash was signed, and `verifiedAt` stands for a
signature that verified. -/

namespace CredBridge.Api
open Concurrent Machine Result

section Hashing
variable (runtime : Runtime)

theorem FinancialOperation.value_injective : Function.Injective FinancialOperation.value := by
  intro a b h
  cases a <;> cases b <;> first | rfl | exact absurd h (by decide)

theorem properties_injective : Function.Injective FinancialAuthorizationPayload.properties := by
  intro p q h
  simp only [FinancialAuthorizationPayload.properties, List.cons.injEq, Prod.mk.injEq, Option.some.injEq, true_and,
    and_true] at h
  obtain ⟨hdomain, hversion, hnetwork, hoperation, huserId, hwalletId, hresourceId, hamount, hdestination, hnonce,
    hexpiresAt⟩ := h
  cases p
  cases q
  simp only [FinancialAuthorizationPayload.mk.injEq]
  exact ⟨hdomain, hversion, hnetwork, FinancialOperation.value_injective hoperation, huserId, hwalletId, hresourceId,
    hamount, hdestination, hnonce, hexpiresAt⟩

theorem payloadDigest_injective (hsha : Function.Injective runtime.sha256) :
    Function.Injective (payloadDigest runtime) := fun _ _ h =>
  properties_injective (JsonText.stringify_injective (Utf.encodeChars_injective (hsha h)))

theorem readHexBytes_hashPayload {payload : FinancialAuthorizationPayload} {n : Nat} {bytes : List UInt8}
    (h : readHexBytes (hashPayload runtime payload) n = .ok bytes) : bytes = payloadDigest runtime payload := by
  obtain ⟨-, h⟩ := throwIf_bind_eq_ok.mp h
  rw [← pure_eq_ok.mp h, hashPayload, String.toList_ofList, Hex.decode_encode]

end Hashing

/-- The payload is for the operation, by its user. -/
def FinancialAuthorizationPayload.Covers (p : FinancialAuthorizationPayload)
    (input : FinancialAuthorizationConsumption) : Prop :=
  p.userId = input.userId ∧ p.operation = input.operation ∧ p.resourceId = input.resourceId ∧
    p.amount = input.amount ∧ p.destination = input.destination

/-- The wallet of the payload has signed its hash, and the signature was verified for the authorization. -/
def SignedIn (runtime : Runtime) (journal : List AuthorizationEvent) (id : String)
    (payload : FinancialAuthorizationPayload) : Prop :=
  ∃ signature, .verified id signature ∈ journal ∧
    runtime.verify payload.walletId (payloadDigest runtime payload) signature = true

/-- What goes before an event. An identifier is given once; a consumption is the first of its authorization, made
    by the user who created it, before its expiry, after the wallet signed the hash of its payload, and for what
    that payload says, which no other payload with the signed hash contradicts. -/
def Justified (runtime : Runtime) (earlier : List AuthorizationEvent) : AuthorizationEvent → Prop
  | .created id _ _ _ => ∀ userId payload expiresAt, .created id userId payload expiresAt ∉ earlier
  | .verified _ _ => True
  | .consumed input consumedAt =>
    (∀ input' consumedAt', .consumed input' consumedAt' ∈ earlier → input'.authorizationId ≠ input.authorizationId) ∧
      ∃ payload expiresAt, .created input.authorizationId input.userId payload expiresAt ∈ earlier ∧
        payload.expiresAt = runtime.toISOString expiresAt ∧ consumedAt < expiresAt ∧
        SignedIn runtime earlier input.authorizationId payload ∧ payload.Covers input ∧
        ∀ payload', payloadDigest runtime payload' = payloadDigest runtime payload → payload'.Covers input

/-- What a row says is what the journal and its payload say. -/
structure RowSound (runtime : Runtime) (journal : List AuthorizationEvent) (r : FinancialAuthorization) : Prop where
  created : .created r.id r.userId r.payload r.expiresAt ∈ journal
  expires : r.payload.expiresAt = runtime.toISOString r.expiresAt
  userId : r.payload.userId = r.userId
  walletId : r.payload.walletId = r.walletId
  operation : r.payload.operation = r.operation
  resourceId : r.payload.resourceId = r.resourceId
  amount : r.payload.amount = r.amount
  destination : r.payload.destination = r.destination
  payloadHash : r.payloadHash = hashPayload runtime r.payload
  signed : r.verifiedAt ≠ none → SignedIn runtime journal r.id r.payload
  unconsumed : r.consumedAt = none → ∀ input t, .consumed input t ∈ journal → input.authorizationId ≠ r.id

structure AuthorizationStore.Sound (runtime : Runtime) (s : AuthorizationStore) : Prop where
  keyed : Table.Keyed FinancialAuthorization.id s.authorizations
  rows : ∀ r ∈ s.authorizations, RowSound runtime s.journal r
  ids : ∀ id userId payload expiresAt, .created id userId payload expiresAt ∈ s.journal →
    id ∈ s.authorizations.map FinancialAuthorization.id
  journal : Journal.Sound (Justified runtime) s.journal

/-- A signature that is about to be written verified for the row that it is for. -/
def Prepared (runtime : Runtime) (s : AuthorizationStore) : AuthorizationWrite → Prop
  | .create payload expiresAt => payload.expiresAt = runtime.toISOString expiresAt
  | .setVerified id _ signature => ∃ r ∈ s.authorizations, r.id = id ∧
      runtime.verify r.payload.walletId (payloadDigest runtime r.payload) signature = true
  | .setConsumed _ => True

def Grows (s s' : AuthorizationStore) : Prop :=
  ∀ r ∈ s.authorizations, ∃ r' ∈ s'.authorizations, r'.id = r.id ∧ r'.payload = r.payload

section Steps
variable {runtime : Runtime} {journal : List AuthorizationEvent} {r r' row : FinancialAuthorization}
  {s s' : AuthorizationStore} {input : FinancialAuthorizationConsumption} {id : String}

theorem Grows.refl : Grows s s := fun r hr => ⟨r, hr, rfl, rfl⟩

theorem Grows.append : Grows s ⟨s.authorizations ++ [row], journal⟩ := fun r hr =>
  ⟨r, List.mem_append_left _ hr, rfl, rfl⟩

theorem Grows.modify {g : FinancialAuthorization → FinancialAuthorization}
    (hg : ∀ r, (g r).id = r.id ∧ (g r).payload = r.payload) :
    Grows s ⟨Table.modify FinancialAuthorization.id id g s.authorizations, journal⟩ := by
  intro r hr
  refine ⟨_, Table.mem_modify.mpr ⟨r, hr, rfl⟩, ?_⟩
  split
  · exact hg r
  · exact ⟨rfl, rfl⟩

theorem Prepared.grows {w : AuthorizationWrite} (hs : Grows s s') (h : Prepared runtime s w) : Prepared runtime s' w := by
  cases w with
  | create payload expiresAt => exact h
  | setVerified id assertion signature =>
    obtain ⟨r, hr, hid, hverify⟩ := h
    obtain ⟨r', hr', hid', hpayload⟩ := hs r hr
    exact ⟨r', hr', hid'.trans hid, hpayload ▸ hverify⟩
  | setConsumed input => trivial

theorem SignedIn.cons {payload : FinancialAuthorizationPayload} {e : AuthorizationEvent}
    (h : SignedIn runtime journal id payload) : SignedIn runtime (e :: journal) id payload := by
  obtain ⟨signature, hmem, hverify⟩ := h
  exact ⟨signature, List.mem_cons_of_mem e hmem, hverify⟩

theorem RowSound.cons {e : AuthorizationEvent} (h : RowSound runtime journal r)
    (he : ∀ input t, e = .consumed input t → input.authorizationId ≠ r.id) : RowSound runtime (e :: journal) r where
  created := List.mem_cons_of_mem e h.created
  expires := h.expires
  userId := h.userId
  walletId := h.walletId
  operation := h.operation
  resourceId := h.resourceId
  amount := h.amount
  destination := h.destination
  payloadHash := h.payloadHash
  signed hv := (h.signed hv).cons
  unconsumed hc input t hmem := by
    rcases List.mem_cons.mp hmem with heq | hmem
    · exact he input t heq.symm
    · exact h.unconsumed hc input t hmem

theorem RowSound.challengeRow {payload : FinancialAuthorizationPayload} {expiresAt : Int}
    (hexpires : payload.expiresAt = runtime.toISOString expiresAt)
    (hnew : ∀ input t, .consumed input t ∈ journal → input.authorizationId ≠ id) :
    RowSound runtime (.created id payload.userId payload expiresAt :: journal)
      (challengeRow runtime payload expiresAt id) where
  created := List.mem_cons_self
  expires := hexpires
  userId := rfl
  walletId := rfl
  operation := rfl
  resourceId := rfl
  amount := rfl
  destination := rfl
  payloadHash := rfl
  signed hv := absurd rfl hv
  unconsumed _ input t hmem := by
    rcases List.mem_cons.mp hmem with heq | hmem
    · cases heq
    · exact hnew input t hmem

theorem AuthorizationStore.Sound.consumed_id (hs : s.Sound runtime) {t : Int} (h : .consumed input t ∈ s.journal) :
    input.authorizationId ∈ s.authorizations.map FinancialAuthorization.id := by
  obtain ⟨later, earlier, hj⟩ := List.append_of_mem h
  have hjustified : Justified runtime earlier (.consumed input t) := (hj ▸ hs.journal).justified
  obtain ⟨-, payload, expiresAt, hcreated, -⟩ := hjustified
  exact hs.ids _ _ _ _ (hj ▸ List.mem_append_right later (List.mem_cons_of_mem _ hcreated))

theorem AuthorizationStore.Sound.create (hs : s.Sound runtime) {payload : FinancialAuthorizationPayload}
    {expiresAt : Int} (hexpires : payload.expiresAt = runtime.toISOString expiresAt) :
    (s.create (challengeRow runtime payload expiresAt id)).Sound runtime ∧
      Grows s (s.create (challengeRow runtime payload expiresAt id)) := by
  unfold AuthorizationStore.create
  split
  · exact ⟨hs, .refl⟩
  · next hany =>
    have hid : id ∉ s.authorizations.map FinancialAuthorization.id := by
      intro hmem
      obtain ⟨r, hr, hrid⟩ := List.mem_map.mp hmem
      exact hany (List.any_eq_true.mpr ⟨r, hr, decide_eq_true (.inl hrid)⟩)
    refine ⟨⟨hs.keyed.append hid, ?_, ?_, hs.journal.cons ?_⟩, .append⟩
    · intro r hr
      rcases List.mem_append.mp hr with hr | hr
      · exact (hs.rows r hr).cons fun _ _ h => nomatch h
      · rw [List.mem_singleton.mp hr]
        refine .challengeRow hexpires fun input t h he => hid ?_
        have hconsumed := hs.consumed_id h
        rwa [he] at hconsumed
    · intro id' userId p t hmem
      rw [List.map_append]
      rcases List.mem_cons.mp hmem with heq | hmem
      · cases heq
        exact List.mem_append_right _ List.mem_cons_self
      · exact List.mem_append_left _ (hs.ids id' userId p t hmem)
    · exact fun userId p t hmem => hid (hs.ids id userId p t hmem)

/-- Rewriting one row keeps the store sound, if the row stays sound and the event is justified and concerns no other
    row. -/
theorem AuthorizationStore.Sound.modify (hs : s.Sound runtime) {g : FinancialAuthorization → FinancialAuthorization}
    {e : AuthorizationEvent} (hid : ∀ r, (g r).id = r.id)
    (hrow : ∀ r ∈ s.authorizations, r.id = id → RowSound runtime (e :: s.journal) (g r))
    (hcreated : ∀ id userId payload t, e ≠ .created id userId payload t)
    (hother : ∀ input t, e = .consumed input t → input.authorizationId = id) (he : Justified runtime s.journal e) :
    AuthorizationStore.Sound runtime ⟨Table.modify FinancialAuthorization.id id g s.authorizations, e :: s.journal⟩ where
  keyed := hs.keyed.modify fun r hr => (hid r).trans hr
  rows x hx := by
    obtain ⟨r, hr, rfl⟩ := Table.mem_modify.mp hx
    split
    · next hk => exact hrow r hr hk
    · next hk => exact (hs.rows r hr).cons fun input t h hi => hk (hi.symm.trans (hother input t h))
  ids id' userId payload t hmem := by
    show id' ∈ (Table.modify FinancialAuthorization.id id g s.authorizations).map FinancialAuthorization.id
    rw [Table.map_key_modify fun r hr => (hid r).trans hr]
    rcases List.mem_cons.mp hmem with heq | hmem
    · exact absurd heq.symm (hcreated id' userId payload t)
    · exact hs.ids id' userId payload t hmem
  journal := hs.journal.cons he

theorem AuthorizationStore.Sound.setVerified (hs : s.Sound runtime) {assertion : Json} {signature : List UInt8}
    {now : Int} (hp : Prepared runtime s (.setVerified id assertion signature)) :
    (s.setVerified id assertion signature now).Sound runtime ∧ Grows s (s.setVerified id assertion signature now) := by
  unfold AuthorizationStore.setVerified
  split
  · exact ⟨hs, .refl⟩
  · obtain ⟨x, hx, rfl, hverify⟩ := hp
    refine ⟨hs.modify (fun _ => rfl) (fun r hr hid => ?_) (fun _ _ _ _ h => nomatch h) (fun _ _ h => nomatch h) trivial,
      .modify fun _ => ⟨rfl, rfl⟩⟩
    have hxr : x = r := hs.keyed.eq_of_key hx hr hid.symm
    subst hxr
    have h : RowSound runtime (.verified x.id signature :: s.journal) x := (hs.rows x hx).cons fun _ _ h => nomatch h
    exact { h with signed := fun _ => ⟨signature, List.mem_cons_self, hverify⟩ }

theorem RowSound.justified (h : RowSound runtime s.journal r) (hsha : Function.Injective runtime.sha256) {now : Int}
    (hid : r.id = input.authorizationId) (hr : r.Consumable input now) :
    Justified runtime s.journal (.consumed input now) := by
  obtain ⟨huser, hoperation, hresource, hamount, hdestination, hverified, hunconsumed, hexpires⟩ := hr
  have hcovers : r.payload.Covers input := ⟨h.userId.trans huser, h.operation.trans hoperation,
    h.resourceId.trans hresource, h.amount.trans hamount, h.destination.trans hdestination⟩
  refine ⟨fun input' t hmem => hid ▸ h.unconsumed hunconsumed input' t hmem, r.payload, r.expiresAt, ?_, h.expires,
    hexpires, hid ▸ h.signed hverified, hcovers, fun payload' hdigest => ?_⟩
  · rw [← hid, ← huser]
    exact h.created
  · rwa [payloadDigest_injective runtime hsha hdigest]

theorem AuthorizationStore.Sound.setConsumed (hs : s.Sound runtime) (hsha : Function.Injective runtime.sha256)
    (now : Int) : (s.setConsumed input now).Sound runtime ∧ Grows s (s.setConsumed input now) := by
  unfold AuthorizationStore.setConsumed
  split
  · exact ⟨hs, .refl⟩
  · next r hfind =>
    obtain ⟨hfind, hconsumable⟩ := Option.filter_eq_some_iff.mp hfind
    have hr := Table.mem_of_find hfind
    have hid := Table.key_of_find hfind
    have hjustified := (hs.rows r hr).justified hsha hid (of_decide_eq_true hconsumable)
    refine ⟨hs.modify (fun _ => rfl) (fun x hx hxid => ?_) (fun _ _ _ _ h => nomatch h) ?_ hjustified,
      .modify fun _ => ⟨rfl, rfl⟩⟩
    · have h := hs.rows x hx
      exact { h with
        created := List.mem_cons_of_mem _ h.created
        signed := fun hv => (h.signed hv).cons
        unconsumed := fun hc => nomatch hc }
    · rintro _ _ ⟨⟩
      rfl

end Steps

section Calls
variable {runtime : Runtime} {stellarNetwork : Option String} {s : AuthorizationStore} {w : AuthorizationWrite}
  {drawn : Drawn}

/-- A signature that was accepted verifies for the digest whose digits are the hash. -/
theorem verifyPrivyRawHashSignature_inv {privyAddress : Option String} {walletId : String} {assertion : Json}
    {payload : FinancialAuthorizationPayload} {signature : List UInt8}
    (h : verifyPrivyRawHashSignature runtime privyAddress walletId assertion (hashPayload runtime payload) =
      .ok signature) : runtime.verify walletId (payloadDigest runtime payload) signature = true := by
  obtain ⟨-, h⟩ := throwIf_bind_eq_ok.mp h
  obtain ⟨text, -, h⟩ := bind_eq_ok.mp h
  obtain ⟨message, hmessage, h⟩ := bind_eq_ok.mp h
  obtain ⟨bytes, -, h⟩ := bind_eq_ok.mp h
  obtain ⟨hverify, h⟩ := throwIf_bind_eq_ok.mp h
  cases pure_eq_ok.mp h
  rw [readHexBytes_hashPayload runtime hmessage] at hverify
  exact Bool.not_eq_false _ ▸ hverify

theorem checkVerifiable_inv {userId : String} {dto : VerifyFinancialAuthorizationDto} {now : Int}
    {r : FinancialAuthorization} (h : checkVerifiable s userId dto now = .ok r) : r ∈ s.authorizations := by
  obtain ⟨a, hfind, h⟩ := orThrow_bind_eq_ok.mp h
  obtain ⟨-, h⟩ := throwIf_bind_eq_ok.mp h
  obtain ⟨-, h⟩ := throwIf_bind_eq_ok.mp h
  obtain ⟨-, h⟩ := throwIf_bind_eq_ok.mp h
  rw [← pure_eq_ok.mp h]
  exact Table.mem_of_find (Option.filter_eq_some_iff.mp hfind).1

theorem Prepared.of_prepare (hs : s.Sound runtime) {request : AuthorizationRequest}
    (h : prepare runtime stellarNetwork s drawn request = .ok w) : Prepared runtime s w := by
  cases request with
  | createChallenge userId dto user =>
    obtain ⟨walletId, -, h⟩ := bind_eq_ok.mp h
    rw [← pure_eq_ok.mp h]
    rfl
  | verify userId dto wallet =>
    obtain ⟨r, hcheck, h⟩ := bind_eq_ok.mp h
    obtain ⟨signature, hsignature, h⟩ := bind_eq_ok.mp h
    have hr := checkVerifiable_inv hcheck
    rw [(hs.rows r hr).payloadHash] at hsignature
    rw [← pure_eq_ok.mp h]
    exact ⟨r, hr, rfl, (hs.rows r hr).walletId ▸ verifyPrivyRawHashSignature_inv hsignature⟩
  | consume input =>
    obtain ⟨r, -, h⟩ := bind_eq_ok.mp h
    rw [← pure_eq_ok.mp h]
    trivial

theorem AuthorizationStore.Sound.apply (hs : s.Sound runtime) (hsha : Function.Injective runtime.sha256)
    (drawn : Drawn) (hw : Prepared runtime s w) :
    (w.apply runtime drawn s).Sound runtime ∧ Grows s (w.apply runtime drawn s) := by
  cases w with
  | create payload expiresAt => exact hs.create hw
  | setVerified id assertion signature => exact hs.setVerified hw
  | setConsumed input => exact hs.setConsumed hsha drawn.now

end Calls

theorem authorizations_outline (runtime : Runtime) (hsha : Function.Injective runtime.sha256)
    (stellarNetwork : Option String) :
    Outline (financialAuthorizations runtime stellarNetwork) (fun _ _ => True) (fun _ _ _ => True)
      (AuthorizationStore.Sound runtime) (Prepared runtime) Grows where
  start call s hs _ := by
    refine ⟨hs, .refl, fun w hw => ?_⟩
    cases h : prepare runtime stellarNetwork s call.2 call.1 with
    | error e =>
      simp only [financialAuthorizations, h, Except.toOption, Option.mem_def, reduceCtorEq] at hw
    | ok w' =>
      simp only [financialAuthorizations, h, Except.toOption, Option.mem_def, Option.some.injEq] at hw
      exact hw ▸ Prepared.of_prepare hs h
  resume w drawn s hs hw _ := by
    obtain ⟨hsound, hgrows⟩ := hs.apply hsha drawn hw
    exact ⟨hsound, hgrows, fun w' hw' => nomatch hw'⟩
  stable s s' w hgrows hw := hw.grows hgrows

theorem AuthorizationStore.Sound.empty (runtime : Runtime) : AuthorizationStore.empty.Sound runtime :=
  ⟨.nil, List.forall_mem_nil _, fun _ _ _ _ h => absurd h List.not_mem_nil, trivial⟩

/-- In every state of every run, each consumption is the only one of its authorization, and justified by what went
    before. -/
theorem authorization_consumed_once (runtime : Runtime) (hsha : Function.Injective runtime.sha256)
    (stellarNetwork : Option String) (ops : List (Op (AuthorizationRequest × Drawn) Drawn)) :
    Throughout (financialAuthorizations runtime stellarNetwork).step
      (fun c => Journal.Sound (Justified runtime) c.shared.journal) ⟨.empty, []⟩ ops := by
  have hholds : Holds (AuthorizationStore.Sound runtime) (Prepared runtime) ⟨.empty, []⟩ :=
    ⟨.empty runtime, List.forall_mem_nil _⟩
  have houtline := authorizations_outline runtime hsha stellarNetwork
  exact (houtline.throughout hholds (along_allows (fun _ _ => trivial) (fun _ _ _ => trivial) _ ops)).mono
    fun _ hc => hc.1.journal

section Examples

def investorWallet : String := "GAB2CB576PHBBPQ5ODORRZ2LYCMWPZGWGCN2KDK7DXOIMZASKUY3QZ6Q"

def purchaseDto : CreateFinancialAuthorizationChallengeDto := ⟨.investmentPurchase, some "rec-1", some "970.00", none⟩

def purchaseInput : FinancialAuthorizationConsumption :=
  ⟨"auth-1", "user-1", .investmentPurchase, some "rec-1", some "970.00", none⟩

def purchasePayload : FinancialAuthorizationPayload where
  domain := FINANCIAL_AUTH_DOMAIN
  version := FINANCIAL_AUTH_VERSION
  network := "testnet"
  operation := .investmentPurchase
  userId := "user-1"
  walletId := investorWallet
  resourceId := some "rec-1"
  amount := some "970.00"
  destination := none
  nonce := "7f3a1c9e-5d2b-4e8a-9c61-0b4d8f2e6a17"
  expiresAt := "1970-01-01T00:05:00.000Z"

def purchaseHash : String := "a28484ae30f623a2efd3dd926885bd000a2cb4808057312c7f0977725385207c"

def purchaseSignature : String :=
  "ea2ab623d78a1a3bbbadf04de96ba07ea4a44ab07de2f075d6fe0541984c01d1" ++
    "e0236e09160069285046344e249624d2d5341b8f4932fe47c34fa40f3132bb0e"

/-- A runtime that knows this digest, this signature and this date; other texts are their own digests, longer than a
    real one. -/
def purchaseRuntime : Runtime where
  sha256 message :=
    if message = Utf.encodeChars (JsonText.stringify purchasePayload.properties) then Hex.decode purchaseHash.toList
    else message ++ List.replicate 33 0
  verify address message signature :=
    decide (address = investorWallet ∧ message = Hex.decode purchaseHash.toList ∧
      signature = Hex.decode purchaseSignature.toList)
  toISOString t := if t = 300000 then "1970-01-01T00:05:00.000Z" else ""

theorem purchaseRuntime_sha256_injective : Function.Injective purchaseRuntime.sha256 := by
  have hlength : (Hex.decode purchaseHash.toList).length = 32 := by decide +kernel
  have hne : ∀ m : List UInt8, Hex.decode purchaseHash.toList ≠ m ++ List.replicate 33 0 := fun m h => by
    have hl := congrArg List.length h
    rw [hlength, List.length_append, List.length_replicate] at hl
    omega
  intro m m' h
  simp only [purchaseRuntime] at h
  split at h <;> split at h
  · next hm hm' => exact hm.trans hm'.symm
  · exact absurd h (hne m')
  · exact absurd h.symm (hne m)
  · exact List.append_cancel_right h

def purchaseRun : List (Op (AuthorizationRequest × Drawn) Drawn) :=
  [.start (.createChallenge "user-1" purchaseDto (some ⟨some investorWallet, some "ready"⟩),
      ⟨0, "7f3a1c9e-5d2b-4e8a-9c61-0b4d8f2e6a17"⟩),
    .resume 0 ⟨1, "auth-1"⟩,
    .start (.verify "user-1" ⟨"auth-1", purchaseHash, .object [("type", .string "privy_raw_hash"),
      ("address", .string investorWallet), ("signature", .string ("0x" ++ purchaseSignature))]⟩ (some investorWallet),
      ⟨2, ""⟩),
    .resume 0 ⟨3, ""⟩, .start (.consume purchaseInput, ⟨4, ""⟩), .start (.consume purchaseInput, ⟨5, ""⟩),
    .resume 0 ⟨6, ""⟩, .resume 0 ⟨7, ""⟩]

theorem authorization_consumed_once_purchase :
    Throughout (financialAuthorizations purchaseRuntime none).step
      (fun c => Journal.Sound (Justified purchaseRuntime) c.shared.journal) ⟨.empty, []⟩ purchaseRun :=
  authorization_consumed_once purchaseRuntime purchaseRuntime_sha256_injective none purchaseRun

end Examples
end CredBridge.Api
