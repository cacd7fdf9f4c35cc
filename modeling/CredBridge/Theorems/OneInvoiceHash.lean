import CredBridge.Api.InvoiceHash
import CredBridge.Lib.Machine

/-! # One invoice, one hash

The hashes that one receivable is tokenized, bought and settled with, after any uploads before each of the three. The
first two agree as long as the last invoice document stays the same; the third is made of the identifier, whose digits
end after four bytes. -/

namespace CredBridge.Api
open Machine Result

/-- A receivable after an upload. -/
def Receivable.upload (r : Receivable) (data : CreateDocumentDto) : Receivable :=
  if data.type = .invoice ∧ r.id = data.receivableId then { r with documentHash := some data.hash } else r

def Receivable.uploads (r : Receivable) (datas : List CreateDocumentDto) : Receivable := datas.foldl upload r

section Uploads
variable {r : Receivable} {db : DocumentsDb} {receivableId : String}

theorem upload_id (data : CreateDocumentDto) : (r.upload data).id = r.id := by
  unfold Receivable.upload
  split <;> rfl

theorem uploads_id (datas : List CreateDocumentDto) : (r.uploads datas).id = r.id := by
  induction datas generalizing r with
  | nil => rfl
  | cons data datas ih => exact ih.trans (upload_id data)

/-- An upload to the database is one to each of its receivables. -/
theorem find_createDocument (data : CreateDocumentDto) :
    Table.find Receivable.id receivableId (next createDocument db data).receivables =
      (Table.find Receivable.id receivableId db.receivables).map (·.upload data) := by
  cases hfind : Table.find Receivable.id data.receivableId db.receivables with
  | none =>
    have hrefused : createDocument db data = .error (.error "Foreign key constraint violated") := by
      unfold createDocument
      rw [hfind]
      rfl
    rw [next_of_error hrefused]
    cases hid : Table.find Receivable.id receivableId db.receivables with
    | none => rfl
    | some r =>
      have hne : r.id ≠ data.receivableId := fun he => by
        rw [← he, Table.key_of_find hid, hid] at hfind
        cases hfind
      rw [Option.map_some, Receivable.upload, if_neg fun h => hne h.2]
  | some r₀ =>
    have hcreated : (next createDocument db data).receivables =
        if data.type = .invoice then
          Table.modify Receivable.id data.receivableId (fun r => { r with documentHash := some data.hash })
            db.receivables
        else db.receivables := by
      unfold next createDocument
      rw [hfind]
      rfl
    rw [hcreated]
    split
    · next htype =>
      rw [Table.find_modify (g := fun r : Receivable => { r with documentHash := some data.hash }) fun r (h : r.id = _) => h]
      congr 1
      funext r
      simp only [Receivable.upload, htype, true_and]
    · next htype =>
      cases Table.find Receivable.id receivableId db.receivables with
      | none => rfl
      | some r => rw [Option.map_some, Receivable.upload, if_neg fun h => htype h.1]

theorem find_uploads (datas : List CreateDocumentDto) :
    Table.find Receivable.id receivableId (run createDocument db datas).receivables =
      (Table.find Receivable.id receivableId db.receivables).map (·.uploads datas) := by
  induction datas generalizing db with
  | nil => exact Option.map_id'.symm
  | cons data datas ih =>
    show Table.find Receivable.id receivableId (run createDocument (next createDocument db data) datas).receivables = _
    rw [ih, find_createDocument, Option.map_map]
    rfl

end Uploads

/-- The hashes that the API passes for a receivable. -/
structure InvoiceHashes where
  tokenized : List UInt8
  bought : List UInt8
  settled : List UInt8

/-- A receivable is tokenized, bought and settled, each after some uploads. -/
def invoiceHashes (env : TokenizationEnv) (r : Receivable) (untilTokenized untilBought untilSettled : List CreateDocumentDto) :
    InvoiceHashes where
  tokenized := tokenizedHash env (r.uploads untilTokenized)
  bought := boughtHash ((r.uploads untilTokenized).uploads untilBought)
  settled := settledHash (((r.uploads untilTokenized).uploads untilBought).uploads untilSettled)

/-- The three are one value of 32 bytes. -/
def InvoiceHashes.One (hashes : InvoiceHashes) : Prop :=
  hashes.tokenized = hashes.bought ∧ hashes.bought = hashes.settled ∧ hashes.settled.length = 32

section Hashes
variable {env : TokenizationEnv} {r : Receivable}

theorem settledHash_length (id : Uuid) (hid : r.id = id.text) : (settledHash r).length = 4 := by
  unfold settledHash
  rw [hid]
  exact length_toBytes32_uuid id

/-- With an invoice document, tokenization and purchase derive the same hash from it. -/
theorem tokenizedHash_eq_boughtHash {hash : String} (hdocument : r.documentHash = some hash) (hne : hash ≠ "") :
    tokenizedHash env r = boughtHash r := by
  unfold tokenizedHash xmlHashBytes tokenizeInput boughtHash
  rw [hdocument, Option.filter_some, if_pos (decide_eq_true hne)]
  rfl

/-- Without one, tokenization derives a hash from the identifier, and every purchase is made with zeros. -/
theorem hashes_without_invoice (hdocument : r.documentHash = none) :
    tokenizedHash env r = env.sha256 r.id ∧ boughtHash r = List.replicate 32 0 := by
  unfold tokenizedHash xmlHashBytes tokenizeInput boughtHash
  rw [hdocument]
  exact ⟨rfl, by decide⟩

end Hashes

/-- No receivable with a UUID has one hash, whatever is uploaded when. -/
theorem never_one_hash (env : TokenizationEnv) (id : Uuid) (r : Receivable)
    (untilTokenized untilBought untilSettled : List CreateDocumentDto) :
    ¬(invoiceHashes env { r with id := id.text } untilTokenized untilBought untilSettled).One := by
  rintro ⟨-, -, hlength⟩
  have hshort := settledHash_length id
    (r := (({ r with id := id.text }.uploads untilTokenized).uploads untilBought).uploads untilSettled)
    (by rw [uploads_id, uploads_id, uploads_id])
  exact absurd (hshort.symm.trans hlength) (by decide)

section Examples

def testTokenization : TokenizationEnv where
  configured := true
  poolContractConfigured := true
  platformAddress := .account 0
  address _ := .account 1
  fromXDR _ := none
  verify _ _ _ := false
  stroops amount := (amount * 10000000 + 1 / 2).floor
  sha256 text :=
    if text = "123e4567-e89b-12d3-a456-426614174000" then
      [152, 108, 13, 201, 86, 220, 130, 43, 93, 143, 105, 134, 97, 185, 235, 30, 248, 128, 120, 111, 249, 4, 60, 22,
        116, 77, 42, 66, 14, 153, 233, 187]
    else
      [93, 150, 43, 204, 87, 115, 67, 239, 240, 144, 145, 249, 2, 202, 82, 209, 37, 236, 170, 184, 243, 254, 60, 210,
        233, 34, 39, 221, 145, 107, 225, 211]
  centavos amount := (amount * 100 + 1 / 2).floor
  u64 n := if 0 ≤ n ∧ n < 2 ^ 64 then .ok n.toNat else .error (.error "u64")

def validatedReceivable (id : String) : Receivable :=
  ⟨id, "pme", 1000, .validated, "debtor", "12345678000195", none, 1798761600000⟩

/-- Without a document, the first of two receivables has three hashes, and it shares those of its purchase and of its
    settlement with the second. -/
theorem three_hashes_for_one :
    ¬(invoiceHashes testTokenization (validatedReceivable "123e4567-e89b-12d3-a456-426614174000") [] [] []).One ∧
      boughtHash (validatedReceivable "123e4567-e89b-12d3-a456-426614174000") =
        boughtHash (validatedReceivable "123e4567-e89b-42d3-a456-556642440000") ∧
      settledHash (validatedReceivable "123e4567-e89b-12d3-a456-426614174000") =
        settledHash (validatedReceivable "123e4567-e89b-42d3-a456-556642440000") ∧
      settledHash (validatedReceivable "123e4567-e89b-12d3-a456-426614174000") = [0x12, 0x3e, 0x45, 0x67] :=
  ⟨fun h => absurd h.2.2 (by decide +kernel), by decide +kernel, by decide +kernel, by decide +kernel⟩

end Examples
end CredBridge.Api
