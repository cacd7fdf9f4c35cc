import CredBridge.Api.PixCallbacks
import CredBridge.Lib.Uuid

/-! # The hash of an invoice

A receivable is tokenized, bought by the pool and settled in the pool, each with a hash that is derived anew from its row:
from the hash of its last invoice document, which may be uploaded at any time, or from its identifier. -/

namespace CredBridge.Api
open Contracts Machine Result

/-! ### Documents -/

inductive DocumentType where
  | invoice
  | contract
  | duplicate
  | kyc
deriving DecidableEq, Repr

structure CreateDocumentDto where
  receivableId : String
  type : DocumentType
  url : String
  hash : String
deriving DecidableEq

structure DocumentsDb where
  documents : List CreateDocumentDto
  receivables : List Receivable

/-- A document is one of a receivable that exists; an invoice leaves its hash with the receivable. -/
def createDocument (db : DocumentsDb) (data : CreateDocumentDto) : Except ApiError DocumentsDb := do
  let _ ← orThrow (Table.find Receivable.id data.receivableId db.receivables) (.error "Foreign key constraint violated")
  pure
    { documents := db.documents ++ [data]
      receivables :=
        if data.type = .invoice then
          Table.modify Receivable.id data.receivableId ({ · with documentHash := some data.hash }) db.receivables
        else db.receivables }

/-! ### Tokenization -/

structure TokenizeNfeInput where
  key : String
  value : Rat
  dueDate : Int
  xmlHash : Option String
  ownerUserId : String

structure TokenizationEnv extends AssignmentEnv where
  sha256 : String → List UInt8
  centavos : Rat → Int
  /-- A number as an argument of type `u64`. -/
  u64 : Int → Except ApiError Nat

section Hashes
variable (env : TokenizationEnv)

def xmlHashBytes (data : TokenizeNfeInput) : List UInt8 :=
  match data.xmlHash.filter (· ≠ "") with
  | some xmlHash => toBytes32 xmlHash
  | none => env.sha256 data.key

/-- `tokenizeNfe`, up to where the transaction is simulated. -/
def tokenizeNfe (users : String → Option UserWallets) (data : TokenizeNfeInput) : Except ApiError LedgerCalls := do
  requireAssignmentConfig env.toAssignmentEnv
  let pmeAddress ← orThrow ((users data.ownerUserId).bind (·.address))
    (.conflict ("PME " ++ data.ownerUserId ++ " has no Stellar wallet — cannot tokenize"))
  let dueDateUnix ← env.u64 (data.dueDate.fdiv 1000)
  let xmlHash ← orThrow (bytesN32 (xmlHashBytes env data)) (.error "Soroban simulation failed [tokenize_nfe]")
  pure
    { calls := [.nfe (.tokenizeNfe data.key (env.centavos data.value) dueDateUnix xmlHash (env.address pmeAddress)
        env.platformAddress)]
      auth := fun a => a = env.platformAddress }

def tokenizeInput (r : Receivable) : TokenizeNfeInput := ⟨r.id, r.value, r.dueDate, r.documentHash, r.userId⟩

/-! The bytes that the three calls are made with -/

def tokenizedHash (r : Receivable) : List UInt8 := xmlHashBytes env (tokenizeInput r)

def boughtHash (r : Receivable) : List UInt8 := toBytes32 (r.documentHash.getD "00000000000000000000000000000000")

def settledHash (r : Receivable) : List UInt8 := toBytes32 r.id

end Hashes

section Calls
variable {env : TokenizationEnv} {r : Receivable} {tx : LedgerCalls}

theorem tokenizeNfe_hash {users : String → Option UserWallets} (h : tokenizeNfe env users (tokenizeInput r) = .ok tx) :
    ∃ hash value dueDate owner, bytesN32 (tokenizedHash env r) = some hash ∧
      tx.calls = [.nfe (.tokenizeNfe r.id value dueDate hash owner env.platformAddress)] := by
  obtain ⟨_, -, h⟩ := bind_eq_ok.mp h
  obtain ⟨pmeAddress, -, h⟩ := orThrow_bind_eq_ok.mp h
  obtain ⟨dueDateUnix, -, h⟩ := bind_eq_ok.mp h
  obtain ⟨hash, hhash, h⟩ := orThrow_bind_eq_ok.mp h
  cases pure_eq_ok.mp h
  exact ⟨hash, _, _, _, hhash, rfl⟩

theorem purchaseCalls_hash {env : AssignmentEnv} {p : CheckedAssignment} (h : purchaseCalls env p = .ok tx) :
    ∃ hash seller value, bytesN32 (boughtHash p.receivable) = some hash ∧
      tx.calls = [.pool (.buyTokenizedInvoice env.platformAddress seller hash value value 100 1800000000)] := by
  obtain ⟨_, -, h⟩ := bind_eq_ok.mp h
  obtain ⟨-, h⟩ := throwIf_bind_eq_ok.mp h
  obtain ⟨hash, hhash, h⟩ := orThrow_bind_eq_ok.mp h
  cases pure_eq_ok.mp h
  exact ⟨hash, _, _, hhash, rfl⟩

theorem settleInvoiceInPool_hash {σ : Type} {env : PixEnv σ}
    (h : settleInvoiceInPool env r.id r.value = .ok (some tx)) :
    ∃ hash, bytesN32 (settledHash r) = some hash ∧
      tx.calls = [.pool (.settleInvoiceInPool env.platformAddress hash (env.stroops r.value))] := by
  unfold settleInvoiceInPool at h
  split at h
  · cases h
  · obtain ⟨hash, hhash, h⟩ := orThrow_bind_eq_ok.mp h
    cases pure_eq_ok.mp h
    exact ⟨hash, hhash, rfl⟩

end Calls

/-! ### What the bytes are -/

theorem dropHexMark_of_digits {digits : List Char} {rest : List Nat} (hdigits : HexGroup 8 digits) :
    dropHexMark (digits.map Char.toNat ++ rest) = digits.map Char.toNat ++ rest := by
  obtain ⟨hlength, hall⟩ := hdigits
  obtain _ | ⟨c, _ | ⟨x, digits⟩⟩ := digits
  · cases hlength
  · cases hlength
  · have hx : x.toNat ≠ 'x'.toNat := fun heq => by
      obtain rfl := Char.toNat_inj.mp heq
      exact absurd (hall 'x' (List.mem_cons_of_mem _ List.mem_cons_self)) (by decide)
    unfold dropHexMark
    split
    · next heq =>
      simp only [List.map_cons, List.cons_append, List.cons.injEq] at heq
      exact absurd heq.2.1 hx
    · rfl

/-- The digits of an identifier end at its first dash. -/
theorem length_toBytes32_uuid (id : Uuid) : (toBytes32 id.text).length = 4 := by
  obtain ⟨digits, rest, htext, hdigits⟩ := id.dash
  have hascii : ∀ c ∈ digits, c.toNat < 128 := fun c hc => Hex.toNat_lt_of_isDigit (hdigits.2 c hc)
  have hunits : Utf.utf16 id.text.toList = digits.map Char.toNat ++ '-'.toNat :: Utf.utf16 rest := by
    rw [htext, Utf.utf16_append, Utf.utf16_of_ascii hascii]
    rfl
  have hlow : (digits.map Char.toNat).map Hex.lowByte = digits := by
    rw [List.map_map]
    exact (List.map_congr_left fun c hc => Hex.lowByte_toNat (hascii c hc)).trans (List.map_id digits)
  have htake : ∀ pad : List Nat, ((digits.map Char.toNat ++ '-'.toNat :: Utf.utf16 rest) ++ pad).take 64 =
      digits.map Char.toNat ++ '-'.toNat :: (Utf.utf16 rest ++ pad).take 55 := by
    intro pad
    rw [List.append_assoc, List.take_append, List.take_of_length_le (by rw [List.length_map, hdigits.1]; decide),
      List.length_map, hdigits.1]
    rfl
  unfold toBytes32
  rw [if_neg id.text_ne_empty, hunits, dropHexMark_of_digits hdigits]
  show (Hex.decodeUnits (List.take 64 _)).length = 4
  rw [htake, Hex.decodeUnits, List.map_append, hlow]
  exact Hex.length_decodeWhile hdigits.1 hdigits.2 (by decide) _

theorem bytesN32_uuid (id : Uuid) : bytesN32 (toBytes32 id.text) = none := by
  unfold bytesN32
  rw [dif_neg]
  rw [List.size_toArray, length_toBytes32_uuid]
  decide

end CredBridge.Api
