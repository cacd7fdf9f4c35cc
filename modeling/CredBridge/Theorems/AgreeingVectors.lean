import CredBridge.Api.ContractVectors

/-! # Vectors and signatures

An invocation agrees with its intent if the contract's host takes its vector as the call that was meant, with the values
that were meant. All vectors of the API do but those of three kinds: a transfer of ownership with a third argument, which
the function does not have; a hash that is made of a text which is not read as hexadecimal digits; and an integer that its
kind does not have. -/

namespace CredBridge.Api
open Abi Contracts Result

/-- What an invocation is meant to call, and with which values. -/
inductive Intent where
  | tokenizeNfe (key : String) (value dueDate : Int) (xmlHash : List UInt8) (owner platformAuth : Address)
  | transferOwnership (key : String) (newOwner : Address)
  | buyTokenizedInvoice (operator seller : Address) (invoiceHash : List UInt8)
      (faceValue advanceAmount rateBps maturityTimestamp : Int)
  | settleInvoiceInPool (operator : Address) (invoiceHash : List UInt8) (principalToReduce : Int)
  | deposit (investor : Address) (amount : Int)
  | withdraw (investor : Address) (sharesToBurn : Int)
  | mint (admin receiver : Address) (amount : Int)
  | burn (holder : Address) (amount : Int)
  | approve (owner spender : Address) (amount liveUntilLedger : Int)

/-- What a call does, with its values as they are. -/
def intentOf : TypedCall → Intent
  | .tokenizeNfe key value dueDate xmlHash owner platformAuth =>
    .tokenizeNfe key value dueDate.1 xmlHash.toList owner platformAuth
  | .transferOwnership key newOwner => .transferOwnership key newOwner
  | .buyTokenizedInvoice operator seller invoiceHash faceValue advanceAmount rateBps maturityTimestamp =>
    .buyTokenizedInvoice operator seller invoiceHash.toList faceValue advanceAmount rateBps maturityTimestamp.1
  | .settleInvoiceInPool operator invoiceHash principalToReduce =>
    .settleInvoiceInPool operator invoiceHash.toList principalToReduce
  | .deposit investor amount => .deposit investor amount
  | .withdraw investor sharesToBurn => .withdraw investor sharesToBurn
  | .mint admin receiver amount => .mint admin receiver amount
  | .burn holder amount => .burn holder amount
  | .approve owner spender amount liveUntilLedger => .approve owner spender amount liveUntilLedger.1

/-- What a place means to call. Amounts are in the smallest unit, the due date in seconds. -/
def CallSite.intent (env : VectorEnv) : CallSite → Intent
  | .tokenizeNfe pmeAddress data =>
    .tokenizeNfe data.key (env.centavos data.value) (data.dueDate.fdiv 1000) (xmlHashBytes env.toTokenizationEnv data)
      (env.address pmeAddress) env.platformAddress
  | .transferNftToPlatform receivableKey | .prepareAssignment receivableKey =>
    .transferOwnership receivableKey env.platformAddress
  | .transferNftToInvestor receivableKey investorAddress => .transferOwnership receivableKey (env.address investorAddress)
  | .settleInvoiceInPool invoiceHash advanceAmountBrl =>
    .settleInvoiceInPool env.platformAddress (toBytes32 invoiceHash) (env.stroops advanceAmountBrl)
  | .buyTokenizedInvoiceInPool sellerAddress xmlHash value =>
    .buyTokenizedInvoice env.platformAddress (env.address sellerAddress) (toBytes32 xmlHash) (env.stroops value)
      (env.stroops value) 100 1800000000
  | .mintBrlt toAddress amount | .depositToPoolMint toAddress amount =>
    .mint env.platformAddress (env.address toAddress) (env.stroops amount)
  | .depositToPoolApprove investorAddress amountBrl latestLedger | .buildApproveTx investorAddress amountBrl latestLedger =>
    .approve (env.address investorAddress) (env.address (env.poolContractId.getD "")) (env.stroops amountBrl)
      (liveUntilLedger latestLedger)
  | .depositToPoolDeposit investorAddress amountBrl | .buildDepositTx investorAddress amountBrl =>
    .deposit (env.address investorAddress) (env.stroops amountBrl)
  | .withdrawFromPool investorAddress shareAmount => .withdraw (env.address investorAddress) (env.stroops shareAmount)
  | .buildBurnBrltTx userAddress amountBrl => .burn (env.address userAddress) (env.stroops amountBrl)

/-- The host takes the vector as a call that does what was meant. -/
def Agrees (v : VectorCall) (intent : Intent) : Prop := ∃ call, v.dispatch = some call ∧ intentOf call = intent

/-- The first 64 UTF-16 units are read as hexadecimal digits, after a mark if there is one. -/
def isHexDigest (text : String) : Bool :=
  ((dropHexMark (Utf.utf16 text.toList)).take 64).all fun unit => Hex.isDigit (Hex.lowByte unit)

/-- Each letter has 0x30, the byte of the digit 0, as the low byte of its one unit. -/
example : toBytes32 (String.ofList (List.replicate 64 'İ')) = List.replicate 32 0 := by decide +kernel

/-- The text that the place makes a hash of. -/
def CallSite.hashText : CallSite → Option String
  | .tokenizeNfe _ data => data.xmlHash.filter (· ≠ "")
  | .settleInvoiceInPool hash _ | .buyTokenizedInvoiceInPool _ hash _ => some hash
  | .transferNftToPlatform _ | .transferNftToInvestor .. | .prepareAssignment _ | .mintBrlt .. | .depositToPoolMint ..
  | .depositToPoolApprove .. | .depositToPoolDeposit .. | .withdrawFromPool .. | .buildApproveTx .. | .buildDepositTx ..
  | .buildBurnBrltTx .. => none

/-- The integers of the input, with the kinds that they are to be of. -/
def CallSite.ints (env : VectorEnv) : CallSite → List (Ty × Int)
  | .tokenizeNfe _ data => [(.i128, env.centavos data.value), (.u64, data.dueDate.fdiv 1000)]
  | .transferNftToPlatform _ | .transferNftToInvestor .. | .prepareAssignment _ => []
  | .settleInvoiceInPool _ amount | .buyTokenizedInvoiceInPool _ _ amount | .mintBrlt _ amount | .depositToPoolMint _ amount
  | .depositToPoolDeposit _ amount | .withdrawFromPool _ amount | .buildDepositTx _ amount | .buildBurnBrltTx _ amount =>
    [(.i128, env.stroops amount)]
  | .depositToPoolApprove _ amount latestLedger | .buildApproveTx _ amount latestLedger =>
    [(.i128, env.stroops amount), (.u32, liveUntilLedger latestLedger)]

def CallSite.addsPlatform : CallSite → Bool
  | .transferNftToPlatform _ | .transferNftToInvestor .. => true
  | _ => false

/-- The place makes no transfer of ownership with a third argument, a hash of what is read as hexadecimal digits only, and
    integers that their kinds have. -/
structure CallSite.Conforms (env : VectorEnv) (site : CallSite) : Prop where
  arity : site.addsPlatform = false
  hash : ∀ text ∈ site.hashText, isHexDigest text = true
  ints : ∀ p ∈ site.ints env, p.1.InRange p.2

/-! ### Hashes -/

section Hashes
variable {env : VectorEnv}

theorem length_toBytes32_iff {text : String} : (toBytes32 text).length = 32 ↔ isHexDigest text = true := by
  unfold toBytes32 isHexDigest
  split
  · next hempty =>
    subst hempty
    exact iff_of_true rfl rfl
  · generalize dropHexMark (Utf.utf16 text.toList) = clean
    have hlength : (((clean ++ List.replicate (64 - clean.length) 0x30).take 64).map Hex.lowByte).length = 2 * 32 := by
      rw [List.length_map, List.length_take, List.length_append, List.length_replicate]
      omega
    have hpad : ((List.replicate (64 - clean.length) 0x30).map Hex.lowByte).all Hex.isDigit = true := by
      rw [List.map_replicate, List.all_replicate]
      split <;> rfl
    have hall : (((clean ++ List.replicate (64 - clean.length) 0x30).take 64).map Hex.lowByte).all Hex.isDigit =
        (clean.take 64).all fun unit => Hex.isDigit (Hex.lowByte unit) := by
      rw [List.take_append, List.map_append, List.all_append, List.take_replicate, Nat.min_self, hpad, Bool.and_true,
        List.all_map]
      rfl
    rw [Hex.decodeUnits, Hex.length_decodeWhile_iff hlength, hall]

theorem length_xmlHashBytes_iff (hsha256 : ∀ text, (env.sha256 text).length = 32) {data : TokenizeNfeInput} :
    (xmlHashBytes env.toTokenizationEnv data).length = 32 ↔
      ∀ xmlHash ∈ data.xmlHash.filter (· ≠ ""), isHexDigest xmlHash = true := by
  unfold xmlHashBytes
  cases data.xmlHash.filter (· ≠ "") with
  | none => exact iff_of_true (hsha256 data.key) nofun
  | some xmlHash =>
    rw [length_toBytes32_iff]
    exact ⟨fun h _ hmem => Option.some.inj hmem ▸ h, fun h => h xmlHash rfl⟩

/-- A vector that is that of a call agrees with what the call does, and with nothing else. -/
theorem agrees_vector_iff {call : TypedCall} {intent : Intent} : Agrees call.vector intent ↔ intentOf call = intent := by
  constructor
  · rintro ⟨call', hcall, hintent⟩
    rw [dispatch_vector] at hcall
    exact Option.some.inj hcall ▸ hintent
  · exact fun h => ⟨call, dispatch_vector call, h⟩

theorem bytesN32_eq_some {bytes : List UInt8} {hash : BytesN 32} : bytesN32 bytes = some hash ↔ hash.toList = bytes := by
  unfold bytesN32
  constructor
  · intro h
    obtain ⟨hsize, hhash⟩ := Option.dite_none_right_eq_some.mp h
    obtain rfl := Option.some.inj hhash
    rfl
  · rintro rfl
    exact dif_pos hash.size_toArray

theorem bytesN32_isSome {bytes : List UInt8} : (∃ hash, bytesN32 bytes = some hash) ↔ bytes.length = 32 := by
  constructor
  · rintro ⟨hash, hhash⟩
    rw [← bytesN32_eq_some.mp hhash, Vector.length_toList]
  · intro hlength
    exact ⟨_, dif_pos (by rw [List.size_toArray, hlength])⟩

/-- A call with a hash agrees with its intent exactly if the hash has its bytes, and the rest is as it was meant. -/
theorem agrees_iff_of_hash {v : VectorCall} {intent : Intent} {bytes : List UInt8} {call : BytesN 32 → TypedCall} {P : Prop}
    (hv : v.dispatch = (bytesN32 bytes).map call)
    (hintent : ∀ hash, hash.toList = bytes → (intentOf (call hash) = intent ↔ P)) :
    Agrees v intent ↔ bytes.length = 32 ∧ P := by
  rw [← bytesN32_isSome]
  constructor
  · rintro ⟨_, hcall, hmeant⟩
    obtain ⟨hash, hhash, rfl⟩ := Option.map_eq_some_iff.mp (hv.symm.trans hcall)
    exact ⟨⟨hash, hhash⟩, (hintent hash (bytesN32_eq_some.mp hhash)).mp hmeant⟩
  · rintro ⟨⟨hash, hhash⟩, hP⟩
    exact ⟨call hash, by rw [hv, hhash, Option.map_some], (hintent hash (bytesN32_eq_some.mp hhash)).mpr hP⟩

end Hashes

section Agreement
variable {env : VectorEnv} {v : VectorCall} {site : CallSite}

theorem inRange_pair {t t' : Ty} {n n' : Int} :
    (∀ p ∈ [(t, n), (t', n')], Ty.InRange p.2 p.1) ↔ t.InRange n ∧ t'.InRange n' := by
  rw [List.forall_mem_cons, List.forall_mem_singleton]

theorem isHexDigest_some {text : String} : (∀ t ∈ some text, isHexDigest t = true) ↔ isHexDigest text = true :=
  ⟨fun h => h text rfl, fun h _ ht => Option.some.inj ht ▸ h⟩

/-- A place that makes no hash of a text conforms exactly if its integers are in range. -/
theorem conforms_iff_ints (harity : site.addsPlatform = false) (hhash : site.hashText = none) :
    site.Conforms env ↔ ∀ p ∈ site.ints env, p.1.InRange p.2 := by
  refine ⟨(·.ints), fun h => ⟨harity, fun text htext => ?_, h⟩⟩
  rw [hhash] at htext
  cases htext

theorem conforms_iff_hash (harity : site.addsPlatform = false) :
    site.Conforms env ↔ (∀ text ∈ site.hashText, isHexDigest text = true) ∧ ∀ p ∈ site.ints env, p.1.InRange p.2 :=
  ⟨fun h => ⟨h.hash, h.ints⟩, fun h => ⟨harity, h.1, h.2⟩⟩

theorem tokenizeNfe_agrees (henv : env.EncodesInts) (hsha256 : ∀ text, (env.sha256 text).length = 32)
    {pmeAddress : String} {data : TokenizeNfeInput} (hv : tokenizeNfeVector env pmeAddress data = .ok v) :
    Agrees v ((CallSite.tokenizeNfe pmeAddress data).intent env) ↔
      (CallSite.tokenizeNfe pmeAddress data).Conforms env := by
  obtain ⟨value, dueDate, hvalue, hdueDate, hdispatch⟩ := tokenizeNfeVector_dispatch henv hv
  rw [conforms_iff_hash rfl, CallSite.hashText, ← length_xmlHashBytes_iff hsha256, CallSite.ints, inRange_pair,
    ← hvalue, ← hdueDate]
  refine agrees_iff_of_hash hdispatch fun hash hhash => ?_
  simp only [intentOf, CallSite.intent, hhash, Intent.tokenizeNfe.injEq, and_true, true_and]

theorem settleInvoiceInPool_agrees (henv : env.EncodesInts) {invoiceHash : String} {amount : Rat}
    (hv : settleInvoiceInPoolVector env invoiceHash amount = .ok v) :
    Agrees v ((CallSite.settleInvoiceInPool invoiceHash amount).intent env) ↔
      (CallSite.settleInvoiceInPool invoiceHash amount).Conforms env := by
  obtain ⟨amount, hamount, hdispatch⟩ := settleInvoiceInPoolVector_dispatch henv hv
  rw [conforms_iff_hash rfl, CallSite.hashText, isHexDigest_some, ← length_toBytes32_iff, CallSite.ints,
    List.forall_mem_singleton, ← hamount]
  refine agrees_iff_of_hash hdispatch fun hash hhash => ?_
  simp only [intentOf, CallSite.intent, hhash, Intent.settleInvoiceInPool.injEq, true_and]

theorem buyTokenizedInvoiceInPool_agrees (henv : env.EncodesInts) {sellerAddress xmlHash : String} {value : Rat}
    (hv : buyTokenizedInvoiceInPoolVector env sellerAddress xmlHash value = .ok v) :
    Agrees v ((CallSite.buyTokenizedInvoiceInPool sellerAddress xmlHash value).intent env) ↔
      (CallSite.buyTokenizedInvoiceInPool sellerAddress xmlHash value).Conforms env := by
  obtain ⟨amount, rate, maturity, hamount, hrate, hmaturity, hdispatch⟩ := buyTokenizedInvoiceInPoolVector_dispatch henv hv
  rw [conforms_iff_hash rfl, CallSite.hashText, isHexDigest_some, ← length_toBytes32_iff, CallSite.ints,
    List.forall_mem_singleton, ← hamount]
  refine agrees_iff_of_hash hdispatch fun hash hhash => ?_
  simp only [intentOf, CallSite.intent, hhash, hrate, hmaturity, Intent.buyTokenizedInvoice.injEq, true_and, and_true,
    and_self]

theorem not_agrees_transferWithPlatform {receivableKey : String} {newOwner : Val Address} {intent : Intent} :
    ¬Agrees (transferWithPlatform env receivableKey newOwner) intent := by
  rintro ⟨call, hcall, -⟩
  rw [transferWithPlatform_dispatch] at hcall
  cases hcall

theorem mintVector_agrees (henv : env.EncodesInts) {toAddress : String} {amount : Rat}
    (hv : mintVector env toAddress amount = .ok v) :
    Agrees v (.mint env.platformAddress (env.address toAddress) (env.stroops amount)) ↔
      Ty.i128.InRange (env.stroops amount) := by
  obtain ⟨c, hc, rfl⟩ := mintVector_inv henv hv
  rw [← hc, agrees_vector_iff]
  simp only [intentOf, Intent.mint.injEq, true_and]

theorem approveVector_agrees (henv : env.EncodesInts) {pool investorAddress : String} {amountBrl : Rat}
    {latestLedger : Option Nat} (hv : approveVector env pool investorAddress amountBrl latestLedger = .ok v) :
    Agrees v (.approve (env.address investorAddress) (env.address pool) (env.stroops amountBrl)
        (liveUntilLedger latestLedger)) ↔
      Ty.i128.InRange (env.stroops amountBrl) ∧ Ty.u32.InRange (liveUntilLedger latestLedger) := by
  obtain ⟨c, ledger, hc, hledger, rfl⟩ := approveVector_inv henv hv
  rw [← hc, ← hledger, agrees_vector_iff]
  simp only [intentOf, Intent.approve.injEq, true_and]

/-- The amount of a holder's call reaches the function that takes a holder and an amount. -/
theorem holderVector_agrees (henv : env.EncodesInts) (call : Address → I128 → TypedCall) {contract : ContractName}
    {method holderAddress : String} {amount : Rat} (hv : holderVector env contract method holderAddress amount = .ok v)
    (hcall : ∀ holder c, (call holder c).vector = ⟨contract, method, [.address holder, .i128 c]⟩)
    {intent : Address → Int → Intent}
    (hintent : ∀ holder c n, intentOf (call holder c) = intent holder n ↔ c.1 = n) :
    Agrees v (intent (env.address holderAddress) (env.stroops amount)) ↔ Ty.i128.InRange (env.stroops amount) := by
  obtain ⟨c, hc, rfl⟩ := holderVector_inv henv hv
  rw [← hc, ← hcall, agrees_vector_iff, hintent]

theorem requirePool_inv {pool : String} (h : requirePool env = .ok pool) : env.poolContractId.getD "" = pool := by
  obtain ⟨hpool, -⟩ := Option.filter_eq_some_iff.mp (orThrow_eq_ok.mp h)
  rw [hpool]
  rfl

/-- A place with one amount, which agrees if the amount is in range. -/
theorem agrees_iff_of_amount {intent : Intent} {n : Int} (h : Agrees v intent ↔ Ty.i128.InRange n)
    (harity : site.addsPlatform = false) (hhash : site.hashText = none) (hints : site.ints env = [(.i128, n)]) :
    Agrees v intent ↔ site.Conforms env := by
  rw [h, conforms_iff_ints harity hhash, hints, List.forall_mem_singleton]

end Agreement

/-- Each invocation that the API builds is taken as it was meant exactly if its place conforms. -/
theorem agrees_iff_conforms (env : VectorEnv) (henv : env.EncodesInts) (hsha256 : ∀ text, (env.sha256 text).length = 32)
    (site : CallSite) (v : VectorCall) (hv : site.vector env = .ok v) :
    Agrees v (site.intent env) ↔ site.Conforms env := by
  cases site with
  | tokenizeNfe pmeAddress data => exact tokenizeNfe_agrees henv hsha256 hv
  | settleInvoiceInPool invoiceHash amount => exact settleInvoiceInPool_agrees henv hv
  | buyTokenizedInvoiceInPool sellerAddress xmlHash value => exact buyTokenizedInvoiceInPool_agrees henv hv
  | transferNftToPlatform receivableKey =>
    obtain ⟨_, -, hv⟩ := bind_eq_ok.mp hv
    cases pure_eq_ok.mp hv
    exact iff_of_false not_agrees_transferWithPlatform fun h => Bool.noConfusion h.arity
  | transferNftToInvestor receivableKey investorAddress =>
    obtain ⟨_, -, hv⟩ := bind_eq_ok.mp hv
    obtain ⟨_, -, hv⟩ := bind_eq_ok.mp hv
    cases pure_eq_ok.mp hv
    exact iff_of_false not_agrees_transferWithPlatform fun h => Bool.noConfusion h.arity
  | prepareAssignment receivableKey =>
    obtain ⟨_, -, hv⟩ := bind_eq_ok.mp hv
    cases pure_eq_ok.mp hv
    have hagrees : Agrees (TypedCall.transferOwnership receivableKey env.platformAddress).vector
        (.transferOwnership receivableKey env.platformAddress) := agrees_vector_iff.mpr rfl
    exact iff_of_true hagrees ((conforms_iff_ints rfl rfl).mpr (List.forall_mem_nil _))
  | mintBrlt toAddress amount =>
    obtain ⟨_, -, hv⟩ := bind_eq_ok.mp hv
    obtain ⟨_, -, hv⟩ := bind_eq_ok.mp hv
    exact agrees_iff_of_amount (mintVector_agrees henv hv) rfl rfl rfl
  | depositToPoolMint investorAddress amountBrl =>
    obtain ⟨_, -, hv⟩ := bind_eq_ok.mp hv
    exact agrees_iff_of_amount (mintVector_agrees henv hv) rfl rfl rfl
  | depositToPoolApprove investorAddress amountBrl latestLedger =>
    obtain ⟨pool, hpool, hv⟩ := bind_eq_ok.mp hv
    obtain ⟨_, hpool, hrest⟩ := bind_eq_ok.mp hpool
    obtain ⟨_, -, hrest⟩ := bind_eq_ok.mp hrest
    obtain ⟨_, -, hrest⟩ := bind_eq_ok.mp hrest
    cases pure_eq_ok.mp hrest
    rw [CallSite.intent, requirePool_inv hpool, approveVector_agrees henv hv, conforms_iff_ints rfl rfl, CallSite.ints,
      inRange_pair]
  | depositToPoolDeposit investorAddress amountBrl =>
    obtain ⟨_, -, hv⟩ := bind_eq_ok.mp hv
    exact agrees_iff_of_amount (holderVector_agrees henv .deposit hv (fun _ _ => rfl) fun _ _ _ => by simp [intentOf]) rfl
      rfl rfl
  | withdrawFromPool investorAddress shareAmount =>
    obtain ⟨_, -, hv⟩ := bind_eq_ok.mp hv
    obtain ⟨_, -, hv⟩ := bind_eq_ok.mp hv
    exact agrees_iff_of_amount (holderVector_agrees henv .withdraw hv (fun _ _ => rfl) fun _ _ _ => by simp [intentOf]) rfl
      rfl rfl
  | buildApproveTx investorAddress amountBrl latestLedger =>
    obtain ⟨pool, hpool, hv⟩ := bind_eq_ok.mp hv
    obtain ⟨_, -, hv⟩ := bind_eq_ok.mp hv
    obtain ⟨_, hvector, hv⟩ := bind_eq_ok.mp hv
    obtain ⟨_, -, hv⟩ := bind_eq_ok.mp hv
    cases pure_eq_ok.mp hv
    rw [CallSite.intent, requirePool_inv hpool, approveVector_agrees henv hvector, conforms_iff_ints rfl rfl, CallSite.ints,
      inRange_pair]
  | buildDepositTx investorAddress amountBrl =>
    obtain ⟨_, -, hv⟩ := bind_eq_ok.mp hv
    obtain ⟨_, hvector, hv⟩ := bind_eq_ok.mp hv
    obtain ⟨_, -, hv⟩ := bind_eq_ok.mp hv
    cases pure_eq_ok.mp hv
    exact agrees_iff_of_amount (holderVector_agrees henv .deposit hvector (fun _ _ => rfl) fun _ _ _ => by simp [intentOf])
      rfl rfl rfl
  | buildBurnBrltTx userAddress amountBrl =>
    obtain ⟨_, -, hv⟩ := bind_eq_ok.mp hv
    obtain ⟨_, hvector, hv⟩ := bind_eq_ok.mp hv
    obtain ⟨_, -, hv⟩ := bind_eq_ok.mp hv
    cases pure_eq_ok.mp hv
    exact agrees_iff_of_amount (holderVector_agrees henv .burn hvector (fun _ _ => rfl) fun _ _ _ => by simp [intentOf])
      rfl rfl rfl

section Examples

/-- Integers wrap around to the range of their kind. -/
def wrapInt : Ty → Int → Except ApiError (Val Address)
  | .i128, n => .ok (.i128 ⟨(n + 2 ^ 127) % 2 ^ 128 - 2 ^ 127, by omega⟩)
  | .u64, n => .ok (.u64 ⟨(n % 2 ^ 64).toNat, by omega⟩)
  | .u32, n => .ok (.u32 ⟨(n % 2 ^ 32).toNat, by omega⟩)
  | _, _ => .error (.error "invalid type")

def testVectors : VectorEnv where
  configured := true
  poolContractConfigured := true
  platformAddress := .account 0
  address _ := .account 1
  fromXDR _ := none
  verify _ _ _ := false
  stroops amount := amount.num * 10000000 / amount.den
  sha256 _ := List.replicate 32 0
  centavos amount := amount.num * 100 / amount.den
  u64 n := .ok n.toNat
  isAddress _ := true
  nativeToScVal := wrapInt
  serverConfigured := true
  poolContractId := some "pool"
  brltContractId := some "brlt"

theorem testVectors_encodesInts : testVectors.EncodesInts where
  i128 {n v} h := by
    cases h
    exact ⟨_, rfl, fun hrange => by simp only [Ty.InRange] at hrange ⊢; omega⟩
  u64 {n v} h := by
    cases h
    exact ⟨_, rfl, fun hrange => by simp only [Ty.InRange] at hrange ⊢; omega⟩
  u32 {n v} h := by
    cases h
    exact ⟨_, rfl, fun hrange => by simp only [Ty.InRange] at hrange ⊢; omega⟩

theorem agrees_iff_conforms_deposit :
    ∃ v, (CallSite.buildDepositTx "investor" 1).vector testVectors = .ok v ∧
      Agrees v ((CallSite.buildDepositTx "investor" 1).intent testVectors) := by
  refine ⟨_, rfl, (agrees_iff_conforms testVectors testVectors_encodesInts (fun _ => rfl) (.buildDepositTx "investor" 1) _
    rfl).mpr ⟨rfl, (by rintro _ ⟨⟩), fun p hp => ?_⟩⟩
  obtain rfl := List.mem_singleton.mp hp
  have hone : testVectors.stroops 1 = 10000000 := rfl
  simp only [Ty.InRange, hone]
  omega

/-- The transfer to the platform has three arguments, where the function has two parameters. -/
theorem transferNftToPlatform_disagrees :
    ∃ v, (CallSite.transferNftToPlatform "receivable").vector testVectors = .ok v ∧
      ¬Agrees v ((CallSite.transferNftToPlatform "receivable").intent testVectors) :=
  ⟨_, rfl, fun ⟨_, h, _⟩ => nomatch h⟩

end Examples
end CredBridge.Api
