import CredBridge.Theorems.InvoiceLifecycle
import CredBridge.Theorems.InvoiceRegistry

/-! # Sale listings and the records they are about

A listing repeats the owner, the advance and the rate of the record that it puts up for sale. Both are written by the
one call that lists, and from then on the record changes its status only; so the two agree for good. What the call
does not compare is the advance and the value with which the invoice was tokenized: it takes the face value from its
caller. -/

namespace CredBridge.Contracts.NfeTokenization
open Result Machine

/-- A listing that says what the record says. -/
structure Describes (listing : SaleListingData) (nfeData : NfeData) : Prop where
  owner : listing.owner = nfeData.owner
  advanceAmount : listing.requestedAdvanceAmount = nfeData.advanceAmount
  rateBps : listing.requestedRateBps = nfeData.rateBps

def SaleListingData.Bounded (listing : SaleListingData) : Prop :=
  0 < listing.requestedAdvanceAmount ∧ listing.requestedAdvanceAmount ≤ listing.faceValue

/-- The record that the listing leaves. -/
def SaleListingData.record (listing : SaleListingData) (nfeData : NfeData) : NfeData :=
  { nfeData with
    status := .listedForSale, rateBps := listing.requestedRateBps, advanceAmount := listing.requestedAdvanceAmount }

/-- The listing of a key and its record, in step. -/
structure ListingInStep {ν : Type} (key : String) (w : World ν) : Prop where
  described : ∀ listing, w.storage.saleListing.lookup key = some listing →
    listing.Bounded ∧ ∃ nfeData, findNfe w key = some nfeData ∧ Describes listing nfeData ∧
      (nfeData.status = .listedForSale ∨ nfeData.status = .soldToPool ∨ nfeData.status = .settled)
  listed : ∀ nfeData, findNfe w key = some nfeData → nfeData.status = .listedForSale ∨ nfeData.status = .soldToPool →
    (w.storage.saleListing.lookup key).isSome

/-- Sold, and listed before that. -/
def Sold {ν : Type} (key : String) (w : World ν) : Prop :=
  statusOf key w = some .soldToPool ∨
    statusOf key w = some .settled ∧ (w.storage.saleListing.lookup key).isSome

/-- Listed or past that. -/
def Past {ν : Type} (key : String) (w : World ν) : Prop :=
  statusOf key w = some .listedForSale ∨ statusOf key w = some .soldToPool ∨ statusOf key w = some .settled

def Invocation.lists (key : String) (i : Invocation) : Bool := (i.listing key).isSome

theorem listing_eq_some {i : Invocation} {key : String} {listing : SaleListingData}
    (h : i.listing key = some listing) :
    i.call = .listInvoiceForSale listing.owner key listing.faceValue listing.requestedAdvanceAmount
      listing.requestedRateBps listing.maturityTimestamp := by
  unfold Invocation.listing at h
  split at h
  · next hcall =>
    split at h
    · next hk =>
      cases h
      rw [hcall, hk]
    · cases h
  · cases h

section Steps
variable {ν : Type} {N : NonFungible ν} {w w' : World ν} {i : Invocation} {key : String} {listing : SaleListingData}
  {platform : Address}

theorem getSaleListing_eq_ok : getSaleListing w key = .ok listing ↔ w.storage.saleListing.lookup key = some listing :=
  orThrow_eq_ok

/-- The call that lists a key finds its record active and writes the terms into it. -/
theorem step_listing (h : step N w i = .ok w') (hlisting : i.listing key = some listing) :
    listing.Bounded ∧ w'.storage.saleListing.lookup key = some listing ∧
      ∃ nfeData, findNfe w key = some nfeData ∧ nfeData.owner = listing.owner ∧ nfeData.status = .active ∧
        findNfe w' key = some (listing.record nfeData) := by
  have hkeeps := (invoke_keeps h).saleListing key
  rw [show (⟨i.env, i.call⟩ : Invocation) = i from rfl, hlisting, Option.some_or] at hkeeps
  unfold step at h
  rw [listing_eq_some hlisting] at h
  obtain ⟨hrecord, hpositive, hbound⟩ := listInvoiceForSale_checked h
  exact ⟨⟨hpositive, hbound⟩, hkeeps, hrecord⟩

theorem step_saleListing (h : step N w i = .ok w') (hlisting : i.listing key = none) :
    w'.storage.saleListing.lookup key = w.storage.saleListing.lookup key := by
  have hkeeps := (invoke_keeps h).saleListing key
  rwa [show (⟨i.env, i.call⟩ : Invocation) = i from rfl, hlisting, Option.none_or] at hkeeps

theorem listingInStep_construct (tokens : ν) (platform : Address) (key : String) :
    ListingInStep key (construct tokens platform) where
  described _ h := nomatch h
  listed _ h := nomatch h

theorem ListingInStep.unlisted (hw : ListingInStep key w) {nfeData : NfeData} (hfind : findNfe w key = some nfeData)
    (hstatus : nfeData.status = .active) : w.storage.saleListing.lookup key = none := by
  rw [Option.eq_none_iff_forall_ne_some]
  intro listing hlookup
  obtain ⟨-, found, hfound, -, hpast⟩ := hw.described listing hlookup
  cases hfind.symm.trans hfound
  rw [hstatus] at hpast
  simp at hpast

/-- What a step that does not list the key makes of its listing and its record: the later the status, the less of the
    record it writes. -/
theorem ListingInStep.after (hw : ListingInStep key w) (h : step N w i = .ok w') : ListingInStep key w' := by
  cases hlisting : i.listing key with
  | some listing =>
    obtain ⟨hbounded, hlookup, nfeData, hfind, howner, -, hfind'⟩ := step_listing h hlisting
    refine ⟨fun found hfound => ?_, fun _ _ _ => by rw [hlookup]; rfl⟩
    cases hlookup.symm.trans hfound
    exact ⟨hbounded, _, hfind', ⟨howner.symm, rfl, rfl⟩, .inl rfl⟩
  | none =>
    have hlookup := step_saleListing h hlisting
    rcases (step_effect h).found key with hsame | ⟨hnone, nfeData, hfind, hstatus⟩ | ⟨old, new, hold, hnew, hupdates⟩
    · constructor
      · rw [hlookup, hsame]
        exact hw.described
      · rw [hlookup, hsame]
        exact hw.listed
    · constructor
      · rw [hlookup]
        intro listing hfound
        obtain ⟨-, found, hrecord, -⟩ := hw.described listing hfound
        cases hnone.symm.trans hrecord
      · intro found hrecord hpast
        cases hfind.symm.trans hrecord
        rw [hstatus] at hpast
        simp at hpast
    · generalize hcall : i.call = call at hupdates
      cases hupdates with
      | listed hstatus htokens =>
        unfold Invocation.listing at hlisting
        simp [hcall] at hlisting
      | sold hstatus htokens =>
        constructor
        · rw [hlookup]
          intro listing hfound
          obtain ⟨hbounded, found, hrecord, hdescribes, -⟩ := hw.described listing hfound
          cases hold.symm.trans hrecord
          exact ⟨hbounded, _, hnew, ⟨hdescribes.owner, hdescribes.advanceAmount, hdescribes.rateBps⟩, .inr (.inl rfl)⟩
        · rw [hlookup]
          exact fun _ _ _ => hw.listed old hold (.inl hstatus)
      | transferred hstatus htransfer =>
        have hunlisted := hw.unlisted hold hstatus
        constructor
        · rw [hlookup, hunlisted]
          exact fun _ hfound => nomatch hfound
        · intro found hrecord hpast
          cases hnew.symm.trans hrecord
          simp [hstatus] at hpast
      | settled hstatus hburn =>
        constructor
        · rw [hlookup]
          intro listing hfound
          obtain ⟨hbounded, found, hrecord, hdescribes, -⟩ := hw.described listing hfound
          cases hold.symm.trans hrecord
          exact ⟨hbounded, _, hnew, ⟨hdescribes.owner, hdescribes.advanceAmount, hdescribes.rateBps⟩, .inr (.inr rfl)⟩
        · intro found hrecord hpast
          cases hnew.symm.trans hrecord
          simp at hpast

/-- No call lists a key that has a listing. -/
theorem ListingInStep.kept (hw : ListingInStep key w) (h : step N w i = .ok w')
    (hlookup : w.storage.saleListing.lookup key = some listing) : w'.storage.saleListing.lookup key = some listing := by
  cases hlisting : i.listing key with
  | none => rw [step_saleListing h hlisting, hlookup]
  | some new =>
    obtain ⟨-, -, nfeData, hfind, -, hstatus, -⟩ := step_listing h hlisting
    cases (hw.unlisted hfind hstatus).symm.trans hlookup

/-- Only the platform's call sells: a record that settles unsold has no listing. -/
theorem ListingInStep.sold (hw : ListingInStep key w) (h : step N w i = .ok w') (hsold : Sold key w') :
    Sold key w ∨ i.call.marksAsSold key = true := by
  have hstatus' : ∀ nfeData, findNfe w' key = some nfeData → nfeData.status = .soldToPool ∨ nfeData.status = .settled := by
    intro nfeData hfind
    unfold Sold statusOf at hsold
    rw [hfind] at hsold
    simp only [Option.map_some, Option.some.injEq] at hsold
    exact hsold.imp_right And.left
  have hlookup : w'.storage.saleListing.lookup key = w.storage.saleListing.lookup key := by
    cases hlisting : i.listing key with
    | none => exact step_saleListing h hlisting
    | some listing =>
      obtain ⟨-, -, nfeData, -, -, -, hfind'⟩ := step_listing h hlisting
      rcases hstatus' _ hfind' with hpast | hpast <;> cases hpast
  rcases (step_effect h).found key with hsame | ⟨-, nfeData, hfind, hactive⟩ | ⟨old, new, hold, hnew, hupdates⟩
  · unfold Sold statusOf at hsold
    rw [hsame, hlookup] at hsold
    exact .inl hsold
  · rcases hstatus' _ hfind with hpast | hpast <;> cases hactive.symm.trans hpast
  · generalize hcall : i.call = call at hupdates
    cases hupdates with
    | listed hstatus htokens => rcases hstatus' _ hnew with hpast | hpast <;> cases hpast
    | sold hstatus htokens => exact .inr (decide_eq_true rfl)
    | transferred hstatus htransfer =>
      rcases hstatus' _ hnew with hpast | hpast <;> cases hstatus.symm.trans hpast
    | settled hstatus hburn =>
      left
      rcases hstatus with hstatus | hstatus
      · unfold Sold at hsold
        rw [hlookup, hw.unlisted hold hstatus] at hsold
        simp [statusOf, hnew] at hsold
      · left
        rw [statusOf, hold, Option.map_some, hstatus]

end Steps

section Runs
variable {ν : Type} {N : NonFungible ν} {w : World ν} {key : String} {listing : SaleListingData} {is : List Invocation}

theorem ListingInStep.run (hw : ListingInStep key w) (is : List Invocation) :
    ListingInStep key (Machine.run (step N) w is) :=
  run_of_step (fun _ _ _ hs h => hs.after h) hw is

theorem accepted_of_listing (hw : ListingInStep key w) (hnew : w.storage.saleListing.lookup key = none)
    (hlookup : (run (step N) w is).storage.saleListing.lookup key = some listing) :
    ∃ i ∈ accepted (step N) w is, i.listing key = some listing := by
  have hbefore : ¬w.storage.saleListing.lookup key = some listing := by simp [hnew]
  obtain ⟨i, hi, s, t, -, h, hnot, hstored⟩ :=
    exists_mem_accepted (P := fun w => w.storage.saleListing.lookup key = some listing)
      (fun _ _ _ hs h => ListingInStep.after hs h) hw hbefore hlookup
  refine ⟨i, hi, ?_⟩
  cases hlisting : i.listing key with
  | none => exact absurd ((step_saleListing h hlisting).symm.trans hstored) hnot
  | some stored => exact (step_listing h hlisting).2.1.symm.trans hstored

theorem listing_of_accepted (hw : ListingInStep key w) {i : Invocation} (hi : i ∈ accepted (step N) w is)
    (hlisting : i.listing key = some listing) :
    (run (step N) w is).storage.saleListing.lookup key = some listing := by
  refine mark_of_mem_accepted
    (M := fun i w => ∀ listing, i.listing key = some listing → w.storage.saleListing.lookup key = some listing)
    (fun _ _ _ hs h => ListingInStep.after hs h) (fun s i t hs h listing hlisting => ?_)
    (fun i s j t hs hmark h listing hlisting => ?_) hw i hi listing hlisting
  · exact (step_listing h hlisting).2.1
  · exact hs.kept h (hmark listing hlisting)

theorem accepted_of_sold (hw : ListingInStep key w) (hnew : ¬Sold key w) (hsold : Sold key (run (step N) w is)) :
    ∃ i ∈ accepted (step N) w is, i.call.marksAsSold key = true := by
  obtain ⟨i, hi, s, t, hs, h, hnot, hafter⟩ :=
    exists_mem_accepted (fun _ _ _ hs h => ListingInStep.after hs h) hw hnew hsold
  exact ⟨i, hi, (hs.sold h hafter).resolve_left hnot⟩

theorem listed_of_sold (hw : ListingInStep key w) {i : Invocation} (hi : i ∈ accepted (step N) w is)
    (hsold : i.call.marksAsSold key = true) : ((run (step N) w is).storage.saleListing.lookup key).isSome := by
  refine mark_of_mem_accepted
    (M := fun i w => i.call.marksAsSold key = true → (w.storage.saleListing.lookup key).isSome)
    (fun _ _ _ hs h => ListingInStep.after hs h) (fun s i t hs h hsold => ?_) (fun i s j t hs hmark h hsold => ?_)
    hw i hi hsold
  · obtain ⟨nfeData, hfind, hstatus⟩ := Option.map_eq_some_iff.mp ((step_effect h).marksAsSold hsold).1
    obtain ⟨listing, hlookup⟩ := Option.isSome_iff_exists.mp (hs.listed nfeData hfind (.inl hstatus))
    rw [hs.kept h hlookup]
    rfl
  · obtain ⟨listing, hlookup⟩ := Option.isSome_iff_exists.mp (hmark hsold)
    rw [hs.kept h hlookup]
    rfl

/-- The statuses of a key that has a listing. -/
theorem ListingInStep.exists_listing_iff (hw : ListingInStep key w) :
    (∃ listing, w.storage.saleListing.lookup key = some listing) ↔
      statusOf key w = some .listedForSale ∨ Sold key w := by
  unfold Sold
  constructor
  · rintro ⟨listing, hlookup⟩
    obtain ⟨-, nfeData, hfind, -, hstatus⟩ := hw.described listing hlookup
    rw [statusOf, hfind, hlookup]
    simpa using hstatus
  · intro hstatus
    have hlisted : (w.storage.saleListing.lookup key).isSome := by
      rcases hstatus with hstatus | hstatus | ⟨-, hlisted⟩
      · obtain ⟨nfeData, hfind, hstatus⟩ := Option.map_eq_some_iff.mp hstatus
        exact hw.listed nfeData hfind (.inl hstatus)
      · obtain ⟨nfeData, hfind, hstatus⟩ := Option.map_eq_some_iff.mp hstatus
        exact hw.listed nfeData hfind (.inr hstatus)
      · exact hlisted
    exact Option.isSome_iff_exists.mp hlisted

theorem Past.after {w' : World ν} {i : Invocation} (hw : Past key w) (h : step N w i = .ok w') : Past key w' := by
  unfold Past at *
  rcases (step_effect h).follows key with hsame | hfollows
  · rwa [hsame]
  · generalize statusOf key w = old at hw hfollows
    generalize statusOf key w' = new at hfollows
    cases hfollows with
    | sold => exact .inr (.inl rfl)
    | settledSold => exact .inr (.inr rfl)
    | _ => simp at hw

theorem lists_once (w : World ν) (key : String) (is : List Invocation) :
    (accepted (step N) w is).countP (Invocation.lists key) ≤ 1 := by
  refine countP_accepted_le_one (A := Past key) (fun s i t hi h => ?_) (fun s i t hi h => ?_)
    (fun s i t hs h => hs.after h) w is
  · obtain ⟨listing, hlisting⟩ := Option.isSome_iff_exists.mp hi
    obtain ⟨-, -, nfeData, hfind, -, hactive, -⟩ := step_listing h hlisting
    simp [Past, statusOf, hfind, hactive]
  · obtain ⟨listing, hlisting⟩ := Option.isSome_iff_exists.mp hi
    obtain ⟨-, -, nfeData, -, -, -, hfind⟩ := step_listing h hlisting
    simp [Past, statusOf, hfind, SaleListingData.record]

/-- In every state that a run reaches, a key has a listing exactly if a call listed it, and it is that call's; its
    record is then listed, sold, or settled after a sale. Once stored, the listing is never written again, and it says
    what the record says. -/
theorem listing_consistent (N : NonFungible ν) (tokens : ν) (platform : Address) (key : String)
    (is : List Invocation) :
    let w := construct tokens platform
    let w' := run (step N) w is
    (∀ listing, getSaleListing w' key = .ok listing ↔
      ∃ i ∈ accepted (step N) w is, i.listing key = some listing) ∧
    ((∃ listing, getSaleListing w' key = .ok listing) ↔
      statusOf key w' = some .listedForSale ∨ statusOf key w' = some .soldToPool ∨
        statusOf key w' = some .settled ∧ ∃ i ∈ accepted (step N) w is, i.call.marksAsSold key = true) ∧
    (accepted (step N) w is).countP (Invocation.lists key) ≤ 1 ∧
    Onward (step N) (fun w w' => ∀ listing, getSaleListing w key = .ok listing → getSaleListing w' key = .ok listing)
      w is ∧
    ∀ listing, getSaleListing w' key = .ok listing →
      listing.Bounded ∧ ∃ nfeData, findNfe w' key = some nfeData ∧ Describes listing nfeData := by
  intro w w'
  have hstart : ListingInStep key w := listingInStep_construct tokens platform key
  have hend : ListingInStep key w' := hstart.run is
  simp only [getSaleListing_eq_ok]
  refine ⟨fun listing => ⟨accepted_of_listing hstart rfl, ?_⟩, ?_, lists_once w key is, ?_, fun listing hlookup => ?_⟩
  · rintro ⟨i, hi, hlisting⟩
    exact listing_of_accepted hstart hi hlisting
  · rw [hend.exists_listing_iff]
    refine or_congr_right (or_congr_right (and_congr_right fun hsettled => ⟨fun hlisted => ?_, ?_⟩))
    · exact accepted_of_sold hstart (by simp [Sold, w, construct, statusOf, findNfe]) (.inr ⟨hsettled, hlisted⟩)
    · rintro ⟨i, hi, hsold⟩
      exact listed_of_sold hstart hi hsold
  · exact onward_of_along (I := ListingInStep key) (Q := fun _ _ => True) (fun _ _ h => h)
      (fun _ _ _ h h' listing hlookup => h' listing (h listing hlookup))
      (fun s i t hs _ h => ⟨hs.after h, fun listing => hs.kept h⟩) hstart (.of_all (fun _ _ => trivial) w is)
  · obtain ⟨hbounded, nfeData, hfind, hdescribes, -⟩ := hend.described listing hlookup
    exact ⟨hbounded, nfeData, hfind, hdescribes⟩

end Runs

/-! ### The advance and the tokenized value -/

/-- An invoice on sale or sold advances something, and no more than the value that it was tokenized with. -/
def AdvancesWithin {ν : Type} (w : World ν) : Prop :=
  ∀ key nfeData, findNfe w key = some nfeData → nfeData.status = .listedForSale ∨ nfeData.status = .soldToPool →
    0 < nfeData.advanceAmount ∧ nfeData.advanceAmount ≤ nfeData.value

/-- A call that asks for no more than the value of the invoice it lists. -/
def Call.AsksWithin {ν : Type} (w : World ν) : Call → Prop
  | .listInvoiceForSale _ key _ requestedAdvanceAmount _ _ =>
    ∀ nfeData, findNfe w key = some nfeData → requestedAdvanceAmount ≤ nfeData.value
  | _ => True

section Advances
variable {ν : Type} {N : NonFungible ν} {w w' : World ν} {i : Invocation}

theorem asksWithin_iff (h : step N w i = .ok w') (hw : AdvancesWithin w) : AdvancesWithin w' ↔ i.call.AsksWithin w := by
  constructor
  · intro hw'
    cases hcall : i.call with
    | listInvoiceForSale owner key faceValue advanceAmount rateBps maturityTimestamp =>
      intro nfeData hfind
      unfold step at h
      rw [hcall] at h
      obtain ⟨⟨found, hfound, -, -, hfind'⟩, -⟩ := listInvoiceForSale_checked h
      cases hfind.symm.trans hfound
      exact (hw' key _ hfind' (.inl rfl)).2
    | _ => trivial
  · intro hasks key new hnew hstatus
    rcases (step_effect h).found key with hsame | ⟨-, nfeData, hfind, hactive⟩ | ⟨old, found, hold, hfound, hupdates⟩
    · exact hw key new (hsame ▸ hnew) hstatus
    · cases hfind.symm.trans hnew
      simp [hactive] at hstatus
    · cases hfound.symm.trans hnew
      generalize hcall : i.call = call at hasks hupdates
      cases hupdates with
      | listed hactive htokens =>
        unfold step at h
        rw [hcall] at h
        exact ⟨(listInvoiceForSale_checked h).2.1, hasks old hold⟩
      | sold hlisted htokens => exact hw key old hold (.inl hlisted)
      | transferred hactive htransfer => simp [hactive] at hstatus
      | settled hlive hburn => simp at hstatus

/-- What is on sale or sold advances no more than the tokenized value throughout a run exactly if each call that lists
    an invoice asks for no more than that. The face value that the call brings bounds nothing. -/
theorem advances_within_iff (N : NonFungible ν) (tokens : ν) (platform : Address) (is : List Invocation) :
    Throughout (step N) AdvancesWithin (construct tokens platform) is ↔
      Along (step N) (fun w i => ∀ w', step N w i = .ok w' → i.call.AsksWithin w) (construct tokens platform) is :=
  throughout_iff_along (I := fun _ => True) (fun _ _ _ _ _ => trivial) (fun _ _ _ _ hw h => asksWithin_iff h hw) trivial
    fun _ _ hfind => nomatch hfind

end Advances

def listsFor (faceValue advanceAmount : Int) : Invocation :=
  ⟨everyoneSigns, .listInvoiceForSale pme "invoice" faceValue advanceAmount 150 0⟩

/-- The PME lists an invoice of 10000 with a face value of 20000, and asks for 15000. -/
theorem advances_beyond_value :
    ¬Throughout (step ownedTokens) AdvancesWithin (construct .empty platform)
      [tokenizes "invoice" 1, listsFor 20000 15000] := by
  intro h
  have hend := h.last
  obtain ⟨nfeData, hfind, hstatus, hbeyond⟩ : ∃ nfeData,
      findNfe (run (step ownedTokens) (construct .empty platform) [tokenizes "invoice" 1, listsFor 20000 15000])
        "invoice" = some nfeData ∧ nfeData.status = .listedForSale ∧ nfeData.value < nfeData.advanceAmount :=
    ⟨_, rfl, rfl, by decide⟩
  exact absurd (hend "invoice" nfeData hfind (.inl hstatus)).2 (Int.not_le.mpr hbeyond)

end CredBridge.Contracts.NfeTokenization
