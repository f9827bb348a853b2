import Mathlib.Data.List.Sort
import ZswapKernel.Node.PriceMap

/-!
# The poster's journal

`deploy/scripts/lib/poster-journal.ts`: every coin the offer poster adopted, and every offer it made
of the coin. A mutation is on disk before its call returns, so a crash finds the journal as the last
call left it.

Left out: the times and the quote kept with an offer, the summary, and the checks that open a file.
-/

namespace ZswapKernel

/-- `COIN_STATES`. -/
inductive CoinState
  | available
  | offered
  | spent
  | lost
  deriving DecidableEq, Repr

/-- `OFFER_STATUSES`: `rejected` is the poster's own word for a post the kernel refused. -/
inductive OfferStatus
  | live
  | consumed
  | expired
  | cancelled
  | rejected
  | unknown
  deriving DecidableEq, Repr

/-- `RELEASABLE_STATUSES`. -/
def OfferStatus.releasable : OfferStatus → Bool
  | .expired | .cancelled | .rejected => true
  | .live | .consumed | .unknown => false

/-- `NON_TERMINAL_STATUSES`. -/
def OfferStatus.nonTerminal : OfferStatus → Bool
  | .live | .unknown => true
  | .consumed | .expired | .cancelled | .rejected => false

/-- `mapKernelStatus` of a text. -/
def mapKernelStatus (raw : String) : OfferStatus :=
  let status := toLowerCase (trim raw)
  if status = "live" then .live
  else if status = "consumed" then .consumed
  else if status = "cancelled" then .cancelled
  else if status = "expired" then .expired
  else .unknown

structure JournalOffer where
  offerId : String
  blobSha256 : String
  ttlSec : Nat
  wantColour : String
  wantAmount : Nat
  status : OfferStatus
  deriving DecidableEq, Repr

structure JournalCoin where
  type : String
  value : Nat
  nullifier : String
  acquiredAt : Int
  state : CoinState
  offers : List JournalOffer
  deriving DecidableEq, Repr

/-- The coins under their nonces, in the order they were adopted. -/
structure PosterJournal where
  coins : List (String × JournalCoin) := []
  deriving DecidableEq, Repr

/-- `JournalErrorCode`, of an open journal. -/
inductive JournalErrorCode
  | unknownCoin
  | unknownOffer
  | duplicateCoin
  | duplicateOffer
  | invalidArgument
  deriving DecidableEq, Repr

structure JournalError where
  code : JournalErrorCode
  message : String
  deriving DecidableEq, Repr

/-- `normaliseNonce`. -/
def normaliseNonce (nonce : String) : Except JournalError String :=
  if trim nonce = "" then .error ⟨.invalidArgument, "coin nonce must be a non-empty string"⟩
  else .ok (toLowerCase (trim nonce))

/-- `RecordOfferInput`. -/
structure RecordOfferInput where
  offerId : String
  blobSha256 : String
  ttlSec : Nat
  wantColour : String
  wantAmount : Nat
  status : OfferStatus
  deriving DecidableEq, Repr

namespace PosterJournal

/-- The record under a normalised nonce. -/
def find (journal : PosterJournal) (key : String) : Option JournalCoin := journal.coins.lookup key

/-- Write a record back. -/
def replace (journal : PosterJournal) (key : String) (coin : JournalCoin) : PosterJournal :=
  ⟨journal.coins.map fun entry => if entry.1 = key then (key, coin) else entry⟩

/-- `getCoin`. -/
def getCoin (journal : PosterJournal) (nonce : String) :
    Except JournalError (Option JournalCoin) := do
  let key ← normaliseNonce nonce
  return journal.find key

/-- `#requireCoin`. -/
def requireCoin (journal : PosterJournal) (key : String) : Except JournalError JournalCoin :=
  match journal.find key with
  | some coin => .ok coin
  | none => .error ⟨.unknownCoin, s!"no journaled coin with nonce {key}"⟩

/-- `recordInventory`. -/
def recordInventory (journal : PosterJournal) (nonce type : String) (value : Nat)
    (nullifier : String) (now : Int) : Except JournalError PosterJournal := do
  let key ← normaliseNonce nonce
  if (journal.find key).isSome then
    throw ⟨.duplicateCoin, s!"coin {key} is already journaled"⟩
  if type = "" then
    throw ⟨.invalidArgument, "coin type must be a non-empty string"⟩
  return ⟨journal.coins ++
    [(key, ⟨toLowerCase type, value, toLowerCase nullifier, now, .available, []⟩)]⟩

/-- `recordOffer`. A rejected post does not claim the coin. -/
def recordOffer (journal : PosterJournal) (nonce : String) (input : RecordOfferInput) :
    Except JournalError PosterJournal := do
  let key ← normaliseNonce nonce
  let coin ← journal.requireCoin key
  let offerId := toLowerCase input.offerId
  if offerId = "" then
    throw ⟨.invalidArgument, "offerId must be a non-empty string"⟩
  if coin.offers.any (·.offerId = offerId) then
    throw ⟨.duplicateOffer, s!"offer {offerId} is already recorded on coin {key}"⟩
  let offer : JournalOffer := ⟨offerId, toLowerCase input.blobSha256, input.ttlSec,
    toLowerCase input.wantColour, input.wantAmount, input.status⟩
  return journal.replace key { coin with
    offers := coin.offers ++ [offer]
    state := if input.status = .rejected then coin.state else .offered }

/-- `setOfferStatus`. It does not change the state of the coin. -/
def setOfferStatus (journal : PosterJournal) (nonce offerId : String) (status : OfferStatus) :
    Except JournalError PosterJournal := do
  let key ← normaliseNonce nonce
  let coin ← journal.requireCoin key
  let wanted := toLowerCase offerId
  match coin.offers.findIdx? (·.offerId = wanted) with
  | none => throw ⟨.unknownOffer, s!"coin {key} has no offer {wanted}"⟩
  | some index => return journal.replace key { coin with
      offers := coin.offers.modify index fun offer => { offer with status } }

/-- `markSpent`. -/
def markSpent (journal : PosterJournal) (nonce : String) : Except JournalError PosterJournal := do
  let key ← normaliseNonce nonce
  let coin ← journal.requireCoin key
  return journal.replace key { coin with state := .spent }

/-- The latest offer of a coin is absent or over. -/
def released (coin : JournalCoin) : Bool :=
  match coin.offers.getLast? with
  | none => true
  | some latest => latest.status.releasable

/-- The order of `candidates`: oldest acquisition first, then by nonce. -/
def older (a b : String × JournalCoin) : Prop :=
  a.2.acquiredAt < b.2.acquiredAt ∨ a.2.acquiredAt = b.2.acquiredAt ∧ a.1 ≤ b.1

instance : DecidableRel older := fun a b => inferInstanceAs (Decidable (_ ∨ _))

/-- `candidates`. -/
def candidates (journal : PosterJournal) (availableNonces : List String) :
    List (String × JournalCoin) :=
  let available := (availableNonces.map trim).filterMap fun nonce =>
    if nonce = "" then none else some (toLowerCase nonce)
  (journal.coins.filter fun (nonce, coin) =>
    (coin.state = .available || coin.state = .offered) && nonce ∈ available && released coin)
    |>.insertionSort older

/-- `nonTerminalOffers`. -/
def nonTerminalOffers (journal : PosterJournal) : List (String × JournalOffer) :=
  journal.coins.flatMap fun (nonce, coin) =>
    if coin.state = .spent ∨ coin.state = .lost then []
    else (coin.offers.filter (·.status.nonTerminal)).map fun offer => (nonce, offer)

end PosterJournal

end ZswapKernel
